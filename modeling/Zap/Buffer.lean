import Zap.Go.Utf8

/-!
# Zap.Buffer — `buffer.Buffer`, a byte slice that only grows

A `Buffer` is its bytes; every method appends, except `TrimNewline`.
-/

namespace Zap

/-- `buffer.Buffer`: its byte slice. -/
abbrev Buffer := List UInt8

namespace Buffer

/-- `AppendByte` -/
def appendByte (b : Buffer) (v : UInt8) : Buffer := b ++ [v]

/-- `AppendBytes` -/
def appendBytes (b : Buffer) (v : List UInt8) : Buffer := b ++ v

/-- `AppendString` -/
def appendString (b : Buffer) (s : List UInt8) : Buffer := b ++ s

/-- `Write`: appends, and never fails. -/
def write (b : Buffer) (bs : List UInt8) : Buffer := b ++ bs

/-- `TrimNewline`: drops a final `\n`. -/
def trimNewline (b : Buffer) : Buffer :=
  if b.getLast? = some 0x0A then b.dropLast else b

@[simp] theorem appendByte_eq (b : Buffer) (v : UInt8) : b.appendByte v = b ++ [v] := rfl

@[simp] theorem appendBytes_eq (b : Buffer) (v : List UInt8) : b.appendBytes v = b ++ v := rfl

@[simp] theorem appendString_eq (b : Buffer) (s : List UInt8) : b.appendString s = b ++ s := rfl

@[simp] theorem write_eq (b : Buffer) (bs : List UInt8) : b.write bs = b ++ bs := rfl

end Buffer

end Zap
