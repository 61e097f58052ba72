import Zap.Go.Utf8

/-!
# Zap.Go.Strconv — `strconv.AppendInt`, `AppendUint` and `AppendBool` in base 10

The decimal digits are Lean's `Nat.toDigits 10`, written as ASCII bytes, so that the library's
facts about them (`Nat.isDigit_of_mem_toDigits`, `Nat.ofDigitChars_ten_toDigits`) carry over.
-/

namespace Go.Strconv

open Go.Utf8

/-- `strconv.AppendUint(nil, n, 10)` -/
def formatUint (n : Nat) : List UInt8 := (Nat.toDigits 10 n).flatMap String.utf8EncodeChar

/-- `strconv.AppendInt(nil, i, 10)` -/
def formatInt (i : Int) : List UInt8 :=
  if i < 0 then 0x2D :: formatUint i.natAbs else formatUint i.toNat

/-- `strconv.AppendBool(nil, b)` -/
def formatBool (b : Bool) : List UInt8 := if b then lit "true" else lit "false"

end Go.Strconv
