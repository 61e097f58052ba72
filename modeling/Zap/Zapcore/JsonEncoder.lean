import Zap.Zapcore.Encoder
import Zap.Zapcore.Escape
import Zap.Zapcore.Core

/-!
# Zap.Zapcore.JsonEncoder — `jsonEncoder`

The encoder writes into one buffer.  Every value starts with `addElementSeparator`, which puts a
comma after the last byte unless that byte is `{`, `[`, `:`, `,` or a space; objects opened by
`OpenNamespace` are counted in `openNamespaces` and closed together, and `AppendObject` closes
those opened inside it.  The `EncoderConfig`, `spaced` and the standard library are parameters:
`jsonEncoder` points to the configuration and never changes it.

* `JsonEncoder.run`, `JsonEncoder.runArray`: a marshaler program run on the encoder.
* `encodeEntry`: `EncodeEntry`, which panics on a caller when `EncodeCaller` is nil.
* `jsonOps`: the encoder as a core sees it.
-/

namespace Zap.Zapcore

open Go Go.Utf8 Go.Strconv

/-- A `jsonEncoder`: its buffer and `openNamespaces`. -/
structure JsonEncoder where
  buf : Buffer
  openNamespaces : Nat

/-- `NewJSONEncoder(cfg)`: the configuration with its line ending settled, and an empty
encoder. -/
def newJSONEncoder (cfg : EncoderConfig) : EncoderConfig × JsonEncoder :=
  ({ cfg with lineEnding := cfg.lineEndingOf }, ⟨[], 0⟩)

/-- The panic of a call of a nil func. -/
def nilFuncCall : List UInt8 := lit "runtime error: invalid memory address or nil pointer dereference"

section Methods

variable (cfg : EncoderConfig) (spaced : Bool) (std : GoStd)

/-- `enc.addElementSeparator()` -/
def addElementSeparator (buf : Buffer) : Buffer :=
  match buf.getLast? with
  | none => buf
  | some b =>
    if b = 0x7B ∨ b = 0x5B ∨ b = 0x3A ∨ b = 0x2C ∨ b = 0x20 then buf
    else if spaced then buf ++ [0x2C, 0x20] else buf ++ [0x2C]

/-- `enc.addKey(key)` -/
def addKey (buf : Buffer) (key : List UInt8) : Buffer :=
  let buf := safeAddString (addElementSeparator spaced buf ++ [0x22]) key ++ [0x22, 0x3A]
  if spaced then buf ++ [0x20] else buf

/-- `enc.AppendBool(val)` -/
def appendBool (buf : Buffer) (val : Bool) : Buffer := addElementSeparator spaced buf ++ formatBool val

/-- `enc.AppendByteString(val)` -/
def appendByteString (buf : Buffer) (val : List UInt8) : Buffer :=
  safeAddByteString (addElementSeparator spaced buf ++ [0x22]) val ++ [0x22]

/-- `enc.AppendString(val)` -/
def appendString (buf : Buffer) (val : List UInt8) : Buffer :=
  safeAddString (addElementSeparator spaced buf ++ [0x22]) val ++ [0x22]

/-- `enc.AppendInt64(val)` -/
def appendInt64 (buf : Buffer) (val : Int64) : Buffer :=
  addElementSeparator spaced buf ++ formatInt val.toInt

/-- `enc.AppendUint64(val)` -/
def appendUint64 (buf : Buffer) (val : UInt64) : Buffer :=
  addElementSeparator spaced buf ++ formatUint val.toNat

/-- `enc.appendFloat(val, bitSize)` on the bits of `val` -/
def appendFloat (buf : Buffer) (val : UInt64) (bitSize : Nat) : Buffer :=
  let buf := addElementSeparator spaced buf
  if isNaN64 val then buf ++ [0x22] ++ lit "NaN" ++ [0x22]
  else if isInf64 val true then buf ++ [0x22] ++ lit "+Inf" ++ [0x22]
  else if isInf64 val false then buf ++ [0x22] ++ lit "-Inf" ++ [0x22]
  else buf ++ std.formatFloat val bitSize

/-- `enc.appendComplex(val, precision)` on the bits of the two parts as `float64`s -/
def appendComplex (buf : Buffer) (re im : UInt64) (precision : Nat) : Buffer :=
  let buf := addElementSeparator spaced buf ++ [0x22] ++ std.formatFloat re precision
  -- `if i >= 0`: the imaginary part's own sign is written by `AppendFloat`
  let buf := if nonNeg64 im then buf ++ [0x2B] else buf
  buf ++ std.formatFloat im precision ++ [0x69, 0x22]

/-- `enc.AppendTimeLayout(time, layout)`: `AppendFormat` writes `Format`'s text as it is. -/
def appendTimeLayout (buf : Buffer) (t : Time) (layout : List UInt8) : Buffer :=
  addElementSeparator spaced buf ++ [0x22] ++ std.format t layout ++ [0x22]

theorem jsonEscape_quote : jsonEscape [0x22] = [0x5C, 0x22] := by
  rw [jsonEscape_ascii [] (by decide), jsonEscape_nil]
  decide

/-- On the layout `"`, which `Format` copies, `AppendTimeLayout` writes the quote as it is, where
`AppendString` of the formatted time escapes it. -/
theorem appendTimeLayout_quote (buf : Buffer) (t : Time) (hfmt : std.format t [0x22] = [0x22]) :
    appendTimeLayout spaced std buf t [0x22] = addElementSeparator spaced buf ++ [0x22, 0x22, 0x22] ∧
    appendString spaced buf (std.format t [0x22]) =
      addElementSeparator spaced buf ++ [0x22, 0x5C, 0x22, 0x22] ∧
    appendTimeLayout spaced std buf t [0x22] ≠ appendString spaced buf (std.format t [0x22]) := by
  have h1 : appendTimeLayout spaced std buf t [0x22] =
      addElementSeparator spaced buf ++ [0x22, 0x22, 0x22] := by
    simp [appendTimeLayout, hfmt]
  have h2 : appendString spaced buf (std.format t [0x22]) =
      addElementSeparator spaced buf ++ [0x22, 0x5C, 0x22, 0x22] := by
    simp [appendString, hfmt, safeAddString_eq, jsonEscape_quote]
  refine ⟨h1, h2, ?_⟩
  rw [h1, h2]
  intro h
  -- the two differ in length
  have hlen := congrArg List.length h
  simp at hlen

theorem appendTimeLayout_quote_verbatim :
    (⟨fun _ _ => [], fun _ => 0, id, fun _ layout => layout, fun _ => .error []⟩ : GoStd).format
        (Time.unix 0) [0x22] = [0x22] ∧
      appendTimeLayout false ⟨fun _ _ => [], fun _ => 0, id, fun _ layout => layout, fun _ => .error []⟩
          [] (Time.unix 0) [0x22] ≠
        appendString false []
          ((⟨fun _ _ => [], fun _ => 0, id, fun _ layout => layout, fun _ => .error []⟩ : GoStd).format
            (Time.unix 0) [0x22]) :=
  ⟨rfl, (appendTimeLayout_quote false _ [] (Time.unix 0) rfl).2.2⟩

/-- A `PrimitiveArrayEncoder` call on the encoder. -/
def appendPrim (buf : Buffer) : PrimitiveCall → Buffer
  | .appendBool v => appendBool spaced buf v
  | .appendByteString v => appendByteString spaced buf v
  | .appendComplex128 re im => appendComplex spaced std buf re im 64
  | .appendComplex64 re im => appendComplex spaced std buf (std.float32To64 re) (std.float32To64 im) 32
  | .appendFloat64 v => appendFloat spaced std buf v 64
  | .appendFloat32 v => appendFloat spaced std buf (std.float32To64 v) 32
  | .appendInt64 v => appendInt64 spaced buf v
  | .appendString v => appendString spaced buf v
  | .appendUint64 v => appendUint64 spaced buf v
  | .appendTimeLayout t layout => appendTimeLayout spaced std buf t layout

/-- A callback's calls, in order. -/
def appendCalls (buf : Buffer) (calls : List PrimitiveCall) : Buffer :=
  calls.foldl (appendPrim spaced std) buf

/-- `enc.AppendDuration(val)`: nanoseconds when `EncodeDuration` wrote nothing. -/
def appendDuration (buf : Buffer) (val : Int64) : Buffer :=
  let buf' := appendCalls spaced std buf ((cfg.encodeDuration.map (· val)).getD [])
  if buf'.length = buf.length then appendInt64 spaced buf' val else buf'

/-- `enc.AppendTime(val)`: `UnixNano` when `EncodeTime` wrote nothing. -/
def appendTime (buf : Buffer) (val : Time) : Buffer :=
  let buf' := appendCalls spaced std buf ((cfg.encodeTime.map (· val)).getD [])
  if buf'.length = buf.length then appendInt64 spaced buf' (Int64.ofInt val.UnixNano) else buf'

/-- `enc.AddBinary`, `enc.AddBool`, ...: the key, then the value.  `AddInt32`, `AddInt16` and
`AddInt8` are `AddInt64` of the converted value; `AddUint32`, `AddUint16`, `AddUint8` and
`AddUintptr` are `AddUint64`. -/
def addValue (buf : Buffer) (key : List UInt8) : AddValue → Buffer
  | .binary v => appendString spaced (addKey spaced buf key) (std.base64 v)
  | .byteString v => appendByteString spaced (addKey spaced buf key) v
  | .bool v => appendBool spaced (addKey spaced buf key) v
  | .complex128 re im => appendComplex spaced std (addKey spaced buf key) re im 64
  | .complex64 re im =>
    appendComplex spaced std (addKey spaced buf key) (std.float32To64 re) (std.float32To64 im) 32
  | .duration v => appendDuration cfg spaced std (addKey spaced buf key) v
  | .float64 v => appendFloat spaced std (addKey spaced buf key) v 64
  | .float32 v => appendFloat spaced std (addKey spaced buf key) (std.float32To64 v) 32
  | .int64 v => appendInt64 spaced (addKey spaced buf key) v
  | .int32 v => appendInt64 spaced (addKey spaced buf key) v.toInt64
  | .int16 v => appendInt64 spaced (addKey spaced buf key) v.toInt64
  | .int8 v => appendInt64 spaced (addKey spaced buf key) v.toInt64
  | .string v => appendString spaced (addKey spaced buf key) v
  | .time v => appendTime cfg spaced std (addKey spaced buf key) v
  | .uint64 v => appendUint64 spaced (addKey spaced buf key) v
  | .uint32 v => appendUint64 spaced (addKey spaced buf key) v.toUInt64
  | .uint16 v => appendUint64 spaced (addKey spaced buf key) v.toUInt64
  | .uint8 v => appendUint64 spaced (addKey spaced buf key) v.toUInt64
  | .uintptr v => appendUint64 spaced (addKey spaced buf key) v

/-- `enc.encodeReflected(obj)`: `null` for nil, else what the `ReflectedEncoder` wrote, less a
final newline. -/
def encodeReflected : Reflected → Except (List UInt8) (List UInt8)
  | none => .ok (lit "null")
  | some v =>
    match (cfg.newReflectedEncoder.getD std.jsonEncode) v with
    | .error e => .error e
    | .ok bs => .ok (Buffer.trimNewline bs)

/-- The start of `AppendArray`. -/
def JsonEncoder.openArray (enc : JsonEncoder) : JsonEncoder :=
  { enc with buf := addElementSeparator spaced enc.buf ++ [0x5B] }

/-- The end of `AppendArray`. -/
def JsonEncoder.closeArray (enc : JsonEncoder) : JsonEncoder := { enc with buf := enc.buf ++ [0x5D] }

/-- `enc.closeOpenNamespaces()` -/
def JsonEncoder.closeOpenNamespaces (enc : JsonEncoder) : JsonEncoder :=
  { buf := enc.buf ++ List.replicate enc.openNamespaces 0x7D, openNamespaces := 0 }

/-- The start of `AppendObject`: `openNamespaces` set aside, then the brace. -/
def JsonEncoder.openObject (enc : JsonEncoder) : JsonEncoder :=
  { buf := addElementSeparator spaced enc.buf ++ [0x7B], openNamespaces := 0 }

/-- The end of `AppendObject`: the brace, the namespaces opened inside closed, and
`openNamespaces` back to `old`. -/
def JsonEncoder.closeObject (old : Nat) (enc : JsonEncoder) : JsonEncoder :=
  { JsonEncoder.closeOpenNamespaces { enc with buf := enc.buf ++ [0x7D] } with openNamespaces := old }

/-- `enc.OpenNamespace(key)` -/
def JsonEncoder.openNamespace (enc : JsonEncoder) (key : List UInt8) : JsonEncoder :=
  { buf := addKey spaced enc.buf key ++ [0x7B], openNamespaces := enc.openNamespaces + 1 }

mutual

/-- `obj.MarshalLogObject(enc)`: the encoder after the calls, and the returned error. -/
def JsonEncoder.run : ObjectMarshaler → JsonEncoder → JsonEncoder × Option (List UInt8)
  | .done e, enc => (enc, e)
  | .addArray key arr k, enc =>
    match JsonEncoder.runArray arr (JsonEncoder.openArray spaced { enc with buf := addKey spaced enc.buf key }) with
    | (enc', e) => JsonEncoder.run (k e) (JsonEncoder.closeArray enc')
  | .addObject key obj k, enc =>
    match JsonEncoder.run obj (JsonEncoder.openObject spaced { enc with buf := addKey spaced enc.buf key }) with
    | (enc', e) => JsonEncoder.run (k e) (JsonEncoder.closeObject enc.openNamespaces enc')
  | .addReflected key v k, enc =>
    match encodeReflected cfg std v with
    | .error e => JsonEncoder.run (k (some e)) enc
    | .ok bs => JsonEncoder.run (k none) { enc with buf := addKey spaced enc.buf key ++ bs }
  | .add key v k, enc => JsonEncoder.run k { enc with buf := addValue cfg spaced std enc.buf key v }
  | .openNamespace key k, enc => JsonEncoder.run k (JsonEncoder.openNamespace spaced enc key)

/-- `arr.MarshalLogArray(enc)`: the encoder after the calls, and the returned error. -/
def JsonEncoder.runArray : ArrayMarshaler → JsonEncoder → JsonEncoder × Option (List UInt8)
  | .done e, enc => (enc, e)
  | .appendArray arr k, enc =>
    match JsonEncoder.runArray arr (JsonEncoder.openArray spaced enc) with
    | (enc', e) => JsonEncoder.runArray (k e) (JsonEncoder.closeArray enc')
  | .appendObject obj k, enc =>
    match JsonEncoder.run obj (JsonEncoder.openObject spaced enc) with
    | (enc', e) => JsonEncoder.runArray (k e) (JsonEncoder.closeObject enc.openNamespaces enc')
  | .appendReflected v k, enc =>
    match encodeReflected cfg std v with
    | .error e => JsonEncoder.runArray (k (some e)) enc
    | .ok bs => JsonEncoder.runArray (k none) { enc with buf := addElementSeparator spaced enc.buf ++ bs }
  | .appendDuration v k, enc =>
    JsonEncoder.runArray k { enc with buf := appendDuration cfg spaced std enc.buf v }
  | .appendTime v k, enc => JsonEncoder.runArray k { enc with buf := appendTime cfg spaced std enc.buf v }
  | .prim c k, enc => JsonEncoder.runArray k { enc with buf := appendPrim spaced std enc.buf c }

end

/-! The container calls without their matches: the nested run's encoder and error, by projection. -/

theorem JsonEncoder.run_addArray (key : List UInt8) (arr : ArrayMarshaler)
    (k : Option (List UInt8) → ObjectMarshaler) (enc : JsonEncoder) :
    JsonEncoder.run cfg spaced std (.addArray key arr k) enc =
      let inner := JsonEncoder.runArray cfg spaced std arr (JsonEncoder.openArray spaced { enc with buf := addKey spaced enc.buf key })
      JsonEncoder.run cfg spaced std (k inner.2) (JsonEncoder.closeArray inner.1) := by
  rw [JsonEncoder.run]

theorem JsonEncoder.run_addObject (key : List UInt8) (obj : ObjectMarshaler)
    (k : Option (List UInt8) → ObjectMarshaler) (enc : JsonEncoder) :
    JsonEncoder.run cfg spaced std (.addObject key obj k) enc =
      let inner := JsonEncoder.run cfg spaced std obj (JsonEncoder.openObject spaced { enc with buf := addKey spaced enc.buf key })
      JsonEncoder.run cfg spaced std (k inner.2) (JsonEncoder.closeObject enc.openNamespaces inner.1) := by
  rw [JsonEncoder.run]

theorem JsonEncoder.runArray_appendArray (arr : ArrayMarshaler) (k : Option (List UInt8) → ArrayMarshaler)
    (enc : JsonEncoder) :
    JsonEncoder.runArray cfg spaced std (.appendArray arr k) enc =
      let inner := JsonEncoder.runArray cfg spaced std arr (JsonEncoder.openArray spaced enc)
      JsonEncoder.runArray cfg spaced std (k inner.2) (JsonEncoder.closeArray inner.1) := by
  rw [JsonEncoder.runArray]

theorem JsonEncoder.runArray_appendObject (obj : ObjectMarshaler) (k : Option (List UInt8) → ArrayMarshaler)
    (enc : JsonEncoder) :
    JsonEncoder.runArray cfg spaced std (.appendObject obj k) enc =
      let inner := JsonEncoder.run cfg spaced std obj (JsonEncoder.openObject spaced enc)
      JsonEncoder.runArray cfg spaced std (k inner.2) (JsonEncoder.closeObject enc.openNamespaces inner.1) := by
  rw [JsonEncoder.runArray]

/-! ## `EncodeEntry` -/

/-- A callback's calls after `addKey`, then `AppendString(s)` if they wrote nothing. -/
def appendOrFallback (buf : Buffer) (calls : List PrimitiveCall) (s : List UInt8) : Buffer :=
  let buf' := appendCalls spaced std buf calls
  if buf'.length = buf.length then appendString spaced buf' s else buf'

/-- The level, time and name members of `EncodeEntry`. -/
def encodeLevelTimeName (buf : Buffer) (ent : Entry) : Buffer :=
  let buf := if cfg.levelKey ≠ [] then
      match cfg.encodeLevel with
      | some f =>
        appendOrFallback spaced std (addKey spaced buf cfg.levelKey) (f ent.level) ent.level.string
      | none => buf
    else buf
  let buf := if cfg.timeKey ≠ [] ∧ !ent.time.IsZero then
      appendTime cfg spaced std (addKey spaced buf cfg.timeKey) ent.time
    else buf
  if ent.loggerName ≠ [] ∧ cfg.nameKey ≠ [] then
    appendOrFallback spaced std (addKey spaced buf cfg.nameKey)
      ((cfg.encodeName.getD fullNameEncoder) ent.loggerName) ent.loggerName
  else buf

/-- The caller and function members of `EncodeEntry`: `final.EncodeCaller(...)` is called
without a nil check. -/
def encodeCallerFunction (buf : Buffer) (ent : Entry) : Outcome Buffer :=
  if ent.caller.defined then
    let withFunction (buf : Buffer) : Buffer :=
      if cfg.functionKey ≠ [] then appendString spaced (addKey spaced buf cfg.functionKey) ent.caller.function
      else buf
    if cfg.callerKey ≠ [] then
      match cfg.encodeCaller with
      | none => .panic false nilFuncCall
      | some f =>
        .ok (withFunction (appendOrFallback spaced std (addKey spaced buf cfg.callerKey)
          (f ent.caller) ent.caller.string))
    else .ok (withFunction buf)
  else .ok buf

theorem encodeCallerFunction_nil (hcaller : cfg.encodeCaller = none) (hkey : cfg.callerKey ≠ [])
    (buf : Buffer) {ent : Entry} (hdef : ent.caller.defined = true) :
    encodeCallerFunction cfg spaced std buf ent = .panic false nilFuncCall := by
  simp [encodeCallerFunction, hdef, hkey, hcaller]

/-- The message member of `EncodeEntry`. -/
def encodeMessage (buf : Buffer) (ent : Entry) : Buffer :=
  if cfg.messageKey ≠ [] then appendString spaced (addKey spaced buf cfg.messageKey) ent.message
  else buf

/-- The rest of `EncodeEntry` after the message: the context `enc` has collected, the fields, the
stack trace and the closing brace. -/
def encodeFields (enc : JsonEncoder) (buf : Buffer) (ent : Entry) (fields : List Field) : Buffer :=
  let buf := if enc.buf ≠ [] then addElementSeparator spaced buf ++ enc.buf else buf
  let final := (JsonEncoder.run cfg spaced std (addFields fields) ⟨buf, enc.openNamespaces⟩).1
  let buf := final.closeOpenNamespaces.buf
  let buf := if ent.stack ≠ [] ∧ cfg.stacktraceKey ≠ [] then
      appendString spaced (addKey spaced buf cfg.stacktraceKey) ent.stack
    else buf
  buf ++ [0x7D] ++ cfg.lineEnding

/-- `enc.EncodeEntry(ent, fields)` -/
def encodeEntry (enc : JsonEncoder) (ent : Entry) (fields : List Field) : Outcome (List UInt8) :=
  match encodeCallerFunction cfg spaced std (encodeLevelTimeName cfg spaced std [0x7B] ent) ent with
  | .panic nilRecv v => .panic nilRecv v
  | .ok buf => .ok (encodeFields cfg spaced std enc (encodeMessage cfg spaced buf ent) ent fields)

/-- A nil `EncodeCaller` with a `CallerKey` makes `EncodeEntry` panic on every entry with a caller. -/
theorem encodeEntry_nil_encodeCaller (hcaller : cfg.encodeCaller = none) (hkey : cfg.callerKey ≠ [])
    {ent : Entry} (hdef : ent.caller.defined = true) (fields : List Field) :
    encodeEntry (newJSONEncoder cfg).1 false std (newJSONEncoder cfg).2 ent fields =
      .panic false nilFuncCall := by
  rw [encodeEntry, encodeCallerFunction_nil (newJSONEncoder cfg).1 false std hcaller hkey _ hdef]

theorem encodeEntry_nil_encodeCaller_callerKey :
    encodeEntry (newJSONEncoder
        ⟨[], [], [], [], lit "caller", [], [], false, [], none, none, none, none, none, none, []⟩).1
      false ⟨fun _ _ => [], fun _ => 0, id, fun _ layout => layout, fun _ => .error []⟩
      (newJSONEncoder
        ⟨[], [], [], [], lit "caller", [], [], false, [], none, none, none, none, none, none, []⟩).2
      ⟨infoLevel, Time.unix 0, [], [], ⟨true, 0, [], 0, []⟩, []⟩ [] = .panic false nilFuncCall :=
  encodeEntry_nil_encodeCaller _ _ rfl (by decide) rfl []

/-- `enc.Clone()`: a copy of the buffer and of `openNamespaces`. -/
def JsonEncoder.clone (enc : JsonEncoder) : JsonEncoder := ⟨enc.buf, enc.openNamespaces⟩

/-- The encoder as an `ioCore` uses it. -/
def jsonOps : Encoder JsonEncoder where
  clone := JsonEncoder.clone
  run enc p := (JsonEncoder.run cfg spaced std p enc).1
  encodeEntry := encodeEntry cfg spaced std

end Methods

end Zap.Zapcore
