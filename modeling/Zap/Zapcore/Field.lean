import Zap.Zapcore.Entry

/-!
# Zap.Zapcore.Field — marshalers as programs over the encoder interfaces, and `Field.AddTo`

A user's `ObjectMarshaler` (`ArrayMarshaler`) is Go code that calls the methods of the
`ObjectEncoder` (`ArrayEncoder`) it is given and returns an `error`.  What it does is determined by
the errors those methods return, so it is modelled as a program: a tree whose nodes are the method
calls, with the rest of the program a function of the error each call returned (the free monad of
the interface).  Each encoder interprets these programs its own way; zap's own code that writes
through the interface (`Field.AddTo`, `encodeError`, `errArray`, `dictObject`) is such a program.

* `PrimitiveCall`: the calls a `LevelEncoder`, `TimeEncoder`, ... callback makes (they return nothing).
* `Field`: one constructor per `FieldType`, carrying what `AddTo` reads for that type.
* `Field.addTo`, `encodeError`, `encodeStringer`, `errArray`, `addFields`: as in `field.go`, `error.go`.
-/

namespace Zap.Zapcore

open Go Go.Utf8

/-- A value given to `AddReflected`/`AppendReflected`: `none` is the nil interface.  Only the
`ReflectedEncoder` reads the rest. -/
abbrev Reflected := Option Nat

/-- A call on a `PrimitiveArrayEncoder`; its methods return nothing.  `AppendInt`, `AppendInt32`,
... are `appendInt64` of the converted value, `AppendUint*` and `AppendUintptr` are
`appendUint64`.  `appendTimeLayout` is the call `encodeTimeLayout` makes on an encoder that has
`AppendTimeLayout`. -/
inductive PrimitiveCall where
  | appendBool (v : Bool)
  | appendByteString (v : List UInt8)
  | appendComplex128 (re im : UInt64)
  | appendComplex64 (re im : UInt32)
  | appendFloat64 (v : UInt64)
  | appendFloat32 (v : UInt32)
  | appendInt64 (v : Int64)
  | appendString (v : List UInt8)
  | appendUint64 (v : UInt64)
  | appendTimeLayout (t : Time) (layout : List UInt8)

/-- The value of an `ObjectEncoder.Add*` method that takes a key and returns nothing, by the
method's Go type (`AddInt32` takes an `int32`, `AddUintptr` a `uintptr`).  `AddInt` and `AddUint`
are modelled as `AddInt64` and `AddUint64` of the converted value. -/
inductive AddValue where
  | binary (v : List UInt8)
  | byteString (v : List UInt8)
  | bool (v : Bool)
  | complex128 (re im : UInt64)
  | complex64 (re im : UInt32)
  | duration (v : Int64)
  | float64 (v : UInt64)
  | float32 (v : UInt32)
  | int64 (v : Int64)
  | int32 (v : Int32)
  | int16 (v : Int16)
  | int8 (v : Int8)
  | string (v : List UInt8)
  | time (v : Time)
  | uint64 (v : UInt64)
  | uint32 (v : UInt32)
  | uint16 (v : UInt16)
  | uint8 (v : UInt8)
  | uintptr (v : UInt64)

mutual

/-- What `MarshalLogObject(enc)` does: `ObjectEncoder` calls, then the `error` it returns. -/
inductive ObjectMarshaler where
  | done (err : Option (List UInt8))
  | addArray (key : List UInt8) (arr : ArrayMarshaler) (k : Option (List UInt8) → ObjectMarshaler)
  | addObject (key : List UInt8) (obj : ObjectMarshaler)
      (k : Option (List UInt8) → ObjectMarshaler)
  | addReflected (key : List UInt8) (v : Reflected) (k : Option (List UInt8) → ObjectMarshaler)
  | add (key : List UInt8) (v : AddValue) (k : ObjectMarshaler)
  | openNamespace (key : List UInt8) (k : ObjectMarshaler)

/-- What `MarshalLogArray(enc)` does: `ArrayEncoder` calls, then the `error` it returns. -/
inductive ArrayMarshaler where
  | done (err : Option (List UInt8))
  | appendArray (arr : ArrayMarshaler) (k : Option (List UInt8) → ArrayMarshaler)
  | appendObject (obj : ObjectMarshaler) (k : Option (List UInt8) → ArrayMarshaler)
  | appendReflected (v : Reflected) (k : Option (List UInt8) → ArrayMarshaler)
  | appendDuration (v : Int64) (k : ArrayMarshaler)
  | appendTime (v : Time) (k : ArrayMarshaler)
  | prim (c : PrimitiveCall) (k : ArrayMarshaler)

end

/-- Run `p`, then `f` of the error it returns. -/
def ObjectMarshaler.bind : ObjectMarshaler → (Option (List UInt8) → ObjectMarshaler) → ObjectMarshaler
  | .done e, f => f e
  | .addArray key arr k, f => .addArray key arr fun e => (k e).bind f
  | .addObject key obj k, f => .addObject key obj fun e => (k e).bind f
  | .addReflected key v k, f => .addReflected key v fun e => (k e).bind f
  | .add key v k, f => .add key v (k.bind f)
  | .openNamespace key k, f => .openNamespace key (k.bind f)

theorem ObjectMarshaler.bind_assoc :
    ∀ (p : ObjectMarshaler) (f g : Option (List UInt8) → ObjectMarshaler),
      (p.bind f).bind g = p.bind fun e => (f e).bind g
  | .done _, _, _ => rfl
  | .addArray key arr k, f, g => by
    simp only [bind, ObjectMarshaler.addArray.injEq, true_and]
    exact funext fun e => bind_assoc (k e) f g
  | .addObject key obj k, f, g => by
    simp only [bind, ObjectMarshaler.addObject.injEq, true_and]
    exact funext fun e => bind_assoc (k e) f g
  | .addReflected key v k, f, g => by
    simp only [bind, ObjectMarshaler.addReflected.injEq, true_and]
    exact funext fun e => bind_assoc (k e) f g
  | .add key v k, f, g => by simp only [bind, bind_assoc k f g]
  | .openNamespace key k, f, g => by simp only [bind, bind_assoc k f g]

/-- A Go `error` as `encodeError` reads it: the outcome of `Error()`, and whether it is an
`errorGroup` (with its `Errors()`, nil entries included) or else a `fmt.Formatter` (with its
`%+v`).  The type switch tests `errorGroup` first. -/
inductive GoError where
  | basic (text : Outcome (List UInt8)) (verbose : Option (List UInt8))
  | group (text : Outcome (List UInt8)) (errors : List (Option GoError))

/-- The `error` returned after a recovered panic: `fmt.Errorf("PANIC=%v", rerr)`. -/
def panicError (v : List UInt8) : List UInt8 := lit "PANIC=" ++ v

/-- The deferred `recover` of `encodeError` and `encodeStringer`: a nil pointer is written as
`"<nil>"`, any other panic becomes the returned error. -/
def recovered (key : List UInt8) (nilRecv : Bool) (v : List UInt8) : ObjectMarshaler :=
  if nilRecv then .add key (.string (lit "<nil>")) (.done none) else .done (some (panicError v))

mutual

/-- `encodeError(key, err, enc)` -/
def encodeError (key : List UInt8) : GoError → ObjectMarshaler
  | .basic (.ok basic) verbose =>
    .add key (.string basic) <|
      match verbose with
      | some v => if v ≠ basic then .add (key ++ lit "Verbose") (.string v) (.done none) else .done none
      | none => .done none
  | .group (.ok basic) errs =>
    .add key (.string basic) (.addArray (key ++ lit "Causes") (errArray errs) .done)
  | .basic (.panic nilRecv v) _ => recovered key nilRecv v
  | .group (.panic nilRecv v) _ => recovered key nilRecv v

/-- `errArray(errs).MarshalLogArray`: each non-nil error as `{"error": ...}`, stopping at the
first element that returns an error. -/
def errArray : List (Option GoError) → ArrayMarshaler
  | [] => .done none
  | none :: errs => errArray errs
  | some e :: errs =>
    .appendObject (encodeError (lit "error") e) fun r =>
      match r with
      | some m => .done (some m)
      | none => errArray errs

end

/-- `encodeStringer(key, stringer, enc)`: the outcome of `String()`. -/
def encodeStringer (key : List UInt8) : Outcome (List UInt8) → ObjectMarshaler
  | .ok s => .add key (.string s) (.done none)
  | .panic nilRecv v => recovered key nilRecv v

/-- `Field`: one constructor per `FieldType` but `UnknownType`, with the data `AddTo` reads.
The integer types, `Bool`, `Duration` and the floats keep their value in the `int64` slot
`Integer` of the Go struct (`integer`), as the constructors of `field.go` put it there. -/
inductive Field where
  | arrayMarshaler (key : List UInt8) (v : ArrayMarshaler)
  | objectMarshaler (key : List UInt8) (v : ObjectMarshaler)
  | inlineMarshaler (v : ObjectMarshaler)
  | binary (key v : List UInt8)
  | bool (key : List UInt8) (integer : Int64)
  | byteString (key v : List UInt8)
  | complex128 (key : List UInt8) (re im : UInt64)
  | complex64 (key : List UInt8) (re im : UInt32)
  | duration (key : List UInt8) (integer : Int64)
  | float64 (key : List UInt8) (integer : Int64)
  | float32 (key : List UInt8) (integer : Int64)
  | int64 (key : List UInt8) (integer : Int64)
  | int32 (key : List UInt8) (integer : Int64)
  | int16 (key : List UInt8) (integer : Int64)
  | int8 (key : List UInt8) (integer : Int64)
  | string (key v : List UInt8)
  | time (key : List UInt8) (nanos : Int64) (loc : Option Location)
  | timeFull (key : List UInt8) (v : Time)
  | uint64 (key : List UInt8) (integer : Int64)
  | uint32 (key : List UInt8) (integer : Int64)
  | uint16 (key : List UInt8) (integer : Int64)
  | uint8 (key : List UInt8) (integer : Int64)
  | uintptr (key : List UInt8) (integer : Int64)
  | reflect (key : List UInt8) (v : Reflected)
  | namespace (key : List UInt8)
  | stringer (key : List UInt8) (v : Outcome (List UInt8))
  | error (key : List UInt8) (v : GoError)
  | skip

/-- The end of `AddTo`: `if err != nil { enc.AddString(key+"Error", err.Error()) }`. -/
def addErrorField (key : List UInt8) : Option (List UInt8) → ObjectMarshaler
  | none => .done none
  | some e => .add (key ++ lit "Error") (.string e) (.done none)

/-- `f.AddTo(enc)` -/
def Field.addTo : Field → ObjectMarshaler
  | .arrayMarshaler key v => .addArray key v (addErrorField key)
  | .objectMarshaler key v => .addObject key v (addErrorField key)
  | .inlineMarshaler v => v.bind (addErrorField [])
  | .binary key v => .add key (.binary v) (.done none)
  | .bool key i => .add key (.bool (i == 1)) (.done none)
  | .byteString key v => .add key (.byteString v) (.done none)
  | .complex128 key re im => .add key (.complex128 re im) (.done none)
  | .complex64 key re im => .add key (.complex64 re im) (.done none)
  | .duration key i => .add key (.duration i) (.done none)
  | .float64 key i => .add key (.float64 i.toUInt64) (.done none)
  | .float32 key i => .add key (.float32 i.toUInt64.toUInt32) (.done none)
  | .int64 key i => .add key (.int64 i) (.done none)
  | .int32 key i => .add key (.int32 i.toInt32) (.done none)
  | .int16 key i => .add key (.int16 i.toInt16) (.done none)
  | .int8 key i => .add key (.int8 i.toInt8) (.done none)
  | .string key v => .add key (.string v) (.done none)
  | .time key nanos loc =>
    match loc with
    | some l => .add key (.time ((Time.unix nanos.toInt).In l)) (.done none)
    | none => .add key (.time (Time.unix nanos.toInt)) (.done none)
  | .timeFull key v => .add key (.time v) (.done none)
  | .uint64 key i => .add key (.uint64 i.toUInt64) (.done none)
  | .uint32 key i => .add key (.uint32 i.toUInt64.toUInt32) (.done none)
  | .uint16 key i => .add key (.uint16 i.toUInt64.toUInt16) (.done none)
  | .uint8 key i => .add key (.uint8 i.toUInt64.toUInt8) (.done none)
  | .uintptr key i => .add key (.uintptr i.toUInt64) (.done none)
  | .reflect key v => .addReflected key v (addErrorField key)
  | .namespace key => .openNamespace key (.done none)
  | .stringer key v => (encodeStringer key v).bind (addErrorField key)
  | .error key v => (encodeError key v).bind (addErrorField key)
  | .skip => .done none

/-- `addFields(enc, fields)`: each field's `AddTo` in turn; `AddTo` returns nothing. -/
def addFields : List Field → ObjectMarshaler
  | [] => .done none
  | f :: fs => f.addTo.bind fun _ => addFields fs

theorem addFields_append (fs gs : List Field) :
    addFields (fs ++ gs) = (addFields fs).bind fun _ => addFields gs := by
  induction fs with
  | nil => rfl
  | cons f fs ih => simp only [List.cons_append, addFields, ih, ObjectMarshaler.bind_assoc]

/-- `dictObject(fields).MarshalLogObject`, the marshaler of `zap.Dict`. -/
def dictObject (fs : List Field) : ObjectMarshaler := addFields fs

end Zap.Zapcore
