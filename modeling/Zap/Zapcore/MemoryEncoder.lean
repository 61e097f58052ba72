import Zap.Zapcore.Field

/-!
# Zap.Zapcore.MemoryEncoder — `MapObjectEncoder` and `sliceArrayEncoder`

The map encoder records what it is given as Go values: a `map[string]interface{}` for an
object, a `[]interface{}` for an array.  A Go map is a list of entries in which `m[k] = v`
replaces the entry for `k` in place (`mapSet`).  `OpenNamespace` moves `cur` into a fresh map
stored under the key; since nothing else can reach the maps above `cur` any more, `cur` is kept as
the path of namespace keys from `Fields`.

* `MapObjectEncoder.run`, `sliceRun`: the two encoders interpreting marshaler programs.
* `mapFields fs`: what `addFields` of `fs` leaves in the `Fields` of a new `MapObjectEncoder`.
-/

namespace Zap.Zapcore

open Go Go.Utf8

/-- A value the map encoder stores (an `interface{}`), by its Go type.  The model's marshaler
programs make `AddInt` and `AddUint` calls as `AddInt64` and `AddUint64`, and `AppendInt*` and
`AppendUint*` calls as `AppendInt64` and `AppendUint64` (`AddValue` and `PrimitiveCall` have no
`int` or `uint` case), so the encoders here never store an `int` or a `uint`, which
`MapObjectEncoder.AddInt` would; those two are here as values a caller compares `Fields` with. -/
inductive MapVal where
  | bytes (v : List UInt8)
  | string (v : List UInt8)
  | bool (v : Bool)
  | complex128 (re im : UInt64)
  | complex64 (re im : UInt32)
  | duration (v : Int64)
  | float64 (v : UInt64)
  | float32 (v : UInt32)
  | int64 (v : Int64)
  | int32 (v : Int32)
  | int16 (v : Int16)
  | int8 (v : Int8)
  | uint64 (v : UInt64)
  | uint32 (v : UInt32)
  | uint16 (v : UInt16)
  | uint8 (v : UInt8)
  | uintptr (v : UInt64)
  | int (v : Int64)
  | uint (v : UInt64)
  | time (v : Time)
  | reflected (v : Reflected)
  | map (fields : List (List UInt8 × MapVal))
  | list (elems : List MapVal)

/-- `m[k] = v` -/
def mapSet : List (List UInt8 × MapVal) → List UInt8 → MapVal → List (List UInt8 × MapVal)
  | [], k, v => [(k, v)]
  | (k', v') :: m, k, v => if k' = k then (k, v) :: m else (k', v') :: mapSet m k v

/-- `m[k]` -/
def mapGet (m : List (List UInt8 × MapVal)) (k : List UInt8) : Option MapVal :=
  (m.find? (·.1 = k)).map (·.2)

/-- `cur[k] = v` where `cur` is the map at `path` below `m`; each map on the path is the one
`OpenNamespace` stored. -/
def setAt : List (List UInt8 × MapVal) → List (List UInt8) → List UInt8 → MapVal →
    List (List UInt8 × MapVal)
  | m, [], k, v => mapSet m k v
  | m, p :: ps, k, v =>
    match mapGet m p with
    | some (.map sub) => mapSet m p (.map (setAt sub ps k v))
    | _ => m

/-- `MapObjectEncoder`: `Fields`, and `cur` as the path of namespaces from `Fields`. -/
structure MapObjectEncoder where
  fields : List (List UInt8 × MapVal)
  cur : List (List UInt8)

/-- `NewMapObjectEncoder()` -/
def MapObjectEncoder.new : MapObjectEncoder := ⟨[], []⟩

/-- `m.cur[k] = v` -/
def MapObjectEncoder.set (m : MapObjectEncoder) (k : List UInt8) (v : MapVal) :
    MapObjectEncoder :=
  { m with fields := setAt m.fields m.cur k v }

/-- `m.OpenNamespace(k)` -/
def MapObjectEncoder.openNamespace (m : MapObjectEncoder) (k : List UInt8) : MapObjectEncoder :=
  { fields := setAt m.fields m.cur k (.map []), cur := m.cur ++ [k] }

/-- What `AddBinary`, `AddByteString`, ... store: the value, with `[]byte` made a `string` by
`AddByteString`. -/
def MapVal.ofAdd : AddValue → MapVal
  | .binary v => .bytes v
  | .byteString v => .string v
  | .bool v => .bool v
  | .complex128 re im => .complex128 re im
  | .complex64 re im => .complex64 re im
  | .duration v => .duration v
  | .float64 v => .float64 v
  | .float32 v => .float32 v
  | .int64 v => .int64 v
  | .int32 v => .int32 v
  | .int16 v => .int16 v
  | .int8 v => .int8 v
  | .string v => .string v
  | .time v => .time v
  | .uint64 v => .uint64 v
  | .uint32 v => .uint32 v
  | .uint16 v => .uint16 v
  | .uint8 v => .uint8 v
  | .uintptr v => .uintptr v

section Run

variable (std : GoStd)

/-- What a `PrimitiveArrayEncoder` call appends to a `sliceArrayEncoder`; it has no
`AppendTimeLayout`, so `encodeTimeLayout` appends `t.Format(layout)` as a string. -/
def MapVal.ofPrim : PrimitiveCall → MapVal
  | .appendBool v => .bool v
  | .appendByteString v => .string v
  | .appendComplex128 re im => .complex128 re im
  | .appendComplex64 re im => .complex64 re im
  | .appendFloat64 v => .float64 v
  | .appendFloat32 v => .float32 v
  | .appendInt64 v => .int64 v
  | .appendString v => .string v
  | .appendUint64 v => .uint64 v
  | .appendTimeLayout t layout => .string (std.format t layout)

mutual

/-- `obj.MarshalLogObject(m)`: the encoder after the calls, and the returned error. -/
def MapObjectEncoder.run : ObjectMarshaler → MapObjectEncoder → MapObjectEncoder × Option (List UInt8)
  | .done e, m => (m, e)
  | .addArray key arr k, m =>
    match sliceRun arr [] with
    | (elems, e) => MapObjectEncoder.run (k e) (m.set key (.list elems))
  | .addObject key obj k, m =>
    match MapObjectEncoder.run obj .new with
    | (m', e) => MapObjectEncoder.run (k e) (m.set key (.map m'.fields))
  | .addReflected key v k, m => MapObjectEncoder.run (k none) (m.set key (.reflected v))
  | .add key v k, m => MapObjectEncoder.run k (m.set key (MapVal.ofAdd v))
  | .openNamespace key k, m => MapObjectEncoder.run k (m.openNamespace key)

/-- `arr.MarshalLogArray(s)` on a `sliceArrayEncoder` holding `elems`. -/
def sliceRun : ArrayMarshaler → List MapVal → List MapVal × Option (List UInt8)
  | .done e, elems => (elems, e)
  | .appendArray arr k, elems =>
    match sliceRun arr [] with
    | (inner, e) => sliceRun (k e) (elems ++ [.list inner])
  | .appendObject obj k, elems =>
    match MapObjectEncoder.run obj .new with
    | (m, e) => sliceRun (k e) (elems ++ [.map m.fields])
  | .appendReflected v k, elems => sliceRun (k none) (elems ++ [.reflected v])
  | .appendDuration v k, elems => sliceRun k (elems ++ [.duration v])
  | .appendTime v k, elems => sliceRun k (elems ++ [.time v])
  | .prim c k, elems => sliceRun k (elems ++ [MapVal.ofPrim std c])

end

theorem MapObjectEncoder.run_addArray (key : List UInt8) (arr : ArrayMarshaler)
    (k : Option (List UInt8) → ObjectMarshaler) (m : MapObjectEncoder) :
    MapObjectEncoder.run std (.addArray key arr k) m =
      MapObjectEncoder.run std (k (sliceRun std arr []).2) (m.set key (.list (sliceRun std arr []).1)) := by
  rw [MapObjectEncoder.run]

theorem MapObjectEncoder.run_addObject (key : List UInt8) (obj : ObjectMarshaler)
    (k : Option (List UInt8) → ObjectMarshaler) (m : MapObjectEncoder) :
    MapObjectEncoder.run std (.addObject key obj k) m =
      let inner := MapObjectEncoder.run std obj .new
      MapObjectEncoder.run std (k inner.2) (m.set key (.map inner.1.fields)) := by
  rw [MapObjectEncoder.run]

theorem sliceRun_appendArray (arr : ArrayMarshaler) (k : Option (List UInt8) → ArrayMarshaler)
    (elems : List MapVal) :
    sliceRun std (.appendArray arr k) elems = sliceRun std (k (sliceRun std arr []).2) (elems ++ [.list (sliceRun std arr []).1]) := by
  rw [sliceRun]

theorem sliceRun_appendObject (obj : ObjectMarshaler) (k : Option (List UInt8) → ArrayMarshaler)
    (elems : List MapVal) :
    sliceRun std (.appendObject obj k) elems =
      let inner := MapObjectEncoder.run std obj .new
      sliceRun std (k inner.2) (elems ++ [.map inner.1.fields]) := by
  rw [sliceRun]

theorem MapObjectEncoder.run_bind : ∀ (p : ObjectMarshaler) (f : Option (List UInt8) → ObjectMarshaler)
    (m : MapObjectEncoder), MapObjectEncoder.run std (p.bind f) m =
      MapObjectEncoder.run std (f (MapObjectEncoder.run std p m).2) (MapObjectEncoder.run std p m).1
  | .done _, _, _ => rfl
  | .addArray key arr k, f, m => by
    simp only [ObjectMarshaler.bind, MapObjectEncoder.run]
    exact MapObjectEncoder.run_bind (k _) f _
  | .addObject key obj k, f, m => by
    simp only [ObjectMarshaler.bind, MapObjectEncoder.run]
    exact MapObjectEncoder.run_bind (k _) f _
  | .addReflected key v k, f, m => by
    simp only [ObjectMarshaler.bind, MapObjectEncoder.run]
    exact MapObjectEncoder.run_bind (k none) f _
  | .add key v k, f, m => by
    simp only [ObjectMarshaler.bind, MapObjectEncoder.run]
    exact MapObjectEncoder.run_bind k f _
  | .openNamespace key k, f, m => by
    simp only [ObjectMarshaler.bind, MapObjectEncoder.run]
    exact MapObjectEncoder.run_bind k f _

/-- The `Fields` of a new `MapObjectEncoder` after `addFields` of `fs`. -/
def mapFields (fs : List Field) : List (List UInt8 × MapVal) :=
  (MapObjectEncoder.run std (addFields fs) .new).1.fields

end Run

end Zap.Zapcore
