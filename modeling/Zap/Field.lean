import Zap.Zapcore.MemoryEncoder

/-!
# Zap.Field — the field constructors of package `zap`, and `Any`

`field.go` builds a `zapcore.Field` for each Go type.  The integer types, `bool`, `Duration` and
the floats go into the `int64` slot `Integer`: a `uint64` reinterpreted, a float by its bits, a
`bool` as `1` or `0`.  A time in the range of `UnixNano` is its nanoseconds and its location, any
other time the whole `time.Time`.  A pointer gives `nilField` when nil, else the field of what it
points to.  `Any` picks the constructor by the dynamic type of its argument.

* `any`: `Any` on the values of `AnyValue`, its type switch case by case.
* `unix_unixNano`: a time in the range is `time.Unix(0, t.UnixNano())` in its location.
* `fields_any`: `Any(k, v).AddTo` on a new map leaves `k` holding `v` (dereferenced, nil for a
  nil pointer), an `int` or a `uint` widened to `int64` or `uint64`.
* `any_int_stored_as_int64`: so for an `int` or a `uint` it does not hold `v` itself.
-/

namespace Zap

open Go Zapcore

/-! ## The constructors -/

/-- `Binary(key, val)` -/
def binary (key val : List UInt8) : Field := .binary key val

/-- `Bool(key, val)` -/
def bool (key : List UInt8) (val : Bool) : Field := .bool key (if val then 1 else 0)

/-- `Complex128(key, val)`: a `complex128` as the bits of its two parts. -/
def complex128 (key : List UInt8) (val : UInt64 × UInt64) : Field := .complex128 key val.1 val.2

/-- `Complex64(key, val)` -/
def complex64 (key : List UInt8) (val : UInt32 × UInt32) : Field := .complex64 key val.1 val.2

/-- `Float64(key, val)`: `int64(math.Float64bits(val))`, a `float64` being its bits. -/
def float64 (key : List UInt8) (val : UInt64) : Field := .float64 key val.toInt64

/-- `Float32(key, val)`: `int64(math.Float32bits(val))` -/
def float32 (key : List UInt8) (val : UInt32) : Field := .float32 key val.toUInt64.toInt64

/-- `Int64(key, val)` -/
def int64 (key : List UInt8) (val : Int64) : Field := .int64 key val

/-- `Int(key, val)`: `Int64(key, int64(val))`, with `int` 64 bits wide. -/
def int (key : List UInt8) (val : Int64) : Field := int64 key val

/-- `Int32(key, val)` -/
def int32 (key : List UInt8) (val : Int32) : Field := .int32 key val.toInt64

/-- `Int16(key, val)` -/
def int16 (key : List UInt8) (val : Int16) : Field := .int16 key val.toInt64

/-- `Int8(key, val)` -/
def int8 (key : List UInt8) (val : Int8) : Field := .int8 key val.toInt64

/-- `String(key, val)` -/
def string (key val : List UInt8) : Field := .string key val

/-- `Uint64(key, val)`: `int64(val)` -/
def uint64 (key : List UInt8) (val : UInt64) : Field := .uint64 key val.toInt64

/-- `Uint(key, val)`: `Uint64(key, uint64(val))` -/
def uint (key : List UInt8) (val : UInt64) : Field := uint64 key val

/-- `Uint32(key, val)` -/
def uint32 (key : List UInt8) (val : UInt32) : Field := .uint32 key val.toUInt64.toInt64

/-- `Uint16(key, val)` -/
def uint16 (key : List UInt8) (val : UInt16) : Field := .uint16 key val.toUInt64.toInt64

/-- `Uint8(key, val)` -/
def uint8 (key : List UInt8) (val : UInt8) : Field := .uint8 key val.toUInt64.toInt64

/-- `Uintptr(key, val)` -/
def uintptr (key : List UInt8) (val : UInt64) : Field := .uintptr key val.toInt64

/-- `Reflect(key, val)` -/
def reflect (key : List UInt8) (val : Reflected) : Field := .reflect key val

/-- `nilField(key)`: `Reflect(key, nil)` -/
def nilField (key : List UInt8) : Field := reflect key none

/-- `Duration(key, val)` -/
def duration (key : List UInt8) (val : Int64) : Field := .duration key val

/-- `_minTimeInt64`: `time.Unix(0, math.MinInt64)` -/
def minTimeInt64 : Time := Time.unix (-2 ^ 63)

/-- `_maxTimeInt64`: `time.Unix(0, math.MaxInt64)` -/
def maxTimeInt64 : Time := Time.unix (2 ^ 63 - 1)

/-- `zap.Time(key, val)`: a `TimeFullType` field when `UnixNano` would overflow. -/
def time (key : List UInt8) (val : Time) : Field :=
  if val.Before minTimeInt64 || val.After maxTimeInt64 then .timeFull key val
  else .time key (Int64.ofInt val.UnixNano) (some val.location)

/-- `Object(key, val)` -/
def object (key : List UInt8) (val : ObjectMarshaler) : Field := .objectMarshaler key val

/-- `Array(key, val)` -/
def array (key : List UInt8) (val : ArrayMarshaler) : Field := .arrayMarshaler key val

/-- `Stringer(key, val)`: the outcome of the lazy `String()` call. -/
def stringer (key : List UInt8) (val : Outcome (List UInt8)) : Field := .stringer key val

/-- `zap.NamedError(key, err)`; `none` is a nil `error`. -/
def namedError (key : List UInt8) : Option GoError → Field
  | none => .skip
  | some err => .error key err

/-! ## The pointer constructors -/

/-- The shape of `Boolp`, `Intp`, ...: `nilField` for a nil pointer, else the constructor of
the value pointed to. -/
def ptrField {α : Type} (field : List UInt8 → α → Field) (key : List UInt8) : Option α → Field
  | none => nilField key
  | some v => field key v

/-- `Boolp(key, val)` -/
def boolp (key : List UInt8) (val : Option Bool) : Field := ptrField bool key val

/-- `Complex128p(key, val)` -/
def complex128p (key : List UInt8) (val : Option (UInt64 × UInt64)) : Field :=
  ptrField complex128 key val

/-- `Complex64p(key, val)` -/
def complex64p (key : List UInt8) (val : Option (UInt32 × UInt32)) : Field :=
  ptrField complex64 key val

/-- `Float64p(key, val)` -/
def float64p (key : List UInt8) (val : Option UInt64) : Field := ptrField float64 key val

/-- `Float32p(key, val)` -/
def float32p (key : List UInt8) (val : Option UInt32) : Field := ptrField float32 key val

/-- `Intp(key, val)` -/
def intp (key : List UInt8) (val : Option Int64) : Field := ptrField int key val

/-- `Int64p(key, val)` -/
def int64p (key : List UInt8) (val : Option Int64) : Field := ptrField int64 key val

/-- `Int32p(key, val)` -/
def int32p (key : List UInt8) (val : Option Int32) : Field := ptrField int32 key val

/-- `Int16p(key, val)` -/
def int16p (key : List UInt8) (val : Option Int16) : Field := ptrField int16 key val

/-- `Int8p(key, val)` -/
def int8p (key : List UInt8) (val : Option Int8) : Field := ptrField int8 key val

/-- `Stringp(key, val)` -/
def stringp (key : List UInt8) (val : Option (List UInt8)) : Field := ptrField string key val

/-- `Uintp(key, val)` -/
def uintp (key : List UInt8) (val : Option UInt64) : Field := ptrField uint key val

/-- `Uint64p(key, val)` -/
def uint64p (key : List UInt8) (val : Option UInt64) : Field := ptrField uint64 key val

/-- `Uint32p(key, val)` -/
def uint32p (key : List UInt8) (val : Option UInt32) : Field := ptrField uint32 key val

/-- `Uint16p(key, val)` -/
def uint16p (key : List UInt8) (val : Option UInt16) : Field := ptrField uint16 key val

/-- `Uint8p(key, val)` -/
def uint8p (key : List UInt8) (val : Option UInt8) : Field := ptrField uint8 key val

/-- `Uintptrp(key, val)` -/
def uintptrp (key : List UInt8) (val : Option UInt64) : Field := ptrField uintptr key val

/-- `Timep(key, val)` -/
def timep (key : List UInt8) (val : Option Time) : Field := ptrField time key val

/-- `Durationp(key, val)` -/
def durationp (key : List UInt8) (val : Option Int64) : Field := ptrField duration key val

/-! ## `Any` -/

/-- The scalar types `Any` has a case for, `[]byte` apart. -/
inductive ScalarType where
  | bool | complex128 | complex64 | float64 | float32
  | int | int64 | int32 | int16 | int8 | string
  | uint | uint64 | uint32 | uint16 | uint8 | uintptr
  | time | duration
  deriving DecidableEq, Repr

/-- The Go values of a scalar type: a float as its bits, a complex number as the bits of its two
parts, `int`, `uint` and `uintptr` 64 bits wide.  Reducible, so that a value of `t.Val` is seen
as one of the Go type once `t` is known. -/
@[reducible] def ScalarType.Val : ScalarType → Type
  | .bool => Bool
  | .complex128 => UInt64 × UInt64
  | .complex64 => UInt32 × UInt32
  | .float64 => UInt64
  | .float32 => UInt32
  | .int => Int64
  | .int64 => Int64
  | .int32 => Int32
  | .int16 => Int16
  | .int8 => Int8
  | .string => List UInt8
  | .uint => UInt64
  | .uint64 => UInt64
  | .uint32 => UInt32
  | .uint16 => UInt16
  | .uint8 => UInt8
  | .uintptr => UInt64
  | .time => Time
  | .duration => Int64

/-- The constructor `Any` calls for a value of the type. -/
def ScalarType.field : (t : ScalarType) → List UInt8 → t.Val → Field
  | .bool => Zap.bool
  | .complex128 => Zap.complex128
  | .complex64 => Zap.complex64
  | .float64 => Zap.float64
  | .float32 => Zap.float32
  | .int => Zap.int
  | .int64 => Zap.int64
  | .int32 => Zap.int32
  | .int16 => Zap.int16
  | .int8 => Zap.int8
  | .string => Zap.string
  | .uint => Zap.uint
  | .uint64 => Zap.uint64
  | .uint32 => Zap.uint32
  | .uint16 => Zap.uint16
  | .uint8 => Zap.uint8
  | .uintptr => Zap.uintptr
  | .time => Zap.time
  | .duration => Zap.duration

/-- The constructor `Any` calls for a pointer to the type. -/
def ScalarType.fieldp : (t : ScalarType) → List UInt8 → Option t.Val → Field
  | .bool => Zap.boolp
  | .complex128 => Zap.complex128p
  | .complex64 => Zap.complex64p
  | .float64 => Zap.float64p
  | .float32 => Zap.float32p
  | .int => Zap.intp
  | .int64 => Zap.int64p
  | .int32 => Zap.int32p
  | .int16 => Zap.int16p
  | .int8 => Zap.int8p
  | .string => Zap.stringp
  | .uint => Zap.uintp
  | .uint64 => Zap.uint64p
  | .uint32 => Zap.uint32p
  | .uint16 => Zap.uint16p
  | .uint8 => Zap.uint8p
  | .uintptr => Zap.uintptrp
  | .time => Zap.timep
  | .duration => Zap.durationp

/-- A value given to `Any`, by the first case of its type switch that matches: a marshaler, a
value of a scalar type or a pointer to one (`none` for nil), `[]byte`, an `error`, a `Stringer`,
or anything else.  The slice cases (`[]bool`, `[]int`, ...) are not modelled. -/
inductive AnyValue where
  | objectMarshaler (v : ObjectMarshaler)
  | arrayMarshaler (v : ArrayMarshaler)
  | scalar (t : ScalarType) (v : t.Val)
  | pointer (t : ScalarType) (v : Option t.Val)
  | bytes (v : List UInt8)
  | error (e : GoError)
  | stringer (v : Outcome (List UInt8))
  | reflected (v : Reflected)

/-- `Any(key, value)` -/
def any (key : List UInt8) : AnyValue → Field
  | .objectMarshaler v => object key v
  | .arrayMarshaler v => array key v
  | .scalar t v => t.field key v
  | .pointer t v => t.fieldp key v
  | .bytes v => binary key v
  | .error e => namedError key (some e)
  | .stringer v => stringer key v
  | .reflected v => reflect key v

/-! ## What `Any(key, v).AddTo` leaves in a new map -/

/-- A value of the type as an `interface{}`. -/
def ScalarType.toMapVal : (t : ScalarType) → t.Val → MapVal
  | .bool => .bool
  | .complex128 => fun v => .complex128 v.1 v.2
  | .complex64 => fun v => .complex64 v.1 v.2
  | .float64 => .float64
  | .float32 => .float32
  | .int => .int
  | .int64 => .int64
  | .int32 => .int32
  | .int16 => .int16
  | .int8 => .int8
  | .string => .string
  | .uint => .uint
  | .uint64 => .uint64
  | .uint32 => .uint32
  | .uint16 => .uint16
  | .uint8 => .uint8
  | .uintptr => .uintptr
  | .time => .time
  | .duration => .duration

/-- A pointer as an `interface{}` after `Any`: nil for nil, else the value pointed to. -/
def ptrVal {α : Type} (val : α → MapVal) : Option α → MapVal
  | none => .reflected none
  | some v => val v

/-- The Go value of `v` as an `interface{}`, dereferenced if it is a pointer (nil for a nil
pointer), for the scalar types, their pointers and `[]byte`. -/
def AnyValue.value? : AnyValue → Option MapVal
  | .scalar t v => some (t.toMapVal v)
  | .pointer t p => some (ptrVal t.toMapVal p)
  | .bytes v => some (.bytes v)
  | _ => none

/-- An `int` as an `int64`, a `uint` as a `uint64`, any other value as it is. -/
def Zapcore.MapVal.widen : MapVal → MapVal
  | .int v => .int64 v
  | .uint v => .uint64 v
  | w => w

/-- `time.Unix(0, t.UnixNano())` in `t`'s location is `t`, for a time in the range of `int64`
nanoseconds. -/
theorem unix_unixNano {t : Time} (h : (t.Before minTimeInt64 || t.After maxTimeInt64) = false) :
    (Time.unix (Int64.ofInt t.UnixNano).toInt).In t.location = t := by
  have hmin : minTimeInt64.sec = 52912224763 ∧ minTimeInt64.nsec = 145224192 := by decide
  have hmax : maxTimeInt64.sec = 71358968836 ∧ maxTimeInt64.nsec = 854775807 := by decide
  obtain ⟨sec, nsec, hlt, l⟩ := t
  simp only [Bool.or_eq_false_iff, Time.Before, Time.After, hmin, hmax] at h
  simp at h
  -- the nanoseconds since 1970 fit an `int64`, so that neither `UnixNano` nor `int64` wraps
  have hn : (Int64.ofInt (Time.UnixNano ⟨sec, nsec, hlt, l⟩)).toInt =
      (sec - 62135596800) * 1000000000 + nsec := by
    have hsize : Int64.size = 2 ^ 64 := rfl
    have h64 : ((2 ^ 64 : Nat) : Int) = 18446744073709551616 := rfl
    rw [Int64.toInt_ofInt, Time.UnixNano, hsize, Int.bmod_bmod, Int.bmod_eq_of_le] <;>
      simp only [Time.unixToInternal, h64] <;> omega
  rw [Time.unix, Time.In, hn]
  simp only [Time.mk.injEq, Time.unixToInternal, and_true]
  omega

/-- `Time(key, t).AddTo` is `AddTime(key, t)`, inside the range and outside it. -/
theorem time_addTo (key : List UInt8) (t : Time) :
    (time key t).addTo = .add key (.time t) (.done none) := by
  unfold time
  split
  · rfl
  · next h => rw [Field.addTo, unix_unixNano (Bool.not_eq_true _ |>.mp h)]

/-- `t.fieldp` is the pointer shape over `t.field`. -/
theorem ScalarType.fieldp_eq (t : ScalarType) (key : List UInt8) (p : Option t.Val) :
    t.fieldp key p = ptrField t.field key p := by
  cases t <;> rfl

section Fields

variable (std : GoStd)

/-- A field whose `AddTo` is one `Add*` call leaves that one entry in a new map. -/
theorem fields_of_addTo {f : Field} {key : List UInt8} {v : AddValue}
    (h : f.addTo = .add key v (.done none)) :
    (MapObjectEncoder.run std f.addTo .new).1.fields = [(key, MapVal.ofAdd v)] := by
  rw [h]
  rfl

/-- **What a constructor puts into `Integer`, `AddTo` takes out**: the field of a value leaves
the value, an `int` or a `uint` as `int64` or `uint64`. -/
theorem fields_field (t : ScalarType) (key : List UInt8) (v : t.Val) :
    (MapObjectEncoder.run std (t.field key v).addTo .new).1.fields =
      [(key, (t.toMapVal v).widen)] := by
  cases t
  -- kept in `Interface` or `String`, or an `int64` in `Integer`: nothing to convert
  case complex128 | complex64 | int | int64 | string | duration => rfl
  -- `f.Integer == 1`
  case bool => exact fields_of_addTo std (v := .bool v) (by cases (v : Bool) <;> rfl)
  case time => exact fields_of_addTo std (time_addTo key v)
  -- through `int64` and back: sign extension, or the bits reinterpreted, then truncation
  case float64 =>
    exact fields_of_addTo std (v := .float64 v) (by simp [ScalarType.field, float64, Field.addTo])
  case float32 =>
    exact fields_of_addTo std (v := .float32 v) (by simp [ScalarType.field, float32, Field.addTo])
  case int32 =>
    exact fields_of_addTo std (v := .int32 v) (by simp [ScalarType.field, int32, Field.addTo])
  case int16 =>
    exact fields_of_addTo std (v := .int16 v) (by simp [ScalarType.field, int16, Field.addTo])
  case int8 =>
    exact fields_of_addTo std (v := .int8 v) (by simp [ScalarType.field, int8, Field.addTo])
  case uint =>
    exact fields_of_addTo std (v := .uint64 v) (by simp [ScalarType.field, uint, uint64, Field.addTo])
  case uint64 =>
    exact fields_of_addTo std (v := .uint64 v) (by simp [ScalarType.field, uint64, Field.addTo])
  case uint32 =>
    exact fields_of_addTo std (v := .uint32 v) (by simp [ScalarType.field, uint32, Field.addTo])
  case uint16 =>
    exact fields_of_addTo std (v := .uint16 v) (by simp [ScalarType.field, uint16, Field.addTo])
  case uint8 =>
    exact fields_of_addTo std (v := .uint8 v) (by simp [ScalarType.field, uint8, Field.addTo])
  case uintptr =>
    exact fields_of_addTo std (v := .uintptr v) (by simp [ScalarType.field, uintptr, Field.addTo])

/-- The pointer shape leaves nil for nil, and else what the field of the value leaves. -/
theorem fields_ptrField {α : Type} {field : List UInt8 → α → Field} {val : α → MapVal}
    {key : List UInt8}
    (h : ∀ v, (MapObjectEncoder.run std (field key v).addTo .new).1.fields = [(key, (val v).widen)]) :
    ∀ p : Option α, (MapObjectEncoder.run std (ptrField field key p).addTo .new).1.fields =
      [(key, (ptrVal val p).widen)]
  | none => rfl
  | some v => h v

/-- **`Any(key, v).AddTo` on a new map leaves `key` holding `v`**, dereferenced for a pointer
and nil for a nil pointer, with an `int` or a `uint` widened to `int64` or `uint64`. -/
theorem fields_any (key : List UInt8) (v : AnyValue) {w : MapVal} (h : v.value? = some w) :
    (MapObjectEncoder.run std (any key v).addTo .new).1.fields = [(key, w.widen)] := by
  cases v with
  | scalar t v =>
    cases h
    exact fields_field std t key v
  | pointer t p =>
    cases h
    rw [any, ScalarType.fieldp_eq]
    exact fields_ptrField std (fields_field std t key) p
  | bytes v =>
    cases h
    rfl
  | objectMarshaler _ | arrayMarshaler _ | error _ | stringer _ | reflected _ => cases h

/-- **`Any` of an `int` or a `uint` leaves an `int64` or a `uint64`**, not a value of the type
it was given: `Int` is `Int64(key, int64(val))` and `Uint` is `Uint64(key, uint64(val))`. -/
theorem any_int_stored_as_int64 :
    (AnyValue.scalar .int (1 : Int64)).value? = some (.int 1) ∧
    (MapObjectEncoder.run ⟨fun _ _ => [], fun _ => 0, id, fun _ layout => layout, fun _ => .error []⟩
        (any [0x6B] (.scalar .int (1 : Int64))).addTo .new).1.fields = [([0x6B], .int64 1)] ∧
    [([0x6B], MapVal.int 1)] ≠ [([0x6B], .int64 1)] ∧
    (AnyValue.scalar .uint (1 : UInt64)).value? = some (.uint 1) ∧
    (MapObjectEncoder.run ⟨fun _ _ => [], fun _ => 0, id, fun _ layout => layout, fun _ => .error []⟩
        (any [0x6B] (.scalar .uint (1 : UInt64))).addTo .new).1.fields = [([0x6B], .uint64 1)] ∧
    [([0x6B], MapVal.uint 1)] ≠ [([0x6B], .uint64 1)] :=
  ⟨rfl, rfl, by simp, rfl, rfl, by simp⟩

end Fields

theorem fields_any_timep :
    (AnyValue.pointer .time (some (Time.unix 5))).value? = some (.time (Time.unix 5)) ∧
    (MapObjectEncoder.run ⟨fun _ _ => [], fun _ => 0, id, fun _ layout => layout, fun _ => .error []⟩
        (any [0x6B] (.pointer .time (some (Time.unix 5)))).addTo .new).1.fields =
      [([0x6B], (MapVal.time (Time.unix 5)).widen)] :=
  ⟨rfl, fields_any _ _ _ rfl⟩

end Zap
