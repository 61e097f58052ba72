import Mathlib

/-!
# Zap.Go.Std — the values of Go's standard library that the modelled code passes around

Go types the encoders read, and the standard-library functions they call, which are not modelled
here and enter as the fields of `GoStd`:

* `Outcome`: what a call of a user method gave back, or the panic it raised;
* `Time` and `Location` (package `time`), with `Time.IsZero`, `Time.UnixNano` and `Time.unix`;
* IEEE 754 bit patterns for `float64` and `float32`, and `math.IsNaN` / `math.IsInf` on them;
* `GoStd`: `strconv.AppendFloat`, `float64(float32)`, `base64.StdEncoding`, `Time.Format` and
  `encoding/json`'s `Encoder`.
-/

namespace Go

/-- What a call of user code returned, or the panic it raised: `panic nilRecv v` is a panic with
value printed `v` by `%v`, raised from a method called on a nil pointer if `nilRecv`. -/
inductive Outcome (α : Type) where
  | ok (a : α)
  | panic (nilRecv : Bool) (v : List UInt8)
  deriving DecidableEq, Repr

/-- A `*time.Location`: UTC, the local zone, or a named zone. -/
inductive Location where
  | utc
  | loc
  | named (name : List UInt8)
  deriving DecidableEq, Repr

/-- A `time.Time`: seconds since January 1, year 1 UTC, nanoseconds within the second, and
its location. -/
structure Time where
  sec : Int
  nsec : Nat
  nsec_lt : nsec < 1000000000
  location : Location
  deriving DecidableEq

namespace Time

/-- `unixToInternal`: seconds from January 1, year 1 to January 1, 1970. -/
def unixToInternal : Int := 62135596800

/-- `t.IsZero()` -/
def IsZero (t : Time) : Bool := t.sec = 0 && t.nsec = 0

/-- `t.UnixNano()`: nanoseconds since 1970, wrapped to `int64` as Go's multiplication wraps. -/
def UnixNano (t : Time) : Int :=
  ((t.sec - unixToInternal) * 1000000000 + t.nsec).bmod (2 ^ 64)

/-- `UnixNano` is an `int64`: below `2^63`. -/
theorem UnixNano_lt (t : Time) : t.UnixNano < 2 ^ 63 := by
  have := Int.bmod_lt (x := (t.sec - unixToInternal) * 1000000000 + t.nsec) (m := 2 ^ 64) (by decide)
  simp only [UnixNano]
  omega

/-- `time.Unix(0, nsec)`: in the local zone, with the remainder made non-negative. -/
def unix (nsec : Int) : Time where
  sec := nsec / 1000000000 + unixToInternal
  nsec := (nsec % 1000000000).toNat
  nsec_lt := by omega
  location := .loc

/-- `t.In(loc)` -/
def In (t : Time) (l : Location) : Time := { t with location := l }

/-- `t.Before(u)`: the instants compared, locations ignored. -/
def Before (t u : Time) : Bool := t.sec < u.sec || (t.sec = u.sec && t.nsec < u.nsec)

/-- `t.After(u)` -/
def After (t u : Time) : Bool := u.sec < t.sec || (t.sec = u.sec && u.nsec < t.nsec)

end Time

/-- `bytes.IndexByte(s, c)`, with `none` for `-1`. -/
def indexByte : List UInt8 → UInt8 → Option Nat
  | [], _ => none
  | b :: s, c => if b = c then some 0 else (indexByte s c).map (· + 1)

theorem indexByte_eq_none {s : List UInt8} {c : UInt8} (h : indexByte s c = none) : c ∉ s := by
  induction s with
  | nil => simp
  | cons b s ih =>
    by_cases hb : b = c
    · simp [indexByte, hb] at h
    · simp only [indexByte, hb, if_false, Option.map_eq_none_iff] at h
      simp [ih h, Ne.symm hb]

/-- The first `c` in `s` is at `i`. -/
theorem indexByte_eq_some {s : List UInt8} {c : UInt8} {i : Nat} (h : indexByte s c = some i) :
    s = s.take i ++ c :: s.drop (i + 1) ∧ c ∉ s.take i := by
  induction s generalizing i with
  | nil => simp [indexByte] at h
  | cons b s ih =>
    by_cases hb : b = c
    · simp only [indexByte, hb, if_true, Option.some.injEq] at h
      subst h hb
      simp
    · simp only [indexByte, hb, if_false, Option.map_eq_some_iff] at h
      obtain ⟨j, hj, rfl⟩ := h
      obtain ⟨hs, hnot⟩ := ih hj
      refine ⟨by rw [List.take_succ_cons, List.drop_succ_cons, List.cons_append, ← hs], ?_⟩
      simp [hnot, Ne.symm hb]

/-- `strings.LastIndexByte(s, c)`, with `none` for `-1`. -/
def lastIndexByte (s : List UInt8) (c : UInt8) : Option Nat :=
  match s.reverse.findIdx? (· = c) with
  | some i => some (s.length - 1 - i)
  | none => none

@[simp] theorem lastIndexByte_nil (c : UInt8) : lastIndexByte [] c = none := rfl

/-- The loop of `LastIndexByte` meets the last byte first. -/
theorem lastIndexByte_concat (s : List UInt8) (b c : UInt8) :
    lastIndexByte (s ++ [b]) c = if b = c then some s.length else lastIndexByte s c := by
  unfold lastIndexByte
  rw [List.reverse_append, List.reverse_singleton, List.singleton_append, List.findIdx?_cons]
  by_cases hb : b = c
  · simp [hb]
  · simp only [hb, decide_false, Bool.false_eq_true, if_false]
    cases List.findIdx? (· = c) s.reverse with
    | none => rfl
    | some i =>
      simp only [Option.map_some, List.length_append, List.length_singleton, Option.some.injEq]
      omega

theorem lastIndexByte_eq_none {s : List UInt8} {c : UInt8} (h : lastIndexByte s c = none) :
    c ∉ s := by
  induction s using List.reverseRecOn with
  | nil => simp
  | append_singleton s b ih =>
    rw [lastIndexByte_concat] at h
    by_cases hb : b = c
    · rw [if_pos hb] at h
      cases h
    · rw [if_neg hb] at h
      simp [ih h, Ne.symm hb]

/-- The last `c` in `s` is at `i`. -/
theorem lastIndexByte_eq_some {s : List UInt8} {c : UInt8} {i : Nat}
    (h : lastIndexByte s c = some i) :
    ∃ pre post, s = pre ++ c :: post ∧ pre.length = i ∧ c ∉ post := by
  induction s using List.reverseRecOn generalizing i with
  | nil => cases h
  | append_singleton s b ih =>
    rw [lastIndexByte_concat] at h
    by_cases hb : b = c
    · rw [if_pos hb, Option.some.injEq] at h
      exact ⟨s, [], by rw [hb], h, List.not_mem_nil⟩
    · rw [if_neg hb] at h
      -- the last `c` of `s` is still the last one: `b` is not `c`
      obtain ⟨pre, post, hs, hlen, hnot⟩ := ih h
      exact ⟨pre, post ++ [b], by simp [hs], hlen, by simp [hnot, Ne.symm hb]⟩

/-! ## IEEE 754 bit patterns -/

/-- `math.IsNaN(math.Float64frombits(b))`: all exponent bits set and a non-zero fraction. -/
def isNaN64 (b : UInt64) : Bool := (b >>> 52) &&& 0x7FF = 0x7FF && b &&& 0xFFFFFFFFFFFFF != 0

/-- `math.IsInf(math.Float64frombits(b), sign)` for `sign = 1` and `sign = -1`. -/
def isInf64 (b : UInt64) (pos : Bool) : Bool :=
  b = if pos then 0x7FF0000000000000 else 0xFFF0000000000000

/-- Neither NaN nor infinite. -/
def Finite64 (b : UInt64) : Prop := isNaN64 b = false ∧ isInf64 b true = false ∧ isInf64 b false = false

/-- `f >= 0` for the float64 `f` with bits `b`: false for NaN and for negative values, true
for `-0`. -/
def nonNeg64 (b : UInt64) : Bool := !isNaN64 b && (b >>> 63 = 0 || b = 0x8000000000000000)

/-! ## What the standard library computes -/

/-- The standard-library functions the encoders call, as parameters of the model. -/
structure GoStd where
  /-- `strconv.AppendFloat(nil, math.Float64frombits(f), 'f', -1, bitSize)` -/
  formatFloat : UInt64 → Nat → List UInt8
  /-- `math.Float64bits(float64(math.Float32frombits(f)))` -/
  float32To64 : UInt32 → UInt64
  /-- `base64.StdEncoding.EncodeToString(b)` -/
  base64 : List UInt8 → List UInt8
  /-- `t.Format(layout)` -/
  format : Time → List UInt8 → List UInt8
  /-- What `json.NewEncoder(w)` with `SetEscapeHTML(false)` writes to `w` for a non-nil value,
  or the error its `Encode` returns. -/
  jsonEncode : Nat → Except (List UInt8) (List UInt8)

end Go
