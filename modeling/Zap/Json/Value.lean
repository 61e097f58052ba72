import Mathlib.Data.Rat.Defs

/-!
# Zap.Json.Value — the JSON data model a decoder produces

A decoded value: objects are lists of members in which a later duplicate key replaces the value
of the first in place, as an assignment to a map does; strings are the UTF-8 bytes of their
characters; numbers are exact rationals.

* `insert`, `lookup`: a member set in place, and read back.
* `setPath`: a member set in the object reached through a path of keys.
* `enclose t outer`: the members `t` of an innermost object, each enclosing object's members with
  the object below as its last key's value; `setPath_enclose` says that setting along the keys of
  `outer` sets in `t`.
-/

namespace Json

/-- A JSON value as a decoder returns it. -/
inductive Value where
  | null
  | bool (b : Bool)
  | number (q : ℚ)
  | string (s : List UInt8)
  | array (elems : List Value)
  | object (members : List (List UInt8 × Value))

/-- The members of an object, keys as UTF-8 bytes. -/
abbrev Members := List (List UInt8 × Value)

/-- `m[k] = v`: the first member with key `k` gets the value `v`, or a new member is appended. -/
def insert : Members → List UInt8 → Value → Members
  | [], k, v => [(k, v)]
  | (k', v') :: ms, k, v => if k' = k then (k, v) :: ms else (k', v') :: insert ms k v

/-- The value of the first member with key `k`. -/
def lookup : Members → List UInt8 → Option Value
  | [], _ => none
  | (k', v) :: ms, k => if k' = k then some v else lookup ms k

/-- `insert` in the object reached from `ms` through the keys `path`; a key that names no
object leaves the members as they are. -/
def setPath : Members → List (List UInt8) → List UInt8 → Value → Members
  | ms, [], k, v => insert ms k v
  | ms, p :: ps, k, v =>
    match lookup ms p with
    | some (.object sub) => insert ms p (.object (setPath sub ps k v))
    | _ => ms

/-- The members `t` of the innermost object, placed in the objects `outer` lists outermost first:
each with its members so far and the key whose value is the object below it. -/
def enclose (t : Members) : List (Members × List UInt8) → Members
  | [] => t
  | (ms, k) :: outer => insert ms k (.object (enclose t outer))

@[simp] theorem lookup_insert_self (ms : Members) (k : List UInt8) (v : Value) :
    lookup (insert ms k v) k = some v := by
  induction ms with
  | nil => simp [insert, lookup]
  | cons m ms ih =>
    by_cases h : m.1 = k
    · simp [insert, lookup, h]
    · simp [insert, lookup, h, ih]

@[simp] theorem insert_insert_self (ms : Members) (k : List UInt8) (v w : Value) :
    insert (insert ms k v) k w = insert ms k w := by
  induction ms with
  | nil => simp [insert]
  | cons m ms ih =>
    by_cases h : m.1 = k
    · simp [insert, h]
    · simp [insert, h, ih]

theorem enclose_append (t : Members) (outer inner : List (Members × List UInt8)) :
    enclose t (outer ++ inner) = enclose (enclose t inner) outer := by
  induction outer with
  | nil => rfl
  | cons o outer ih =>
    obtain ⟨ms, k⟩ := o
    simp only [List.cons_append, enclose, ih]

/-- **Setting along the keys of the enclosing objects sets in the innermost one.** -/
theorem setPath_enclose (t : Members) (outer : List (Members × List UInt8)) (k : List UInt8)
    (v : Value) : setPath (enclose t outer) (outer.map Prod.snd) k v = enclose (insert t k v) outer := by
  induction outer with
  | nil => rfl
  | cons o outer ih =>
    obtain ⟨ms, p⟩ := o
    -- the key `p` holds the object `enclose t outer`, which the path enters and replaces
    simp only [List.map_cons, enclose, setPath, lookup_insert_self, insert_insert_self, ih]

end Json
