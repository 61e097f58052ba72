import Mathlib.Data.List.Basic

/-!
# Go.Multierr — `multierr.Append` of package `go.uber.org/multierr`

Go code collects the errors of a loop with `err = multierr.Append(err, e)`.  The package
documents what a caller may rely on: a nil argument is skipped, so a single error comes back as
it is; an error that is itself a combination is flattened, so the grouping does not matter; and
the result is nil only when both arguments are.  Which error comes back otherwise, and how it
prints, is the package's own: a `Multierr ε` is any `Append` with these laws.

* `Multierr.appendAll_eq_none`: a loop's errors combine to nil iff each of them is nil.
-/

namespace Go

/-- `multierr.Append`, with the laws its documentation states. -/
structure Multierr (ε : Type) where
  append : Option ε → Option ε → Option ε
  /-- `Append(nil, err)` is `err` -/
  none_append : ∀ r, append none r = r
  /-- `Append(err, nil)` is `err` -/
  append_none : ∀ l, append l none = l
  /-- combinations are flattened -/
  append_assoc : ∀ a b c, append (append a b) c = append a (append b c)
  /-- nil only when both are nil -/
  append_eq_none : ∀ l r, append l r = none ↔ l = none ∧ r = none

namespace Multierr

variable {ε : Type} (m : Multierr ε)

/-- `for _, e := range es { err = multierr.Append(err, e) }` -/
def appendAll (err : Option ε) (es : List (Option ε)) : Option ε := es.foldl m.append err

@[simp] theorem appendAll_nil (err : Option ε) : m.appendAll err [] = err := rfl

theorem appendAll_cons (err e : Option ε) (es : List (Option ε)) :
    m.appendAll err (e :: es) = m.appendAll (m.append err e) es := rfl

/-- **A loop's errors combine to nil iff each of them, and the start, is nil.** -/
theorem appendAll_eq_none (err : Option ε) (es : List (Option ε)) :
    m.appendAll err es = none ↔ err = none ∧ ∀ e ∈ es, e = none := by
  induction es generalizing err with
  | nil => simp
  | cons e es ih =>
    rw [appendAll_cons, ih, m.append_eq_none]
    simp only [List.mem_cons, forall_eq_or_imp, and_assoc]

/-- Errors as their texts, combined as `multierr` prints them: joined by `"; "`. -/
def joined : Multierr (List UInt8) where
  append l r := match l, r with
    | none, r => r
    | some a, none => some a
    | some a, some b => some (a ++ [0x3B, 0x20] ++ b)
  none_append r := rfl
  append_none l := by cases l <;> rfl
  append_assoc a b c := by
    rcases a with _ | a <;> rcases b with _ | b <;> rcases c with _ | c <;> simp
  append_eq_none l r := by
    rcases l with _ | l <;> rcases r with _ | r <;> simp

end Multierr

end Go
