import Mathlib.Order.MinMax
import Mathlib.Data.List.Basic
import Zap.Go.Utf8
import Zap.Go.Multierr

/-!
# Zap.Zapcore.WriteSyncer — `multiWriteSyncer.Write`

`NewMultiWriteSyncer(ws...)` of two or more syncers writes `p` to each member in order.  The
errors are collected with `multierr.Append` (`Go.Multierr`, a parameter).  The count is a running
minimum that reads `0` as "not yet set", so a member that wrote nothing before one that wrote
something is forgotten.

* `multiWriteSyncer.write`: the loop of `Write`, one `multiWriteStep` per member.
* `multiWrite_errs_eq_nil_iff`: the error is nil iff no member returned one.
* `multiWrite_count_of_pos`: when every member wrote something, the count is the least count.
* `multiWrite_zero_then_positive`: a member that wrote `0`, then one that wrote `n > 0`, give `n`.
-/

namespace Zap.Zapcore

section MultiWriteSyncer

variable {W ε : Type} (merr : Go.Multierr ε) (writeOf : W → List UInt8 → Int × Option ε)

/-- One member's turn in `multiWriteSyncer.Write`: its `Write(p)`, its error appended, and the
count replaced when it was `0` or when this member wrote less. -/
def multiWriteStep (p : List UInt8) (acc : Int × Option ε) (w : W) : Int × Option ε :=
  let r := writeOf w p
  let nWritten := if acc.1 = 0 ∧ r.1 ≠ 0 then r.1 else if r.1 < acc.1 then r.1 else acc.1
  (nWritten, merr.append acc.2 r.2)

/-- `multiWriteSyncer(ws).Write(p)`: the count, and the error `multierr.Append` collected. -/
def multiWriteSyncer.write (ws : List W) (p : List UInt8) : Int × Option ε :=
  ws.foldl (multiWriteStep merr writeOf p) (0, none)

theorem foldl_multiWriteStep_errs (p : List UInt8) (ws : List W) (acc : Int × Option ε) :
    (ws.foldl (multiWriteStep merr writeOf p) acc).2 =
      merr.appendAll acc.2 (ws.map fun w => (writeOf w p).2) := by
  induction ws generalizing acc with
  | nil => rfl
  | cons w ws ih => rw [List.foldl_cons, ih, List.map_cons, Go.Multierr.appendAll_cons]; rfl

/-- **The error is nil iff every member returned nil.** -/
theorem multiWrite_errs_eq_nil_iff (ws : List W) (p : List UInt8) :
    (multiWriteSyncer.write merr writeOf ws p).2 = none ↔ ∀ w ∈ ws, (writeOf w p).2 = none := by
  rw [multiWriteSyncer.write, foldl_multiWriteStep_errs, Go.Multierr.appendAll_eq_none]
  simp

/-- From a set count, the member's count replaces it when smaller. -/
theorem multiWriteStep_count_of_ne_zero (p : List UInt8) {acc : Int × Option ε} (hacc : acc.1 ≠ 0)
    (w : W) :
    (multiWriteStep merr writeOf p acc w).1 = min acc.1 (writeOf w p).1 := by
  simp only [multiWriteStep, hacc, false_and, if_false]
  split_ifs with hlt
  · exact (min_eq_right (le_of_lt hlt)).symm
  · exact (min_eq_left (not_lt.mp hlt)).symm

theorem foldl_multiWriteStep_count (p : List UInt8) {ws : List W}
    (hws : ∀ w ∈ ws, 0 < (writeOf w p).1) :
    ∀ acc : Int × Option ε, 0 < acc.1 →
      (ws.foldl (multiWriteStep merr writeOf p) acc).1 = (ws.map fun w => (writeOf w p).1).foldl min acc.1 := by
  induction ws with
  | nil => intro acc _; rfl
  | cons w ws ih =>
    intro acc hacc
    have hw := hws w List.mem_cons_self
    -- the running count stays positive: it is a minimum of positive counts
    have hstep := multiWriteStep_count_of_ne_zero merr writeOf p (ne_of_gt hacc) w
    rw [List.foldl_cons, ih (fun v hv => hws v (List.mem_cons_of_mem w hv)) _ (by rw [hstep]; exact lt_min hacc hw),
      hstep, List.map_cons, List.foldl_cons]

/-- **When every member wrote something, the count is the least count.** -/
theorem multiWrite_count_of_pos (w : W) (ws : List W) (p : List UInt8)
    (hws : ∀ v ∈ w :: ws, 0 < (writeOf v p).1) :
    (multiWriteSyncer.write merr writeOf (w :: ws) p).1 =
      (ws.map fun v => (writeOf v p).1).foldl min (writeOf w p).1 := by
  have hw := hws w List.mem_cons_self
  -- the first member sets the count from `0`
  have hfirst : (multiWriteStep merr writeOf p ((0 : Int), (none : Option ε)) w).1 = (writeOf w p).1 := by
    simp [multiWriteStep, ne_of_gt hw]
  rw [multiWriteSyncer.write, List.foldl_cons,
    foldl_multiWriteStep_count merr writeOf p (fun v hv => hws v (List.mem_cons_of_mem w hv)) _ (by rw [hfirst]; exact hw),
    hfirst]

/-- **A member that wrote nothing is forgotten by the next one that wrote something.**  The
smallest count is `0`, but `nWritten == 0` reads as "not yet set". -/
theorem multiWrite_zero_then_positive {w₁ w₂ : W} {p : List UInt8} {n : Int} {e₁ e₂ : Option ε}
    (h₁ : writeOf w₁ p = (0, e₁)) (h₂ : writeOf w₂ p = (n, e₂)) (hn : 0 < n) :
    (multiWriteSyncer.write merr writeOf [w₁, w₂] p).1 = n ∧ min 0 n ≠ n := by
  refine ⟨?_, by rw [min_eq_left (le_of_lt hn)]; exact ne_of_lt hn⟩
  simp [multiWriteSyncer.write, multiWriteStep, h₁, h₂, ne_of_gt hn]

end MultiWriteSyncer

/-- Two members, the first a short write of nothing, the second a full write of five bytes. -/
def shortThenFull (w : Bool) (_ : List UInt8) : Int × Option (List UInt8) :=
  if w then (5, none) else (0, some (Go.Utf8.lit "short write"))

theorem multiWrite_zero_then_positive_short :
    shortThenFull false [0, 1, 2, 3, 4] = (0, some (Go.Utf8.lit "short write")) ∧
      shortThenFull true [0, 1, 2, 3, 4] = (5, none) ∧ (0 : Int) < 5 ∧
      (multiWriteSyncer.write Go.Multierr.joined shortThenFull [false, true] [0, 1, 2, 3, 4]).1 = 5 ∧
      min 0 (5 : Int) ≠ 5 :=
  ⟨rfl, rfl, by decide, multiWrite_zero_then_positive _ _ rfl rfl (by decide)⟩

end Zap.Zapcore
