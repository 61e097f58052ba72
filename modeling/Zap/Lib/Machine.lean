import Mathlib.Data.List.Forall2

/-!
# Zap.Lib.Machine — machines with outputs, their runs, and lock-step simulation

A machine is a step function `σ → ι → σ × ο`: from a state and an input, the next state and an
output.  `Mealy.run` feeds it a list of inputs.  Two machines over the same inputs are compared by
a lock-step simulation: related states step to related states with related outputs, as long as a
guard on the abstract machine's state allows the input.

* `Simulates.run`: a simulation relates whole runs, state and outputs.
* `guarded_of_invariant`: a guard that holds while a step-indexed invariant is below a bound holds
  along every run short enough.
* `run_invariant`, `mem_run_outputs`: what every step keeps, a run keeps; what every step
  outputs, a run outputs.
-/

namespace Mealy

variable {σ τ ι ο π : Type}

/-- The run of the machine `f` from `s` over the inputs: the last state and the outputs. -/
def run (f : σ → ι → σ × ο) : σ → List ι → σ × List ο
  | s, [] => (s, [])
  | s, i :: is => ((run f (f s i).1 is).1, (f s i).2 :: (run f (f s i).1 is).2)

variable {f : σ → ι → σ × ο} {g : τ → ι → τ × π}

@[simp] theorem run_nil (s : σ) : run f s [] = (s, []) := rfl

@[simp] theorem run_cons (s : σ) (i : ι) (is : List ι) :
    run f s (i :: is) = ((run f (f s i).1 is).1, (f s i).2 :: (run f (f s i).1 is).2) := rfl

theorem run_append (s : σ) (is js : List ι) :
    run f s (is ++ js) = ((run f (run f s is).1 js).1, (run f s is).2 ++ (run f (run f s is).1 js).2) := by
  induction is generalizing s with
  | nil => rfl
  | cons i is ih => simp [ih]

@[simp] theorem length_run (s : σ) (is : List ι) : (run f s is).2.length = is.length := by
  induction is generalizing s with
  | nil => rfl
  | cons i is ih => simp [ih]

/-- What every step keeps on inputs satisfying `P`, every run over such inputs keeps. -/
theorem run_invariant (I : σ → Prop) (P : ι → Prop) (hstep : ∀ s i, I s → P i → I (f s i).1)
    {s : σ} {is : List ι} (hs : I s) (hP : ∀ i ∈ is, P i) : I (run f s is).1 := by
  induction is generalizing s with
  | nil => exact hs
  | cons i is ih =>
    exact ih (hstep s i hs (hP i List.mem_cons_self)) fun j hj => hP j (List.mem_cons_of_mem i hj)

/-- What every step outputs, every run outputs. -/
theorem mem_run_outputs (Q : ο → Prop) (hstep : ∀ s i, Q (f s i).2) (s : σ) (is : List ι) :
    ∀ o ∈ (run f s is).2, Q o := by
  induction is generalizing s with
  | nil => simp
  | cons i is ih =>
    intro o ho
    rcases List.mem_cons.mp ho with rfl | ho
    · exact hstep s i
    · exact ih _ o ho

/-! ## Lock-step simulation -/

/-- Every input of the run is allowed by `G` in the state of `g` that reads it. -/
def Guarded (g : τ → ι → τ × π) (G : τ → ι → Prop) : τ → List ι → Prop
  | _, [] => True
  | t, i :: is => G t i ∧ Guarded g G (g t i).1 is

/-- `f` simulates `g` in lock step under `R`: from related states, an input that `G` allows in
`g`'s state leads to related states, and the outputs are related by `O`. -/
def Simulates (f : σ → ι → σ × ο) (g : τ → ι → τ × π) (R : σ → τ → Prop) (O : ο → π → Prop)
    (G : τ → ι → Prop) : Prop :=
  ∀ s t i, R s t → G t i → R (f s i).1 (g t i).1 ∧ O (f s i).2 (g t i).2

/-- **A simulation relates whole runs**: the last states by `R`, the outputs one by one by `O`. -/
theorem Simulates.run {R : σ → τ → Prop} {O : ο → π → Prop} {G : τ → ι → Prop}
    (h : Simulates f g R O G) {s : σ} {t : τ} {is : List ι} (hR : R s t) (hg : Guarded g G t is) :
    R (Mealy.run f s is).1 (Mealy.run g t is).1 ∧
      List.Forall₂ O (Mealy.run f s is).2 (Mealy.run g t is).2 := by
  induction is generalizing s t with
  | nil => exact ⟨hR, .nil⟩
  | cons i is ih =>
    obtain ⟨hG, hrest⟩ := hg
    obtain ⟨hR', hO⟩ := h s t i hR hG
    obtain ⟨hRun, hOuts⟩ := ih hR' hrest
    exact ⟨hRun, .cons hO hOuts⟩

/-- **A guard kept by a step-indexed invariant.**  If `I k` holds after `k` steps, each step on an
input satisfying `P` goes from `I k` to `I (k + 1)`, and `G` allows such an input whenever `I k`
holds with `k` below `N`, then every run of at most `N - k` such inputs from a state with `I k` is
guarded. -/
theorem guarded_of_invariant (I : Nat → τ → Prop) (P : ι → Prop) {G : τ → ι → Prop} (N : Nat)
    (hstep : ∀ k t i, I k t → P i → I (k + 1) (g t i).1)
    (hG : ∀ k t i, I k t → k < N → P i → G t i) {k : Nat} {t : τ} {is : List ι} (hI : I k t)
    (hN : k + is.length ≤ N) (hP : ∀ i ∈ is, P i) : Guarded g G t is := by
  induction is generalizing k t with
  | nil => trivial
  | cons i is ih =>
    have hPi : P i := hP i List.mem_cons_self
    simp only [List.length_cons] at hN
    -- the input is read after `k` steps, below the bound; the rest after `k + 1`
    refine ⟨hG k t i hI (by omega) hPi, ih (hstep k t i hI hPi) (by omega) ?_⟩
    exact fun j hj => hP j (List.mem_cons_of_mem i hj)

end Mealy
