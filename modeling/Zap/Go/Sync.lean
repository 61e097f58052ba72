import Mathlib

/-!
# Zap.Go.Sync — `sync.Pool`

A `sync.Pool` holds values put back for reuse.  `Get` removes one of them and hands it out, or
calls `New` when the pool is empty or when it chooses to ignore it; a garbage collection may drop
any value the pool holds.  Which value `Get` takes, and what is dropped, are inputs (`pick`, the
index of `drop`).

* `Pool.All P`: every value the pool holds satisfies `P`.
* `All.get`, `All.put`, `All.drop`: when `New` gives a value satisfying `P`, and only such values
  are put back, every value `Get` hands out satisfies `P`.
-/

namespace Go

/-- The values a `sync.Pool` holds. -/
structure Pool (α : Type) where
  items : List α

namespace Pool

variable {α : Type}

/-- A pool that holds nothing yet. -/
def empty : Pool α := ⟨[]⟩

/-- `p.Get()`, where `New` gives `new`: `pick = some i` takes the `i`th value held; `none`, or an
index past the end, calls `New`. -/
def get (p : Pool α) (new : α) : Option Nat → α × Pool α
  | some i =>
    match p.items[i]? with
    | some x => (x, ⟨p.items.eraseIdx i⟩)
    | none => (new, p)
  | none => (new, p)

/-- `p.Put(x)` -/
def put (p : Pool α) (x : α) : Pool α := ⟨p.items ++ [x]⟩

/-- A garbage collection dropping the `i`th value held. -/
def drop (p : Pool α) (i : Nat) : Pool α := ⟨p.items.eraseIdx i⟩

/-- Every value the pool holds satisfies `P`. -/
def All (P : α → Prop) (p : Pool α) : Prop := ∀ x ∈ p.items, P x

variable {P : α → Prop} {p : Pool α}

theorem all_empty : (empty : Pool α).All P := by
  simp [All, empty]

/-- **`Get` hands out a value satisfying `P`**, and the pool keeps only such values. -/
theorem All.get (h : p.All P) {new : α} (hnew : P new) (pick : Option Nat) :
    P (p.get new pick).1 ∧ (p.get new pick).2.All P := by
  cases pick with
  | none => exact ⟨hnew, h⟩
  | some i =>
    cases hi : p.items[i]? with
    | none => simp only [Pool.get, hi]; exact ⟨hnew, h⟩
    | some x =>
      simp only [Pool.get, hi]
      exact ⟨h x (List.mem_of_getElem? hi), fun y hy => h y (List.mem_of_mem_eraseIdx hy)⟩

theorem All.put (h : p.All P) {x : α} (hx : P x) : (p.put x).All P := by
  intro y hy
  rcases List.mem_append.mp hy with hy | hy
  · exact h y hy
  · rw [List.mem_singleton.mp hy]; exact hx

theorem All.drop (h : p.All P) (i : Nat) : (p.drop i).All P :=
  fun y hy => h y (List.mem_of_mem_eraseIdx hy)

end Pool

end Go
