import Mathlib.Data.List.Perm.Basic

/-!
# Association lists as Go maps, visited in the order of their sorted keys

A Go `map` is a list of entries with distinct keys (`Keyed`), in the order a `range` loop visits
them, which Go leaves unspecified.  Code that needs a stable order sorts the keys and looks each
one up (`byKey`); what it gets depends only on the entries, not on the order the loop saw them in.

* `lookup_eq_some_iff_mem`, `lookup_perm`: the lookups of a keyed list are its entries, in any
  order.
* `mergeSort_eq_of_perm`: sorting by a total, transitive, antisymmetric order forgets the order of
  the input.
* `byKey_perm_self`, `byKey_keys`, `byKey_perm`: `byKey` visits every entry once, in key order,
  and depends only on the entries.
-/

namespace Assoc

variable {α β : Type}

/-- The keys are distinct, as those of a Go map. -/
def Keyed (m : List (α × β)) : Prop := (m.map Prod.fst).Nodup

theorem Keyed.perm {m₁ m₂ : List (α × β)} (h : m₁.Perm m₂) (hk : Keyed m₁) : Keyed m₂ :=
  (h.map Prod.fst).nodup_iff.mp hk

variable [BEq α] [LawfulBEq α]

/-- The entries in the order of their keys sorted by `le`: the keys sorted, then each looked up. -/
def byKey (le : α → α → Bool) (m : List (α × β)) : List (α × β) :=
  ((m.map Prod.fst).mergeSort le).filterMap fun k => (m.lookup k).map (k, ·)

theorem lookup_eq_some_iff_mem {m : List (α × β)} (hk : Keyed m) {k : α} {v : β} :
    m.lookup k = some v ↔ (k, v) ∈ m := by
  induction m with
  | nil => simp
  | cons e m ih =>
    obtain ⟨k', v'⟩ := e
    rw [Keyed, List.map_cons, List.nodup_cons] at hk
    by_cases hkk : k = k'
    · subst hkk
      -- no entry of the tail has the head's key
      have hnot : (k, v) ∉ m := fun hm => hk.1 (List.mem_map.mpr ⟨(k, v), hm, rfl⟩)
      simp [hnot, eq_comm]
    · have hb : (k == k') = false := beq_eq_false_iff_ne.mpr hkk
      simp only [List.lookup_cons, hb]
      rw [ih hk.2]
      simp [hkk]

theorem lookup_perm {m₁ m₂ : List (α × β)} (h : m₁.Perm m₂) (hk : Keyed m₁) (k : α) :
    m₁.lookup k = m₂.lookup k := by
  apply Option.ext
  intro v
  rw [lookup_eq_some_iff_mem hk, lookup_eq_some_iff_mem (hk.perm h)]
  exact h.mem_iff

theorem lookup_isSome_of_mem {m : List (α × β)} {k : α} (h : k ∈ m.map Prod.fst) :
    (m.lookup k).isSome := by
  induction m with
  | nil => simp at h
  | cons e m ih =>
    obtain ⟨k', v'⟩ := e
    by_cases hkk : k = k'
    · simp [hkk]
    · have hb : (k == k') = false := beq_eq_false_iff_ne.mpr hkk
      have hm : k ∈ m.map Prod.fst := by simpa [hkk] using h
      simpa only [List.lookup_cons, hb] using ih hm

/-- Looking up every key of a keyed list, in the list's own order, gives the list back. -/
theorem filterMap_lookup_keys {m : List (α × β)} (hk : Keyed m) :
    (m.map Prod.fst).filterMap (fun k => (m.lookup k).map (k, ·)) = m := by
  induction m with
  | nil => rfl
  | cons e m ih =>
    obtain ⟨k, v⟩ := e
    rw [Keyed, List.map_cons, List.nodup_cons] at hk
    -- the tail's keys differ from `k`, so the head does not hide their entries
    have htail : ∀ k' ∈ m.map Prod.fst,
        (((k, v) :: m).lookup k').map (k', ·) = (m.lookup k').map (k', ·) := by
      intro k' hk'
      have hb : (k' == k) = false := beq_eq_false_iff_ne.mpr fun h => hk.1 (h ▸ hk')
      simp only [List.lookup_cons, hb]
    rw [List.map_cons, List.filterMap_cons, List.filterMap_congr htail, ih hk.2]
    simp

section Sorting

variable (le : α → α → Bool)

theorem byKey_perm_self {m : List (α × β)} (hk : Keyed m) : (byKey le m).Perm m := by
  have h := (List.mergeSort_perm (m.map Prod.fst) le).filterMap fun k => (m.lookup k).map (k, ·)
  rwa [filterMap_lookup_keys hk] at h

/-- Every sorted key is found, so `byKey` lists exactly the sorted keys. -/
theorem byKey_keys (m : List (α × β)) :
    (byKey le m).map Prod.fst = (m.map Prod.fst).mergeSort le := by
  unfold byKey
  have hfound : ∀ k ∈ (m.map Prod.fst).mergeSort le,
      ((m.lookup k).map (k, ·)).map Prod.fst = some k := by
    intro k hk
    obtain ⟨v, hv⟩ := Option.isSome_iff_exists.mp
      (lookup_isSome_of_mem ((List.mergeSort_perm _ le).mem_iff.mp hk))
    simp [hv]
  rw [List.map_filterMap, List.filterMap_congr hfound, List.filterMap_some]

variable (trans : ∀ a b c, le a b → le b c → le a c) (total : ∀ a b, le a b || le b a)
  (antisymm : ∀ a b, le a b → le b a → a = b)

include trans total antisymm

omit [BEq α] [LawfulBEq α] in
theorem mergeSort_eq_of_perm {l₁ l₂ : List α} (h : l₁.Perm l₂) :
    l₁.mergeSort le = l₂.mergeSort le :=
  List.Perm.eq_of_pairwise (fun a b _ _ => antisymm a b)
    (List.pairwise_mergeSort trans total l₁) (List.pairwise_mergeSort trans total l₂)
    (((List.mergeSort_perm l₁ le).trans h).trans (List.mergeSort_perm l₂ le).symm)

/-- `byKey` depends only on the entries of the map, not on the order a loop visits them. -/
theorem byKey_perm {m₁ m₂ : List (α × β)} (h : m₁.Perm m₂) (hk : Keyed m₁) :
    byKey le m₁ = byKey le m₂ := by
  unfold byKey
  rw [mergeSort_eq_of_perm le trans total antisymm (h.map Prod.fst)]
  -- the same keys, each looked up to the same entry
  exact List.filterMap_congr fun k _ => by rw [lookup_perm h hk k]

end Sorting

end Assoc
