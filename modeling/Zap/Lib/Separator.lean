import Mathlib.Data.List.Basic

/-!
# Zap.Lib.Separator — output joined by a separator that looks at the last element

A writer that emits items into one growing list often decides whether a separator goes in front
of the next item by looking at the last element written: a comma after a value, none after an
opening bracket or at the start.  `Separator α` is such a separator function; `S.join b d` is
`b` followed by `d`, the output of a writer started on `[]`, with the separator in front when `d`
is not empty.

* `Separator.join_assoc`: `join` is associative, with `[]` as unit on both sides.
* `Alike S b₁ b₂`: the separator appends the same to `b₁` as to `b₂`.
* `Local S w`: `w` appends the same to alike lists; closed under composition, folds, and falling
  back to a second writer when the first wrote nothing.
* `JoinLaw S w`: on any list, `w` writes what it writes on `[]`, joined; met by a local writer
  run after the separator and a fixed output (`Local.joinLaw_after`).
* `Separator.const s`: the separator that appends `s` to a non-empty list; joining items one
  after another with it puts `s` between the non-empty ones (`foldl_join_const`).
-/

/-- A separator function: it only appends, it appends nothing to `[]`, and what it appends
depends on the last element alone. -/
structure Separator (α : Type) where
  sep : List α → List α
  sep_nil : sep [] = []
  sep_append : ∀ x c, c ≠ [] → sep (x ++ c) = x ++ sep c
  sep_prefix : ∀ b, ∃ s, sep b = b ++ s

namespace Separator

variable {α : Type} (S : Separator α)

/-- `b` followed by `d`, with the separator in front of `d` unless `d` is empty. -/
def join (b d : List α) : List α := if d = [] then b else S.sep b ++ d

@[simp] theorem join_nil_right (b : List α) : S.join b [] = b := by simp [join]

@[simp] theorem join_nil_left (d : List α) : S.join [] d = d := by
  by_cases hd : d = [] <;> simp [join, hd, S.sep_nil]

theorem join_of_ne_nil {d : List α} (hd : d ≠ []) (b : List α) : S.join b d = S.sep b ++ d := by
  simp [join, hd]

theorem join_ne_nil {b d : List α} (hd : d ≠ []) : S.join b d ≠ [] := by
  intro h
  rw [join_of_ne_nil S hd, List.append_eq_nil_iff] at h
  exact hd h.2

theorem join_assoc (b c d : List α) : S.join (S.join b c) d = S.join b (S.join c d) := by
  by_cases hd : d = []
  · simp [hd]
  by_cases hc : c = []
  · simp [hc]
  -- both joins put the separator in front of `c`, and `sep` of `b ++ sep c`'s prefix is `sep b`
  rw [join_of_ne_nil S hd, join_of_ne_nil S hc, join_of_ne_nil S (join_ne_nil S hd),
    join_of_ne_nil S hd, S.sep_append _ _ hc, List.append_assoc]

/-- The separator leaves `b` as it is. -/
theorem join_of_sep_eq {b : List α} (h : S.sep b = b) (d : List α) : S.join b d = b ++ d := by
  by_cases hd : d = []
  · simp [hd]
  · rw [join_of_ne_nil S hd, h]

/-! ## Lists the separator treats alike -/

/-- The separator appends the same to `b₁` as to `b₂`. -/
def Alike (b₁ b₂ : List α) : Prop := ∃ s, S.sep b₁ = b₁ ++ s ∧ S.sep b₂ = b₂ ++ s

/-- Appending the same non-empty output makes any two lists alike. -/
theorem alike_append_of_ne_nil (b₁ b₂ : List α) {d : List α} (hd : d ≠ []) :
    Alike S (b₁ ++ d) (b₂ ++ d) := by
  obtain ⟨s, hs⟩ := S.sep_prefix d
  exact ⟨s, by rw [S.sep_append _ _ hd, hs, List.append_assoc],
    by rw [S.sep_append _ _ hd, hs, List.append_assoc]⟩

theorem Alike.append {b₁ b₂ : List α} (h : Alike S b₁ b₂) (d : List α) :
    Alike S (b₁ ++ d) (b₂ ++ d) := by
  by_cases hd : d = []
  · simpa [hd] using h
  · exact alike_append_of_ne_nil S b₁ b₂ hd

/-! ## Writers -/

/-- `w` appends the same to alike lists. -/
def Local (w : List α → List α) : Prop :=
  ∀ b₁ b₂, Alike S b₁ b₂ → ∃ e, w b₁ = b₁ ++ e ∧ w b₂ = b₂ ++ e

/-- On any list, `w` writes what it writes on `[]`, joined. -/
def JoinLaw (w : List α → List α) : Prop := ∀ b, w b = S.join b (w [])

/-- A writer that puts the separator, then a fixed non-empty output. -/
theorem joinLaw_sep_append {k : List α} (hk : k ≠ []) : JoinLaw S (fun b => S.sep b ++ k) :=
  fun b => by simp [join_of_ne_nil S hk, S.sep_nil]

/-- A writer that puts the separator, then a fixed output. -/
theorem local_sep_append {w : List α → List α} {y : List α} (h : ∀ b, w b = S.sep b ++ y) :
    Local S w := by
  rintro b₁ b₂ ⟨s, h₁, h₂⟩
  exact ⟨s ++ y, by rw [h, h₁, List.append_assoc], by rw [h, h₂, List.append_assoc]⟩

theorem Local.comp {w₁ w₂ : List α → List α} (h₁ : Local S w₁) (h₂ : Local S w₂) :
    Local S (w₂ ∘ w₁) := by
  intro b₁ b₂ hb
  obtain ⟨e₁, h₁b₁, h₁b₂⟩ := h₁ b₁ b₂ hb
  obtain ⟨e₂, h₂b₁, h₂b₂⟩ := h₂ (b₁ ++ e₁) (b₂ ++ e₁) (hb.append S e₁)
  exact ⟨e₁ ++ e₂, by simp [h₁b₁, h₂b₁], by simp [h₁b₂, h₂b₂]⟩

theorem Local.foldl {β : Type} {f : List α → β → List α} (h : ∀ x, Local S (f · x))
    (xs : List β) : Local S (fun b => xs.foldl f b) := by
  induction xs with
  | nil => exact fun _ _ _ => ⟨[], by simp, by simp⟩
  | cons x xs ih => exact Local.comp S (h x) ih

/-- The writer that falls back to `w₂` when `w₁` wrote nothing. -/
theorem Local.orElse {w₁ w₂ : List α → List α} (h₁ : Local S w₁) (h₂ : Local S w₂) :
    Local S (fun b => if (w₁ b).length = b.length then w₂ (w₁ b) else w₁ b) := by
  intro b₁ b₂ hb
  obtain ⟨e, he₁, he₂⟩ := h₁ b₁ b₂ hb
  simp only [he₁, he₂, List.length_append, Nat.add_eq_left, List.length_eq_zero_iff]
  by_cases he : e = []
  · subst he
    simpa using h₂ b₁ b₂ hb
  · exact ⟨e, by simp [he], by simp [he]⟩

/-- A local writer after the separator and a fixed non-empty output obeys the join law. -/
theorem Local.joinLaw_after {w : List α → List α} (hw : Local S w) {k : List α} (hk : k ≠ []) :
    JoinLaw S (fun b => w (S.sep b ++ k)) := by
  intro b
  obtain ⟨e, h₁, h₂⟩ := hw (S.sep b ++ k) ([] ++ k) (alike_append_of_ne_nil S _ _ hk)
  simp only [S.sep_nil]
  rw [h₁, h₂, List.nil_append, join_of_ne_nil S (by simp [hk]), List.append_assoc]

/-- A writer with non-empty output may be followed by a fixed output. -/
theorem JoinLaw.append_right {w : List α → List α} (hw : JoinLaw S w) (hne : w [] ≠ [])
    (z : List α) : JoinLaw S (fun b => w b ++ z) := fun b => by
  simp only
  rw [hw b, join_of_ne_nil S hne, join_of_ne_nil S (by simp [hne]), List.append_assoc]

/-! ## A separator that appends a fixed text -/

/-- The separator that appends `s` to a non-empty list. -/
def const (s : List α) : Separator α where
  sep b := if b = [] then [] else b ++ s
  sep_nil := by simp
  sep_append x c hc := by simp [hc]
  sep_prefix b := by
    by_cases hb : b = []
    · exact ⟨[], by simp [hb]⟩
    · exact ⟨s, by simp [hb]⟩

theorem const_join_of_ne_nil (s : List α) {b d : List α} (hb : b ≠ []) (hd : d ≠ []) :
    (const s).join b d = b ++ s ++ d := by
  simp [join, const, hb, hd]

/-- `intercalate` of a list whose head is split: the first part comes before everything. -/
theorem intercalate_append_cons (s t u : List α) (ls : List (List α)) :
    s.intercalate ((t ++ u) :: ls) = t ++ s.intercalate (u :: ls) := by
  induction t with
  | nil => rfl
  | cons x t ih => rw [List.cons_append, List.intercalate_cons_cons_left, ih, List.cons_append]

/-- **Joining items one after another with `const s` puts `s` between the non-empty ones.** -/
theorem foldl_join_const (s b : List α) (xs : List (List α)) :
    xs.foldl (const s).join b = s.intercalate ((b :: xs).filter fun l => !l.isEmpty) := by
  induction xs generalizing b with
  | nil =>
    by_cases hb : b = [] <;> simp [hb]
  | cons x xs ih =>
    rw [List.foldl_cons, ih]
    by_cases hb : b = []
    · simp [hb]
    by_cases hx : x = []
    · simp [hx, List.filter_cons]
    -- both are kept: `b ++ s ++ x` heads the list on the left, `b` then `x` on the right
    rw [const_join_of_ne_nil s hb hx, List.filter_cons_of_pos (by simp [hb, hx]),
      List.filter_cons_of_pos (by simp [hb]), List.filter_cons_of_pos (by simp [hx]),
      intercalate_append_cons, List.intercalate_cons_cons, List.append_assoc]

end Separator
