import Mathlib.Data.List.Basic

/-!
# Zap.Lib.Lines — a stream cut into lines, piece by piece

`List.splitOn a s` cuts `s` at every `a`.  A reader that sees `s` in pieces keeps the pieces it
has closed and the open last one; reading `y` more continues the open piece.  This is
`splitOn_append_of_eq_concat`, the law that every line splitter fed in chunks is checked against.

* `lines a s`: the pieces of `s`, the last one left out when it is empty (a stream that ends in a
  separator has no partial last line).
* `splitOn_append_of_eq_concat`: reading `x ++ y` is reading `x`, then `y` after its open piece.
* `lines_of_splitOn_eq_concat`: `lines` from the closed pieces and the open one.
* `lines_append_of_eq_concat`: the lines of `x ++ y` are the closed pieces of `x`, then the lines
  of its open piece followed by `y`.
-/

namespace List

variable {α : Type} [BEq α]

/-- The lines of `s`: its pieces between the separators `a`, the last left out when empty. -/
def lines (a : α) (s : List α) : List (List α) :=
  let segs := s.splitOn a
  if (segs.getLastD []).isEmpty then segs.dropLast else segs

theorem splitOn_cons_self [LawfulBEq α] (a : α) (s : List α) : (a :: s).splitOn a = [] :: s.splitOn a := by
  rw [splitOn_cons_eq_if_modifyHead, if_pos (BEq.refl a)]

theorem splitOn_cons_of_ne [LawfulBEq α] {a c : α} (h : c ≠ a) (s : List α) :
    (c :: s).splitOn a = (s.splitOn a).modifyHead (cons c) := by
  rw [splitOn_cons_eq_if_modifyHead, if_neg (by simpa using h)]

/-- **Reading `x ++ y` is reading `x`, then `y` after its open piece.**  Induction on `x`: a
separator closes the current piece, any other element joins it. -/
theorem splitOn_append_of_eq_concat [LawfulBEq α] {a : α} {x : List α} {ms : List (List α)} {p : List α}
    (h : x.splitOn a = ms ++ [p]) (y : List α) : (x ++ y).splitOn a = ms ++ (p ++ y).splitOn a := by
  induction x generalizing ms p with
  | nil =>
    -- `[].splitOn a = [[]]`: nothing is closed and the open piece is empty
    obtain ⟨rfl, rfl⟩ : ms = [] ∧ p = [] := by
      rw [splitOn_nil] at h
      cases ms with
      | nil => simpa using h.symm
      | cons m ms => simp at h
    rfl
  | cons c x ih =>
    by_cases hc : c = a
    · -- `c` closes the empty first piece
      subst hc
      rw [splitOn_cons_self] at h
      obtain ⟨ms', rfl, hx⟩ : ∃ ms', ms = [] :: ms' ∧ x.splitOn c = ms' ++ [p] := by
        cases ms with
        | nil => exact absurd (cons.inj h).2 (by simp)
        | cons m ms' => exact ⟨ms', by simp [(cons.inj h).1], (cons.inj h).2⟩
      rw [cons_append, splitOn_cons_self, ih hx, cons_append]
    · -- `c` joins the first piece, closed or open
      rw [splitOn_cons_of_ne hc] at h
      obtain ⟨q, rest, hq⟩ := exists_cons_of_ne_nil (splitOn_ne_nil a x)
      rw [hq, modifyHead_cons] at h
      rw [cons_append, splitOn_cons_of_ne hc]
      rcases eq_nil_or_concat rest with rfl | ⟨rest, r, rfl⟩
      · -- only the open piece: it is `c :: q`
        obtain ⟨rfl, rfl⟩ : ms = [] ∧ p = c :: q := by
          cases ms with
          | nil => simpa using h.symm
          | cons m ms => simp at h
        have hx : x.splitOn a = [] ++ [q] := by simpa using hq
        rw [ih hx, nil_append, nil_append, cons_append,
          splitOn_cons_of_ne hc]
      · -- `c :: q` is closed, and the open piece is `r`
        rw [concat_eq_append] at hq h
        obtain ⟨rfl, rfl⟩ : ms = (c :: q) :: rest ∧ p = r := by
          rw [← cons_append] at h
          obtain ⟨h₁, h₂⟩ := append_inj' h rfl
          exact ⟨h₁.symm, (singleton_inj.mp h₂).symm⟩
        have hx : x.splitOn a = (q :: rest) ++ [p] := by rw [hq, cons_append]
        rw [ih hx]
        simp

/-- `lines` from the closed pieces `ms` and the open piece `p`. -/
theorem lines_of_splitOn_eq_concat {a : α} {s : List α} {ms : List (List α)} {p : List α}
    (h : s.splitOn a = ms ++ [p]) : lines a s = ms ++ (if p.isEmpty then [] else [p]) := by
  simp only [lines, h, getLastD_concat, dropLast_concat]
  split <;> simp

/-- Every split has an open last piece. -/
theorem exists_splitOn_eq_concat (a : α) (s : List α) : ∃ ms p, s.splitOn a = ms ++ [p] := by
  rcases eq_nil_or_concat (s.splitOn a) with h | ⟨ms, p, h⟩
  · exact absurd h (splitOn_ne_nil a s)
  · exact ⟨ms, p, by rw [h, concat_eq_append]⟩

/-- No piece holds a separator. -/
theorem not_mem_of_mem_splitOn [LawfulBEq α] {a : α} {s l : List α} (h : l ∈ s.splitOn a) : a ∉ l := by
  induction s generalizing l with
  | nil =>
    rw [splitOn_nil, mem_singleton] at h
    subst h
    exact not_mem_nil
  | cons c s ih =>
    by_cases hc : c = a
    · -- a separator adds an empty piece in front
      subst hc
      rw [splitOn_cons_self, mem_cons] at h
      rcases h with rfl | h
      · exact not_mem_nil
      · exact ih h
    · -- any other element joins the first piece
      rw [splitOn_cons_of_ne hc] at h
      obtain ⟨q, rest, hq⟩ := exists_cons_of_ne_nil (splitOn_ne_nil a s)
      rw [hq, modifyHead_cons, mem_cons] at h
      rcases h with rfl | h
      · have hq' : a ∉ q := ih (by rw [hq]; exact mem_cons_self)
        simp [Ne.symm hc, hq']
      · exact ih (by rw [hq]; exact mem_cons_of_mem q h)

/-- A piece with no separator is one line, or none when empty. -/
theorem lines_of_not_mem [LawfulBEq α] {a : α} {p : List α} (h : a ∉ p) :
    lines a p = if p.isEmpty then [] else [p] := by
  have hs : p.splitOn a = [] ++ [p] := by rw [nil_append, splitOn_eq_singleton h]
  rw [lines_of_splitOn_eq_concat hs, nil_append]

/-- **The lines of `x ++ y`**: the closed pieces of `x`, then the lines of its open piece
continued by `y`. -/
theorem lines_append_of_eq_concat [LawfulBEq α] {a : α} {x : List α} {ms : List (List α)} {p : List α}
    (h : x.splitOn a = ms ++ [p]) (y : List α) : lines a (x ++ y) = ms ++ lines a (p ++ y) := by
  obtain ⟨ms', q, hq⟩ := exists_splitOn_eq_concat a (p ++ y)
  have hxy : (x ++ y).splitOn a = (ms ++ ms') ++ [q] := by
    rw [splitOn_append_of_eq_concat h y, hq, append_assoc]
  rw [lines_of_splitOn_eq_concat hxy, lines_of_splitOn_eq_concat hq, append_assoc]

end List
