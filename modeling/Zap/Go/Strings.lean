import Zap.Go.Utf8

/-!
# Zap.Go.Strings — `strings.ToLower`

`strings.ToLower` lowers an ASCII string byte by byte; any other string goes through
`strings.Map(unicode.ToLower, s)`, which reads it rune by rune, an invalid byte as `RuneError`,
and writes each rune's image.  `unicode.ToLower` moves the ASCII capitals and looks every other
rune up in Unicode's case table, which enters as the parameter `lowerCase`.

* `toLower_of_ascii`: an ASCII string is lowered byte by byte.
* `toLower_ne_nil`: lowering keeps a string non-empty.
* `toLower_cons_ascii`: a string that starts with an ASCII byte lowers to one that starts with
  that byte lowered.
-/

namespace Go.Strings

open Go.Utf8

/-- `utf8.AppendRune(nil, r)`: a rune that is not a character is written as `RuneError`. -/
def appendRune (r : Nat) : List UInt8 :=
  String.utf8EncodeChar (Char.ofNat (if r.isValidChar then r else runeError))

/-- `strings.Map(mapping, s)` for a `mapping` that drops nothing: each rune of `s` replaced by
its image, an invalid byte read as `RuneError`.  The code copies the bytes before the first rune
that changes, which are the encodings of runes their own images, and returns `s` itself when no
rune changes. -/
def map (mapping : Nat → Nat) (s : List UInt8) : List UInt8 :=
  (segments s).flatMap fun seg => appendRune (mapping seg.toChar.toNat)

/-- `unicode.ToLower(r)`: an ASCII rune by the range of capitals, any other by `lowerCase`,
which is `unicode.To(unicode.LowerCase, r)` over Unicode's case table. -/
def unicodeToLower (lowerCase : Nat → Nat) (r : Nat) : Nat :=
  if r ≤ 0x7F then (if 0x41 ≤ r ∧ r ≤ 0x5A then r + 0x20 else r) else lowerCase r

/-- `c += 'a' - 'A'` for a byte `A`-`Z`. -/
def asciiLower (c : UInt8) : UInt8 := if 0x41 ≤ c ∧ c ≤ 0x5A then c + 0x20 else c

/-- `strings.ToLower(s)` -/
def toLower (lowerCase : Nat → Nat) (s : List UInt8) : List UInt8 :=
  if s.all (· < 0x80) then
    -- `isASCII`: `s` itself without a capital, else each capital lowered
    if s.any (fun c => 0x41 ≤ c ∧ c ≤ 0x5A) then s.map asciiLower else s
  else map (unicodeToLower lowerCase) s

variable {lowerCase : Nat → Nat}

/-- **An ASCII string is lowered byte by byte.** -/
theorem toLower_of_ascii {s : List UInt8} (h : ∀ c ∈ s, c < 0x80) :
    toLower lowerCase s = s.map asciiLower := by
  rw [toLower, if_pos (by simpa using h)]
  split
  · rfl
  · -- no capital: lowering changes no byte
    rename_i hno
    simp only [List.any_eq_true, decide_eq_true_eq, not_exists, not_and] at hno
    have hid : ∀ c ∈ s, asciiLower c = id c := fun c hc =>
      if_neg fun hcap => hno c hc hcap.1 hcap.2
    rw [List.map_congr_left hid, List.map_id]

theorem appendRune_ne_nil (r : Nat) : appendRune r ≠ [] :=
  String.utf8EncodeChar_ne_nil

theorem segments_ne_nil {s : List UInt8} (h : s ≠ []) : segments s ≠ [] := by
  obtain ⟨b, p, rfl⟩ := List.exists_cons_of_ne_nil h
  rw [segments]
  split <;> simp

/-- **Lowering keeps a string non-empty**: every rune is written as at least one byte. -/
theorem toLower_ne_nil {s : List UInt8} (h : s ≠ []) : toLower lowerCase s ≠ [] := by
  rw [toLower]
  split
  · split
    · simpa using h
    · exact h
  · obtain ⟨seg, segs, hsegs⟩ := List.exists_cons_of_ne_nil (segments_ne_nil h)
    rw [map, hsegs, List.flatMap_cons]
    exact List.append_ne_nil_of_left_ne_nil (appendRune_ne_nil _) _

/-- `utf8.AppendRune` of an ASCII rune is its one byte. -/
theorem appendRune_of_lt {r : Nat} (h : r < 0x80) : appendRune r = [UInt8.ofNat r] := by
  have hv : r.isValidChar := Or.inl (by omega)
  have hc : (Char.ofNat r).toNat = r := toNat_ofNat_of_valid hv
  rw [appendRune, if_pos hv, utf8EncodeChar_one (by omega), hc]

/-- `unicode.ToLower`'s ASCII branch is `asciiLower`, byte by byte. -/
theorem ofNat_lower_eq_asciiLower {b : UInt8} (hb : b < 0x80) :
    UInt8.ofNat (if 0x41 ≤ b.toNat ∧ b.toNat ≤ 0x5A then b.toNat + 0x20 else b.toNat) = asciiLower b := by
  revert b
  decide +kernel

/-- **Lowering a string that starts with an ASCII byte starts with that byte lowered**, whichever
of `ToLower`'s two paths it takes. -/
theorem toLower_cons_ascii {b : UInt8} (hb : b < 0x80) (rest : List UInt8) :
    ∃ rest', toLower lowerCase (b :: rest) = asciiLower b :: rest' := by
  rw [toLower]
  split
  · split
    · exact ⟨rest.map asciiLower, rfl⟩
    · -- no capital anywhere, so lowering `b` changes nothing
      rename_i hno
      simp only [List.any_cons, Bool.or_eq_true, decide_eq_true_eq, not_or] at hno
      exact ⟨rest, by rw [asciiLower, if_neg hno.1]⟩
  · -- `b` is its own rune, mapped by `unicode.ToLower`'s ASCII branch
    obtain ⟨c, hc, he⟩ := encode_of_one (show b.toNat < 0x80 from hb)
    rw [map, @segments_cons_rune b rest c rest (by rw [he]; rfl), List.flatMap_cons]
    refine ⟨(segments rest).flatMap fun seg => appendRune (unicodeToLower lowerCase seg.toChar.toNat), ?_⟩
    have hle : c.toNat ≤ 0x7F := by rw [hc]; exact Nat.le_of_lt_succ hb
    have hlow : unicodeToLower lowerCase c.toNat =
        if 0x41 ≤ b.toNat ∧ b.toNat ≤ 0x5A then b.toNat + 0x20 else b.toNat := by
      rw [unicodeToLower, if_pos hle, hc]
    have hlt : unicodeToLower lowerCase c.toNat < 0x80 := by
      rw [hlow]; split_ifs <;> omega
    rw [Seg.toChar, appendRune_of_lt hlt, hlow, List.singleton_append, ofNat_lower_eq_asciiLower hb]

end Go.Strings
