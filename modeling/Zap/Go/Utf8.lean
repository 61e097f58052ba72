import Mathlib

/-!
# Zap.Go.Utf8 — `unicode/utf8.DecodeRune` and Go's decoding of a byte string into runes

Go strings are byte strings; `utf8.DecodeRune` reads one rune off the front of one, reporting
`(RuneError, 1)` for a byte that starts no valid encoding (RFC 3629: no overlong form, no
surrogate, nothing past U+10FFFF).  `segments` and `runes` are the loop `for _, r := range s`.

* `decodeRune_cases`: everything one call can return, with the bytes in range.
* `decodeRune_utf8EncodeChar`: it decodes `String.utf8EncodeChar c` to `c`, whatever follows.
* `decodeRune_valid`: whatever it accepts is `String.utf8EncodeChar` of its rune.
* `runes_utf8Encode`: decoding is the identity on valid UTF-8.
-/

namespace Go.Utf8

/-- `utf8.RuneError`, U+FFFD. -/
def runeError : Nat := 0xFFFD

/-- `utf8.RuneSelf`: a byte below it is a rune by itself. -/
def runeSelf : UInt8 := 0x80

/-- `locb` and `hicb`: the range of a continuation byte. -/
def locb : UInt8 := 0x80

def hicb : UInt8 := 0xBF

/-- The `first` and `acceptRanges` tables: for a byte that starts a multi-byte rune, the rune's
width and the range its second byte must lie in. -/
def first (p0 : UInt8) : Option (Nat × UInt8 × UInt8) :=
  if 0xC2 ≤ p0 ∧ p0 ≤ 0xDF then some (2, locb, hicb)
  else if p0 = 0xE0 then some (3, 0xA0, hicb)
  else if 0xE1 ≤ p0 ∧ p0 ≤ 0xEC then some (3, locb, hicb)
  else if p0 = 0xED then some (3, locb, 0x9F)
  else if 0xEE ≤ p0 ∧ p0 ≤ 0xEF then some (3, locb, hicb)
  else if p0 = 0xF0 then some (4, 0x90, hicb)
  else if 0xF1 ≤ p0 ∧ p0 ≤ 0xF3 then some (4, locb, hicb)
  else if p0 = 0xF4 then some (4, locb, 0x8F)
  else none

/-- `rune(p0&mask2)<<6 | rune(b1&maskx)` -/
def rune2 (p0 b1 : UInt8) : Nat := (p0 &&& 0x1F).toNat <<< 6 ||| (b1 &&& 0x3F).toNat

/-- `rune(p0&mask3)<<12 | rune(b1&maskx)<<6 | rune(b2&maskx)` -/
def rune3 (p0 b1 b2 : UInt8) : Nat :=
  (p0 &&& 0x0F).toNat <<< 12 ||| (b1 &&& 0x3F).toNat <<< 6 ||| (b2 &&& 0x3F).toNat

/-- `rune(p0&mask4)<<18 | rune(b1&maskx)<<12 | rune(b2&maskx)<<6 | rune(b3&maskx)` -/
def rune4 (p0 b1 b2 b3 : UInt8) : Nat :=
  (p0 &&& 0x07).toNat <<< 18 ||| (b1 &&& 0x3F).toNat <<< 12 ||| (b2 &&& 0x3F).toNat <<< 6 |||
    (b3 &&& 0x3F).toNat

/-- `utf8.DecodeRune`: the first rune of `p` and its width in bytes, `(RuneError, 0)` for an empty
`p` and `(RuneError, 1)` where `p` does not start with a valid encoding. -/
def decodeRune : List UInt8 → Nat × Nat
  | [] => (runeError, 0)
  | p0 :: p =>
    if p0 < runeSelf then (p0.toNat, 1) else
    match first p0 with
    | none => (runeError, 1)
    | some (sz, lo, hi) =>
      if p.length + 1 < sz then (runeError, 1) else
      match p with
      | [] => (runeError, 1)
      | b1 :: p =>
        if b1 < lo ∨ hi < b1 then (runeError, 1)
        else if sz ≤ 2 then (rune2 p0 b1, 2)
        else match p with
          | [] => (runeError, 1)
          | b2 :: p =>
            if b2 < locb ∨ hicb < b2 then (runeError, 1)
            else if sz ≤ 3 then (rune3 p0 b1 b2, 3)
            else match p with
              | [] => (runeError, 1)
              | b3 :: _ =>
                if b3 < locb ∨ hicb < b3 then (runeError, 1) else (rune4 p0 b1 b2 b3, 4)

/-! ## The masks as arithmetic -/

/-- Or-ing in a value below `2 ^ k` after a shift by `k` is addition. -/
theorem shiftLeft_or_eq_add (x y k : Nat) (hy : y < 2 ^ k) : x <<< k ||| y = x * 2 ^ k + y := by
  rw [← Nat.shiftLeft_add_eq_or_of_lt hy, Nat.shiftLeft_eq]

/-- One more step of a rune: six bits below the ones so far. -/
theorem shiftLeft_six_or (x y : Nat) (hy : y < 64) : x <<< 6 ||| y = x * 64 + y :=
  shiftLeft_or_eq_add x y 6 hy

theorem toNat_and_mod (x : UInt8) (k : Nat) : x.toNat &&& 2 ^ k - 1 = x.toNat % 2 ^ k :=
  Nat.and_two_pow_sub_one_eq_mod _ _

theorem rune2_eq (p0 b1 : UInt8) : rune2 p0 b1 = p0.toNat % 32 * 64 + b1.toNat % 64 := by
  have h1 := toNat_and_mod p0 5
  have h2 := toNat_and_mod b1 6
  simp only [Nat.reducePow, Nat.reduceSub] at h1 h2
  simp only [rune2, UInt8.toNat_and, UInt8.reduceToNat, h1, h2]
  exact shiftLeft_six_or _ _ (Nat.mod_lt _ (by decide))

theorem rune3_eq (p0 b1 b2 : UInt8) :
    rune3 p0 b1 b2 = (p0.toNat % 16 * 64 + b1.toNat % 64) * 64 + b2.toNat % 64 := by
  have h1 := toNat_and_mod p0 4
  have h2 := toNat_and_mod b1 6
  have h3 := toNat_and_mod b2 6
  simp only [Nat.reducePow, Nat.reduceSub] at h1 h2 h3
  simp only [rune3, UInt8.toNat_and, UInt8.reduceToNat, h1, h2, h3]
  -- `a <<< 12 ||| b <<< 6 ||| c = ((a <<< 6 ||| b) <<< 6) ||| c`
  rw [show 12 = 6 + 6 from rfl, Nat.shiftLeft_add, ← Nat.shiftLeft_or_distrib,
    shiftLeft_six_or _ _ (Nat.mod_lt _ (by decide)),
    shiftLeft_six_or _ _ (Nat.mod_lt _ (by decide))]

theorem rune4_eq (p0 b1 b2 b3 : UInt8) :
    rune4 p0 b1 b2 b3 =
      ((p0.toNat % 8 * 64 + b1.toNat % 64) * 64 + b2.toNat % 64) * 64 + b3.toNat % 64 := by
  have h1 := toNat_and_mod p0 3
  have h2 := toNat_and_mod b1 6
  have h3 := toNat_and_mod b2 6
  have h4 := toNat_and_mod b3 6
  simp only [Nat.reducePow, Nat.reduceSub] at h1 h2 h3 h4
  simp only [rune4, UInt8.toNat_and, UInt8.reduceToNat, h1, h2, h3, h4]
  rw [show 18 = 6 + 6 + 6 from rfl, show 12 = 6 + 6 from rfl, Nat.shiftLeft_add, Nat.shiftLeft_add,
    Nat.shiftLeft_add, ← Nat.shiftLeft_or_distrib, ← Nat.shiftLeft_or_distrib,
    ← Nat.shiftLeft_or_distrib, shiftLeft_six_or _ _ (Nat.mod_lt _ (by decide)),
    shiftLeft_six_or _ _ (Nat.mod_lt _ (by decide)),
    shiftLeft_six_or _ _ (Nat.mod_lt _ (by decide))]

/-! ## The branches of `decodeRune` -/

/-- A continuation byte. -/
def Cont (b : UInt8) : Prop := 0x80 ≤ b.toNat ∧ b.toNat ≤ 0xBF

theorem first_two {p0 : UInt8} (h1 : 0xC2 ≤ p0.toNat) (h2 : p0.toNat ≤ 0xDF) :
    first p0 = some (2, locb, hicb) := by
  simp only [first, UInt8.le_iff_toNat_le, UInt8.reduceToNat]
  rw [if_pos ⟨h1, h2⟩]

theorem first_three {p0 : UInt8} (h1 : 0xE0 ≤ p0.toNat) (h2 : p0.toNat ≤ 0xEF) :
    first p0 = some (3, if p0.toNat = 0xE0 then 0xA0 else locb,
      if p0.toNat = 0xED then 0x9F else hicb) := by
  -- the table is checked byte by byte
  revert p0
  decide +kernel

theorem first_four {p0 : UInt8} (h1 : 0xF0 ≤ p0.toNat) (h2 : p0.toNat ≤ 0xF4) :
    first p0 = some (4, if p0.toNat = 0xF0 then 0x90 else locb,
      if p0.toNat = 0xF4 then 0x8F else hicb) := by
  revert p0
  decide +kernel

theorem first_none {p0 : UInt8} (h : p0.toNat < 0xC2 ∨ 0xF4 < p0.toNat) : first p0 = none := by
  revert p0
  decide +kernel

theorem decodeRune_one {b : UInt8} (p : List UInt8) (h : b.toNat < 0x80) :
    decodeRune (b :: p) = (b.toNat, 1) := by
  rw [decodeRune, if_pos (UInt8.lt_iff_toNat_lt.mpr h)]

theorem decodeRune_two {b0 b1 : UInt8} (p : List UInt8) (h0 : 0xC2 ≤ b0.toNat ∧ b0.toNat ≤ 0xDF)
    (h1 : Cont b1) : decodeRune (b0 :: b1 :: p) = (rune2 b0 b1, 2) := by
  simp only [Cont] at h1
  simp only [decodeRune, first_two h0.1 h0.2, UInt8.lt_iff_toNat_lt, runeSelf, locb, hicb,
    UInt8.reduceToNat, List.length_cons]
  rw [if_neg (by omega), if_neg (by omega), if_neg (by omega), if_pos (by omega)]

/-- The range of the second byte of a three-byte rune: `acceptRanges` for `E0`, `ED` and the rest. -/
def Second3 (b0 b1 : UInt8) : Prop :=
  (if b0.toNat = 0xE0 then 0xA0 else 0x80) ≤ b1.toNat ∧
    b1.toNat ≤ (if b0.toNat = 0xED then 0x9F else 0xBF)

/-- The range of the second byte of a four-byte rune: `acceptRanges` for `F0`, `F4` and the rest. -/
def Second4 (b0 b1 : UInt8) : Prop :=
  (if b0.toNat = 0xF0 then 0x90 else 0x80) ≤ b1.toNat ∧
    b1.toNat ≤ (if b0.toNat = 0xF4 then 0x8F else 0xBF)

theorem decodeRune_three {b0 b1 b2 : UInt8} (p : List UInt8)
    (h0 : 0xE0 ≤ b0.toNat ∧ b0.toNat ≤ 0xEF) (h1 : Second3 b0 b1) (h2 : Cont b2) :
    decodeRune (b0 :: b1 :: b2 :: p) = (rune3 b0 b1 b2, 3) := by
  simp only [Cont, Second3] at h1 h2
  simp only [decodeRune, first_three h0.1 h0.2, UInt8.lt_iff_toNat_lt, runeSelf, locb, hicb,
    UInt8.reduceToNat, List.length_cons, apply_ite UInt8.toNat]
  rw [if_neg (by omega), if_neg (by omega), if_neg (by omega),
    if_neg (by omega), if_neg (by omega), if_pos (by omega)]

theorem decodeRune_four {b0 b1 b2 b3 : UInt8} (p : List UInt8)
    (h0 : 0xF0 ≤ b0.toNat ∧ b0.toNat ≤ 0xF4) (h1 : Second4 b0 b1) (h2 : Cont b2) (h3 : Cont b3) :
    decodeRune (b0 :: b1 :: b2 :: b3 :: p) = (rune4 b0 b1 b2 b3, 4) := by
  simp only [Cont, Second4] at h1 h2 h3
  simp only [decodeRune, first_four h0.1 h0.2, UInt8.lt_iff_toNat_lt, runeSelf, locb, hicb,
    UInt8.reduceToNat, List.length_cons, apply_ite UInt8.toNat]
  rw [if_neg (by omega), if_neg (by omega), if_neg (by omega),
    if_neg (by omega), if_neg (by omega), if_neg (by omega), if_neg (by omega)]

/-- What one call of `decodeRune` on a non-empty input can return: an ASCII byte, `RuneError` of
width one, or one of the three multi-byte shapes with its bytes in range. -/
theorem decodeRune_cases (b0 : UInt8) (p : List UInt8) :
    decodeRune (b0 :: p) = (runeError, 1) ∨
    (b0.toNat < 0x80 ∧ decodeRune (b0 :: p) = (b0.toNat, 1)) ∨
    (∃ b1 q, p = b1 :: q ∧ (0xC2 ≤ b0.toNat ∧ b0.toNat ≤ 0xDF) ∧ Cont b1 ∧
      decodeRune (b0 :: p) = (rune2 b0 b1, 2)) ∨
    (∃ b1 b2 q, p = b1 :: b2 :: q ∧ (0xE0 ≤ b0.toNat ∧ b0.toNat ≤ 0xEF) ∧ Second3 b0 b1 ∧
      Cont b2 ∧ decodeRune (b0 :: p) = (rune3 b0 b1 b2, 3)) ∨
    (∃ b1 b2 b3 q, p = b1 :: b2 :: b3 :: q ∧ (0xF0 ≤ b0.toNat ∧ b0.toNat ≤ 0xF4) ∧
      Second4 b0 b1 ∧ Cont b2 ∧ Cont b3 ∧ decodeRune (b0 :: p) = (rune4 b0 b1 b2 b3, 4)) := by
  by_cases ha : b0.toNat < 0x80
  · exact .inr (.inl ⟨ha, decodeRune_one p ha⟩)
  have hlead : ¬ b0 < runeSelf := by simp [runeSelf, UInt8.lt_iff_toNat_lt]; omega
  by_cases hn : b0.toNat < 0xC2 ∨ 0xF4 < b0.toNat
  · left
    rw [decodeRune, if_neg hlead, first_none hn]
  have hb : (0xC2 ≤ b0.toNat ∧ b0.toNat ≤ 0xDF) ∨ (0xE0 ≤ b0.toNat ∧ b0.toNat ≤ 0xEF) ∨
      (0xF0 ≤ b0.toNat ∧ b0.toNat ≤ 0xF4) := by omega
  -- each lead class: the valid shape, or a missing or out-of-range byte giving `RuneError`
  rcases hb with hb | hb | hb
  · rcases p with _ | ⟨b1, q⟩
    · left; rw [decodeRune, if_neg hlead, first_two hb.1 hb.2]; rfl
    by_cases h1 : Cont b1
    · exact .inr (.inr (.inl ⟨b1, q, rfl, hb, h1, decodeRune_two q hb h1⟩))
    left
    simp only [Cont] at h1
    rw [decodeRune, if_neg hlead, first_two hb.1 hb.2]
    simp only [UInt8.lt_iff_toNat_lt, locb, hicb, UInt8.reduceToNat, List.length_cons]
    rw [if_neg (by omega), if_pos (by omega)]
  · rcases p with _ | ⟨b1, _ | ⟨b2, q⟩⟩
    · left; rw [decodeRune, if_neg hlead, first_three hb.1 hb.2]; rfl
    · left; rw [decodeRune, if_neg hlead, first_three hb.1 hb.2]; rfl
    by_cases h12 : Second3 b0 b1 ∧ Cont b2
    · exact .inr (.inr (.inr (.inl ⟨b1, b2, q, rfl, hb, h12.1, h12.2,
        decodeRune_three q hb h12.1 h12.2⟩)))
    left
    simp only [Second3, Cont] at h12
    rw [decodeRune, if_neg hlead, first_three hb.1 hb.2]
    simp only [UInt8.lt_iff_toNat_lt, locb, hicb, UInt8.reduceToNat, List.length_cons,
      apply_ite UInt8.toNat]
    rw [if_neg (by omega)]
    -- the second byte out of its range, or else the third not a continuation byte
    by_cases h1 : b1.toNat < (if b0.toNat = 0xE0 then 0xA0 else 0x80) ∨
        (if b0.toNat = 0xED then 0x9F else 0xBF) < b1.toNat
    · rw [if_pos h1]
    · rw [if_neg h1, if_neg (by decide), if_pos (by omega)]
  · rcases p with _ | ⟨b1, _ | ⟨b2, _ | ⟨b3, q⟩⟩⟩
    · left; rw [decodeRune, if_neg hlead, first_four hb.1 hb.2]; rfl
    · left; rw [decodeRune, if_neg hlead, first_four hb.1 hb.2]; rfl
    · left; rw [decodeRune, if_neg hlead, first_four hb.1 hb.2]; rfl
    by_cases h123 : Second4 b0 b1 ∧ Cont b2 ∧ Cont b3
    · exact .inr (.inr (.inr (.inr ⟨b1, b2, b3, q, rfl, hb, h123.1, h123.2.1, h123.2.2,
        decodeRune_four q hb h123.1 h123.2.1 h123.2.2⟩)))
    left
    simp only [Second4, Cont] at h123
    rw [decodeRune, if_neg hlead, first_four hb.1 hb.2]
    simp only [UInt8.lt_iff_toNat_lt, locb, hicb, UInt8.reduceToNat, List.length_cons,
      apply_ite UInt8.toNat]
    rw [if_neg (by omega)]
    by_cases h1 : b1.toNat < (if b0.toNat = 0xF0 then 0x90 else 0x80) ∨
        (if b0.toNat = 0xF4 then 0x8F else 0xBF) < b1.toNat
    · rw [if_pos h1]
    rw [if_neg h1, if_neg (by decide)]
    by_cases h2 : b2.toNat < 0x80 ∨ 0xBF < b2.toNat
    · rw [if_pos h2]
    · rw [if_neg h2, if_neg (by decide), if_pos (by omega)]

/-! ## `decodeRune` inverts `String.utf8EncodeChar` -/

section Encode

variable {c : Char}

theorem toNat_valid (c : Char) : c.toNat < 0xD800 ∨ (0xDFFF < c.toNat ∧ c.toNat < 0x110000) :=
  c.valid

theorem utf8EncodeChar_one (h : c.toNat ≤ 0x7f) : String.utf8EncodeChar c = [UInt8.ofNat c.toNat] := by
  have h' : c.val.toNat ≤ 0x7f := h
  unfold String.utf8EncodeChar
  rw [if_pos h']
  rfl

theorem utf8EncodeChar_two (h1 : 0x7f < c.toNat) (h2 : c.toNat ≤ 0x7ff) :
    String.utf8EncodeChar c =
      [UInt8.ofNat (c.toNat / 64 % 0x20 + 0xc0), UInt8.ofNat (c.toNat % 0x40 + 0x80)] := by
  have n1 : ¬ c.val.toNat ≤ 0x7f := Nat.not_le.mpr h1
  have h2' : c.val.toNat ≤ 0x7ff := h2
  unfold String.utf8EncodeChar
  rw [if_neg n1, if_pos h2']
  rfl

theorem utf8EncodeChar_three (h1 : 0x7ff < c.toNat) (h2 : c.toNat ≤ 0xffff) :
    String.utf8EncodeChar c =
      [UInt8.ofNat (c.toNat / 4096 % 0x10 + 0xe0), UInt8.ofNat (c.toNat / 64 % 0x40 + 0x80),
        UInt8.ofNat (c.toNat % 0x40 + 0x80)] := by
  have n1 : ¬ c.val.toNat ≤ 0x7f := Nat.not_le.mpr (Nat.lt_trans (by decide) h1)
  have n2 : ¬ c.val.toNat ≤ 0x7ff := Nat.not_le.mpr h1
  have h2' : c.val.toNat ≤ 0xffff := h2
  unfold String.utf8EncodeChar
  rw [if_neg n1, if_neg n2, if_pos h2']
  rfl

theorem utf8EncodeChar_four (h1 : 0xffff < c.toNat) :
    String.utf8EncodeChar c =
      [UInt8.ofNat (c.toNat / 262144 % 0x08 + 0xf0), UInt8.ofNat (c.toNat / 4096 % 0x40 + 0x80),
        UInt8.ofNat (c.toNat / 64 % 0x40 + 0x80), UInt8.ofNat (c.toNat % 0x40 + 0x80)] := by
  have n1 : ¬ c.val.toNat ≤ 0x7f := Nat.not_le.mpr (Nat.lt_trans (by decide) h1)
  have n2 : ¬ c.val.toNat ≤ 0x7ff := Nat.not_le.mpr (Nat.lt_trans (by decide) h1)
  have n3 : ¬ c.val.toNat ≤ 0xffff := Nat.not_le.mpr h1
  unfold String.utf8EncodeChar
  rw [if_neg n1, if_neg n2, if_neg n3]
  rfl

/-- **`decodeRune` decodes what `utf8EncodeChar` encodes**, whatever follows. -/
theorem decodeRune_utf8EncodeChar (c : Char) (rest : List UInt8) :
    decodeRune (String.utf8EncodeChar c ++ rest) = (c.toNat, c.utf8Size) := by
  have hv := toNat_valid c
  rw [← String.length_utf8EncodeChar]
  by_cases h1 : c.toNat ≤ 0x7f
  · rw [utf8EncodeChar_one h1, List.singleton_append, decodeRune_one _ (by simp; omega)]
    simp [Nat.mod_eq_of_lt (show c.toNat < 256 by omega)]
  by_cases h2 : c.toNat ≤ 0x7ff
  · rw [utf8EncodeChar_two (by omega) h2, List.cons_append, List.cons_append, List.nil_append,
      decodeRune_two _ (by simp; omega) (by simp [Cont]; omega), rune2_eq]
    simp only [UInt8.toNat_ofNat', Nat.reducePow, List.length_cons, List.length_nil, Prod.mk.injEq, and_true]
    omega
  by_cases h3 : c.toNat ≤ 0xffff
  · rw [utf8EncodeChar_three (by omega) h3, List.cons_append, List.cons_append, List.cons_append,
      List.nil_append, decodeRune_three _ (by simp; omega) (by simp [Second3]; split_ifs <;> omega)
        (by simp [Cont]; omega), rune3_eq]
    simp only [UInt8.toNat_ofNat', Nat.reducePow, List.length_cons, List.length_nil, Prod.mk.injEq, and_true]
    omega
  rw [utf8EncodeChar_four (by omega), List.cons_append, List.cons_append, List.cons_append,
    List.cons_append, List.nil_append, decodeRune_four _ (by simp; omega)
      (by simp [Second4]; split_ifs <;> omega) (by simp [Cont]; omega) (by simp [Cont]; omega),
    rune4_eq]
  simp only [UInt8.toNat_ofNat', Nat.reducePow, List.length_cons, List.length_nil, Prod.mk.injEq, and_true]
  omega

theorem toNat_ofNat_of_valid {n : Nat} (h : n.isValidChar) : (Char.ofNat n).toNat = n := by
  simp [Char.ofNat, h, Char.ofNatAux, Char.toNat]

theorem encode_of_one {b0 : UInt8} (h0 : b0.toNat < 0x80) :
    ∃ c : Char, c.toNat = b0.toNat ∧ String.utf8EncodeChar c = [b0] := by
  have hc : (Char.ofNat b0.toNat).toNat = b0.toNat :=
    toNat_ofNat_of_valid (Or.inl (by omega))
  refine ⟨Char.ofNat b0.toNat, hc, ?_⟩
  rw [utf8EncodeChar_one (by omega), hc, UInt8.ofNat_toNat]

theorem encode_of_two {b0 b1 : UInt8} (h0 : 0xC2 ≤ b0.toNat ∧ b0.toNat ≤ 0xDF) (h1 : Cont b1) :
    ∃ c : Char, c.toNat = rune2 b0 b1 ∧ String.utf8EncodeChar c = [b0, b1] := by
  simp only [Cont] at h1
  have hc : (Char.ofNat (rune2 b0 b1)).toNat = rune2 b0 b1 :=
    toNat_ofNat_of_valid (Or.inl (by rw [rune2_eq]; omega))
  refine ⟨Char.ofNat (rune2 b0 b1), hc, ?_⟩
  rw [utf8EncodeChar_two (by rw [hc, rune2_eq]; omega) (by rw [hc, rune2_eq]; omega), hc, rune2_eq]
  simp only [List.cons.injEq, ← UInt8.toNat_inj, UInt8.toNat_ofNat', Nat.reducePow, and_true]
  omega

theorem encode_of_three {b0 b1 b2 : UInt8} (h0 : 0xE0 ≤ b0.toNat ∧ b0.toNat ≤ 0xEF)
    (h1 : Second3 b0 b1) (h2 : Cont b2) :
    ∃ c : Char, c.toNat = rune3 b0 b1 b2 ∧ String.utf8EncodeChar c = [b0, b1, b2] := by
  simp only [Second3, Cont] at h1 h2
  -- the `E0` and `ED` rows exclude overlong encodings and surrogates
  have hr : 0x800 ≤ rune3 b0 b1 b2 ∧ rune3 b0 b1 b2 ≤ 0xFFFF ∧
      (rune3 b0 b1 b2 < 0xD800 ∨ 0xDFFF < rune3 b0 b1 b2) := by
    rw [rune3_eq]; split_ifs at h1 <;> omega
  have hb1 : 0x80 ≤ b1.toNat ∧ b1.toNat ≤ 0xBF := by split_ifs at h1 <;> omega
  have hc : (Char.ofNat (rune3 b0 b1 b2)).toNat = rune3 b0 b1 b2 :=
    toNat_ofNat_of_valid (by rcases hr.2.2 with h | h; exacts [Or.inl h, Or.inr ⟨h, by omega⟩])
  refine ⟨Char.ofNat (rune3 b0 b1 b2), hc, ?_⟩
  rw [utf8EncodeChar_three (by omega) (by omega), hc, rune3_eq]
  simp only [List.cons.injEq, ← UInt8.toNat_inj, UInt8.toNat_ofNat', Nat.reducePow, and_true]
  omega

theorem encode_of_four {b0 b1 b2 b3 : UInt8} (h0 : 0xF0 ≤ b0.toNat ∧ b0.toNat ≤ 0xF4)
    (h1 : Second4 b0 b1) (h2 : Cont b2) (h3 : Cont b3) :
    ∃ c : Char, c.toNat = rune4 b0 b1 b2 b3 ∧ String.utf8EncodeChar c = [b0, b1, b2, b3] := by
  simp only [Second4, Cont] at h1 h2 h3
  -- the `F0` and `F4` rows exclude overlong encodings and values past U+10FFFF
  have hr : 0x10000 ≤ rune4 b0 b1 b2 b3 ∧ rune4 b0 b1 b2 b3 < 0x110000 := by
    rw [rune4_eq]; split_ifs at h1 <;> omega
  have hb1 : 0x80 ≤ b1.toNat ∧ b1.toNat ≤ 0xBF := by split_ifs at h1 <;> omega
  have hc : (Char.ofNat (rune4 b0 b1 b2 b3)).toNat = rune4 b0 b1 b2 b3 :=
    toNat_ofNat_of_valid (Or.inr ⟨by omega, hr.2⟩)
  refine ⟨Char.ofNat (rune4 b0 b1 b2 b3), hc, ?_⟩
  rw [utf8EncodeChar_four (by omega), hc, rune4_eq]
  simp only [List.cons.injEq, ← UInt8.toNat_inj, UInt8.toNat_ofNat', Nat.reducePow, and_true]
  omega

/-- A rune read from the bytes `bs` that encode `c`, with `bs`'s length as its width, is the
shape `decodeRune_valid` promises. -/
theorem valid_of_utf8EncodeChar {bs : List UInt8} (rest : List UInt8) {r n : Nat}
    (he : String.utf8EncodeChar c = bs) (hr : r = c.toNat) (hn : n = bs.length) :
    ∃ c rest', bs ++ rest = String.utf8EncodeChar c ++ rest' ∧ r = c.toNat ∧ n = c.utf8Size :=
  ⟨c, rest, by rw [he], hr, by rw [hn, ← he, String.length_utf8EncodeChar]⟩

/-- **Whatever `decodeRune` accepts is the encoding of its rune.** -/
theorem decodeRune_valid {b0 : UInt8} {p : List UInt8} {r n : Nat}
    (h : decodeRune (b0 :: p) = (r, n)) (hv : ¬ (r = runeError ∧ n = 1)) :
    ∃ c rest, b0 :: p = String.utf8EncodeChar c ++ rest ∧ r = c.toNat ∧ n = c.utf8Size := by
  rcases decodeRune_cases b0 p with he | ⟨h0, he⟩ | ⟨b1, q, rfl, h0, h1, he⟩ |
      ⟨b1, b2, q, rfl, h0, h1, h2, he⟩ | ⟨b1, b2, b3, q, rfl, h0, h1, h2, h3, he⟩
  · rw [he] at h; cases h; exact absurd ⟨rfl, rfl⟩ hv
  all_goals rw [he, Prod.mk.injEq] at h
  -- each accepted shape is the encoding of a character, by the `encode_of_*` lemmas
  · obtain ⟨c, hc, he⟩ := encode_of_one h0
    exact valid_of_utf8EncodeChar p he (by omega) h.2.symm
  · obtain ⟨c, hc, he⟩ := encode_of_two h0 h1
    exact valid_of_utf8EncodeChar q he (by omega) h.2.symm
  · obtain ⟨c, hc, he⟩ := encode_of_three h0 h1 h2
    exact valid_of_utf8EncodeChar q he (by omega) h.2.symm
  · obtain ⟨c, hc, he⟩ := encode_of_four h0 h1 h2 h3
    exact valid_of_utf8EncodeChar q he (by omega) h.2.symm

/-- The width `decodeRune` reports for a non-empty input is at least one and at most its length. -/
theorem decodeRune_width (b0 : UInt8) (p : List UInt8) :
    1 ≤ (decodeRune (b0 :: p)).2 ∧ (decodeRune (b0 :: p)).2 ≤ p.length + 1 := by
  rcases decodeRune_cases b0 p with he | ⟨_, he⟩ | ⟨b1, q, rfl, -, -, he⟩ |
      ⟨b1, b2, q, rfl, -, -, -, he⟩ | ⟨b1, b2, b3, q, rfl, -, -, -, -, he⟩ <;>
    simp [he]

end Encode

/-! ## Go's conversion of a byte string to runes -/

/-- One step of Go's decoding of a byte string: a rune it accepted, or a byte it rejected. -/
inductive Seg where
  | rune (c : Char)
  | invalid (b : UInt8)
  deriving DecidableEq, Repr

/-- The bytes a step consumed. -/
def Seg.bytes : Seg → List UInt8
  | .rune c => String.utf8EncodeChar c
  | .invalid b => [b]

/-- The rune a step yields: a rejected byte becomes `RuneError`. -/
def Seg.toChar : Seg → Char
  | .rune c => c
  | .invalid _ => Char.ofNat runeError

/-- The steps of `for _, r := range s`: `decodeRune` from the front, one byte past a rejected
byte and the rune's width past an accepted one. -/
def segments : List UInt8 → List Seg
  | [] => []
  | b :: p =>
    if (decodeRune (b :: p)).1 = runeError ∧ (decodeRune (b :: p)).2 = 1 then
      .invalid b :: segments p
    else .rune (Char.ofNat (decodeRune (b :: p)).1) :: segments ((b :: p).drop (decodeRune (b :: p)).2)
termination_by s => s.length
decreasing_by
  · simp
  · have := (decodeRune_width b p).1
    simp only [List.length_drop, List.length_cons]
    omega

/-- `[]rune(s)`: the runes of `s`, each invalid byte replaced by U+FFFD. -/
def runes (s : List UInt8) : List Char := (segments s).map Seg.toChar

theorem segments_cons_invalid {b : UInt8} {p : List UInt8}
    (h : decodeRune (b :: p) = (runeError, 1)) : segments (b :: p) = .invalid b :: segments p := by
  rw [segments, if_pos (by rw [h]; exact ⟨rfl, rfl⟩)]

theorem segments_cons_rune {b : UInt8} {p : List UInt8} {c : Char} {rest : List UInt8}
    (h : b :: p = String.utf8EncodeChar c ++ rest) :
    segments (b :: p) = .rune c :: segments rest := by
  have hd : decodeRune (b :: p) = (c.toNat, c.utf8Size) := by rw [h, decodeRune_utf8EncodeChar]
  -- an encoding is never `(RuneError, 1)`: a one-byte encoding is ASCII
  have hne : ¬ (c.toNat = runeError ∧ c.utf8Size = 1) := by
    rintro ⟨h1, h2⟩
    have := Char.utf8Size_eq_one_iff.mp h2
    simp [runeError, UInt32.le_iff_toNat_le] at this h1
    omega
  rw [segments, hd, if_neg hne, h, List.drop_left' (String.length_utf8EncodeChar c), Char.ofNat_toNat]

/-- **Go decodes a valid encoding back to its characters.** -/
theorem segments_utf8Encode (cs : List Char) :
    segments (cs.flatMap String.utf8EncodeChar) = cs.map Seg.rune := by
  induction cs with
  | nil => simp [segments]
  | cons c cs ih =>
    obtain ⟨b, p, hbp⟩ : ∃ b p, String.utf8EncodeChar c ++ cs.flatMap String.utf8EncodeChar = b :: p := by
      cases h : String.utf8EncodeChar c with
      | nil => exact absurd h String.utf8EncodeChar_ne_nil
      | cons b p => exact ⟨b, _, rfl⟩
    rw [List.flatMap_cons, hbp, segments_cons_rune hbp.symm, ih, List.map_cons]

theorem runes_utf8Encode (cs : List Char) : runes (cs.flatMap String.utf8EncodeChar) = cs := by
  rw [runes, segments_utf8Encode, List.map_map]
  exact List.map_id' _


end Go.Utf8

namespace Go.Utf8

/-! ## Valid UTF-8 -/

/-- Valid UTF-8: the encoding of some characters, as `ByteArray.IsValidUTF8` has it for arrays. -/
def Valid (bs : List UInt8) : Prop := ∃ cs : List Char, bs = cs.flatMap String.utf8EncodeChar

theorem Valid.isValidUTF8 {bs : List UInt8} (h : Valid bs) : bs.toByteArray.IsValidUTF8 := by
  obtain ⟨cs, rfl⟩ := h
  exact ⟨cs, rfl⟩

/-- `Valid` is Lean's `ByteArray.IsValidUTF8`, read on the list of bytes. -/
theorem valid_iff_isValidUTF8 {bs : List UInt8} : Valid bs ↔ bs.toByteArray.IsValidUTF8 := by
  constructor
  · exact Valid.isValidUTF8
  · rintro ⟨cs, hcs⟩
    exact ⟨cs, List.toByteArray_inj.mp hcs⟩

theorem valid_nil : Valid [] := ⟨[], rfl⟩

theorem Valid.append {p q : List UInt8} (hp : Valid p) (hq : Valid q) : Valid (p ++ q) := by
  obtain ⟨cs, rfl⟩ := hp
  obtain ⟨ds, rfl⟩ := hq
  exact ⟨cs ++ ds, by rw [List.flatMap_append]⟩

/-- Valid bytes are the encoding of their own runes. -/
theorem Valid.flatMap_runes {bs : List UInt8} (h : Valid bs) :
    (runes bs).flatMap String.utf8EncodeChar = bs := by
  obtain ⟨cs, rfl⟩ := h
  rw [runes_utf8Encode]

theorem valid_utf8EncodeChar (c : Char) : Valid (String.utf8EncodeChar c) :=
  ⟨[c], by simp⟩

/-- ASCII bytes are valid UTF-8, each its own character. -/
theorem valid_of_ascii {bs : List UInt8} (h : ∀ b ∈ bs, b.toNat < 0x80) : Valid bs := by
  induction bs with
  | nil => exact valid_nil
  | cons b bs ih =>
    obtain ⟨c, -, hc⟩ := encode_of_one (h b (by simp))
    have hb : [b] ++ bs = b :: bs := rfl
    rw [← hb, ← hc]
    exact (valid_utf8EncodeChar c).append (ih fun b' hb' => h b' (by simp [hb']))

/-- A byte of a character's encoding: the character itself up to U+007F, and at least `0x80`, a
lead or continuation byte, in any longer encoding. -/
theorem mem_utf8EncodeChar {c : Char} {b : UInt8} (hb : b ∈ String.utf8EncodeChar c) :
    (c.toNat ≤ 0x7f ∧ b.toNat = c.toNat) ∨ (0x7f < c.toNat ∧ 0x80 ≤ b.toNat) := by
  have hv := toNat_valid c
  by_cases h1 : c.toNat ≤ 0x7f
  · rw [utf8EncodeChar_one h1, List.mem_singleton] at hb
    subst hb
    simp only [UInt8.toNat_ofNat', Nat.reducePow]
    omega
  -- in each longer width, every byte is some value mod 2^8 plus at least `0x80`
  by_cases h2 : c.toNat ≤ 0x7ff
  · rw [utf8EncodeChar_two (by omega) h2] at hb
    simp only [List.mem_cons, List.not_mem_nil, or_false] at hb
    rcases hb with rfl | rfl <;> simp only [UInt8.toNat_ofNat', Nat.reducePow] <;> omega
  by_cases h3 : c.toNat ≤ 0xffff
  · rw [utf8EncodeChar_three (by omega) h3] at hb
    simp only [List.mem_cons, List.not_mem_nil, or_false] at hb
    rcases hb with rfl | rfl | rfl <;> simp only [UInt8.toNat_ofNat', Nat.reducePow] <;> omega
  rw [utf8EncodeChar_four (by omega)] at hb
  simp only [List.mem_cons, List.not_mem_nil, or_false] at hb
  rcases hb with rfl | rfl | rfl | rfl <;> simp only [UInt8.toNat_ofNat', Nat.reducePow] <;> omega

/-- The encoding of a character at or above U+0020 has no byte below it: a lead or continuation
byte of a longer encoding is at least `0x80`. -/
theorem utf8EncodeChar_ge {c : Char} (h : 0x20 ≤ c.toNat) :
    ∀ b ∈ String.utf8EncodeChar c, 0x20 ≤ b.toNat := by
  intro b hb
  rcases mem_utf8EncodeChar hb with ⟨-, hb⟩ | ⟨-, hb⟩ <;> omega

end Go.Utf8

namespace Go.Utf8

/-- A Go string literal: the UTF-8 bytes of its text. -/
def lit (s : String) : List UInt8 := s.toList.flatMap String.utf8EncodeChar

/-- `utf8.DecodeRuneInString`: `decodeRune` on the bytes of a string. -/
def decodeRuneInString (s : List UInt8) : Nat × Nat := decodeRune s

end Go.Utf8
