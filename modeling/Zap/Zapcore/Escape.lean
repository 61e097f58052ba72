import Zap.Buffer
import Zap.Json.String

/-!
# Zap.Zapcore.Escape — `safeAppendStringLike`, the JSON escaping of keys and string values

The loop keeps two cursors: `last`, the first byte not yet copied, and `i`, the byte under
inspection.  Runs of bytes that need no escaping are skipped and copied lazily, as `s[last:i]`,
just before an escape is written, and once more, as `s[last:]`, at the end.  The loop is bounded
by `len(s)` iterations (`fuel`), which it never exhausts: every iteration advances `i`.

* `safeAppendLoop_spec`: the lazy loop writes what the eager `jsonEscape` writes, one step of
  Go's decoding (`Go.Utf8.segments`) at a time.
* `jsonEscape_strBody`: that is a JSON string body standing for `Go.Utf8.runes s`.
-/

namespace Zap.Zapcore

open Go.Utf8

/-- `_hex` -/
def hex : List UInt8 := lit "0123456789abcdef"

/-- `s[lo:hi]` -/
def slice (s : List UInt8) (lo hi : Nat) : List UInt8 := (s.take hi).drop lo

/-- The `switch` on a byte below `RuneSelf` that needs escaping. -/
def appendEscaped (buf : Buffer) (b : UInt8) : Buffer :=
  if b = 0x5C ∨ b = 0x22 then (buf.appendByte 0x5C).appendByte b
  else if b = 0x0A then (buf.appendByte 0x5C).appendByte 0x6E
  else if b = 0x0D then (buf.appendByte 0x5C).appendByte 0x72
  else if b = 0x09 then (buf.appendByte 0x5C).appendByte 0x74
  else ((buf.appendString (lit "\\u00")).appendByte (hex.getD (b >>> 4).toNat 0)).appendByte
    (hex.getD (b &&& 0xF).toNat 0)

/-- The `for i := 0; i < len(s);` loop of `safeAppendStringLike`, for at most `fuel` iterations,
from the cursors `last` and `i`; it returns the buffer and `last`. -/
def safeAppendLoop (appendTo : Buffer → List UInt8 → Buffer) (decodeRune : List UInt8 → Nat × Nat)
    (s : List UInt8) : Nat → Buffer → Nat → Nat → Buffer × Nat
  | 0, buf, last, _ => (buf, last)
  | fuel + 1, buf, last, i =>
    if h : i < s.length then
      if runeSelf ≤ s[i] then
        if (decodeRune (s.drop i)).1 ≠ runeError ∨ (decodeRune (s.drop i)).2 ≠ 1 then
          safeAppendLoop appendTo decodeRune s fuel buf last (i + (decodeRune (s.drop i)).2)
        else
          safeAppendLoop appendTo decodeRune s fuel
            ((appendTo buf (slice s last i)).appendString (lit "\\ufffd")) (i + 1) (i + 1)
      else if 0x20 ≤ s[i] ∧ s[i] ≠ 0x5C ∧ s[i] ≠ 0x22 then
        safeAppendLoop appendTo decodeRune s fuel buf last (i + 1)
      else
        safeAppendLoop appendTo decodeRune s fuel (appendEscaped (appendTo buf (slice s last i)) s[i])
          (i + 1) (i + 1)
    else (buf, last)

/-- `safeAppendStringLike(appendTo, decodeRune, buf, s)` -/
def safeAppendStringLike (appendTo : Buffer → List UInt8 → Buffer)
    (decodeRune : List UInt8 → Nat × Nat) (buf : Buffer) (s : List UInt8) : Buffer :=
  let r := safeAppendLoop appendTo decodeRune s s.length buf 0 0
  appendTo r.1 (s.drop r.2)

/-- `jsonEncoder.safeAddString`, on the encoder's buffer. -/
def safeAddString (buf : Buffer) (s : List UInt8) : Buffer :=
  safeAppendStringLike Buffer.appendString decodeRuneInString buf s

/-- `jsonEncoder.safeAddByteString`, on the encoder's buffer. -/
def safeAddByteString (buf : Buffer) (s : List UInt8) : Buffer :=
  safeAppendStringLike Buffer.appendBytes decodeRune buf s

/-! ## The eager escaping -/

/-- A byte `safeAppendStringLike` escapes: below U+0020, `\` or `"`. -/
def NeedsEscape (b : Nat) : Prop := b < 0x20 ∨ b = 0x5C ∨ b = 0x22

instance (b : Nat) : Decidable (NeedsEscape b) := inferInstanceAs (Decidable (_ ∨ _))

/-- What the loop writes for one step of Go's decoding. -/
def escapeSeg : Seg → List UInt8
  | .rune c =>
    if NeedsEscape c.toNat then appendEscaped [] (UInt8.ofNat c.toNat) else String.utf8EncodeChar c
  | .invalid _ => lit "\\ufffd"

/-- The escaping of `s`, step by step. -/
def jsonEscape (s : List UInt8) : List UInt8 := (segments s).flatMap escapeSeg

theorem appendEscaped_eq (buf : Buffer) (b : UInt8) : appendEscaped buf b = buf ++ appendEscaped [] b := by
  unfold appendEscaped
  split_ifs <;> simp

/-! ## One step of the eager escaping -/

theorem jsonEscape_nil : jsonEscape [] = [] := by
  simp [jsonEscape, segments]

theorem jsonEscape_ascii {b : UInt8} (p : List UInt8) (hb : b.toNat < 0x80) :
    jsonEscape (b :: p) =
      (if NeedsEscape b.toNat then appendEscaped [] b else [b]) ++ jsonEscape p := by
  obtain ⟨c, hc, he⟩ := encode_of_one hb
  have hp : b :: p = String.utf8EncodeChar c ++ p := by rw [he]; rfl
  rw [jsonEscape, segments_cons_rune hp, List.flatMap_cons,
    escapeSeg, hc, he, UInt8.ofNat_toNat]
  rfl

theorem jsonEscape_invalid {b : UInt8} {p : List UInt8} (h : decodeRune (b :: p) = (runeError, 1)) :
    jsonEscape (b :: p) = lit "\\ufffd" ++ jsonEscape p := by
  rw [jsonEscape, segments_cons_invalid h, List.flatMap_cons]
  rfl

/-- A multi-byte rune is copied as it stands. -/
theorem jsonEscape_rune {b : UInt8} {p : List UInt8} {c : Char} {rest : List UInt8}
    (hb : runeSelf ≤ b) (h : b :: p = String.utf8EncodeChar c ++ rest) :
    jsonEscape (b :: p) = String.utf8EncodeChar c ++ jsonEscape rest := by
  -- a rune whose encoding starts at or above `RuneSelf` is not ASCII, so needs no escape
  have hc : ¬ NeedsEscape c.toNat := by
    intro hn
    have h1 : c.toNat ≤ 0x7f := by unfold NeedsEscape at hn; omega
    rw [utf8EncodeChar_one h1, List.singleton_append, List.cons.injEq] at h
    have : b.toNat = c.toNat % 256 := by rw [h.1, UInt8.toNat_ofNat']
    simp only [runeSelf, UInt8.le_iff_toNat_le, UInt8.reduceToNat] at hb
    omega
  rw [jsonEscape, segments_cons_rune h, List.flatMap_cons, escapeSeg, if_neg hc]
  rfl

/-! ## The lazy loop is the eager escaping -/

theorem slice_self (s : List UInt8) (i : Nat) : slice s i i = [] := by
  simp [slice]

theorem slice_length (s : List UInt8) (last : Nat) : slice s last s.length = s.drop last := by
  simp [slice]

/-- Extending the uncopied run `s[last:i]` by the next `n` bytes. -/
theorem slice_add {s : List UInt8} {last i : Nat} (n : Nat) (h : last ≤ i) (hi : i ≤ s.length) :
    slice s last (i + n) = slice s last i ++ (s.drop i).take n := by
  have hl : last ≤ (s.take i).length := by rw [List.length_take]; omega
  rw [slice, slice, List.take_add, List.drop_append_of_le_length hl]

theorem needsEscape_iff (b : UInt8) : NeedsEscape b.toNat ↔ ¬ (0x20 ≤ b ∧ b ≠ 0x5C ∧ b ≠ 0x22) := by
  simp only [NeedsEscape, UInt8.le_iff_toNat_le, ne_eq, ← UInt8.toNat_inj, UInt8.reduceToNat]
  omega

theorem toNat_lt_of_not_runeSelf_le {b : UInt8} (h : ¬ runeSelf ≤ b) : b.toNat < 0x80 := by
  simp only [runeSelf, UInt8.le_iff_toNat_le, UInt8.reduceToNat] at h
  omega

/-- The loop's invariant: the buffer it returns, then the tail `s[last:]` left for the final
`appendTo`, is the buffer it started from, the uncopied run `s[last:i]` and the escaping of
`s[i:]`.  The induction is on `fuel`, which `len(s) - i` never exceeds. -/
theorem safeAppendLoop_spec (s : List UInt8) (fuel : Nat) :
    ∀ buf last i, last ≤ i → i ≤ s.length → s.length - i ≤ fuel →
      (safeAppendLoop Buffer.appendString decodeRune s fuel buf last i).1 ++
          s.drop (safeAppendLoop Buffer.appendString decodeRune s fuel buf last i).2 =
        buf ++ slice s last i ++ jsonEscape (s.drop i) := by
  induction fuel with
  | zero =>
    intro buf last i _ hi hf
    obtain rfl : i = s.length := by omega
    simp [safeAppendLoop, slice_length, jsonEscape_nil]
  | succ fuel ih =>
    intro buf last i hl hi hf
    by_cases h : i < s.length
    case neg =>
      obtain rfl : i = s.length := by omega
      simp [safeAppendLoop, slice_length, jsonEscape_nil]
    have hd : s.drop i = s[i] :: s.drop (i + 1) := List.drop_eq_getElem_cons h
    rw [safeAppendLoop, dif_pos h]
    split_ifs with hb hv hs
    · -- a valid multi-byte rune: `i` moves past it, nothing is copied yet
      have hdr : decodeRune (s[i] :: s.drop (i + 1)) =
          ((decodeRune (s.drop i)).1, (decodeRune (s.drop i)).2) := by rw [← hd]
      obtain ⟨c, rest, he, -, hn⟩ := decodeRune_valid hdr (fun ⟨h1, h2⟩ => hv.elim (· h1) (· h2))
      rw [← hd] at he
      have hlen : (s.drop i).length = c.utf8Size + rest.length := by
        rw [he, List.length_append, String.length_utf8EncodeChar]
      have hrest : s.drop (i + c.utf8Size) = rest := by
        rw [← List.drop_drop, he, ← String.length_utf8EncodeChar, List.drop_left]
      have hpos := c.utf8Size_pos
      simp only [List.length_drop] at hlen
      rw [hn, ih buf last (i + c.utf8Size) (by omega) (by omega) (by omega),
        slice_add _ hl (Nat.le_of_lt h), hrest, he, ← String.length_utf8EncodeChar, List.take_left,
        ← he, hd, jsonEscape_rune hb (hd ▸ he), List.append_assoc, List.append_assoc,
        List.append_assoc]
    · -- an invalid byte: the run is flushed and replaced by `\ufffd`
      have hdr : decodeRune (s[i] :: s.drop (i + 1)) = (runeError, 1) := by
        rw [← hd]
        simp only [ne_eq, not_or, not_not] at hv
        exact Prod.ext hv.1 hv.2
      rw [ih _ _ _ (Nat.le_refl _) h (by omega), slice_self, hd, jsonEscape_invalid hdr]
      simp
    · -- ASCII that needs no escape: `i` moves on, nothing is copied yet
      have hne : ¬ NeedsEscape s[i].toNat := fun hn => (needsEscape_iff _).mp hn hs
      have h1 : (s.drop i).take 1 = [s[i]] := by rw [hd]; rfl
      rw [ih buf last (i + 1) (by omega) h (by omega), slice_add 1 hl (Nat.le_of_lt h), h1, hd,
        jsonEscape_ascii _ (toNat_lt_of_not_runeSelf_le hb), if_neg hne]
      simp
    · -- ASCII that needs an escape: the run is flushed, then the escape written
      have hne : NeedsEscape s[i].toNat := (needsEscape_iff _).mpr hs
      rw [ih _ _ _ (Nat.le_refl _) h (by omega), slice_self, hd,
        jsonEscape_ascii _ (toNat_lt_of_not_runeSelf_le hb), if_pos hne, appendEscaped_eq]
      simp

/-- `safeAddString` appends the escaping of `s`. -/
theorem safeAddString_eq (buf : Buffer) (s : List UInt8) : safeAddString buf s = buf ++ jsonEscape s := by
  have h := safeAppendLoop_spec s s.length buf 0 0 (Nat.le_refl _) (Nat.zero_le _) (Nat.le_refl _)
  rw [slice_self, List.drop_zero] at h
  rw [List.append_nil] at h
  exact h

/-- `safeAddByteString` is `safeAddString` over the same bytes. -/
theorem safeAddByteString_eq (buf : Buffer) (s : List UInt8) :
    safeAddByteString buf s = safeAddString buf s := rfl

/-! ## What is written is a JSON string body -/

theorem hex_eq : hex = [0x30, 0x31, 0x32, 0x33, 0x34, 0x35, 0x36, 0x37, 0x38, 0x39, 0x61, 0x62,
    0x63, 0x64, 0x65, 0x66] := by decide

theorem hexDigit_hex : ∀ k < 16, Json.hexDigit (hex.getD k 0) = some k := by
  rw [hex_eq]
  decide

/-- The digits of `\u00XX` spell the byte `XX`. -/
theorem hex4_escape (b : UInt8) :
    Json.hex4 [0x30, 0x30, hex.getD (b >>> 4).toNat 0, hex.getD (b &&& 0xF).toNat 0] =
      some b.toNat := by
  have hlt := b.toNat_lt
  have h1 : (b >>> 4).toNat = b.toNat / 16 := by
    simp [UInt8.toNat_shiftRight, Nat.shiftRight_eq_div_pow]
  have h2 : (b &&& 0xF).toNat = b.toNat % 16 := by
    have := toNat_and_mod b 4
    simp only [Nat.reducePow, Nat.reduceSub] at this
    simp only [UInt8.toNat_and, UInt8.reduceToNat, this]
  have h0 : Json.hexDigit 0x30 = some 0 := by decide
  rw [h1, h2, Json.hex4, h0, hexDigit_hex _ (by omega), hexDigit_hex _ (Nat.mod_lt _ (by decide))]
  simp only [Option.bind_eq_bind, Option.pure_def, Option.bind_some, Option.some.injEq]
  omega

/-- An escape written by the `switch` stands for the character escaped. -/
theorem appendEscaped_strChar {c : Char} (hn : NeedsEscape c.toNat) :
    Json.StrChar (appendEscaped [] (UInt8.ofNat c.toNat)) c := by
  have hb : (UInt8.ofNat c.toNat).toNat = c.toNat := by
    rw [UInt8.toNat_ofNat']
    unfold NeedsEscape at hn
    omega
  generalize UInt8.ofNat c.toNat = x at hb
  -- the character is read back from the byte the branch tested
  have hc : ∀ d : Char, x.toNat = d.toNat → c = d := fun d h => Char.toNat_inj.mp (hb ▸ h)
  have hu : lit "\\u00" = [0x5C, 0x75, 0x30, 0x30] := by decide
  unfold appendEscaped
  split_ifs with h1 h2 h3 h4
  · rcases h1 with rfl | rfl
    · obtain rfl := hc '\\' rfl
      exact .reverseSolidus
    · obtain rfl := hc '"' rfl
      exact .quote
  · subst h2
    obtain rfl := hc '\n' rfl
    exact .lineFeed
  · subst h3
    obtain rfl := hc '\r' rfl
    exact .carriageReturn
  · subst h4
    obtain rfl := hc '\t' rfl
    exact .tab
  · simp only [Buffer.appendString_eq, Buffer.appendByte_eq, hu, List.nil_append, List.cons_append]
    exact .unicode (hb ▸ hex4_escape x)

theorem escapeSeg_strChar (g : Seg) : Json.StrChar (escapeSeg g) g.toChar := by
  cases g with
  | invalid b =>
    have hu : lit "\\ufffd" = 0x5C :: 0x75 :: [0x66, 0x66, 0x66, 0x64] := by decide
    rw [escapeSeg, hu, Seg.toChar]
    exact .unicode (by decide)
  | rune c =>
    rw [escapeSeg]
    split_ifs with hn
    · exact appendEscaped_strChar hn
    · -- what is not escaped is at or above U+0020 and neither quote nor backslash
      unfold NeedsEscape at hn
      exact .unescaped (by omega) (fun h => hn (by subst h; decide))
        (fun h => hn (by subst h; decide))

/-- The escaping of `s` is a string body that stands for Go's decoding of `s`. -/
theorem jsonEscape_strBody (s : List UInt8) : Json.StrBody (jsonEscape s) (runes s) :=
  Json.StrBody.flatMap _ fun g _ => escapeSeg_strChar g

/-! ## `safeAddString` is a sound and complete JSON string encoding -/

theorem safeAddString_literal (buf s : List UInt8) :
    safeAddString buf s = buf ++ jsonEscape s ∧
    safeAddByteString buf s = safeAddString buf s ∧
    Json.Literal (0x22 :: jsonEscape s ++ [0x22]) (runes s) ∧
    (∀ cs, Json.Literal (0x22 :: jsonEscape s ++ [0x22]) cs → cs = runes s) ∧
    (0x22 :: jsonEscape s ++ [0x22]).toByteArray.IsValidUTF8 ∧
    (∀ b ∈ jsonEscape s, 0x20 ≤ b.toNat) ∧
    (s.toByteArray.IsValidUTF8 → (runes s).flatMap String.utf8EncodeChar = s) := by
  have hb := jsonEscape_strBody s
  obtain ⟨hv, hge⟩ := hb.bytes
  refine ⟨safeAddString_eq buf s, safeAddByteString_eq buf s, ⟨_, rfl, hb⟩, ?_, ?_, hge, ?_⟩
  · -- the quotes delimit one body, and a body stands for one character sequence
    rintro cs ⟨body, he, hcs⟩
    obtain rfl : body = jsonEscape s := by simpa using he.symm
    exact hcs.unique hb
  · have hq : Valid [0x22] := valid_of_ascii (by simp)
    exact (hq.append (hv.append hq)).isValidUTF8
  · intro hs
    obtain ⟨cs, rfl⟩ := valid_iff_isValidUTF8.mpr hs
    rw [runes_utf8Encode]

end Zap.Zapcore
