import Zap.Go.Utf8

/-!
# Zap.Json.String — JSON string literals (RFC 8259 §7) over bytes

`StrChar p c`: the bytes `p` are one `char` of a string literal's body and stand for the
character `c` — an unescaped character (UTF-8, at least U+0020, neither `"` nor `\`), one of the
two-byte escapes, a `\uXXXX` escape of a character of the Basic Multilingual Plane, or a
`\uXXXX\uXXXX` surrogate pair.  `StrBody body cs`: the body `body` is a run of such `char`s,
standing for `cs`; `Literal bs cs`: `bs` is `"` body `"`.

* `StrBody.valid`, `StrBody.ge_space`: a body is valid UTF-8 and holds no byte below U+0020.
* `StrBody.unique`: a body stands for one character sequence, so decoding is a function.
-/

namespace Json

open Go.Utf8

/-- `HEXDIG`, in either case, and its value. -/
def hexDigit (b : UInt8) : Option Nat :=
  if 0x30 ≤ b ∧ b ≤ 0x39 then some (b.toNat - 0x30)
  else if 0x61 ≤ b ∧ b ≤ 0x66 then some (b.toNat - 0x57)
  else if 0x41 ≤ b ∧ b ≤ 0x46 then some (b.toNat - 0x37)
  else none

/-- `4HEXDIG` and the UTF-16 code unit it spells. -/
def hex4 : List UInt8 → Option Nat
  | [a, b, c, d] => do
    let a ← hexDigit a
    let b ← hexDigit b
    let c ← hexDigit c
    let d ← hexDigit d
    pure (((a * 16 + b) * 16 + c) * 16 + d)
  | _ => none

/-- One `char` of a string's body and the character it stands for. -/
inductive StrChar : List UInt8 → Char → Prop where
  /-- `unescaped = %x20-21 / %x23-5B / %x5D-10FFFF`, in UTF-8. -/
  | unescaped {c : Char} (h1 : 0x20 ≤ c.toNat) (h2 : c ≠ '"') (h3 : c ≠ '\\') :
      StrChar (String.utf8EncodeChar c) c
  | quote : StrChar [0x5C, 0x22] '"'
  | reverseSolidus : StrChar [0x5C, 0x5C] '\\'
  | solidus : StrChar [0x5C, 0x2F] '/'
  | backspace : StrChar [0x5C, 0x62] '\x08'
  | formFeed : StrChar [0x5C, 0x66] '\x0c'
  | lineFeed : StrChar [0x5C, 0x6E] '\n'
  | carriageReturn : StrChar [0x5C, 0x72] '\r'
  | tab : StrChar [0x5C, 0x74] '\t'
  /-- `\uXXXX` for a character of the Basic Multilingual Plane. -/
  | unicode {c : Char} {hs : List UInt8} (h : hex4 hs = some c.toNat) :
      StrChar (0x5C :: 0x75 :: hs) c
  /-- `\uXXXX\uXXXX`: a high and a low surrogate. -/
  | surrogatePair {c : Char} {hi lo : List UInt8} {u1 u2 : Nat} (h1 : hex4 hi = some u1)
      (h2 : hex4 lo = some u2) (r1 : 0xD800 ≤ u1 ∧ u1 ≤ 0xDBFF) (r2 : 0xDC00 ≤ u2 ∧ u2 ≤ 0xDFFF)
      (hc : c.toNat = 0x10000 + (u1 - 0xD800) * 0x400 + (u2 - 0xDC00)) :
      StrChar (0x5C :: 0x75 :: hi ++ 0x5C :: 0x75 :: lo) c

/-- `*char`: a string's body and the characters it stands for. -/
inductive StrBody : List UInt8 → List Char → Prop where
  | nil : StrBody [] []
  | cons {p q : List UInt8} {c : Char} {cs : List Char} :
      StrChar p c → StrBody q cs → StrBody (p ++ q) (c :: cs)

/-- `string = quotation-mark *char quotation-mark`, and the characters it stands for. -/
def Literal (bs : List UInt8) (cs : List Char) : Prop :=
  ∃ body, bs = 0x22 :: body ++ [0x22] ∧ StrBody body cs

theorem StrBody.append {p q : List UInt8} {cs ds : List Char} (hp : StrBody p cs)
    (hq : StrBody q ds) : StrBody (p ++ q) (cs ++ ds) := by
  induction hp with
  | nil => exact hq
  | cons hc _ ih =>
    rw [List.append_assoc]
    exact .cons hc ih

/-- A body written piece by piece, one character per piece. -/
theorem StrBody.flatMap {α : Type} {f : α → List UInt8} {g : α → Char} (l : List α)
    (h : ∀ a ∈ l, StrChar (f a) (g a)) : StrBody (l.flatMap f) (l.map g) := by
  induction l with
  | nil => exact .nil
  | cons a l ih =>
    rw [List.flatMap_cons, List.map_cons]
    exact .cons (h a (by simp)) (ih fun b hb => h b (by simp [hb]))

theorem hexDigit_bounds {b : UInt8} {v : Nat} (h : hexDigit b = some v) :
    0x30 ≤ b.toNat ∧ b.toNat < 0x80 ∧ v < 16 := by
  simp only [hexDigit, UInt8.le_iff_toNat_le, UInt8.reduceToNat] at h
  split_ifs at h <;> cases h <;> omega

/-- Four hex digits are four ASCII bytes at or above `0`, spelling a code unit. -/
theorem hex4_bounds {hs : List UInt8} {v : Nat} (h : hex4 hs = some v) :
    hs.length = 4 ∧ (∀ b ∈ hs, 0x30 ≤ b.toNat ∧ b.toNat < 0x80) ∧ v < 0x10000 := by
  match hs, h with
  | [a, b, c, d], h =>
    simp only [hex4, Option.bind_eq_bind, Option.bind_eq_some_iff, Option.pure_def,
      Option.some.injEq] at h
    obtain ⟨va, ha, vb, hb, vc, hc, vd, hd, rfl⟩ := h
    have ba := hexDigit_bounds ha
    have bb := hexDigit_bounds hb
    have bc := hexDigit_bounds hc
    have bd := hexDigit_bounds hd
    refine ⟨rfl, ?_, by omega⟩
    simp only [List.mem_cons, List.not_mem_nil, or_false]
    rintro x (rfl | rfl | rfl | rfl) <;> omega

/-- No hex digit is `"` or `\\`. -/
theorem hexDigit_special {b : UInt8} {v : Nat} (h : hexDigit b = some v) : b ≠ 0x22 ∧ b ≠ 0x5C := by
  have h22 : hexDigit 0x22 = none := by decide
  have h5c : hexDigit 0x5C = none := by decide
  constructor <;> rintro rfl <;> simp_all

theorem hex4_mem {hs : List UInt8} {v : Nat} (h : hex4 hs = some v) :
    ∀ b ∈ hs, ∃ d, hexDigit b = some d := by
  match hs, h with
  | [a, b, c, d], h =>
    simp only [hex4, Option.bind_eq_bind, Option.bind_eq_some_iff, Option.pure_def] at h
    obtain ⟨va, ha, vb, hb, vc, hc, vd, hd, -⟩ := h
    simp only [List.mem_cons, List.not_mem_nil, or_false]
    rintro x (rfl | rfl | rfl | rfl)
    exacts [⟨_, ha⟩, ⟨_, hb⟩, ⟨_, hc⟩, ⟨_, hd⟩]

/-- An ASCII byte in a character's encoding is the character itself: the bytes of a longer
encoding are all at least `0x80`. -/
theorem eq_of_mem_utf8EncodeChar {c : Char} {b : UInt8} (hb : b ∈ String.utf8EncodeChar c)
    (hlt : b.toNat < 0x80) : c.toNat = b.toNat := by
  rcases mem_utf8EncodeChar hb with ⟨-, hb⟩ | ⟨-, hb⟩ <;> omega

/-- Every byte of a `char` is valid UTF-8 and none is below U+0020. -/
theorem StrChar.bytes {p : List UInt8} {c : Char} (h : StrChar p c) :
    Go.Utf8.Valid p ∧ ∀ b ∈ p, 0x20 ≤ b.toNat := by
  cases h with
  | unescaped h1 _ _ => exact ⟨valid_utf8EncodeChar c, utf8EncodeChar_ge h1⟩
  | unicode h =>
    have hb := (hex4_bounds h).2.1
    refine ⟨valid_of_ascii ?_, ?_⟩ <;>
    · simp only [List.mem_cons]
      rintro b (rfl | rfl | hm)
      all_goals first | decide | have := hb b hm; omega
  | surrogatePair h1 h2 _ _ _ =>
    have hb1 := (hex4_bounds h1).2.1
    have hb2 := (hex4_bounds h2).2.1
    refine ⟨valid_of_ascii ?_, ?_⟩ <;>
    · simp only [List.mem_cons, List.mem_append]
      rintro b ((rfl | rfl | hm) | rfl | rfl | hm)
      all_goals first | decide | have := hb1 b hm; omega | have := hb2 b hm; omega
  | _ => exact ⟨valid_of_ascii (by simp), by simp⟩

theorem StrBody.bytes {body : List UInt8} {cs : List Char} (h : StrBody body cs) :
    Go.Utf8.Valid body ∧ ∀ b ∈ body, 0x20 ≤ b.toNat := by
  induction h with
  | nil => exact ⟨valid_nil, by simp⟩
  | cons hc _ ih =>
    obtain ⟨v1, g1⟩ := hc.bytes
    refine ⟨v1.append ih.1, ?_⟩
    intro b hb
    rcases List.mem_append.mp hb with hb | hb
    exacts [g1 b hb, ih.2 b hb]

/-! ## A body stands for one character sequence -/

/-- No character but `b` itself is encoded starting with the ASCII byte `b`. -/
theorem utf8EncodeChar_append_ne_ascii {c : Char} {b : UInt8} (hb : b.toNat < 0x80)
    (hc : c.toNat ≠ b.toNat) (q r : List UInt8) : String.utf8EncodeChar c ++ q ≠ b :: r := by
  intro e
  have hd := decodeRune_utf8EncodeChar c q
  rw [e, decodeRune_one _ hb, Prod.mk.injEq] at hd
  exact hc hd.1.symm

/-- No unescaped character starts with `\\`. -/
theorem utf8EncodeChar_append_ne_backslash {c : Char} (h3 : c ≠ '\\') (q r : List UInt8) :
    String.utf8EncodeChar c ++ q ≠ 0x5C :: r :=
  utf8EncodeChar_append_ne_ascii (by decide) (fun h => h3 (Char.toNat_inj.mp h)) q r

/-- A `\\uXXXX` escape never spells a high surrogate, which no character is. -/
theorem hex4_ne_surrogate {hs : List UInt8} {c : Char} {u : Nat} (hx : hex4 hs = some c.toNat)
    (hu : hex4 hs = some u) (r : 0xD800 ≤ u ∧ u ≤ 0xDBFF) : False := by
  rw [hx, Option.some.injEq] at hu
  have := toNat_valid c
  omega

/-- Four hex digits at the front of the same bytes are the same four. -/
theorem hex4_prefix {hs hs' q q' : List UInt8} {v v' : Nat} (hx : hex4 hs = some v)
    (hx' : hex4 hs' = some v') (e : hs ++ q = hs' ++ q') : hs = hs' ∧ q = q' :=
  List.append_inj e (by rw [(hex4_bounds hx).1, (hex4_bounds hx').1])

/-- Two `char`s at the front of the same bytes are the same `char`. -/
theorem StrChar.unique {p p' q q' : List UInt8} {c c' : Char} (h : StrChar p c)
    (h' : StrChar p' c') (e : p ++ q = p' ++ q') : p = p' ∧ c = c' := by
  cases h with
  | unescaped h1 h2 h3 =>
    cases h' with
    | unescaped =>
      -- both are UTF-8 encodings: `decodeRune` reads the same rune off both
      have hd := decodeRune_utf8EncodeChar c q
      rw [e, decodeRune_utf8EncodeChar, Prod.mk.injEq] at hd
      obtain rfl := Char.toNat_inj.mp hd.1
      exact ⟨rfl, rfl⟩
    | _ => exact absurd e (utf8EncodeChar_append_ne_backslash h3 _ _)
  | unicode hx =>
    cases h' with
    | unescaped _ _ h3' => exact absurd e.symm (utf8EncodeChar_append_ne_backslash h3' _ _)
    | unicode hx' =>
      simp only [List.cons_append, List.cons.injEq, true_and] at e
      obtain ⟨rfl, -⟩ := hex4_prefix hx hx' e
      rw [hx, Option.some.injEq] at hx'
      exact ⟨rfl, Char.toNat_inj.mp hx'⟩
    | surrogatePair h1 _ r1 _ _ =>
      simp only [List.cons_append, List.append_assoc, List.cons.injEq, true_and] at e
      obtain ⟨rfl, -⟩ := hex4_prefix hx h1 e
      exact (hex4_ne_surrogate hx h1 r1).elim
    | _ => simp at e
  | surrogatePair h1 h2 r1 r2 hc =>
    cases h' with
    | unescaped _ _ h3' => exact absurd e.symm (utf8EncodeChar_append_ne_backslash h3' _ _)
    | unicode hx' =>
      simp only [List.cons_append, List.append_assoc, List.cons.injEq, true_and] at e
      obtain ⟨rfl, -⟩ := hex4_prefix h1 hx' e
      exact (hex4_ne_surrogate hx' h1 r1).elim
    | surrogatePair h1' h2' _ _ hc' =>
      simp only [List.cons_append, List.append_assoc, List.cons.injEq, true_and] at e
      obtain ⟨rfl, e⟩ := hex4_prefix h1 h1' e
      obtain ⟨rfl, -⟩ := hex4_prefix h2 h2' (by simpa using e)
      rw [h1, Option.some.injEq] at h1'
      rw [h2, Option.some.injEq] at h2'
      subst h1' h2'
      exact ⟨rfl, Char.toNat_inj.mp (hc.trans hc'.symm)⟩
    | _ => simp at e
  | _ =>
    cases h' with
    | unescaped _ _ h3' => exact absurd e.symm (utf8EncodeChar_append_ne_backslash h3' _ _)
    | _ => simp at e ⊢

theorem StrChar.ne_nil {p : List UInt8} {c : Char} (h : StrChar p c) : p ≠ [] := by
  cases h <;> simp [String.utf8EncodeChar_ne_nil]

/-- **A body stands for one character sequence.** -/
theorem StrBody.unique {body : List UInt8} {cs cs' : List Char} (h : StrBody body cs)
    (h' : StrBody body cs') : cs = cs' := by
  induction h generalizing cs' with
  | nil =>
    generalize hb : ([] : List UInt8) = b at h'
    cases h' with
    | nil => rfl
    | cons hc _ => exact absurd (List.append_eq_nil_iff.mp hb.symm).1 hc.ne_nil
  | @cons p q c cs hc _ ih =>
    generalize hb : p ++ q = b at h'
    cases h' with
    | nil => exact absurd (List.append_eq_nil_iff.mp hb).1 hc.ne_nil
    | cons hc' hq' =>
      obtain ⟨rfl, rfl⟩ := hc.unique hc' hb
      rw [ih (List.append_cancel_left hb ▸ hq')]

/-! ## Decoding a body -/

/-- The character a two-byte escape `\x` stands for. -/
def escapeChar (e : UInt8) : Option Char :=
  if e = 0x22 then some '"' else if e = 0x5C then some '\\' else if e = 0x2F then some '/'
  else if e = 0x62 then some '\x08' else if e = 0x66 then some '\x0c'
  else if e = 0x6E then some '\n' else if e = 0x72 then some '\r'
  else if e = 0x74 then some '\t' else none

/-- The rest of a `\u` escape: four digits, and after a high surrogate `\u` and a low one. -/
def decodeUnicode (rest : List UInt8) : Option (Char × List UInt8) := do
  let u ← hex4 (rest.take 4)
  let rest := rest.drop 4
  if 0xD800 ≤ u ∧ u ≤ 0xDBFF then
    if rest.take 2 = [0x5C, 0x75] then
      let u2 ← hex4 ((rest.drop 2).take 4)
      if 0xDC00 ≤ u2 ∧ u2 ≤ 0xDFFF then
        pure (Char.ofNat (0x10000 + (u - 0xD800) * 0x400 + (u2 - 0xDC00)), (rest.drop 2).drop 4)
      else none
    else none
  else if 0xDC00 ≤ u ∧ u ≤ 0xDFFF then none
  else pure (Char.ofNat u, rest)

/-- What follows a `\`. -/
def decodeEscape : List UInt8 → Option (Char × List UInt8)
  | [] => none
  | e :: rest => if e = 0x75 then decodeUnicode rest else (escapeChar e).map (·, rest)

/-- One `char` off the front of a body, and the bytes after it. -/
def decodeChar : List UInt8 → Option (Char × List UInt8)
  | [] => none
  | b :: rest =>
    if b = 0x5C then decodeEscape rest
    else if b < 0x20 ∨ b = 0x22 then none
    else
      let d := decodeRune (b :: rest)
      if d.1 = runeError ∧ d.2 = 1 then none else some (Char.ofNat d.1, (b :: rest).drop d.2)

/-- The characters of a body, one `char` per unit of fuel. -/
def decodeChars : Nat → List UInt8 → Option (List Char)
  | _, [] => some []
  | 0, _ :: _ => none
  | n + 1, b :: bs => do
    let (c, rest) ← decodeChar (b :: bs)
    let cs ← decodeChars n rest
    pure (c :: cs)

/-- The characters a string's body stands for; each `char` takes at least one byte. -/
def decodeBody (body : List UInt8) : Option (List Char) := decodeChars body.length body

/-- An encoding is never `(RuneError, 1)`: a one-byte encoding is ASCII. -/
theorem not_runeError_one (c : Char) : ¬ (c.toNat = runeError ∧ c.utf8Size = 1) := by
  rintro ⟨h1, h2⟩
  have := Char.utf8Size_eq_one_iff.mp h2
  simp [runeError, UInt32.le_iff_toNat_le] at this h1
  omega

theorem decodeChar_unescaped {c : Char} (h1 : 0x20 ≤ c.toNat) (h2 : c ≠ '"') (h3 : c ≠ '\\')
    (q : List UInt8) : decodeChar (String.utf8EncodeChar c ++ q) = some (c, q) := by
  obtain ⟨b, r, he⟩ : ∃ b r, String.utf8EncodeChar c ++ q = b :: r := by
    cases h : String.utf8EncodeChar c with
    | nil => exact absurd h String.utf8EncodeChar_ne_nil
    | cons b p => exact ⟨b, p ++ q, rfl⟩
  -- the first byte is neither a backslash, a quote nor a control byte
  have hbs : b ≠ 0x5C := by
    rintro rfl
    exact utf8EncodeChar_append_ne_backslash h3 q r he
  have hq : b ≠ 0x22 := by
    rintro rfl
    exact utf8EncodeChar_append_ne_ascii (by decide) (fun h => h2 (Char.toNat_inj.mp h)) q r he
  have hge : ¬ b < 0x20 := by
    have hmem : b ∈ String.utf8EncodeChar c := by
      cases h : String.utf8EncodeChar c with
      | nil => exact absurd h String.utf8EncodeChar_ne_nil
      | cons b' p => rw [h, List.cons_append, List.cons.injEq] at he; simp [he.1]
    have := utf8EncodeChar_ge h1 b hmem
    rw [UInt8.lt_iff_toNat_lt]
    simpa using this
  have hd := decodeRune_utf8EncodeChar c q
  rw [he] at hd
  rw [he, decodeChar, if_neg hbs, if_neg (by simp [hge, hq]), hd, if_neg (not_runeError_one c),
    ← he, List.drop_left' (String.length_utf8EncodeChar c), Char.ofNat_toNat]

theorem decodeUnicode_bmp {c : Char} {hs : List UInt8} (h : hex4 hs = some c.toNat)
    (q : List UInt8) : decodeUnicode (hs ++ q) = some (c, q) := by
  have hl := (hex4_bounds h).1
  have hv := toNat_valid c
  simp only [decodeUnicode, List.take_left' hl, List.drop_left' hl, h, Option.bind_eq_bind,
    Option.bind_some, Option.pure_def]
  rw [if_neg (by omega), if_neg (by omega), Char.ofNat_toNat]

theorem decodeUnicode_pair {c : Char} {hi lo : List UInt8} {u1 u2 : Nat} (h1 : hex4 hi = some u1)
    (h2 : hex4 lo = some u2) (r1 : 0xD800 ≤ u1 ∧ u1 ≤ 0xDBFF) (r2 : 0xDC00 ≤ u2 ∧ u2 ≤ 0xDFFF)
    (hc : c.toNat = 0x10000 + (u1 - 0xD800) * 0x400 + (u2 - 0xDC00)) (q : List UInt8) :
    decodeUnicode (hi ++ 0x5C :: 0x75 :: lo ++ q) = some (c, q) := by
  have l1 := (hex4_bounds h1).1
  have l2 := (hex4_bounds h2).1
  simp only [decodeUnicode, List.append_assoc, List.cons_append, List.take_left' l1,
    List.drop_left' l1, h1, Option.bind_eq_bind, Option.bind_some, Option.pure_def]
  rw [if_pos r1, if_pos (show (0x5C :: 0x75 :: (lo ++ q)).take 2 = [0x5C, 0x75] from rfl)]
  simp only [List.drop_succ_cons, List.drop_zero, List.take_left' l2, List.drop_left' l2, h2,
    Option.bind_some]
  rw [if_pos r2, ← hc, Char.ofNat_toNat]

/-- **`decodeChar` reads a `char` back**, whatever follows it. -/
theorem decodeChar_strChar {p : List UInt8} {c : Char} (h : StrChar p c) (q : List UInt8) :
    decodeChar (p ++ q) = some (c, q) := by
  cases h with
  | unescaped h1 h2 h3 => exact decodeChar_unescaped h1 h2 h3 q
  | unicode hx => simpa [decodeChar, decodeEscape] using decodeUnicode_bmp hx q
  | surrogatePair h1 h2 r1 r2 hc =>
    simpa [decodeChar, decodeEscape] using decodeUnicode_pair h1 h2 r1 r2 hc q
  | _ => simp [decodeChar, decodeEscape, escapeChar]

theorem StrBody.length_le {body : List UInt8} {cs : List Char} (h : StrBody body cs) :
    cs.length ≤ body.length := by
  induction h with
  | nil => exact Nat.le_refl 0
  | cons hc _ ih =>
    have := List.length_pos_of_ne_nil hc.ne_nil
    simp only [List.length_cons, List.length_append]
    omega

theorem decodeChars_strBody {body : List UInt8} {cs : List Char} (h : StrBody body cs) :
    ∀ n, cs.length ≤ n → decodeChars n body = some cs := by
  induction h with
  | nil => intro n _; cases n <;> rfl
  | @cons p q c cs hc _ ih =>
    intro n hn
    obtain ⟨n, rfl⟩ : ∃ m, n = m + 1 := ⟨n - 1, by simp at hn; omega⟩
    obtain ⟨b, bs, hbs⟩ : ∃ b bs, p ++ q = b :: bs := by
      cases h : p ++ q with
      | nil => exact absurd (List.append_eq_nil_iff.mp h).1 hc.ne_nil
      | cons b bs => exact ⟨b, bs, rfl⟩
    have hn' : cs.length ≤ n := by simpa using hn
    rw [hbs, decodeChars, ← hbs, decodeChar_strChar hc]
    simp [ih n hn']

/-- **A body decodes to the characters it stands for.** -/
theorem decodeBody_strBody {body : List UInt8} {cs : List Char} (h : StrBody body cs) :
    decodeBody body = some cs :=
  decodeChars_strBody h _ h.length_le

end Json
