import Mathlib.Data.List.TakeDrop
import Mathlib.Data.List.TakeWhile
import Zap.Json.Value
import Zap.Go.Strconv

/-!
# Zap.Json.Scalar — bare tokens: numbers and the literal names (RFC 8259 §3, §6)

A value that is neither a string nor a container is a run of bytes up to the next delimiter:
`true`, `false`, `null` or a number `[ minus ] int [ frac ] [ exp ]`, whose value is exact.

* `scalar`: the value of a bare token.
* `scalar_formatInt`, `scalar_formatUint`, `scalar_formatBool`: what `strconv` writes reads back
  as the number or the boolean it was written from, and holds no delimiter.
-/

namespace Json

open Go.Utf8 Go.Strconv

/-- `ws`: space, horizontal tab, line feed, carriage return. -/
def isWs (b : UInt8) : Bool := b == 0x20 || b == 0x09 || b == 0x0A || b == 0x0D

/-- The bytes that end a bare token: whitespace, the structural characters and `"`. -/
def isDelim (b : UInt8) : Bool :=
  isWs b || b == 0x7B || b == 0x7D || b == 0x5B || b == 0x5D || b == 0x2C || b == 0x3A || b == 0x22

theorem isWs_of_isDelim {b : UInt8} (h : isDelim b = false) : isWs b = false := by
  simp only [isDelim, Bool.or_eq_false_iff] at h
  exact h.1.1.1.1.1.1.1

/-- `DIGIT` -/
def isDigit (b : UInt8) : Bool := 0x30 ≤ b && b ≤ 0x39

/-- The value of a run of decimal digits, most significant first. -/
def digitsValue (ds : List UInt8) : Nat := ds.foldl (fun n d => 10 * n + (d.toNat - 0x30)) 0

/-- `[ minus ]` -/
def splitSign : List UInt8 → Bool × List UInt8
  | [] => (false, [])
  | b :: r => if b = 0x2D then (true, r) else (false, b :: r)

/-- `[ frac ]`: its digits, and what follows. -/
def fracPart : List UInt8 → Option (List UInt8 × List UInt8)
  | [] => some ([], [])
  | b :: r =>
    if b = 0x2E then
      let (fs, rest) := r.span isDigit
      if fs = [] then none else some (fs, rest)
    else some ([], b :: r)

/-- `[ exp ]`, which ends the token: its value. -/
def expPart : List UInt8 → Option Int
  | [] => some 0
  | b :: r =>
    if b = 0x65 ∨ b = 0x45 then
      let (neg, ds) := match r with
        | s :: ds => if s = 0x2D then (true, ds) else if s = 0x2B then (false, ds) else (false, s :: ds)
        | [] => (false, [])
      if ds ≠ [] ∧ ds.all isDigit then
        some (if neg then -(digitsValue ds : Int) else digitsValue ds)
      else none
    else none

/-- `number = [ minus ] int [ frac ] [ exp ]`; `int` is `0` or has no leading zero. -/
def parseNumber (tok : List UInt8) : Option ℚ :=
  let (neg, rest) := splitSign tok
  let (ds, rest) := rest.span isDigit
  if ds = [] ∨ (ds.head? = some 0x30 ∧ 1 < ds.length) then none
  else do
    let (fs, rest) ← fracPart rest
    let e ← expPart rest
    let q : ℚ := (digitsValue (ds ++ fs) : ℚ) * (10 : ℚ) ^ (e - fs.length)
    pure (if neg then -q else q)

/-- The value of a bare token. -/
def scalar (tok : List UInt8) : Option Value :=
  if tok = lit "true" then some (.bool true)
  else if tok = lit "false" then some (.bool false)
  else if tok = lit "null" then some .null
  else (parseNumber tok).map .number

/-! ## What `strconv` writes -/

theorem isDelim_of_ascii_letter_or_digit {b : UInt8}
    (h : (0x30 ≤ b.toNat ∧ b.toNat ≤ 0x39) ∨ b = 0x2D ∨ (0x61 ≤ b.toNat ∧ b.toNat ≤ 0x7A)) :
    isDelim b = false := by
  simp only [isDelim, isWs, Bool.or_eq_false_iff, beq_eq_false_iff_ne, ne_eq, ← UInt8.toNat_inj,
    UInt8.reduceToNat]
  rcases h with h | rfl | h
  · omega
  · decide
  · omega

/-- A decimal digit of a number is an ASCII digit. -/
theorem digit_bounds {n : Nat} {c : Char} (hc : c ∈ Nat.toDigits 10 n) :
    48 ≤ c.toNat ∧ c.toNat ≤ 57 := by
  have hd := Nat.isDigit_of_mem_toDigits (by decide) (by decide) hc
  simp only [Char.isDigit, Bool.and_eq_true, decide_eq_true_eq, ge_iff_le,
    UInt32.le_iff_toNat_le] at hd
  exact hd

/-- Characters each encoded as one byte. -/
theorem flatMap_utf8EncodeChar_eq_map {l : List Char} {f : Char → UInt8}
    (h : ∀ c ∈ l, String.utf8EncodeChar c = [f c]) : l.flatMap String.utf8EncodeChar = l.map f := by
  induction l with
  | nil => rfl
  | cons c l ih =>
    rw [List.flatMap_cons, List.map_cons, h c List.mem_cons_self,
      ih fun d hd => h d (List.mem_cons_of_mem c hd)]
    rfl

/-- The decimal digits of `n`, one ASCII byte each. -/
theorem formatUint_eq_map (n : Nat) :
    formatUint n = (Nat.toDigits 10 n).map fun c => UInt8.ofNat c.toNat :=
  flatMap_utf8EncodeChar_eq_map fun c hc =>
    utf8EncodeChar_one (by have := digit_bounds hc; omega)

theorem digit_of_mem_formatUint {n : Nat} {b : UInt8} (hb : b ∈ formatUint n) :
    0x30 ≤ b.toNat ∧ b.toNat ≤ 0x39 := by
  rw [formatUint_eq_map, List.mem_map] at hb
  obtain ⟨c, hc, rfl⟩ := hb
  have hd := digit_bounds hc
  simp only [UInt8.toNat_ofNat', Nat.reducePow]
  omega

theorem digitsValue_formatUint (n : Nat) : digitsValue (formatUint n) = n := by
  rw [formatUint_eq_map, digitsValue, List.foldl_map]
  conv => rhs; rw [← Nat.ofDigitChars_ten_toDigits (n := n), Nat.ofDigitChars_eq_foldl]
  apply List.foldl_ext
  intro a c hc
  have hd := digit_bounds hc
  simp only [UInt8.toNat_ofNat', Nat.reducePow]
  rw [Nat.mod_eq_of_lt (by omega)]
  rfl

/-- The leading digit of a positive number is not `0`. -/
theorem toDigits_head_ne_zero : ∀ n, 0 < n → (Nat.toDigits 10 n).head? ≠ some '0' := by
  intro n
  induction n using Nat.strongRecOn with
  | ind n ih =>
    intro hn
    by_cases h : n < 10
    · rw [Nat.toDigits_of_lt_base h]
      simp only [List.head?_cons, ne_eq, Option.some.injEq, Nat.digitChar_eq_zero]
      omega
    · rw [Nat.toDigits_of_base_le (by decide) (by omega), List.head?_append]
      have hne := ih (n / 10) (by omega) (by omega)
      cases hx : (Nat.toDigits 10 (n / 10)).head? with
      | none => exact absurd (List.head?_eq_none_iff.mp hx) Nat.toDigits_ne_nil
      | some c => rw [hx] at hne; simpa using hne

theorem formatUint_ne_nil (n : Nat) : formatUint n ≠ [] := by
  rw [formatUint_eq_map, ne_eq, List.map_eq_nil_iff]
  exact Nat.toDigits_ne_nil

/-- `formatUint n` is an `int`: no leading zero unless it is `0`. -/
theorem formatUint_int (n : Nat) :
    ¬ (formatUint n = [] ∨ ((formatUint n).head? = some 0x30 ∧ 1 < (formatUint n).length)) := by
  rintro (h | ⟨hh, hl⟩)
  · exact formatUint_ne_nil n h
  · rcases Nat.eq_zero_or_pos n with rfl | hn
    · simp [formatUint, Nat.toDigits_zero] at hl
      exact absurd hl (by decide)
    · rw [formatUint_eq_map, List.head?_map] at hh
      cases hx : (Nat.toDigits 10 n).head? with
      | none => rw [hx] at hh; simp at hh
      | some c =>
        rw [hx, Option.map_some, Option.some.injEq] at hh
        have hd := digit_bounds (List.mem_of_head? hx)
        have hc : c = '0' := by
          apply Char.toNat_inj.mp
          have := congrArg UInt8.toNat hh
          simp only [UInt8.toNat_ofNat', UInt8.reduceToNat, Nat.reducePow] at this
          rw [Nat.mod_eq_of_lt (by omega)] at this
          exact this
        exact toDigits_head_ne_zero n hn (by rw [hx, hc])

theorem span_isDigit_formatUint (n : Nat) : (formatUint n).span isDigit = (formatUint n, []) := by
  rw [List.span_eq_takeWhile_dropWhile, List.takeWhile_eq_self_iff.mpr, List.dropWhile_eq_nil_iff.mpr]
  all_goals
    intro b hb
    have := digit_of_mem_formatUint hb
    simp only [isDigit, Bool.and_eq_true, decide_eq_true_eq, UInt8.le_iff_toNat_le, UInt8.reduceToNat]
    omega

/-- A sign, then the digits of `n`. -/
theorem parseNumber_of_splitSign {tok : List UInt8} {neg : Bool} {n : Nat}
    (h : splitSign tok = (neg, formatUint n)) :
    parseNumber tok = some (if neg then -(n : ℚ) else n) := by
  simp only [parseNumber, h, span_isDigit_formatUint]
  rw [if_neg (formatUint_int n)]
  simp [fracPart, expPart, digitsValue_formatUint]

theorem parseNumber_formatUint (n : Nat) : parseNumber (formatUint n) = some (n : ℚ) := by
  have hs : splitSign (formatUint n) = (false, formatUint n) := by
    cases h : formatUint n with
    | nil => exact absurd h (formatUint_ne_nil n)
    | cons b r =>
      have hb := digit_of_mem_formatUint (h ▸ List.mem_cons_self : b ∈ formatUint n)
      have hb' : b ≠ 0x2D := by intro e; subst e; simp at hb
      simp [splitSign, hb']
  simpa using parseNumber_of_splitSign hs

theorem parseNumber_formatInt (i : Int) : parseNumber (formatInt i) = some (i : ℚ) := by
  unfold formatInt
  split_ifs with h
  · rw [parseNumber_of_splitSign (show splitSign (0x2D :: formatUint i.natAbs) =
      (true, formatUint i.natAbs) from rfl)]
    have hi : ((i.natAbs : ℤ) : ℚ) = -(i : ℚ) := by
      rw [show (i.natAbs : ℤ) = -i by omega, Rat.intCast_neg]
    simp only [if_true, Option.some.injEq]
    rw [← Rat.intCast_natCast, hi, neg_neg]
  · rw [parseNumber_formatUint, ← Rat.intCast_natCast, Int.toNat_of_nonneg (by omega)]

theorem formatInt_ne_nil (i : Int) : formatInt i ≠ [] := by
  unfold formatInt
  split_ifs
  · exact List.cons_ne_nil _ _
  · exact formatUint_ne_nil _

theorem noDelim_formatUint (n : Nat) : ∀ b ∈ formatUint n, isDelim b = false :=
  fun _ hb => isDelim_of_ascii_letter_or_digit (.inl (digit_of_mem_formatUint hb))

theorem noDelim_formatInt (i : Int) : ∀ b ∈ formatInt i, isDelim b = false := by
  unfold formatInt
  split_ifs
  · rintro b (_ | ⟨_, hb⟩)
    · decide
    · exact noDelim_formatUint _ b hb
  · exact noDelim_formatUint _

theorem noDelim_formatBool (v : Bool) : ∀ b ∈ formatBool v, isDelim b = false := by
  -- checked as one `Bool` computation, not a quantifier over the bytes
  have h : (formatBool v).all (fun b => !isDelim b) = true := by cases v <;> decide
  simpa using List.all_eq_true.mp h

/-- A token that starts below `a` is no literal name. -/
theorem ne_keyword_of_head {b : UInt8} (r : List UInt8) (hb : b.toNat < 0x61) :
    b :: r ≠ lit "true" ∧ b :: r ≠ lit "false" ∧ b :: r ≠ lit "null" := by
  have ht : lit "true" = [0x74, 0x72, 0x75, 0x65] := by decide
  have hf : lit "false" = [0x66, 0x61, 0x6C, 0x73, 0x65] := by decide
  have hn : lit "null" = [0x6E, 0x75, 0x6C, 0x6C] := by decide
  simp only [ht, hf, hn, ne_eq, List.cons.injEq, ← UInt8.toNat_inj, UInt8.reduceToNat]
  omega

theorem formatUint_not_keyword (n : Nat) :
    formatUint n ≠ lit "true" ∧ formatUint n ≠ lit "false" ∧ formatUint n ≠ lit "null" := by
  cases h : formatUint n with
  | nil => exact absurd h (formatUint_ne_nil n)
  | cons b r =>
    -- a number starts with a digit
    have hb := digit_of_mem_formatUint (h ▸ List.mem_cons_self : b ∈ formatUint n)
    exact ne_keyword_of_head r (by omega)

theorem scalar_formatInt (i : Int) : scalar (formatInt i) = some (.number i) := by
  have hk : formatInt i ≠ lit "true" ∧ formatInt i ≠ lit "false" ∧ formatInt i ≠ lit "null" := by
    unfold formatInt
    split_ifs
    · exact ne_keyword_of_head _ (by decide)
    · exact formatUint_not_keyword _
  rw [scalar, if_neg hk.1, if_neg hk.2.1, if_neg hk.2.2, parseNumber_formatInt]
  rfl

theorem scalar_formatUint (n : Nat) : scalar (formatUint n) = some (.number n) := by
  have hk := formatUint_not_keyword n
  rw [scalar, if_neg hk.1, if_neg hk.2.1, if_neg hk.2.2, parseNumber_formatUint]
  rfl

theorem scalar_formatBool (v : Bool) : scalar (formatBool v) = some (.bool v) := by
  cases v <;> rfl

end Json
