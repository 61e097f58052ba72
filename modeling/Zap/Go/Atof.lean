import Zap.Go.Utf8

/-!
# Zap.Go.Atof — `strconv.ParseComplex` and the float prefix it reads

`ParseComplex` reads a real part with `parseFloatPrefix`, then a sign or an `i`, then an
imaginary part, and wants exactly `i` after it.  Which prefix `parseFloatPrefix` takes is
decided by `special` (the names `inf`, `infinity`, `nan`, with a sign for the infinities) and by
the scanner of `readFloat` (sign, base prefix, digits with `_` and `.`, exponent); those are
modelled as the library has them.  The value of an accepted decimal or hexadecimal literal is an
input (`conv`): its float64 bits at the bit size, and whether it overflowed.

* `readFloat_digits`: a run of decimal digits followed by a byte that continues no literal is
  read whole.
* `parseComplex_digits_nan`, `parseComplex_digits_plusPlus`: a real part of digits followed by
  `NaN` or by `++` is a syntax error.
-/

namespace Go.Strconv

open Go.Utf8 (lit)

/-- `lower(c)`: `c | ('x' - 'X')`. -/
def lower (c : UInt8) : UInt8 := c ||| 0x20

/-- `'0' <= c && c <= '9'` -/
def isDecDigit (c : UInt8) : Bool := 0x30 ≤ c && c ≤ 0x39

/-- `c` with `'A'..'Z'` made lower case, as `commonPrefixLenIgnoreCase` does. -/
def toLowerAscii (c : UInt8) : UInt8 := if 0x41 ≤ c ∧ c ≤ 0x5A then c + 0x20 else c

/-- `commonPrefixLenIgnoreCase(s, prefix)` for a lower-case `prefix`. -/
def commonPrefixLenIgnoreCase : List UInt8 → List UInt8 → Nat
  | c :: s, p :: ps => if toLowerAscii c = p then commonPrefixLenIgnoreCase s ps + 1 else 0
  | _, _ => 0

/-- The bits of `math.Inf(1)`, `math.Inf(-1)` and `math.NaN()`. -/
def posInfBits : UInt64 := 0x7FF0000000000000
def negInfBits : UInt64 := 0xFFF0000000000000
def nanBits : UInt64 := 0x7FF8000000000001

/-- `special(s)`: an infinity or NaN name at the start of `s`, and its length. -/
def special (s : List UInt8) : Option (UInt64 × Nat) :=
  let inf (sign : Bool) (nsign : Nat) (s : List UInt8) : Option (UInt64 × Nat) :=
    let n := commonPrefixLenIgnoreCase s (lit "infinity")
    -- anything longer than "inf" is ok, but without "infinity" only "inf" is consumed
    let n := if 3 < n ∧ n < 8 then 3 else n
    if n = 3 ∨ n = 8 then some (if sign then negInfBits else posInfBits, nsign + n) else none
  match s with
  | [] => none
  | c :: rest =>
    if c = 0x2B ∨ c = 0x2D then inf (c = 0x2D) 1 rest
    else if c = 0x69 ∨ c = 0x49 then inf false 0 s
    else if c = 0x6E ∨ c = 0x4E then
      if commonPrefixLenIgnoreCase s (lit "nan") = 3 then some (nanBits, 3) else none
    else none

/-- The class of the last byte `underscoreOK` saw: start, digit (or base prefix), underscore,
anything else. -/
inductive Saw where
  | start | digit | underscore | other
  deriving DecidableEq

/-- The loop of `underscoreOK`. -/
def underscoreLoop (hex : Bool) : List UInt8 → Saw → Bool
  | [], saw => saw ≠ .underscore
  | c :: cs, saw =>
    if isDecDigit c || (hex && 0x61 ≤ lower c && lower c ≤ 0x66) then underscoreLoop hex cs .digit
    else if c = 0x5F then
      if saw ≠ .digit then false else underscoreLoop hex cs .underscore
    else if saw = .underscore then false
    else underscoreLoop hex cs .other

/-- `underscoreOK(s)`: every `_` stands between digits. -/
def underscoreOK (s : List UInt8) : Bool :=
  let s := match s with
    | c :: r => if c = 0x2D ∨ c = 0x2B then r else c :: r
    | [] => []
  match s with
  | c₀ :: c₁ :: r =>
    if c₀ = 0x30 ∧ (lower c₁ = 0x62 ∨ lower c₁ = 0x6F ∨ lower c₁ = 0x78) then
      underscoreLoop (lower c₁ = 0x78) r .digit
    else underscoreLoop false s .start
  | _ => underscoreLoop false s .start

/-- The mantissa loop of `readFloat` over `s[i:]`: where it stops, whether it saw a digit, and
whether it saw an underscore. -/
def readMantissa (hex : Bool) : List UInt8 → Bool → Bool → Bool → Nat → Nat × Bool × Bool
  | [], _, sawdigits, underscores, i => (i, sawdigits, underscores)
  | c :: cs, sawdot, sawdigits, underscores, i =>
    if c = 0x5F then readMantissa hex cs sawdot sawdigits true (i + 1)
    else if c = 0x2E then
      if sawdot then (i, sawdigits, underscores) else readMantissa hex cs true sawdigits underscores (i + 1)
    else if isDecDigit c then readMantissa hex cs sawdot true underscores (i + 1)
    else if hex && 0x61 ≤ lower c && lower c ≤ 0x66 then readMantissa hex cs sawdot true underscores (i + 1)
    else (i, sawdigits, underscores)

/-- The exponent digits of `readFloat` over `s[i:]`: where they stop, and whether an underscore
was among them. -/
def readExpDigits : List UInt8 → Nat → Bool → Nat × Bool
  | [], i, underscores => (i, underscores)
  | c :: cs, i, underscores =>
    if isDecDigit c then readExpDigits cs (i + 1) underscores
    else if c = 0x5F then readExpDigits cs (i + 1) true
    else (i, underscores)

/-- The length of the optional sign at the start of `s`. -/
def signLen (s : List UInt8) : Nat :=
  if s.head? = some 0x2B ∨ s.head? = some 0x2D then 1 else 0

/-- The base prefix test of `readFloat` at `i`: `0x` or `0X`, with a byte after it. -/
def hexPrefixAt (s : List UInt8) (i : Nat) : Bool :=
  decide (i + 2 < s.length) && s.getD i 0 == 0x30 && lower (s.getD (i + 1) 0) == 0x78

/-- `readFloat` after the mantissa, from `s[i]`: the optional exponent (`e`, or `p` in base 16,
with a sign and at least one digit), then the underscore check of the whole literal. -/
def readExponent (s : List UInt8) (hex : Bool) (i : Nat) (underscores : Bool) : Nat × Bool :=
  if i < s.length ∧ lower (s.getD i 0) = (if hex then 0x70 else 0x65) then
    let i := i + 1
    if s.length ≤ i then (i, false) else
    let i := if s.getD i 0 = 0x2B ∨ s.getD i 0 = 0x2D then i + 1 else i
    if s.length ≤ i ∨ isDecDigit (s.getD i 0) = false then (i, false) else
    match readExpDigits (s.drop i) i underscores with
    | (i, underscores) => (i, !(underscores && !underscoreOK (s.take i)))
  -- a hexadecimal mantissa must have an exponent
  else if hex then (i, false)
  else (i, !(underscores && !underscoreOK (s.take i)))

/-- `readFloat(s)`, less the mantissa and exponent it accumulates: how far it read, and `ok`. -/
def readFloat (s : List UInt8) : Nat × Bool :=
  if s = [] then (0, false) else
  let hex := hexPrefixAt s (signLen s)
  let i := if hex then signLen s + 2 else signLen s
  match readMantissa hex (s.drop i) false false false i with
  | (i, sawdigits, underscores) => if !sawdigits then (i, false) else readExponent s hex i underscores

/-- The errors of `strconv`. -/
inductive NumError where
  | errSyntax
  | errRange
  deriving DecidableEq

section Parse

-- the value of a literal `readFloat` accepted, at a bit size: its float64 bits, and whether it
-- overflowed
variable (conv : List UInt8 → Nat → UInt64 × Bool)

/-- `parseFloatPrefix(s, bitSize)`: the value, the length read, and the error. -/
def parseFloatPrefix (s : List UInt8) (bitSize : Nat) : UInt64 × Nat × Option NumError :=
  match special s with
  | some (f, n) => (f, n, none)
  | none =>
    match readFloat s with
    | (n, false) => (0, n, some .errSyntax)
    | (n, true) =>
      let r := conv (s.take n) bitSize
      (r.1, n, if r.2 then some .errRange else none)

/-- The imaginary part of `ParseComplex`, from its sign on: it must be followed by `i` alone. -/
def parseImag (s : List UInt8) (size : Nat) (re : UInt64) (pending : Option NumError) :
    Except NumError (UInt64 × UInt64 × Option NumError) :=
  match parseFloatPrefix conv s size with
  | (_, _, some .errSyntax) => .error .errSyntax
  | (im, n, err) =>
    if s.drop n = [0x69] then .ok (re, im, if err = none then pending else err) else .error .errSyntax

/-- The parentheses `ParseComplex` removes, if any. -/
def stripParens (s : List UInt8) : List UInt8 :=
  if 2 ≤ s.length ∧ s.head? = some 0x28 ∧ s.getLast? = some 0x29 then (s.drop 1).dropLast else s

/-- `ParseComplex` after the real part `re`, on what is left of the text: nothing, or a sign
and an imaginary part, or the `i` of a number that is only imaginary. -/
def afterReal (s : List UInt8) (size : Nat) (re : UInt64) (pending : Option NumError) :
    Except NumError (UInt64 × UInt64 × Option NumError) :=
  match s with
  | [] => .ok (re, 0, pending)
  | c :: rest =>
    if c = 0x2B then
      -- the `+` is consumed unless another follows it
      match rest with
      | d :: _ => if d ≠ 0x2B then parseImag conv rest size re pending else parseImag conv (c :: rest) size re pending
      | [] => parseImag conv (c :: rest) size re pending
    else if c = 0x2D then parseImag conv (c :: rest) size re pending
    else if c = 0x69 ∧ rest = [] then .ok (0, re, pending)
    else .error .errSyntax

/-- `strconv.ParseComplex(s, bitSize)`: the bits of the real and imaginary parts and a pending
range error, or a syntax error. -/
def parseComplex (s : List UInt8) (bitSize : Nat) : Except NumError (UInt64 × UInt64 × Option NumError) :=
  let size := if bitSize = 64 then 32 else 64
  let s := stripParens s
  match parseFloatPrefix conv s size with
  | (_, _, some .errSyntax) => .error .errSyntax
  | (re, n, pending) => afterReal conv (s.drop n) size re pending

end Parse

/-! ## Reading a run of digits -/

theorem readMantissa_digits (hex : Bool) {ds : List UInt8} (hds : ∀ d ∈ ds, isDecDigit d = true)
    (t : List UInt8) (sawdot sawdigits underscores : Bool) (i : Nat) :
    readMantissa hex (ds ++ t) sawdot sawdigits underscores i =
      readMantissa hex t sawdot (sawdigits || ds ≠ []) underscores (i + ds.length) := by
  induction ds generalizing sawdigits i with
  | nil => simp
  | cons d ds ih =>
    have hd := hds d List.mem_cons_self
    -- a digit is neither `_` nor `.`
    have h5f : d ≠ 0x5F := by rintro rfl; exact absurd hd (by decide)
    have h2e : d ≠ 0x2E := by rintro rfl; exact absurd hd (by decide)
    rw [List.cons_append, readMantissa, if_neg h5f, if_neg h2e, if_pos hd,
      ih (fun e he => hds e (List.mem_cons_of_mem d he))]
    simp [Nat.add_assoc, Nat.add_comm 1]

/-- The mantissa loop stops at a byte that is no digit, `_`, `.` or hexadecimal letter. -/
theorem readMantissa_stop (hex : Bool) {c : UInt8} (hc : c ≠ 0x5F ∧ c ≠ 0x2E ∧ isDecDigit c = false)
    (hl : hex = false) (t : List UInt8) (sawdot sawdigits underscores : Bool) (i : Nat) :
    readMantissa hex (c :: t) sawdot sawdigits underscores i = (i, sawdigits, underscores) := by
  subst hl
  simp [readMantissa, hc.1, hc.2.1, hc.2.2]


/-- An ASCII digit already has the bit `lower` sets. -/
theorem lower_of_isDecDigit {c : UInt8} (hc : isDecDigit c = true) : lower c = c := by
  simp only [isDecDigit, Bool.and_eq_true, decide_eq_true_eq] at hc
  have h₁ := UInt8.le_iff_toNat_le.mp hc.1
  have h₂ := UInt8.le_iff_toNat_le.mp hc.2
  apply UInt8.toNat_inj.mp
  rw [lower, UInt8.toNat_or]
  have h : c.toNat = 48 ∨ c.toNat = 49 ∨ c.toNat = 50 ∨ c.toNat = 51 ∨ c.toNat = 52 ∨
      c.toNat = 53 ∨ c.toNat = 54 ∨ c.toNat = 55 ∨ c.toNat = 56 ∨ c.toNat = 57 := by
    simp at h₁ h₂; omega
  rcases h with h | h | h | h | h | h | h | h | h | h <;> rw [h] <;> rfl

/-- **A run of decimal digits is read whole** when the byte after it continues no literal. -/
theorem readFloat_digits {ds : List UInt8} (hne : ds ≠ []) (hds : ∀ d ∈ ds, isDecDigit d = true)
    {c : UInt8} (hc : c ≠ 0x5F ∧ c ≠ 0x2E ∧ isDecDigit c = false ∧ lower c ≠ 0x65 ∧ lower c ≠ 0x78)
    (t : List UInt8) : readFloat (ds ++ c :: t) = (ds.length, true) := by
  obtain ⟨d, ds', rfl⟩ := List.exists_cons_of_ne_nil hne
  have hd := hds d List.mem_cons_self
  -- no sign: the first byte is a digit
  have hsign : signLen (d :: ds' ++ c :: t) = 0 := by
    have : ¬(d = 0x2B ∨ d = 0x2D) := by rintro (rfl | rfl) <;> exact absurd hd (by decide)
    simp [signLen, this]
  -- no base prefix: the byte after the first is a digit, or `c`
  have hhex : hexPrefixAt (d :: ds' ++ c :: t) 0 = false := by
    have h1 : lower ((d :: ds' ++ c :: t).getD 1 0) ≠ 0x78 := by
      cases ds' with
      | nil => exact hc.2.2.2.2
      | cons e es =>
        have he := hds e (by simp)
        rw [List.cons_append, List.cons_append, List.getD_cons_succ, List.getD_cons_zero,
          lower_of_isDecDigit he]
        rintro rfl
        exact absurd he (by decide)
    rw [hexPrefixAt, Nat.zero_add, beq_eq_false_iff_ne.mpr h1, Bool.and_false]
  -- the exponent test fails at `c`
  have hexp : readExponent (d :: ds' ++ c :: t) false (d :: ds').length false = ((d :: ds').length, true) := by
    simp [readExponent, hc.2.2.2.1]
  rw [readFloat, if_neg (by simp), hsign, hhex]
  simp only [Bool.false_eq_true, if_false, List.drop_zero]
  rw [readMantissa_digits false hds, readMantissa_stop false ⟨hc.1, hc.2.1, hc.2.2.1⟩ rfl]
  simpa using hexp

/-- An ASCII digit differs from every byte that is not one. -/
theorem ne_of_isDecDigit {d c : UInt8} (hd : isDecDigit d = true) (hc : isDecDigit c = false) : d ≠ c := by
  rintro rfl
  rw [hd] at hc
  exact Bool.noConfusion hc

/-- No name of `special` starts with a digit. -/
theorem special_of_isDecDigit {d : UInt8} (hd : isDecDigit d = true) (s : List UInt8) :
    special (d :: s) = none := by
  have h₁ : ¬(d = 0x2B ∨ d = 0x2D) := by
    rintro (h | h) <;> exact ne_of_isDecDigit hd (by decide) h
  have h₂ : ¬(d = 0x69 ∨ d = 0x49) := by
    rintro (h | h) <;> exact ne_of_isDecDigit hd (by decide) h
  have h₃ : ¬(d = 0x6E ∨ d = 0x4E) := by
    rintro (h | h) <;> exact ne_of_isDecDigit hd (by decide) h
  simp only [special, h₁, h₂, h₃, if_false]

section Parse

variable (conv : List UInt8 → Nat → UInt64 × Bool)

/-- A run of digits before a byte that continues no literal is the prefix `parseFloatPrefix`
reads, and no syntax error. -/
theorem parseFloatPrefix_digits {ds : List UInt8} (hne : ds ≠ []) (hds : ∀ d ∈ ds, isDecDigit d = true)
    {c : UInt8} (hc : c ≠ 0x5F ∧ c ≠ 0x2E ∧ isDecDigit c = false ∧ lower c ≠ 0x65 ∧ lower c ≠ 0x78)
    (t : List UInt8) (bitSize : Nat) :
    parseFloatPrefix conv (ds ++ c :: t) bitSize =
      ((conv ds bitSize).1, ds.length, if (conv ds bitSize).2 then some .errRange else none) := by
  obtain ⟨d, ds', rfl⟩ := List.exists_cons_of_ne_nil hne
  rw [parseFloatPrefix, List.cons_append, special_of_isDecDigit (hds d List.mem_cons_self),
    ← List.cons_append]
  simp only [readFloat_digits hne hds hc t, List.take_left']

/-- Two signs in a row are a syntax error after the first. -/
theorem parseFloatPrefix_plusPlus (t : List UInt8) (bitSize : Nat) :
    parseFloatPrefix conv (0x2B :: 0x2B :: t) bitSize = (0, 1, some .errSyntax) := by
  -- `special` wants a name after the sign, and `readFloat` a digit
  have hsp : special (0x2B :: 0x2B :: t) = none := by
    have h0 : commonPrefixLenIgnoreCase (0x2B :: t) (lit "infinity") = 0 := by
      rw [show lit "infinity" = 0x69 :: lit "nfinity" by decide]
      simp [commonPrefixLenIgnoreCase, toLowerAscii]
    simp [special, h0]
  have hrf : readFloat (0x2B :: 0x2B :: t) = (1, false) := by
    have hhex : hexPrefixAt (0x2B :: 0x2B :: t) 1 = false := by simp [hexPrefixAt]
    have hdig : isDecDigit 0x2B = false := by decide
    simp [readFloat, signLen, hhex, readMantissa, hdig]
  simp [parseFloatPrefix, hsp, hrf]

theorem stripParens_of_head {s : List UInt8} (h : s.head? ≠ some 0x28) : stripParens s = s := by
  simp [stripParens, h]

/-- `ParseComplex` past a real part that is no syntax error. -/
theorem parseComplex_of_real {s : List UInt8} {bitSize : Nat} {re : UInt64} {n : Nat} {pending : Option NumError}
    (hre : parseFloatPrefix conv (stripParens s) (if bitSize = 64 then 32 else 64) = (re, n, pending))
    (hp : pending ≠ some .errSyntax) :
    parseComplex conv s bitSize =
      afterReal conv ((stripParens s).drop n) (if bitSize = 64 then 32 else 64) re pending := by
  rw [parseComplex]
  -- the match's second case holds under `hp`, which the discharger takes from the context
  simp only [hre]

/-- A text that starts with a run of digits is read past them, with no syntax error. -/
theorem parseComplex_digits {ds : List UInt8} (hne : ds ≠ []) (hds : ∀ d ∈ ds, isDecDigit d = true)
    {c : UInt8} (hc : c ≠ 0x5F ∧ c ≠ 0x2E ∧ isDecDigit c = false ∧ lower c ≠ 0x65 ∧ lower c ≠ 0x78)
    (t : List UInt8) (bitSize : Nat) :
    ∃ re pending, pending ≠ some .errSyntax ∧
      parseComplex conv (ds ++ c :: t) bitSize = afterReal conv (c :: t) (if bitSize = 64 then 32 else 64) re pending := by
  obtain ⟨d, ds', rfl⟩ := List.exists_cons_of_ne_nil hne
  -- no parentheses: the text starts with a digit
  have hstrip : stripParens (d :: ds' ++ c :: t) = d :: ds' ++ c :: t :=
    stripParens_of_head (by simpa using ne_of_isDecDigit (hds d List.mem_cons_self) (by decide))
  have hre := parseFloatPrefix_digits conv hne hds hc t (if bitSize = 64 then 32 else 64)
  rw [← hstrip] at hre
  have hdrop : (stripParens (d :: ds' ++ c :: t)).drop (d :: ds').length = c :: t := by
    rw [hstrip, List.drop_left]
  -- a range error is pending, or none: never a syntax error
  have hp : (if (conv (d :: ds') (if bitSize = 64 then 32 else 64)).2 then some NumError.errRange else none) ≠
      some .errSyntax := by
    split <;> simp
  exact ⟨_, _, hp, by rw [parseComplex_of_real conv hre hp, hdrop]⟩

/-- **A real part of digits followed by `NaN` is a syntax error**: after the real part comes
neither a sign nor a lone `i`. -/
theorem parseComplex_digits_nan {ds : List UInt8} (hne : ds ≠ []) (hds : ∀ d ∈ ds, isDecDigit d = true)
    (bitSize : Nat) : parseComplex conv (ds ++ lit "NaN" ++ [0x69]) bitSize = .error .errSyntax := by
  have hlit : lit "NaN" ++ [0x69] = 0x4E :: [0x61, 0x4E, 0x69] := by decide
  obtain ⟨re, pending, -, h⟩ := parseComplex_digits conv hne hds (c := 0x4E) (by decide) [0x61, 0x4E, 0x69] bitSize
  rw [List.append_assoc, hlit, h]
  simp [afterReal]

/-- **Two `+` in a row after a real part of digits are a syntax error**: the first is not
consumed, and the imaginary part then starts with two signs. -/
theorem parseComplex_digits_plusPlus {ds : List UInt8} (hne : ds ≠ []) (hds : ∀ d ∈ ds, isDecDigit d = true)
    (t : List UInt8) (bitSize : Nat) :
    parseComplex conv (ds ++ 0x2B :: 0x2B :: t) bitSize = .error .errSyntax := by
  obtain ⟨re, pending, -, h⟩ := parseComplex_digits conv hne hds (c := 0x2B) (by decide) (0x2B :: t) bitSize
  rw [h]
  simp [afterReal, parseImag, parseFloatPrefix_plusPlus]

end Parse

end Go.Strconv
