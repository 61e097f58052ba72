import Zap.Json.String
import Zap.Json.Scalar

/-!
# Zap.Json.Reader — a streaming JSON reader (RFC 8259)

The reader takes one byte at a time.  Its state is what it expects next (`Mode`) and the
containers it has open (`Frame`), innermost first.  A string's body is collected up to the
closing quote and then decoded; a bare token runs up to the next delimiter, so the reader learns
that a number has ended only from the byte after it.  A duplicate key replaces the first in
place.

* `decode`: the value of a whole text, whitespace allowed around and between tokens.
* `run_append`, `step_delim`: reading in pieces; a delimiter first ends a pending bare token
  (`settle`).
* `run_literal`, `run_key`, `run_bare`: a string, a key and a bare token read off.
* `run_closeObjects`: closing an object and the objects it sits in, as `enclose` builds them.
-/

namespace Json

/-- An open container and what has been read of it. -/
inductive Frame where
  -- the members so far, and the key whose value comes next
  | object (members : Members) (key : Option (List UInt8))
  | array (elems : List Value)

/-- What the reader expects next. -/
inductive Mode where
  | value
  -- after `[`: a value or `]`
  | valueOrEnd
  -- after `{`: a key or `}`
  | keyOrEnd
  -- after `,` in an object
  | key
  | colon
  -- after a value: `,` or the end of its container
  | next
  -- inside a string: the body so far, and whether the last byte began an escape
  | str (isKey : Bool) (body : List UInt8) (esc : Bool)
  | bare (tok : List UInt8)
  -- the text's value is complete
  | done (v : Value)

structure Reader where
  mode : Mode
  stack : List Frame

/-- The reader before the first byte. -/
def Reader.init : Reader := ⟨.value, []⟩

/-- A complete value goes into the container on top, or ends the text. -/
def complete (v : Value) : List Frame → Option Reader
  | [] => some ⟨.done v, []⟩
  | .object ms (some k) :: fs => some ⟨.next, .object (insert ms k v) none :: fs⟩
  | .object _ none :: _ => none
  | .array vs :: fs => some ⟨.next, .array (vs ++ [v]) :: fs⟩

/-- The first byte of a value. -/
def startValue (b : UInt8) (fs : List Frame) : Option Reader :=
  if b = 0x7B then some ⟨.keyOrEnd, .object [] none :: fs⟩
  else if b = 0x5B then some ⟨.valueOrEnd, .array [] :: fs⟩
  else if b = 0x22 then some ⟨.str false [] false, fs⟩
  else if isDelim b then none
  else some ⟨.bare [b], fs⟩

def closeObject : List Frame → Option Reader
  | .object ms none :: fs => complete (.object ms) fs
  | _ => none

def closeArray : List Frame → Option Reader
  | .array vs :: fs => complete (.array vs) fs
  | _ => none

def afterComma : List Frame → Option Reader
  | .object ms none :: fs => some ⟨.key, .object ms none :: fs⟩
  | .array vs :: fs => some ⟨.value, .array vs :: fs⟩
  | _ => none

/-- The closing quote: the body decoded, as a key or as a value. -/
def endString (isKey : Bool) (body : List UInt8) (fs : List Frame) : Option Reader :=
  match decodeBody body with
  | none => none
  | some cs =>
    if isKey then
      match fs with
      | .object ms none :: fs => some ⟨.colon, .object ms (some (cs.flatMap String.utf8EncodeChar)) :: fs⟩
      | _ => none
    else complete (.string (cs.flatMap String.utf8EncodeChar)) fs

def endBare (tok : List UInt8) (fs : List Frame) : Option Reader :=
  (scalar tok).bind fun v => complete v fs

/-- A byte outside strings and bare tokens. -/
def stepPlain (m : Mode) (fs : List Frame) (b : UInt8) : Option Reader :=
  if isWs b then some ⟨m, fs⟩
  else match m with
    | .value => startValue b fs
    | .valueOrEnd => if b = 0x5D then closeArray fs else startValue b fs
    | .keyOrEnd =>
      if b = 0x7D then closeObject fs else if b = 0x22 then some ⟨.str true [] false, fs⟩ else none
    | .key => if b = 0x22 then some ⟨.str true [] false, fs⟩ else none
    | .colon => if b = 0x3A then some ⟨.value, fs⟩ else none
    | .next =>
      if b = 0x2C then afterComma fs
      else if b = 0x7D then closeObject fs
      else if b = 0x5D then closeArray fs
      else none
    | _ => none

def step (r : Reader) (b : UInt8) : Option Reader :=
  match r.mode with
  | .str isKey body esc =>
    if esc then some ⟨.str isKey (body ++ [b]) false, r.stack⟩
    else if b = 0x22 then endString isKey body r.stack
    else some ⟨.str isKey (body ++ [b]) (b == 0x5C), r.stack⟩
  | .bare tok =>
    -- the delimiter ends the token, then is read as itself
    if isDelim b then (endBare tok r.stack).bind fun r' => stepPlain r'.mode r'.stack b
    else some ⟨.bare (tok ++ [b]), r.stack⟩
  | m => stepPlain m r.stack b

def run : Reader → List UInt8 → Option Reader
  | r, [] => some r
  | r, b :: bs => (step r b).bind (run · bs)

/-- The reader with a pending bare token ended, as the end of the text or a delimiter ends it. -/
def settle (r : Reader) : Option Reader :=
  match r.mode with
  | .bare tok => endBare tok r.stack
  | _ => some r

def result (r : Reader) : Option Value :=
  match r.mode with
  | .done v => some v
  | _ => none

/-- The value of a JSON text. -/
def decode (bs : List UInt8) : Option Value := ((run .init bs).bind settle).bind result

/-- The containers of `outer`, outermost first, as open frames on the stack: innermost on top,
each waiting for the value of its key. -/
def pendingFrames (outer : List (Members × List UInt8)) : List Frame :=
  (outer.map fun p => Frame.object p.1 (some p.2)).reverse

/-- A container opened inside the others goes on top of the stack. -/
theorem pendingFrames_concat (outer : List (Members × List UInt8)) (t : Members) (k : List UInt8) :
    pendingFrames (outer ++ [(t, k)]) = .object t (some k) :: pendingFrames outer := by
  simp [pendingFrames]

/-! ## Reading in pieces -/

theorem run_append (r : Reader) (p q : List UInt8) :
    run r (p ++ q) = (run r p).bind (run · q) := by
  induction p generalizing r with
  | nil => rfl
  | cons b p ih =>
    simp only [List.cons_append, run, ih, Option.bind_assoc]

theorem step_of_complete {v : Value} {fs : List Frame} {r : Reader} (h : complete v fs = some r)
    (b : UInt8) : step r b = stepPlain r.mode r.stack b := by
  -- a completed value leaves the reader after a value or done, never inside a token
  match fs, h with
  | [], h => cases h; rfl
  | .object _ (some _) :: _, h => cases h; rfl
  | .array _ :: _, h => cases h; rfl

theorem settle_of_complete {v : Value} {fs : List Frame} {r : Reader} (h : complete v fs = some r) :
    settle r = some r := by
  match fs, h with
  | [], h => cases h; rfl
  | .object _ (some _) :: _, h => cases h; rfl
  | .array _ :: _, h => cases h; rfl

/-- **A delimiter first ends a pending bare token.** -/
theorem step_delim {b : UInt8} (hb : isDelim b = true) (r : Reader) :
    step r b = (settle r).bind (step · b) := by
  obtain ⟨m, fs⟩ := r
  cases m with
  | bare tok =>
    have hl : step ⟨.bare tok, fs⟩ b = (endBare tok fs).bind fun r' => stepPlain r'.mode r'.stack b := by
      simp [step, hb]
    rw [hl]
    show _ = (endBare tok fs).bind (step · b)
    cases hc : endBare tok fs with
    | none => rfl
    | some r' =>
      obtain ⟨v, -, hv⟩ := Option.bind_eq_some_iff.mp hc
      exact (step_of_complete hv b).symm
  | _ => rfl

/-! ## Strings -/

section Str

variable (k : Bool) (fs : List Frame)

/-- Bytes that are neither `"` nor `\\` are collected as they are. -/
theorem run_str_plain (acc : List UInt8) {bs : List UInt8}
    (h : ∀ b ∈ bs, b ≠ 0x22 ∧ b ≠ 0x5C) :
    run ⟨.str k acc false, fs⟩ bs = some ⟨.str k (acc ++ bs) false, fs⟩ := by
  induction bs generalizing acc with
  | nil => simp [run]
  | cons b bs ih =>
    obtain ⟨h1, h2⟩ := h b List.mem_cons_self
    have hesc : (b == 0x5C) = false := by simpa using h2
    simp only [run, step, if_neg h1, hesc, Bool.false_eq_true, if_false, Option.bind_some]
    rw [ih _ fun c hc => h c (List.mem_cons_of_mem b hc), List.append_assoc]
    rfl

/-- A backslash and the byte after it are collected together. -/
theorem run_str_escape (acc : List UInt8) (x : UInt8) (bs : List UInt8) :
    run ⟨.str k acc false, fs⟩ (0x5C :: x :: bs) = run ⟨.str k (acc ++ [0x5C, x]) false, fs⟩ bs := by
  simp [run, step]

theorem hex4_plain {hs : List UInt8} {v : Nat} (h : hex4 hs = some v) :
    ∀ b ∈ hs, b ≠ 0x22 ∧ b ≠ 0x5C := fun b hb =>
  have ⟨_, hd⟩ := hex4_mem h b hb
  hexDigit_special hd

theorem run_strChar {p : List UInt8} {c : Char} (hc : StrChar p c) (acc q : List UInt8) :
    run ⟨.str k acc false, fs⟩ (p ++ q) = run ⟨.str k (acc ++ p) false, fs⟩ q := by
  cases hc with
  | unescaped h1 h2 h3 =>
    -- an ASCII byte of the encoding is the character, neither `"` nor `\\`
    have hplain : ∀ b ∈ String.utf8EncodeChar c, b ≠ 0x22 ∧ b ≠ 0x5C := by
      intro b hb
      constructor <;> rintro rfl
      · exact h2 (Char.toNat_inj.mp (eq_of_mem_utf8EncodeChar hb (by decide)))
      · exact h3 (Char.toNat_inj.mp (eq_of_mem_utf8EncodeChar hb (by decide)))
    rw [run_append, run_str_plain k fs acc hplain, Option.bind_some]
  | unicode hx =>
    rw [List.cons_append, List.cons_append, run_str_escape, run_append,
      run_str_plain k fs _ (hex4_plain hx), Option.bind_some]
    simp
  | surrogatePair h1 h2 _ _ _ =>
    simp only [List.cons_append, List.append_assoc]
    rw [run_str_escape, run_append, run_str_plain k fs _ (hex4_plain h1), Option.bind_some,
      run_str_escape, run_append, run_str_plain k fs _ (hex4_plain h2), Option.bind_some]
    simp
  | _ => rw [List.cons_append, List.cons_append, List.nil_append, run_str_escape]

theorem run_strBody {body : List UInt8} {cs : List Char} (h : StrBody body cs) (acc q : List UInt8) :
    run ⟨.str k acc false, fs⟩ (body ++ q) = run ⟨.str k (acc ++ body) false, fs⟩ q := by
  induction h generalizing acc with
  | nil => simp
  | cons hc _ ih =>
    rw [List.append_assoc, run_strChar k fs hc, ih, List.append_assoc]

/-- The body, then the closing quote. -/
theorem run_body_quote {body : List UInt8} {cs : List Char} (h : StrBody body cs) :
    run ⟨.str k [] false, fs⟩ (body ++ [0x22]) = endString k body fs := by
  rw [run_strBody k fs h, List.nil_append]
  simp [run, step]

end Str

/-- **A string literal is read as the string its body stands for.** -/
theorem run_literal {body : List UInt8} {cs : List Char} (h : StrBody body cs) (fs : List Frame) :
    run ⟨.value, fs⟩ (0x22 :: body ++ [0x22]) =
      complete (.string (cs.flatMap String.utf8EncodeChar)) fs := by
  have hq : run ⟨.value, fs⟩ (0x22 :: (body ++ [0x22])) = run ⟨.str false [] false, fs⟩ (body ++ [0x22]) := by
    simp [run, step, stepPlain, startValue, isWs]
  rw [List.cons_append, hq, run_body_quote false fs h, endString, decodeBody_strBody h]
  rfl

/-- **A key and its colon are read as the key the body stands for.** -/
theorem run_key {body : List UInt8} {cs : List Char} (h : StrBody body cs) {m : Mode}
    (hm : m = .keyOrEnd ∨ m = .key) (ms : Members) (fs : List Frame) :
    run ⟨m, .object ms none :: fs⟩ (0x22 :: body ++ [0x22, 0x3A]) =
      some ⟨.value, .object ms (some (cs.flatMap String.utf8EncodeChar)) :: fs⟩ := by
  have hq : run ⟨m, .object ms none :: fs⟩ (0x22 :: (body ++ [0x22] ++ [0x3A])) =
      run ⟨.str true [] false, .object ms none :: fs⟩ (body ++ [0x22] ++ [0x3A]) := by
    rcases hm with rfl | rfl <;> simp [run, step, stepPlain, isWs]
  rw [show 0x22 :: body ++ [0x22, 0x3A] = 0x22 :: (body ++ [0x22] ++ [0x3A]) by simp, hq,
    run_append, run_body_quote true _ h, endString, decodeBody_strBody h]
  simp [run, step, stepPlain, isWs]

/-! ## Bare tokens -/

theorem run_bare_more (acc : List UInt8) {tok : List UInt8} (h : ∀ b ∈ tok, isDelim b = false)
    (fs : List Frame) : run ⟨.bare acc, fs⟩ tok = some ⟨.bare (acc ++ tok), fs⟩ := by
  induction tok generalizing acc with
  | nil => simp [run]
  | cons b tok ih =>
    have hb := h b List.mem_cons_self
    simp only [run, step, hb, Bool.false_eq_true, if_false, Option.bind_some]
    rw [ih _ fun c hc => h c (List.mem_cons_of_mem b hc), List.append_assoc]
    rfl

/-- **A bare token is collected whole, and ends as its scalar.** -/
theorem run_bare {b : UInt8} {tok : List UInt8} (h : ∀ c ∈ b :: tok, isDelim c = false)
    (fs : List Frame) : run ⟨.value, fs⟩ (b :: tok) = some ⟨.bare (b :: tok), fs⟩ := by
  have hb := h b List.mem_cons_self
  -- a byte that is no delimiter opens no container and no string
  have hs : startValue b fs = some ⟨.bare [b], fs⟩ := by
    have h1 : b ≠ 0x7B := by rintro rfl; exact absurd hb (by decide)
    have h2 : b ≠ 0x5B := by rintro rfl; exact absurd hb (by decide)
    have h3 : b ≠ 0x22 := by rintro rfl; exact absurd hb (by decide)
    simp [startValue, h1, h2, h3, hb]
  simp only [run, step, stepPlain, isWs_of_isDelim hb, Bool.false_eq_true, if_false, hs, Option.bind_some]
  exact run_bare_more [b] (fun c hc => h c (List.mem_cons_of_mem b hc)) fs

/-! ## Containers -/

theorem stepPlain_valueOrEnd {b : UInt8} (hb : b ≠ 0x5D) (hw : isWs b = false) (fs : List Frame) :
    stepPlain .valueOrEnd fs b = stepPlain .value fs b := by
  simp [stepPlain, hb, hw]

/-- After `[` a value reads as after `,`. -/
theorem run_valueOrEnd {b : UInt8} (hb : b ≠ 0x5D) (hw : isWs b = false) (fs : List Frame)
    (p : List UInt8) : run ⟨.valueOrEnd, fs⟩ (b :: p) = run ⟨.value, fs⟩ (b :: p) := by
  simp only [run, step]
  rw [stepPlain_valueOrEnd hb hw]

/-- `}` after a key's object or a value: the object is complete. -/
theorem step_closeObject {m : Mode} (hm : m = .keyOrEnd ∨ m = .next) (ms : Members)
    (fs : List Frame) : step ⟨m, .object ms none :: fs⟩ 0x7D = complete (.object ms) fs := by
  rcases hm with rfl | rfl <;> simp [step, stepPlain, isWs, closeObject]

/-- **Closing an object and the objects around it.** `}` as many times as objects are open
completes the outermost, holding the others as `enclose` places them. -/
theorem run_closeObjects {m : Mode} (hm : m = .keyOrEnd ∨ m = .next) :
    ∀ (outer : List (Members × List UInt8)) (t : Members) (below : List Frame),
      run ⟨m, .object t none :: pendingFrames outer ++ below⟩ (List.replicate (outer.length + 1) 0x7D) =
        complete (.object (enclose t outer)) below
  | [], t, below => by
    simp [run, pendingFrames, enclose, step_closeObject hm]
  | (ms, k) :: outer, t, below => by
    -- close the inner objects down to the one waiting for `k`, then that one
    have hst : Frame.object t none :: pendingFrames ((ms, k) :: outer) ++ below =
        Frame.object t none :: pendingFrames outer ++ (Frame.object ms (some k) :: below) := by
      simp [pendingFrames]
    rw [hst, List.length_cons, List.replicate_succ', run_append,
      run_closeObjects hm outer t (.object ms (some k) :: below)]
    simp [complete, run, step_closeObject (Or.inr rfl), enclose]

end Json
