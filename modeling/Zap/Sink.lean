import Zap.Go.Strings
import Zap.Go.Std
import Zap.Lib.Machine
import Zap.Lib.Assoc

/-!
# Zap.Sink — the sink registry's `RegisterSink`

`RegisterSink(scheme, factory)` refuses an empty scheme, then normalizes it: `normalizeScheme`
lowers it with `strings.ToLower` and only then checks its bytes, a lower-case letter first and
letters, digits, `.`, `+` and `-` after it.  The factory is stored under the normalized scheme,
unless one is stored there already.  A factory is named by a number.

* `registerSink_of_ascii`: an ASCII scheme is refused as invalid exactly when it is not an
  RFC 3986 scheme, and otherwise stored under its ASCII lower case.
* `registerSink_duplicate`: once a scheme is registered, every scheme that lowers to the same
  string is refused as a duplicate.
* `registerSink_run`: over any run of `RegisterSink` calls, no scheme is stored twice, a refused
  call changes nothing, and each scheme keeps the factory of its first successful registration.
* `registerSink_kelvin_sign`: U+212A KELVIN SIGN, which Unicode lowers to `k`, is accepted as a
  scheme and stored under `"k"`.
-/

namespace Zap

open Go Go.Utf8 Go.Strings

/-! ## The code -/

/-- Why `normalizeScheme` refuses a scheme. -/
inductive SchemeError where
  | mustStartWithLetter
  | mayNotContain (c : UInt8)
  deriving DecidableEq, Repr

/-- The error's text; `quoteByte` is `fmt`'s `%q` of a byte. -/
def SchemeError.text (quoteByte : UInt8 → List UInt8) : SchemeError → List UInt8
  | .mustStartWithLetter => lit "must start with a letter"
  | .mayNotContain c => lit "may not contain " ++ quoteByte c

/-- Why `RegisterSink` fails. -/
inductive RegisterError where
  | emptyScheme
  | invalidScheme (scheme : List UInt8) (err : SchemeError)
  | alreadyRegistered (normalized : List UInt8)
  deriving DecidableEq, Repr

/-- The error's text; `quote` is `fmt`'s `%q` of a string. -/
def RegisterError.text (quote : List UInt8 → List UInt8) (quoteByte : UInt8 → List UInt8) :
    RegisterError → List UInt8
  | .emptyScheme => lit "can't register a sink factory for empty string"
  | .invalidScheme scheme err => quote scheme ++ lit " is not a valid scheme: " ++ err.text quoteByte
  | .alreadyRegistered normalized => lit "sink factory already registered for scheme " ++ quote normalized

/-- The bytes the loop of `normalizeScheme` lets through after the first: `a`-`z`, `0`-`9`,
`.`, `+` and `-`. -/
def schemeByte (c : UInt8) : Bool :=
  (0x61 ≤ c && c ≤ 0x7A) || (0x30 ≤ c && c ≤ 0x39) || c == 0x2E || c == 0x2B || c == 0x2D

/-- `normalizeScheme(s)`: the lowered scheme, or why it is refused; a panic when `s` lowers to
the empty string, whose `s[0]` is out of range. -/
def normalizeScheme (lowerCase : Nat → Nat) (s : List UInt8) : Outcome (Except SchemeError (List UInt8)) :=
  match toLower lowerCase s with
  | [] => .panic false (lit "runtime error: index out of range [0] with length 0")
  | first :: rest =>
    if 0x61 > first || 0x7A < first then .ok (.error .mustStartWithLetter)
    else
      -- the loop over the bytes after the first stops at the first one not allowed
      match rest.find? (fun c => !schemeByte c) with
      | some c => .ok (.error (.mayNotContain c))
      | none => .ok (.ok (first :: rest))

/-- A `sinkRegistry`'s factories, by scheme. -/
structure SinkRegistry where
  factories : List (List UInt8 × Nat)
  deriving DecidableEq, Repr

/-- `sr.RegisterSink(scheme, factory)` -/
def SinkRegistry.registerSink (lowerCase : Nat → Nat) (sr : SinkRegistry) (scheme : List UInt8)
    (factory : Nat) : Outcome (Except RegisterError SinkRegistry) :=
  if scheme = [] then .ok (.error .emptyScheme)
  else
    match normalizeScheme lowerCase scheme with
    | .panic nilRecv v => .panic nilRecv v
    | .ok (.error err) => .ok (.error (.invalidScheme scheme err))
    | .ok (.ok normalized) =>
      if (sr.factories.lookup normalized).isSome then .ok (.error (.alreadyRegistered normalized))
      else .ok (.ok ⟨sr.factories ++ [(normalized, factory)]⟩)

/-- `newSinkRegistry()`, with the factory `file` for `"file"`; the error of its `RegisterSink`
is dropped. -/
def newSinkRegistry (lowerCase : Nat → Nat) (file : Nat) : SinkRegistry :=
  match (⟨[]⟩ : SinkRegistry).registerSink lowerCase (lit "file") file with
  | .ok (.ok sr) => sr
  | _ => ⟨[]⟩

/-! ## RFC 3986 schemes -/

/-- `ALPHA`: an ASCII letter of either case. -/
def isAlpha (c : UInt8) : Bool := (0x41 ≤ c && c ≤ 0x5A) || (0x61 ≤ c && c ≤ 0x7A)

/-- What may follow the first letter: `ALPHA / DIGIT / "+" / "-" / "."`. -/
def isSchemeChar (c : UInt8) : Bool :=
  isAlpha c || (0x30 ≤ c && c ≤ 0x39) || c == 0x2B || c == 0x2D || c == 0x2E

/-- RFC 3986, section 3.1: `scheme = ALPHA *( ALPHA / DIGIT / "+" / "-" / "." )`. -/
def isScheme : List UInt8 → Bool
  | [] => false
  | c :: rest => isAlpha c && rest.all isSchemeChar

/-- An ASCII capital lowered is a lower-case letter exactly when it was a letter. -/
theorem notLower_asciiLower : ∀ c : UInt8, c < 0x80 →
    (0x61 > asciiLower c || 0x7A < asciiLower c) = !isAlpha c := by
  decide +kernel

/-- An ASCII byte lowered passes the loop exactly when it is an RFC 3986 scheme character. -/
theorem schemeByte_asciiLower : ∀ c : UInt8, c < 0x80 → schemeByte (asciiLower c) = isSchemeChar c := by
  decide +kernel

/-! ## `normalizeScheme` and `RegisterSink` -/

/-- A scheme just stored is found. -/
theorem lookup_append_self (l : List (List UInt8 × Nat)) (k : List UInt8) (v : Nat) :
    ((l ++ [(k, v)]).lookup k).isSome = true := by
  induction l with
  | nil => simp
  | cons kv l ih =>
    obtain ⟨k', v'⟩ := kv
    by_cases hk : k = k'
    · simp [hk]
    · have hne : (k == k') = false := by simpa using hk
      rw [List.cons_append, List.lookup_cons, hne]
      exact ih

section Register

variable {lowerCase : Nat → Nat}

/-- What `normalizeScheme` accepts, it returns as `strings.ToLower` gives it. -/
theorem normalizeScheme_ok {s n : List UInt8} (h : normalizeScheme lowerCase s = .ok (.ok n)) :
    n = toLower lowerCase s := by
  unfold normalizeScheme at h
  split at h
  · cases h
  · rename_i first rest hlow
    split at h
    · cases h
    · split at h
      · cases h
      · cases h
        exact hlow.symm

/-- `normalizeScheme` reads its scheme only through `strings.ToLower`. -/
theorem normalizeScheme_congr {s s' : List UInt8} (h : toLower lowerCase s = toLower lowerCase s') :
    normalizeScheme lowerCase s = normalizeScheme lowerCase s' := by
  unfold normalizeScheme
  rw [h]

/-- A non-empty scheme is never a panic: lowering keeps it non-empty. -/
theorem normalizeScheme_ne_panic {s : List UInt8} (hs : s ≠ []) (nilRecv : Bool) (v : List UInt8) :
    normalizeScheme lowerCase s ≠ .panic nilRecv v := by
  obtain ⟨first, rest, hlow⟩ := List.exists_cons_of_ne_nil (@toLower_ne_nil lowerCase s hs)
  unfold normalizeScheme
  rw [hlow]
  intro h
  dsimp only at h
  by_cases hfirst : (0x61 > first || 0x7A < first) = true
  · rw [if_pos hfirst] at h
    cases h
  · rw [if_neg hfirst] at h
    cases hfind : rest.find? (fun c => !schemeByte c) with
    | none => rw [hfind] at h; cases h
    | some c => rw [hfind] at h; cases h

/-- **An ASCII scheme is normalized exactly when it is an RFC 3986 scheme**, to its ASCII
lower case; otherwise it is refused. -/
theorem normalizeScheme_of_ascii {s : List UInt8} (hs : s ≠ []) (hascii : ∀ c ∈ s, c < 0x80) :
    (isScheme s = true → normalizeScheme lowerCase s = .ok (.ok (s.map asciiLower))) ∧
    (isScheme s = false → ∃ err, normalizeScheme lowerCase s = .ok (.error err)) := by
  obtain ⟨c, rest, rfl⟩ := List.exists_cons_of_ne_nil hs
  have hc : c < 0x80 := hascii c (by simp)
  have hrest : ∀ b ∈ rest, b < 0x80 := fun b hb => hascii b (by simp [hb])
  -- the loop's test on the lowered bytes is the RFC's on the bytes
  have hfind : (rest.map asciiLower).find? (fun b => !schemeByte b) =
      (rest.find? fun b => !isSchemeChar b).map asciiLower := by
    rw [List.find?_map]
    congr 1
    apply List.find?_congr
    intro b hb
    simp [Function.comp, schemeByte_asciiLower b (hrest b hb)]
  have hlow := notLower_asciiLower c hc
  unfold normalizeScheme
  rw [toLower_of_ascii hascii, List.map_cons]
  simp only [isScheme, Bool.and_eq_true, Bool.and_eq_false_iff]
  refine ⟨fun hgood => ?_, fun hbad => ?_⟩
  · obtain ⟨halpha, hall⟩ := hgood
    have hnone : (rest.find? fun b => !isSchemeChar b) = none := by
      rw [List.find?_eq_none]
      intro b hb
      simpa using List.all_eq_true.mp hall b hb
    rw [if_neg (by simp [hlow, halpha]), hfind, hnone]
    rfl
  · by_cases halpha : isAlpha c = true
    · rcases hbad with hbad | hbad
      · exact absurd halpha (by simp [hbad])
      · -- a byte after the first is not allowed: the loop stops at the first such
        obtain ⟨b, hb, hbad⟩ := List.all_eq_false.mp hbad
        obtain ⟨b', hfound⟩ : ∃ b', (rest.find? fun b => !isSchemeChar b) = some b' := by
          cases h : rest.find? fun b => !isSchemeChar b with
          | some b' => exact ⟨b', rfl⟩
          | none =>
            have := List.find?_eq_none.mp h b hb
            simp_all
        rw [if_neg (by simp [hlow, halpha]), hfind, hfound]
        exact ⟨_, rfl⟩
    · rw [if_pos (by simp [hlow, halpha])]
      exact ⟨_, rfl⟩

/-- `RegisterSink` of a scheme `normalizeScheme` refuses. -/
theorem registerSink_invalid {sr : SinkRegistry} {s : List UInt8} (hs : s ≠ []) {err : SchemeError}
    (h : normalizeScheme lowerCase s = .ok (.error err)) (f : Nat) :
    sr.registerSink lowerCase s f = .ok (.error (.invalidScheme s err)) := by
  unfold SinkRegistry.registerSink
  rw [if_neg hs, h]

/-- `RegisterSink` of a scheme `normalizeScheme` accepts. -/
theorem registerSink_valid {sr : SinkRegistry} {s n : List UInt8} (hs : s ≠ [])
    (h : normalizeScheme lowerCase s = .ok (.ok n)) (f : Nat) :
    sr.registerSink lowerCase s f =
      if (sr.factories.lookup n).isSome then .ok (.error (.alreadyRegistered n))
      else .ok (.ok ⟨sr.factories ++ [(n, f)]⟩) := by
  unfold SinkRegistry.registerSink
  rw [if_neg hs, h]

/-- **A successful `RegisterSink` stores the factory under the lowered scheme**, which was free. -/
theorem registerSink_ok {sr sr' : SinkRegistry} {s : List UInt8} {f : Nat}
    (h : sr.registerSink lowerCase s f = .ok (.ok sr')) :
    normalizeScheme lowerCase s = .ok (.ok (toLower lowerCase s)) ∧
      sr.factories.lookup (toLower lowerCase s) = none ∧
      sr' = ⟨sr.factories ++ [(toLower lowerCase s, f)]⟩ := by
  have hs : s ≠ [] := by
    rintro rfl
    simp [SinkRegistry.registerSink] at h
  cases hn : normalizeScheme lowerCase s with
  | panic nilRecv v => exact absurd hn (normalizeScheme_ne_panic hs nilRecv v)
  | ok r =>
    cases r with
    | error err =>
      rw [registerSink_invalid hs hn] at h
      cases h
    | ok n =>
      rw [registerSink_valid hs hn] at h
      rw [← normalizeScheme_ok hn]
      by_cases hl : (sr.factories.lookup n).isSome = true
      · rw [if_pos hl] at h
        cases h
      · rw [if_neg hl] at h
        cases h
        exact ⟨rfl, Option.not_isSome_iff_eq_none.mp hl, rfl⟩

/-- **Once a scheme is registered, every scheme that lowers to the same string is a
duplicate.** -/
theorem registerSink_duplicate {sr sr' : SinkRegistry} {s s' : List UInt8} {f : Nat}
    (h : sr.registerSink lowerCase s f = .ok (.ok sr')) (hs' : s' ≠ [])
    (hsame : normalizeScheme lowerCase s' = .ok (.ok (toLower lowerCase s))) (f' : Nat) :
    sr'.registerSink lowerCase s' f' = .ok (.error (.alreadyRegistered (toLower lowerCase s))) := by
  obtain ⟨-, -, rfl⟩ := registerSink_ok h
  rw [registerSink_valid hs' hsame, if_pos (lookup_append_self _ _ _)]

/-- **`RegisterSink` of an ASCII scheme.**  It is refused as invalid exactly when it is not an
RFC 3986 scheme; an RFC 3986 scheme is stored under its ASCII lower case when that is free, and
then every ASCII case variant of it is refused as a duplicate. -/
theorem registerSink_of_ascii (sr : SinkRegistry) {s : List UInt8} (hs : s ≠ [])
    (hascii : ∀ c ∈ s, c < 0x80) (f : Nat) :
    ((∃ err, sr.registerSink lowerCase s f = .ok (.error (.invalidScheme s err))) ↔ isScheme s = false) ∧
    (isScheme s = true → sr.factories.lookup (s.map asciiLower) = none →
      sr.registerSink lowerCase s f = .ok (.ok ⟨sr.factories ++ [(s.map asciiLower, f)]⟩) ∧
      ∀ s' : List UInt8, s' ≠ [] → (∀ c ∈ s', c < 0x80) → s'.map asciiLower = s.map asciiLower →
        ∀ f', (SinkRegistry.mk (sr.factories ++ [(s.map asciiLower, f)])).registerSink lowerCase s' f' =
          .ok (.error (.alreadyRegistered (s.map asciiLower)))) := by
  obtain ⟨hok, herr⟩ := @normalizeScheme_of_ascii lowerCase s hs hascii
  refine ⟨⟨fun hinvalid => ?_, fun hbad => ?_⟩, fun hgood hfree => ?_⟩
  · -- an RFC 3986 scheme is not refused as invalid
    obtain ⟨err, h⟩ := hinvalid
    by_contra hgood
    rw [registerSink_valid hs (hok (by simpa using hgood))] at h
    by_cases hl : (sr.factories.lookup (s.map asciiLower)).isSome = true
    · rw [if_pos hl] at h
      cases h
    · rw [if_neg hl] at h
      cases h
  · obtain ⟨err, h⟩ := herr hbad
    exact ⟨err, registerSink_invalid hs h f⟩
  · have hstore : sr.registerSink lowerCase s f = .ok (.ok ⟨sr.factories ++ [(s.map asciiLower, f)]⟩) := by
      rw [registerSink_valid hs (hok hgood), if_neg (by simp [hfree])]
    refine ⟨hstore, fun s' hs' hascii' hvar f' => ?_⟩
    -- a case variant lowers to the same string, so it is normalized the same way
    have hlow : toLower lowerCase s = s.map asciiLower := toLower_of_ascii hascii
    have hl : toLower lowerCase s' = toLower lowerCase s := by
      rw [toLower_of_ascii hascii', hvar, hlow]
    have hsame : normalizeScheme lowerCase s' = .ok (.ok (toLower lowerCase s)) := by
      rw [normalizeScheme_congr hl, hlow]
      exact hok hgood
    have hdup := registerSink_duplicate hstore hs' hsame f'
    rwa [hlow] at hdup

/-- **The new registry holds the `file` factory under `"file"`**, whatever the case mapping:
the scheme is ASCII and lower case. -/
theorem newSinkRegistry_eq (file : Nat) : newSinkRegistry lowerCase file = ⟨[(lit "file", file)]⟩ := by
  have hascii : ∀ c ∈ lit "file", c < 0x80 := by decide +kernel
  obtain ⟨-, hok⟩ := @registerSink_of_ascii lowerCase ⟨[]⟩ (lit "file") (by decide) hascii file
  obtain ⟨hstore, -⟩ := hok (by decide) rfl
  rw [newSinkRegistry, hstore]
  rfl

end Register

/-! ## The registry over a run of `RegisterSink` calls -/

/-- One call `RegisterSink(scheme, factory)`: the registry after it, and the error it returns.
A refused call changes nothing. -/
def SinkRegistry.registerStep (lowerCase : Nat → Nat) (sr : SinkRegistry) (call : List UInt8 × Nat) :
    SinkRegistry × Outcome (Option RegisterError) :=
  match sr.registerSink lowerCase call.1 call.2 with
  | .ok (.ok sr') => (sr', .ok none)
  | .ok (.error err) => (sr, .ok (some err))
  | .panic nilRecv v => (sr, .panic nilRecv v)

/-- A program's `RegisterSink` calls on the package's registry, in order. -/
def SinkRegistry.registerSinks (lowerCase : Nat → Nat) :
    SinkRegistry → List (List UInt8 × Nat) → SinkRegistry × List (Outcome (Option RegisterError)) :=
  Mealy.run (SinkRegistry.registerStep lowerCase)

/-- What the calls that returned nil stored: each factory under its lowered scheme. -/
def acceptedEntries (lowerCase : Nat → Nat) :
    List (List UInt8 × Nat) → List (Outcome (Option RegisterError)) → List (List UInt8 × Nat)
  | call :: calls, out :: outs =>
    (if out = .ok none then [(toLower lowerCase call.1, call.2)] else []) ++
      acceptedEntries lowerCase calls outs
  | _, _ => []

section Run

variable {lowerCase : Nat → Nat}

theorem registerSink_ne_panic (sr : SinkRegistry) (s : List UInt8) (f : Nat) (nilRecv : Bool)
    (v : List UInt8) : sr.registerSink lowerCase s f ≠ .panic nilRecv v := by
  intro h
  unfold SinkRegistry.registerSink at h
  split at h
  · cases h
  · next hs =>
    -- only `normalizeScheme` could panic, and it does not on a non-empty scheme
    split at h
    · next b w hn => exact normalizeScheme_ne_panic hs b w hn
    · cases h
    · split at h <;> cases h

/-- **One call**: it returns an error or nil, never panics; one that returns nil stored its
factory under the lowered scheme, which was free; any other left the registry as it was. -/
theorem registerStep_spec (sr : SinkRegistry) (call : List UInt8 × Nat) :
    (∃ err, (sr.registerStep lowerCase call).2 = .ok err) ∧
    if (sr.registerStep lowerCase call).2 = .ok none then
      sr.factories.lookup (toLower lowerCase call.1) = none ∧
        (sr.registerStep lowerCase call).1 = ⟨sr.factories ++ [(toLower lowerCase call.1, call.2)]⟩
    else (sr.registerStep lowerCase call).1 = sr := by
  unfold SinkRegistry.registerStep
  cases h : sr.registerSink lowerCase call.1 call.2 with
  | panic b w => exact absurd h (registerSink_ne_panic sr call.1 call.2 b w)
  | ok r =>
    cases r with
    | error err => exact ⟨⟨some err, rfl⟩, rfl⟩
    | ok sr' =>
      obtain ⟨-, hfree, rfl⟩ := registerSink_ok h
      exact ⟨⟨none, rfl⟩, hfree, rfl⟩

/-- A call keeps the schemes of the registry distinct. -/
theorem registerStep_keyed {sr : SinkRegistry} (hk : Assoc.Keyed sr.factories)
    (call : List UInt8 × Nat) : Assoc.Keyed (sr.registerStep lowerCase call).1.factories := by
  have h := (@registerStep_spec lowerCase sr call).2
  split at h
  · obtain ⟨hfree, heq⟩ := h
    -- the lowered scheme was no key yet, or `lookup` would have found it
    have hnot : toLower lowerCase call.1 ∉ sr.factories.map Prod.fst := fun hm => by
      obtain ⟨kv, hmem, hk⟩ := List.mem_map.mp hm
      have hne := List.lookup_eq_none_iff.mp hfree kv hmem
      simp [hk] at hne
    rw [heq, Assoc.Keyed, List.map_append, List.nodup_append_comm]
    exact List.nodup_cons.mpr ⟨hnot, hk⟩
  · rw [h]
    exact hk

theorem registerSinks_cons (sr : SinkRegistry) (call : List UInt8 × Nat)
    (calls : List (List UInt8 × Nat)) :
    sr.registerSinks lowerCase (call :: calls) =
      (((sr.registerStep lowerCase call).1.registerSinks lowerCase calls).1,
        (sr.registerStep lowerCase call).2 :: ((sr.registerStep lowerCase call).1.registerSinks lowerCase calls).2) :=
  rfl

/-- A run appends to the registry what its calls that returned nil stored. -/
theorem registerSinks_factories (sr : SinkRegistry) (calls : List (List UInt8 × Nat)) :
    (sr.registerSinks lowerCase calls).1.factories =
      sr.factories ++ acceptedEntries lowerCase calls (sr.registerSinks lowerCase calls).2 := by
  induction calls generalizing sr with
  | nil => simp [SinkRegistry.registerSinks, acceptedEntries]
  | cons call calls ih =>
    have h := (@registerStep_spec lowerCase sr call).2
    rw [registerSinks_cons, ih, acceptedEntries]
    split at h
    · next hnil =>
      rw [h.2, if_pos hnil, List.append_assoc]
    · next hnil =>
      rw [h, if_neg hnil, List.nil_append]

/-- **The sink registry over any run of `RegisterSink` calls** from `newSinkRegistry`.  No call
panics.  The registry holds the `file` factory and then, in order, the factory of each call that
returned nil, under its lowered scheme.  No scheme is stored twice, so each keeps the factory of
its first successful registration, and a scheme that lowers to `"file"` is never stored. -/
theorem registerSink_run (lowerCase : Nat → Nat) (file : Nat) (calls : List (List UInt8 × Nat)) :
    (∀ out ∈ ((newSinkRegistry lowerCase file).registerSinks lowerCase calls).2, ∃ err, out = .ok err) ∧
    ((newSinkRegistry lowerCase file).registerSinks lowerCase calls).1.factories =
      (lit "file", file) ::
        acceptedEntries lowerCase calls ((newSinkRegistry lowerCase file).registerSinks lowerCase calls).2 ∧
    Assoc.Keyed ((newSinkRegistry lowerCase file).registerSinks lowerCase calls).1.factories ∧
    ∀ k f, (k, f) ∈ acceptedEntries lowerCase calls
        ((newSinkRegistry lowerCase file).registerSinks lowerCase calls).2 →
      ((newSinkRegistry lowerCase file).registerSinks lowerCase calls).1.factories.lookup k = some f := by
  have hout := Mealy.mem_run_outputs (fun out => ∃ err, out = Outcome.ok err)
    (fun (sr : SinkRegistry) (call : List UInt8 × Nat) => (@registerStep_spec lowerCase sr call).1)
    (newSinkRegistry lowerCase file) calls
  have hkeyed : Assoc.Keyed ((newSinkRegistry lowerCase file).registerSinks lowerCase calls).1.factories :=
    Mealy.run_invariant (fun sr : SinkRegistry => Assoc.Keyed sr.factories) (fun _ => True)
      (fun sr call hk _ => registerStep_keyed hk call)
      (by rw [newSinkRegistry_eq]; exact List.nodup_singleton _) (fun _ _ => trivial)
  have hinit : (newSinkRegistry lowerCase file).factories = [(lit "file", file)] := by
    rw [newSinkRegistry_eq]
  have hfac := @registerSinks_factories lowerCase (newSinkRegistry lowerCase file) calls
  rw [hinit, List.singleton_append] at hfac
  refine ⟨hout, hfac, hkeyed, fun k f hkf => ?_⟩
  rw [Assoc.lookup_eq_some_iff_mem hkeyed, hfac]
  exact List.mem_cons_of_mem _ hkf

end Run

/-! ## A scheme that is not ASCII -/

/-- U+212A KELVIN SIGN, bytes `E2 84 AA`, lowers to `k` under a case mapping that maps it so. -/
theorem toLower_kelvin_sign {lowerCase : Nat → Nat} (hK : lowerCase 0x212A = 0x6B) :
    toLower lowerCase [0xE2, 0x84, 0xAA] = [0x6B] := by
  have hseg : segments [0xE2, 0x84, 0xAA] = [.rune (Char.ofNat 0x212A)] := by
    rw [segments_cons_rune
      (show [0xE2, 0x84, 0xAA] = String.utf8EncodeChar (Char.ofNat 0x212A) ++ [] by decide)]
    simp [segments]
  rw [toLower, if_neg (by decide), map, hseg]
  simp [Seg.toChar, unicodeToLower, hK, appendRune]
  decide

/-- **A scheme that is not ASCII is accepted.**  Unicode lowers U+212A KELVIN SIGN to `k`.  So
the scheme of its bytes `E2 84 AA`, which is not ASCII and so not an RFC 3986 scheme, and whose
ASCII lower case is itself, is accepted by `RegisterSink`, its factory stored under `"k"`. -/
theorem registerSink_kelvin_sign {lowerCase : Nat → Nat} (hK : lowerCase 0x212A = 0x6B)
    (sr : SinkRegistry) (hfree : sr.factories.lookup [0x6B] = none) (f : Nat) :
    isScheme [0xE2, 0x84, 0xAA] = false ∧ [0xE2, 0x84, 0xAA].map asciiLower = [0xE2, 0x84, 0xAA] ∧
      sr.registerSink lowerCase [0xE2, 0x84, 0xAA] f = .ok (.ok ⟨sr.factories ++ [([0x6B], f)]⟩) := by
  refine ⟨by decide, by decide, ?_⟩
  have hnorm : normalizeScheme lowerCase [0xE2, 0x84, 0xAA] = .ok (.ok [0x6B]) := by
    unfold normalizeScheme
    rw [toLower_kelvin_sign hK]
    rfl
  rw [registerSink_valid (by simp) hnorm, if_neg (by simp [hfree])]

theorem registerSink_kelvin_sign_empty :
    (fun r => if r = 0x212A then 0x6B else r : Nat → Nat) 0x212A = 0x6B ∧
      (SinkRegistry.mk []).factories.lookup [0x6B] = none ∧
      isScheme [0xE2, 0x84, 0xAA] = false ∧ [0xE2, 0x84, 0xAA].map asciiLower = [0xE2, 0x84, 0xAA] ∧
      (SinkRegistry.mk []).registerSink (fun r => if r = 0x212A then 0x6B else r) [0xE2, 0x84, 0xAA] 0 =
        .ok (.ok ⟨[([0x6B], 0)]⟩) :=
  ⟨rfl, rfl, @registerSink_kelvin_sign (fun r => if r = 0x212A then 0x6B else r) rfl ⟨[]⟩ rfl 0⟩

end Zap
