import Zap.Zapcore.Field

/-!
# Zap.Sugar — `SugaredLogger.sweetenFields`, the scan of loosely typed key-value pairs

`sweetenFields(args)` scans `args` left to right.  A `Field` is taken as it is and an `error`
alone; otherwise the element is a key and the next one its value: a `string` key makes
`Any(k, v)`, any other key an invalid pair.  A key with nothing after it is logged and the scan
stops.  Errors after the first, the dangling key, and at the end the invalid pairs with their
positions are logged with `s.base.Error`.

The elements are `Arg V`: a `Field`, an `error`, a `string`, or another value of `V`; `Any` is
the function `any`, which dispatches on the whole element.

What the scan consumes at a time is a `ScanUnit`; `Scan args us` is the grammar of the scan, and the
outputs are read off the units (`fieldsOf`, `logsOf`).

* `Scan.args_eq`: every element is consumed once, in order.  `Scan.unique`: the units are unique.
* `Scan.invalid_position`: each invalid pair is listed with the position of its key in `args`.
* `sweetenFields_scan`: `sweetenFields` gives the fields and logs of the scan of its arguments.
-/

namespace Zap

open Go Go.Utf8 Zapcore

variable {V : Type}

/-- An element of `args ...interface{}` as `sweetenFields` tells them apart. -/
inductive Arg (V : Type) where
  | field (f : Field)
  | error (e : GoError)
  | string (s : List UInt8)
  | other (v : V)

/-- `invalidPair`: the position of the key in `args`, the key and the value. -/
structure InvalidPair (V : Type) where
  position : Nat
  key : Arg V
  value : Arg V

/-- `_oddNumberErrMsg` -/
def oddNumberErrMsg : List UInt8 := lit "Ignored key without a value."

/-- `_nonStringKeyErrMsg` -/
def nonStringKeyErrMsg : List UInt8 := lit "Ignored key-value pairs with non-string keys."

/-- `_multipleErrMsg` -/
def multipleErrMsg : List UInt8 := lit "Multiple errors without a key."

/-- `Error(err)`, that is `NamedError("error", err)` of a non-nil `err`. -/
def errorField (e : GoError) : Field := .error (lit "error") e

/-- `multierr.Append(err, e)`: a combined error reads `a; b`. -/
def multierrAppend : Option (List UInt8) → Option (List UInt8) → Option (List UInt8)
  | none, e => e
  | e, none => e
  | some a, some b => some (a ++ lit "; " ++ b)

section Sweeten

-- `Any(key, value)`
variable (any : List UInt8 → Arg V → Field)

/-- `p.MarshalLogObject(enc)` of an `invalidPair`. -/
def InvalidPair.marshalLogObject (p : InvalidPair V) : ObjectMarshaler :=
  .add (lit "position") (.int64 (Int64.ofNat p.position)) <|
    (any (lit "key") p.key).addTo.bind fun _ =>
      (any (lit "value") p.value).addTo.bind fun _ => .done none

/-- `ps.MarshalLogArray(enc)` of `invalidPairs`: every pair, the errors appended. -/
def invalidPairsArray : List (InvalidPair V) → Option (List UInt8) → ArrayMarshaler
  | [], err => .done err
  | p :: ps, err => .appendObject (p.marshalLogObject any) fun e => invalidPairsArray ps (multierrAppend err e)

/-- The locals of `sweetenFields`: the fields so far, the invalid pairs, `seenError`, and the
`s.base.Error(msg, fields...)` calls made. -/
structure SweetenState (V : Type) where
  fields : List Field
  invalid : List (InvalidPair V)
  seenError : Bool
  logs : List (List UInt8 × List Field)

/-- The loop of `sweetenFields` from `args[i:]`. -/
def sweetenLoop (st : SweetenState V) (i : Nat) : List (Arg V) → SweetenState V
  | [] => st
  -- a strongly-typed field is consumed alone
  | .field f :: rest => sweetenLoop { st with fields := st.fields ++ [f] } (i + 1) rest
  -- so is an error: the first becomes a field, the others are logged
  | .error e :: rest =>
    if !st.seenError then sweetenLoop { st with seenError := true, fields := st.fields ++ [errorField e] } (i + 1) rest
    else sweetenLoop { st with logs := st.logs ++ [(multipleErrMsg, [errorField e])] } (i + 1) rest
  -- a dangling key
  | [a] => { st with logs := st.logs ++ [(oddNumberErrMsg, [any (lit "ignored") a])] }
  | key :: val :: rest =>
    match key with
    | .string k => sweetenLoop { st with fields := st.fields ++ [any k val] } (i + 2) rest
    | _ => sweetenLoop { st with invalid := st.invalid ++ [⟨i, key, val⟩] } (i + 2) rest

/-- `s.sweetenFields(args)`: the fields, and the `s.base.Error` calls in the order made. -/
def sweetenFields (args : List (Arg V)) : List Field × List (List UInt8 × List Field) :=
  if args = [] then ([], []) else
  let st := sweetenLoop any ⟨[], [], false, []⟩ 0 args
  (st.fields, st.logs ++
    if st.invalid.isEmpty then []
    else [(nonStringKeyErrMsg, [.arrayMarshaler (lit "invalid") (invalidPairsArray any st.invalid none)])])

end Sweeten

/-! ## The scan -/

/-- What the scan consumes at a time. -/
inductive ScanUnit (V : Type) where
  | field (f : Field)
  | error (e : GoError)
  | pair (k : List UInt8) (v : Arg V)
  | invalidPair (key val : Arg V)
  | dangling (a : Arg V)

/-- The elements a unit consumes. -/
def ScanUnit.args : ScanUnit V → List (Arg V)
  | .field f => [.field f]
  | .error e => [.error e]
  | .pair k v => [.string k, v]
  | .invalidPair key val => [key, val]
  | .dangling a => [a]

/-- Neither a `Field`, an `error` nor a `string`. -/
def Arg.IsOther : Arg V → Prop
  | .other _ => True
  | _ => False

/-- A key: a `string` or another value, not a `Field` or an `error`. -/
def Arg.IsKey : Arg V → Prop
  | .string _ | .other _ => True
  | _ => False

/-- **The grammar of the scan**: a `Field` or an `error` alone; a `string` and the next element; a
non-string key and the next element; a key with nothing after it. -/
inductive Scan : List (Arg V) → List (ScanUnit V) → Prop
  | nil : Scan [] []
  | field {f rest us} : Scan rest us → Scan (.field f :: rest) (.field f :: us)
  | error {e rest us} : Scan rest us → Scan (.error e :: rest) (.error e :: us)
  | pair {k v rest us} : Scan rest us → Scan (.string k :: v :: rest) (.pair k v :: us)
  | invalidPair {key v rest us} : key.IsOther → Scan rest us → Scan (key :: v :: rest) (.invalidPair key v :: us)
  | dangling {a} : a.IsKey → Scan [a] [.dangling a]

section Outputs

variable (any : List UInt8 → Arg V → Field)

/-- The fields of a scan, `seen` telling whether an error came before: each `Field` as it is, the
first standalone error as `Error(e)`, each string-keyed pair as `Any(k, v)`. -/
def fieldsOf : Bool → List (ScanUnit V) → List Field
  | _, [] => []
  | seen, .field f :: us => f :: fieldsOf seen us
  | seen, .error e :: us => (if seen then [] else [errorField e]) ++ fieldsOf true us
  | seen, .pair k v :: us => any k v :: fieldsOf seen us
  | seen, _ :: us => fieldsOf seen us

/-- The logs made during the scan: `_multipleErrMsg` for each error after the first, in order,
and `_oddNumberErrMsg` for a dangling key. -/
def scanLogs : Bool → List (ScanUnit V) → List (List UInt8 × List Field)
  | _, [] => []
  | seen, .error e :: us => (if seen then [(multipleErrMsg, [errorField e])] else []) ++ scanLogs true us
  | seen, .dangling a :: us => (oddNumberErrMsg, [any (lit "ignored") a]) :: scanLogs seen us
  | seen, _ :: us => scanLogs seen us

/-- The invalid pairs of a scan whose first unit starts at element `pos`, with their positions. -/
def invalidOf : Nat → List (ScanUnit V) → List (InvalidPair V)
  | _, [] => []
  | pos, .invalidPair key val :: us => ⟨pos, key, val⟩ :: invalidOf (pos + 2) us
  | pos, u :: us => invalidOf (pos + u.args.length) us

/-- All the logs: those of the scan, then one listing the invalid pairs, if any. -/
def logsOf (us : List (ScanUnit V)) : List (List UInt8 × List Field) :=
  scanLogs any false us ++
    if (invalidOf 0 us).isEmpty then []
    else [(nonStringKeyErrMsg, [.arrayMarshaler (lit "invalid") (invalidPairsArray any (invalidOf 0 us) none)])]

end Outputs

/-! ## The scan's properties -/

section Props

variable {args : List (Arg V)} {us : List (ScanUnit V)}

/-- **Every element is consumed once, in order.** -/
theorem Scan.args_eq (h : Scan args us) : us.flatMap ScanUnit.args = args := by
  induction h with
  | nil => rfl
  | field _ ih => simp [ScanUnit.args, ih]
  | error _ ih => simp [ScanUnit.args, ih]
  | pair _ ih => simp [ScanUnit.args, ih]
  | invalidPair _ _ ih => simp [ScanUnit.args, ih]
  | dangling _ => simp [ScanUnit.args]

/-- **The scan is unique**: at each element one rule of the grammar applies. -/
theorem Scan.unique (h : Scan args us) {us' : List (ScanUnit V)} (h' : Scan args us') : us' = us := by
  induction h generalizing us' with
  | nil => cases h'; rfl
  | field _ ih => cases h' with
    | field h' => rw [ih h']
    | invalidPair ho _ => exact absurd ho id
    | dangling hk => exact absurd hk id
  | error _ ih => cases h' with
    | error h' => rw [ih h']
    | invalidPair ho _ => exact absurd ho id
    | dangling hk => exact absurd hk id
  | pair _ ih => cases h' with
    | pair h' => rw [ih h']
    | invalidPair ho _ => exact absurd ho id
  | invalidPair ho _ ih => cases h' with
    | field _ => exact absurd ho id
    | error _ => exact absurd ho id
    | pair _ => exact absurd ho id
    | invalidPair _ h' => rw [ih h']
  | dangling hk => cases h' with
    | field _ => exact absurd hk id
    | error _ => exact absurd hk id
    | dangling _ => rfl

/-- Every argument list has a scan. -/
theorem Scan.exists : ∀ args : List (Arg V), ∃ us, Scan args us
  | [] => ⟨[], .nil⟩
  | .field _ :: rest => (Scan.exists rest).elim fun _ h => ⟨_, .field h⟩
  | .error _ :: rest => (Scan.exists rest).elim fun _ h => ⟨_, .error h⟩
  | [.string _] => ⟨_, .dangling trivial⟩
  | [.other _] => ⟨_, .dangling trivial⟩
  | .string _ :: _ :: rest => (Scan.exists rest).elim fun _ h => ⟨_, .pair h⟩
  | .other _ :: _ :: rest => (Scan.exists rest).elim fun _ h => ⟨_, .invalidPair trivial h⟩

/-- **Each invalid pair is listed with the position of its key**, the units starting after the
elements `pre`. -/
theorem Scan.invalid_position (h : Scan args us) (pre : List (Arg V)) :
    ∀ p ∈ invalidOf pre.length us, (pre ++ args)[p.position]? = some p.key ∧
      (pre ++ args)[p.position + 1]? = some p.value := by
  induction h generalizing pre with
  | nil => simp [invalidOf]
  | @field f rest us _ ih =>
    intro p hp
    have h := ih (pre ++ [.field f]) p (by simpa [invalidOf, ScanUnit.args] using hp)
    rwa [List.append_assoc, List.singleton_append] at h
  | @error e rest us _ ih =>
    intro p hp
    have h := ih (pre ++ [.error e]) p (by simpa [invalidOf, ScanUnit.args] using hp)
    rwa [List.append_assoc, List.singleton_append] at h
  | @pair k v rest us _ ih =>
    intro p hp
    simpa [List.append_assoc] using ih (pre ++ [.string k, v]) p (by simpa [invalidOf, ScanUnit.args] using hp)
  | @invalidPair key v rest us _ _ ih =>
    intro p hp
    simp only [invalidOf, List.mem_cons] at hp
    rcases hp with rfl | hp
    · -- the pair itself: its key is the element after `pre`
      simp
    · simpa [List.append_assoc] using ih (pre ++ [key, v]) p (by simpa using hp)
  | dangling _ => simp [invalidOf]

end Props

/-! ## The loop against the scan -/

section Loop

variable (any : List UInt8 → Arg V → Field)

/-- **The loop from `args[i:]` adds the fields, invalid pairs and logs of the scan of the rest**,
whatever it had gathered.  Induction on the scan, whose rules are the loop's branches. -/
theorem Scan.sweetenLoop {args : List (Arg V)} {us : List (ScanUnit V)} (h : Scan args us)
    (st : SweetenState V) (i : Nat) :
    (sweetenLoop any st i args).fields = st.fields ++ fieldsOf any st.seenError us ∧
    (sweetenLoop any st i args).invalid = st.invalid ++ invalidOf i us ∧
    (sweetenLoop any st i args).logs = st.logs ++ scanLogs any st.seenError us := by
  induction h generalizing st i with
  | nil => simp [Zap.sweetenLoop, fieldsOf, invalidOf, scanLogs]
  | @field f rest us _ ih =>
    obtain ⟨h₁, h₂, h₃⟩ := ih { st with fields := st.fields ++ [f] } (i + 1)
    simp [Zap.sweetenLoop, fieldsOf, invalidOf, scanLogs, ScanUnit.args, h₁, h₂, h₃]
  | @error e rest us _ ih =>
    -- the first error is a field, the others are logged
    obtain ⟨fields, invalid, seen, logs⟩ := st
    cases seen
    · obtain ⟨h₁, h₂, h₃⟩ := ih ⟨fields ++ [errorField e], invalid, true, logs⟩ (i + 1)
      simp [Zap.sweetenLoop, fieldsOf, invalidOf, scanLogs, ScanUnit.args, h₁, h₂, h₃]
    · obtain ⟨h₁, h₂, h₃⟩ := ih ⟨fields, invalid, true, logs ++ [(multipleErrMsg, [errorField e])]⟩ (i + 1)
      simp [Zap.sweetenLoop, fieldsOf, invalidOf, scanLogs, ScanUnit.args, h₁, h₂, h₃]
  | @pair k v rest us _ ih =>
    obtain ⟨h₁, h₂, h₃⟩ := ih { st with fields := st.fields ++ [any k v] } (i + 2)
    simp [Zap.sweetenLoop, fieldsOf, invalidOf, scanLogs, ScanUnit.args, h₁, h₂, h₃]
  | @invalidPair key v rest us ho _ ih =>
    obtain ⟨h₁, h₂, h₃⟩ := ih { st with invalid := st.invalid ++ [⟨i, key, v⟩] } (i + 2)
    -- the key is neither a `Field`, an `error` nor a `string`
    cases key with
    | other x => simp [Zap.sweetenLoop, fieldsOf, invalidOf, scanLogs, h₁, h₂, h₃]
    | field _ | error _ | string _ => exact absurd ho id
  | @dangling a hk =>
    cases a with
    | string k => simp [Zap.sweetenLoop, fieldsOf, invalidOf, scanLogs]
    | other x => simp [Zap.sweetenLoop, fieldsOf, invalidOf, scanLogs]
    | field _ | error _ => exact absurd hk id

/-- **`sweetenFields` is the scan of its arguments.**  The arguments have exactly one scan, which
consumes every element once and in order; `sweetenFields` returns its fields (each `Field` as it
is, the first standalone error as `Error(e)`, each string-keyed pair as `Any(k, v)`) and makes
its logs (one `_multipleErrMsg` for each later error and one `_oddNumberErrMsg` for a dangling key,
in order, then one `_nonStringKeyErrMsg` listing the invalid pairs iff there is one), each invalid
pair with the position of its key. -/
theorem sweetenFields_scan (args : List (Arg V)) :
    ∃ us, Scan args us ∧ (∀ us', Scan args us' → us' = us) ∧ us.flatMap ScanUnit.args = args ∧
      sweetenFields any args = (fieldsOf any false us, logsOf any us) ∧
      ∀ p ∈ invalidOf 0 us, args[p.position]? = some p.key ∧ args[p.position + 1]? = some p.value := by
  obtain ⟨us, h⟩ := Scan.exists args
  refine ⟨us, h, fun _ h' => h.unique h', h.args_eq, ?_, by simpa using h.invalid_position []⟩
  by_cases hnil : args = []
  · -- no arguments: no units
    subst hnil
    cases h
    simp [sweetenFields, fieldsOf, logsOf, scanLogs, invalidOf]
  · obtain ⟨h₁, h₂, h₃⟩ := h.sweetenLoop any ⟨[], [], false, []⟩ 0
    simp only [sweetenFields, if_neg hnil, logsOf]
    simp only [List.nil_append] at h₁ h₂ h₃
    rw [h₁, h₂, h₃]

end Loop

end Zap
