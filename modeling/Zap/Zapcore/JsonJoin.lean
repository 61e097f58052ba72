import Zap.Lib.Separator
import Zap.Zapcore.JsonEncoder

/-!
# Zap.Zapcore.JsonJoin — what the JSON encoder writes depends only on the last byte

`addElementSeparator` is a `Separator`: it looks at the last byte only.  Every method of the
encoder starts with it, so a method appends the same bytes to any two buffers the separator
treats alike (`Alike`), and a method that begins with a key writes on any buffer what it writes on
an empty one, joined (`JoinLaw`).

* `runArrayLocal`: an array marshaler appends the same to alike buffers.
* `runJoins`: an object marshaler run on a buffer writes what it writes on an empty buffer,
  joined; this is how `EncodeEntry` splices the context a `With` collected.
* `run_bind`, `run_addFields_append`: running one program after another.
-/

namespace Zap.Zapcore

open Go Go.Utf8 Go.Strconv Separator

section Sep

variable (spaced : Bool)

/-- The bytes `addElementSeparator` treats as the end of nothing to separate from. -/
theorem addElementSeparator_append (x c : Buffer) (hc : c ≠ []) :
    addElementSeparator spaced (x ++ c) = x ++ addElementSeparator spaced c := by
  unfold addElementSeparator
  rw [List.getLast?_append_of_ne_nil _ hc]
  cases c.getLast? with
  | none => rfl
  | some b =>
    by_cases hb : b = 0x7B ∨ b = 0x5B ∨ b = 0x3A ∨ b = 0x2C ∨ b = 0x20 <;> cases spaced <;> simp [hb]

theorem addElementSeparator_prefix (b : Buffer) : ∃ s, addElementSeparator spaced b = b ++ s := by
  unfold addElementSeparator
  cases b.getLast? with
  | none => exact ⟨[], by simp⟩
  | some x =>
    by_cases hx : x = 0x7B ∨ x = 0x5B ∨ x = 0x3A ∨ x = 0x2C ∨ x = 0x20 <;> cases spaced <;> simp [hx]

/-- `addElementSeparator` as a separator function. -/
def jsonSeparator : Separator UInt8 where
  sep := addElementSeparator spaced
  sep_nil := rfl
  sep_append := addElementSeparator_append spaced
  sep_prefix := addElementSeparator_prefix spaced

/-- After `{`, `[`, `:`, `,` or a space the separator writes nothing. -/
theorem addElementSeparator_after (x : Buffer) {c : UInt8}
    (hc : c = 0x7B ∨ c = 0x5B ∨ c = 0x3A ∨ c = 0x2C ∨ c = 0x20) :
    addElementSeparator spaced (x ++ [c]) = x ++ [c] := by
  unfold addElementSeparator
  simp [hc]

/-- What `addKey` writes after the separator. -/
def keyBytes (key : List UInt8) : List UInt8 :=
  [0x22] ++ jsonEscape key ++ if spaced then [0x22, 0x3A, 0x20] else [0x22, 0x3A]

theorem keyBytes_ne_nil (key : List UInt8) : keyBytes spaced key ≠ [] := by
  simp [keyBytes]

theorem addKey_eq (buf key : List UInt8) :
    addKey spaced buf key = addElementSeparator spaced buf ++ keyBytes spaced key := by
  cases spaced <;> simp [addKey, keyBytes, safeAddString_eq]

theorem addElementSeparator_addKey (buf key : List UInt8) :
    addElementSeparator spaced (addKey spaced buf key) = addKey spaced buf key := by
  cases spaced
  · have h : addKey false buf key = (addElementSeparator false buf ++ [0x22] ++ jsonEscape key ++
        [0x22]) ++ [0x3A] := by simp [addKey_eq, keyBytes]
    rw [h, addElementSeparator_after false _ (by decide)]
  · have h : addKey true buf key = (addElementSeparator true buf ++ [0x22] ++ jsonEscape key ++
        [0x22, 0x3A]) ++ [0x20] := by simp [addKey_eq, keyBytes]
    rw [h, addElementSeparator_after true _ (by decide)]

theorem joinLaw_addKey (key : List UInt8) :
    JoinLaw (jsonSeparator spaced) (fun b => addKey spaced b key) := by
  intro b
  show addKey spaced b key = (jsonSeparator spaced).join b (addKey spaced [] key)
  rw [addKey_eq, addKey_eq]
  exact joinLaw_sep_append (jsonSeparator spaced) (keyBytes_ne_nil spaced key) b

/-- A local writer after a key obeys the join law. -/
theorem joinLaw_after_addKey {w : Buffer → Buffer} (hw : Local (jsonSeparator spaced) w)
    (key : List UInt8) : JoinLaw (jsonSeparator spaced) (fun b => w (addKey spaced b key)) := by
  intro b
  show w (addKey spaced b key) = (jsonSeparator spaced).join b (w (addKey spaced [] key))
  rw [addKey_eq, addKey_eq]
  exact hw.joinLaw_after (jsonSeparator spaced) (keyBytes_ne_nil spaced key) b

end Sep

/-! ## The methods are local -/

section Methods

variable (cfg : EncoderConfig) (spaced : Bool) (std : GoStd)

theorem appendString_eq (buf val : List UInt8) :
    appendString spaced buf val = addElementSeparator spaced buf ++ ([0x22] ++ jsonEscape val ++ [0x22]) := by
  simp [appendString, safeAddString_eq]

theorem appendByteString_eq (buf val : List UInt8) :
    appendByteString spaced buf val =
      addElementSeparator spaced buf ++ ([0x22] ++ jsonEscape val ++ [0x22]) := by
  simp [appendByteString, safeAddByteString_eq, safeAddString_eq]

theorem appendTimeLayout_eq (buf : Buffer) (t : Time) (layout : List UInt8) :
    appendTimeLayout spaced std buf t layout =
      addElementSeparator spaced buf ++ ([0x22] ++ std.format t layout ++ [0x22]) := by
  simp [appendTimeLayout]

theorem appendFloat_eq (buf : Buffer) (val : UInt64) (bitSize : Nat) :
    appendFloat spaced std buf val bitSize = addElementSeparator spaced buf ++
      (if isNaN64 val then [0x22] ++ lit "NaN" ++ [0x22]
      else if isInf64 val true then [0x22] ++ lit "+Inf" ++ [0x22]
      else if isInf64 val false then [0x22] ++ lit "-Inf" ++ [0x22]
      else std.formatFloat val bitSize) := by
  unfold appendFloat
  split_ifs <;> simp

theorem appendComplex_eq (buf : Buffer) (re im : UInt64) (precision : Nat) :
    appendComplex spaced std buf re im precision = addElementSeparator spaced buf ++
      ([0x22] ++ std.formatFloat re precision ++ (if nonNeg64 im then [0x2B] else []) ++
        std.formatFloat im precision ++ [0x69, 0x22]) := by
  unfold appendComplex
  split_ifs <;> simp

theorem local_appendPrim (c : PrimitiveCall) :
    Local (jsonSeparator spaced) (fun b => appendPrim spaced std b c) := by
  cases c with
  | appendBool v => exact local_sep_append _ fun b => rfl
  | appendByteString v => exact local_sep_append _ fun b => appendByteString_eq spaced b v
  | appendComplex128 re im => exact local_sep_append _ fun b => appendComplex_eq spaced std b re im 64
  | appendComplex64 re im => exact local_sep_append _ fun b => appendComplex_eq spaced std b _ _ 32
  | appendFloat64 v => exact local_sep_append _ fun b => appendFloat_eq spaced std b v 64
  | appendFloat32 v => exact local_sep_append _ fun b => appendFloat_eq spaced std b _ 32
  | appendInt64 v => exact local_sep_append _ fun b => rfl
  | appendString v => exact local_sep_append _ fun b => appendString_eq spaced b v
  | appendUint64 v => exact local_sep_append _ fun b => rfl
  | appendTimeLayout t layout =>
    exact local_sep_append _ fun b => appendTimeLayout_eq spaced std b t layout

theorem local_appendCalls (calls : List PrimitiveCall) :
    Local (jsonSeparator spaced) (fun b => appendCalls spaced std b calls) :=
  Local.foldl _ (local_appendPrim spaced std) calls

theorem local_appendInt64 (val : Int64) : Local (jsonSeparator spaced) (fun b => appendInt64 spaced b val) :=
  local_sep_append _ fun _ => rfl

theorem local_appendDuration (val : Int64) :
    Local (jsonSeparator spaced) (fun b => appendDuration cfg spaced std b val) :=
  Local.orElse _ (local_appendCalls spaced std _) (local_appendInt64 spaced val)

theorem local_appendTime (val : Time) :
    Local (jsonSeparator spaced) (fun b => appendTime cfg spaced std b val) :=
  Local.orElse _ (local_appendCalls spaced std _) (local_appendInt64 spaced _)

theorem joinLaw_addValue (key : List UInt8) (v : AddValue) :
    JoinLaw (jsonSeparator spaced) (fun b => addValue cfg spaced std b key v) := by
  cases v with
  | binary v => exact joinLaw_after_addKey spaced (local_appendPrim spaced std (.appendString _)) key
  | byteString v => exact joinLaw_after_addKey spaced (local_appendPrim spaced std (.appendByteString v)) key
  | bool v => exact joinLaw_after_addKey spaced (local_appendPrim spaced std (.appendBool v)) key
  | complex128 re im =>
    exact joinLaw_after_addKey spaced (local_appendPrim spaced std (.appendComplex128 re im)) key
  | complex64 re im =>
    exact joinLaw_after_addKey spaced (local_appendPrim spaced std (.appendComplex64 re im)) key
  | duration v => exact joinLaw_after_addKey spaced (local_appendDuration cfg spaced std v) key
  | float64 v => exact joinLaw_after_addKey spaced (local_appendPrim spaced std (.appendFloat64 v)) key
  | float32 v => exact joinLaw_after_addKey spaced (local_appendPrim spaced std (.appendFloat32 v)) key
  | int64 v => exact joinLaw_after_addKey spaced (local_appendPrim spaced std (.appendInt64 v)) key
  | int32 v | int16 v | int8 v =>
    exact joinLaw_after_addKey spaced (local_appendPrim spaced std (.appendInt64 v.toInt64)) key
  | string v => exact joinLaw_after_addKey spaced (local_appendPrim spaced std (.appendString v)) key
  | time v => exact joinLaw_after_addKey spaced (local_appendTime cfg spaced std v) key
  | uint64 v => exact joinLaw_after_addKey spaced (local_appendPrim spaced std (.appendUint64 v)) key
  | uint32 v | uint16 v | uint8 v =>
    exact joinLaw_after_addKey spaced (local_appendPrim spaced std (.appendUint64 v.toUInt64)) key
  | uintptr v => exact joinLaw_after_addKey spaced (local_appendPrim spaced std (.appendUint64 v)) key

theorem addKey_ne_nil (buf key : List UInt8) : addKey spaced buf key ≠ [] := by
  simp [addKey_eq, keyBytes_ne_nil]

/-- After the brace of `AppendObject`, the object's members follow with nothing in between. -/
theorem join_after_brace (x d : Buffer) :
    (jsonSeparator spaced).join (x ++ [0x7B]) d = x ++ [0x7B] ++ d :=
  join_of_sep_eq _ (addElementSeparator_after spaced x (by decide)) d

/-! ## Marshalers run on alike buffers -/

/-- Running `p` on a buffer writes what it writes on an empty one, joined, and adds to
`openNamespaces` what it adds there. -/
def RunJoins (p : ObjectMarshaler) : Prop :=
  ∀ b n, JsonEncoder.run cfg spaced std p ⟨b, n⟩ =
    (⟨(jsonSeparator spaced).join b (JsonEncoder.run cfg spaced std p ⟨[], 0⟩).1.buf,
      n + (JsonEncoder.run cfg spaced std p ⟨[], 0⟩).1.openNamespaces⟩,
      (JsonEncoder.run cfg spaced std p ⟨[], 0⟩).2)

/-- Running `q` on alike buffers appends the same bytes and returns the same error, whatever
`openNamespaces` is, and leaves that count as it is. -/
def RunArrayLocal (q : ArrayMarshaler) : Prop :=
  ∀ b₁ b₂ n₁ n₂, Alike (jsonSeparator spaced) b₁ b₂ → ∃ e r,
    JsonEncoder.runArray cfg spaced std q ⟨b₁, n₁⟩ = (⟨b₁ ++ e, n₁⟩, r) ∧
    JsonEncoder.runArray cfg spaced std q ⟨b₂, n₂⟩ = (⟨b₂ ++ e, n₂⟩, r)

variable {cfg spaced std}

/-- One writer, then a program that joins: the whole joins. -/
theorem RunJoins.after {w : Buffer → Buffer} (hw : JoinLaw (jsonSeparator spaced) w) (δ : Nat)
    {p : ObjectMarshaler} (hp : RunJoins cfg spaced std p) (b : Buffer) (n : Nat) :
    JsonEncoder.run cfg spaced std p ⟨w b, n + δ⟩ =
      (⟨(jsonSeparator spaced).join b (JsonEncoder.run cfg spaced std p ⟨w [], δ⟩).1.buf,
        n + (JsonEncoder.run cfg spaced std p ⟨w [], δ⟩).1.openNamespaces⟩,
        (JsonEncoder.run cfg spaced std p ⟨w [], δ⟩).2) := by
  rw [hp (w b), hp (w []), hw b, join_assoc]
  simp only [Prod.mk.injEq, JsonEncoder.mk.injEq, true_and, and_true]
  omega

/-- One local writer, then a program that is local: the whole is local. -/
theorem RunArrayLocal.after {w : Buffer → Buffer} (hw : Local (jsonSeparator spaced) w)
    {q : ArrayMarshaler} (hq : RunArrayLocal cfg spaced std q) {b₁ b₂ : Buffer} (n₁ n₂ : Nat)
    (hb : Alike (jsonSeparator spaced) b₁ b₂) : ∃ e r,
      JsonEncoder.runArray cfg spaced std q ⟨w b₁, n₁⟩ = (⟨b₁ ++ e, n₁⟩, r) ∧
      JsonEncoder.runArray cfg spaced std q ⟨w b₂, n₂⟩ = (⟨b₂ ++ e, n₂⟩, r) := by
  obtain ⟨d, hd₁, hd₂⟩ := hw b₁ b₂ hb
  obtain ⟨e, r, h₁, h₂⟩ := hq (b₁ ++ d) (b₂ ++ d) n₁ n₂ (hb.append _ d)
  exact ⟨d ++ e, r, by rw [hd₁, h₁, List.append_assoc], by rw [hd₂, h₂, List.append_assoc]⟩

variable (cfg spaced std)

mutual

theorem runJoins : ∀ p : ObjectMarshaler, RunJoins cfg spaced std p
  | .done e => fun b n => by simp [JsonEncoder.run]
  | .add key v k => fun b n => by
    have h := RunJoins.after (joinLaw_addValue cfg spaced std key v) 0 (runJoins k) b n
    simpa [JsonEncoder.run] using h
  | .openNamespace key k => fun b n => by
    have hw := JoinLaw.append_right _ (joinLaw_addKey spaced key) (addKey_ne_nil spaced [] key) [0x7B]
    have h := RunJoins.after hw 1 (runJoins k) b n
    simpa [JsonEncoder.run, JsonEncoder.openNamespace] using h
  | .addReflected key v k => fun b n => by
    cases hr : encodeReflected cfg std v with
    | error e =>
      simp only [JsonEncoder.run, hr]
      exact runJoins (k (some e)) b n
    | ok bs =>
      have hw := JoinLaw.append_right _ (joinLaw_addKey spaced key) (addKey_ne_nil spaced [] key) bs
      have h := RunJoins.after hw 0 (runJoins (k none)) b n
      simpa [JsonEncoder.run, hr] using h
  | .addArray key arr k => fun b n => by
    obtain ⟨e, r, h₁, h₂⟩ := runArrayLocal arr (addKey spaced b key ++ [0x5B])
      (addKey spaced [] key ++ [0x5B]) n 0 (alike_append_of_ne_nil _ _ _ (by simp))
    have hw := JoinLaw.append_right _ (joinLaw_addKey spaced key) (addKey_ne_nil spaced [] key)
      ([0x5B] ++ e ++ [0x5D])
    have h := RunJoins.after hw 0 (runJoins (k r)) b n
    simp only [JsonEncoder.run, JsonEncoder.openArray, addElementSeparator_addKey, h₁, h₂,
      JsonEncoder.closeArray]
    simpa using h
  | .addObject key obj k => fun b n => by
    have hin : ∀ b', JsonEncoder.run cfg spaced std obj ⟨addKey spaced b' key ++ [0x7B], 0⟩ =
        (⟨addKey spaced b' key ++ [0x7B] ++ (JsonEncoder.run cfg spaced std obj ⟨[], 0⟩).1.buf,
          (JsonEncoder.run cfg spaced std obj ⟨[], 0⟩).1.openNamespaces⟩,
          (JsonEncoder.run cfg spaced std obj ⟨[], 0⟩).2) := fun b' => by
      rw [runJoins obj, join_after_brace, Nat.zero_add]
    have hw := JoinLaw.append_right _ (joinLaw_addKey spaced key) (addKey_ne_nil spaced [] key)
      ([0x7B] ++ (JsonEncoder.run cfg spaced std obj ⟨[], 0⟩).1.buf ++ [0x7D] ++
        List.replicate (JsonEncoder.run cfg spaced std obj ⟨[], 0⟩).1.openNamespaces 0x7D)
    have h := RunJoins.after hw 0 (runJoins (k (JsonEncoder.run cfg spaced std obj ⟨[], 0⟩).2)) b n
    simp only [JsonEncoder.run, JsonEncoder.openObject, addElementSeparator_addKey, hin,
      JsonEncoder.closeObject, JsonEncoder.closeOpenNamespaces]
    simpa using h

theorem runArrayLocal : ∀ q : ArrayMarshaler, RunArrayLocal cfg spaced std q
  | .done e => fun b₁ b₂ n₁ n₂ _ => ⟨[], e, by simp [JsonEncoder.runArray], by simp [JsonEncoder.runArray]⟩
  | .prim c k => fun b₁ b₂ n₁ n₂ hb => by
    simpa [JsonEncoder.runArray] using
      RunArrayLocal.after (local_appendPrim spaced std c) (runArrayLocal k) n₁ n₂ hb
  | .appendDuration v k => fun b₁ b₂ n₁ n₂ hb => by
    simpa [JsonEncoder.runArray] using
      RunArrayLocal.after (local_appendDuration cfg spaced std v) (runArrayLocal k) n₁ n₂ hb
  | .appendTime v k => fun b₁ b₂ n₁ n₂ hb => by
    simpa [JsonEncoder.runArray] using
      RunArrayLocal.after (local_appendTime cfg spaced std v) (runArrayLocal k) n₁ n₂ hb
  | .appendReflected v k => fun b₁ b₂ n₁ n₂ hb => by
    cases hr : encodeReflected cfg std v with
    | error e =>
      simp only [JsonEncoder.runArray, hr]
      exact runArrayLocal (k (some e)) b₁ b₂ n₁ n₂ hb
    | ok bs =>
      simpa [JsonEncoder.runArray, hr, jsonSeparator] using
        RunArrayLocal.after (local_sep_append (jsonSeparator spaced) (fun _ => rfl))
          (runArrayLocal (k none)) n₁ n₂ hb
  | .appendArray arr k => fun b₁ b₂ n₁ n₂ hb => by
    have ⟨s, hs₁, hs₂⟩ := hb
    obtain ⟨e, r, h₁, h₂⟩ := runArrayLocal arr (b₁ ++ s ++ [0x5B]) (b₂ ++ s ++ [0x5B]) n₁ n₂
      (alike_append_of_ne_nil _ _ _ (by simp))
    obtain ⟨e', r', h₁', h₂'⟩ := runArrayLocal (k r) (b₁ ++ (s ++ [0x5B] ++ e ++ [0x5D]))
      (b₂ ++ (s ++ [0x5B] ++ e ++ [0x5D])) n₁ n₂ (hb.append _ _)
    refine ⟨s ++ [0x5B] ++ e ++ [0x5D] ++ e', r', ?_, ?_⟩
    · have hs : addElementSeparator spaced b₁ = b₁ ++ s := hs₁
      simp only [JsonEncoder.runArray, JsonEncoder.openArray, hs, h₁, JsonEncoder.closeArray]
      simpa using h₁'
    · have hs : addElementSeparator spaced b₂ = b₂ ++ s := hs₂
      simp only [JsonEncoder.runArray, JsonEncoder.openArray, hs, h₂, JsonEncoder.closeArray]
      simpa using h₂'
  | .appendObject obj k => fun b₁ b₂ n₁ n₂ hb => by
    have ⟨s, hs₁, hs₂⟩ := hb
    have hin : ∀ b', JsonEncoder.run cfg spaced std obj ⟨b' ++ [0x7B], 0⟩ =
        (⟨b' ++ [0x7B] ++ (JsonEncoder.run cfg spaced std obj ⟨[], 0⟩).1.buf,
          (JsonEncoder.run cfg spaced std obj ⟨[], 0⟩).1.openNamespaces⟩,
          (JsonEncoder.run cfg spaced std obj ⟨[], 0⟩).2) := fun b' => by
      rw [runJoins obj, join_after_brace, Nat.zero_add]
    -- the object as it is written on an empty buffer: its members, its namespaces, its error
    generalize JsonEncoder.run cfg spaced std obj ⟨[], 0⟩ = R at hin
    obtain ⟨⟨D, N⟩, r⟩ := R
    obtain ⟨e, r', h₁, h₂⟩ := runArrayLocal (k r)
      (b₁ ++ (s ++ [0x7B] ++ D ++ [0x7D] ++ List.replicate N 0x7D))
      (b₂ ++ (s ++ [0x7B] ++ D ++ [0x7D] ++ List.replicate N 0x7D)) n₁ n₂ (hb.append _ _)
    refine ⟨s ++ [0x7B] ++ D ++ [0x7D] ++ List.replicate N 0x7D ++ e, r', ?_, ?_⟩
    · have hs : addElementSeparator spaced b₁ = b₁ ++ s := hs₁
      simp only [JsonEncoder.runArray, JsonEncoder.openObject, hs, hin, JsonEncoder.closeObject,
        JsonEncoder.closeOpenNamespaces]
      simpa using h₁
    · have hs : addElementSeparator spaced b₂ = b₂ ++ s := hs₂
      simp only [JsonEncoder.runArray, JsonEncoder.openObject, hs, hin, JsonEncoder.closeObject,
        JsonEncoder.closeOpenNamespaces]
      simpa using h₂

end

/-! ## One program after another -/

theorem run_bind : ∀ (p : ObjectMarshaler) (f : Option (List UInt8) → ObjectMarshaler)
    (enc : JsonEncoder), JsonEncoder.run cfg spaced std (p.bind f) enc =
      JsonEncoder.run cfg spaced std (f (JsonEncoder.run cfg spaced std p enc).2)
        (JsonEncoder.run cfg spaced std p enc).1
  | .done _, _, _ => rfl
  | .addArray key arr k, f, enc => by
    simp only [ObjectMarshaler.bind, JsonEncoder.run]
    exact run_bind (k _) f _
  | .addObject key obj k, f, enc => by
    simp only [ObjectMarshaler.bind, JsonEncoder.run]
    exact run_bind (k _) f _
  | .addReflected key v k, f, enc => by
    simp only [ObjectMarshaler.bind, JsonEncoder.run]
    cases encodeReflected cfg std v with
    | error e => exact run_bind (k (some e)) f _
    | ok bs => exact run_bind (k none) f _
  | .add key v k, f, enc => by
    simp only [ObjectMarshaler.bind, JsonEncoder.run]
    exact run_bind k f _
  | .openNamespace key k, f, enc => by
    simp only [ObjectMarshaler.bind, JsonEncoder.run]
    exact run_bind k f _

theorem run_addFields_append (fs gs : List Field) (enc : JsonEncoder) :
    JsonEncoder.run cfg spaced std (addFields (fs ++ gs)) enc =
      JsonEncoder.run cfg spaced std (addFields gs) (JsonEncoder.run cfg spaced std (addFields fs) enc).1 := by
  rw [addFields_append, run_bind]

end Methods

end Zap.Zapcore
