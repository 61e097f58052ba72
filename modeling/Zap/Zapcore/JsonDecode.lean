import Zap.Json.Reader
import Zap.Zapcore.ConsoleEncoder
import Zap.Go.Atof

/-!
# Zap.Zapcore.JsonDecode — the JSON encoder means what the map encoder records

The JSON encoder writes an object as it goes: a namespace leaves its brace open and counts it,
and `AppendObject` closes those opened inside it.  The map encoder stores the same calls in Go
maps, a namespace moving `cur` into a fresh map.  Read with `Json.Reader`, the JSON encoder's
buffer is a stack of open objects; the map encoder's `Fields` are that stack closed, and `cur`
the keys of the namespaces on it (`Sim`).  Each call keeps the relation.

* `Field.InFragment`: the field types, and the UTF-8 keys and texts, for which this holds.
* `objSim`, `arrSim`: the two encoders run a marshaler of the fragment in step.
* `encodeEntry_decode_mapFields`: with no entry keys, the output of `EncodeEntry`, less its line
  ending, decodes to what the map encoder records for the same fields.
* `encodeEntry_timeLayout_quote`: with `TimeEncoderOfLayout("\"")` it is no JSON text.
* `appendComplex_nonfinite_imag_unparsable`: a complex number whose imaginary part is NaN or
  `+Inf` is written as a text `ParseComplex` rejects.
-/

namespace Zap.Zapcore

open Go Go.Utf8 Go.Strconv Json

/-! ## The fragment -/

/-- The text of a returned error, if any, is valid UTF-8. -/
def ErrValid (e : Option (List UInt8)) : Prop := ∀ s, e = some s → Valid s

/-- The text `Error()` or `String()` returned, or the panic it raised, is valid UTF-8. -/
def OutcomeValid : Outcome (List UInt8) → Prop
  | .ok s => Valid s
  | .panic _ v => Valid v

/-- `AddString`, `AddByteString`, `AddBool` and the integer `Add*` calls, with valid text. -/
def AddValue.Plain : AddValue → Prop
  | .byteString v => Valid v
  | .bool _ => True
  | .int64 _ | .int32 _ | .int16 _ | .int8 _ => True
  | .string v => Valid v
  | .uint64 _ | .uint32 _ | .uint16 _ | .uint8 _ | .uintptr _ => True
  | _ => False

/-- The `Append*` calls of the same kinds. -/
def PrimitiveCall.Plain : PrimitiveCall → Prop
  | .appendBool _ => True
  | .appendByteString v => Valid v
  | .appendInt64 _ => True
  | .appendString v => Valid v
  | .appendUint64 _ => True
  | _ => False

mutual

/-- A marshaler that makes only these calls, nested objects and arrays and namespaces, with
valid UTF-8 keys, whatever valid errors it is handed back, and returns a valid error. -/
def ObjectMarshaler.Plain : ObjectMarshaler → Prop
  | .done e => ErrValid e
  | .addArray key arr k => Valid key ∧ arr.Plain ∧ ∀ e, ErrValid e → (k e).Plain
  | .addObject key obj k => Valid key ∧ obj.Plain ∧ ∀ e, ErrValid e → (k e).Plain
  | .addReflected _ _ _ => False
  | .add key v k => Valid key ∧ v.Plain ∧ k.Plain
  | .openNamespace key k => Valid key ∧ k.Plain

def ArrayMarshaler.Plain : ArrayMarshaler → Prop
  | .done e => ErrValid e
  | .appendArray arr k => arr.Plain ∧ ∀ e, ErrValid e → (k e).Plain
  | .appendObject obj k => obj.Plain ∧ ∀ e, ErrValid e → (k e).Plain
  | .appendReflected _ _ => False
  | .appendDuration _ _ => False
  | .appendTime _ _ => False
  | .prim c k => c.Plain ∧ k.Plain

end

mutual

/-- An error whose texts, and those of the errors of its group, are valid UTF-8. -/
def GoError.Plain : GoError → Prop
  | .basic text verbose => OutcomeValid text ∧ ∀ v, verbose = some v → Valid v
  | .group text errs => OutcomeValid text ∧ GoError.PlainAll errs

def GoError.PlainAll : List (Option GoError) → Prop
  | [] => True
  | none :: errs => GoError.PlainAll errs
  | some e :: errs => e.Plain ∧ GoError.PlainAll errs

end

/-- String, ByteString, Bool, the integers, Stringer, Error, Namespace, Skip, Object, Array and
Inline fields (a Dict is an Object), with valid UTF-8 keys and texts. -/
def Field.InFragment : Field → Prop
  | .arrayMarshaler key v => Valid key ∧ v.Plain
  | .objectMarshaler key v => Valid key ∧ v.Plain
  | .inlineMarshaler v => v.Plain
  | .bool key _ => Valid key
  | .byteString key v => Valid key ∧ Valid v
  | .int64 key _ | .int32 key _ | .int16 key _ | .int8 key _ => Valid key
  | .string key v => Valid key ∧ Valid v
  | .uint64 key _ | .uint32 key _ | .uint16 key _ | .uint8 key _ | .uintptr key _ => Valid key
  | .namespace key => Valid key
  | .stringer key v => Valid key ∧ OutcomeValid v
  | .error key v => Valid key ∧ v.Plain
  | .skip => True
  | _ => False

theorem valid_lit (s : String) : Valid (lit s) := ⟨s.toList, rfl⟩

theorem errValid_none : ErrValid none := fun _ h => nomatch h

theorem ObjectMarshaler.plain_bind : ∀ (p : ObjectMarshaler) (f : Option (List UInt8) → ObjectMarshaler),
    p.Plain → (∀ e, ErrValid e → (f e).Plain) → (p.bind f).Plain
  | .done _, _, hp, hf => hf _ hp
  | .addArray _ _ k, f, ⟨hkey, ha, hk⟩, hf => ⟨hkey, ha, fun e he => plain_bind (k e) f (hk e he) hf⟩
  | .addObject _ _ k, f, ⟨hkey, ho, hk⟩, hf => ⟨hkey, ho, fun e he => plain_bind (k e) f (hk e he) hf⟩
  | .addReflected _ _ _, _, hp, _ => hp.elim
  | .add _ _ k, f, ⟨hkey, hv, hk⟩, hf => ⟨hkey, hv, plain_bind k f hk hf⟩
  | .openNamespace _ k, f, ⟨hkey, hk⟩, hf => ⟨hkey, plain_bind k f hk hf⟩

theorem plain_addErrorField {key : List UInt8} (hkey : Valid key) :
    ∀ e, ErrValid e → (addErrorField key e).Plain
  | none, _ => errValid_none
  | some s, he => ⟨hkey.append (valid_lit _), he s rfl, errValid_none⟩

theorem plain_recovered {key v : List UInt8} (hkey : Valid key) (hv : Valid v) (nilRecv : Bool) :
    (recovered key nilRecv v).Plain := by
  cases nilRecv
  · -- the panic becomes the returned error
    rintro s ⟨⟩
    exact (valid_lit _).append hv
  · exact ⟨hkey, valid_lit _, errValid_none⟩

mutual

theorem plain_encodeError {key : List UInt8} (hkey : Valid key) :
    ∀ err : GoError, err.Plain → (encodeError key err).Plain
  | .basic (.ok basic) verbose, ⟨hb, hv⟩ => by
    refine ⟨hkey, hb, ?_⟩
    cases verbose with
    | none => exact errValid_none
    | some v =>
      show ObjectMarshaler.Plain (if v ≠ basic then _ else _)
      split_ifs
      · exact ⟨hkey.append (valid_lit _), hv v rfl, errValid_none⟩
      · exact errValid_none
  | .group (.ok basic) errs, ⟨hb, hs⟩ =>
    ⟨hkey, hb, hkey.append (valid_lit _), plain_errArray errs hs, fun _ he => he⟩
  | .basic (.panic nilRecv v) _, ⟨hv, _⟩ => plain_recovered hkey hv nilRecv
  | .group (.panic nilRecv v) _, ⟨hv, _⟩ => plain_recovered hkey hv nilRecv

theorem plain_errArray : ∀ errs : List (Option GoError), GoError.PlainAll errs → (errArray errs).Plain
  | [], _ => errValid_none
  | none :: errs, hs => plain_errArray errs hs
  | some e :: errs, ⟨he, hs⟩ => by
    refine ⟨plain_encodeError (valid_lit _) e he, ?_⟩
    rintro (_ | m) hm
    · exact plain_errArray errs hs
    · exact hm

end

theorem plain_addTo : ∀ f : Field, f.InFragment → f.addTo.Plain
  | .arrayMarshaler _ _, ⟨hkey, hv⟩ => ⟨hkey, hv, plain_addErrorField hkey⟩
  | .objectMarshaler _ _, ⟨hkey, hv⟩ => ⟨hkey, hv, plain_addErrorField hkey⟩
  | .inlineMarshaler v, hv => v.plain_bind _ hv (plain_addErrorField valid_nil)
  | .bool _ _, hkey => ⟨hkey, trivial, errValid_none⟩
  | .byteString _ _, ⟨hkey, hv⟩ => ⟨hkey, hv, errValid_none⟩
  | .int64 _ _, hkey => ⟨hkey, trivial, errValid_none⟩
  | .int32 _ _, hkey => ⟨hkey, trivial, errValid_none⟩
  | .int16 _ _, hkey => ⟨hkey, trivial, errValid_none⟩
  | .int8 _ _, hkey => ⟨hkey, trivial, errValid_none⟩
  | .string _ _, ⟨hkey, hv⟩ => ⟨hkey, hv, errValid_none⟩
  | .uint64 _ _, hkey => ⟨hkey, trivial, errValid_none⟩
  | .uint32 _ _, hkey => ⟨hkey, trivial, errValid_none⟩
  | .uint16 _ _, hkey => ⟨hkey, trivial, errValid_none⟩
  | .uint8 _ _, hkey => ⟨hkey, trivial, errValid_none⟩
  | .uintptr _ _, hkey => ⟨hkey, trivial, errValid_none⟩
  | .namespace _, hkey => ⟨hkey, errValid_none⟩
  | .stringer _ (.ok _), ⟨hkey, hs⟩ =>
    ObjectMarshaler.plain_bind _ _ ⟨hkey, hs, errValid_none⟩ (plain_addErrorField hkey)
  | .stringer _ (.panic nilRecv _), ⟨hkey, hv⟩ =>
    ObjectMarshaler.plain_bind _ _ (plain_recovered hkey hv nilRecv) (plain_addErrorField hkey)
  | .error _ err, ⟨hkey, he⟩ =>
    ObjectMarshaler.plain_bind _ _ (plain_encodeError hkey err he) (plain_addErrorField hkey)
  | .skip, _ => errValid_none

theorem plain_addFields : ∀ fs : List Field, (∀ f ∈ fs, f.InFragment) → (addFields fs).Plain
  | [], _ => errValid_none
  | f :: fs, h =>
    ObjectMarshaler.plain_bind _ _ (plain_addTo f (h f List.mem_cons_self))
      fun _ _ => plain_addFields fs fun g hg => h g (List.mem_cons_of_mem f hg)

/-! ## What the map encoder stores, as JSON -/

mutual

/-- A value the map encoder stores, as JSON: maps as objects, slices as arrays, integers by
value.  The other kinds are outside the fragment: the JSON encoder writes them through `GoStd`
and the callbacks, and they have no counterpart here. -/
def MapVal.toJson : MapVal → Value
  | .string v => .string v
  | .bool v => .bool v
  | .int64 v => .number v.toInt
  | .int32 v => .number v.toInt
  | .int16 v => .number v.toInt
  | .int8 v => .number v.toInt
  | .uint64 v => .number v.toNat
  | .uint32 v => .number v.toNat
  | .uint16 v => .number v.toNat
  | .uint8 v => .number v.toNat
  | .uintptr v => .number v.toNat
  | .int v => .number v.toInt
  | .uint v => .number v.toNat
  | .map fields => .object (toJsonFields fields)
  | .list elems => .array (toJsonList elems)
  | _ => .null

def toJsonFields : List (List UInt8 × MapVal) → Members
  | [] => []
  | (k, v) :: fs => (k, v.toJson) :: toJsonFields fs

def toJsonList : List MapVal → List Value
  | [] => []
  | v :: vs => v.toJson :: toJsonList vs

end

theorem toJsonList_append (vs : List MapVal) (v : MapVal) :
    toJsonList (vs ++ [v]) = toJsonList vs ++ [v.toJson] := by
  induction vs with
  | nil => rfl
  | cons w vs ih => simp [toJsonList, ih]

theorem toJsonFields_mapSet (m : List (List UInt8 × MapVal)) (k : List UInt8) (v : MapVal) :
    toJsonFields (mapSet m k v) = Json.insert (toJsonFields m) k v.toJson := by
  induction m with
  | nil => rfl
  | cons kv m ih =>
    obtain ⟨k', v'⟩ := kv
    by_cases h : k' = k
    · simp [mapSet, toJsonFields, Json.insert, h]
    · simp [mapSet, toJsonFields, Json.insert, h, ih]

theorem lookup_toJsonFields (m : List (List UInt8 × MapVal)) (p : List UInt8) :
    lookup (toJsonFields m) p = (mapGet m p).map MapVal.toJson := by
  induction m with
  | nil => rfl
  | cons kv m ih =>
    obtain ⟨k', v'⟩ := kv
    by_cases h : k' = p
    · simp [toJsonFields, lookup, mapGet, h]
    · simp only [toJsonFields, lookup, h, if_false, ih, mapGet, List.find?_cons]
      simp

theorem toJsonFields_setAt (m : List (List UInt8 × MapVal)) (path : List (List UInt8))
    (k : List UInt8) (v : MapVal) :
    toJsonFields (setAt m path k v) = setPath (toJsonFields m) path k v.toJson := by
  induction path generalizing m with
  | nil => exact toJsonFields_mapSet m k v
  | cons p ps ih =>
    simp only [setAt, setPath, lookup_toJsonFields]
    -- the path goes on only through a map stored under `p`
    cases hg : mapGet m p with
    | none => rfl
    | some w =>
      cases w with
      | map sub => simp [MapVal.toJson, toJsonFields_mapSet, ih]
      | _ => rfl

/-- The map encoder's state and the objects open on the reader's stack: `Fields` are the objects
closed, `cur` the keys of the namespaces among them. -/
def MapRel (m : MapObjectEncoder) (t : Members) (outer : List (Members × List UInt8)) : Prop :=
  toJsonFields m.fields = enclose t outer ∧ m.cur = outer.map Prod.snd

theorem mapRel_new : MapRel MapObjectEncoder.new [] [] := ⟨rfl, rfl⟩

theorem MapRel.set {m : MapObjectEncoder} {t : Members} {outer : List (Members × List UInt8)}
    (h : MapRel m t outer) (k : List UInt8) (v : MapVal) :
    MapRel (m.set k v) (Json.insert t k v.toJson) outer := by
  refine ⟨?_, h.2⟩
  rw [MapObjectEncoder.set, toJsonFields_setAt, h.1, h.2, setPath_enclose]

theorem MapRel.openNamespace {m : MapObjectEncoder} {t : Members}
    {outer : List (Members × List UInt8)} (h : MapRel m t outer) (k : List UInt8) :
    MapRel (m.openNamespace k) [] (outer ++ [(t, k)]) := by
  refine ⟨?_, ?_⟩
  · -- the new map is stored under `k` now, and filled through `cur` later
    rw [MapObjectEncoder.openNamespace, toJsonFields_setAt, h.1, h.2, setPath_enclose,
      enclose_append]
    rfl
  · simp [MapObjectEncoder.openNamespace, h.2]

/-! ## Where the reader stands after the encoder's buffer -/

/-- The buffer read from the start, with a bare token it ends in ended. -/
def Reads (buf : Buffer) (r : Reader) : Prop := (run .init buf).bind settle = some r

/-- The last byte is one after which `addElementSeparator` writes a comma. -/
def ValueEnd (buf : Buffer) : Prop :=
  ∃ x b, buf = x ++ [b] ∧ ¬(b = 0x7B ∨ b = 0x5B ∨ b = 0x3A ∨ b = 0x2C ∨ b = 0x20)

/-- The buffer is read up to a member boundary of an object holding `t`, with `fs` below it:
just after its `{`, or after a value. -/
def ObjAt (buf : Buffer) (t : Members) (fs : List Frame) : Prop :=
  (run .init buf = some ⟨.keyOrEnd, .object t none :: fs⟩ ∧ ∃ x, buf = x ++ [0x7B]) ∨
  (Reads buf ⟨.next, .object t none :: fs⟩ ∧ ValueEnd buf)

/-- The same for an array holding `vs`. -/
def ArrAt (buf : Buffer) (vs : List Value) (fs : List Frame) : Prop :=
  (run .init buf = some ⟨.valueOrEnd, .array vs :: fs⟩ ∧ ∃ x, buf = x ++ [0x5B]) ∨
  (Reads buf ⟨.next, .array vs :: fs⟩ ∧ ValueEnd buf)

/-- A value written after `buf` is read as a value with `fs` open. -/
def ValuePos (buf : Buffer) (fs : List Frame) : Prop :=
  ∀ b q, b ≠ 0x5D → isWs b = false → run .init (buf ++ b :: q) = run ⟨.value, fs⟩ (b :: q)

/-- The bytes of one value as an `Append*` call writes them after its separator. -/
structure ValueText (p : List UInt8) (v : Value) : Prop where
  reads : ∀ fs, (run ⟨.value, fs⟩ p).bind settle = complete v fs
  head : ∃ b q, p = b :: q ∧ b ≠ 0x5D ∧ isWs b = false
  last : ValueEnd p

theorem ValueEnd.append {p : Buffer} (h : ValueEnd p) (s : Buffer) : ValueEnd (s ++ p) := by
  obtain ⟨x, b, rfl, hb⟩ := h
  exact ⟨s ++ x, b, by simp, hb⟩

theorem valueEnd_close (buf : Buffer) (n : Nat) : ValueEnd (buf ++ List.replicate (n + 1) 0x7D) :=
  ⟨buf ++ List.replicate n 0x7D, 0x7D, by simp [List.replicate_succ'], by decide⟩

theorem addElementSeparator_valueEnd {buf : Buffer} (h : ValueEnd buf) :
    addElementSeparator false buf = buf ++ [0x2C] := by
  obtain ⟨x, b, rfl, hb⟩ := h
  simp [addElementSeparator, hb]

theorem bind_settle_complete (v : Value) (fs : List Frame) :
    (complete v fs).bind settle = complete v fs := by
  cases hc : complete v fs with
  | none => rfl
  | some r => exact settle_of_complete hc

/-- Reading on past a delimiter from where `Reads` left off. -/
theorem Reads.append_delim {buf : Buffer} {r : Reader} (h : Reads buf r) {b : UInt8}
    (hb : isDelim b = true) (q : List UInt8) :
    run .init (buf ++ b :: q) = run r (b :: q) := by
  unfold Reads at h
  rw [run_append]
  cases hr : run .init buf with
  | none => rw [hr] at h; cases h
  | some r₀ =>
    -- the delimiter first ends what `settle` ends
    rw [hr, Option.bind_some] at h
    rw [Option.bind_some, run, step_delim hb, h, Option.bind_some]
    rfl

theorem ObjAt.run_eq {buf : Buffer} {t : Members} {fs : List Frame} (h : ObjAt buf t fs)
    {b : UInt8} (hb : isDelim b = true) (q : List UInt8) :
    ∃ m, (m = .keyOrEnd ∨ m = .next) ∧
      run .init (buf ++ b :: q) = run ⟨m, .object t none :: fs⟩ (b :: q) := by
  rcases h with ⟨hr, -⟩ | ⟨hr, -⟩
  · exact ⟨_, .inl rfl, by rw [run_append, hr, Option.bind_some]⟩
  · exact ⟨_, .inr rfl, hr.append_delim hb q⟩

theorem ArrAt.run_eq {buf : Buffer} {vs : List Value} {fs : List Frame} (h : ArrAt buf vs fs)
    {b : UInt8} (hb : isDelim b = true) (q : List UInt8) :
    ∃ m, (m = .valueOrEnd ∨ m = .next) ∧
      run .init (buf ++ b :: q) = run ⟨m, .array vs :: fs⟩ (b :: q) := by
  rcases h with ⟨hr, -⟩ | ⟨hr, -⟩
  · exact ⟨_, .inl rfl, by rw [run_append, hr, Option.bind_some]⟩
  · exact ⟨_, .inr rfl, hr.append_delim hb q⟩

theorem step_comma_object (t : Members) (fs : List Frame) :
    step ⟨.next, .object t none :: fs⟩ 0x2C = some ⟨.key, .object t none :: fs⟩ := by
  simp [step, stepPlain, isWs, afterComma]

theorem step_comma_array (vs : List Value) (fs : List Frame) :
    step ⟨.next, .array vs :: fs⟩ 0x2C = some ⟨.value, .array vs :: fs⟩ := by
  simp [step, stepPlain, isWs, afterComma]

/-- **A key read at a member boundary.** -/
theorem ObjAt.run_addKey {buf : Buffer} {t : Members} {fs : List Frame} (h : ObjAt buf t fs)
    {key : List UInt8} (hkey : Valid key) :
    run .init (addKey false buf key) = some ⟨.value, .object t (some key) :: fs⟩ := by
  -- the key's characters, encoded again, are its bytes
  have hk := hkey.flatMap_runes
  have hbody := jsonEscape_strBody key
  rcases h with ⟨hr, x, rfl⟩ | ⟨hr, hend⟩
  · -- after `{` the separator writes nothing
    have hb : addKey false (x ++ [0x7B]) key = (x ++ [0x7B]) ++ (0x22 :: jsonEscape key ++ [0x22, 0x3A]) := by
      simp [addKey_eq, addElementSeparator_after false x (c := 0x7B) (by decide), keyBytes]
    rw [hb, run_append, hr, Option.bind_some, run_key hbody (.inl rfl), hk]
  · -- after a value it writes a comma, and the key follows it
    have hb : addKey false buf key = buf ++ 0x2C :: (0x22 :: jsonEscape key ++ [0x22, 0x3A]) := by
      simp [addKey_eq, addElementSeparator_valueEnd hend, keyBytes]
    rw [hb, hr.append_delim (by decide), run, step_comma_object, Option.bind_some,
      run_key hbody (.inr rfl), hk]

theorem ObjAt.valuePos {buf : Buffer} {t : Members} {fs : List Frame} (h : ObjAt buf t fs)
    {key : List UInt8} (hkey : Valid key) :
    ValuePos (addKey false buf key) (.object t (some key) :: fs) := by
  intro b q _ _
  rw [run_append, h.run_addKey hkey, Option.bind_some]

theorem ArrAt.valuePos {buf : Buffer} {vs : List Value} {fs : List Frame} (h : ArrAt buf vs fs) :
    ValuePos (addElementSeparator false buf) (.array vs :: fs) := by
  intro b q hb hw
  rcases h with ⟨hr, x, rfl⟩ | ⟨hr, hend⟩
  · rw [addElementSeparator_after false x (by decide), run_append, hr, Option.bind_some,
      run_valueOrEnd hb hw]
  · rw [addElementSeparator_valueEnd hend, List.append_assoc, List.singleton_append,
      hr.append_delim (by decide), run, step_comma_array, Option.bind_some]

theorem ValuePos.text {s : Buffer} {fs : List Frame} (h : ValuePos s fs) {p : List UInt8}
    {v : Value} (hp : ValueText p v) : (run .init (s ++ p)).bind settle = complete v fs := by
  obtain ⟨b, q, rfl, hb, hw⟩ := hp.head
  rw [h b q hb hw, hp.reads]

theorem ValuePos.openObject {s : Buffer} {fs : List Frame} (h : ValuePos s fs) :
    run .init (s ++ [0x7B]) = some ⟨.keyOrEnd, .object [] none :: fs⟩ := by
  rw [h 0x7B [] (by decide) (by decide)]
  rfl

theorem ValuePos.openArray {s : Buffer} {fs : List Frame} (h : ValuePos s fs) :
    run .init (s ++ [0x5B]) = some ⟨.valueOrEnd, .array [] :: fs⟩ := by
  rw [h 0x5B [] (by decide) (by decide)]
  rfl

/-- **Closing an object and the namespaces open in it.** -/
theorem ObjAt.close {buf : Buffer} {t : Members} {outer : List (Members × List UInt8)}
    {below : List Frame} (h : ObjAt buf t (pendingFrames outer ++ below)) :
    (run .init (buf ++ List.replicate (outer.length + 1) 0x7D)).bind settle =
      complete (.object (enclose t outer)) below := by
  obtain ⟨m, hm, hr⟩ := h.run_eq (b := 0x7D) (by decide) (List.replicate outer.length 0x7D)
  have hc := run_closeObjects hm outer t below
  rw [List.cons_append] at hc
  rw [List.replicate_succ, hr, ← List.replicate_succ, hc, bind_settle_complete]

theorem ArrAt.close {buf : Buffer} {vs : List Value} {fs : List Frame} (h : ArrAt buf vs fs) :
    (run .init (buf ++ [0x5D])).bind settle = complete (.array vs) fs := by
  obtain ⟨m, hm, hr⟩ := h.run_eq (b := 0x5D) (by decide) []
  have hc : run ⟨m, .array vs :: fs⟩ [0x5D] = complete (.array vs) fs := by
    rcases hm with rfl | rfl <;> simp [run, step, stepPlain, isWs, closeArray]
  rw [hr, hc, bind_settle_complete]

/-- A value read in a key's slot leaves the reader after a member. -/
theorem objAt_of_reads {buf : Buffer} {t : Members} {key : List UInt8} {fs : List Frame} {v : Value}
    (h : (run .init buf).bind settle = complete v (.object t (some key) :: fs)) (he : ValueEnd buf) :
    ObjAt buf (Json.insert t key v) fs :=
  .inr ⟨by rw [Reads, h]; rfl, he⟩

/-- A value read in an array leaves the reader after an element. -/
theorem arrAt_of_reads {buf : Buffer} {vs : List Value} {fs : List Frame} {v : Value}
    (h : (run .init buf).bind settle = complete v (.array vs :: fs)) (he : ValueEnd buf) :
    ArrAt buf (vs ++ [v]) fs :=
  .inr ⟨by rw [Reads, h]; rfl, he⟩

/-! ## What one `Append*` call writes -/

theorem valueText_string {v : List UInt8} (hv : Valid v) :
    ValueText ([0x22] ++ jsonEscape v ++ [0x22]) (.string v) where
  reads fs := by
    rw [List.singleton_append, run_literal (jsonEscape_strBody v), hv.flatMap_runes,
      bind_settle_complete]
  head := ⟨0x22, jsonEscape v ++ [0x22], by simp, by decide, by decide⟩
  last := ⟨[0x22] ++ jsonEscape v, 0x22, rfl, by decide⟩

/-- A bare token of a scalar: read whole, and ended by what follows it. -/
theorem valueText_scalar {p : List UInt8} {v : Value} (hp : ∀ b ∈ p, isDelim b = false)
    (hne : p ≠ []) (hs : scalar p = some v) : ValueText p v := by
  -- no byte of the token is one after which a separator is left out
  have hsep : ∀ c ∈ p, ¬(c = 0x7B ∨ c = 0x5B ∨ c = 0x3A ∨ c = 0x2C ∨ c = 0x20) := by
    rintro c hc (rfl | rfl | rfl | rfl | rfl) <;> exact absurd (hp _ hc) (by decide)
  have hlast : ValueEnd p :=
    ⟨p.dropLast, p.getLast hne, (List.dropLast_append_getLast hne).symm, hsep _ (List.getLast_mem hne)⟩
  obtain ⟨b, tok, rfl⟩ := List.exists_cons_of_ne_nil hne
  have hb := hp b List.mem_cons_self
  refine ⟨fun fs => ?_, ⟨b, tok, rfl, ?_, isWs_of_isDelim hb⟩, hlast⟩
  · rw [run_bare hp, Option.bind_some]
    show (scalar (b :: tok)).bind (complete · fs) = _
    rw [hs, Option.bind_some]
  · rintro rfl
    exact absurd hb (by decide)

theorem valueText_formatInt (i : Int) : ValueText (formatInt i) (.number i) :=
  valueText_scalar (noDelim_formatInt i) (formatInt_ne_nil i) (scalar_formatInt i)

theorem valueText_formatUint (n : Nat) : ValueText (formatUint n) (.number n) :=
  valueText_scalar (noDelim_formatUint n) (formatUint_ne_nil n) (scalar_formatUint n)

theorem valueText_formatBool (v : Bool) : ValueText (formatBool v) (.bool v) :=
  valueText_scalar (noDelim_formatBool v) (by cases v <;> decide) (scalar_formatBool v)

section Calls

variable (cfg : EncoderConfig) (std : GoStd)

/-- An `Append*` call of the fragment writes the separator and the text of what the map encoder
stores for it. -/
theorem appendPrim_text {c : PrimitiveCall} (hc : c.Plain) (buf : Buffer) :
    ∃ p, appendPrim false std buf c = addElementSeparator false buf ++ p ∧
      ValueText p (MapVal.ofPrim std c).toJson := by
  cases c with
  | appendBool v => exact ⟨_, rfl, valueText_formatBool v⟩
  | appendByteString v => exact ⟨_, appendByteString_eq false buf v, valueText_string hc⟩
  | appendInt64 v => exact ⟨_, rfl, valueText_formatInt v.toInt⟩
  | appendString v => exact ⟨_, appendString_eq false buf v, valueText_string hc⟩
  | appendUint64 v => exact ⟨_, rfl, valueText_formatUint v.toNat⟩
  | _ => simp [PrimitiveCall.Plain] at hc

/-- An `Add*` call of the fragment writes the key and the text of what the map encoder stores. -/
theorem addValue_text {v : AddValue} (hv : v.Plain) (buf key : List UInt8) :
    ∃ p, addValue cfg false std buf key v = addKey false buf key ++ p ∧
      ValueText p (MapVal.ofAdd v).toJson := by
  -- no separator follows a key's colon
  have hsep := addElementSeparator_addKey false buf key
  cases v with
  | byteString v =>
    exact ⟨_, by rw [addValue, appendByteString_eq, hsep], valueText_string hv⟩
  | bool v => exact ⟨_, by rw [addValue, appendBool, hsep], valueText_formatBool v⟩
  | int64 v => exact ⟨_, by rw [addValue, appendInt64, hsep], valueText_formatInt v.toInt⟩
  -- the narrower integers are written as their `int64` or `uint64`, which has the same value
  | int32 v | int16 v | int8 v =>
    refine ⟨_, by rw [addValue, appendInt64, hsep], ?_⟩
    simpa [MapVal.ofAdd, MapVal.toJson] using valueText_formatInt v.toInt64.toInt
  | string v => exact ⟨_, by rw [addValue, appendString_eq, hsep], valueText_string hv⟩
  | uint64 v => exact ⟨_, by rw [addValue, appendUint64, hsep], valueText_formatUint v.toNat⟩
  | uint32 v | uint16 v | uint8 v =>
    refine ⟨_, by rw [addValue, appendUint64, hsep], ?_⟩
    simpa [MapVal.ofAdd, MapVal.toJson] using valueText_formatUint v.toUInt64.toNat
  | uintptr v => exact ⟨_, by rw [addValue, appendUint64, hsep], valueText_formatUint v.toNat⟩
  | _ => simp [AddValue.Plain] at hv

end Calls

/-! ## The two encoders in step -/

/-- The JSON encoder's buffer read to a member boundary of its innermost open object, with the
namespaces it counts open below that and `below` under them; the map encoder holding the same. -/
def Sim (below : List Frame) (enc : JsonEncoder) (m : MapObjectEncoder) : Prop :=
  ∃ t outer, ObjAt enc.buf t (pendingFrames outer ++ below) ∧
    enc.openNamespaces = outer.length ∧ MapRel m t outer

/-- An object opened where a value goes, and a new map. -/
theorem sim_openObject {s : Buffer} {fs : List Frame} (h : ValuePos s fs) :
    Sim fs ⟨s ++ [0x7B], 0⟩ .new :=
  ⟨[], [], .inl ⟨h.openObject, _, rfl⟩, rfl, mapRel_new⟩

theorem arrAt_openArray {s : Buffer} {fs : List Frame} (h : ValuePos s fs) :
    ArrAt (s ++ [0x5B]) (toJsonList []) fs :=
  .inl ⟨h.openArray, _, rfl⟩

theorem closeObject_buf (old : Nat) (enc : JsonEncoder) :
    (JsonEncoder.closeObject old enc).buf = enc.buf ++ List.replicate (enc.openNamespaces + 1) 0x7D := by
  simp [JsonEncoder.closeObject, JsonEncoder.closeOpenNamespaces, List.replicate_succ]

/-- **The end of `AppendObject`**: the object and the namespaces opened in it, closed, read as
the map the map encoder filled. -/
theorem Sim.close {fs : List Frame} {enc : JsonEncoder} {m : MapObjectEncoder} (h : Sim fs enc m)
    (old : Nat) :
    (run .init (JsonEncoder.closeObject old enc).buf).bind settle =
        complete (MapVal.map m.fields).toJson fs ∧
      ValueEnd (JsonEncoder.closeObject old enc).buf := by
  obtain ⟨t, outer, hat, hn, hm⟩ := h
  rw [closeObject_buf, hn]
  refine ⟨?_, valueEnd_close _ _⟩
  rw [hat.close]
  show _ = complete (.object (toJsonFields m.fields)) fs
  rw [hm.1]

/-- The end of `AppendArray`: the array reads as the slice. -/
theorem ArrAt.closeList {enc : JsonEncoder} {elems : List MapVal} {fs : List Frame}
    (h : ArrAt enc.buf (toJsonList elems) fs) :
    (run .init (JsonEncoder.closeArray enc).buf).bind settle = complete (MapVal.list elems).toJson fs ∧
      ValueEnd (JsonEncoder.closeArray enc).buf :=
  ⟨h.close, enc.buf, 0x5D, rfl, by decide⟩

/-- A value read in the slot of `key`: the map encoder sets it. -/
theorem sim_set {t : Members} {outer : List (Members × List UInt8)} {below : List Frame}
    {m : MapObjectEncoder} (hm : MapRel m t outer) {key : List UInt8} {s : Buffer} {v : MapVal}
    (hs : (run .init s).bind settle = complete v.toJson (.object t (some key) :: (pendingFrames outer ++ below)))
    (he : ValueEnd s) {n : Nat} (hn : n = outer.length) : Sim below ⟨s, n⟩ (m.set key v) :=
  ⟨_, outer, objAt_of_reads hs he, hn, hm.set key v⟩

/-- A value read as an element: the slice has it appended. -/
theorem arrAt_snoc {elems : List MapVal} {below : List Frame} {s : Buffer} {v : MapVal}
    (hs : (run .init s).bind settle = complete v.toJson (.array (toJsonList elems) :: below))
    (he : ValueEnd s) : ArrAt s (toJsonList (elems ++ [v])) below := by
  rw [toJsonList_append]
  exact arrAt_of_reads hs he

section Step

variable (cfg : EncoderConfig) (std : GoStd)

/-- Both encoders run `p` from related states to related states, returning the same valid error. -/
def ObjSim (p : ObjectMarshaler) : Prop :=
  ∀ below enc m, Sim below enc m →
    (JsonEncoder.run cfg false std p enc).2 = (MapObjectEncoder.run std p m).2 ∧
    ErrValid (JsonEncoder.run cfg false std p enc).2 ∧
    Sim below (JsonEncoder.run cfg false std p enc).1 (MapObjectEncoder.run std p m).1

/-- The same for an array marshaler and the slice so far; `openNamespaces` is left as it was. -/
def ArrSim (q : ArrayMarshaler) : Prop :=
  ∀ below enc elems, ArrAt enc.buf (toJsonList elems) below →
    (JsonEncoder.runArray cfg false std q enc).2 = (sliceRun std q elems).2 ∧
    ErrValid (JsonEncoder.runArray cfg false std q enc).2 ∧
    (JsonEncoder.runArray cfg false std q enc).1.openNamespaces = enc.openNamespaces ∧
    ArrAt (JsonEncoder.runArray cfg false std q enc).1.buf (toJsonList (sliceRun std q elems).1) below

variable {cfg std}

theorem objSim_done {e : Option (List UInt8)} (he : ErrValid e) : ObjSim cfg std (.done e) :=
  fun _ _ _ h => ⟨rfl, he, h⟩

theorem objSim_add {key : List UInt8} (hkey : Valid key) {v : AddValue} (hv : v.Plain)
    {k : ObjectMarshaler} (hk : ObjSim cfg std k) : ObjSim cfg std (.add key v k) := by
  rintro below enc m ⟨t, outer, hat, hn, hm⟩
  obtain ⟨p, hp, hpt⟩ := addValue_text cfg std hv enc.buf key
  -- the call writes the key and the value's text; the map encoder sets the value
  have hs : Sim below { enc with buf := addValue cfg false std enc.buf key v } (m.set key (MapVal.ofAdd v)) := by
    rw [hp]
    exact sim_set hm ((hat.valuePos hkey).text hpt) (hpt.last.append _) hn
  exact hk below _ _ hs

theorem objSim_openNamespace {key : List UInt8} (hkey : Valid key) {k : ObjectMarshaler}
    (hk : ObjSim cfg std k) : ObjSim cfg std (.openNamespace key k) := by
  rintro below enc m ⟨t, outer, hat, hn, hm⟩
  -- the namespace's object is opened in the slot of `key` and left open on the stack
  have hs : Sim below (JsonEncoder.openNamespace false enc key) (m.openNamespace key) := by
    refine ⟨[], outer ++ [(t, key)], .inl ⟨?_, _, rfl⟩, ?_, hm.openNamespace key⟩
    · rw [pendingFrames_concat, List.cons_append]
      exact (hat.valuePos hkey).openObject
    · simp [JsonEncoder.openNamespace, hn]
  exact hk below _ _ hs

theorem objSim_addObject {key : List UInt8} (hkey : Valid key) {obj : ObjectMarshaler}
    {k : Option (List UInt8) → ObjectMarshaler} (ho : ObjSim cfg std obj)
    (hk : ∀ e, ErrValid e → ObjSim cfg std (k e)) : ObjSim cfg std (.addObject key obj k) := by
  rintro below enc m ⟨t, outer, hat, hn, hm⟩
  have hopen : JsonEncoder.openObject false { enc with buf := addKey false enc.buf key } =
      ⟨addKey false enc.buf key ++ [0x7B], 0⟩ := by
    simp [JsonEncoder.openObject, addElementSeparator_addKey]
  -- the nested object runs in the slot of `key`, with no namespace of its own open
  obtain ⟨he, hev, hin⟩ := ho _ _ _ (sim_openObject (hat.valuePos hkey))
  -- closed with the namespaces it opened, it is the member `key`
  obtain ⟨hr, hend⟩ := hin.close enc.openNamespaces
  rw [JsonEncoder.run_addObject, MapObjectEncoder.run_addObject, hopen]
  dsimp only
  rw [he] at hev ⊢
  exact hk _ hev below _ _ (sim_set hm hr hend hn)

theorem objSim_addArray {key : List UInt8} (hkey : Valid key) {arr : ArrayMarshaler}
    {k : Option (List UInt8) → ObjectMarshaler} (ha : ArrSim cfg std arr)
    (hk : ∀ e, ErrValid e → ObjSim cfg std (k e)) : ObjSim cfg std (.addArray key arr k) := by
  rintro below enc m ⟨t, outer, hat, hn, hm⟩
  have hopen : JsonEncoder.openArray false { enc with buf := addKey false enc.buf key } =
      ⟨addKey false enc.buf key ++ [0x5B], enc.openNamespaces⟩ := by
    simp [JsonEncoder.openArray, addElementSeparator_addKey]
  -- the array runs in the slot of `key` from an empty slice
  obtain ⟨he, hev, hns, hin⟩ :=
    ha _ ⟨addKey false enc.buf key ++ [0x5B], enc.openNamespaces⟩ [] (arrAt_openArray (hat.valuePos hkey))
  obtain ⟨hr, hend⟩ := hin.closeList
  rw [JsonEncoder.run_addArray, MapObjectEncoder.run_addArray, hopen]
  dsimp only
  rw [he] at hev ⊢
  exact hk _ hev below _ _ (sim_set hm hr hend (hns.trans hn))

theorem arrSim_done {e : Option (List UInt8)} (he : ErrValid e) : ArrSim cfg std (.done e) :=
  fun _ _ _ h => ⟨rfl, he, rfl, h⟩

theorem arrSim_prim {c : PrimitiveCall} (hc : c.Plain) {k : ArrayMarshaler} (hk : ArrSim cfg std k) :
    ArrSim cfg std (.prim c k) := by
  intro below enc elems h
  obtain ⟨p, hp, hpt⟩ := appendPrim_text std hc enc.buf
  have hs : ArrAt (appendPrim false std enc.buf c) (toJsonList (elems ++ [MapVal.ofPrim std c])) below := by
    rw [hp]
    exact arrAt_snoc (h.valuePos.text hpt) (hpt.last.append _)
  exact hk below ⟨appendPrim false std enc.buf c, enc.openNamespaces⟩ _ hs

theorem arrSim_appendArray {arr : ArrayMarshaler} {k : Option (List UInt8) → ArrayMarshaler}
    (ha : ArrSim cfg std arr) (hk : ∀ e, ErrValid e → ArrSim cfg std (k e)) :
    ArrSim cfg std (.appendArray arr k) := by
  intro below enc elems h
  obtain ⟨he, hev, hns, hin⟩ := ha _ (JsonEncoder.openArray false enc) [] (arrAt_openArray h.valuePos)
  obtain ⟨hr, hend⟩ := hin.closeList
  rw [JsonEncoder.runArray_appendArray, sliceRun_appendArray]
  dsimp only
  rw [he] at hev ⊢
  obtain ⟨he', hev', hns', hout⟩ := hk _ hev below _ _ (arrAt_snoc hr hend)
  exact ⟨he', hev', hns'.trans hns, hout⟩

theorem arrSim_appendObject {obj : ObjectMarshaler} {k : Option (List UInt8) → ArrayMarshaler}
    (ho : ObjSim cfg std obj) (hk : ∀ e, ErrValid e → ArrSim cfg std (k e)) :
    ArrSim cfg std (.appendObject obj k) := by
  intro below enc elems h
  obtain ⟨he, hev, hin⟩ := ho _ (JsonEncoder.openObject false enc) _ (sim_openObject h.valuePos)
  obtain ⟨hr, hend⟩ := hin.close enc.openNamespaces
  rw [JsonEncoder.runArray_appendObject, sliceRun_appendObject]
  dsimp only
  rw [he] at hev ⊢
  exact hk _ hev below _ _ (arrAt_snoc hr hend)

variable (cfg std)

mutual

/-- **The encoders agree on every marshaler of the fragment.** -/
theorem objSim : ∀ p : ObjectMarshaler, p.Plain → ObjSim cfg std p
  | .done _, hp => objSim_done hp
  | .addArray _ arr k, ⟨hkey, ha, hk⟩ =>
    objSim_addArray hkey (arrSim arr ha) fun e he => objSim (k e) (hk e he)
  | .addObject _ obj k, ⟨hkey, ho, hk⟩ =>
    objSim_addObject hkey (objSim obj ho) fun e he => objSim (k e) (hk e he)
  | .addReflected _ _ _, hp => hp.elim
  | .add _ _ k, ⟨hkey, hv, hk⟩ => objSim_add hkey hv (objSim k hk)
  | .openNamespace _ k, ⟨hkey, hk⟩ => objSim_openNamespace hkey (objSim k hk)

theorem arrSim : ∀ q : ArrayMarshaler, q.Plain → ArrSim cfg std q
  | .done _, hq => arrSim_done hq
  | .appendArray arr k, ⟨ha, hk⟩ =>
    arrSim_appendArray (arrSim arr ha) fun e he => arrSim (k e) (hk e he)
  | .appendObject obj k, ⟨ho, hk⟩ =>
    arrSim_appendObject (objSim obj ho) fun e he => arrSim (k e) (hk e he)
  | .appendReflected _ _, hq => hq.elim
  | .appendDuration _ _, hq => hq.elim
  | .appendTime _ _, hq => hq.elim
  | .prim _ k, ⟨hc, hk⟩ => arrSim_prim hc (arrSim k hk)

end

end Step

/-! ## `EncodeEntry` -/

/-- No member of `EncodeEntry`'s own is written: the object holds the fields alone. -/
def EncoderConfig.NoEntryKeys (cfg : EncoderConfig) : Prop :=
  cfg.messageKey = [] ∧ cfg.levelKey = [] ∧ cfg.timeKey = [] ∧ cfg.nameKey = [] ∧
    cfg.callerKey = [] ∧ cfg.functionKey = [] ∧ cfg.stacktraceKey = []

theorem encodeEntry_noEntryKeys {cfg : EncoderConfig} (h : cfg.NoEntryKeys) (std : GoStd)
    (enc : JsonEncoder) (ent : Entry) (fields : List Field) :
    encodeEntry cfg false std enc ent fields = .ok (encodeFields cfg false std enc [0x7B] ent fields) := by
  obtain ⟨hm, hl, ht, hn, hc, hf, -⟩ := h
  -- with no caller key the caller is never encoded, whatever the entry's caller
  have hcf : encodeCallerFunction cfg false std [0x7B] ent = .ok [0x7B] := by
    simp [encodeCallerFunction, hc, hf]
  simp [encodeEntry, encodeLevelTimeName, hl, ht, hn, hcf, encodeMessage, hm]

/-- With no entry keys, the body of an entry of fields from the fragment reads back as the map
the map encoder fills: the fields run from `{` as they run on a new map, and the entry closes the
namespaces left open. -/
theorem decode_encodeEntry_of_inFragment {cfg : EncoderConfig} (hkeys : cfg.NoEntryKeys) (std : GoStd)
    (ent : Entry) (fss : List (List Field)) (gs : List Field)
    (hf : ∀ f ∈ fss.flatten ++ gs, f.InFragment) :
    ∃ body, (jsonOps (newJSONEncoder cfg).1 false std).encodeEntry
        (withEncoder (jsonOps (newJSONEncoder cfg).1 false std) (newJSONEncoder cfg).2 fss) ent gs =
          .ok (body ++ (newJSONEncoder cfg).1.lineEnding) ∧
      Json.decode body = some (MapVal.map (mapFields std (fss.flatten ++ gs))).toJson := by
  -- the context lists are the first fields added
  rw [jsonOps_encodeEntry_withEncoder]
  have hk : (newJSONEncoder cfg).1.NoEntryKeys := hkeys
  -- the fields run after `{` as they run on a new map
  obtain ⟨-, -, t, outer, hat, hn, hm⟩ := objSim (newJSONEncoder cfg).1 std _
    (plain_addFields (fss.flatten ++ gs) hf) [] ⟨[0x7B], 0⟩ .new ⟨[], [], .inl ⟨rfl, [], rfl⟩, rfl, mapRel_new⟩
  refine ⟨(JsonEncoder.run (newJSONEncoder cfg).1 false std (addFields (fss.flatten ++ gs)) ⟨[0x7B], 0⟩).1.buf ++
    List.replicate (outer.length + 1) 0x7D, ?_, ?_⟩
  · -- the entry closes the namespaces still open, then its own brace
    show encodeEntry _ false std ⟨[], 0⟩ ent _ = _
    rw [encodeEntry_noEntryKeys hk]
    simp [encodeFields, JsonEncoder.closeOpenNamespaces, hn, hk.2.2.2.2.2.2, List.replicate_succ']
  · rw [decode, hat.close]
    show some (Value.object (enclose t outer)) = some (.object (toJsonFields _))
    rw [← hm.1]
    rfl

/-- **The JSON encoder means what the map encoder records.**  With no entry keys, the output of
`EncodeEntry` after `With` of the context lists, less its line ending, decodes to the map the
map encoder fills with the same fields. -/
theorem encodeEntry_decode_mapFields {cfg : EncoderConfig} (hkeys : cfg.NoEntryKeys) (std : GoStd)
    (ent : Entry) (fss : List (List Field)) (gs : List Field)
    (hf : ∀ f ∈ fss.flatten ++ gs, f.InFragment) :
    ∃ body, (jsonOps (newJSONEncoder cfg).1 false std).encodeEntry
        (withEncoder (jsonOps (newJSONEncoder cfg).1 false std) (newJSONEncoder cfg).2 fss) ent gs =
          .ok (body ++ (newJSONEncoder cfg).1.lineEnding) ∧
      Json.decode body = some (MapVal.map (mapFields std (fss.flatten ++ gs))).toJson :=
  decode_encodeEntry_of_inFragment hkeys std ent fss gs hf

/-- A config with no entry keys and nothing else set. -/
def bareConfig : EncoderConfig :=
  ⟨[], [], [], [], [], [], [], false, [], none, none, none, none, none, none, []⟩

theorem bareConfig_noEntryKeys : bareConfig.NoEntryKeys := ⟨rfl, rfl, rfl, rfl, rfl, rfl, rfl⟩

/-- Standard-library functions that format every time as its layout and encode nothing else. -/
def layoutStd : GoStd := ⟨fun _ _ => [], fun _ => 0, id, fun _ layout => layout, fun _ => .error []⟩

/-- The JSON encoder of `bareConfig`, over `layoutStd`. -/
def bareOps : Encoder JsonEncoder := jsonOps (newJSONEncoder bareConfig).1 false layoutStd

/-- A `With` call that opens the namespace `n`, and one logged string field `k`. -/
def namespaceN : List (List Field) := [[Field.namespace (lit "n")]]

def fieldKV : List Field := [Field.string (lit "k") (lit "v")]

theorem encodeEntry_decode_mapFields_namespace :
    ∃ body, bareOps.encodeEntry (withEncoder bareOps (newJSONEncoder bareConfig).2 namespaceN)
        (infoEntryAt 0) fieldKV = .ok (body ++ (newJSONEncoder bareConfig).1.lineEnding) ∧
      Json.decode body = some (MapVal.map (mapFields layoutStd (namespaceN.flatten ++ fieldKV))).toJson :=
  encodeEntry_decode_mapFields bareConfig_noEntryKeys _ _ _ _
    (by simp [namespaceN, fieldKV, Field.InFragment, valid_lit])

/-- **A time layout holding `"` breaks the JSON.**  `TimeEncoderOfLayout("\"")` makes one call,
`AppendTimeLayout`, which writes the formatted quote unescaped: the entry `{"ts":"""}` is no JSON
text. -/
theorem encodeEntry_timeLayout_quote {cfg : EncoderConfig}
    (hkeys : cfg.messageKey = [] ∧ cfg.levelKey = [] ∧ cfg.nameKey = [] ∧ cfg.callerKey = [] ∧
      cfg.functionKey = [] ∧ cfg.stacktraceKey = [])
    (htime : cfg.timeKey = lit "ts") (henc : cfg.encodeTime = some (timeEncoderOfLayout [0x22]))
    {std : GoStd} {ent : Entry} (hfmt : std.format ent.time [0x22] = [0x22])
    (hz : ent.time.IsZero = false) :
    timeEncoderOfLayout [0x22] ent.time = [.appendTimeLayout ent.time [0x22]] ∧
    encodeEntry (newJSONEncoder cfg).1 false std (newJSONEncoder cfg).2 ent [] =
      .ok ([0x7B, 0x22, 0x74, 0x73, 0x22, 0x3A, 0x22, 0x22, 0x22, 0x7D] ++ (newJSONEncoder cfg).1.lineEnding) ∧
    Json.decode [0x7B, 0x22, 0x74, 0x73, 0x22, 0x3A, 0x22, 0x22, 0x22, 0x7D] = none := by
  obtain ⟨hm, hl, hn, hc, hf, hs⟩ := hkeys
  refine ⟨rfl, ?_, rfl⟩
  -- `{"ts":` then the layout's one call: the quote between quotes, as it is
  have hlt : encodeLevelTimeName (newJSONEncoder cfg).1 false std [0x7B] ent =
      [0x7B, 0x22, 0x74, 0x73, 0x22, 0x3A, 0x22, 0x22, 0x22] := by
    have hts : addKey false [0x7B] (lit "ts") = [0x7B, 0x22, 0x74, 0x73, 0x22, 0x3A] := by decide
    have hne : lit "ts" ≠ [] := by decide
    simp [encodeLevelTimeName, newJSONEncoder, hl, hn, htime, hne, hz, appendTime, henc,
      timeEncoderOfLayout, encodeTimeLayout, appendCalls, appendPrim, appendTimeLayout, hts, hfmt,
      addElementSeparator]
  have hcf : encodeCallerFunction (newJSONEncoder cfg).1 false std
      [0x7B, 0x22, 0x74, 0x73, 0x22, 0x3A, 0x22, 0x22, 0x22] ent =
        .ok [0x7B, 0x22, 0x74, 0x73, 0x22, 0x3A, 0x22, 0x22, 0x22] := by
    simp [encodeCallerFunction, newJSONEncoder, hc, hf]
  -- no message, no fields, no namespace and no stack: only the closing brace follows
  rw [encodeEntry, hlt, hcf]
  simp [encodeMessage, encodeFields, addFields, JsonEncoder.run, JsonEncoder.closeOpenNamespaces,
    newJSONEncoder, hm, hs]

/-- A config whose only entry key is `"ts"`, with `TimeEncoderOfLayout("\"")`. -/
def quoteLayoutConfig : EncoderConfig :=
  ⟨[], [], lit "ts", [], [], [], [], false, [], some lowercaseLevelEncoder,
    some (timeEncoderOfLayout [0x22]), some nanosDurationEncoder, some fullCallerEncoder,
    some fullNameEncoder, none, []⟩

/-- The bytes of the entry `{"ts":"""}`. -/
def quoteTsObject : List UInt8 := [0x7B, 0x22, 0x74, 0x73, 0x22, 0x3A, 0x22, 0x22, 0x22, 0x7D]

theorem encodeEntry_timeLayout_quote_ts :
    timeEncoderOfLayout [0x22] (infoEntryAt 0).time = [.appendTimeLayout (infoEntryAt 0).time [0x22]] ∧
      encodeEntry (newJSONEncoder quoteLayoutConfig).1 false layoutStd (newJSONEncoder quoteLayoutConfig).2
          (infoEntryAt 0) [] = .ok (quoteTsObject ++ (newJSONEncoder quoteLayoutConfig).1.lineEnding) ∧
      Json.decode quoteTsObject = none :=
  encodeEntry_timeLayout_quote ⟨rfl, rfl, rfl, rfl, rfl, rfl⟩ rfl rfl rfl (by decide)

/-! ## Complex numbers read back

`appendComplex` writes `+` before the imaginary part when `i >= 0`, and `AppendFloat` writes the
part's own sign.  NaN compares false, so it gets no `+` and the text reads `1NaNi`; `+Inf`
compares true and gets a second one, `1++Infi`.  `ParseComplex` rejects both: after the real part
it wants a sign or a lone `i`, and it does not consume the first of two `+`. -/

/-- `f >= 0` is false for NaN. -/
theorem nonNeg64_of_isNaN64 {b : UInt64} (h : isNaN64 b = true) : nonNeg64 b = false := by
  simp [nonNeg64, h]

/-- **A NaN or `+Inf` imaginary part is written so that `ParseComplex` rejects it**, whatever
the bit size, when the real part is written as digits alone. -/
theorem appendComplex_nonfinite_imag_unparsable (spaced : Bool) (std : GoStd)
    (conv : List UInt8 → Nat → UInt64 × Bool) (buf : Buffer) (re im : UInt64) (precision bitSize : Nat)
    (hre : std.formatFloat re precision ≠ [] ∧ ∀ b ∈ std.formatFloat re precision, isDecDigit b = true)
    (him : (isNaN64 im = true ∧ std.formatFloat im precision = lit "NaN") ∨
      (isInf64 im true = true ∧ std.formatFloat im precision = lit "+Inf")) :
    ∃ text, appendComplex spaced std buf re im precision =
        addElementSeparator spaced buf ++ ([0x22] ++ text ++ [0x22]) ∧
      parseComplex conv text bitSize = .error .errSyntax := by
  refine ⟨std.formatFloat re precision ++ (if nonNeg64 im then [0x2B] else []) ++
    std.formatFloat im precision ++ [0x69], by simp [appendComplex_eq], ?_⟩
  rcases him with ⟨hnan, hfmt⟩ | ⟨hinf, hfmt⟩
  · -- no `+` before `NaN`: the real part is followed by `N`
    rw [nonNeg64_of_isNaN64 hnan, hfmt, if_neg Bool.false_ne_true, List.append_nil]
    exact parseComplex_digits_nan conv hre.1 hre.2 bitSize
  · -- `+` before `+Inf`
    have hpos : nonNeg64 im = true := by
      simp only [isInf64, if_true, decide_eq_true_eq] at hinf
      subst hinf
      decide
    have hlit : [0x2B] ++ lit "+Inf" ++ [0x69] = 0x2B :: 0x2B :: (lit "Inf" ++ [0x69]) := by decide
    rw [hpos, hfmt, if_pos rfl, List.append_assoc, List.append_assoc, ← List.append_assoc [0x2B], hlit]
    exact parseComplex_digits_plusPlus conv hre.1 hre.2 _ bitSize

theorem appendComplex_nonfinite_imag_unparsable_one_nan :
    ((⟨fun b _ => if b = 0x3FF0000000000000 then lit "1" else lit "NaN", fun _ => 0, id, fun _ _ => [],
        fun _ => .error []⟩ : GoStd).formatFloat 0x3FF0000000000000 64 ≠ [] ∧
      ∀ b ∈ (⟨fun b _ => if b = 0x3FF0000000000000 then lit "1" else lit "NaN", fun _ => 0, id, fun _ _ => [],
        fun _ => .error []⟩ : GoStd).formatFloat 0x3FF0000000000000 64, isDecDigit b = true) ∧
    (isNaN64 nanBits = true ∧ (⟨fun b _ => if b = 0x3FF0000000000000 then lit "1" else lit "NaN", fun _ => 0, id,
        fun _ _ => [], fun _ => .error []⟩ : GoStd).formatFloat nanBits 64 = lit "NaN") ∧
    ∃ text, appendComplex false (⟨fun b _ => if b = 0x3FF0000000000000 then lit "1" else lit "NaN", fun _ => 0, id,
        fun _ _ => [], fun _ => .error []⟩ : GoStd) [] 0x3FF0000000000000 nanBits 64 =
        addElementSeparator false [] ++ ([0x22] ++ text ++ [0x22]) ∧
      parseComplex (fun _ _ => (0x3FF0000000000000, false)) text 128 = .error .errSyntax := by
  have hre : (⟨fun b _ => if b = 0x3FF0000000000000 then lit "1" else lit "NaN", fun _ => 0, id, fun _ _ => [],
      fun _ => .error []⟩ : GoStd).formatFloat 0x3FF0000000000000 64 ≠ [] ∧
      ∀ b ∈ (⟨fun b _ => if b = 0x3FF0000000000000 then lit "1" else lit "NaN", fun _ => 0, id, fun _ _ => [],
        fun _ => .error []⟩ : GoStd).formatFloat 0x3FF0000000000000 64, isDecDigit b = true := by
    have hone : (⟨fun b _ => if b = 0x3FF0000000000000 then lit "1" else lit "NaN", fun _ => 0, id,
        fun _ _ => [], fun _ => .error []⟩ : GoStd).formatFloat 0x3FF0000000000000 64 = [0x31] := by decide
    rw [hone]
    exact ⟨List.cons_ne_nil _ _, by simp [isDecDigit]⟩
  have him : isNaN64 nanBits = true ∧ (⟨fun b _ => if b = 0x3FF0000000000000 then lit "1" else lit "NaN",
      fun _ => 0, id, fun _ _ => [], fun _ => .error []⟩ : GoStd).formatFloat nanBits 64 = lit "NaN" := by
    decide
  exact ⟨hre, him, appendComplex_nonfinite_imag_unparsable false _ _ [] _ _ 64 128 hre (.inl him)⟩

end Zap.Zapcore
