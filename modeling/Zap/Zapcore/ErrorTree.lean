import Zap.Zapcore.JsonDecode

/-!
# Zap.Zapcore.ErrorTree — an error is encoded as the tree it is

An error none of whose methods panics is a finite tree (`ErrorTree`): a leaf, with the `%+v` of
a `fmt.Formatter` if it is one, or an `errorGroup` node with its `Errors()`, nil entries
included.  `ErrorTree.encode key t` is the object `encodeError` is meant to build: `key` holds
`Error()`; a group adds `key+"Causes"`, its non-nil children each encoded under `"error"`; a
leaf whose `%+v` differs from `Error()` adds `key+"Verbose"`.

* `run_encodeError`, `sliceRun_errArray`: the map encoder builds exactly that, by induction on
  the tree.
* `errorField_encodes_tree`: `Field.AddTo` of an error field sets the entries of `encode key t`
  at the map's current namespace; with no entry keys and UTF-8 texts, an entry with the error
  among any other fields decodes to the map holding the tree there.
* `errorField_json_invalid_utf8`: an `Error()` that is not UTF-8 is written as U+FFFD, so that
  the JSON tree then differs from the map's.
-/

namespace Zap.Zapcore

open Go Go.Utf8 Json

/-- An error none of whose methods panics, as `encodeError` reads it: a leaf holds `Error()`
and, for a `fmt.Formatter`, `fmt.Sprintf("%+v", err)`; a group holds `Error()` and
`Errors()`. -/
inductive ErrorTree where
  | leaf (text : List UInt8) (verbose : Option (List UInt8))
  | group (text : List UInt8) (causes : List (Option ErrorTree))

mutual

/-- The Go error of a tree. -/
def ErrorTree.toGoError : ErrorTree → GoError
  | .leaf text verbose => .basic (.ok text) verbose
  | .group text causes => .group (.ok text) (ErrorTree.toGoErrors causes)

/-- The Go errors of a list of children, nil entries kept. -/
def ErrorTree.toGoErrors : List (Option ErrorTree) → List (Option GoError)
  | [] => []
  | none :: cs => none :: ErrorTree.toGoErrors cs
  | some t :: cs => some t.toGoError :: ErrorTree.toGoErrors cs

end

mutual

/-- `E(key, err)`: the object an error is encoded as. -/
def ErrorTree.encode (key : List UInt8) : ErrorTree → List (List UInt8 × MapVal)
  | .leaf text none => [(key, .string text)]
  | .leaf text (some v) =>
    if v = text then [(key, .string text)]
    else [(key, .string text), (key ++ lit "Verbose", .string v)]
  | .group text causes =>
    [(key, .string text), (key ++ lit "Causes", .list (ErrorTree.encodeCauses causes))]

/-- The non-nil children, each encoded under `"error"`, in order. -/
def ErrorTree.encodeCauses : List (Option ErrorTree) → List MapVal
  | [] => []
  | none :: cs => ErrorTree.encodeCauses cs
  | some t :: cs => .map (t.encode (lit "error")) :: ErrorTree.encodeCauses cs

end

/-! ## The map encoder -/

@[simp] theorem MapObjectEncoder.new_set (k : List UInt8) (v : MapVal) :
    MapObjectEncoder.new.set k v = ⟨[(k, v)], []⟩ := rfl

theorem MapObjectEncoder.set_single {k k' : List UInt8} (h : k ≠ k') (v v' : MapVal) :
    (⟨[(k, v)], []⟩ : MapObjectEncoder).set k' v' = ⟨[(k, v), (k', v')], []⟩ := by
  simp [MapObjectEncoder.set, setAt, mapSet, h]

/-- A key and the same key with a suffix are two keys. -/
theorem ne_append_lit (key : List UInt8) {s : String} (hs : lit s ≠ []) : key ≠ key ++ lit s := by
  simpa using hs

section Run

variable (std : GoStd)

mutual

/-- **`encodeError` on a new map builds the tree's object**, and returns no error. -/
theorem run_encodeError (key : List UInt8) : ∀ t : ErrorTree,
    MapObjectEncoder.run std (encodeError key t.toGoError) .new = (⟨t.encode key, []⟩, none)
  | .leaf text none => by
    simp [ErrorTree.toGoError, encodeError, ErrorTree.encode, MapObjectEncoder.run, MapVal.ofAdd]
  | .leaf text (some v) => by
    by_cases hv : v = text
    · simp [ErrorTree.toGoError, encodeError, ErrorTree.encode, MapObjectEncoder.run, MapVal.ofAdd, hv]
    · -- a `%+v` that differs from `Error()` goes under a second key
      have hk : key ≠ key ++ lit "Verbose" := ne_append_lit key (by decide)
      simp [ErrorTree.toGoError, encodeError, ErrorTree.encode, MapObjectEncoder.run, MapVal.ofAdd, hv,
        MapObjectEncoder.set_single hk]
  | .group text causes => by
    have hk : key ≠ key ++ lit "Causes" := ne_append_lit key (by decide)
    have hcauses := sliceRun_errArray causes []
    simp only [ErrorTree.toGoError, encodeError, MapObjectEncoder.run, MapVal.ofAdd,
      MapObjectEncoder.new_set, hcauses, List.nil_append, MapObjectEncoder.set_single hk, ErrorTree.encode]

/-- **`errArray` appends the encoded non-nil children**, and returns no error. -/
theorem sliceRun_errArray : ∀ (cs : List (Option ErrorTree)) (elems : List MapVal),
    sliceRun std (errArray (ErrorTree.toGoErrors cs)) elems = (elems ++ ErrorTree.encodeCauses cs, none)
  | [], elems => by
    simp [ErrorTree.toGoErrors, errArray, sliceRun, ErrorTree.encodeCauses]
  | none :: cs, elems => by
    simp only [ErrorTree.toGoErrors, errArray, ErrorTree.encodeCauses]
    exact sliceRun_errArray cs elems
  | some t :: cs, elems => by
    rw [ErrorTree.toGoErrors, errArray, sliceRun_appendObject, run_encodeError (lit "error") t]
    simp [sliceRun_errArray cs, ErrorTree.encodeCauses]

end

/-- `Field.AddTo` of an error field on a new map. -/
theorem run_addTo_error (key : List UInt8) (t : ErrorTree) :
    MapObjectEncoder.run std (Field.error key t.toGoError).addTo .new = (⟨t.encode key, []⟩, none) := by
  rw [Field.addTo, MapObjectEncoder.run_bind, run_encodeError]
  rfl

theorem mapFields_error (key : List UInt8) (t : ErrorTree) :
    mapFields std [Field.error key t.toGoError] = t.encode key := by
  rw [mapFields, addFields, MapObjectEncoder.run_bind, run_addTo_error]
  rfl

/-- Setting the entries of an object, in order, at the current namespace. -/
def MapObjectEncoder.setAll (m : MapObjectEncoder) (kvs : List (List UInt8 × MapVal)) :
    MapObjectEncoder :=
  kvs.foldl (fun m kv => m.set kv.1 kv.2) m

/-- **`encodeError` on any map sets the tree's entries at the current namespace**, and returns no
error. -/
theorem run_encodeError_at (key : List UInt8) (t : ErrorTree) (m : MapObjectEncoder) :
    MapObjectEncoder.run std (encodeError key t.toGoError) m = (m.setAll (t.encode key), none) := by
  cases t with
  | leaf text verbose =>
    cases verbose with
    | none =>
      simp [ErrorTree.toGoError, encodeError, ErrorTree.encode, MapObjectEncoder.run, MapVal.ofAdd,
        MapObjectEncoder.setAll]
    | some v =>
      by_cases hv : v = text
      · simp [ErrorTree.toGoError, encodeError, ErrorTree.encode, MapObjectEncoder.run, MapVal.ofAdd,
          MapObjectEncoder.setAll, hv]
      · simp [ErrorTree.toGoError, encodeError, ErrorTree.encode, MapObjectEncoder.run, MapVal.ofAdd,
          MapObjectEncoder.setAll, hv]
  | group text causes =>
    -- the causes are collected in a fresh array, whatever the map
    simp only [ErrorTree.toGoError, encodeError, MapObjectEncoder.run, MapVal.ofAdd,
      sliceRun_errArray std causes [], List.nil_append, ErrorTree.encode, MapObjectEncoder.setAll,
      List.foldl_cons, List.foldl_nil]

theorem run_addTo_error_at (key : List UInt8) (t : ErrorTree) (m : MapObjectEncoder) :
    MapObjectEncoder.run std (Field.error key t.toGoError).addTo m = (m.setAll (t.encode key), none) := by
  rw [Field.addTo, MapObjectEncoder.run_bind, run_encodeError_at]
  rfl

/-- Among other fields, an error field sets its tree's entries where the fields before it left
the map, and the fields after it go on from there. -/
theorem mapFields_splice_error (fs gs : List Field) (key : List UInt8) (t : ErrorTree) :
    mapFields std (fs ++ Field.error key t.toGoError :: gs) =
      (MapObjectEncoder.run std (addFields gs)
        ((MapObjectEncoder.run std (addFields fs) .new).1.setAll (t.encode key))).1.fields := by
  rw [mapFields, addFields_append, MapObjectEncoder.run_bind, addFields, MapObjectEncoder.run_bind,
    run_addTo_error_at]

end Run

/-! ## The JSON encoder -/

/-- **An error is encoded as its tree.**  `Field.AddTo` of an error field sets the entries of
`encode key t` at the map's current namespace, on a new map exactly `encode key t`, and returns
no error; with no entry keys, and the key and every text of the tree valid UTF-8, an entry that
has the error field among any context and fields from the fragment decodes to the map where the
fields before it left off, the tree's entries set there, and the fields after it run on: the
tree's objects as JSON objects and its causes as a JSON array. -/
theorem errorField_encodes_tree (std : GoStd) (key : List UInt8) (t : ErrorTree) :
    (∀ m : MapObjectEncoder, MapObjectEncoder.run std (Field.error key t.toGoError).addTo m =
      (m.setAll (t.encode key), none)) ∧
    MapObjectEncoder.run std (Field.error key t.toGoError).addTo .new = (⟨t.encode key, []⟩, none) ∧
    ∀ cfg : EncoderConfig, cfg.NoEntryKeys → Valid key → t.toGoError.Plain →
      ∀ (ent : Entry) (fss : List (List Field)) (gs gs' : List Field),
        (∀ f ∈ fss.flatten ++ gs ++ gs', f.InFragment) →
        ∃ body, (jsonOps (newJSONEncoder cfg).1 false std).encodeEntry
            (withEncoder (jsonOps (newJSONEncoder cfg).1 false std) (newJSONEncoder cfg).2 fss) ent
            (gs ++ Field.error key t.toGoError :: gs') = .ok (body ++ (newJSONEncoder cfg).1.lineEnding) ∧
          Json.decode body = some (MapVal.map (MapObjectEncoder.run std (addFields gs')
            ((MapObjectEncoder.run std (addFields (fss.flatten ++ gs)) .new).1.setAll
              (t.encode key))).1.fields).toJson := by
  refine ⟨run_addTo_error_at std key t, run_addTo_error std key t,
    fun cfg hkeys hkey ht ent fss gs gs' hf => ?_⟩
  -- the error field is in the fragment too
  have hf' : ∀ f ∈ fss.flatten ++ (gs ++ Field.error key t.toGoError :: gs'), f.InFragment := by
    intro f hfm
    simp only [List.mem_append, List.mem_cons] at hfm
    rcases hfm with hfm | hfm | rfl | hfm
    · exact hf f (List.mem_append_left _ (List.mem_append_left _ hfm))
    · exact hf f (List.mem_append_left _ (List.mem_append_right _ hfm))
    · simpa [Field.InFragment] using And.intro hkey ht
    · exact hf f (List.mem_append_right _ hfm)
  obtain ⟨body, henc, hdec⟩ := decode_encodeEntry_of_inFragment hkeys std ent fss _ hf'
  refine ⟨body, henc, ?_⟩
  rw [hdec, ← List.append_assoc, mapFields_splice_error]

/-- A group error `g` with a nil cause and a leaf `a` whose `%+v` is `a!`. -/
def groupError : ErrorTree := .group (lit "g") [none, some (.leaf (lit "a") (some (lit "a!")))]

theorem errorField_encodes_tree_group :
    ∃ body, bareOps.encodeEntry (withEncoder bareOps (newJSONEncoder bareConfig).2 namespaceN)
        (infoEntryAt 0) (fieldKV ++ Field.error (lit "error") groupError.toGoError :: []) =
          .ok (body ++ (newJSONEncoder bareConfig).1.lineEnding) ∧
      Json.decode body = some (MapVal.map (MapObjectEncoder.run layoutStd (addFields [])
        ((MapObjectEncoder.run layoutStd (addFields (namespaceN.flatten ++ fieldKV)) .new).1.setAll
          (groupError.encode (lit "error")))).1.fields).toJson := by
  have hp : groupError.toGoError.Plain := by
    simp [groupError, ErrorTree.toGoError, ErrorTree.toGoErrors, GoError.Plain, GoError.PlainAll,
      OutcomeValid, valid_lit]
  exact (errorField_encodes_tree layoutStd (lit "error") groupError).2.2 bareConfig bareConfig_noEntryKeys
    (valid_lit _) hp (infoEntryAt 0) _ _ [] (by simp [namespaceN, fieldKV, Field.InFragment, valid_lit])

/-- **An `Error()` that is not UTF-8 changes in the JSON.**  The map records the byte `0xFF` as it
is; the JSON encoder writes it as the escape of U+FFFD, which decodes to the three bytes of
U+FFFD: the JSON tree is not the map's. -/
theorem errorField_json_invalid_utf8 :
    MapObjectEncoder.run layoutStd (Field.error (lit "error") (ErrorTree.leaf [0xFF] none).toGoError).addTo
        .new = (⟨[(lit "error", .string [0xFF])], []⟩, none) ∧
    (jsonOps (newJSONEncoder bareConfig).1 false layoutStd).encodeEntry (newJSONEncoder bareConfig).2
        (infoEntryAt 0) [Field.error (lit "error") (ErrorTree.leaf [0xFF] none).toGoError] =
      .ok ([0x7B, 0x22, 0x65, 0x72, 0x72, 0x6F, 0x72, 0x22, 0x3A, 0x22, 0x5C, 0x75, 0x66, 0x66, 0x66, 0x64,
          0x22, 0x7D] ++ (newJSONEncoder bareConfig).1.lineEnding) ∧
    Json.decode [0x7B, 0x22, 0x65, 0x72, 0x72, 0x6F, 0x72, 0x22, 0x3A, 0x22, 0x5C, 0x75, 0x66, 0x66, 0x66,
        0x64, 0x22, 0x7D] = some (.object [(lit "error", .string [0xEF, 0xBF, 0xBD])]) ∧
    (Value.object [(lit "error", .string [0xEF, 0xBF, 0xBD])]) ≠
      (MapVal.map ((ErrorTree.leaf [0xFF] none).encode (lit "error"))).toJson := by
  refine ⟨run_addTo_error _ _ _, rfl, rfl, ?_⟩
  simp [ErrorTree.encode, MapVal.toJson, toJsonFields]

end Zap.Zapcore
