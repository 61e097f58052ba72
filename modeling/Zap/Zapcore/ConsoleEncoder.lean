import Zap.Zapcore.JsonJoin
import Zap.Zapcore.MemoryEncoder

/-!
# Zap.Zapcore.ConsoleEncoder — `consoleEncoder`, and `With` as a homomorphism

The console encoder writes an entry's metadata as plain text: the callbacks append to a
`sliceArrayEncoder`, and each stored value is printed by `fmt.Fprint` (the parameter `fprint`),
with `ConsoleSeparator` in between.  The context is a JSON object written by the spaced JSON
encoder it embeds.

* `consoleEncodeEntry`: `EncodeEntry`; it never panics.
* `encodeEntry_withEncoder`: for the JSON encoder and for the console encoder, encoding with an
  encoder that `With` derived from `F₁, ..., Fₖ` is encoding `F₁ ++ ... ++ Fₖ ++ G` with the base
  encoder.
-/

namespace Zap.Zapcore

open Go Go.Utf8 Separator

/-- `NewConsoleEncoder(cfg)`: a tab when no `ConsoleSeparator` is set, and the spaced JSON
encoder's settled configuration and empty state. -/
def newConsoleEncoder (cfg : EncoderConfig) : EncoderConfig × JsonEncoder :=
  newJSONEncoder (if cfg.consoleSeparator = [] then { cfg with consoleSeparator := [0x09] } else cfg)

section Console

variable (cfg : EncoderConfig) (std : GoStd) (fprint : MapVal → List UInt8)

/-- The values `EncodeEntry`'s callbacks append to the `sliceArrayEncoder`. -/
def consoleMetadata (ent : Entry) : List MapVal :=
  let elems : List MapVal := []
  let elems := match cfg.encodeTime with
    | some f => if cfg.timeKey ≠ [] ∧ !ent.time.IsZero then
        elems ++ (f ent.time).map (MapVal.ofPrim std) else elems
    | none => elems
  let elems := match cfg.encodeLevel with
    | some f => if cfg.levelKey ≠ [] then elems ++ (f ent.level).map (MapVal.ofPrim std) else elems
    | none => elems
  let elems := if ent.loggerName ≠ [] ∧ cfg.nameKey ≠ [] then
      elems ++ ((cfg.encodeName.getD fullNameEncoder) ent.loggerName).map (MapVal.ofPrim std)
    else elems
  if ent.caller.defined then
    let elems := match cfg.encodeCaller with
      | some f => if cfg.callerKey ≠ [] then elems ++ (f ent.caller).map (MapVal.ofPrim std)
          else elems
      | none => elems
    if cfg.functionKey ≠ [] then elems ++ [.string ent.caller.function] else elems
  else elems

/-- `c.addSeparatorIfNecessary(line)` -/
def addSeparatorIfNecessary (line : Buffer) : Buffer :=
  if line ≠ [] then line ++ cfg.consoleSeparator else line

/-- `c.writeContext(line, extra)`: the context of a clone of `enc` with `extra` added, between
braces, when it is not empty. -/
def writeContext (enc : JsonEncoder) (line : Buffer) (extra : List Field) : Buffer :=
  let context := (JsonEncoder.run cfg true std (addFields extra) enc.clone).1.closeOpenNamespaces
  if context.buf = [] then line
  else addSeparatorIfNecessary cfg line ++ [0x7B] ++ context.buf ++ [0x7D]

/-- `c.EncodeEntry(ent, fields)` -/
def consoleEncodeEntry (enc : JsonEncoder) (ent : Entry) (fields : List Field) :
    Outcome (List UInt8) :=
  let line := List.intercalate cfg.consoleSeparator ((consoleMetadata cfg std ent).map fprint)
  let line := if cfg.messageKey ≠ [] then addSeparatorIfNecessary cfg line ++ ent.message else line
  let line := writeContext cfg std enc line fields
  let line := if ent.stack ≠ [] ∧ cfg.stacktraceKey ≠ [] then line ++ [0x0A] ++ ent.stack else line
  .ok (line ++ cfg.lineEnding)

/-- The console encoder as an `ioCore` uses it: its `With` is the spaced JSON encoder's. -/
def consoleOps : Encoder JsonEncoder where
  clone := JsonEncoder.clone
  run enc p := (JsonEncoder.run cfg true std p enc).1
  encodeEntry := consoleEncodeEntry cfg std fprint

end Console

/-! ## `With` commutes with `EncodeEntry` -/

section With

variable (cfg : EncoderConfig) (spaced : Bool) (std : GoStd)

@[simp] theorem JsonEncoder.clone_eq (enc : JsonEncoder) : enc.clone = enc := rfl

/-- The splice of the context in `EncodeEntry` is the separator's join. -/
theorem splice_eq_join (buf context : Buffer) :
    (if context ≠ [] then addElementSeparator spaced buf ++ context else buf) =
      (jsonSeparator spaced).join buf context := by
  by_cases h : context = [] <;> simp [h, join, jsonSeparator]

/-- Fields a `With` added before are spliced as if they had been passed with the entry. -/
theorem encodeFields_run (enc : JsonEncoder) (buf : Buffer) (ent : Entry) (fs gs : List Field) :
    encodeFields cfg spaced std (JsonEncoder.run cfg spaced std (addFields fs) enc).1 buf ent gs =
      encodeFields cfg spaced std enc buf ent (fs ++ gs) := by
  obtain ⟨b, n⟩ := enc
  have hF := runJoins cfg spaced std (addFields fs)
  simp only [encodeFields, splice_eq_join, run_addFields_append, hF b n,
    hF ((jsonSeparator spaced).join buf b) n, join_assoc]

theorem encodeEntry_run (enc : JsonEncoder) (ent : Entry) (fs gs : List Field) :
    encodeEntry cfg spaced std (JsonEncoder.run cfg spaced std (addFields fs) enc).1 ent gs =
      encodeEntry cfg spaced std enc ent (fs ++ gs) := by
  simp only [encodeEntry, encodeFields_run]

theorem writeContext_run (enc : JsonEncoder) (line : Buffer) (fs gs : List Field) :
    writeContext cfg std (JsonEncoder.run cfg true std (addFields fs) enc).1 line gs =
      writeContext cfg std enc line (fs ++ gs) := by
  simp only [writeContext, JsonEncoder.clone_eq, run_addFields_append]
  rfl

theorem consoleEncodeEntry_run (fprint : MapVal → List UInt8) (enc : JsonEncoder) (ent : Entry)
    (fs gs : List Field) :
    consoleEncodeEntry cfg std fprint (JsonEncoder.run cfg true std (addFields fs) enc).1 ent gs =
      consoleEncodeEntry cfg std fprint enc ent (fs ++ gs) := by
  simp only [consoleEncodeEntry, writeContext_run cfg std]

theorem jsonOps_encodeEntry_withEncoder (enc : JsonEncoder) (ent : Entry) (fss : List (List Field))
    (gs : List Field) :
    (jsonOps cfg spaced std).encodeEntry (withEncoder (jsonOps cfg spaced std) enc fss) ent gs =
      (jsonOps cfg spaced std).encodeEntry enc ent (fss.flatten ++ gs) := by
  induction fss generalizing enc with
  | nil => simp [withEncoder]
  | cons fs fss ih =>
    -- the first `With` is one more field list in front of the rest
    simp only [withEncoder, List.foldl_cons, List.flatten_cons, List.append_assoc] at ih ⊢
    rw [ih]
    exact encodeEntry_run cfg spaced std enc ent fs _

theorem consoleOps_encodeEntry_withEncoder (fprint : MapVal → List UInt8) (enc : JsonEncoder)
    (ent : Entry) (fss : List (List Field)) (gs : List Field) :
    (consoleOps cfg std fprint).encodeEntry (withEncoder (consoleOps cfg std fprint) enc fss) ent gs =
      (consoleOps cfg std fprint).encodeEntry enc ent (fss.flatten ++ gs) := by
  induction fss generalizing enc with
  | nil => simp [withEncoder]
  | cons fs fss ih =>
    simp only [withEncoder, List.foldl_cons, List.flatten_cons, List.append_assoc] at ih ⊢
    rw [ih]
    exact consoleEncodeEntry_run cfg std fprint enc ent fs _

/-- `With(F₁)`, ..., `With(Fₖ)` then `EncodeEntry(ent, G)` is `EncodeEntry(ent, F₁ ++ ... ++ Fₖ ++ G)`
on the base encoder, for the JSON encoder of any spacing and for the console encoder. -/
theorem encodeEntry_withEncoder (fprint : MapVal → List UInt8) (enc : JsonEncoder) (ent : Entry)
    (fss : List (List Field)) (gs : List Field) :
    (jsonOps cfg spaced std).encodeEntry (withEncoder (jsonOps cfg spaced std) enc fss) ent gs =
      (jsonOps cfg spaced std).encodeEntry enc ent (fss.flatten ++ gs) ∧
    (consoleOps cfg std fprint).encodeEntry (withEncoder (consoleOps cfg std fprint) enc fss) ent gs =
      (consoleOps cfg std fprint).encodeEntry enc ent (fss.flatten ++ gs) :=
  ⟨jsonOps_encodeEntry_withEncoder cfg spaced std enc ent fss gs,
    consoleOps_encodeEntry_withEncoder cfg std fprint enc ent fss gs⟩

end With

end Zap.Zapcore
