import Zap.Zapcore.Field
import Zap.Go.Multierr

/-!
# Zap.Zapcore.Core — the `Core` tree, `CheckedEntry`, and `LevelOf` on cores

The cores zap builds form a tree: `ioCore` and `nopCore` at the leaves; `multiCore` (`NewTee`),
`hooked` (`RegisterHooks`), `levelFilterCore` (`NewIncreaseLevelCore`), `sampler`
(`NewSamplerWithOptions`) and `lazyWithCore` (`NewLazyWith`) above them.  The encoder of an
`ioCore` is any `Encoder E`.  `Check` threads the sampler counters (shared by a sampler and the
samplers `With` derives from it, so kept in a store indexed by the sampler) and the events it
causes; `Write` returns the events it causes and how it ended: with the error `multierr.Append`
collected (`Multierr`, a parameter), or in an encoder's panic, which ends the whole write.

* `Core.enabled`, `Core.level`, `Core.levelOf`: `Enabled`, `Level()` and `LevelOf` per core.
* `Core.check`, `CheckedEntry.write`: `Check` and `Write`, down to the hooks they run.
* `checkedEntry_write_reports_failures`: a written entry reports to its `ErrorOutput` exactly
  when a sink write or a hook failed somewhere in its cores.
-/

namespace Zap.Zapcore

open Go Go.Utf8

/-- The part of the `Encoder` interface a core uses: `Clone`, the `ObjectEncoder` methods
(through which `addFields` runs) and `EncodeEntry`. -/
structure Encoder (E : Type) where
  clone : E → E
  run : E → ObjectMarshaler → E
  encodeEntry : E → Entry → List Field → Outcome (List UInt8)

/-- A `WriteSyncer`: which output it is, and the error its `Write` returns. -/
structure WriteSyncer where
  id : Nat
  writeErr : Option (List UInt8)

/-- A function passed to `RegisterHooks`, and the error it returns for an entry. -/
structure Hook where
  id : Nat
  call : Entry → Option (List UInt8)

/-- `SamplingDecision` -/
inductive SamplingDecision where
  | logDropped
  | logSampled
  deriving DecidableEq

/-- `CheckWriteAction` -/
inductive CheckWriteAction where
  | writeThenNoop
  | writeThenGoexit
  | writeThenPanic
  | writeThenFatal
  deriving DecidableEq

/-- A `CheckWriteHook`: one of the actions, or a user's hook. -/
inductive CheckWriteHook where
  | action (a : CheckWriteAction)
  | custom (id : Nat)
  deriving DecidableEq

/-- What checking and writing an entry does outside the cores. -/
inductive Event where
  /-- `out.Write(bytes)` -/
  | write (out : Nat) (bytes : List UInt8)
  /-- `out.Sync()` -/
  | sync (out : Nat)
  /-- a function passed to `RegisterHooks` ran -/
  | hook (id : Nat) (ent : Entry)
  /-- a `SamplerHook` ran -/
  | sampled (sampler : Nat) (ent : Entry) (dec : SamplingDecision)
  /-- `hook.OnWrite(ce, fields)` of the entry's `after` hook ran -/
  | onWrite (h : CheckWriteHook) (ent : Entry)
  /-- a line was written to the entry's `ErrorOutput` -/
  | errorOutput (out : Nat)
  /-- the encoder panicked with value `v` -/
  | panicked (v : List UInt8)

/-- `counter`: `resetAt` and `counter` of one sampler bucket. -/
structure Counter where
  resetAt : Int64
  counter : UInt64

/-- `Core` -/
inductive Core (E : Type) where
  | nop
  | io (enab : LevelEnabler) (enc : E) (out : WriteSyncer)
  | multi (cores : List (Core E))
  | hooked (core : Core E) (funcs : List Hook)
  | levelFilter (core : Core E) (level : LevelEnabler)
  /-- `counts` names the `*counters` the sampler shares with the samplers `With` derives. -/
  | sampler (core : Core E) (counts : Nat) (tick : Int64) (first thereafter : UInt64)
      (hook : Option Nat)
  | lazyWith (core : Core E) (fields : List Field)

variable {E : Type}

/-- `NewNopCore()` -/
def newNopCore : Core E := .nop

/-- `NewCore(enc, ws, enab)` -/
def newCore (enc : E) (ws : WriteSyncer) (enab : LevelEnabler) : Core E := .io enab enc ws

/-- `NewTee(cores...)` -/
def newTee : List (Core E) → Core E
  | [] => newNopCore
  | [c] => c
  | cores => .multi cores

/-- `RegisterHooks(core, hooks...)` -/
def registerHooks (core : Core E) (hooks : List Hook) : Core E := .hooked core hooks

/-- `NewLazyWith(core, fields)` -/
def newLazyWith (core : Core E) (fields : List Field) : Core E := .lazyWith core fields

/-- `NewSamplerWithOptions(core, tick, first, thereafter, SamplerHook(hook)...)`; `counts` names
the fresh `newCounters()`. -/
def newSamplerWithOptions (core : Core E) (counts : Nat) (tick : Int64) (first thereafter : Int64)
    (hook : Option Nat) : Core E :=
  .sampler core counts tick first.toUInt64 thereafter.toUInt64 hook

/-! ## `Enabled`, `Level()` and `LevelOf` -/

mutual

/-- `c.Enabled(lvl)` -/
def Core.enabled : Core E → Level → Bool
  | .nop, _ => false
  | .io enab _ _, lvl => enab.enabled lvl
  | .multi cs, lvl => anyEnabled cs lvl
  | .hooked c _, lvl => c.enabled lvl
  | .levelFilter _ level, lvl => level.enabled lvl
  | .sampler c _ _ _ _ _, lvl => c.enabled lvl
  | .lazyWith c _, lvl => c.enabled lvl

/-- The loop of `multiCore.Enabled`. -/
def anyEnabled : List (Core E) → Level → Bool
  | [], _ => false
  | c :: cs, lvl => c.enabled lvl || anyEnabled cs lvl

end

mutual

/-- `c.Level()`, for the cores that implement `leveledEnabler`. -/
def Core.level : Core E → Option Level
  | .nop => none
  | .io enab _ _ => some (levelOf enab)
  | .multi cs => some (multiLevel cs maxLevel)
  | .hooked c _ => some (levelOf ⟨c.enabled, c.level⟩)
  | .levelFilter _ level => some (levelOf level)
  | .sampler c _ _ _ _ _ => some (levelOf ⟨c.enabled, c.level⟩)
  | .lazyWith _ _ => none

/-- The loop of `multiCore.Level`: `minLvl` starts at `_maxLevel` and takes each smaller
`LevelOf(mc[i])`. -/
def multiLevel : List (Core E) → Level → Level
  | [], minLvl => minLvl
  | c :: cs, minLvl =>
    let lvl := levelOf ⟨c.enabled, c.level⟩
    multiLevel cs (if lvl < minLvl then lvl else minLvl)

end

/-- A core as a `LevelEnabler`. -/
def Core.toEnabler (c : Core E) : LevelEnabler := ⟨c.enabled, c.level⟩

/-- `LevelOf(c)` -/
def Core.levelOf (c : Core E) : Level := Zapcore.levelOf c.toEnabler

/-! ## `With` -/

section With

variable (ops : Encoder E)

/-- The encoder of an `ioCore` after `With(fs)` for each `fs` of `fss` in turn: `enc.Clone()`,
then `addFields` on the clone. -/
def withEncoder (enc : E) (fss : List (List Field)) : E :=
  fss.foldl (fun e fs => ops.run (ops.clone e) (addFields fs)) enc

mutual

/-- `c.With(fs)` for each `fs` of `fss` in turn.  A `lazyWithCore` applies its own fields
first: its `With` runs `initOnce` (`d.Core = d.Core.With(d.fields)`) and then `d.Core.With`. -/
def Core.withs : Core E → List (List Field) → Core E
  | .nop, _ => .nop
  | .io enab enc out, fss => .io enab (withEncoder ops enc fss) out
  | .multi cs, fss => .multi (withsAll cs fss)
  | .hooked c funcs, fss => .hooked (c.withs fss) funcs
  | .levelFilter c level, fss => .levelFilter (c.withs fss) level
  | .sampler c counts tick first thereafter hook, fss =>
    .sampler (c.withs fss) counts tick first thereafter hook
  | .lazyWith c fs, fss => c.withs (fs :: fss)

/-- The loop of `multiCore.With`. -/
def withsAll : List (Core E) → List (List Field) → List (Core E)
  | [], _ => []
  | c :: cs, fss => c.withs fss :: withsAll cs fss

end

/-- `c.With(fields)` -/
def Core.with (c : Core E) (fields : List Field) : Core E := c.withs ops [fields]

end With

/-! ## `Check` -/

/-- `CheckedEntry` -/
structure CheckedEntry (E : Type) where
  entry : Entry
  errorOutput : Option Nat
  dirty : Bool
  after : Option CheckWriteHook
  cores : List (Core E)

/-- A `CheckedEntry` from the pool, reset, holding `ent`. -/
def CheckedEntry.fresh (ent : Entry) : CheckedEntry E :=
  { entry := ent, errorOutput := none, dirty := false, after := none, cores := [] }

/-- `ce.AddCore(ent, core)`: a nil `ce` is first replaced by a fresh entry. -/
def CheckedEntry.addCore (ce : Option (CheckedEntry E)) (ent : Entry) (core : Core E) :
    CheckedEntry E :=
  let ce := ce.getD (CheckedEntry.fresh ent)
  { ce with cores := ce.cores ++ [core] }

/-- `ce.After(ent, hook)`: a nil `ce` is first replaced by a fresh entry. -/
def CheckedEntry.setAfter (ce : Option (CheckedEntry E)) (ent : Entry) (hook : CheckWriteHook) :
    CheckedEntry E :=
  { ce.getD (CheckedEntry.fresh ent) with after := some hook }

/-- `fnv32a(s)` -/
def fnv32a (s : List UInt8) : UInt32 :=
  s.foldl (fun hash b => (hash ^^^ b.toUInt32) * 16777619) 2166136261

/-- `_countersPerLevel` -/
def countersPerLevel : UInt32 := 4096

/-- `counter.IncCheckReset(t, tick)`, run alone: the count and the updated counter. -/
def incCheckReset (c : Counter) (t : Time) (tick : Int64) : UInt64 × Counter :=
  let tn : Int64 := Int64.ofInt t.UnixNano
  if c.resetAt > tn then (c.counter + 1, { c with counter := c.counter + 1 })
  else (1, { resetAt := tn + tick, counter := 1 })

/-- The sampler counters of every sampler (by the name of its `*counters`) and the events so far. -/
structure CheckState where
  counts : Nat → Nat → UInt32 → Counter
  events : List Event

/-- The state after the sampler `s` stores `ctr` in its bucket `(i, j)`. -/
def CheckState.setCounter (st : CheckState) (s i : Nat) (j : UInt32) (ctr : Counter) :
    CheckState :=
  { st with
    counts := Function.update st.counts s
      (Function.update (st.counts s) i (Function.update (st.counts s i) j ctr)) }

/-- `s.hook(ent, dec)`; the default hook does nothing. -/
def samplerHook (hook : Option Nat) (ent : Entry) (dec : SamplingDecision) (st : CheckState) :
    CheckState :=
  match hook with
  | some h => { st with events := st.events ++ [.sampled h ent dec] }
  | none => st

section Check

variable (ops : Encoder E)

mutual

/-- `(c.With(fss...)).Check(ent, ce)` -/
def Core.check : Core E → List (List Field) → Entry → Option (CheckedEntry E) → CheckState →
    Option (CheckedEntry E) × CheckState
  | .nop, _, _, ce, st => (ce, st)
  | .io enab enc out, fss, ent, ce, st =>
    if enab.enabled ent.level then (some (CheckedEntry.addCore ce ent
      (.io enab (withEncoder ops enc fss) out)), st) else (ce, st)
  | .multi cs, fss, ent, ce, st => checkAll cs fss ent ce st
  | .hooked c funcs, fss, ent, ce, st =>
    match c.check fss ent ce st with
    | (some downstream, st) =>
      (some (CheckedEntry.addCore (some downstream) ent ((Core.hooked c funcs).withs ops fss)), st)
    | (none, st) => (ce, st)
  | .levelFilter c level, fss, ent, ce, st =>
    if !level.enabled ent.level then (ce, st) else c.check fss ent ce st
  | .sampler c counts tick first thereafter hook, fss, ent, ce, st =>
    if !c.enabled ent.level then (ce, st)
    else if minLevel ≤ ent.level ∧ ent.level ≤ maxLevel then
      let i := (ent.level - minLevel).toNatClampNeg
      let j := fnv32a ent.message % countersPerLevel
      let (n, ctr) := incCheckReset (st.counts counts i j) ent.time tick
      let st := st.setCounter counts i j ctr
      if n > first && (thereafter == 0 || (n - first) % thereafter != 0) then
        (ce, samplerHook hook ent .logDropped st)
      else c.check fss ent ce (samplerHook hook ent .logSampled st)
    else c.check fss ent ce st
  | .lazyWith c fs, fss, ent, ce, st => c.check (fs :: fss) ent ce st

/-- The loop of `multiCore.Check`. -/
def checkAll : List (Core E) → List (List Field) → Entry → Option (CheckedEntry E) → CheckState →
    Option (CheckedEntry E) × CheckState
  | [], _, _, ce, st => (ce, st)
  | c :: cs, fss, ent, ce, st =>
    match c.check fss ent ce st with
    | (ce, st) => checkAll cs fss ent ce st

end

/-- An `ioCore` that enables the entry's level adds itself, with the pending fields. -/
theorem io_check_of_enabled {enab : LevelEnabler} {ent : Entry} (h : enab.enabled ent.level = true)
    (enc : E) (out : WriteSyncer) (fss : List (List Field)) (ce : Option (CheckedEntry E))
    (st : CheckState) :
    (Core.io enab enc out).check ops fss ent ce st =
      (some (CheckedEntry.addCore ce ent (.io enab (withEncoder ops enc fss) out)), st) := by
  rw [Core.check, if_pos h]

mutual

/-- **A core that does not enable the entry's level adds nothing** to a fresh check, and leaves
the counters and the events alone.  Given an entry, a `hooked` core whose inner core hands it back
adds itself whether enabled or not, so the statement is about `ce = nil`. -/
theorem Core.check_of_not_enabled : ∀ (c : Core E) (fss : List (List Field)) (ent : Entry)
    (st : CheckState), c.enabled ent.level = false → c.check ops fss ent none st = (none, st)
  | .nop, _, _, _, _ => rfl
  | .io enab enc out, fss, ent, st, h => by
    simp only [Core.enabled] at h
    rw [Core.check, if_neg (by simp [h])]
  | .multi cs, fss, ent, st, h => by
    simp only [Core.enabled] at h
    exact checkAll_of_not_enabled cs fss ent st h
  | .hooked c funcs, fss, ent, st, h => by
    simp only [Core.enabled] at h
    simp only [Core.check, Core.check_of_not_enabled c fss ent st h]
  | .levelFilter c level, fss, ent, st, h => by
    simp only [Core.enabled] at h
    rw [Core.check, if_pos (by simp [h])]
  | .sampler c counts tick first thereafter hook, fss, ent, st, h => by
    simp only [Core.enabled] at h
    rw [Core.check, if_pos (by simp [h])]
  | .lazyWith c fs, fss, ent, st, h => by
    simp only [Core.enabled] at h
    exact Core.check_of_not_enabled c (fs :: fss) ent st h

theorem checkAll_of_not_enabled : ∀ (cs : List (Core E)) (fss : List (List Field)) (ent : Entry)
    (st : CheckState), anyEnabled cs ent.level = false → checkAll ops cs fss ent none st = (none, st)
  | [], _, _, _, _ => rfl
  | c :: cs, fss, ent, st, h => by
    simp only [anyEnabled, Bool.or_eq_false_iff] at h
    simp only [checkAll, Core.check_of_not_enabled c fss ent st h.1]
    exact checkAll_of_not_enabled cs fss ent st h.2

end

end Check

/-! ## `Write` -/

/-- How a `Write` call ended: it returned its error (`none` for nil), or an encoder panicked and
the panic unwinds every caller. -/
inductive WriteEnd where
  | returned (err : Option (List UInt8))
  | panicked
  deriving DecidableEq

section Write

variable (ops : Encoder E) (merr : Multierr (List UInt8))

mutual

/-- `(c.With(fss...)).Write(ent, fields)`: the events, and how the call ended.  A `lazyWithCore`
writes through `d.Core`, which its `Check` has replaced by `d.Core.With(d.fields)`. -/
def Core.write : Core E → List (List Field) → Entry → List Field → List Event × WriteEnd
  | .nop, _, _, _ => ([], .returned none)
  | .io _ enc out, fss, ent, fields =>
    match ops.encodeEntry (withEncoder ops enc fss) ent fields with
    | .panic _ v => ([.panicked v], .panicked)
    | .ok buf =>
      match out.writeErr with
      | some e => ([.write out.id buf], .returned (some e))
      | none =>
        (.write out.id buf :: if ent.level > errorLevel then [.sync out.id] else [], .returned none)
  | .multi cs, fss, ent, fields => writeAll cs fss ent fields none
  | .hooked _ funcs, _, ent, _ =>
    (funcs.map fun h => .hook h.id ent, .returned (merr.appendAll none (funcs.map fun h => h.call ent)))
  | .levelFilter c _, fss, ent, fields => c.write fss ent fields
  | .sampler c _ _ _ _ _, fss, ent, fields => c.write fss ent fields
  | .lazyWith c fs, fss, ent, fields => c.write (fs :: fss) ent fields

/-- The loop of `multiCore.Write`, with the error collected so far: each member's `Write`, its
error appended with `multierr.Append`; a member's panic ends the loop. -/
def writeAll : List (Core E) → List (List Field) → Entry → List Field → Option (List UInt8) →
    List Event × WriteEnd
  | [], _, _, _, err => ([], .returned err)
  | c :: cs, fss, ent, fields, err =>
    match c.write fss ent fields with
    | (evs, .panicked) => (evs, .panicked)
    | (evs, .returned e) =>
      let r := writeAll cs fss ent fields (merr.append err e)
      (evs ++ r.1, r.2)

end

/-- What a write did and, if it returned `e`, what `k e` does next; a panic ends it. -/
def WriteEnd.andThen (w : List Event × WriteEnd) (k : Option (List UInt8) → List Event × WriteEnd) :
    List Event × WriteEnd :=
  match w with
  | (evs, .panicked) => (evs, .panicked)
  | (evs, .returned e) => (evs ++ (k e).1, (k e).2)

/-! The loop of `multiCore.Write` is a sequence of `andThen`s; these are the laws it obeys. -/

theorem WriteEnd.returned_andThen (e : Option (List UInt8))
    (k : Option (List UInt8) → List Event × WriteEnd) :
    WriteEnd.andThen ([], .returned e) k = k e := rfl

theorem WriteEnd.andThen_returned (w : List Event × WriteEnd) :
    WriteEnd.andThen w (fun e => ([], .returned e)) = w := by
  obtain ⟨evs, _ | _⟩ := w <;> simp [WriteEnd.andThen]

theorem WriteEnd.andThen_assoc (w : List Event × WriteEnd)
    (k k' : Option (List UInt8) → List Event × WriteEnd) :
    WriteEnd.andThen (WriteEnd.andThen w k) k' =
      WriteEnd.andThen w fun e => WriteEnd.andThen (k e) k' := by
  obtain ⟨evs, e | _⟩ := w
  · rcases hk : k e with ⟨evs', _ | _⟩ <;> simp [WriteEnd.andThen, hk]
  · rfl

theorem writeAll_nil (fss : List (List Field)) (ent : Entry) (fields : List Field)
    (err : Option (List UInt8)) : writeAll ops merr [] fss ent fields err = ([], .returned err) := rfl

theorem writeAll_cons (c : Core E) (cs : List (Core E)) (fss : List (List Field)) (ent : Entry)
    (fields : List Field) (err : Option (List UInt8)) :
    writeAll ops merr (c :: cs) fss ent fields err =
      WriteEnd.andThen (c.write ops merr fss ent fields) fun e =>
        writeAll ops merr cs fss ent fields (merr.append err e) :=
  rfl

/-- The loop over `cs ++ ds` is the loop over `cs`, then, unless it panicked, the loop over `ds`. -/
theorem writeAll_append (cs ds : List (Core E)) (fss : List (List Field)) (ent : Entry)
    (fields : List Field) (err : Option (List UInt8)) :
    writeAll ops merr (cs ++ ds) fss ent fields err =
      WriteEnd.andThen (writeAll ops merr cs fss ent fields err) fun e =>
        writeAll ops merr ds fss ent fields e := by
  induction cs generalizing err with
  | nil => simp only [List.nil_append, writeAll_nil, WriteEnd.returned_andThen]
  | cons c cs ih => simp only [List.cons_append, writeAll_cons, ih, WriteEnd.andThen_assoc]

/-- The loop from `err` is the loop from nil with its error appended to `err`: `multierr.Append`
skips nil and flattens. -/
theorem writeAll_from (cs : List (Core E)) (fss : List (List Field)) (ent : Entry)
    (fields : List Field) (err : Option (List UInt8)) :
    writeAll ops merr cs fss ent fields err =
      WriteEnd.andThen (writeAll ops merr cs fss ent fields none) fun e =>
        ([], .returned (merr.append err e)) := by
  induction cs generalizing err with
  | nil => simp only [writeAll_nil, WriteEnd.returned_andThen, merr.append_none]
  | cons c cs ih =>
    -- both sides continue after `c` from the tail's loop from nil
    simp only [writeAll_cons, WriteEnd.andThen_assoc, merr.none_append]
    congr 1
    funext e
    rw [ih (merr.append err e), ih e, WriteEnd.andThen_assoc]
    simp only [WriteEnd.returned_andThen, merr.append_assoc]

/-- A line to `ErrorOutput`, when there is one. -/
def errorOutputLine (out : Option Nat) : List Event :=
  match out with
  | some o => [.errorOutput o]
  | none => []

/-- `ce.Write(fields...)`: nothing for a nil `ce`, a warning for a dirty one; else each core's
`Write`, a line for the error, and the `after` hook. -/
def CheckedEntry.write (ce : Option (CheckedEntry E)) (fields : List Field) : List Event :=
  match ce with
  | none => []
  | some ce =>
    if ce.dirty then errorOutputLine ce.errorOutput
    else
      match writeAll ops merr ce.cores [] ce.entry fields none with
      -- the panic unwinds `Write` before the error line and the `after` hook
      | (evs, .panicked) => evs
      | (evs, .returned err) =>
        evs ++ (if err.isSome then errorOutputLine ce.errorOutput else []) ++
          match ce.after with
          | some h => [.onWrite h ce.entry]
          | none => []

end Write

/-- The terminal hook the event runs, if it is the run of one. -/
def Event.onWriteHook : Event → Option CheckWriteHook
  | .onWrite h _ => some h
  | _ => none

/-- The event is a run of the `RegisterHooks` function `id`. -/
def Event.isHook (id : Nat) : Event → Bool
  | .hook i _ => i == id
  | _ => false

/-! ## A `Tee` of cores that enable nothing -/

/-- A `Tee` of two `NopCore`s enables no level, yet `LevelOf` reports `FatalLevel`: the minimum
`multiCore.Level` takes starts from `_maxLevel`, and `InvalidLevel` is never below it. -/
theorem levelOf_tee_of_nopCores :
    (newTee [(newNopCore : Core E), newNopCore]).levelOf = fatalLevel ∧
    (∀ l, (newTee [(newNopCore : Core E), newNopCore]).enabled l = false) ∧
    ¬ LeastEnabled (newTee [(newNopCore : Core E), newNopCore]).enabled
      (newTee [(newNopCore : Core E), newNopCore]).levelOf := by
  have hen : ∀ l, (newTee [(newNopCore : Core E), newNopCore]).enabled l = false := fun _ => rfl
  have hlvl : (newTee [(newNopCore : Core E), newNopCore]).levelOf = fatalLevel := rfl
  refine ⟨hlvl, hen, ?_⟩
  rintro (⟨-, hon, -⟩ | ⟨hinv, -⟩)
  · rw [hen] at hon
    exact Bool.false_ne_true hon
  · rw [hlvl] at hinv
    exact absurd hinv (by decide)

/-! ## Hooks inside a `Tee` -/

section Hooks

variable (ops : Encoder E) (merr : Multierr (List UInt8))

/-- An `ioCore` runs no `RegisterHooks` function. -/
theorem io_write_no_hook (enab : LevelEnabler) (enc : E) (out : WriteSyncer)
    (fss : List (List Field)) (ent : Entry) (fields : List Field) (id : Nat) :
    ((Core.io enab enc out).write ops merr fss ent fields).1.filter (Event.isHook id) = [] := by
  simp only [Core.write]
  split
  · rfl
  · split
    · rfl
    · split <;> rfl

/-- An `ioCore` whose encoder returns the entry's bytes returns its output's error. -/
theorem io_write_of_ok (enab : LevelEnabler) (enc : E) (out : WriteSyncer)
    (fss : List (List Field)) (ent : Entry) (fields : List Field) {buf : List UInt8}
    (h : ops.encodeEntry (withEncoder ops enc fss) ent fields = .ok buf) :
    ∃ evs, (Core.io enab enc out).write ops merr fss ent fields = (evs, .returned out.writeErr) := by
  obtain ⟨id, _ | e⟩ := out <;> simp [Core.write, h]

theorem write_hooked (c : Core E) (funcs : List Hook) (fss : List (List Field)) (ent : Entry)
    (fields : List Field) :
    (Core.hooked c funcs).write ops merr fss ent fields =
      (funcs.map fun h => .hook h.id ent,
        .returned (merr.appendAll none (funcs.map fun h => h.call ent))) := rfl

theorem errorOutputLine_no_hook (out : Option Nat) (id : Nat) :
    (errorOutputLine out).filter (Event.isHook id) = [] := by
  cases out <;> rfl

/-- A hooked core inside a `Tee` runs its hooks for an entry its wrapped core rejects, once an
earlier member of the `Tee` has accepted it: `hooked.Check` sees the `CheckedEntry` the sibling
made, not a sign that its own core accepted.  (An encoder panic in the sibling's `Write` would end
the write before the hooks.) -/
theorem hooked_runs_after_sibling_accepts (enc₁ enc₂ : E) (out₁ out₂ : WriteSyncer) (h : Hook)
    (ent : Entry) (fields : List Field) (st : CheckState)
    (henc : ∃ buf, ops.encodeEntry enc₁ { ent with level := infoLevel } fields = .ok buf) :
    (∀ ce, ((newCore enc₂ out₂ fatalLevel.toEnabler : Core E).check ops []
      { ent with level := infoLevel } ce st).1 = ce) ∧
    ((CheckedEntry.write ops merr ((newTee [newCore enc₁ out₁ debugLevel.toEnabler,
      registerHooks (newCore enc₂ out₂ fatalLevel.toEnabler) [h]]).check ops []
        { ent with level := infoLevel } none st).1 fields).filter (Event.isHook h.id)).length = 1 := by
  constructor
  · -- the wrapped core rejects `InfoLevel`, so it hands back what it was given
    intro ce
    rfl
  · have h₁ : debugLevel.toEnabler.enabled infoLevel = true := rfl
    have h₂ : fatalLevel.toEnabler.enabled infoLevel = false := rfl
    -- the first member accepts and makes the entry; the hooked core then adds itself to it
    have hce : ((newTee [newCore enc₁ out₁ debugLevel.toEnabler,
        registerHooks (newCore enc₂ out₂ fatalLevel.toEnabler) [h]]).check ops []
          { ent with level := infoLevel } none st).1 =
        some { (CheckedEntry.fresh { ent with level := infoLevel } : CheckedEntry E) with
          cores := [.io debugLevel.toEnabler (withEncoder ops enc₁ []) out₁,
            (registerHooks (newCore enc₂ out₂ fatalLevel.toEnabler) [h]).withs ops []] } := by
      simp only [newTee, newCore, registerHooks, Core.check, checkAll, h₁, h₂, if_true,
        Bool.false_eq_true, if_false, CheckedEntry.addCore, Option.getD_some, Option.getD_none]
      rfl
    -- the sibling's write returns, so the loop goes on to the hooked core
    obtain ⟨buf, hbuf⟩ := henc
    obtain ⟨evs, hw⟩ := io_write_of_ok ops merr debugLevel.toEnabler (withEncoder ops enc₁ []) out₁
      [] { ent with level := infoLevel } fields (by simpa only [withEncoder, List.foldl_nil] using hbuf)
    have hno := io_write_no_hook ops merr debugLevel.toEnabler (withEncoder ops enc₁ []) out₁ []
      { ent with level := infoLevel } fields h.id
    rw [hw] at hno
    rw [hce]
    simp only [CheckedEntry.write, CheckedEntry.fresh, Bool.false_eq_true, if_false, writeAll, hw,
      registerHooks, newCore, Core.withs, write_hooked, List.filter_append, hno,
      errorOutputLine_no_hook, apply_ite (List.filter (Event.isHook h.id)), List.filter_nil]
    simp [Event.isHook]

/-- An encoder that encodes every entry as no bytes. -/
def emptyEncoder : Encoder Unit := ⟨id, fun e _ => e, fun _ _ _ => .ok []⟩

/-- An `Info` entry `ns` nanoseconds after the epoch, with no caller. -/
def infoEntryAt (ns : Int) : Entry := ⟨infoLevel, Time.unix ns, [], [], ⟨false, 0, [], 0, []⟩, []⟩

/-- An `ioCore` that enables every level, writing to output `0` without error. -/
def debugIoCore : Core Unit := .io debugLevel.toEnabler () ⟨0, none⟩

/-- No sampler has counted anything yet, and nothing has happened. -/
def CheckState.initial : CheckState := ⟨fun _ _ _ => ⟨0, 0⟩, []⟩

theorem hooked_runs_after_sibling_accepts_empty :
    (∃ buf, emptyEncoder.encodeEntry () { infoEntryAt 0 with level := infoLevel } [] = .ok buf) ∧
      ((CheckedEntry.write emptyEncoder Multierr.joined ((newTee [newCore () ⟨0, none⟩ debugLevel.toEnabler,
        registerHooks (newCore () ⟨1, none⟩ fatalLevel.toEnabler) [⟨0, fun _ => none⟩]]).check
          emptyEncoder [] { infoEntryAt 0 with level := infoLevel } none CheckState.initial).1 []).filter
            (Event.isHook 0)).length = 1 :=
  ⟨⟨[], rfl⟩, (hooked_runs_after_sibling_accepts emptyEncoder Multierr.joined () () ⟨0, none⟩ ⟨1, none⟩
    ⟨0, fun _ => none⟩ (infoEntryAt 0) [] CheckState.initial ⟨[], rfl⟩).2⟩

end Hooks

/-! ## What checking and writing can do with the terminal hook -/

section Terminal

variable (ops : Encoder E) (merr : Multierr (List UInt8))

theorem samplerHook_onWrite (hook : Option Nat) (ent : Entry) (dec : SamplingDecision)
    (st : CheckState) :
    (samplerHook hook ent dec st).events.filterMap Event.onWriteHook =
      st.events.filterMap Event.onWriteHook := by
  cases hook <;> simp [samplerHook, Event.onWriteHook]

theorem setCounter_events (st : CheckState) (s i : Nat) (j : UInt32) (ctr : Counter) :
    (st.setCounter s i j ctr).events = st.events := rfl

mutual

/-- `Check` runs no terminal hook: the only events it adds are the sampler's. -/
theorem Core.check_onWrite : ∀ (c : Core E) (fss : List (List Field)) (ent : Entry)
    (ce : Option (CheckedEntry E)) (st : CheckState),
    (c.check ops fss ent ce st).2.events.filterMap Event.onWriteHook =
      st.events.filterMap Event.onWriteHook
  | .nop, _, _, _, _ => rfl
  | .io enab enc out, fss, ent, ce, st => by
    simp only [Core.check]
    split <;> rfl
  | .multi cs, fss, ent, ce, st => checkAll_onWrite cs fss ent ce st
  | .hooked c funcs, fss, ent, ce, st => by
    simp only [Core.check]
    have := Core.check_onWrite c fss ent ce st
    split <;> simp_all
  | .levelFilter c level, fss, ent, ce, st => by
    simp only [Core.check]
    split
    · rfl
    · exact Core.check_onWrite c fss ent ce st
  | .sampler c counts tick first thereafter hook, fss, ent, ce, st => by
    simp only [Core.check]
    split
    · rfl
    split
    · split
      · rw [samplerHook_onWrite, setCounter_events]
      · rw [Core.check_onWrite, samplerHook_onWrite, setCounter_events]
    · exact Core.check_onWrite c fss ent ce st
  | .lazyWith c fs, fss, ent, ce, st => Core.check_onWrite c (fs :: fss) ent ce st

theorem checkAll_onWrite : ∀ (cs : List (Core E)) (fss : List (List Field)) (ent : Entry)
    (ce : Option (CheckedEntry E)) (st : CheckState),
    (checkAll ops cs fss ent ce st).2.events.filterMap Event.onWriteHook =
      st.events.filterMap Event.onWriteHook
  | [], _, _, _, _ => rfl
  | c :: cs, fss, ent, ce, st => by
    simp only [checkAll]
    rw [checkAll_onWrite cs, Core.check_onWrite c]

end

/-- A `CheckedEntry` that has not been written. -/
def Clean (ce : Option (CheckedEntry E)) : Prop := ∀ ce' ∈ ce, ce'.dirty = false

theorem addCore_clean {ce : Option (CheckedEntry E)} (h : Clean ce) (ent : Entry) (core : Core E) :
    (CheckedEntry.addCore ce ent core).dirty = false := by
  cases ce with
  | none => rfl
  | some ce => exact h ce rfl

mutual

/-- `Check` hands on an entry that has not been written. -/
theorem Core.check_clean : ∀ (c : Core E) (fss : List (List Field)) (ent : Entry)
    (ce : Option (CheckedEntry E)) (st : CheckState), Clean ce → Clean (c.check ops fss ent ce st).1
  | .nop, _, _, _, _, h => h
  | .io enab enc out, fss, ent, ce, st, h => by
    simp only [Core.check]
    split
    · intro ce' hce'
      cases hce'
      exact addCore_clean h _ _
    · exact h
  | .multi cs, fss, ent, ce, st, h => checkAll_clean cs fss ent ce st h
  | .hooked c funcs, fss, ent, ce, st, h => by
    have hc := Core.check_clean c fss ent ce st h
    simp only [Core.check]
    split
    · next downstream st' heq =>
      rw [heq] at hc
      intro ce' hce'
      cases hce'
      exact addCore_clean hc _ _
    · exact h
  | .levelFilter c level, fss, ent, ce, st, h => by
    simp only [Core.check]
    split
    · exact h
    · exact Core.check_clean c fss ent ce st h
  | .sampler c counts tick first thereafter hook, fss, ent, ce, st, h => by
    simp only [Core.check]
    split
    · exact h
    split
    · split
      · exact h
      · exact Core.check_clean c _ _ _ _ h
    · exact Core.check_clean c fss ent ce st h
  | .lazyWith c fs, fss, ent, ce, st, h => Core.check_clean c (fs :: fss) ent ce st h

theorem checkAll_clean : ∀ (cs : List (Core E)) (fss : List (List Field)) (ent : Entry)
    (ce : Option (CheckedEntry E)) (st : CheckState), Clean ce →
      Clean (checkAll ops cs fss ent ce st).1
  | [], _, _, _, _, h => h
  | c :: cs, fss, ent, ce, st, h => by
    simp only [checkAll]
    exact checkAll_clean cs _ _ _ _ (Core.check_clean c fss ent ce st h)

end

/-- The event is one a core's `Write` makes: a sink's `Write` or `Sync`, a hook's run, or a
panic. -/
def Event.fromCore : Event → Bool
  | .write _ _ | .sync _ | .hook _ _ | .panicked _ => true
  | _ => false

mutual

/-- A core's `Write` makes only sink writes and syncs, hook runs and panics. -/
theorem Core.write_fromCore : ∀ (c : Core E) (fss : List (List Field)) (ent : Entry)
    (fields : List Field), ∀ ev ∈ (c.write ops merr fss ent fields).1, ev.fromCore = true
  | .nop, _, _, _ => by simp [Core.write]
  | .io enab enc out, fss, ent, fields => by
    simp only [Core.write]
    split
    · simp [Event.fromCore]
    · split
      · simp [Event.fromCore]
      · split <;> simp [Event.fromCore]
  | .multi cs, fss, ent, fields => writeAll_fromCore cs fss ent fields none
  | .hooked c funcs, fss, ent, fields => by
    rw [write_hooked]
    simp [Event.fromCore]
  | .levelFilter c _, fss, ent, fields => Core.write_fromCore c fss ent fields
  | .sampler c _ _ _ _ _, fss, ent, fields => Core.write_fromCore c fss ent fields
  | .lazyWith c fs, fss, ent, fields => Core.write_fromCore c (fs :: fss) ent fields

theorem writeAll_fromCore : ∀ (cs : List (Core E)) (fss : List (List Field)) (ent : Entry)
    (fields : List Field) (err : Option (List UInt8)),
    ∀ ev ∈ (writeAll ops merr cs fss ent fields err).1, ev.fromCore = true
  | [], _, _, _, _ => by simp [writeAll]
  | c :: cs, fss, ent, fields, err => by
    have hc := Core.write_fromCore c fss ent fields
    have hcs := writeAll_fromCore cs fss ent fields
    rw [writeAll_cons]
    -- the member's events, then, unless it panicked, the rest of the loop's
    rcases hw : c.write ops merr fss ent fields with ⟨evs, e | _⟩
    · rw [hw] at hc
      simp only [WriteEnd.andThen, List.mem_append]
      rintro ev (hev | hev)
      · exact hc ev hev
      · exact hcs _ ev hev
    · rw [hw] at hc
      exact hc

end

theorem Event.onWriteHook_of_fromCore {ev : Event} (h : ev.fromCore = true) :
    ev.onWriteHook = none := by
  cases ev <;> first | rfl | cases h

/-- The cores' `Write`s run no terminal hook. -/
theorem writeAll_onWrite (cs : List (Core E)) (fss : List (List Field)) (ent : Entry)
    (fields : List Field) (err : Option (List UInt8)) :
    (writeAll ops merr cs fss ent fields err).1.filterMap Event.onWriteHook = [] :=
  List.filterMap_eq_nil_iff.mpr fun ev hev =>
    Event.onWriteHook_of_fromCore (writeAll_fromCore ops merr cs fss ent fields err ev hev)

theorem errorOutputLine_onWrite (out : Option Nat) :
    (errorOutputLine out).filterMap Event.onWriteHook = [] := by
  cases out <;> rfl

/-- Writing an entry that has not been written runs its terminal hook, and only that, unless an
encoder panics and ends the write first. -/
theorem CheckedEntry.write_onWrite (ce : CheckedEntry E) (h : ce.dirty = false)
    (fields : List Field) :
    (CheckedEntry.write ops merr (some ce) fields).filterMap Event.onWriteHook =
      if (writeAll ops merr ce.cores [] ce.entry fields none).2 = .panicked then []
      else ce.after.toList := by
  have hev := writeAll_onWrite ops merr ce.cores [] ce.entry fields none
  simp only [CheckedEntry.write, h, Bool.false_eq_true, if_false]
  generalize writeAll ops merr ce.cores [] ce.entry fields none = r at hev
  obtain ⟨evs, _ | _⟩ := r
  · simp only at hev
    rw [if_neg (by simp), List.filterMap_append, List.filterMap_append, hev,
      apply_ite (List.filterMap Event.onWriteHook), errorOutputLine_onWrite, List.filterMap_nil,
      ite_self, List.nil_append]
    cases ce.after <;> rfl
  · simpa only [if_true] using hev

end Terminal

/-! ## What `Write` reports

`multierr.Append` is nil only when both its errors are, so the error a tree of cores returns is
nil exactly when no sink write and no hook inside it failed; and `CheckedEntry.Write` writes its
line to `ErrorOutput` exactly when that error is not nil. -/

mutual

/-- No sink `Write` and no `RegisterHooks` function that `c.Write(ent, _)` calls fails. -/
def Core.writesClean (ent : Entry) : Core E → Bool
  | .nop => true
  | .io _ _ out => out.writeErr.isNone
  | .multi cs => allWritesClean ent cs
  | .hooked _ funcs => funcs.all fun h => (h.call ent).isNone
  | .levelFilter c _ => c.writesClean ent
  | .sampler c _ _ _ _ _ => c.writesClean ent
  | .lazyWith c _ => c.writesClean ent

def allWritesClean (ent : Entry) : List (Core E) → Bool
  | [] => true
  | c :: cs => c.writesClean ent && allWritesClean ent cs

end

/-- The event is a line written to an `ErrorOutput`. -/
def Event.isErrorOutput : Event → Bool
  | .errorOutput _ => true
  | _ => false

section Reports

variable (ops : Encoder E) (merr : Multierr (List UInt8))

mutual

/-- A core's `Write` that returns returns nil exactly when nothing inside it failed. -/
theorem Core.write_err_none : ∀ (c : Core E) (fss : List (List Field)) (ent : Entry)
    (fields : List Field) (err : Option (List UInt8)),
    (c.write ops merr fss ent fields).2 = .returned err → (err = none ↔ c.writesClean ent = true)
  | .nop, _, _, _, _, h => by
    cases h
    simp [Core.writesClean]
  | .io enab enc out, fss, ent, fields, err, h => by
    simp only [Core.write] at h
    split at h
    · cases h
    · split at h
      · next e he =>
        cases h
        simp [Core.writesClean, he]
      · next he =>
        cases h
        simp [Core.writesClean, he]
  | .multi cs, fss, ent, fields, err, h => by
    rw [writeAll_err_none cs fss ent fields none err h]
    simp [Core.writesClean]
  | .hooked c funcs, fss, ent, fields, err, h => by
    rw [write_hooked] at h
    cases h
    rw [merr.appendAll_eq_none]
    simp [Core.writesClean]
  | .levelFilter c _, fss, ent, fields, err, h => Core.write_err_none c fss ent fields err h
  | .sampler c _ _ _ _ _, fss, ent, fields, err, h => Core.write_err_none c fss ent fields err h
  | .lazyWith c fs, fss, ent, fields, err, h => Core.write_err_none c (fs :: fss) ent fields err h

/-- The loop returns nil exactly when it started from nil and no member failed. -/
theorem writeAll_err_none : ∀ (cs : List (Core E)) (fss : List (List Field)) (ent : Entry)
    (fields : List Field) (acc err : Option (List UInt8)),
    (writeAll ops merr cs fss ent fields acc).2 = .returned err →
      (err = none ↔ acc = none ∧ allWritesClean ent cs = true)
  | [], _, _, _, acc, err, h => by
    cases h
    simp [allWritesClean]
  | c :: cs, fss, ent, fields, acc, err, h => by
    have hc := Core.write_err_none c fss ent fields
    have hcs := writeAll_err_none cs fss ent fields
    rw [writeAll_cons] at h
    rcases hw : c.write ops merr fss ent fields with ⟨evs, e | _⟩
    · rw [hw] at h
      -- the member returned `e`, and the rest of the loop went on from `Append(acc, e)`
      rw [hcs (merr.append acc e) err h, merr.append_eq_none, hc e (by rw [hw])]
      simp only [allWritesClean, Bool.and_eq_true, and_assoc]
    · rw [hw] at h
      simp [WriteEnd.andThen] at h

end

theorem Event.isErrorOutput_of_fromCore {ev : Event} (h : ev.fromCore = true) :
    ev.isErrorOutput = false := by
  cases ev <;> first | rfl | cases h

theorem errorOutputLine_filter (out : Option Nat) :
    (errorOutputLine out).filter Event.isErrorOutput = errorOutputLine out := by
  cases out <;> rfl

/-- **`Write` reports what failed.**  Writing an entry that has not been written, with no encoder
panicking, writes a line to its `ErrorOutput` exactly when a sink write or a hook failed anywhere
in the tree of each of its cores. -/
theorem checkedEntry_write_reports_failures (ce : CheckedEntry E) (hdirty : ce.dirty = false)
    (fields : List Field)
    (hpanic : (writeAll ops merr ce.cores [] ce.entry fields none).2 ≠ .panicked) :
    (CheckedEntry.write ops merr (some ce) fields).filter Event.isErrorOutput =
      if allWritesClean ce.entry ce.cores then [] else errorOutputLine ce.errorOutput := by
  have hev := writeAll_fromCore ops merr ce.cores [] ce.entry fields none
  simp only [CheckedEntry.write, hdirty, Bool.false_eq_true, if_false]
  rcases hw : writeAll ops merr ce.cores [] ce.entry fields none with ⟨evs, err | _⟩
  · have hiff := writeAll_err_none ops merr ce.cores [] ce.entry fields none err (by rw [hw])
    rw [hw] at hev
    -- the cores' own events hold no line to `ErrorOutput`, nor does the `after` hook's
    have hcore : evs.filter Event.isErrorOutput = [] :=
      List.filter_eq_nil_iff.mpr fun ev h => by simp [Event.isErrorOutput_of_fromCore (hev ev h)]
    have hafter : (match ce.after with
        | some h => [Event.onWrite h ce.entry]
        | none => []).filter Event.isErrorOutput = [] := by
      cases ce.after <;> rfl
    simp only [List.filter_append, hcore, hafter, List.nil_append, List.append_nil]
    cases hall : allWritesClean ce.entry ce.cores
    · have hsome : err.isSome := Option.isSome_iff_ne_none.mpr fun h => by
        simpa [hall] using (hiff.mp h).2
      simp [hsome, errorOutputLine_filter]
    · have hnone : err = none := hiff.mpr ⟨rfl, hall⟩
      simp [hnone]
  · exact absurd hw (fun h => hpanic (by rw [h]))

/-- An entry for a `Tee` of a sink whose `Write` fails and a hook that succeeds, with error
output `2`. -/
def failingSinkEntry : CheckedEntry Unit :=
  ⟨infoEntryAt 0, some 2, false, none,
    [.multi [.io debugLevel.toEnabler () ⟨0, some (lit "disk full")⟩,
      .hooked debugIoCore [⟨0, fun _ => none⟩]]]⟩

theorem checkedEntry_write_reports_failures_failingSink :
    failingSinkEntry.dirty = false ∧
      (writeAll emptyEncoder Multierr.joined failingSinkEntry.cores [] failingSinkEntry.entry [] none).2 ≠
        .panicked ∧
      (CheckedEntry.write emptyEncoder Multierr.joined (some failingSinkEntry) []).filter
        Event.isErrorOutput = [.errorOutput 2] :=
  ⟨rfl, by decide,
    (checkedEntry_write_reports_failures emptyEncoder Multierr.joined failingSinkEntry rfl [] (by decide)).trans rfl⟩

end Reports

end Zap.Zapcore
