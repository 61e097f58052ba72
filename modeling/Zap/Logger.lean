import Zap.Zapcore.IncreaseLevel

/-!
# Zap.Logger — `zap.Logger`, the `SugaredLogger` entry points and `zapgrpc.Logger`

`Logger.check` builds the entry, asks the core, and attaches the terminal hook for `Panic`,
`Fatal` and (in development) `DPanic`; every entry point then writes what it returned.  The
clock and the captured call stack are inputs (`Runtime`).  A `SugaredLogger` entry point is
modelled after `fmt` has formatted its message and `sweetenFields` has built its fields.

* `Logger.fatal_runs_terminal_hook`: `Logger.Fatal` runs exactly one terminal hook, whatever
  the core does with the entry, unless an encoder panics.
* `zapgrpc_fatalln_skips_terminal_hook`: `zapgrpc.Logger.Fatalln` runs none when the core does
  not enable `FatalLevel`.
-/

namespace Zap

open Go Go.Utf8 Zapcore

variable {E : Type}

/-- What the logger reads from the runtime at a call: `clock.Now()`, and the first frame and
formatted trace `stacktrace.Capture` returns (`none` when it captures no frame). -/
structure Runtime where
  now : Time
  stack : Option (EntryCaller × List UInt8)

/-- `Logger` -/
structure Logger (E : Type) where
  core : Core E
  development : Bool
  addCaller : Bool
  onPanic : Option CheckWriteHook
  onFatal : Option CheckWriteHook
  name : List UInt8
  errorOutput : Nat
  addStack : LevelEnabler

/-- `New(core)` before its options; `errorOutput` names `os.Stderr`. -/
def Logger.new (core : Core E) (errorOutput : Nat) : Logger E where
  core := core
  development := false
  addCaller := false
  onPanic := none
  onFatal := none
  name := []
  errorOutput := errorOutput
  addStack := (fatalLevel + 1).toEnabler

/-- `WithFatalHook(hook)` -/
def Logger.withFatalHook (log : Logger E) (hook : Option CheckWriteHook) : Logger E :=
  { log with onFatal := hook }

/-- `WithPanicHook(hook)` -/
def Logger.withPanicHook (log : Logger E) (hook : Option CheckWriteHook) : Logger E :=
  { log with onPanic := hook }

/-- `IncreaseLevel(lvl)`: the logger with its core behind a level filter, or, when
`NewIncreaseLevelCore` refuses, the logger as it was and the line written to `log.errorOutput`. -/
def Logger.increaseLevel (quote : List UInt8 → List UInt8) (log : Logger E) (lvl : LevelEnabler) :
    Logger E × List Event :=
  match newIncreaseLevelCore log.core lvl with
  | .error e =>
    (log, [.write log.errorOutput (lit "failed to IncreaseLevel: " ++ e.text quote ++ [0x0A])])
  | .ok core => ({ log with core := core }, [])

/-- `terminalHookOverride(defaultHook, override)` -/
def terminalHookOverride (defaultHook : CheckWriteHook) (override : Option CheckWriteHook) :
    CheckWriteHook :=
  match override with
  | none => defaultHook
  | some h => if h = .action .writeThenNoop then defaultHook else h

section Check

variable (ops : Encoder E) (merr : Multierr (List UInt8))

/-- The terminal hook `Logger.check` attaches at `lvl`, if any. -/
def Logger.terminalHook (log : Logger E) (lvl : Level) : Option CheckWriteHook :=
  if lvl = panicLevel then some (terminalHookOverride (.action .writeThenPanic) log.onPanic)
  else if lvl = fatalLevel then some (terminalHookOverride (.action .writeThenFatal) log.onFatal)
  else if lvl = dPanicLevel ∧ log.development then
    some (terminalHookOverride (.action .writeThenPanic) log.onPanic)
  else none

/-- The annotation `Logger.check` makes on an entry that will be written: the error output,
then the caller and the stack when asked for. -/
def Logger.annotate (log : Logger E) (rt : Runtime) (ce : CheckedEntry E) (st : CheckState) :
    CheckedEntry E × CheckState :=
  let ce := { ce with errorOutput := some log.errorOutput }
  let addStack := log.addStack.enabled ce.entry.level
  if !log.addCaller && !addStack then (ce, st) else
  match rt.stack with
  | none =>
    (ce, if log.addCaller then { st with events := st.events ++ [.errorOutput log.errorOutput] }
      else st)
  | some (frame, trace) =>
    let ce := if log.addCaller then { ce with entry := { ce.entry with caller := frame } } else ce
    ((if addStack then { ce with entry := { ce.entry with stack := trace } } else ce), st)

/-- The entry `Logger.check` builds. -/
def Logger.entry (log : Logger E) (lvl : Level) (msg : List UInt8) (rt : Runtime) : Entry where
  loggerName := log.name
  time := rt.now
  level := lvl
  message := msg
  caller := ⟨false, 0, [], 0, []⟩
  stack := []

/-- `log.check(lvl, msg)` -/
def Logger.check (log : Logger E) (lvl : Level) (msg : List UInt8) (rt : Runtime)
    (st : CheckState) : Option (CheckedEntry E) × CheckState :=
  if lvl < dPanicLevel ∧ log.core.enabled lvl = false then (none, st) else
  let ent := log.entry lvl msg rt
  match log.core.check ops [] ent none st with
  | (ce, st) =>
    let ce' := match log.terminalHook lvl with
      | some h => some (CheckedEntry.setAfter ce ent h)
      | none => ce
    match ce, ce' with
    | some _, some ce' =>
      let r := log.annotate rt ce' st
      (some r.1, r.2)
    | _, _ => (ce', st)

/-- `log.check(lvl, msg)` without its first test: every level goes to the core's `Check`.  The
test only saves work. -/
def Logger.checkUnguarded (log : Logger E) (lvl : Level) (msg : List UInt8) (rt : Runtime)
    (st : CheckState) : Option (CheckedEntry E) × CheckState :=
  let ent := log.entry lvl msg rt
  match log.core.check ops [] ent none st with
  | (ce, st) =>
    let ce' := match log.terminalHook lvl with
      | some h => some (CheckedEntry.setAfter ce ent h)
      | none => ce
    match ce, ce' with
    | some _, some ce' =>
      let r := log.annotate rt ce' st
      (some r.1, r.2)
    | _, _ => (ce', st)

/-- `log.Log(lvl, msg, fields...)`, and `Debug`, ..., `Fatal` at their levels: the events of
the check and of the write. -/
def Logger.log (log : Logger E) (lvl : Level) (msg : List UInt8) (fields : List Field)
    (rt : Runtime) (st : CheckState) : List Event :=
  match log.check ops lvl msg rt st with
  | (ce, st) => st.events ++ CheckedEntry.write ops merr ce fields

/-- `log.Fatal(msg, fields...)` -/
def Logger.fatal (log : Logger E) (msg : List UInt8) (fields : List Field) (rt : Runtime)
    (st : CheckState) : List Event :=
  log.log ops merr fatalLevel msg fields rt st

/-- `SugaredLogger` -/
structure SugaredLogger (E : Type) where
  base : Logger E

/-- `s.log(lvl, template, fmtArgs, context)` and `s.logln(lvl, fmtArgs, context)`, once `fmt`
has made `msg` and `sweetenFields` has made `fields`: they skip only levels below `DPanic` that
the core disables. -/
def SugaredLogger.log (s : SugaredLogger E) (lvl : Level) (msg : List UInt8)
    (fields : List Field) (rt : Runtime) (st : CheckState) : List Event :=
  if lvl < dPanicLevel ∧ s.base.core.enabled lvl = false then [] else
  match s.base.check ops lvl msg rt st with
  | (ce, st) => st.events ++ CheckedEntry.write ops merr ce fields

/-- A `zapgrpc` `printer`: the enabler it asks, its level, and the `SugaredLogger` method
`print` calls. -/
structure Printer (E : Type) where
  enab : Core E
  level : Level
  sugarLevel : Level

/-- `zapgrpc.Logger` -/
structure GrpcLogger (E : Type) where
  delegate : SugaredLogger E
  levelEnabler : Core E
  print : Printer E
  fatal : Printer E

/-- `zapgrpc.NewLogger(l)`, with no options. -/
def newGrpcLogger (l : Logger E) : GrpcLogger E where
  delegate := ⟨l⟩
  levelEnabler := l.core
  print := ⟨l.core, infoLevel, infoLevel⟩
  fatal := ⟨l.core, fatalLevel, fatalLevel⟩

/-- `v.Print(args...)` and `v.Printf(format, args...)`: the sugared method at its level. -/
def Printer.print (v : Printer E) (s : SugaredLogger E) (msg : List UInt8) (rt : Runtime)
    (st : CheckState) : List Event :=
  s.log ops merr v.sugarLevel msg [] rt st

/-- `v.Println(args...)`: guarded by `v.enab.Enabled(v.level)`. -/
def Printer.println (v : Printer E) (s : SugaredLogger E) (msg : List UInt8) (rt : Runtime)
    (st : CheckState) : List Event :=
  if v.enab.enabled v.level then s.log ops merr v.sugarLevel msg [] rt st else []

/-- `l.Fatal(args...)` and `l.Fatalf(format, args...)` -/
def GrpcLogger.fatalPrint (l : GrpcLogger E) (msg : List UInt8) (rt : Runtime) (st : CheckState) :
    List Event :=
  l.fatal.print ops merr l.delegate msg rt st

/-- `l.Fatalln(args...)` -/
def GrpcLogger.fatalln (l : GrpcLogger E) (msg : List UInt8) (rt : Runtime) (st : CheckState) :
    List Event :=
  l.fatal.println ops merr l.delegate msg rt st

end Check

/-- The event is a run of an entry's terminal (`after`) hook. -/
def Event.isOnWrite : Event → Bool
  | .onWrite _ _ => true
  | _ => false

/-! ## `Fatal` always ends in its terminal hook -/

section Terminal

variable (ops : Encoder E) (merr : Multierr (List UInt8))

theorem Logger.annotate_entry (log : Logger E) (rt : Runtime) (ce : CheckedEntry E)
    (st : CheckState) :
    (log.annotate rt ce st).1.dirty = ce.dirty ∧ (log.annotate rt ce st).1.after = ce.after ∧
      (log.annotate rt ce st).2.events.filterMap Event.onWriteHook =
        st.events.filterMap Event.onWriteHook := by
  simp only [Logger.annotate]
  split
  · exact ⟨rfl, rfl, rfl⟩
  · split
    · refine ⟨rfl, rfl, ?_⟩
      split <;> simp [Event.onWriteHook]
    · refine ⟨?_, ?_, rfl⟩ <;> split <;> split <;> rfl

theorem Logger.terminalHook_fatal (log : Logger E) :
    log.terminalHook fatalLevel =
      some (terminalHookOverride (.action .writeThenFatal) log.onFatal) := rfl

/-- `log.check(FatalLevel, msg)` returns an entry, unwritten and carrying the fatal hook, whatever
the core decided; it runs no terminal hook itself. -/
theorem Logger.check_fatal (log : Logger E) (msg : List UInt8) (rt : Runtime) (st : CheckState) :
    ∃ ce, (log.check ops fatalLevel msg rt st).1 = some ce ∧ ce.dirty = false ∧
      ce.after = some (terminalHookOverride (.action .writeThenFatal) log.onFatal) ∧
      (log.check ops fatalLevel msg rt st).2.events.filterMap Event.onWriteHook =
        st.events.filterMap Event.onWriteHook := by
  have hlt : ¬ (fatalLevel < dPanicLevel ∧ log.core.enabled fatalLevel = false) :=
    fun h => absurd h.1 (by decide)
  simp only [Logger.check, hlt, if_false, Logger.terminalHook_fatal]
  -- the core's answer, which `Check` keeps unwritten and which runs no terminal hook
  have hclean := Core.check_clean ops log.core [] (log.entry fatalLevel msg rt) none st
    (fun _ h => nomatch h)
  have hev := Core.check_onWrite ops log.core [] (log.entry fatalLevel msg rt) none st
  generalize log.core.check ops [] (log.entry fatalLevel msg rt) none st = r at hclean hev
  obtain ⟨ce₀, st₀⟩ := r
  have hset : ∀ ent h, (CheckedEntry.setAfter ce₀ ent h).dirty = false := by
    intro ent h
    cases ce₀ with
    | none => rfl
    | some ce => exact hclean ce rfl
  cases ce₀ with
  | none => exact ⟨_, rfl, hset _ _, rfl, hev⟩
  | some ce =>
    obtain ⟨hd, ha, he⟩ := Logger.annotate_entry log rt (CheckedEntry.setAfter (some ce) _ _) st₀
    exact ⟨_, rfl, hd.trans (hset _ _), ha, he.trans hev⟩

/-- `Logger.Fatal` runs exactly one terminal hook, the one `terminalHookOverride` picks, for every
core, unless an encoder panics while the entry is written: the level shortcut stops below
`DPanicLevel` only, and `After` makes an entry where the core made none. -/
theorem Logger.fatal_runs_terminal_hook (log : Logger E) (msg : List UInt8) (fields : List Field)
    (rt : Runtime) (st : CheckState) :
    ∃ ce, (log.check ops fatalLevel msg rt st).1 = some ce ∧
      (log.fatal ops merr msg fields rt st).filterMap Event.onWriteHook =
        st.events.filterMap Event.onWriteHook ++
          if (writeAll ops merr ce.cores [] ce.entry fields none).2 = .panicked then []
          else [terminalHookOverride (.action .writeThenFatal) log.onFatal] := by
  obtain ⟨ce, hce, hd, ha, he⟩ := log.check_fatal ops msg rt st
  refine ⟨ce, hce, ?_⟩
  simp only [Logger.fatal, Logger.log]
  generalize hr : log.check ops fatalLevel msg rt st = r at hce he
  obtain ⟨ce', st'⟩ := r
  cases hce
  rw [List.filterMap_append, he, CheckedEntry.write_onWrite ops merr ce hd, ha]
  rfl

/-- `zapgrpc.NewLogger(l).Fatalln` over a core that enables nothing writes nothing and runs no
terminal hook, whatever hook `l` was built with: `printer.Println` asks `Enabled(FatalLevel)`
before it calls `Fatal`. -/
theorem zapgrpc_fatalln_skips_terminal_hook (out : Nat) (hook : Option CheckWriteHook)
    (msg : List UInt8) (rt : Runtime) (st : CheckState) :
    (newGrpcLogger ((Logger.new (newNopCore : Core E) out).withFatalHook hook)).fatalln ops merr msg rt st
      = [] := rfl

end Terminal

/-! ## The level test of `check` -/

section Shortcut

variable (ops : Encoder E)

/-- Below `DPanicLevel` the logger attaches no terminal hook. -/
theorem Logger.terminalHook_of_lt (log : Logger E) {l : Level} (h : l < dPanicLevel) :
    log.terminalHook l = none := by
  have hp : l ≠ panicLevel := by rintro rfl; exact absurd h (by decide)
  have hf : l ≠ fatalLevel := by rintro rfl; exact absurd h (by decide)
  have hd : ¬(l = dPanicLevel ∧ log.development = true) := by
    rintro ⟨rfl, -⟩
    exact absurd h (by decide)
  rw [Logger.terminalHook, if_neg hp, if_neg hf, if_neg hd]

/-- **The level test of `Logger.check` only saves work**: for every core, level and counter
state, `check` returns what asking the core would have returned.  A core that does not enable the
level adds nothing to a fresh check and leaves the sampler counters alone, and below `DPanic` no
terminal hook makes an entry. -/
theorem check_shortcut_exact (log : Logger E) (lvl : Level) (msg : List UInt8) (rt : Runtime)
    (st : CheckState) : log.check ops lvl msg rt st = log.checkUnguarded ops lvl msg rt st := by
  unfold Logger.check
  by_cases hs : lvl < dPanicLevel ∧ log.core.enabled lvl = false
  · rw [if_pos hs]
    have hc := Core.check_of_not_enabled ops log.core [] (log.entry lvl msg rt) st hs.2
    simp only [Logger.checkUnguarded, hc, log.terminalHook_of_lt hs.1]
  · rw [if_neg hs]
    rfl

end Shortcut

/-! ## `IncreaseLevel` -/

section IncreaseLevel

variable (ops : Encoder E) (merr : Multierr (List UInt8))

/-! What a logger reads besides its core does not change with the core. -/

@[simp] theorem Logger.entry_level (log : Logger E) (l : Level) (msg : List UInt8) (rt : Runtime) :
    (log.entry l msg rt).level = l := rfl

@[simp] theorem Logger.entry_setCore (log : Logger E) (c : Core E) :
    { log with core := c }.entry = log.entry := rfl

@[simp] theorem Logger.terminalHook_setCore (log : Logger E) (c : Core E) :
    { log with core := c }.terminalHook = log.terminalHook := rfl

@[simp] theorem Logger.annotate_setCore (log : Logger E) (c : Core E) :
    { log with core := c }.annotate = log.annotate := rfl

/-- **A logger whose core sits behind a level filter** checks, at a level the filter enables, what
the logger checks, and elsewhere what it checks with a core that enables nothing: at
`DPanicLevel` and above, still an entry carrying the terminal hook. -/
theorem Logger.check_levelFilter (log : Logger E) (lvl : LevelEnabler) (l : Level)
    (msg : List UInt8) (rt : Runtime) (st : CheckState) :
    { log with core := .levelFilter log.core lvl }.check ops l msg rt st =
      if lvl.enabled l then log.check ops l msg rt st
      else { log with core := .nop }.check ops l msg rt st := by
  by_cases hl : lvl.enabled l
  · rw [if_pos hl]
    by_cases hold : l < dPanicLevel ∧ log.core.enabled l = false
    · -- the logger stops at once; behind the filter its core is asked, and adds nothing
      have hc := Core.check_of_not_enabled ops log.core [] (log.entry l msg rt) st hold.2
      simp [Logger.check, Core.enabled, Core.check, hl, hold, hc, log.terminalHook_of_lt hold.1]
    · simp [Logger.check, Core.enabled, Core.check, hl, hold]
  · rw [if_neg hl]
    simp [Logger.check, Core.enabled, Core.check, hl]

/-- The same for `Log`, the check followed by the write. -/
theorem Logger.log_levelFilter (log : Logger E) (lvl : LevelEnabler) (l : Level)
    (msg : List UInt8) (fields : List Field) (rt : Runtime) (st : CheckState) :
    { log with core := .levelFilter log.core lvl }.log ops merr l msg fields rt st =
      if lvl.enabled l then log.log ops merr l msg fields rt st
      else { log with core := .nop }.log ops merr l msg fields rt st := by
  unfold Logger.log
  rw [Logger.check_levelFilter]
  by_cases hl : lvl.enabled l
  · rw [if_pos hl, if_pos hl]
  · rw [if_neg hl, if_neg hl]

/-- **`IncreaseLevel` never lowers the level.**  Either it writes nothing, `lvl` enables no named
level the core did not, and from then on the logger logs what it logged before at a level `lvl`
enables and what a logger with no core logs at the others; or it leaves the logger as it was and
writes one line to the error output, naming the highest named level that `lvl` enables and the
core does not. -/
theorem increaseLevel_filters_or_reports (quote : List UInt8 → List UInt8) (log : Logger E)
    (lvl : LevelEnabler) :
    ((log.increaseLevel quote lvl).2 = [] ∧
      (∀ l ∈ levels, lvl.enabled l = true → log.core.enabled l = true) ∧
      ∀ l msg fields rt st, (log.increaseLevel quote lvl).1.log ops merr l msg fields rt st =
        if lvl.enabled l then log.log ops merr l msg fields rt st
        else { log with core := .nop }.log ops merr l msg fields rt st) ∨
    ((log.increaseLevel quote lvl).1 = log ∧
      ∃ l ∈ levels, log.core.enabled l = false ∧ lvl.enabled l = true ∧
        (∀ l' ∈ levels, l < l' → lvl.enabled l' = true → log.core.enabled l' = true) ∧
        (log.increaseLevel quote lvl).2 = [.write log.errorOutput
          (lit "failed to IncreaseLevel: " ++ (IncreaseLevelError.mk l).text quote ++ [0x0A])]) := by
  unfold Logger.increaseLevel
  cases h : newIncreaseLevelCore log.core lvl with
  | ok c =>
    obtain ⟨rfl, hen⟩ := newIncreaseLevelCore_ok h
    exact Or.inl ⟨rfl, hen, fun l msg fields rt st => log.log_levelFilter ops merr lvl l msg fields rt st⟩
  | error e =>
    obtain ⟨hmem, hcore, hlvl, hhigh⟩ := newIncreaseLevelCore_error h
    exact Or.inr ⟨rfl, e.level, hmem, hcore, hlvl, hhigh, rfl⟩

end IncreaseLevel

end Zap
