import Zap.Logger
import Zap.Lib.Separator
import Zap.Zapcore.LazyWith

/-!
# Zap.Options — the options of `New`, and the loggers derived from a logger

Each `Option` of `options.go` changes a clone of the logger; `WithOptions` applies them in
order, and `New` applies them after filling in its defaults.  `IncreaseLevel` is the only option
that can fail, and then it writes a line to the error output.  `Named`, `With` and `WithLazy`
derive loggers the same way.  The caller skip and the clock are not in the model (the stack and
the time are inputs of `Logger.check`), so `AddCallerSkip` and `WithClock` change nothing here.

* `Logger.named_eq_join`: `Named` joins the name and the segment with the separator that appends
  `.` to a non-empty name.
* `named_chain`: after a chain of `Named` calls, the name is the non-empty segments joined by `.`.
* `withOptions_never_widens`: options other than `WrapCore` never make the core enable a named
  level it did not enable.
-/

namespace Zap

open Go.Utf8 Zapcore

variable {E : Type}

/-- An `Option`, by the function of `options.go` that made it. -/
inductive LoggerOption (E : Type) where
  /-- `WrapCore(f)` -/
  | wrapCore (f : Core E → Core E)
  /-- `Hooks(hooks...)` -/
  | hooks (hooks : List Hook)
  /-- `Fields(fs...)` -/
  | fields (fs : List Field)
  /-- `ErrorOutput(w)`, `w` naming the `WriteSyncer` that `Lock` wraps -/
  | errorOutput (w : Nat)
  /-- `Development()` -/
  | development
  /-- `WithCaller(enabled)` -/
  | withCaller (enabled : Bool)
  /-- `AddCallerSkip(skip)` -/
  | addCallerSkip (skip : Int)
  /-- `AddStacktrace(lvl)` -/
  | addStacktrace (lvl : LevelEnabler)
  /-- `IncreaseLevel(lvl)` -/
  | increaseLevel (lvl : LevelEnabler)
  /-- `WithPanicHook(hook)`, `none` for a nil hook -/
  | withPanicHook (hook : Option CheckWriteHook)
  /-- `WithFatalHook(hook)`, `none` for a nil hook -/
  | withFatalHook (hook : Option CheckWriteHook)
  /-- `WithClock(clock)` -/
  | withClock

/-- `WrapCore(f)`, the one option that may put any core in place of the logger's. -/
def LoggerOption.wrapsCore : LoggerOption E → Bool
  | .wrapCore _ => true
  | _ => false

/-- `AddCaller()` -/
def addCaller : LoggerOption E := .withCaller true

/-- `OnFatal(action)` -/
def onFatal (action : CheckWriteAction) : LoggerOption E := .withFatalHook (some (.action action))

section Apply

variable (ops : Encoder E) (quote : List UInt8 → List UInt8)

/-- `opt.apply(log)`: the logger after it, and what it wrote. -/
def LoggerOption.apply : LoggerOption E → Logger E → Logger E × List Event
  | .wrapCore f, log => ({ log with core := f log.core }, [])
  | .hooks funcs, log => ({ log with core := registerHooks log.core funcs }, [])
  | .fields fs, log => ({ log with core := log.core.with ops fs }, [])
  | .errorOutput w, log => ({ log with errorOutput := w }, [])
  | .development, log => ({ log with development := true }, [])
  | .withCaller enabled, log => ({ log with addCaller := enabled }, [])
  | .addCallerSkip _, log => (log, [])
  | .addStacktrace lvl, log => ({ log with addStack := lvl }, [])
  | .increaseLevel lvl, log => log.increaseLevel quote lvl
  | .withPanicHook hook, log => ({ log with onPanic := hook }, [])
  | .withFatalHook hook, log => ({ log with onFatal := hook }, [])
  | .withClock, log => (log, [])

/-- `log.WithOptions(opts...)`: each option in turn, and what they wrote. -/
def Logger.withOptions (log : Logger E) : List (LoggerOption E) → Logger E × List Event
  | [] => (log, [])
  | opt :: opts =>
    let r := opt.apply ops quote log
    let rs := r.1.withOptions opts
    (rs.1, r.2 ++ rs.2)

/-- `New(core, options...)`; `errorOutput` names `os.Stderr`. -/
def newLogger (core : Core E) (errorOutput : Nat) (opts : List (LoggerOption E)) :
    Logger E × List Event :=
  (Logger.new core errorOutput).withOptions ops quote opts

/-- `log.WithLazy(fields...)` -/
def Logger.withLazy (log : Logger E) (fields : List Field) : Logger E :=
  if fields = [] then log
  else (log.withOptions ops quote [.wrapCore fun core => newLazyWith core fields]).1

/-- `WithOptions` of two lists is `WithOptions` of the first, then of the second. -/
theorem Logger.withOptions_append (log : Logger E) (opts opts' : List (LoggerOption E)) :
    log.withOptions ops quote (opts ++ opts') =
      (((log.withOptions ops quote opts).1.withOptions ops quote opts').1,
        (log.withOptions ops quote opts).2 ++
          ((log.withOptions ops quote opts).1.withOptions ops quote opts').2) := by
  induction opts generalizing log with
  | nil => rfl
  | cons o opts ih => simp [Logger.withOptions, ih]

end Apply

/-- `NewNop()`; `discard` names `AddSync(io.Discard)`. -/
def newNop (discard : Nat) : Logger E := Logger.new newNopCore discard

/-- `log.With(fields...)` -/
def Logger.with (ops : Encoder E) (log : Logger E) (fields : List Field) : Logger E :=
  if fields = [] then log else { log with core := log.core.with ops fields }

/-- `log.Named(s)` -/
def Logger.named (log : Logger E) (s : List UInt8) : Logger E :=
  if s = [] then log
  else if log.name = [] then { log with name := s }
  else { log with name := log.name ++ [0x2E] ++ s }

/-- `log.Level()` -/
def Logger.level (log : Logger E) : Level := log.core.levelOf

/-- `log.Sugar()` -/
def Logger.sugar (log : Logger E) : SugaredLogger E := ⟨log⟩

/-- `s.Desugar()` -/
def SugaredLogger.desugar (s : SugaredLogger E) : Logger E := s.base

/-- `s.Named(name)` -/
def SugaredLogger.named (s : SugaredLogger E) (name : List UInt8) : SugaredLogger E :=
  ⟨s.base.named name⟩

/-! ## What options can enable -/

section Enabled

variable (ops : Encoder E) (quote : List UInt8 → List UInt8)

/-- One option other than `WrapCore` never makes the core enable a named level it did not:
`Hooks` and `Fields` keep `Enabled`, and `IncreaseLevel` installs its filter only when the core
enables every named level the filter does. -/
theorem LoggerOption.apply_enabled (opt : LoggerOption E) (hopt : opt.wrapsCore = false)
    (log : Logger E) {l : Level} (hl : l ∈ levels)
    (h : (opt.apply ops quote log).1.core.enabled l = true) : log.core.enabled l = true := by
  cases opt with
  | wrapCore f => simp [LoggerOption.wrapsCore] at hopt
  | hooks funcs => simpa [LoggerOption.apply, registerHooks, Core.enabled] using h
  | fields fs => simpa [LoggerOption.apply, Core.with, Core.enabled_withs] using h
  | increaseLevel lvl =>
    simp only [LoggerOption.apply, Logger.increaseLevel] at h
    cases hc : newIncreaseLevelCore log.core lvl with
    | error e => simpa [hc] using h
    | ok c =>
      obtain ⟨rfl, hsub⟩ := newIncreaseLevelCore_ok hc
      simp only [hc, Core.enabled] at h
      exact hsub l hl h
  | errorOutput w => exact h
  | development => exact h
  | withCaller enabled => exact h
  | addCallerSkip skip => exact h
  | addStacktrace lvl => exact h
  | withPanicHook hook => exact h
  | withFatalHook hook => exact h
  | withClock => exact h

/-- **Options other than `WrapCore` never widen the logger's levels**: after `WithOptions`, the
core enables a named level only if it did before, whichever of them succeed or fail. -/
theorem withOptions_never_widens (log : Logger E) (opts : List (LoggerOption E))
    (hopts : ∀ opt ∈ opts, opt.wrapsCore = false) :
    ∀ l ∈ levels, (log.withOptions ops quote opts).1.core.enabled l = true →
      log.core.enabled l = true := by
  intro l hl h
  -- the options run in turn, each keeping the named levels within those it was given
  induction opts generalizing log with
  | nil => exact h
  | cons opt opts ih =>
    simp only [Logger.withOptions] at h
    have hrest : ∀ o ∈ opts, o.wrapsCore = false := fun o ho => hopts o (List.mem_cons_of_mem _ ho)
    exact opt.apply_enabled ops quote (hopts opt List.mem_cons_self) log hl (ih _ hrest h)

end Enabled

theorem withOptions_never_widens_increaseLevel :
    ((Logger.new (newCore () ⟨0, none⟩ warnLevel.toEnabler) 1).withOptions
        ⟨id, fun e _ => e, fun _ _ _ => .ok []⟩ id
        [.increaseLevel errorLevel.toEnabler, .increaseLevel debugLevel.toEnabler]).1.core.enabled
        errorLevel = true ∧
      (Logger.new (newCore () ⟨0, none⟩ warnLevel.toEnabler) 1 : Logger Unit).core.enabled
        errorLevel = true :=
  have hafter : ((Logger.new (newCore () ⟨0, none⟩ warnLevel.toEnabler) 1).withOptions
      ⟨id, fun e _ => e, fun _ _ _ => .ok []⟩ id
      [.increaseLevel errorLevel.toEnabler, .increaseLevel debugLevel.toEnabler]).1.core.enabled
      errorLevel = true := by decide
  ⟨hafter, withOptions_never_widens _ _ _ _ (by simp [LoggerOption.wrapsCore]) errorLevel
    (by decide) hafter⟩

/-! ## Names -/

/-- The separator `Named` puts between the name and a segment. -/
abbrev dotSeparator : Separator UInt8 := Separator.const [0x2E]

/-- `Named` joins the name and the segment with `dotSeparator`; an empty segment changes
nothing. -/
theorem Logger.named_eq_join (log : Logger E) (s : List UInt8) :
    log.named s = { log with name := dotSeparator.join log.name s } := by
  unfold Logger.named
  by_cases hs : s = []
  · rw [if_pos hs, hs, Separator.join_nil_right]
  rw [if_neg hs]
  by_cases hn : log.name = []
  · rw [if_pos hn, hn, Separator.join_nil_left]
  · rw [if_neg hn, Separator.const_join_of_ne_nil _ hn hs]

/-- **A chain of `Named` calls names the logger by its non-empty segments joined by `.`**,
starting with the name it had; nothing else of the logger changes. -/
theorem named_chain (log : Logger E) (segs : List (List UInt8)) :
    segs.foldl Logger.named log =
      { log with name := [0x2E].intercalate ((log.name :: segs).filter fun s => !s.isEmpty) } := by
  rw [← Separator.foldl_join_const]
  -- the name is the only field the chain touches, and each step joins one segment onto it
  induction segs generalizing log with
  | nil => rfl
  | cons s segs ih => rw [List.foldl_cons, ih, Logger.named_eq_join, List.foldl_cons]

end Zap
