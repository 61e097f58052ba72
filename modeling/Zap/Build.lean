import Zap.Options
import Zap.Config
import Zap.Field
import Zap.Zapcore.LazyWith
import Zap.Lib.Assoc

/-!
# Zap.Build — the logger `Config.Build` returns

Once `Config.build` has made the encoder, opened the sinks and found a level, `Build` calls
`New` on an `ioCore` with the options `buildOptions` makes of the rest of the configuration, then
applies the caller's options.  `InitialFields` is a Go map: `buildOptions` sorts its keys before
making the fields, so that the logger does not depend on the order Go's `range` visits the map.

* `initialFields_sorted_once`: the initial fields are one `Any` field per entry, by sorted key,
  whatever the iteration order.
* `buildLogger_spec`: what the configuration decides about the logger `Build` returns.
-/

namespace Zap

open Go Go.Utf8 Zapcore

variable {E : Type}

/-- `SamplingConfig`; `hook` names `Hook`, `none` for a nil hook. -/
structure SamplingConfig where
  initial : Int64
  thereafter : Int64
  hook : Option Nat

/-- `Config` with the fields `buildOptions` reads.  `initialFields` is `InitialFields` in the
order Go's `range` visits it; its keys are distinct. -/
structure LoggerConfig extends Config where
  development : Bool
  disableCaller : Bool
  disableStacktrace : Bool
  sampling : Option SamplingConfig
  initialFields : List (List UInt8 × AnyValue)
  keyed : Assoc.Keyed initialFields

/-- `time.Second` -/
def second : Int64 := 1000000000

/-- `sort.Strings`' order: the bytes compared in turn, a prefix first. -/
def stringLe (a b : List UInt8) : Bool := decide (a ≤ b)

/-- The fields of `InitialFields`: `sort.Strings(keys)`, then `Any(k, cfg.InitialFields[k])` for
each key. -/
def initialFieldsOf (m : List (List UInt8 × AnyValue)) : List Field :=
  (Assoc.byKey stringLe m).map fun kv => any kv.1 kv.2

/-- `cfg.buildOptions(errSink)`; `counts` names the `*counters` of the sampler `WrapCore` makes. -/
def LoggerConfig.buildOptions (cfg : LoggerConfig) (errSink counts : Nat) : List (LoggerOption E) :=
  let opts : List (LoggerOption E) := [.errorOutput errSink]
  let opts := if cfg.development then opts ++ [LoggerOption.development] else opts
  let opts := if !cfg.disableCaller then opts ++ [addCaller] else opts
  let stackLevel := if cfg.development then warnLevel else errorLevel
  let opts := if !cfg.disableStacktrace then opts ++ [LoggerOption.addStacktrace stackLevel.toEnabler] else opts
  let opts := match cfg.sampling with
    | some scfg =>
      opts ++ [LoggerOption.wrapCore fun core =>
        newSamplerWithOptions core counts second scfg.initial scfg.thereafter scfg.hook]
    | none => opts
  if cfg.initialFields.length > 0 then opts ++ [LoggerOption.fields (initialFieldsOf cfg.initialFields)]
  else opts

section Build

variable (ops : Encoder E) (quote : List UInt8 → List UInt8) (merr : Multierr (List UInt8))

/-- The end of `cfg.Build(opts...)`: `New(NewCore(enc, sink, cfg.Level), buildOptions...)`, then
`WithOptions(opts...)`; `lvl` is the level of `cfg.Level`, an `AtomicLevel` and so a
`LevelEnabler` with a `Level()` method.  The logger, and what the options wrote. -/
def LoggerConfig.buildLogger (cfg : LoggerConfig) (lvl : Level) (enc : E) (sink : WriteSyncer)
    (errSink stderr counts : Nat) (opts : List (LoggerOption E)) : Logger E × List Event :=
  let log := newLogger ops quote (newCore enc sink ⟨lvl.enabled, some lvl⟩) stderr
    (cfg.buildOptions errSink counts)
  if opts.length > 0 then
    let r := log.1.withOptions ops quote opts
    (r.1, log.2 ++ r.2)
  else log

/-- `cfg.Build(opts...)`: `Config.build` makes the encoder (`enc`) and the sinks, or fails;
`syncer` is the `WriteSyncer` `Open` combines sinks into, and `stderr` names `os.Stderr`. -/
def LoggerConfig.build (constructor : List UInt8 → Option (Option (List UInt8)))
    (outcome : Nat → Option (List UInt8)) (cfg : LoggerConfig) (enc : E)
    (syncer : List Nat → WriteSyncer) (stderr counts : Nat) (opts : List (LoggerOption E))
    (st : SinkLog) : Except BuildError (Logger E × List Event) × SinkLog :=
  match cfg.toConfig.build quote merr constructor outcome st, cfg.level with
  | (.error e, st), _ => (.error e, st)
  | (.ok (sink, errSink), st), some lvl =>
    (.ok (cfg.buildLogger ops quote lvl enc (syncer sink) (syncer errSink).id stderr counts opts), st)
  -- `Config.build` has already refused a missing level
  | (.ok _, st), none => (.error .missingLevel, st)

end Build

/-! ## The initial fields -/

theorem stringLe_trans (a b c : List UInt8) (hab : stringLe a b) (hbc : stringLe b c) :
    stringLe a c := by
  simp only [stringLe, decide_eq_true_eq] at *
  exact List.le_trans hab hbc

theorem stringLe_total (a b : List UInt8) : stringLe a b || stringLe b a := by
  simp only [stringLe, Bool.or_eq_true, decide_eq_true_eq]
  exact List.le_total a b

theorem stringLe_antisymm (a b : List UInt8) (hab : stringLe a b) (hba : stringLe b a) : a = b := by
  simp only [stringLe, decide_eq_true_eq] at hab hba
  exact List.le_antisymm hab hba

/-- **The initial fields are one `Any` field per entry of `InitialFields`, by sorted key**, and
the same for any order Go's `range` visits the map in. -/
theorem initialFields_sorted_once (m₁ m₂ : List (List UInt8 × AnyValue)) (hk : Assoc.Keyed m₁)
    (h : m₁.Perm m₂) :
    initialFieldsOf m₁ = initialFieldsOf m₂ ∧
      ∃ entries : List (List UInt8 × AnyValue), entries.Perm m₁ ∧
        (entries.map Prod.fst).Pairwise (· ≤ ·) ∧
        initialFieldsOf m₁ = entries.map fun kv => any kv.1 kv.2 := by
  refine ⟨?_, Assoc.byKey stringLe m₁, Assoc.byKey_perm_self stringLe hk, ?_, rfl⟩
  · unfold initialFieldsOf
    rw [Assoc.byKey_perm stringLe stringLe_trans stringLe_total stringLe_antisymm h hk]
  · -- the keys `byKey` lists are the sorted keys
    rw [Assoc.byKey_keys]
    have hsorted := List.pairwise_mergeSort stringLe_trans stringLe_total (m₁.map Prod.fst)
    simpa only [stringLe, decide_eq_true_eq] using hsorted

theorem initialFields_sorted_once_swap :
    initialFieldsOf [([0x62], AnyValue.bytes [0x31]), ([0x61], AnyValue.bytes [0x32])] =
      initialFieldsOf [([0x61], AnyValue.bytes [0x32]), ([0x62], AnyValue.bytes [0x31])] :=
  (initialFields_sorted_once _ _ (by unfold Assoc.Keyed; decide) (List.Perm.swap _ _ [])).1

/-! ## The logger -/

section Spec

variable (ops : Encoder E) (quote : List UInt8 → List UInt8)

theorem ite_append_singleton {α : Type} (c : Prop) [Decidable c] (l : List α) (x : α) :
    (if c then l ++ [x] else l) = l ++ if c then [x] else [] := by
  split <;> simp

/-- `buildOptions` is `ErrorOutput`, then the option of each switch that is set, in order. -/
theorem buildOptions_eq (cfg : LoggerConfig) (errSink counts : Nat) :
    (cfg.buildOptions errSink counts : List (LoggerOption E)) =
      [.errorOutput errSink] ++ (if cfg.development then [.development] else []) ++
        (if !cfg.disableCaller then [addCaller] else []) ++
        (if !cfg.disableStacktrace then
          [.addStacktrace (if cfg.development then warnLevel else errorLevel).toEnabler] else []) ++
        (match cfg.sampling with
          | some s => [.wrapCore fun core =>
              newSamplerWithOptions core counts second s.initial s.thereafter s.hook]
          | none => []) ++
        (if cfg.initialFields.length > 0 then [.fields (initialFieldsOf cfg.initialFields)] else []) := by
  simp only [LoggerConfig.buildOptions, ite_append_singleton]
  cases cfg.sampling <;> simp

/-! Each option `buildOptions` may add sets one field of the logger and writes nothing. -/

theorem withOptions_if_development (log : Logger E) (c : Prop) [Decidable c] :
    log.withOptions ops quote (if c then [.development] else []) =
      ({ log with development := if c then true else log.development }, []) := by
  split <;> rfl

theorem withOptions_if_addCaller (log : Logger E) (c : Prop) [Decidable c] :
    log.withOptions ops quote (if c then [addCaller] else []) =
      ({ log with addCaller := if c then true else log.addCaller }, []) := by
  split <;> rfl

theorem withOptions_if_addStacktrace (log : Logger E) (c : Prop) [Decidable c] (lvl : LevelEnabler) :
    log.withOptions ops quote (if c then [.addStacktrace lvl] else []) =
      ({ log with addStack := if c then lvl else log.addStack }, []) := by
  split <;> rfl

theorem withOptions_sampling (log : Logger E) (sampling : Option SamplingConfig) (counts : Nat) :
    log.withOptions ops quote (match sampling with
      | some s => [.wrapCore fun core => newSamplerWithOptions core counts second s.initial s.thereafter s.hook]
      | none => []) =
      ({ log with core := match sampling with
          | some s => newSamplerWithOptions log.core counts second s.initial s.thereafter s.hook
          | none => log.core }, []) := by
  cases sampling <;> rfl

theorem withOptions_if_fields (log : Logger E) (c : Prop) [Decidable c] (fs : List Field) :
    log.withOptions ops quote (if c then [.fields fs] else []) =
      ({ log with core := if c then log.core.with ops fs else log.core }, []) := by
  split <;> rfl

/-- The logger `New` makes of `core` with the options of `buildOptions`: every option is one
field update, and none writes anything. -/
theorem buildOptions_logger (cfg : LoggerConfig) (core : Core E) (errSink stderr counts : Nat) :
    newLogger ops quote core stderr (cfg.buildOptions errSink counts) =
      ({ core :=
          let sampled := match cfg.sampling with
            | some s => newSamplerWithOptions core counts second s.initial s.thereafter s.hook
            | none => core
          if cfg.initialFields.length > 0 then sampled.with ops (initialFieldsOf cfg.initialFields)
          else sampled
         development := cfg.development
         addCaller := !cfg.disableCaller
         onPanic := none
         onFatal := none
         name := []
         errorOutput := errSink
         addStack :=
          if !cfg.disableStacktrace then (if cfg.development then warnLevel else errorLevel).toEnabler
          else (fatalLevel + 1).toEnabler }, []) := by
  rw [newLogger, buildOptions_eq]
  simp only [Logger.withOptions_append, withOptions_if_development, withOptions_if_addCaller,
    withOptions_if_addStacktrace, withOptions_sampling, withOptions_if_fields]
  -- what is left is `New` and `ErrorOutput`, under each field the other options did not set
  simp [Logger.withOptions, LoggerOption.apply, Logger.new]

/-- **What the configuration decides about the logger `Build` returns**, before the caller's
options: nothing is written; the core enables exactly the levels of `cfg.Level`, whatever the
sampling and the initial fields; errors go to the error-output sinks; the caller is added unless
`DisableCaller`; `DPanic` panics only in development; and a stack trace is taken from `WarnLevel`
in development and from `ErrorLevel` otherwise, unless `DisableStacktrace`. -/
theorem buildLogger_spec (cfg : LoggerConfig) (lvl : Level) (enc : E) (sink : WriteSyncer)
    (errSink stderr counts : Nat) :
    let r := cfg.buildLogger ops quote lvl enc sink errSink stderr counts []
    r.2 = [] ∧ (∀ l, r.1.core.enabled l = lvl.enabled l) ∧ r.1.errorOutput = errSink ∧
      r.1.addCaller = !cfg.disableCaller ∧
      r.1.terminalHook dPanicLevel =
        (if cfg.development then some (.action .writeThenPanic) else none) ∧
      ∀ l ≤ fatalLevel, r.1.addStack.enabled l =
        (!cfg.disableStacktrace && (if cfg.development then warnLevel else errorLevel).enabled l) := by
  have hlog : cfg.buildLogger ops quote lvl enc sink errSink stderr counts [] =
      newLogger ops quote (newCore enc sink ⟨lvl.enabled, some lvl⟩) stderr
        (cfg.buildOptions errSink counts) := by
    simp [LoggerConfig.buildLogger]
  dsimp only
  rw [hlog, buildOptions_logger]
  refine ⟨rfl, fun l => ?_, rfl, rfl, ?_, fun l hl => ?_⟩
  · -- neither the sampler nor `With` changes what the core enables
    dsimp only
    split
    · rw [Core.with, Core.enabled_withs]
      split <;> rfl
    · split <;> rfl
  · cases cfg.development <;> simp [Logger.terminalHook, terminalHookOverride] <;> decide
  · cases cfg.disableStacktrace
    · rfl
    · -- the default stack level is past `FatalLevel`
      have hlt : l < fatalLevel + 1 := Int8.lt_of_le_of_lt hl (by decide)
      simp [Level.toEnabler, Level.enabled, Int8.not_le.mpr hlt]

end Spec

end Zap
