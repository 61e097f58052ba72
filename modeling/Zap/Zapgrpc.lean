import Zap.Logger

/-!
# Zap.Zapgrpc — the `grpclog.LoggerV2` of package `zapgrpc`

Each gRPC method calls the `SugaredLogger` method of one level; the `ln` forms first ask the core
whether that level is enabled.  `Print*` and `Fatal*` go through a `printer`, whose level the
options `WithDebug` and `withWarn` lower.  `V(level)` asks the core about the zap level of a gRPC
severity.  What `fmt` makes of the arguments is an input (`msg`).

* `newGrpcLoggerWith_wired`: whatever the options, every printer asks the delegate's core, at
  the level it logs at.
* `grpc_ln_eq_plain`: below `DPanic` an `ln` method logs exactly what its plain form logs; only a
  `printer` at `DPanic` or above, the fatal one without `withWarn`, can differ.
-/

namespace Zap

open Go.Utf8 Zapcore

variable {E : Type}

/-- `_grpcToZapLevel[level]`: `InfoLevel`, the zero `Level`, for a severity the map lacks. -/
def grpcToZapLevel (level : Int) : Level :=
  if level = 0 then infoLevel
  else if level = 1 then warnLevel
  else if level = 2 then errorLevel
  else if level = 3 then fatalLevel
  else 0

/-- `l.V(level)` -/
def GrpcLogger.v (l : GrpcLogger E) (level : Int) : Bool :=
  l.levelEnabler.enabled (grpcToZapLevel level)

/-- A `zapgrpc.Option`: `WithDebug()` or `withWarn()`. -/
inductive GrpcOption where
  | withDebug
  | withWarn
  deriving DecidableEq

/-- `option.apply(logger)` -/
def GrpcOption.apply : GrpcOption → GrpcLogger E → GrpcLogger E
  | .withDebug, l => { l with print := ⟨l.levelEnabler, debugLevel, debugLevel⟩ }
  | .withWarn, l => { l with fatal := ⟨l.levelEnabler, warnLevel, warnLevel⟩ }

/-- `NewLogger(l, options...)` -/
def newGrpcLoggerWith (l : Logger E) (options : List GrpcOption) : GrpcLogger E :=
  options.foldl (fun g o => o.apply g) (newGrpcLogger l)

section Methods

variable (ops : Encoder E) (merr : Go.Multierr (List UInt8))

/-- `l.Info(args...)`, `l.Warning(args...)`, `l.Error(args...)` and their `f` forms: the
`SugaredLogger` method at `lvl`. -/
def GrpcLogger.logAt (l : GrpcLogger E) (lvl : Level) (msg : List UInt8) (rt : Runtime)
    (st : CheckState) : List Event :=
  l.delegate.log ops merr lvl msg [] rt st

/-- `l.Infoln(args...)`, `l.Warningln(args...)`, `l.Errorln(args...)`: the same, once the core
has said that `lvl` is enabled. -/
def GrpcLogger.loglnAt (l : GrpcLogger E) (lvl : Level) (msg : List UInt8) (rt : Runtime)
    (st : CheckState) : List Event :=
  if l.levelEnabler.enabled lvl then l.delegate.log ops merr lvl msg [] rt st else []

/-- `l.Info(args...)`, `l.Infof(format, args...)` -/
def GrpcLogger.info (l : GrpcLogger E) : List UInt8 → Runtime → CheckState → List Event :=
  l.logAt ops merr infoLevel

/-- `l.Infoln(args...)` -/
def GrpcLogger.infoln (l : GrpcLogger E) : List UInt8 → Runtime → CheckState → List Event :=
  l.loglnAt ops merr infoLevel

/-- `l.Warning(args...)`, `l.Warningf(format, args...)` -/
def GrpcLogger.warning (l : GrpcLogger E) : List UInt8 → Runtime → CheckState → List Event :=
  l.logAt ops merr warnLevel

/-- `l.Warningln(args...)` -/
def GrpcLogger.warningln (l : GrpcLogger E) : List UInt8 → Runtime → CheckState → List Event :=
  l.loglnAt ops merr warnLevel

/-- `l.Error(args...)`, `l.Errorf(format, args...)` -/
def GrpcLogger.error (l : GrpcLogger E) : List UInt8 → Runtime → CheckState → List Event :=
  l.logAt ops merr errorLevel

/-- `l.Errorln(args...)` -/
def GrpcLogger.errorln (l : GrpcLogger E) : List UInt8 → Runtime → CheckState → List Event :=
  l.loglnAt ops merr errorLevel

/-- `l.Print(args...)`, `l.Printf(format, args...)` -/
def GrpcLogger.printMsg (l : GrpcLogger E) (msg : List UInt8) (rt : Runtime) (st : CheckState) :
    List Event :=
  l.print.print ops merr l.delegate msg rt st

/-- `l.Println(args...)` -/
def GrpcLogger.println (l : GrpcLogger E) (msg : List UInt8) (rt : Runtime) (st : CheckState) :
    List Event :=
  l.print.println ops merr l.delegate msg rt st

end Methods

/-! ## Every printer asks the delegate's core -/

/-- The printer asks `core` about the level it logs at. -/
def Printer.Wired (v : Printer E) (core : Core E) : Prop := v.enab = core ∧ v.level = v.sugarLevel

/-- The logger asks the delegate's core, directly and through both printers. -/
def GrpcLogger.Wired (l : GrpcLogger E) : Prop :=
  l.levelEnabler = l.delegate.base.core ∧ l.print.Wired l.levelEnabler ∧ l.fatal.Wired l.levelEnabler

theorem GrpcOption.apply_wired (o : GrpcOption) {l : GrpcLogger E} (h : l.Wired) :
    (o.apply l).Wired := by
  obtain ⟨hcore, hprint, hfatal⟩ := h
  cases o with
  | withDebug => exact ⟨hcore, ⟨rfl, rfl⟩, hfatal⟩
  | withWarn => exact ⟨hcore, hprint, ⟨rfl, rfl⟩⟩

theorem GrpcOption.foldl_wired (options : List GrpcOption) {l : GrpcLogger E} (h : l.Wired) :
    (options.foldl (fun g o => o.apply g) l).Wired := by
  induction options generalizing l with
  | nil => exact h
  | cons o os ih => exact ih (o.apply_wired h)

theorem newGrpcLoggerWith_wired (l : Logger E) (options : List GrpcOption) :
    (newGrpcLoggerWith l options).Wired :=
  GrpcOption.foldl_wired options ⟨rfl, ⟨rfl, rfl⟩, ⟨rfl, rfl⟩⟩

/-- Only `WithDebug` moves the print printer, always to `DebugLevel`, and only `withWarn` the fatal
one, always to `WarnLevel`. -/
theorem GrpcOption.foldl_levels (options : List GrpcOption) (l : GrpcLogger E) :
    (options.foldl (fun g o => o.apply g) l).print.level =
        (if GrpcOption.withDebug ∈ options then debugLevel else l.print.level) ∧
      (options.foldl (fun g o => o.apply g) l).fatal.level =
        (if GrpcOption.withWarn ∈ options then warnLevel else l.fatal.level) := by
  induction options generalizing l with
  | nil => exact ⟨rfl, rfl⟩
  | cons o os ih =>
    rw [List.foldl_cons, (ih _).1, (ih _).2]
    cases o <;> simp [GrpcOption.apply]

/-! ## The `ln` methods -/

section Ln

variable (ops : Encoder E) (merr : Go.Multierr (List UInt8))

/-- Asking the core first changes nothing below `DPanic`, where a disabled level logs nothing
anyway. -/
theorem SugaredLogger.guarded_log_eq (s : SugaredLogger E) {lvl : Level} (hlt : lvl < dPanicLevel)
    (msg : List UInt8) (fields : List Field) (rt : Runtime) (st : CheckState) :
    (if s.base.core.enabled lvl then s.log ops merr lvl msg fields rt st else []) =
      s.log ops merr lvl msg fields rt st := by
  cases hen : s.base.core.enabled lvl
  · rw [if_neg Bool.false_ne_true]
    unfold SugaredLogger.log
    rw [if_pos ⟨hlt, hen⟩]
  · rw [if_pos rfl]

theorem Printer.println_eq_print {v : Printer E} {s : SugaredLogger E} (hw : v.Wired s.base.core)
    (hlt : v.level < dPanicLevel) (msg : List UInt8) (rt : Runtime) (st : CheckState) :
    v.println ops merr s msg rt st = v.print ops merr s msg rt st := by
  obtain ⟨henab, hlevel⟩ := hw
  unfold Printer.println Printer.print
  rw [henab, hlevel]
  rw [hlevel] at hlt
  exact s.guarded_log_eq ops merr hlt msg [] rt st

theorem GrpcLogger.loglnAt_eq_logAt {l : GrpcLogger E} (hw : l.Wired) {lvl : Level}
    (hlt : lvl < dPanicLevel) (msg : List UInt8) (rt : Runtime) (st : CheckState) :
    l.loglnAt ops merr lvl msg rt st = l.logAt ops merr lvl msg rt st := by
  unfold GrpcLogger.loglnAt GrpcLogger.logAt
  rw [hw.1]
  exact l.delegate.guarded_log_eq ops merr hlt msg [] rt st

/-- **Below `DPanic` an `ln` method logs what its plain form logs**, for a logger `NewLogger`
made with any options: `Infoln`, `Warningln`, `Errorln` and `Println` always, `Fatalln` once
`withWarn` has moved the fatal printer to `WarnLevel`. -/
theorem grpc_ln_eq_plain (l : Logger E) (options : List GrpcOption) (msg : List UInt8)
    (rt : Runtime) (st : CheckState) :
    (newGrpcLoggerWith l options).infoln ops merr msg rt st =
        (newGrpcLoggerWith l options).info ops merr msg rt st ∧
      (newGrpcLoggerWith l options).warningln ops merr msg rt st =
        (newGrpcLoggerWith l options).warning ops merr msg rt st ∧
      (newGrpcLoggerWith l options).errorln ops merr msg rt st =
        (newGrpcLoggerWith l options).error ops merr msg rt st ∧
      (newGrpcLoggerWith l options).println ops merr msg rt st =
        (newGrpcLoggerWith l options).printMsg ops merr msg rt st ∧
      (GrpcOption.withWarn ∈ options → (newGrpcLoggerWith l options).fatalln ops merr msg rt st =
        (newGrpcLoggerWith l options).fatalPrint ops merr msg rt st) := by
  have hw := newGrpcLoggerWith_wired l options
  -- the print printer sits at `InfoLevel` or `DebugLevel`, both below `DPanic`
  have hprint : (newGrpcLoggerWith l options).print.level < dPanicLevel := by
    unfold newGrpcLoggerWith
    rw [(GrpcOption.foldl_levels options _).1]
    split
    · decide
    · exact (by decide : infoLevel < dPanicLevel)
  refine ⟨GrpcLogger.loglnAt_eq_logAt ops merr hw (by decide) msg rt st,
    GrpcLogger.loglnAt_eq_logAt ops merr hw (by decide) msg rt st,
    GrpcLogger.loglnAt_eq_logAt ops merr hw (by decide) msg rt st, ?_, fun hwarn => ?_⟩
  · exact Printer.println_eq_print ops merr (hw.1 ▸ hw.2.1) hprint msg rt st
  · have hfatal : (newGrpcLoggerWith l options).fatal.level = warnLevel := by
      unfold newGrpcLoggerWith
      rw [(GrpcOption.foldl_levels options _).2, if_pos hwarn]
    exact Printer.println_eq_print ops merr (hw.1 ▸ hw.2.2) (hfatal ▸ by decide) msg rt st

end Ln

end Zap
