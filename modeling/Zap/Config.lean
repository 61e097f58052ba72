import Zap.Zapcore.Encoder
import Zap.Go.Multierr

/-!
# Zap.Config — `Config.Build` and the sinks it opens

`Config.Build` builds the encoder, opens the output and error-output sinks with `Open`, checks
the level, and only then builds the logger.  `open(paths)` asks the sink registry for a sink per
path; what the registry's factory does for each call is an input (`outcome`, by the number of the
call), so that every combination of sinks that open and sinks that fail is covered.  The sinks a
run opens and closes are recorded as events.

* `openPaths_events`, `open_error_closes`: `open` closes every sink it opened when a path fails.
* `openSinks_error_closes`: so does `openSinks`, for the output sinks, when the error output fails.
* `build_sinks_released`: a `Build` that returns a logger opened one sink per path and closed
  none; one that fails for any reason but the level closed every sink it opened.
* `build_missingLevel_leaks`: a config without a level makes `Build` fail with every sink it
  opened left open.
-/

namespace Zap

open Go Go.Utf8 Zapcore

/-- What the registry did: a sink, named by the number of the `newSink` call that made it, was
opened or closed. -/
inductive SinkEvent where
  | opened (id : Nat)
  | closed (id : Nat)
  deriving DecidableEq

/-- The number of `newSink` calls so far, and the events. -/
structure SinkLog where
  calls : Nat
  events : List SinkEvent

/-- The error of `Build`. -/
inductive BuildError where
  /-- `"missing EncodeTime in EncoderConfig"` -/
  | missingEncodeTime
  /-- `errNoEncoderNameSpecified` -/
  | noEncoderName
  /-- `"no encoder registered for name %q"` -/
  | noEncoderRegistered (name : List UInt8)
  /-- the error of a registered encoder's constructor -/
  | encoder (err : List UInt8)
  /-- the error `open` collected: `"open sink %q: %w"` for each path that failed, with the
  factory's error, combined by `multierr.Append` -/
  | openSink (err : List UInt8)
  /-- `"missing Level"` -/
  | missingLevel

/-- The fields of `Config` that `Build` reads; the level is `none` for `AtomicLevel{}`. -/
structure Config where
  level : Option Level
  encoding : List UInt8
  encoderConfig : EncoderConfig
  outputPaths : List (List UInt8)
  errorOutputPaths : List (List UInt8)

section Sinks

-- `quote` is `%q`; `outcome` is the factory's error for the `newSink` call of each number, `none`
-- when it opens a sink
variable (quote : List UInt8 → List UInt8) (merr : Multierr (List UInt8))
  (outcome : Nat → Option (List UInt8))

/-- `_sinkRegistry.newSink(path)`, the call numbered `st.calls`. -/
def newSink (st : SinkLog) : Except (List UInt8) Nat × SinkLog :=
  match outcome st.calls with
  | none => (.ok st.calls, ⟨st.calls + 1, st.events ++ [.opened st.calls]⟩)
  | some e => (.error e, { st with calls := st.calls + 1 })

/-- `closeAll()`: each closer in turn. -/
def closeAll (closers : List Nat) (st : SinkLog) : SinkLog :=
  { st with events := st.events ++ closers.map .closed }

/-- `fmt.Errorf("open sink %q: %w", path, err)` -/
def openSinkError (path err : List UInt8) : List UInt8 :=
  lit "open sink " ++ quote path ++ lit ": " ++ err

/-- The loop of `open`: the sinks opened so far and `openErr`, path by path. -/
def openPaths : List (List UInt8) → List Nat × Option (List UInt8) → SinkLog →
    (List Nat × Option (List UInt8)) × SinkLog
  | [], acc, st => (acc, st)
  | path :: paths, (closers, openErr), st =>
    match newSink outcome st with
    | (.ok sink, st) => openPaths paths (closers ++ [sink], openErr) st
    | (.error e, st) =>
      openPaths paths (closers, merr.append openErr (some (openSinkError quote path e))) st

/-- `open(paths)`: the sinks, whose `closeAll` closes them; on any failure all of them are
closed and the error returned. -/
def open_ (paths : List (List UInt8)) (st : SinkLog) : Except (List UInt8) (List Nat) × SinkLog :=
  match openPaths quote merr outcome paths ([], none) st with
  | ((closers, none), st) => (.ok closers, st)
  | ((closers, some err), st) => (.error err, closeAll closers st)

/-- `Open(paths...)`: the sinks combined into one `WriteSyncer`, and their `closeAll`. -/
def openSinksOf (paths : List (List UInt8)) (st : SinkLog) :
    Except BuildError (List Nat) × SinkLog :=
  match open_ quote merr outcome paths st with
  | (.ok sinks, st) => (.ok sinks, st)
  | (.error err, st) => (.error (.openSink err), st)

/-- `cfg.openSinks()`: the error output's `closeAll` is dropped. -/
def Config.openSinks (cfg : Config) (st : SinkLog) : Except BuildError (List Nat × List Nat) × SinkLog :=
  match openSinksOf quote merr outcome cfg.outputPaths st with
  | (.error e, st) => (.error e, st)
  | (.ok sink, st) =>
    match openSinksOf quote merr outcome cfg.errorOutputPaths st with
    | (.error e, st) => (.error e, closeAll sink st)
    | (.ok errSink, st) => (.ok (sink, errSink), st)

end Sinks

/-- `newEncoder(name, encoderConfig)`: `constructor name` is `none` for a name no encoder is
registered for, else what its constructor returns. -/
def newEncoder (constructor : List UInt8 → Option (Option (List UInt8))) (name : List UInt8)
    (encoderConfig : EncoderConfig) : Except BuildError Unit :=
  if encoderConfig.timeKey ≠ [] ∧ encoderConfig.encodeTime = none then .error .missingEncodeTime
  else if name = [] then .error .noEncoderName
  else match constructor name with
    | none => .error (.noEncoderRegistered name)
    | some (some e) => .error (.encoder e)
    | some none => .ok ()

/-- `cfg.Build()`: on success the output and error-output sinks of the logger. -/
def Config.build (quote : List UInt8 → List UInt8) (merr : Multierr (List UInt8))
    (constructor : List UInt8 → Option (Option (List UInt8))) (outcome : Nat → Option (List UInt8))
    (cfg : Config) (st : SinkLog) :
    Except BuildError (List Nat × List Nat) × SinkLog :=
  match newEncoder constructor cfg.encoding cfg.encoderConfig with
  | .error e => (.error e, st)
  | .ok () =>
    match cfg.openSinks quote merr outcome st with
    | (.error e, st) => (.error e, st)
    | (.ok sinks, st) =>
      if cfg.level = none then (.error .missingLevel, st) else (.ok sinks, st)

/-! ## What `open` opens and closes -/

section Open

variable (quote : List UInt8 → List UInt8) (merr : Multierr (List UInt8))
  (outcome : Nat → Option (List UInt8))

/-- The loop opens, in order, the sinks it keeps as closers and nothing else. -/
theorem openPaths_events (paths : List (List UInt8)) :
    ∀ (closers : List Nat) (openErr : Option (List UInt8)) (st : SinkLog),
      ∃ opened : List Nat, (openPaths quote merr outcome paths (closers, openErr) st).1.1 =
          closers ++ opened ∧
        (openPaths quote merr outcome paths (closers, openErr) st).2.events =
          st.events ++ opened.map .opened := by
  induction paths with
  | nil => intro closers openErr st; exact ⟨[], by simp [openPaths], by simp [openPaths]⟩
  | cons path paths ih =>
    intro closers openErr st
    -- the call opens a sink, which the rest of the loop keeps, or opens nothing
    cases h : outcome st.calls with
    | none =>
      obtain ⟨opened, h₁, h₂⟩ := ih (closers ++ [st.calls]) openErr ⟨st.calls + 1, st.events ++ [.opened st.calls]⟩
      refine ⟨st.calls :: opened, ?_, ?_⟩
      · simp only [openPaths, newSink, h]
        rw [h₁, List.append_assoc, List.singleton_append]
      · simp only [openPaths, newSink, h]
        rw [h₂, List.map_cons, List.append_assoc, List.singleton_append]
    | some e =>
      obtain ⟨opened, h₁, h₂⟩ := ih closers _ { st with calls := st.calls + 1 }
      exact ⟨opened, by simp only [openPaths, newSink, h]; exact h₁, by simp only [openPaths, newSink, h]; exact h₂⟩

/-- **`open` closes, on failure, every sink it opened, once each.** -/
theorem open_error_closes (paths : List (List UInt8)) (st : SinkLog)
    {err : List UInt8} {st' : SinkLog}
    (h : open_ quote merr outcome paths st = (.error err, st')) :
    ∃ opened : List Nat, st'.events = st.events ++ opened.map .opened ++ opened.map .closed := by
  obtain ⟨opened, h₁, h₂⟩ := openPaths_events quote merr outcome paths [] none st
  simp only [List.nil_append] at h₁
  unfold open_ at h
  split at h
  · cases h
  · next closers errs' st₀ hne hrun =>
    -- the sinks the failed call closes are those it opened
    cases h
    rw [hrun] at h₁ h₂
    refine ⟨opened, ?_⟩
    simp only at h₁ h₂
    rw [closeAll, h₂, h₁]

/-- A loop that ends with no error failed on no path, since `multierr.Append` is nil only when
both of its errors are: it opened one sink per path, numbered in order. -/
theorem openPaths_ok (paths : List (List UInt8)) :
    ∀ (closers : List Nat) (openErr : Option (List UInt8)) (st : SinkLog),
      (openPaths quote merr outcome paths (closers, openErr) st).1.2 = none →
      openErr = none ∧ openPaths quote merr outcome paths (closers, openErr) st =
        ((closers ++ List.range' st.calls paths.length, none),
          ⟨st.calls + paths.length, st.events ++ (List.range' st.calls paths.length).map .opened⟩) := by
  induction paths with
  | nil =>
    intro closers openErr st h
    simp only [openPaths] at h
    simp [openPaths, h]
  | cons path paths ih =>
    intro closers openErr st h
    cases hc : outcome st.calls with
    | none =>
      simp only [openPaths, newSink, hc] at h ⊢
      obtain ⟨hnone, heq⟩ := ih _ _ _ h
      refine ⟨hnone, ?_⟩
      rw [heq]
      simp [List.range'_succ, Nat.add_assoc, Nat.add_comm 1]
    | some e =>
      -- the failed path's error keeps the accumulator non-nil to the end
      simp only [openPaths, newSink, hc] at h
      obtain ⟨hnone, -⟩ := ih _ _ _ h
      exact absurd ((merr.append_eq_none _ _).mp hnone).2 (Option.some_ne_none _)

/-- `open` that succeeds opened one sink per path, in order, and closed none. -/
theorem open_ok (paths : List (List UInt8)) (st : SinkLog) {sinks : List Nat} {st' : SinkLog}
    (h : open_ quote merr outcome paths st = (.ok sinks, st')) :
    sinks = List.range' st.calls paths.length ∧
      st' = ⟨st.calls + paths.length, st.events ++ (List.range' st.calls paths.length).map .opened⟩ := by
  unfold open_ at h
  split at h
  · next closers st₀ hrun =>
    cases h
    have hok := (openPaths_ok quote merr outcome paths [] none st (by rw [hrun])).2
    rw [hrun, List.nil_append] at hok
    exact ⟨(Prod.mk.inj (Prod.mk.inj hok).1).1, (Prod.mk.inj hok).2⟩
  · cases h

theorem openSinksOf_ok (paths : List (List UInt8)) (st : SinkLog) {sinks : List Nat}
    {st' : SinkLog} (h : openSinksOf quote merr outcome paths st = (.ok sinks, st')) :
    sinks = List.range' st.calls paths.length ∧
      st' = ⟨st.calls + paths.length, st.events ++ (List.range' st.calls paths.length).map .opened⟩ := by
  unfold openSinksOf at h
  split at h
  · next sinks' st₀ hopen =>
    cases h
    exact open_ok quote merr outcome paths st hopen
  · cases h

theorem openSinksOf_error_closes (paths : List (List UInt8)) (st : SinkLog) {e : BuildError}
    {st' : SinkLog} (h : openSinksOf quote merr outcome paths st = (.error e, st')) :
    ∃ opened : List Nat, st'.events = st.events ++ opened.map .opened ++ opened.map .closed := by
  unfold openSinksOf at h
  split at h
  · cases h
  · next errs st₀ hopen =>
    cases h
    exact open_error_closes quote merr outcome paths st hopen

/-- **`openSinks` closes, on failure, every sink it opened, once each**: the error output's own
sinks by its `open`, the output's by `closeOut`. -/
theorem openSinks_error_closes (cfg : Config) (st : SinkLog) {e : BuildError} {st' : SinkLog}
    (h : cfg.openSinks quote merr outcome st = (.error e, st')) :
    ∃ opened closed : List Nat, st'.events = st.events ++ opened.map .opened ++ closed.map .closed ∧
      closed.Perm opened := by
  unfold Config.openSinks at h
  split at h
  · next e₀ st₀ hout =>
    cases h
    obtain ⟨opened, hev⟩ := openSinksOf_error_closes quote merr outcome _ st hout
    exact ⟨opened, opened, hev, List.Perm.refl _⟩
  · next sink st₀ hout =>
    have h₀ : st₀.events = st.events ++ sink.map .opened := by
      obtain ⟨rfl, rfl⟩ := openSinksOf_ok quote merr outcome _ st hout
      rfl
    split at h
    · next e₁ st₁ herr =>
      cases h
      obtain ⟨opened, hev⟩ := openSinksOf_error_closes quote merr outcome _ st₀ herr
      -- the output's sinks are opened first and closed last
      refine ⟨sink ++ opened, opened ++ sink, ?_, List.perm_append_comm⟩
      simp only [closeAll, hev, h₀, List.map_append, List.append_assoc]
    · cases h

/-- `openSinks` that succeeds opened one sink per output path, then one per error-output path,
numbered in order, and closed none. -/
theorem openSinks_ok (cfg : Config) (st : SinkLog) {sinks : List Nat × List Nat} {st' : SinkLog}
    (h : cfg.openSinks quote merr outcome st = (.ok sinks, st')) :
    sinks = (List.range' st.calls cfg.outputPaths.length,
        List.range' (st.calls + cfg.outputPaths.length) cfg.errorOutputPaths.length) ∧
      st' = ⟨st.calls + cfg.outputPaths.length + cfg.errorOutputPaths.length,
        st.events ++
          (List.range' st.calls (cfg.outputPaths.length + cfg.errorOutputPaths.length)).map .opened⟩ := by
  unfold Config.openSinks at h
  split at h
  · cases h
  · next sink st₀ hout =>
    obtain ⟨rfl, rfl⟩ := openSinksOf_ok quote merr outcome _ st hout
    split at h
    · cases h
    · next errSink st₁ herr =>
      cases h
      obtain ⟨rfl, rfl⟩ := openSinksOf_ok quote merr outcome _ _ herr
      refine ⟨rfl, ?_⟩
      simp only [List.append_assoc, ← List.map_append, List.range'_append_1]

end Open

/-- **`Build` that fails for any reason but the level closes every sink it opened, once each.** -/
theorem build_error_closes (quote : List UInt8 → List UInt8) (merr : Multierr (List UInt8))
    (constructor : List UInt8 → Option (Option (List UInt8))) (outcome : Nat → Option (List UInt8))
    (cfg : Config) (st : SinkLog) {e : BuildError} {st' : SinkLog}
    (h : cfg.build quote merr constructor outcome st = (.error e, st'))
    (he : e ≠ .missingLevel) :
    ∃ opened closed : List Nat, st'.events = st.events ++ opened.map .opened ++ closed.map .closed ∧
      closed.Perm opened := by
  unfold Config.build at h
  split at h
  · -- the encoder fails before any sink is opened
    cases h
    exact ⟨[], [], by simp, List.Perm.refl _⟩
  · split at h
    · next e₀ st₀ hsinks =>
      cases h
      exact openSinks_error_closes quote merr outcome cfg st hsinks
    · split at h
      · cases h
        exact absurd rfl he
      · cases h

/-- `Build` that returns a logger opened its sinks as `openSinks` does, and closed none. -/
theorem build_ok (quote : List UInt8 → List UInt8) (merr : Multierr (List UInt8))
    (constructor : List UInt8 → Option (Option (List UInt8))) (outcome : Nat → Option (List UInt8))
    (cfg : Config) (st : SinkLog) {sinks : List Nat × List Nat} {st' : SinkLog}
    (h : cfg.build quote merr constructor outcome st = (.ok sinks, st')) :
    cfg.openSinks quote merr outcome st = (.ok sinks, st') := by
  unfold Config.build at h
  split at h
  · cases h
  · split at h
    · cases h
    · next sinks₀ st₀ hsinks =>
      split at h
      · cases h
      · cases h
        exact hsinks

/-- **The sinks `Build` leaves open.**  A `Build` that returns a logger opened one sink per
output path and then one per error-output path, numbered in order, and closed none: a path whose
sink failed to open makes it fail.  A `Build` that fails for any reason but the missing level
closed every sink it opened, once each. -/
theorem build_sinks_released (quote : List UInt8 → List UInt8) (merr : Multierr (List UInt8))
    (constructor : List UInt8 → Option (Option (List UInt8))) (outcome : Nat → Option (List UInt8))
    (cfg : Config) (st : SinkLog) :
    (∀ sinks st', cfg.build quote merr constructor outcome st = (.ok sinks, st') →
      sinks = (List.range' st.calls cfg.outputPaths.length,
          List.range' (st.calls + cfg.outputPaths.length) cfg.errorOutputPaths.length) ∧
        st'.events = st.events ++ (sinks.1 ++ sinks.2).map .opened) ∧
    ∀ e st', cfg.build quote merr constructor outcome st = (.error e, st') → e ≠ .missingLevel →
      ∃ opened closed : List Nat, st'.events = st.events ++ opened.map .opened ++ closed.map .closed ∧
        closed.Perm opened := by
  refine ⟨fun sinks st' h => ?_, fun e st' h he => build_error_closes quote merr constructor outcome cfg st h he⟩
  obtain ⟨rfl, rfl⟩ := openSinks_ok quote merr outcome cfg st
    (build_ok quote merr constructor outcome cfg st h)
  exact ⟨rfl, by rw [List.range'_append_1]⟩

/-! ## `Build` without a level -/

section Leak

variable (quote : List UInt8 → List UInt8) (merr : Multierr (List UInt8))

/-- When every factory call opens a sink, the loop opens one per path, numbered in order. -/
theorem openPaths_all_open {outcome : Nat → Option (List UInt8)} (hopen : ∀ i, outcome i = none) :
    ∀ (paths : List (List UInt8)) (closers : List Nat) (st : SinkLog),
      openPaths quote merr outcome paths (closers, none) st =
        ((closers ++ List.range' st.calls paths.length, none),
          ⟨st.calls + paths.length, st.events ++ (List.range' st.calls paths.length).map .opened⟩)
  | [], closers, st => by simp [openPaths]
  | path :: paths, closers, st => by
    simp only [openPaths, newSink, hopen]
    rw [openPaths_all_open hopen paths]
    simp [List.range'_succ, Nat.add_assoc, Nat.add_comm 1]

theorem open_all_open {outcome : Nat → Option (List UInt8)} (hopen : ∀ i, outcome i = none)
    (paths : List (List UInt8)) (st : SinkLog) :
    openSinksOf quote merr outcome paths st =
      (.ok (List.range' st.calls paths.length),
        ⟨st.calls + paths.length, st.events ++ (List.range' st.calls paths.length).map .opened⟩) := by
  simp only [openSinksOf, open_, openPaths_all_open quote merr hopen, List.nil_append]

/-- **A config without a level leaks its sinks.**  `Build` opens the output and error-output
sinks and only then checks the level: it returns `"missing Level"` having closed none of them. -/
theorem build_missingLevel_leaks (constructor : List UInt8 → Option (Option (List UInt8)))
    (outcome : Nat → Option (List UInt8)) {cfg : Config} (hlevel : cfg.level = none)
    (henc : newEncoder constructor cfg.encoding cfg.encoderConfig = .ok ())
    (hopen : ∀ i, outcome i = none) (st : SinkLog) :
    (cfg.build quote merr constructor outcome st).1 = .error .missingLevel ∧
    (cfg.build quote merr constructor outcome st).2.events =
      st.events ++ (List.range' st.calls (cfg.outputPaths.length + cfg.errorOutputPaths.length)).map .opened := by
  -- both `Open` calls succeed, then the level check fails with nothing closed
  have hsinks : (cfg.openSinks quote merr outcome st) =
      (.ok (List.range' st.calls cfg.outputPaths.length,
          List.range' (st.calls + cfg.outputPaths.length) cfg.errorOutputPaths.length),
        ⟨st.calls + cfg.outputPaths.length + cfg.errorOutputPaths.length,
          st.events ++ (List.range' st.calls (cfg.outputPaths.length + cfg.errorOutputPaths.length)).map .opened⟩) := by
    simp only [Config.openSinks, open_all_open quote merr hopen, List.append_assoc, ← List.map_append,
      List.range'_append_1]
  simp [Config.build, henc, hsinks, hlevel]

end Leak

/-- A JSON config with no level, writing to `stdout` and its errors to `stderr`. -/
def stdoutConfig : Config :=
  ⟨none, lit "json", ⟨[], [], [], [], [], [], [], false, [], none, none, none, none, none, none, []⟩,
    [lit "stdout"], [lit "stderr"]⟩

/-- An encoder registry that knows `json` only, whose constructor succeeds. -/
def jsonRegistry (name : List UInt8) : Option (Option (List UInt8)) :=
  if name = lit "json" then some none else none

theorem build_missingLevel_leaks_stdout :
    stdoutConfig.level = none ∧
      newEncoder jsonRegistry stdoutConfig.encoding stdoutConfig.encoderConfig = .ok () ∧
      (∀ i, (fun _ => none : Nat → Option (List UInt8)) i = none) ∧
      (stdoutConfig.build id Multierr.joined jsonRegistry (fun _ => none) ⟨0, []⟩).1 =
        .error .missingLevel ∧
      (stdoutConfig.build id Multierr.joined jsonRegistry (fun _ => none) ⟨0, []⟩).2.events =
        [.opened 0, .opened 1] := by
  have henc : newEncoder jsonRegistry stdoutConfig.encoding stdoutConfig.encoderConfig = .ok () := rfl
  have hleak := build_missingLevel_leaks id Multierr.joined jsonRegistry (fun _ => none)
    (rfl : stdoutConfig.level = none) henc (fun _ => rfl) ⟨0, []⟩
  exact ⟨rfl, henc, fun _ => rfl, hleak.1, hleak.2.trans rfl⟩

end Zap
