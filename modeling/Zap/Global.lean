import Zap.Options
import Zap.Lib.Machine

/-!
# Zap.Global — the package-global loggers and the standard library's logger

`ReplaceGlobals` swaps the global `Logger` and `SugaredLogger` and returns a function that swaps
the previous ones back.  `RedirectStdLogAt` points the standard library's package-global logger
at a zap logger: it clears the flags and the prefix, looks up the logger's method for the level,
and only then sets the output; the function it returns puts the flags and the prefix back and
sends the output to `os.Stderr`.  A `loggerWriter` logs each line it is given, less the white
space `bytes.TrimSpace` removes (an input, `trimSpace`).

* `undo_replaceGlobals_run`: undoing a run of `ReplaceGlobals` calls, most recent first, puts
  the globals back as they were.
* `redirectStdLogAt_spec`: what a redirect sets, what its restore function puts back, and that a
  refused level still leaves the flags and the prefix cleared.
-/

namespace Zap

open Go Go.Utf8 Zapcore

variable {E : Type}

/-- Where the standard library's logger writes. -/
inductive StdOutput (E : Type) where
  /-- `os.Stderr` -/
  | stderr
  /-- a writer zap did not install, by name -/
  | other (id : Nat)
  /-- `&loggerWriter{logFunc}`, `logFunc` being the method of `log` at `level` -/
  | loggerWriter (log : Logger E) (level : Level)

/-- The standard library's package-global `*log.Logger`: what `SetFlags`, `SetPrefix` and
`SetOutput` set. -/
structure StdLog (E : Type) where
  flags : Int
  prefixText : List UInt8
  output : StdOutput E

/-- The globals: `_globalL`, `_globalS`, which every write keeps equal to `_globalL.Sugar()`,
and the standard library's logger. -/
structure Globals (E : Type) where
  l : Logger E
  s : SugaredLogger E
  std : StdLog E
  sugared : s = l.sugar

/-! ## `ReplaceGlobals` -/

/-- `ReplaceGlobals(logger)`: the globals after it, and the logger the function it returns puts
back. -/
def replaceGlobals (g : Globals E) (logger : Logger E) : Globals E × Logger E :=
  (⟨logger, logger.sugar, g.std, rfl⟩, g.l)

/-- Calling the function `ReplaceGlobals` returned: `ReplaceGlobals(prev)`, whose own undo
function is dropped. -/
def undoGlobals (g : Globals E) (prev : Logger E) : Globals E := (replaceGlobals g prev).1

theorem Globals.ext' {g h : Globals E} (hl : g.l = h.l) (hstd : g.std = h.std) : g = h := by
  obtain ⟨l, s, std, hs⟩ := g
  obtain ⟨l', s', std', hs'⟩ := h
  simp only at hl hstd
  subst hl hstd hs hs'
  rfl

/-- **Undoing a run of `ReplaceGlobals` calls, most recent first, puts the globals back**: each
undo function holds the logger its call replaced, and `_globalS` follows `_globalL`. -/
theorem undo_replaceGlobals_run (g : Globals E) (loggers : List (Logger E)) :
    (Mealy.run replaceGlobals g loggers).2.reverse.foldl undoGlobals
      (Mealy.run replaceGlobals g loggers).1 = g := by
  induction loggers generalizing g with
  | nil => rfl
  | cons logger loggers ih =>
    -- the later calls are undone first, back to the globals after this call; then this one
    rw [Mealy.run_cons, List.reverse_cons, List.foldl_append, ih]
    exact Globals.ext' rfl rfl

/-! ## Redirecting the standard library's logger -/

/-- Why `levelToFunc` refuses a level. -/
structure LevelToFuncError where
  level : Level
  deriving DecidableEq, Repr

/-- `fmt.Errorf("unrecognized level: %q", lvl)`; `quote` is `%q` of the level's `String()`. -/
def LevelToFuncError.text (quote : List UInt8 → List UInt8) (e : LevelToFuncError) : List UInt8 :=
  lit "unrecognized level: " ++ quote e.level.string

/-- `levelToFunc(logger, lvl)`: the level of the method it returns, `logger.Debug` to
`logger.Fatal`. -/
def levelToFunc (lvl : Level) : Except LevelToFuncError Level :=
  if lvl = debugLevel then .ok debugLevel
  else if lvl = infoLevel then .ok infoLevel
  else if lvl = warnLevel then .ok warnLevel
  else if lvl = errorLevel then .ok errorLevel
  else if lvl = dPanicLevel then .ok dPanicLevel
  else if lvl = panicLevel then .ok panicLevel
  else if lvl = fatalLevel then .ok fatalLevel
  else .error ⟨lvl⟩

/-- What the function `redirectStdLogAt` returns puts back. -/
structure StdRestore where
  flags : Int
  prefixText : List UInt8

/-- `redirectStdLogAt(l, level)`.  `l.WithOptions(AddCallerSkip(3))` only moves the caller skip,
which the model leaves out. -/
def redirectStdLogAt (g : Globals E) (l : Logger E) (level : Level) :
    Globals E × Except LevelToFuncError StdRestore :=
  let saved : StdRestore := ⟨g.std.flags, g.std.prefixText⟩
  let std := { g.std with flags := 0, prefixText := [] }
  match levelToFunc level with
  | .error e => ({ g with std := std }, .error e)
  | .ok lvl => ({ g with std := { std with output := .loggerWriter l lvl } }, .ok saved)

/-- Calling the function `redirectStdLogAt` returned. -/
def StdRestore.run (r : StdRestore) (g : Globals E) : Globals E :=
  { g with std := ⟨r.flags, r.prefixText, .stderr⟩ }

/-- `_programmerErrorTemplate` -/
def programmerErrorTemplate : List UInt8 :=
  lit "You've found a bug in zap! Please file a bug at " ++
    lit "https://github.com/uber-go/zap/issues/new and reference this error: "

/-- `RedirectStdLog(l)`: `redirectStdLogAt(l, InfoLevel)`, which panics on an error. -/
def redirectStdLog (quote : List UInt8 → List UInt8) (g : Globals E) (l : Logger E) :
    Globals E × Outcome StdRestore :=
  match redirectStdLogAt g l infoLevel with
  | (g, .ok r) => (g, .ok r)
  | (g, .error e) => (g, .panic false (programmerErrorTemplate ++ e.text quote))

/-- `NewStdLog(l)`: a standard library logger with no prefix and no flags writing to `l.Info`. -/
def newStdLog (l : Logger E) : StdLog E := ⟨0, [], .loggerWriter l infoLevel⟩

/-- `NewStdLogAt(l, level)` -/
def newStdLogAt (l : Logger E) (level : Level) : Except LevelToFuncError (StdLog E) :=
  match levelToFunc level with
  | .error e => .error e
  | .ok lvl => .ok ⟨0, [], .loggerWriter l lvl⟩

/-- `w.Write(p)` of `&loggerWriter{logFunc}`, `logFunc` the method of `log` at `level`: the count
it returns, and what the method does with the trimmed line. -/
def loggerWriterWrite (ops : Encoder E) (merr : Multierr (List UInt8))
    (trimSpace : List UInt8 → List UInt8) (log : Logger E) (level : Level) (p : List UInt8)
    (rt : Runtime) (st : CheckState) : Int × List Event :=
  let p := trimSpace p
  (p.length, log.log ops merr level p [] rt st)

/-- `levelToFunc` accepts exactly the seven named levels, and returns the method of the level it
was given. -/
theorem levelToFunc_eq (lvl : Level) :
    levelToFunc lvl = if lvl ∈ levels then .ok lvl else .error ⟨lvl⟩ := by
  unfold levelToFunc
  by_cases h : lvl ∈ levels
  · rw [if_pos h]
    rcases List.mem_cons.mp h with rfl | h
    · rfl
    simp only [List.mem_cons, List.not_mem_nil, or_false] at h
    rcases h with rfl | rfl | rfl | rfl | rfl | rfl <;> decide
  · rw [if_neg h]
    simp only [levels, List.mem_cons, List.not_mem_nil, or_false, not_or] at h
    obtain ⟨h1, h2, h3, h4, h5, h6, h7⟩ := h
    rw [if_neg h1, if_neg h2, if_neg h3, if_neg h4, if_neg h5, if_neg h6, if_neg h7]

/-- **`RedirectStdLogAt` clears the flags and the prefix, whether it succeeds or not.**  For a
named level it sends the standard library's output to `l`'s method at that level, and the function
it returns puts back the flags and the prefix it found and sends the output to `os.Stderr`, from
whatever state it is called in.  For any other level it fails with `unrecognized level` and leaves
the output as it was, but not the flags and the prefix. -/
theorem redirectStdLogAt_spec (g : Globals E) (l : Logger E) (level : Level) :
    (redirectStdLogAt g l level).1.l = g.l ∧ (redirectStdLogAt g l level).1.std.flags = 0 ∧
      (redirectStdLogAt g l level).1.std.prefixText = [] ∧
    (level ∈ levels → ∃ r, (redirectStdLogAt g l level).2 = .ok r ∧
      (redirectStdLogAt g l level).1.std.output = .loggerWriter l level ∧
      ∀ g' : Globals E, (r.run g').l = g'.l ∧
        (r.run g').std = ⟨g.std.flags, g.std.prefixText, .stderr⟩) ∧
    (level ∉ levels → (redirectStdLogAt g l level).2 = .error ⟨level⟩ ∧
      (redirectStdLogAt g l level).1.std.output = g.std.output) := by
  unfold redirectStdLogAt
  rw [levelToFunc_eq]
  by_cases h : level ∈ levels
  · rw [if_pos h]
    exact ⟨rfl, rfl, rfl, fun _ => ⟨_, rfl, rfl, fun _ => ⟨rfl, rfl⟩⟩, fun hn => absurd h hn⟩
  · rw [if_neg h]
    exact ⟨rfl, rfl, rfl, fun hm => absurd hm h, fun _ => ⟨rfl, rfl⟩⟩

end Zap
