import Zap.Zapcore.Core

/-!
# Zap.Zapcore.IncreaseLevel — `NewIncreaseLevelCore`

`NewIncreaseLevelCore(core, level)` wraps `core` in a `levelFilterCore` that checks `level` before
the core, unless `level` would lower the logging level: its loop runs from `_maxLevel` down to
`_minLevel` and refuses at the first level that `level` enables and the core does not.

* `newIncreaseLevelCore_ok`: it succeeds only when `level` enables no named level the core does
  not, and then returns the filter.
* `newIncreaseLevelCore_error`: its error names the highest named level `level` enables and the
  core does not.
-/

namespace Zap.Zapcore

open Go.Utf8

variable {E : Type}

/-- Why `NewIncreaseLevelCore` refuses: a level that `level` enables and the core does not. -/
structure IncreaseLevelError where
  level : Level
  deriving DecidableEq, Repr

/-- The error's text; `quote` is `fmt`'s `%q`, here of the level's `String()`. -/
def IncreaseLevelError.text (quote : List UInt8 → List UInt8) (e : IncreaseLevelError) :
    List UInt8 :=
  lit "invalid increase level, as level " ++ quote e.level.string ++
    lit " is allowed by increased level, but not by existing core"

/-- `NewIncreaseLevelCore(core, level)`: the loop visits the named levels from `_maxLevel` down to
`_minLevel` and stops at the first that `level` enables and the core does not. -/
def newIncreaseLevelCore (core : Core E) (level : LevelEnabler) :
    Except IncreaseLevelError (Core E) :=
  match levels.reverse.find? (fun l => !core.enabled l && level.enabled l) with
  | some l => .error ⟨l⟩
  | none => .ok (.levelFilter core level)

theorem levels_reverse_sorted : levels.reverse.Pairwise (· > ·) :=
  List.pairwise_reverse.mpr levels_sorted

/-- **`NewIncreaseLevelCore` succeeds only when `level` enables no named level the core does
not**, and then it returns the filter. -/
theorem newIncreaseLevelCore_ok {core c : Core E} {level : LevelEnabler}
    (h : newIncreaseLevelCore core level = .ok c) :
    c = .levelFilter core level ∧ ∀ l ∈ levels, level.enabled l = true → core.enabled l = true := by
  unfold newIncreaseLevelCore at h
  cases hf : levels.reverse.find? (fun l => !core.enabled l && level.enabled l) with
  | some l => rw [hf] at h; cases h
  | none =>
    rw [hf] at h
    cases h
    refine ⟨rfl, fun l hl hen => ?_⟩
    have := List.find?_eq_none.mp hf l (List.mem_reverse.mpr hl)
    simpa [hen] using this

/-- **The error names the highest named level that `level` enables and the core does not**: the
loop counts down, so every level above it that `level` enables, the core enables too. -/
theorem newIncreaseLevelCore_error {core : Core E} {level : LevelEnabler} {e : IncreaseLevelError}
    (h : newIncreaseLevelCore core level = .error e) :
    e.level ∈ levels ∧ core.enabled e.level = false ∧ level.enabled e.level = true ∧
      ∀ l ∈ levels, e.level < l → level.enabled l = true → core.enabled l = true := by
  unfold newIncreaseLevelCore at h
  cases hf : levels.reverse.find? (fun l => !core.enabled l && level.enabled l) with
  | none => rw [hf] at h; cases h
  | some l =>
    rw [hf] at h
    cases h
    obtain ⟨hp, as, bs, hsplit, hbefore⟩ := List.find?_eq_some_iff_append.mp hf
    simp only [Bool.and_eq_true, Bool.not_eq_true'] at hp
    have hmem : l ∈ levels := List.mem_reverse.mp (by rw [hsplit]; simp)
    refine ⟨hmem, hp.1, hp.2, fun l' hl' hlt hen => ?_⟩
    -- in the descending list, a level above `l` comes before it, where the test failed
    have hsorted := levels_reverse_sorted
    rw [hsplit, List.pairwise_append] at hsorted
    have hl'mem : l' ∈ as ++ l :: bs := by rw [← hsplit]; exact List.mem_reverse.mpr hl'
    rcases List.mem_append.mp hl'mem with has | hbs
    · have := hbefore l' has
      simpa [hen] using this
    · rcases List.mem_cons.mp hbs with rfl | hbs
      · exact (Int8.lt_irrefl hlt).elim
      · have hgt : l > l' := (List.pairwise_cons.mp hsorted.2.1).1 l' hbs
        exact (Int8.lt_irrefl (Int8.lt_trans hlt hgt)).elim

end Zap.Zapcore
