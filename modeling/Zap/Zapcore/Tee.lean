import Zap.Zapcore.LazyWith
import Zap.Logger

/-!
# Zap.Zapcore.Tee — `NewTee` flattens

A `multiCore` asks its members in order: it is enabled if one of them is, its `Check` runs every
member's `Check` in turn on the same `CheckedEntry`, and its `Write` and `Sync` run every member's
and collect what they report.  So nesting does not show: a tee of tees behaves as one tee of all
their members, a `NopCore` member adds nothing, and `NewTee`, which returns `NewNopCore()` for no
core and the core itself for one, behaves as a `multiCore` of what it was given.

"Behaves as" is `Core.Equiv`: the same answers to `Enabled`, to `Check` and `Write` after any
`With` calls, and to `Sync`.  `Level()` is left out on purpose: `multiCore.Level` starts from
`_maxLevel`, so a tee of `NopCore`s reports `FatalLevel` where a `NopCore` has no level at all.
Two `With` calls make the core one `With` of both field lists makes, so equivalent cores stay
equivalent under `With`, and a logger cannot tell them apart.

* `Core.withs_append`, `Core.Equiv.withs`: `With` composes, and keeps equivalence.
* `Core.Equiv.multi`: a tee's members may be replaced by equivalent cores.
* `Logger.log_congr`: a logger logs the same events over equivalent cores.
* `newTee_flatten`: `NewTee` of `NewTee`s is `NewTee` of all their cores, and `NopCore` members
  may be dropped.
* `levelOf_tree_leastEnabled`: `LevelOf` of a tree of cores is the least level it enables when
  each enabler inside reports its own level right and each tee enables something, and a tee that
  enables nothing reports wrong whatever its members.
-/

namespace Zap.Zapcore

variable {E : Type} (ops : Encoder E) (merr : Go.Multierr (List UInt8))

/-- No caller can tell `c` from `d` through `Enabled`, `With` then `Check` or `Write`, or
`Sync`. -/
structure Core.Equiv (c d : Core E) : Prop where
  enabled : ∀ lvl, c.enabled lvl = d.enabled lvl
  check : ∀ fss ent ce st, c.check ops fss ent ce st = d.check ops fss ent ce st
  write : ∀ fss ent fields, c.write ops merr fss ent fields = d.write ops merr fss ent fields
  sync : c.sync = d.sync

theorem Core.Equiv.refl (c : Core E) : c.Equiv ops merr c :=
  ⟨fun _ => rfl, fun _ _ _ _ => rfl, fun _ _ _ => rfl, rfl⟩

variable {ops} {merr}

theorem Core.Equiv.symm {c d : Core E} (h : c.Equiv ops merr d) : d.Equiv ops merr c :=
  ⟨fun lvl => (h.enabled lvl).symm, fun fss ent ce st => (h.check fss ent ce st).symm,
    fun fss ent fields => (h.write fss ent fields).symm, h.sync.symm⟩

theorem Core.Equiv.trans {c d e : Core E} (h₁ : c.Equiv ops merr d) (h₂ : d.Equiv ops merr e) :
    c.Equiv ops merr e :=
  ⟨fun lvl => (h₁.enabled lvl).trans (h₂.enabled lvl),
    fun fss ent ce st => (h₁.check fss ent ce st).trans (h₂.check fss ent ce st),
    fun fss ent fields => (h₁.write fss ent fields).trans (h₂.write fss ent fields),
    h₁.sync.trans h₂.sync⟩

variable (ops) (merr)

/-! ## `With` composes -/

theorem withEncoder_append (enc : E) (fss fss' : List (List Field)) :
    withEncoder ops (withEncoder ops enc fss) fss' = withEncoder ops enc (fss ++ fss') := by
  simp only [withEncoder, List.foldl_append]

mutual

/-- Two `With` calls make the core that one `With` of both field lists makes. -/
theorem Core.withs_append : ∀ (c : Core E) (fss fss' : List (List Field)),
    (c.withs ops fss).withs ops fss' = c.withs ops (fss ++ fss')
  | .nop, _, _ => rfl
  | .io _ _ _, _, _ => by simp only [Core.withs, withEncoder_append]
  | .multi cs, fss, fss' => by simp only [Core.withs, withsAll_append cs fss fss']
  | .hooked c _, fss, fss' => by simp only [Core.withs, Core.withs_append c fss fss']
  | .levelFilter c _, fss, fss' => by simp only [Core.withs, Core.withs_append c fss fss']
  | .sampler c _ _ _ _ _, fss, fss' => by simp only [Core.withs, Core.withs_append c fss fss']
  | .lazyWith c fs, fss, fss' => by
    simp only [Core.withs, Core.withs_append c (fs :: fss) fss', List.cons_append]

theorem withsAll_append : ∀ (cs : List (Core E)) (fss fss' : List (List Field)),
    withsAll ops (withsAll ops cs fss) fss' = withsAll ops cs (fss ++ fss')
  | [], _, _ => rfl
  | c :: cs, fss, fss' => by
    simp only [withsAll, Core.withs_append c fss fss', withsAll_append cs fss fss']

end

mutual

/-- `Check` on a derived core is `Check` with its fields still pending. -/
theorem Core.check_withs : ∀ (c : Core E) (fss fss' : List (List Field)) (ent : Entry)
    (ce : Option (CheckedEntry E)) (st : CheckState),
    (c.withs ops fss).check ops fss' ent ce st = c.check ops (fss ++ fss') ent ce st
  | .nop, _, _, _, _, _ => rfl
  | .io _ _ _, _, _, _, _, _ => by simp only [Core.withs, Core.check, withEncoder_append]
  | .multi cs, fss, fss', ent, ce, st => by
    simp only [Core.withs, Core.check]
    exact checkAll_withsAll cs fss fss' ent ce st
  | .hooked c _, fss, fss', ent, ce, st => by
    -- the hooked core adds itself as derived by both field lists
    simp only [Core.withs, Core.check, Core.check_withs c fss fss' ent ce st, Core.withs_append]
  | .levelFilter c _, fss, fss', ent, ce, st => by
    simp only [Core.withs, Core.check, Core.check_withs c fss fss' ent ce st]
  | .sampler c _ _ _ _ _, fss, fss', _, _, _ => by
    simp only [Core.withs, Core.check, Core.enabled_withs, Core.check_withs c fss fss']
  | .lazyWith c fs, fss, fss', ent, ce, st => by
    simp only [Core.withs, Core.check, Core.check_withs c (fs :: fss) fss', List.cons_append]

theorem checkAll_withsAll : ∀ (cs : List (Core E)) (fss fss' : List (List Field)) (ent : Entry)
    (ce : Option (CheckedEntry E)) (st : CheckState),
    checkAll ops (withsAll ops cs fss) fss' ent ce st = checkAll ops cs (fss ++ fss') ent ce st
  | [], _, _, _, _, _ => rfl
  | c :: cs, fss, fss', ent, ce, st => by
    simp only [withsAll, checkAll, Core.check_withs c fss fss', checkAll_withsAll cs fss fss']

end

mutual

/-- `Write` on a derived core is `Write` with its fields still pending. -/
theorem Core.write_withs : ∀ (c : Core E) (fss fss' : List (List Field)) (ent : Entry)
    (fields : List Field),
    (c.withs ops fss).write ops merr fss' ent fields = c.write ops merr (fss ++ fss') ent fields
  | .nop, _, _, _, _ => rfl
  | .io _ _ _, _, _, _, _ => by simp only [Core.withs, Core.write, withEncoder_append]
  | .multi cs, fss, fss', ent, fields => by
    simp only [Core.withs, Core.write]
    exact writeAll_withsAll cs fss fss' ent fields none
  | .hooked _ _, _, _, _, _ => rfl
  | .levelFilter c _, fss, fss', ent, fields => by
    simp only [Core.withs, Core.write]
    exact Core.write_withs c fss fss' ent fields
  | .sampler c _ _ _ _ _, fss, fss', ent, fields => by
    simp only [Core.withs, Core.write]
    exact Core.write_withs c fss fss' ent fields
  | .lazyWith c fs, fss, fss', ent, fields => by
    simp only [Core.withs, Core.write]
    exact Core.write_withs c (fs :: fss) fss' ent fields

theorem writeAll_withsAll : ∀ (cs : List (Core E)) (fss fss' : List (List Field)) (ent : Entry)
    (fields : List Field) (err : Option (List UInt8)),
    writeAll ops merr (withsAll ops cs fss) fss' ent fields err =
      writeAll ops merr cs (fss ++ fss') ent fields err
  | [], _, _, _, _, _ => rfl
  | c :: cs, fss, fss', ent, fields, err => by
    simp only [withsAll, writeAll_cons, Core.write_withs c fss fss', writeAll_withsAll cs fss fss']

end

variable {ops} {merr}

/-- Equivalent cores stay equivalent under `With`. -/
theorem Core.Equiv.withs {c d : Core E} (h : c.Equiv ops merr d) (fss : List (List Field)) :
    (c.withs ops fss).Equiv ops merr (d.withs ops fss) :=
  ⟨fun lvl => by rw [Core.enabled_withs, Core.enabled_withs, h.enabled],
    fun fss' ent ce st => by rw [Core.check_withs, Core.check_withs, h.check],
    fun fss' ent fields => by rw [Core.write_withs, Core.write_withs, h.write],
    by rw [Core.sync_withs, Core.sync_withs, h.sync]⟩

variable (ops) (merr)

/-! ## The loops over the members split anywhere -/

theorem anyEnabled_append (cs ds : List (Core E)) (lvl : Level) :
    anyEnabled (cs ++ ds) lvl = (anyEnabled cs lvl || anyEnabled ds lvl) := by
  induction cs with
  | nil => rfl
  | cons c cs ih => simp only [List.cons_append, anyEnabled, ih, Bool.or_assoc]

theorem checkAll_append (cs ds : List (Core E)) (fss : List (List Field)) (ent : Entry)
    (ce : Option (CheckedEntry E)) (st : CheckState) :
    checkAll ops (cs ++ ds) fss ent ce st =
      checkAll ops ds fss ent (checkAll ops cs fss ent ce st).1 (checkAll ops cs fss ent ce st).2 := by
  induction cs generalizing ce st with
  | nil => rfl
  | cons c cs ih => simp only [List.cons_append, checkAll, ih]

theorem syncAll_append (cs ds : List (Core E)) : syncAll (cs ++ ds) = syncAll cs ++ syncAll ds := by
  induction cs with
  | nil => rfl
  | cons c cs ih => simp only [List.cons_append, syncAll, ih, List.append_assoc]

/-! ## Tees of tees -/

/-- A tee's `Write` over tees is its `Write` over all their members: `multierr.Append` flattens. -/
theorem writeAll_map_multi (css : List (List (Core E))) (fss : List (List Field)) (ent : Entry)
    (fields : List Field) (err : Option (List UInt8)) :
    writeAll ops merr (css.map Core.multi) fss ent fields err =
      writeAll ops merr css.flatten fss ent fields err := by
  induction css generalizing err with
  | nil => rfl
  | cons cs css ih =>
    -- the inner tee's loop from nil, its error appended, is the flat loop going on from `err`
    rw [List.map_cons, List.flatten_cons, writeAll_cons, writeAll_append,
      writeAll_from ops merr cs _ _ _ err, WriteEnd.andThen_assoc]
    simp only [Core.write, ih, WriteEnd.returned_andThen]

/-- A tee whose members are tees behaves as the tee of all their members. -/
theorem multi_map_multi_equiv (css : List (List (Core E))) :
    (Core.multi (css.map Core.multi)).Equiv ops merr (.multi css.flatten) := by
  -- each loop over the nested tees is the loop over the flattened members, list by list
  refine ⟨fun lvl => ?_, fun fss ent ce st => ?_, fun fss ent fields => ?_, ?_⟩
  · simp only [Core.enabled]
    induction css with
    | nil => rfl
    | cons cs css ih => rw [List.map_cons, List.flatten_cons, anyEnabled_append, anyEnabled, ih,
        Core.enabled]
  · simp only [Core.check]
    induction css generalizing ce st with
    | nil => rfl
    | cons cs css ih =>
      rw [List.map_cons, List.flatten_cons, checkAll_append, checkAll, Core.check]
      simp only [ih]
  · exact writeAll_map_multi ops merr css fss ent fields none
  · simp only [Core.sync]
    induction css with
    | nil => rfl
    | cons cs css ih => rw [List.map_cons, List.flatten_cons, syncAll_append, syncAll, Core.sync, ih]

/-- A `NopCore` member adds nothing to a tee. -/
theorem multi_nop_equiv (cs ds : List (Core E)) :
    (Core.multi (cs ++ newNopCore :: ds)).Equiv ops merr (.multi (cs ++ ds)) := by
  refine ⟨fun lvl => ?_, fun fss ent ce st => ?_, fun fss ent fields => ?_, ?_⟩
  · simp only [Core.enabled, anyEnabled_append, anyEnabled, newNopCore, Bool.false_or]
  · simp only [Core.check, checkAll_append, checkAll, newNopCore]
  · -- the nop member returns nil, which `multierr.Append` skips
    simp only [Core.write, writeAll_append, writeAll_cons, newNopCore, WriteEnd.returned_andThen,
      merr.append_none]
  · simp only [Core.sync, syncAll_append, syncAll, newNopCore, List.nil_append]

variable {ops} {merr}

/-- A tee's members may be replaced by equivalent cores. -/
theorem Core.Equiv.multi {cs ds : List (Core E)} (h : List.Forall₂ (Core.Equiv ops merr) cs ds) :
    (Core.multi cs).Equiv ops merr (.multi ds) := by
  induction h with
  | nil => exact Core.Equiv.refl ops merr _
  | @cons c d cs ds hcd _ ih =>
    -- the tails' loops agree from nil, so from any error collected before them
    have htail : ∀ fss ent fields err, writeAll ops merr cs fss ent fields err =
        writeAll ops merr ds fss ent fields err := by
      intro fss ent fields err
      rw [writeAll_from ops merr cs, writeAll_from ops merr ds]
      exact congrArg (fun w => WriteEnd.andThen w _) (ih.write fss ent fields)
    refine ⟨fun lvl => ?_, fun fss ent ce st => ?_, fun fss ent fields => ?_, ?_⟩
    · simp only [Core.enabled, anyEnabled, hcd.enabled lvl]
      rw [← Core.enabled, ← Core.enabled, ih.enabled lvl]
    · simp only [Core.check, checkAll, hcd.check fss ent ce st]
      rw [← Core.check, ← Core.check, ih.check]
    · simp only [Core.write, writeAll_cons, hcd.write fss ent fields, htail]
    · simp only [Core.sync, syncAll, hcd.sync]
      rw [← Core.sync, ← Core.sync, ih.sync]

variable (ops) (merr)

/-- `NewTee` behaves as a `multiCore` of its cores, also for none and for one. -/
theorem newTee_equiv (cs : List (Core E)) : (newTee cs).Equiv ops merr (.multi cs) := by
  rcases cs with _ | ⟨c, _ | ⟨d, cs⟩⟩
  · exact ⟨fun _ => rfl, fun _ _ _ _ => rfl, fun _ _ _ => rfl, rfl⟩
  · -- `NewTee` returns the one core itself
    refine ⟨fun lvl => ?_, fun fss ent ce st => rfl, fun fss ent fields => ?_, ?_⟩
    · simp only [newTee, Core.enabled, anyEnabled, Bool.or_false]
    · simp only [newTee, Core.write, writeAll_cons, writeAll_nil, merr.none_append,
        WriteEnd.andThen_returned]
    · simp only [newTee, Core.sync, syncAll, List.append_nil]
  · exact Core.Equiv.refl ops merr _

/-- `NewTee` of `NewTee`s behaves as `NewTee` of all their cores. -/
theorem newTee_map_newTee_equiv (css : List (List (Core E))) :
    (newTee (css.map newTee)).Equiv ops merr (newTee css.flatten) := by
  -- each inner `NewTee` is its `multiCore`, and a tee of `multiCore`s is the flat tee
  have hinner : List.Forall₂ (Core.Equiv ops merr) (css.map newTee) (css.map Core.multi) := by
    rw [List.forall₂_map_left_iff, List.forall₂_map_right_iff]
    exact List.forall₂_same.mpr fun cs _ => newTee_equiv ops merr cs
  exact ((newTee_equiv ops merr _).trans (Core.Equiv.multi hinner)).trans
    ((multi_map_multi_equiv ops merr css).trans (newTee_equiv ops merr _).symm)

/-! ## `LevelOf` of a tree of cores

`multiCore.Level` takes the least `LevelOf` of the members, starting from `_maxLevel`.  When each
member's level is right and one of them enables something, that is the least level the tee
enables; when none does, the start `_maxLevel` is what comes back, never `InvalidLevel`. -/

mutual

/-- Each `Level()` inside `c` that comes from an enabler is right (`LevelEnabler.Exact`), and
each tee inside enables some level. -/
def Core.LevelsExact : Core E → Prop
  | .nop => True
  | .io enab _ _ => enab.Exact
  | .multi cs => (∃ l ∈ levels, anyEnabled cs l = true) ∧ AllLevelsExact cs
  | .hooked c _ => c.LevelsExact
  | .levelFilter _ level => level.Exact
  | .sampler c _ _ _ _ _ => c.LevelsExact
  | .lazyWith _ _ => True

def AllLevelsExact : List (Core E) → Prop
  | [] => True
  | c :: cs => c.LevelsExact ∧ AllLevelsExact cs

end

theorem anyEnabled_eq_true {cs : List (Core E)} {lvl : Level} :
    anyEnabled cs lvl = true ↔ ∃ c ∈ cs, c.enabled lvl = true := by
  induction cs with
  | nil => simp [anyEnabled]
  | cons c cs ih => simp [anyEnabled, ih]

theorem multiLevel_cons (c : Core E) (cs : List (Core E)) (minLvl : Level) :
    multiLevel (c :: cs) minLvl = multiLevel cs (if c.levelOf < minLvl then c.levelOf else minLvl) :=
  rfl

/-- The loop of `multiCore.Level` ends at or below its start and each member's `LevelOf`. -/
theorem multiLevel_le (cs : List (Core E)) (minLvl : Level) :
    multiLevel cs minLvl ≤ minLvl ∧ ∀ c ∈ cs, multiLevel cs minLvl ≤ c.levelOf := by
  induction cs generalizing minLvl with
  | nil => exact ⟨Int8.le_refl _, by simp⟩
  | cons c cs ih =>
    rw [multiLevel_cons]
    set m := if c.levelOf < minLvl then c.levelOf else minLvl with hm
    have hstep : m ≤ minLvl ∧ m ≤ c.levelOf := by
      rw [hm]
      split
      · exact ⟨Int8.le_of_lt ‹_›, Int8.le_refl _⟩
      · exact ⟨Int8.le_refl _, Int8.not_lt.mp ‹_›⟩
    obtain ⟨hle, hall⟩ := ih m
    refine ⟨Int8.le_trans hle hstep.1, fun d hd => ?_⟩
    rcases List.mem_cons.mp hd with rfl | hd
    · exact Int8.le_trans hle hstep.2
    · exact hall d hd

/-- ... and it ends at its start or at one member's `LevelOf`. -/
theorem multiLevel_eq (cs : List (Core E)) (minLvl : Level) :
    multiLevel cs minLvl = minLvl ∨ ∃ c ∈ cs, multiLevel cs minLvl = c.levelOf := by
  induction cs generalizing minLvl with
  | nil => exact Or.inl rfl
  | cons c cs ih =>
    rw [multiLevel_cons]
    rcases ih (if c.levelOf < minLvl then c.levelOf else minLvl) with h | ⟨d, hd, h⟩
    · rw [h]
      split
      · exact Or.inr ⟨c, List.mem_cons_self, rfl⟩
      · exact Or.inl rfl
    · exact Or.inr ⟨d, List.mem_cons_of_mem _ hd, h⟩

/-- A tee whose members report their levels right, and which enables some level, reports the
least level it enables. -/
theorem multiLevel_leastEnabled {cs : List (Core E)}
    (hcs : ∀ c ∈ cs, LeastEnabled c.enabled c.levelOf) (hen : ∃ l ∈ levels, anyEnabled cs l = true) :
    LeastEnabled (anyEnabled cs) (multiLevel cs maxLevel) := by
  -- `lo`, the least level the tee enables, is what the scan of `LevelOf` would find
  obtain ⟨lo, hlo, hon, hmin⟩ : ∃ lo ∈ levels, anyEnabled cs lo = true ∧
      ∀ l' ∈ levels, anyEnabled cs l' = true → lo ≤ l' := by
    rcases scanLevels_leastEnabled (anyEnabled cs) with ⟨h₁, h₂, h₃⟩ | ⟨-, hnone⟩
    · exact ⟨_, h₁, h₂, h₃⟩
    · obtain ⟨l, hl, he⟩ := hen
      rw [hnone l hl] at he
      exact absurd he Bool.false_ne_true
  -- no member reports a level below `lo`: it is one the member enables, or `InvalidLevel`
  have habove : ∀ c ∈ cs, lo ≤ c.levelOf := by
    intro c hc
    rcases hcs c hc with ⟨h₁, h₂, -⟩ | ⟨h₁, -⟩
    · exact hmin _ h₁ (anyEnabled_eq_true.mpr ⟨c, hc, h₂⟩)
    · rw [h₁]
      exact Int8.le_trans (le_maxLevel_of_mem hlo) (by decide)
  -- and a member that enables `lo` reports it
  obtain ⟨c, hc, hclo⟩ := anyEnabled_eq_true.mp hon
  have hreport : c.levelOf = lo := Int8.le_antisymm ((hcs c hc).le hlo hclo) (habove c hc)
  have heq : multiLevel cs maxLevel = lo := by
    apply Int8.le_antisymm
    · rw [← hreport]
      exact (multiLevel_le cs maxLevel).2 c hc
    · rcases multiLevel_eq cs maxLevel with h | ⟨d, hd, h⟩
      · rw [h]
        exact le_maxLevel_of_mem hlo
      · rw [h]
        exact habove d hd
  rw [heq]
  exact Or.inl ⟨hlo, hon, hmin⟩

mutual

theorem Core.levelOf_leastEnabled : ∀ c : Core E, c.LevelsExact → LeastEnabled c.enabled c.levelOf
  | .nop, _ => scanLevels_leastEnabled _
  | .io _ _ _, h => levelOf_leastEnabled h
  | .multi cs, h => multiLevel_leastEnabled (allLevelsExact_leastEnabled cs h.2) h.1
  | .hooked c _, h => Core.levelOf_leastEnabled c h
  | .levelFilter _ _, h => levelOf_leastEnabled h
  | .sampler c _ _ _ _ _, h => Core.levelOf_leastEnabled c h
  | .lazyWith _ _, _ => scanLevels_leastEnabled _

theorem allLevelsExact_leastEnabled : ∀ cs : List (Core E), AllLevelsExact cs →
    ∀ c ∈ cs, LeastEnabled c.enabled c.levelOf
  | [], _ => by simp
  | c :: cs, h => by
    have hc := Core.levelOf_leastEnabled c h.1
    have hcs := allLevelsExact_leastEnabled cs h.2
    intro d hd
    rcases List.mem_cons.mp hd with rfl | hd
    · exact hc
    · exact hcs d hd

end

/-- **`LevelOf` of a core tree.**  It is the least level the tree enables whenever each enabler
inside reports its own level right and each tee inside enables something; and a tee, whatever its
members, reports right only if it enables something. -/
theorem levelOf_tree_leastEnabled :
    (∀ c : Core E, c.LevelsExact → LeastEnabled c.enabled c.levelOf) ∧
    ∀ cs : List (Core E), LeastEnabled (Core.multi cs).enabled (Core.multi cs).levelOf →
      ∃ l ∈ levels, anyEnabled cs l = true := by
  refine ⟨Core.levelOf_leastEnabled, fun cs h => ?_⟩
  rcases h with ⟨hl, hon, -⟩ | ⟨hinv, -⟩
  · exact ⟨_, hl, hon⟩
  · -- the loop never goes above its start `_maxLevel`, which is below `InvalidLevel`
    have hle : multiLevel cs maxLevel ≤ maxLevel := (multiLevel_le cs maxLevel).1
    change multiLevel cs maxLevel = invalidLevel at hinv
    rw [hinv] at hle
    exact absurd hle (by decide)

/-- A tee of a `DebugLevel` core and the same core behind a `WarnLevel` filter. -/
def debugWarnTee : Core Unit := newTee [.levelFilter debugIoCore warnLevel.toEnabler, debugIoCore]

theorem levelOf_tree_leastEnabled_debugWarnTee :
    debugWarnTee.LevelsExact ∧ LeastEnabled debugWarnTee.enabled debugWarnTee.levelOf :=
  have h : debugWarnTee.LevelsExact :=
    ⟨⟨debugLevel, by decide, rfl⟩, Level.toEnabler_exact _, Level.toEnabler_exact _, trivial⟩
  ⟨h, levelOf_tree_leastEnabled.1 _ h⟩

/-! ## What a logger sees -/

theorem Logger.check_congr (log : Logger E) {c d : Core E} (h : c.Equiv ops merr d) (lvl : Level)
    (msg : List UInt8) (rt : Runtime) (st : CheckState) :
    { log with core := c }.check ops lvl msg rt st = { log with core := d }.check ops lvl msg rt st := by
  simp only [Logger.check, h.enabled, h.check, Logger.entry_setCore, Logger.terminalHook_setCore,
    Logger.annotate_setCore]

/-- A logger logs the same events over equivalent cores. -/
theorem Logger.log_congr (log : Logger E) {c d : Core E} (h : c.Equiv ops merr d) (lvl : Level)
    (msg : List UInt8) (fields : List Field) (rt : Runtime) (st : CheckState) :
    { log with core := c }.log ops merr lvl msg fields rt st =
      { log with core := d }.log ops merr lvl msg fields rt st := by
  unfold Logger.log
  rw [Logger.check_congr ops merr log h]

/-- **`NewTee` flattens**: `NewTee` of `NewTee`s behaves as `NewTee` of all their cores, and a
`NopCore` among a tee's cores changes nothing, for `Enabled`, `Check`, `Write` and `Sync`; so a
logger over the nested tee, after any `With` calls, logs exactly what one over the flat tee logs. -/
theorem newTee_flatten (css : List (List (Core E))) (cs ds : List (Core E)) :
    (newTee (css.map newTee)).Equiv ops merr (newTee css.flatten) ∧
      (newTee (cs ++ newNopCore :: ds)).Equiv ops merr (newTee (cs ++ ds)) ∧
      ∀ (log : Logger E) (fss : List (List Field)) (lvl : Level) (msg : List UInt8)
        (fields : List Field) (rt : Runtime) (st : CheckState),
        { log with core := (newTee (css.map newTee)).withs ops fss }.log ops merr lvl msg fields rt st =
          { log with core := (newTee css.flatten).withs ops fss }.log ops merr lvl msg fields rt st := by
  refine ⟨newTee_map_newTee_equiv ops merr css, ?_, fun log fss lvl msg fields rt st => ?_⟩
  · exact ((newTee_equiv ops merr _).trans (multi_nop_equiv ops merr cs ds)).trans
      (newTee_equiv ops merr _).symm
  · exact Logger.log_congr ops merr log ((newTee_map_newTee_equiv ops merr css).withs fss) lvl msg
      fields rt st

end Zap.Zapcore
