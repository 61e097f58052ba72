import Zap.Zapcore.IncreaseLevel
import Zap.Zapcore.LazyWith

/-!
# Zap.Zapcore.Route — where `Check` sends an entry

A tree of cores without `hooked` or `sampler` nodes decides where an entry goes from the entry's
level alone.  `Core.route` says where, declaratively: the `ioCore`s that enable the level, below
level filters that enable it, left to right, each with the fields the `With` calls above it gave.
`Check` adds exactly those to the `CheckedEntry` and touches no state.

* `Core.check_route`: `Check` is `Core.route` added to the entry.
* `Core.route_eq_nil_of_not_enabled`: a tree whose `Enabled` is false routes nowhere, so
  `Enabled` is a sound test to skip `Check` on.
* `Core.raising`: every level filter enables, among the named levels, only what its core does,
  which `NewIncreaseLevelCore` checks; the constructors and `With` keep it.
* `check_isSome_iff_enabled`: in such a tree, at a named level, `Enabled` is exact: a fresh
  `Check` returns an entry exactly when `Enabled` is true.
-/

namespace Zap.Zapcore

open Go

variable {E : Type}

mutual

/-- The tree has no `hooked` and no `sampler` node. -/
def Core.static : Core E → Bool
  | .nop => true
  | .io _ _ _ => true
  | .multi cs => allStatic cs
  | .hooked _ _ => false
  | .levelFilter c _ => c.static
  | .sampler _ _ _ _ _ _ => false
  | .lazyWith c _ => c.static

/-- Every core of the list is static. -/
def allStatic : List (Core E) → Bool
  | [] => true
  | c :: cs => c.static && allStatic cs

end

section Route

variable (ops : Encoder E)

mutual

/-- The `ioCore`s the tree hands an entry at `lvl` to, after `With(fs)` for each `fs` of `fss`. -/
def Core.route : Core E → List (List Field) → Level → List (Core E)
  | .nop, _, _ => []
  | .io enab enc out, fss, lvl =>
    if enab.enabled lvl then [.io enab (withEncoder ops enc fss) out] else []
  | .multi cs, fss, lvl => routeAll cs fss lvl
  | .hooked _ _, _, _ => []
  | .levelFilter c level, fss, lvl => if level.enabled lvl then c.route fss lvl else []
  | .sampler _ _ _ _ _ _, _, _ => []
  | .lazyWith c fs, fss, lvl => c.route (fs :: fss) lvl

/-- The members' routes, in order. -/
def routeAll : List (Core E) → List (List Field) → Level → List (Core E)
  | [], _, _ => []
  | c :: cs, fss, lvl => c.route fss lvl ++ routeAll cs fss lvl

end

end Route

/-- `ce.AddCore(ent, core)` for each core in turn. -/
def CheckedEntry.addCores (ce : Option (CheckedEntry E)) (ent : Entry) :
    List (Core E) → Option (CheckedEntry E)
  | [] => ce
  | c :: cs => CheckedEntry.addCores (some (CheckedEntry.addCore ce ent c)) ent cs

@[simp] theorem addCores_nil (ce : Option (CheckedEntry E)) (ent : Entry) :
    CheckedEntry.addCores ce ent [] = ce := rfl

theorem addCores_append (ce : Option (CheckedEntry E)) (ent : Entry) (cs ds : List (Core E)) :
    CheckedEntry.addCores ce ent (cs ++ ds) =
      CheckedEntry.addCores (CheckedEntry.addCores ce ent cs) ent ds := by
  induction cs generalizing ce with
  | nil => rfl
  | cons c cs ih => exact ih _

/-- Adding cores to an entry appends them to its list; a nil entry is first replaced by a fresh
one. -/
theorem addCores_cons (ce : Option (CheckedEntry E)) (ent : Entry) (c : Core E)
    (cs : List (Core E)) :
    CheckedEntry.addCores ce ent (c :: cs) =
      some { ce.getD (CheckedEntry.fresh ent) with
        cores := (ce.getD (CheckedEntry.fresh ent)).cores ++ c :: cs } := by
  induction cs generalizing ce c with
  | nil => rfl
  | cons d cs ih =>
    rw [CheckedEntry.addCores, ih]
    simp [CheckedEntry.addCore]

theorem addCores_none_eq_none {ent : Entry} {cs : List (Core E)}
    (h : CheckedEntry.addCores none ent cs = none) : cs = [] := by
  cases cs with
  | nil => rfl
  | cons c cs => rw [addCores_cons] at h; cases h

section Route

variable (ops : Encoder E)

mutual

/-- `Check` of a static tree is its route added to the entry, and it changes no state. -/
theorem Core.check_eq_route : ∀ (c : Core E) (fss : List (List Field)) (ent : Entry)
    (ce : Option (CheckedEntry E)) (st : CheckState), c.static = true →
      c.check ops fss ent ce st = (CheckedEntry.addCores ce ent (c.route ops fss ent.level), st)
  | .nop, _, _, _, _, _ => rfl
  | .io enab enc out, fss, ent, ce, st, _ => by
    by_cases hl : enab.enabled ent.level
    · rw [Core.check, if_pos hl, Core.route, if_pos hl]
      rfl
    · rw [Core.check, if_neg hl, Core.route, if_neg hl]
      rfl
  | .multi cs, fss, ent, ce, st, h => by
    simp only [Core.static] at h
    rw [Core.check, Core.route]
    exact checkAll_route cs fss ent ce st h
  | .hooked _ _, _, _, _, _, h => by simp [Core.static] at h
  | .levelFilter c level, fss, ent, ce, st, h => by
    simp only [Core.static] at h
    by_cases hl : level.enabled ent.level
    · rw [Core.check, if_neg (by simp [hl]), Core.route, if_pos hl]
      exact Core.check_eq_route c fss ent ce st h
    · rw [Core.check, if_pos (by simp [hl]), Core.route, if_neg hl]
      rfl
  | .sampler _ _ _ _ _ _, _, _, _, _, h => by simp [Core.static] at h
  | .lazyWith c fs, fss, ent, ce, st, h => by
    simp only [Core.static] at h
    rw [Core.check, Core.route]
    exact Core.check_eq_route c (fs :: fss) ent ce st h

theorem checkAll_route : ∀ (cs : List (Core E)) (fss : List (List Field)) (ent : Entry)
    (ce : Option (CheckedEntry E)) (st : CheckState), allStatic cs = true →
      checkAll ops cs fss ent ce st = (CheckedEntry.addCores ce ent (routeAll ops cs fss ent.level), st)
  | [], _, _, _, _, _ => rfl
  | c :: cs, fss, ent, ce, st, h => by
    simp only [allStatic, Bool.and_eq_true] at h
    simp only [checkAll, Core.check_eq_route c fss ent ce st h.1, routeAll, addCores_append]
    exact checkAll_route cs fss ent _ st h.2

end

/-- **`Check` of a static tree is its route added to the entry**, and it changes no state. -/
theorem Core.check_route : ∀ (c : Core E) (fss : List (List Field)) (ent : Entry)
    (ce : Option (CheckedEntry E)) (st : CheckState), c.static = true →
      c.check ops fss ent ce st = (CheckedEntry.addCores ce ent (c.route ops fss ent.level), st) :=
  Core.check_eq_route ops

theorem check_route_tee :
    (Core.multi [.io debugLevel.toEnabler () ⟨0, none⟩,
        .levelFilter (.io debugLevel.toEnabler () ⟨1, none⟩) warnLevel.toEnabler] : Core Unit).static
        = true ∧
    (Core.multi [.io debugLevel.toEnabler () ⟨0, none⟩,
        .levelFilter (.io debugLevel.toEnabler () ⟨1, none⟩) warnLevel.toEnabler] : Core Unit).check
        ⟨id, fun e _ => e, fun _ _ _ => .ok []⟩ [] ⟨infoLevel, Time.unix 0, [], [], ⟨false, 0, [], 0, []⟩, []⟩
        none ⟨fun _ _ _ => ⟨0, 0⟩, []⟩ =
      (CheckedEntry.addCores none ⟨infoLevel, Time.unix 0, [], [], ⟨false, 0, [], 0, []⟩, []⟩
        [.io debugLevel.toEnabler () ⟨0, none⟩], ⟨fun _ _ _ => ⟨0, 0⟩, []⟩) :=
  ⟨rfl, Core.check_route ⟨id, fun e _ => e, fun _ _ _ => .ok []⟩ _ [] _ none _ rfl⟩

/-- **A static tree whose `Enabled` is false routes nowhere**: `Logger.check` may skip it. -/
theorem Core.route_eq_nil_of_not_enabled {c : Core E} (hs : c.static = true)
    (fss : List (List Field)) {ent : Entry} (hen : c.enabled ent.level = false) :
    c.route ops fss ent.level = [] := by
  -- the two descriptions of the same fresh check: nothing added, and the route added
  have hnone := Core.check_of_not_enabled ops c fss ent ⟨fun _ _ _ => ⟨0, 0⟩, []⟩ hen
  rw [Core.check_eq_route ops c fss ent none _ hs, Prod.mk.injEq] at hnone
  exact addCores_none_eq_none hnone.1

end Route

/-! ## Level filters that only raise the level -/

mutual

/-- Every level filter of the tree enables, among the named levels, only levels its core
enables: what `NewIncreaseLevelCore` checks before it builds one. -/
def Core.raising : Core E → Bool
  | .nop => true
  | .io _ _ _ => true
  | .multi cs => allRaising cs
  | .hooked c _ => c.raising
  | .levelFilter c level => levels.all (fun l => !level.enabled l || c.enabled l) && c.raising
  | .sampler c _ _ _ _ _ => c.raising
  | .lazyWith c _ => c.raising

/-- Every core of the list is raising. -/
def allRaising : List (Core E) → Bool
  | [] => true
  | c :: cs => c.raising && allRaising cs

end

theorem raising_levelFilter {c : Core E} {level : LevelEnabler} :
    (Core.levelFilter c level).raising = true ↔
      (∀ l ∈ levels, level.enabled l = true → c.enabled l = true) ∧ c.raising = true := by
  simp only [Core.raising, Bool.and_eq_true, List.all_eq_true, Bool.or_eq_true, Bool.not_eq_true']
  constructor
  · rintro ⟨h, hc⟩
    exact ⟨fun l hl hen => (h l hl).resolve_left (by simp [hen]), hc⟩
  · rintro ⟨h, hc⟩
    refine ⟨fun l hl => ?_, hc⟩
    cases hen : level.enabled l with
    | false => exact Or.inl rfl
    | true => exact Or.inr (h l hl hen)

/-- **`NewIncreaseLevelCore` keeps the tree raising**, and static: the filter it builds enables no
named level the core does not. -/
theorem newIncreaseLevelCore_raising {core c : Core E} {level : LevelEnabler}
    (h : newIncreaseLevelCore core level = .ok c) (hr : core.raising = true) :
    c.raising = true ∧ c.static = core.static := by
  obtain ⟨rfl, hen⟩ := newIncreaseLevelCore_ok h
  exact ⟨raising_levelFilter.mpr ⟨hen, hr⟩, rfl⟩

/-- `NewTee` of static, raising cores is static and raising. -/
theorem newTee_static_raising {cs : List (Core E)} (hs : allStatic cs = true)
    (hr : allRaising cs = true) : (newTee cs).static = true ∧ (newTee cs).raising = true := by
  match cs, hs, hr with
  | [], _, _ => exact ⟨rfl, rfl⟩
  | [c], hs, hr =>
    simp only [allStatic, allRaising, Bool.and_true] at hs hr
    exact ⟨hs, hr⟩
  | c :: d :: cs, hs, hr => exact ⟨hs, hr⟩

section Withs

variable (ops : Encoder E)

mutual

/-- `With` keeps a tree static. -/
theorem Core.static_withs : ∀ (c : Core E) (fss : List (List Field)),
    (c.withs ops fss).static = c.static
  | .nop, _ => rfl
  | .io _ _ _, _ => rfl
  | .multi cs, fss => by
    simp only [Core.withs, Core.static]
    exact allStatic_withsAll cs fss
  | .hooked _ _, _ => rfl
  | .levelFilter c _, fss => by
    simp only [Core.withs, Core.static]
    exact Core.static_withs c fss
  | .sampler _ _ _ _ _ _, _ => rfl
  | .lazyWith c fs, fss => by
    simp only [Core.withs, Core.static]
    exact Core.static_withs c (fs :: fss)

theorem allStatic_withsAll : ∀ (cs : List (Core E)) (fss : List (List Field)),
    allStatic (withsAll ops cs fss) = allStatic cs
  | [], _ => rfl
  | c :: cs, fss => by
    simp only [withsAll, allStatic]
    rw [Core.static_withs c fss, allStatic_withsAll cs fss]

end

mutual

/-- `With` keeps a tree raising: it keeps every core's `Enabled`. -/
theorem Core.raising_withs : ∀ (c : Core E) (fss : List (List Field)),
    (c.withs ops fss).raising = c.raising
  | .nop, _ => rfl
  | .io _ _ _, _ => rfl
  | .multi cs, fss => by
    simp only [Core.withs, Core.raising]
    exact allRaising_withsAll cs fss
  | .hooked c _, fss => by
    simp only [Core.withs, Core.raising]
    exact Core.raising_withs c fss
  | .levelFilter c level, fss => by
    simp only [Core.withs, Core.raising, Core.enabled_withs, Core.raising_withs c fss]
  | .sampler c _ _ _ _ _, fss => by
    simp only [Core.withs, Core.raising]
    exact Core.raising_withs c fss
  | .lazyWith c fs, fss => by
    simp only [Core.withs, Core.raising]
    exact Core.raising_withs c (fs :: fss)

theorem allRaising_withsAll : ∀ (cs : List (Core E)) (fss : List (List Field)),
    allRaising (withsAll ops cs fss) = allRaising cs
  | [], _ => rfl
  | c :: cs, fss => by
    simp only [withsAll, allRaising]
    rw [Core.raising_withs c fss, allRaising_withsAll cs fss]

end

end Withs

section Exact

variable (ops : Encoder E)

mutual

/-- In a static, raising tree, at a named level, the tree routes somewhere exactly when it is
enabled.  Only a level filter could enable a level its core does not, and raising forbids it. -/
theorem Core.route_ne_nil_iff : ∀ (c : Core E) (fss : List (List Field)) {l : Level},
    c.static = true → c.raising = true → l ∈ levels →
      (c.route ops fss l ≠ [] ↔ c.enabled l = true)
  | .nop, _, _, _, _, _ => by simp [Core.route, Core.enabled]
  | .io enab _ _, _, l, _, _, _ => by
    by_cases hl : enab.enabled l <;> simp [Core.route, Core.enabled, hl]
  | .multi cs, fss, _, hs, hr, hl => by
    simp only [Core.static, Core.raising] at hs hr
    rw [Core.route, Core.enabled]
    exact routeAll_ne_nil_iff cs fss hs hr hl
  | .hooked _ _, _, _, hs, _, _ => by simp [Core.static] at hs
  | .levelFilter c level, fss, l, hs, hr, hl => by
    simp only [Core.static] at hs
    obtain ⟨hen, hr⟩ := raising_levelFilter.mp hr
    by_cases hlvl : level.enabled l
    · -- the filter passes the level on, and the core enables it too
      rw [Core.route, if_pos hlvl, Core.route_ne_nil_iff c fss hs hr hl]
      simp only [Core.enabled, hlvl, hen l hl hlvl]
    · simp [Core.route, Core.enabled, hlvl]
  | .sampler _ _ _ _ _ _, _, _, hs, _, _ => by simp [Core.static] at hs
  | .lazyWith c fs, fss, _, hs, hr, hl => by
    simp only [Core.static, Core.raising] at hs hr
    rw [Core.route, Core.enabled]
    exact Core.route_ne_nil_iff c (fs :: fss) hs hr hl

theorem routeAll_ne_nil_iff : ∀ (cs : List (Core E)) (fss : List (List Field)) {l : Level},
    allStatic cs = true → allRaising cs = true → l ∈ levels →
      (routeAll ops cs fss l ≠ [] ↔ anyEnabled cs l = true)
  | [], _, _, _, _, _ => by simp [routeAll, anyEnabled]
  | c :: cs, fss, _, hs, hr, hl => by
    simp only [allStatic, allRaising, Bool.and_eq_true] at hs hr
    rw [routeAll, anyEnabled, Ne, List.append_eq_nil_iff, not_and_or, Bool.or_eq_true,
      ← Ne, ← Ne, Core.route_ne_nil_iff c fss hs.1 hr.1 hl, routeAll_ne_nil_iff cs fss hs.2 hr.2 hl]

end

/-- **`Enabled` is exact in a tree without hooks or samplers whose level filters only raise the
level**: at every named level a fresh `Check` returns an entry exactly when `Enabled` is true,
and it changes no state.  (A level filter that enabled a named level its core does not would be
enabled and route nowhere; `NewIncreaseLevelCore` refuses to build one.) -/
theorem check_isSome_iff_enabled {c : Core E} (hs : c.static = true) (hr : c.raising = true)
    (fss : List (List Field)) {ent : Entry} (hl : ent.level ∈ levels) (st : CheckState) :
    (c.check ops fss ent none st).1.isSome = c.enabled ent.level ∧
      (c.check ops fss ent none st).2 = st := by
  rw [Core.check_eq_route ops c fss ent none st hs]
  refine ⟨?_, rfl⟩
  -- an entry comes back exactly when the route is not empty
  have hiff := Core.route_ne_nil_iff ops c fss hs hr hl
  cases hroute : c.route ops fss ent.level with
  | nil =>
    simp only [hroute, ne_eq, not_true_eq_false, false_iff, Bool.not_eq_true] at hiff
    rw [hiff]
    rfl
  | cons d ds =>
    simp only [hroute, ne_eq, reduceCtorEq, not_false_eq_true, true_iff] at hiff
    rw [hiff, addCores_cons]
    rfl

theorem check_isSome_iff_enabled_filtered :
    (Core.levelFilter (.io debugLevel.toEnabler () ⟨0, none⟩) warnLevel.toEnabler : Core Unit).static
        = true ∧
    (Core.levelFilter (.io debugLevel.toEnabler () ⟨0, none⟩) warnLevel.toEnabler : Core Unit).raising
        = true ∧
    infoLevel ∈ levels ∧
    ((Core.levelFilter (.io debugLevel.toEnabler () ⟨0, none⟩) warnLevel.toEnabler : Core Unit).check
        ⟨id, fun e _ => e, fun _ _ _ => .ok []⟩ [] ⟨infoLevel, Time.unix 0, [], [], ⟨false, 0, [], 0, []⟩, []⟩
        none ⟨fun _ _ _ => ⟨0, 0⟩, []⟩).1.isSome =
      (Core.levelFilter (.io debugLevel.toEnabler () ⟨0, none⟩) warnLevel.toEnabler : Core Unit).enabled
        infoLevel ∧
    ((Core.levelFilter (.io debugLevel.toEnabler () ⟨0, none⟩) warnLevel.toEnabler : Core Unit).check
        ⟨id, fun e _ => e, fun _ _ _ => .ok []⟩ [] ⟨infoLevel, Time.unix 0, [], [], ⟨false, 0, [], 0, []⟩, []⟩
        none ⟨fun _ _ _ => ⟨0, 0⟩, []⟩).2 = ⟨fun _ _ _ => ⟨0, 0⟩, []⟩ :=
  have hr : (Core.levelFilter (.io debugLevel.toEnabler () ⟨0, none⟩) warnLevel.toEnabler :
      Core Unit).raising = true := by decide
  have hl : infoLevel ∈ levels := by decide
  ⟨rfl, hr, hl, check_isSome_iff_enabled ⟨id, fun e _ => e, fun _ _ _ => .ok []⟩ rfl hr [] hl _⟩

end Exact

end Zap.Zapcore
