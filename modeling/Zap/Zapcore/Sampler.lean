import Zap.Zapcore.Core
import Zap.Lib.Machine

/-!
# Zap.Zapcore.Sampler — the sampler's counters against the window law

The sampler counts the entries of each bucket (level, `fnv32a(message) % 4096`) in windows of
length `tick`.  What it is meant to do is the window law (`Window.step`, `admits`): the first
entry of a bucket opens a window at its own timestamp, the first later one at least `tick` after
the window's start opens the next, and the `k`-th entry of a window is admitted iff
`k ≤ first` or, when `thereafter > 0`, `(k - first) % thereafter = 0`.

`counter.IncCheckReset` starts from `resetAt = 0` and resets only when `resetAt ≤ UnixNano`, so an
entry whose timestamp is negative (the zero `time.Time` has one) never opens a window.

* `incCheckReset_of_neg`: before a reset, a negative timestamp only counts.
* `sampler_negative_time_drops`: two entries with negative timestamps a whole `tick` apart; the
  law admits the second as the first of its window, the sampler drops it.
* `sampler_simulates_law`: with timestamps at or after 1970 and no `int64` or `uint64` wrap, one
  `Check` of the sampler is one step of the law, each counter tracking its bucket's window.
* `sampler_follows_window_law`: so over every run the hook is sent exactly the law's decisions.
-/

namespace Zap.Zapcore

open Go

/-! ## The window law -/

/-- The law's state for one bucket: the start of the current window and its entries so far. -/
structure Window where
  start : Int
  count : Nat

/-- An entry at `tn`: it opens a window unless the current one started less than `tick` before. -/
def Window.step (tick : Int) : Option Window → Int → Window
  | none, tn => ⟨tn, 1⟩
  | some w, tn => if w.start + tick ≤ tn then ⟨tn, 1⟩ else ⟨w.start, w.count + 1⟩

/-- The law's verdict on the `k`-th entry of its window. -/
def admits (first thereafter k : Nat) : Bool :=
  k ≤ first || (0 < thereafter && (k - first) % thereafter == 0)

theorem Window.step_none (tick tn : Int) : Window.step tick none tn = ⟨tn, 1⟩ := rfl

theorem Window.step_open {tick : Int} {w : Window} {tn : Int} (h : w.start + tick ≤ tn) :
    Window.step tick (some w) tn = ⟨tn, 1⟩ := by
  simp [Window.step, h]

/-- The first entry of a window is admitted whenever `first ≥ 1`. -/
theorem admits_one {first : Nat} (h : 1 ≤ first) (thereafter : Nat) : admits first thereafter 1 = true := by
  simp [admits, h]

/-! ## The counter on negative timestamps -/

/-- **Before its first reset a counter only counts an entry with a negative timestamp**: its
`resetAt` is still `0`, which is after the entry. -/
theorem incCheckReset_of_neg (k : UInt64) {t : Time} (ht : Int64.ofInt t.UnixNano < 0) (tick : Int64) :
    incCheckReset ⟨0, k⟩ t tick = (k + 1, ⟨0, k + 1⟩) := by
  simp [incCheckReset, ht]

@[simp] theorem CheckState.setCounter_counts_self (st : CheckState) (s i : Nat) (j : UInt32)
    (ctr : Counter) : (st.setCounter s i j ctr).counts s i j = ctr := by
  simp [CheckState.setCounter]

/-! ## The sampler on two entries before midnight of 1970 -/

section Negative

variable {E : Type} (ops : Encoder E)

/-- **The sampler drops the first entry of a new window.**  Two entries of one bucket, with
negative timestamps at least `tick` apart, checked through a fresh sampler with `first = 1`,
`thereafter = 0` over an `ioCore` that enables their level: by the law the second opens a window
and is its first entry, so it is admitted; the sampler's counter never reset, counts it as the
second, and drops it. -/
theorem sampler_negative_time_drops (enab : LevelEnabler) (enc : E) (out : WriteSyncer) (s : Nat)
    (tick : Int64) (h : Nat) {e₁ e₂ : Entry} (hen : enab.enabled e₁.level = true)
    (hlvl : minLevel ≤ e₁.level ∧ e₁.level ≤ maxLevel) (hlev : e₂.level = e₁.level)
    (hmsg : e₂.message = e₁.message) (hneg₁ : Int64.ofInt e₁.time.UnixNano < 0)
    (hneg₂ : Int64.ofInt e₂.time.UnixNano < 0)
    (hwin : e₁.time.UnixNano + tick.toInt ≤ e₂.time.UnixNano) (st : CheckState)
    (hfresh : ∀ i j, st.counts s i j = ⟨0, 0⟩) :
    (Window.step tick.toInt (some (Window.step tick.toInt none e₁.time.UnixNano)) e₂.time.UnixNano).count = 1 ∧
    admits 1 0 1 = true ∧
    ((Core.sampler (.io enab enc out) s tick 1 0 (some h)).check ops [] e₂ none
        ((Core.sampler (.io enab enc out) s tick 1 0 (some h)).check ops [] e₁ none st).2).1 = none ∧
    ((Core.sampler (.io enab enc out) s tick 1 0 (some h)).check ops [] e₂ none
        ((Core.sampler (.io enab enc out) s tick 1 0 (some h)).check ops [] e₁ none st).2).2.events =
      st.events ++ [.sampled h e₁ .logSampled, .sampled h e₂ .logDropped] := by
  refine ⟨by rw [Window.step_none, Window.step_open hwin], admits_one (Nat.le_refl 1) 0, ?_⟩
  have hen₂ : enab.enabled e₂.level = true := by rw [hlev]; exact hen
  -- the first entry is the counter's first: counted as 1, admitted, and passed to the ioCore
  have hc₁ : incCheckReset (st.counts s (e₁.level - minLevel).toNatClampNeg
      (fnv32a e₁.message % countersPerLevel)) e₁.time tick = (1, ⟨0, 1⟩) := by
    rw [hfresh, incCheckReset_of_neg 0 hneg₁]
    rfl
  have hchk₁ : (Core.sampler (.io enab enc out) s tick 1 0 (some h)).check ops [] e₁ none st =
      (some (CheckedEntry.addCore none e₁ (.io enab (withEncoder ops enc []) out)),
        samplerHook (some h) e₁ .logSampled (st.setCounter s (e₁.level - minLevel).toNatClampNeg
          (fnv32a e₁.message % countersPerLevel) ⟨0, 1⟩)) := by
    simp only [Core.check, Core.enabled, hen, hlvl, hc₁]
    simp
  -- the second is counted as 2 in the same bucket, which was never reset, and dropped
  have hc₂ : incCheckReset ((samplerHook (some h) e₁ .logSampled (st.setCounter s
      (e₁.level - minLevel).toNatClampNeg (fnv32a e₁.message % countersPerLevel) ⟨0, 1⟩)).counts s
      (e₂.level - minLevel).toNatClampNeg (fnv32a e₂.message % countersPerLevel)) e₂.time tick =
        (2, ⟨0, 2⟩) := by
    rw [hlev, hmsg]
    simp only [samplerHook, CheckState.setCounter_counts_self]
    rw [incCheckReset_of_neg 1 hneg₂]
    rfl
  have hlvl₂ : minLevel ≤ e₂.level ∧ e₂.level ≤ maxLevel := by rw [hlev]; exact hlvl
  rw [hchk₁]
  simp only [Core.check, Core.enabled, hen₂, hlvl₂, hc₂]
  simp [samplerHook, setCounter_events]

end Negative

/-- A fresh sampler over `debugIoCore` with a one-nanosecond tick, `first = 1` and
`thereafter = 0`, reporting to hook `0`. -/
def tickSampler : Core Unit := .sampler debugIoCore 0 1 1 0 (some 0)

/-- `tickSampler`'s `Check` of an `Info` entry two nanoseconds before the epoch, then of one a
nanosecond before it, from fresh counters. -/
def checksBeforeEpoch : Option (CheckedEntry Unit) × CheckState :=
  tickSampler.check emptyEncoder [] (infoEntryAt (-1)) none
    (tickSampler.check emptyEncoder [] (infoEntryAt (-2)) none CheckState.initial).2

theorem sampler_negative_time_drops_zero :
    checksBeforeEpoch.1 = none ∧
      checksBeforeEpoch.2.events =
        [.sampled 0 (infoEntryAt (-2)) .logSampled, .sampled 0 (infoEntryAt (-1)) .logDropped] := by
  have hdrop := @sampler_negative_time_drops Unit emptyEncoder debugLevel.toEnabler () ⟨0, none⟩ 0 1 0
    (infoEntryAt (-2)) (infoEntryAt (-1)) (by decide) (by decide) rfl rfl (by decide) (by decide)
    (by decide) CheckState.initial fun _ _ => rfl
  exact ⟨hdrop.2.2.1, hdrop.2.2.2⟩

/-! ## The counters refine the window law

From fresh counters, as long as no timestamp is before 1970 and nothing wraps, each bucket's
counter is its window: `resetAt` the window's start plus `tick`, `counter` its count.  One `Check`
of the sampler is then one step of the law (`lawCheck`), and `Mealy.Simulates.run` carries this
over every run. -/

/-- A bucket's counter is its window: zero before the bucket's first entry; after it, `resetAt`
is the window's start plus `tick` and `counter` the window's count. -/
def Counter.Tracks (tick : Int) : Counter → Option Window → Prop
  | ctr, none => ctr = ⟨0, 0⟩
  | ctr, some w => ctr.resetAt.toInt = w.start + tick ∧ ctr.counter.toNat = w.count

theorem incCheckReset_tracks {tick : Int64} {ctr : Counter} {w : Option Window} (h : ctr.Tracks tick.toInt w)
    {t : Time} (h0 : 0 ≤ t.UnixNano) (hov : t.UnixNano + tick.toInt < 2 ^ 63)
    (hcount : ∀ w' ∈ w, w'.count + 1 < 2 ^ 64) :
    (incCheckReset ctr t tick).1.toNat = (Window.step tick.toInt w t.UnixNano).count ∧
      (incCheckReset ctr t tick).2.Tracks tick.toInt (some (Window.step tick.toInt w t.UnixNano)) := by
  have htn : (Int64.ofInt t.UnixNano).toInt = t.UnixNano :=
    Int64.toInt_ofInt_of_le (by omega) t.UnixNano_lt
  have hreset : (Int64.ofInt t.UnixNano + tick).toInt = t.UnixNano + tick.toInt := by
    rw [Int64.toInt_add, htn]
    have := tick.le_toInt
    exact Int.bmod_eq_of_le (by omega) (by omega)
  cases w with
  | none =>
    subst h
    have hlt : ¬ (0 : Int64) > Int64.ofInt t.UnixNano := by
      rw [gt_iff_lt, Int64.lt_iff_toInt_lt, htn]; simp; omega
    simp [incCheckReset, hlt, Window.step, Counter.Tracks, hreset]
  | some w =>
    obtain ⟨hr, hc⟩ := h
    have hlt : ctr.resetAt > Int64.ofInt t.UnixNano ↔ ¬ w.start + tick.toInt ≤ t.UnixNano := by
      rw [gt_iff_lt, Int64.lt_iff_toInt_lt, htn, hr]; omega
    by_cases hle : w.start + tick.toInt ≤ t.UnixNano
    · -- the window is over: both reset, to a window starting at this entry
      have hnot : ¬ ctr.resetAt > Int64.ofInt t.UnixNano := fun h => hlt.mp h hle
      simp [incCheckReset, hnot, Window.step, hle, Counter.Tracks, hreset]
    · -- the window goes on: both count the entry
      have hin : ctr.resetAt > Int64.ofInt t.UnixNano := hlt.mpr hle
      have hw := hcount w rfl
      have hsucc : (ctr.counter + 1).toNat = w.count + 1 := by
        rw [UInt64.toNat_add, hc]; simp; omega
      simp [incCheckReset, hin, Window.step, hle, Counter.Tracks, hr, hsucc]

/-- The sampler's test for dropping the `n`-th entry of a window is the law's refusal. -/
theorem drops_eq_not_admits (n first thereafter : UInt64) :
    (n > first && (thereafter == 0 || (n - first) % thereafter != 0)) =
      !admits first.toNat thereafter.toNat n.toNat := by
  by_cases hgt : first < n
  · have hlt : first.toNat < n.toNat := UInt64.lt_iff_toNat_lt.mp hgt
    have hrem : ((n - first) % thereafter).toNat = (n.toNat - first.toNat) % thereafter.toNat := by
      rw [UInt64.toNat_mod, UInt64.toNat_sub_of_le _ _ (UInt64.le_of_lt hgt)]
    have hz : (thereafter == 0) = decide (thereafter.toNat = 0) := by
      rw [Bool.eq_iff_iff, beq_iff_eq, decide_eq_true_iff, ← UInt64.toNat_inj]; rfl
    have hrz : ((n - first) % thereafter != 0) =
        !decide ((n.toNat - first.toNat) % thereafter.toNat = 0) := by
      rw [bne, Bool.not_inj_iff, Bool.eq_iff_iff, beq_iff_eq, decide_eq_true_iff, ← UInt64.toNat_inj, hrem]; rfl
    rw [hz, hrz]
    simp only [gt_iff_lt, hgt, decide_true, Bool.true_and, admits]
    by_cases h0 : thereafter.toNat = 0
    · simp [h0, hlt]
    · have hpos : 0 < thereafter.toNat := Nat.pos_of_ne_zero h0
      simp only [h0, hpos, Nat.not_le.mpr hlt, decide_false, Bool.false_or, decide_true,
        Bool.true_and]
      rw [beq_eq_decide]
  · have hle : n.toNat ≤ first.toNat := by
      rw [UInt64.lt_iff_toNat_lt] at hgt; omega
    simp [gt_iff_lt, hgt, admits, hle]

/-- The bucket `counters.get(ent.Level, ent.Message)` points to: the level's row and the hash of
the message modulo `_countersPerLevel`. -/
def bucket (ent : Entry) : Nat × UInt32 :=
  ((ent.level - minLevel).toNatClampNeg, fnv32a ent.message % countersPerLevel)

/-- What the hook `hook` is told of a decision. -/
def hookEvents (hook : Option Nat) (ent : Entry) (dec : SamplingDecision) : List Event :=
  match hook with
  | some h => [.sampled h ent dec]
  | none => []

@[simp] theorem samplerHook_counts (hook : Option Nat) (ent : Entry) (dec : SamplingDecision)
    (st : CheckState) : (samplerHook hook ent dec st).counts = st.counts := by
  cases hook <;> rfl

@[simp] theorem samplerHook_events (hook : Option Nat) (ent : Entry) (dec : SamplingDecision)
    (st : CheckState) : (samplerHook hook ent dec st).events = st.events ++ hookEvents hook ent dec := by
  cases hook <;> simp [samplerHook, hookEvents]

/-- The event is the hook `hook` told of a decision. -/
def Event.sampledBy (hook : Option Nat) : Event → Bool
  | .sampled h _ _ => hook == some h
  | _ => false

theorem hookEvents_sampledBy (hook : Option Nat) (ent : Entry) (dec : SamplingDecision) :
    (hookEvents hook ent dec).filter (Event.sampledBy hook) = hookEvents hook ent dec := by
  cases hook <;> simp [hookEvents, Event.sampledBy]

/-- Another hook tells `hook` nothing. -/
theorem hookEvents_sampledBy_other {hook' hook : Option Nat} (hne : ∀ h ∈ hook, hook' ≠ some h)
    (ent : Entry) (dec : SamplingDecision) :
    (hookEvents hook' ent dec).filter (Event.sampledBy hook) = [] := by
  cases hook' with
  | none => rfl
  | some h' =>
    cases hook with
    | none => rfl
    | some h =>
      have hne' : h ≠ h' := fun e => hne h rfl (by rw [e])
      simp [hookEvents, Event.sampledBy, hne']

theorem setCounter_counts_other (st : CheckState) {s' s : Nat} (hs : s' ≠ s) (i : Nat) (j : UInt32)
    (ctr : Counter) : (st.setCounter s' i j ctr).counts s = st.counts s := by
  simp [CheckState.setCounter, Function.update_of_ne hs.symm]

section Apart

variable {E : Type}

mutual

/-- The samplers inside a core: the `*counters` each one shares, and the hook it calls. -/
def Core.samplers : Core E → List (Nat × Option Nat)
  | .nop => []
  | .io _ _ _ => []
  | .multi cs => samplersAll cs
  | .hooked c _ => c.samplers
  | .levelFilter c _ => c.samplers
  | .sampler c counts _ _ _ hook => (counts, hook) :: c.samplers
  | .lazyWith c _ => c.samplers

/-- The samplers inside a `multiCore`'s members. -/
def samplersAll : List (Core E) → List (Nat × Option Nat)
  | [] => []
  | c :: cs => c.samplers ++ samplersAll cs

end

variable (ops : Encoder E) (s : Nat) (hook : Option Nat)

mutual

/-- **`Check` leaves alone the counters and the hook of a sampler it does not contain**: no
sampler inside the core shares the counters `s` or calls the hook `hook`. -/
theorem Core.check_apart : ∀ (c : Core E) (fss : List (List Field)) (ent : Entry)
    (ce : Option (CheckedEntry E)) (st : CheckState),
    (∀ p ∈ c.samplers, p.1 ≠ s ∧ ∀ h ∈ hook, p.2 ≠ some h) →
      (c.check ops fss ent ce st).2.counts s = st.counts s ∧
        (c.check ops fss ent ce st).2.events.filter (Event.sampledBy hook) =
          st.events.filter (Event.sampledBy hook)
  | .nop, _, _, _, _, _ => ⟨rfl, rfl⟩
  | .io enab enc out, fss, ent, ce, st, _ => by
    simp only [Core.check]
    split <;> exact ⟨rfl, rfl⟩
  | .multi cs, fss, ent, ce, st, hap => checkAll_apart cs fss ent ce st hap
  | .hooked c funcs, fss, ent, ce, st, hap => by
    obtain ⟨hcs, hev⟩ := Core.check_apart c fss ent ce st hap
    simp only [Core.check]
    split
    · next st' heq => rw [heq] at hcs hev; exact ⟨hcs, hev⟩
    · next st' heq => rw [heq] at hcs hev; exact ⟨hcs, hev⟩
  | .levelFilter c level, fss, ent, ce, st, hap => by
    simp only [Core.check]
    split
    · exact ⟨rfl, rfl⟩
    · exact Core.check_apart c fss ent ce st hap
  | .sampler c counts tick first thereafter hook', fss, ent, ce, st, hap => by
    -- this sampler's own counters and hook are not those of the statement
    obtain ⟨hs, hh⟩ := hap _ List.mem_cons_self
    have hin : ∀ p ∈ c.samplers, p.1 ≠ s ∧ ∀ h ∈ hook, p.2 ≠ some h :=
      fun p hp => hap p (List.mem_cons_of_mem _ hp)
    have hother := hookEvents_sampledBy_other hh ent
    simp only [Core.check]
    split
    · exact ⟨rfl, rfl⟩
    split
    · split
      · refine ⟨?_, ?_⟩
        · rw [samplerHook_counts, setCounter_counts_other _ hs]
        · rw [samplerHook_events, setCounter_events, List.filter_append, hother, List.append_nil]
      · obtain ⟨hcs, hev⟩ := Core.check_apart c fss ent ce _ hin
        refine ⟨?_, ?_⟩
        · rw [hcs, samplerHook_counts, setCounter_counts_other _ hs]
        · rw [hev, samplerHook_events, setCounter_events, List.filter_append, hother, List.append_nil]
    · exact Core.check_apart c fss ent ce st hin
  | .lazyWith c fs, fss, ent, ce, st, hap => Core.check_apart c (fs :: fss) ent ce st hap

theorem checkAll_apart : ∀ (cs : List (Core E)) (fss : List (List Field)) (ent : Entry)
    (ce : Option (CheckedEntry E)) (st : CheckState),
    (∀ p ∈ samplersAll cs, p.1 ≠ s ∧ ∀ h ∈ hook, p.2 ≠ some h) →
      (checkAll ops cs fss ent ce st).2.counts s = st.counts s ∧
        (checkAll ops cs fss ent ce st).2.events.filter (Event.sampledBy hook) =
          st.events.filter (Event.sampledBy hook)
  | [], _, _, _, _, _ => ⟨rfl, rfl⟩
  | c :: cs, fss, ent, ce, st, hap => by
    have hc := Core.check_apart c fss ent ce st
      fun p hp => hap p (List.mem_append_left _ hp)
    have hcs := checkAll_apart cs fss ent (c.check ops fss ent ce st).1 (c.check ops fss ent ce st).2
      fun p hp => hap p (List.mem_append_right _ hp)
    simp only [checkAll]
    exact ⟨hcs.1.trans hc.1, hcs.2.trans hc.2⟩

end

end Apart

section Law

variable {E : Type} (ops : Encoder E)

/-- A `Check` call on `c` as a machine step: the input is the pending `With` fields, the entry and
the incoming `*CheckedEntry`, the output what `Check` returns. -/
def checkStep (c : Core E) (st : CheckState) (x : List (List Field) × Entry × Option (CheckedEntry E)) :
    CheckState × Option (CheckedEntry E) :=
  ((c.check ops x.1 x.2.1 x.2.2 st).2, (c.check ops x.1 x.2.1 x.2.2 st).1)

/-- The window law on one `Check` of a sampler whose inner core enables `enabled`: the law's
windows, one per bucket, and the events of the hook `hook`.  An entry the inner core does not
enable, or of a level outside `[DebugLevel, FatalLevel]`, is not counted; any other goes into its
bucket's window and is sampled iff `admits`.  The output is the incoming `*CheckedEntry` and the
decision, if one was made. -/
def lawCheck (enabled : Level → Bool) (tick : Int) (first thereafter : Nat) (hook : Option Nat)
    (law : (Nat → UInt32 → Option Window) × List Event)
    (x : List (List Field) × Entry × Option (CheckedEntry E)) :
    ((Nat → UInt32 → Option Window) × List Event) × (Option (CheckedEntry E) × Option SamplingDecision) :=
  if enabled x.2.1.level = true ∧ minLevel ≤ x.2.1.level ∧ x.2.1.level ≤ maxLevel then
    let b := bucket x.2.1
    let w := Window.step tick (law.1 b.1 b.2) x.2.1.time.UnixNano
    let dec := if admits first thereafter w.count then SamplingDecision.logSampled else .logDropped
    ((Function.update law.1 b.1 (Function.update (law.1 b.1) b.2 (some w)), law.2 ++ hookEvents hook x.2.1 dec),
      (x.2.2, some dec))
  else (law, (x.2.2, none))

/-- The counters of the store `s` track the law's windows, and what the hook `hook` has been
told is the law's. -/
def LawTracks (s : Nat) (tick : Int) (hook : Option Nat) (st : CheckState)
    (law : (Nat → UInt32 → Option Window) × List Event) : Prop :=
  (∀ i j, (st.counts s i j).Tracks tick (law.1 i j)) ∧ st.events.filter (Event.sampledBy hook) = law.2

/-- An entry the law can take without the code's arithmetic wrapping: a timestamp at or after
1970 whose reset time fits an `int64`, and a window count below `2^64 - 1`. -/
def LawFits (tick : Int) (law : (Nat → UInt32 → Option Window) × List Event)
    (x : List (List Field) × Entry × Option (CheckedEntry E)) : Prop :=
  0 ≤ x.2.1.time.UnixNano ∧ x.2.1.time.UnixNano + tick < 2 ^ 63 ∧
    ∀ w ∈ law.1 (bucket x.2.1).1 (bucket x.2.1).2, w.count + 1 < 2 ^ 64

theorem LawTracks.update {s : Nat} {tick : Int} {st : CheckState}
    {law : (Nat → UInt32 → Option Window) × List Event} (h : ∀ i j, (st.counts s i j).Tracks tick (law.1 i j))
    {ctr : Counter} {w : Window} (hw : ctr.Tracks tick (some w)) (i : Nat) (j : UInt32) (i' : Nat) (j' : UInt32) :
    ((st.setCounter s i j ctr).counts s i' j').Tracks tick
      (Function.update law.1 i (Function.update (law.1 i) j (some w)) i' j') := by
  by_cases hi : i' = i
  · subst hi
    by_cases hj : j' = j
    · subst hj
      simpa [CheckState.setCounter] using hw
    · simpa [CheckState.setCounter, Function.update_of_ne hj] using h i' j'
  · simpa [CheckState.setCounter, Function.update_of_ne hi] using h i' j'

/-- **One `Check` of the sampler is one step of the window law**, for an inner core none of whose
samplers shares this one's counters or hook: the counters keep tracking the windows, the hook is
sent the law's decision, and an entry the law drops comes back as the incoming `*CheckedEntry`. -/
theorem sampler_simulates_law (c : Core E) (s : Nat) (tick : Int64) (first thereafter : UInt64)
    (hook : Option Nat) (hown : ∀ p ∈ c.samplers, p.1 ≠ s ∧ ∀ h ∈ hook, p.2 ≠ some h) :
    Mealy.Simulates (checkStep ops (.sampler c s tick first thereafter hook))
      (lawCheck c.enabled tick.toInt first.toNat thereafter.toNat hook) (LawTracks s tick.toInt hook)
      (fun r o => o.2 = some .logDropped → r = o.1) (LawFits tick.toInt) := by
  rintro st law ⟨fss, ent, ce⟩ ⟨htr, hev⟩ ⟨h0, hov, hcount⟩
  by_cases hen : c.enabled ent.level = true
  swap
  · -- the inner core does not enable the level: nothing is counted or reported
    have hchk : (Core.sampler c s tick first thereafter hook).check ops fss ent ce st = (ce, st) := by
      simp [Core.check, hen]
    simp [checkStep, lawCheck, hchk, hen, LawTracks, htr, hev]
  by_cases hr : minLevel ≤ ent.level ∧ ent.level ≤ maxLevel
  swap
  · -- a level outside the counters' range is passed on uncounted
    have hchk : (Core.sampler c s tick first thereafter hook).check ops fss ent ce st =
        c.check ops fss ent ce st := by
      simp [Core.check, hen, hr]
    obtain ⟨hcs, hce⟩ := Core.check_apart ops s hook c fss ent ce st hown
    refine ⟨?_, by simp [lawCheck, hr]⟩
    simp only [checkStep, hchk, lawCheck, hen, hr, and_false, if_false]
    exact ⟨fun i j => hcs ▸ htr i j, hce.trans hev⟩
  -- a counted entry: the counter steps as the window does
  obtain ⟨hn, htr'⟩ := incCheckReset_tracks (htr (bucket ent).1 (bucket ent).2) h0 hov hcount
  rcases hinc : incCheckReset (st.counts s (bucket ent).1 (bucket ent).2) ent.time tick with ⟨n, ctr⟩
  rw [hinc] at hn htr'
  have hdrop := drops_eq_not_admits n first thereafter
  rw [hn] at hdrop
  have hchk : (Core.sampler c s tick first thereafter hook).check ops fss ent ce st =
      if !admits first.toNat thereafter.toNat
          (Window.step tick.toInt (law.1 (bucket ent).1 (bucket ent).2) ent.time.UnixNano).count then
        (ce, samplerHook hook ent .logDropped (st.setCounter s (bucket ent).1 (bucket ent).2 ctr))
      else c.check ops fss ent ce
        (samplerHook hook ent .logSampled (st.setCounter s (bucket ent).1 (bucket ent).2 ctr)) := by
    simp only [bucket] at hinc
    simp only [Core.check, hen, hr, hinc, Bool.not_true, Bool.false_eq_true, if_false, and_self,
      if_true, ← hdrop]
    rfl
  have hupd := LawTracks.update htr htr' (bucket ent).1 (bucket ent).2
  by_cases hadm : admits first.toNat thereafter.toNat
      (Window.step tick.toInt (law.1 (bucket ent).1 (bucket ent).2) ent.time.UnixNano).count = true
  · -- sampled: the inner core checks the entry after the counter and the hook
    obtain ⟨hcs, hce⟩ := Core.check_apart ops s hook c fss ent ce
      (samplerHook hook ent .logSampled (st.setCounter s (bucket ent).1 (bucket ent).2 ctr)) hown
    simp only [checkStep, hchk, hadm, Bool.not_true, Bool.false_eq_true, if_false, lawCheck, hen, hr,
      and_self, if_true]
    refine ⟨⟨fun i j => ?_, ?_⟩, by simp⟩
    · rw [hcs, samplerHook_counts]
      exact hupd i j
    · rw [hce, samplerHook_events, setCounter_events, List.filter_append, hev, hookEvents_sampledBy]
  · -- dropped: `Check` returns the incoming entry
    simp only [Bool.not_eq_true] at hadm
    simp only [checkStep, hchk, hadm, Bool.not_false, if_true, lawCheck, hen, hr, and_self,
      Bool.false_eq_true, if_false]
    refine ⟨⟨fun i j => ?_, ?_⟩, fun _ => trivial⟩
    · rw [samplerHook_counts]
      exact hupd i j
    · rw [samplerHook_events, setCounter_events, List.filter_append, hev, hookEvents_sampledBy]

/-- A window's count grows by at most one per entry. -/
theorem Window.step_count_le {tick : Int} {w : Option Window} {k : Nat} (hw : ∀ w' ∈ w, w'.count ≤ k)
    (tn : Int) : (Window.step tick w tn).count ≤ k + 1 := by
  cases w with
  | none => simp [Window.step]
  | some w =>
    have := hw w rfl
    simp only [Window.step]
    split <;> simp only <;> omega

/-- After `k` entries every window of the law counts at most `k`. -/
theorem lawCheck_counts_le {enabled : Level → Bool} {tick : Int} {first thereafter : Nat}
    {hook : Option Nat} {k : Nat} {law : (Nat → UInt32 → Option Window) × List Event}
    (hk : ∀ i j w, law.1 i j = some w → w.count ≤ k) (x : List (List Field) × Entry × Option (CheckedEntry E)) :
    ∀ i j w, (lawCheck enabled tick first thereafter hook law x).1.1 i j = some w → w.count ≤ k + 1 := by
  intro i j w hw
  simp only [lawCheck] at hw
  split at hw
  · -- the entry's bucket gets the stepped window, the others keep theirs
    by_cases hb : i = (bucket x.2.1).1 ∧ j = (bucket x.2.1).2
    · obtain ⟨rfl, rfl⟩ := hb
      simp only [Function.update_self, Option.some.injEq] at hw
      subst hw
      exact Window.step_count_le (fun w' hw' => hk _ _ w' hw') _
    · have hw' : law.1 i j = some w := by
        by_cases hi : i = (bucket x.2.1).1
        · subst hi
          have hj : j ≠ (bucket x.2.1).2 := fun hj => hb ⟨rfl, hj⟩
          simpa [Function.update_of_ne hj] using hw
        · simpa [Function.update_of_ne hi] using hw
      exact Nat.le_succ_of_le (hk i j w hw')
  · exact Nat.le_succ_of_le (hk i j w hw)

/-- **The sampler follows the window law over every run.**  Entries checked one after another
through a sampler, or through the samplers `With` derives from it (they share its counters), from
fresh counters: as long as every timestamp is at or after 1970 with its reset time in `int64`
range and the run is shorter than `2^64`, the sampler's hook is sent exactly the law's decisions,
in order, and every entry the law drops comes back from `Check` as the incoming `*CheckedEntry`.
The core it wraps may hold samplers with hooks of their own; none shares its counters or hook. -/
theorem sampler_follows_window_law (c : Core E) (s : Nat) (tick : Int64) (first thereafter : UInt64)
    (hook : Option Nat) (hown : ∀ p ∈ c.samplers, p.1 ≠ s ∧ ∀ h ∈ hook, p.2 ≠ some h)
    (st : CheckState) (hfresh : ∀ i j, st.counts s i j = ⟨0, 0⟩)
    (xs : List (List (List Field) × Entry × Option (CheckedEntry E)))
    (htime : ∀ x ∈ xs, 0 ≤ x.2.1.time.UnixNano ∧ x.2.1.time.UnixNano + tick.toInt < 2 ^ 63)
    (hlen : xs.length < 2 ^ 64) :
    (Mealy.run (checkStep ops (.sampler c s tick first thereafter hook)) st xs).1.events.filter
          (Event.sampledBy hook) =
        (Mealy.run (lawCheck c.enabled tick.toInt first.toNat thereafter.toNat hook)
          (fun _ _ => none, st.events.filter (Event.sampledBy hook)) xs).1.2 ∧
      List.Forall₂ (fun r o => o.2 = some SamplingDecision.logDropped → r = o.1)
        (Mealy.run (checkStep ops (.sampler c s tick first thereafter hook)) st xs).2
        (Mealy.run (lawCheck c.enabled tick.toInt first.toNat thereafter.toNat hook)
          (fun _ _ => none, st.events.filter (Event.sampledBy hook)) xs).2 := by
  have hR : LawTracks s tick.toInt hook st (fun _ _ => none, st.events.filter (Event.sampledBy hook)) :=
    ⟨fun i j => hfresh i j, rfl⟩
  -- the guard: counts stay at most the number of entries so far, below `2^64 - 1`
  have hg : Mealy.Guarded (lawCheck c.enabled tick.toInt first.toNat thereafter.toNat hook)
      (LawFits tick.toInt) (fun _ _ => none, st.events.filter (Event.sampledBy hook)) xs := by
    refine Mealy.guarded_of_invariant (fun k law => ∀ i j w, law.1 i j = some w → w.count ≤ k)
      (fun x => 0 ≤ x.2.1.time.UnixNano ∧ x.2.1.time.UnixNano + tick.toInt < 2 ^ 63) (2 ^ 64 - 1)
      (fun k law x hk _ => lawCheck_counts_le hk x) ?_ (k := 0) (by simp) (by omega) htime
    intro k law x hk hlt hx
    exact ⟨hx.1, hx.2, fun w hw => by have := hk _ _ w hw; omega⟩
  obtain ⟨⟨-, hev⟩, hout⟩ := (sampler_simulates_law ops c s tick first thereafter hook hown).run hR hg
  exact ⟨hev, hout⟩

end Law

/-- Three `Info` entries a nanosecond apart from the epoch on, with no `With` fields and no
incoming entry. -/
def threeInfoChecks : List (List (List Field) × Entry × Option (CheckedEntry Unit)) :=
  [([], infoEntryAt 0, none), ([], infoEntryAt 1, none), ([], infoEntryAt 2, none)]

/-- A fresh sampler over `debugIoCore` with a ten-nanosecond tick, `first = 1` and
`thereafter = 2`, reporting to hook `0`; and the window law for it. -/
def windowSampler : Core Unit := .sampler debugIoCore 0 10 1 2 (some 0)

def windowLaw : ((Nat → UInt32 → Option Window) × List Event) →
    List (List Field) × Entry × Option (CheckedEntry Unit) →
    ((Nat → UInt32 → Option Window) × List Event) × (Option (CheckedEntry Unit) × Option SamplingDecision) :=
  lawCheck debugIoCore.enabled (10 : Int64).toInt (1 : UInt64).toNat (2 : UInt64).toNat (some 0)

theorem sampler_follows_window_law_three :
    (Mealy.run (checkStep emptyEncoder windowSampler) CheckState.initial threeInfoChecks).1.events.filter
        (Event.sampledBy (some 0)) =
      (Mealy.run windowLaw (fun _ _ => none, []) threeInfoChecks).1.2 ∧
    List.Forall₂ (fun r o => o.2 = some SamplingDecision.logDropped → r = o.1)
      (Mealy.run (checkStep emptyEncoder windowSampler) CheckState.initial threeInfoChecks).2
      (Mealy.run windowLaw (fun _ _ => none, []) threeInfoChecks).2 :=
  sampler_follows_window_law emptyEncoder debugIoCore 0 10 1 2 (some 0)
    (fun p hp => by simp [debugIoCore, Core.samplers] at hp) CheckState.initial (fun _ _ => rfl)
    threeInfoChecks (by decide) (by decide)

end Zap.Zapcore
