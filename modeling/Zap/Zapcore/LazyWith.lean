import Zap.Zapcore.Core

/-!
# Zap.Zapcore.LazyWith — `NewLazyWith(c, fs)` behaves as `c.With(fs)`

A `lazyWithCore` embeds `c` and runs `c.With(fs)` under a `sync.Once` on its first `With` or
`Check`; its other methods go to whichever core it embeds at the time.  A run addresses the lazy
core as handle `0` and the cores its `With` calls derive as handles `1, 2, ...`; the same run on
`c.With(fs)` addresses that core as handle `0`.

The cores are those of `Zap.Zapcore.Core`.  Every one of them keeps `Enabled` and `Sync` through
`With` (`Core.enabled_withs`, `Core.sync_withs`), which is what the lazy core needs before its
`Once` has run.

* `runCalls`: a run of `Enabled`, `Sync`, `With`, and `Check` followed by `Write`, with what each
  call returned or wrote.
* `lazyWith_observes_with`: the lazy run and the eager run give the same results and leave the
  same state, and `c.With(fs)` runs at most once, exactly once iff a `With` or `Check` reaches the
  lazy core.
-/

namespace Zap.Zapcore

open Go

variable {E : Type}

/-! ## `Sync`, and what `With` keeps -/

mutual

/-- `c.Sync()`: the `out.Sync()` calls it makes, in order. -/
def Core.sync : Core E → List Event
  | .nop => []
  | .io _ _ out => [.sync out.id]
  | .multi cs => syncAll cs
  | .hooked c _ => c.sync
  | .levelFilter c _ => c.sync
  | .sampler c _ _ _ _ _ => c.sync
  | .lazyWith c _ => c.sync

/-- The loop of `multiCore.Sync`. -/
def syncAll : List (Core E) → List Event
  | [] => []
  | c :: cs => c.sync ++ syncAll cs

end

section With

variable (ops : Encoder E)

mutual

/-- **`With` keeps `Enabled`**, for every core of the repository. -/
theorem Core.enabled_withs : ∀ (c : Core E) (fss : List (List Field)) (lvl : Level),
    (c.withs ops fss).enabled lvl = c.enabled lvl
  | .nop, _, _ => rfl
  | .io _ _ _, _, _ => rfl
  | .multi cs, fss, lvl => by
    simp only [Core.withs, Core.enabled]
    exact anyEnabled_withsAll cs fss lvl
  | .hooked c _, fss, lvl => by simp only [Core.withs, Core.enabled]; exact Core.enabled_withs c fss lvl
  | .levelFilter _ _, _, _ => rfl
  | .sampler c _ _ _ _ _, fss, lvl => by
    simp only [Core.withs, Core.enabled]; exact Core.enabled_withs c fss lvl
  | .lazyWith c fs, fss, lvl => by
    simp only [Core.withs, Core.enabled]; exact Core.enabled_withs c (fs :: fss) lvl

theorem anyEnabled_withsAll : ∀ (cs : List (Core E)) (fss : List (List Field)) (lvl : Level),
    anyEnabled (withsAll ops cs fss) lvl = anyEnabled cs lvl
  | [], _, _ => rfl
  | c :: cs, fss, lvl => by
    simp only [withsAll, anyEnabled]
    rw [Core.enabled_withs c fss lvl, anyEnabled_withsAll cs fss lvl]

end

mutual

/-- **`With` keeps `Sync`**: the derived core syncs the same outputs. -/
theorem Core.sync_withs : ∀ (c : Core E) (fss : List (List Field)), (c.withs ops fss).sync = c.sync
  | .nop, _ => rfl
  | .io _ _ _, _ => rfl
  | .multi cs, fss => by
    simp only [Core.withs, Core.sync]
    exact syncAll_withsAll cs fss
  | .hooked c _, fss => by simp only [Core.withs, Core.sync]; exact Core.sync_withs c fss
  | .levelFilter c _, fss => by simp only [Core.withs, Core.sync]; exact Core.sync_withs c fss
  | .sampler c _ _ _ _ _, fss => by simp only [Core.withs, Core.sync]; exact Core.sync_withs c fss
  | .lazyWith c fs, fss => by simp only [Core.withs, Core.sync]; exact Core.sync_withs c (fs :: fss)

theorem syncAll_withsAll : ∀ (cs : List (Core E)) (fss : List (List Field)),
    syncAll (withsAll ops cs fss) = syncAll cs
  | [], _ => rfl
  | c :: cs, fss => by
    simp only [withsAll, syncAll]
    rw [Core.sync_withs c fss, syncAll_withsAll cs fss]

end

end With

/-! ## The lazy core -/

section Lazy

variable (ops : Encoder E) (merr : Multierr (List UInt8))

/-- `lazyWithCore`: the embedded `d.Core`, whether `d.Once` has run, and `d.fields`. -/
structure LazyWithCore (E : Type) where
  core : Core E
  done : Bool
  fields : List Field

/-- `NewLazyWith(core, fields)`, as the `lazyWithCore` it allocates. -/
def LazyWithCore.new (core : Core E) (fields : List Field) : LazyWithCore E := ⟨core, false, fields⟩

/-- `d.initOnce()`: the core after, and how many times `d.Core.With(d.fields)` ran. -/
def LazyWithCore.initOnce (d : LazyWithCore E) : LazyWithCore E × Nat :=
  if d.done then (d, 0) else ({ d with core := d.core.with ops d.fields, done := true }, 1)

/-- The core handle `0` of a run addresses: a lazy core, or a plain one. -/
inductive Root (E : Type) where
  | lazy (d : LazyWithCore E)
  | plain (c : Core E)

/-- The core that answers a call on the root, once `initOnce` has run for `With` and `Check`;
and the count of `With(fields)` evaluations it made. -/
def Root.init : Root E → Root E × Nat
  | .lazy d => ((d.initOnce ops).1 |> .lazy, (d.initOnce ops).2)
  | .plain c => (.plain c, 0)

/-- The core the root's calls go to: `d.Core` for a lazy core. -/
def Root.core : Root E → Core E
  | .lazy d => d.core
  | .plain c => c

/-- A call of a run, on handle `h`. -/
inductive CoreCall where
  | enabled (h : Nat) (lvl : Level)
  | sync (h : Nat)
  | withFields (h : Nat) (fields : List Field)
  | checkWrite (h : Nat) (ent : Entry) (fields : List Field)

/-- What a call returned or wrote: `Enabled`'s answer; the `Sync` calls made; a derived core;
`Check`'s entry and what `Write` on it wrote; nothing for a handle that names no core. -/
inductive Obs (E : Type) where
  | enabled (b : Bool)
  | synced (evs : List Event)
  | derived
  | checked (ce : Option (CheckedEntry E)) (written : List Event)
  | noCore

/-- The state of a run: the root, the derived cores, the `Check` state, how many times the root
evaluated its `With(fields)`, and the results so far. -/
structure RunState (E : Type) where
  root : Root E
  derived : List (Core E)
  st : CheckState
  evals : Nat
  obs : List (Obs E)

/-- One call.  `With` and `Check` on the root first run its `initOnce`; `Enabled` and `Sync` go to
the core it embeds. -/
def RunState.step (s : RunState E) : CoreCall → RunState E
  | .enabled 0 lvl => { s with obs := s.obs ++ [.enabled (s.root.core.enabled lvl)] }
  | .sync 0 => { s with obs := s.obs ++ [.synced s.root.core.sync] }
  | .withFields 0 fields =>
    let r := s.root.init ops
    { s with
      root := r.1
      derived := s.derived ++ [Core.with ops r.1.core fields]
      evals := s.evals + r.2
      obs := s.obs ++ [.derived] }
  | .checkWrite 0 ent fields =>
    let r := s.root.init ops
    let c := r.1.core.check ops [] ent none s.st
    { s with
      root := r.1
      st := c.2
      evals := s.evals + r.2
      obs := s.obs ++ [.checked c.1 (CheckedEntry.write ops merr c.1 fields)] }
  | .enabled (h + 1) lvl =>
    match s.derived[h]? with
    | some c => { s with obs := s.obs ++ [.enabled (c.enabled lvl)] }
    | none => { s with obs := s.obs ++ [.noCore] }
  | .sync (h + 1) =>
    match s.derived[h]? with
    | some c => { s with obs := s.obs ++ [.synced c.sync] }
    | none => { s with obs := s.obs ++ [.noCore] }
  | .withFields (h + 1) fields =>
    match s.derived[h]? with
    | some c => { s with derived := s.derived ++ [Core.with ops c fields], obs := s.obs ++ [.derived] }
    | none => { s with obs := s.obs ++ [.noCore] }
  | .checkWrite (h + 1) ent fields =>
    match s.derived[h]? with
    | some c =>
      let r := c.check ops [] ent none s.st
      { s with st := r.2, obs := s.obs ++ [.checked r.1 (CheckedEntry.write ops merr r.1 fields)] }
    | none => { s with obs := s.obs ++ [.noCore] }

/-- A run of calls from a root and a `Check` state. -/
def runCalls (root : Root E) (st : CheckState) (calls : List CoreCall) : RunState E :=
  calls.foldl (RunState.step ops merr) ⟨root, [], st, 0, []⟩

/-- A `With` or a `Check` on the root. -/
def CoreCall.initsRoot : CoreCall → Bool
  | .withFields 0 _ => true
  | .checkWrite 0 _ _ => true
  | _ => false

/-! ## What a step does -/

section StepLemmas

variable {ops} {merr}

/-- A call that does not reach the root's `initOnce` leaves the root and the count alone. -/
theorem RunState.step_frame (s : RunState E) {call : CoreCall} (hc : call.initsRoot = false) :
    (s.step ops merr call).root = s.root ∧ (s.step ops merr call).evals = s.evals := by
  cases call with
  | enabled n lvl =>
    cases n with
    | zero => simp [RunState.step]
    | succ h => simp only [RunState.step]; split <;> simp
  | sync n =>
    cases n with
    | zero => simp [RunState.step]
    | succ h => simp only [RunState.step]; split <;> simp
  | withFields n fields =>
    cases n with
    | zero => simp [CoreCall.initsRoot] at hc
    | succ h => simp only [RunState.step]; split <;> simp
  | checkWrite n ent fields =>
    cases n with
    | zero => simp [CoreCall.initsRoot] at hc
    | succ h => simp only [RunState.step]; split <;> simp

/-- A `With` or a `Check` on the root runs its `initOnce`. -/
theorem RunState.step_inits (s : RunState E) {call : CoreCall} (hc : call.initsRoot = true) :
    (s.step ops merr call).root = (s.root.init ops).1 ∧ (s.step ops merr call).evals = s.evals + (s.root.init ops).2 := by
  cases call with
  | enabled n lvl => simp [CoreCall.initsRoot] at hc
  | sync n => simp [CoreCall.initsRoot] at hc
  | withFields n fields =>
    cases n with
    | zero => simp [RunState.step]
    | succ h => simp [CoreCall.initsRoot] at hc
  | checkWrite n ent fields =>
    cases n with
    | zero => simp [RunState.step]
    | succ h => simp [CoreCall.initsRoot] at hc

/-- **Two runs that agree so far, and whose roots answer alike, agree after one more call**: the
derived cores, the `Check` state and the results depend on the root only through `Enabled` and
`Sync` of the core it embeds, and the core it embeds after `initOnce`. -/
theorem RunState.step_view {sL sE : RunState E} (hder : sL.derived = sE.derived) (hst : sL.st = sE.st)
    (hobs : sL.obs = sE.obs) (hen : ∀ lvl, sL.root.core.enabled lvl = sE.root.core.enabled lvl)
    (hsync : sL.root.core.sync = sE.root.core.sync)
    (hinit : (sL.root.init ops).1.core = (sE.root.init ops).1.core) (call : CoreCall) :
    (sL.step ops merr call).derived = (sE.step ops merr call).derived ∧ (sL.step ops merr call).st = (sE.step ops merr call).st ∧
      (sL.step ops merr call).obs = (sE.step ops merr call).obs := by
  cases call with
  | enabled n lvl =>
    cases n with
    | zero => simp [RunState.step, hder, hst, hobs, hen lvl]
    | succ h => simp only [RunState.step, hder]; split <;> simp [hst, hobs]
  | sync n =>
    cases n with
    | zero => simp [RunState.step, hder, hst, hobs, hsync]
    | succ h => simp only [RunState.step, hder]; split <;> simp [hst, hobs]
  | withFields n fields =>
    cases n with
    | zero => simp [RunState.step, hder, hst, hobs, hinit]
    | succ h => simp only [RunState.step, hder]; split <;> simp [hst, hobs]
  | checkWrite n ent fields =>
    cases n with
    | zero => simp [RunState.step, hder, hst, hobs, hinit]
    | succ h => simp only [RunState.step, hder, hst]; split <;> simp [hobs]

end StepLemmas

/-! ## The lazy run against the eager run -/

section Equiv

variable (c : Core E) (fs : List Field)

/-- How the lazy run stands against the eager one: the same derived cores, `Check` state and
results; the eager root is `c.With(fs)`; the lazy root is still `c`, with nothing evaluated, or,
once `inited`, embeds `c.With(fs)`, evaluated once. -/
def LazyRel (inited : Bool) (sL sE : RunState E) : Prop :=
  sL.derived = sE.derived ∧ sL.st = sE.st ∧ sL.obs = sE.obs ∧
  sE.root = .plain (Core.with ops c fs) ∧ sE.evals = 0 ∧
  (if inited then ∃ d : LazyWithCore E, sL.root = .lazy d ∧ d.done = true ∧ d.core = Core.with ops c fs ∧ sL.evals = 1
   else sL.root = .lazy (LazyWithCore.new c fs) ∧ sL.evals = 0)

/-- Before and after its `Once`, the lazy root answers `Enabled` and `Sync` as `c.With(fs)`. -/
theorem LazyRel.root_core {b : Bool} {sL sE : RunState E} (h : LazyRel ops c fs b sL sE) :
    (∀ lvl, sL.root.core.enabled lvl = sE.root.core.enabled lvl) ∧ sL.root.core.sync = sE.root.core.sync := by
  obtain ⟨-, -, -, hE, -, hL⟩ := h
  rw [hE]
  cases b
  · -- still `c`: `With` keeps `Enabled` and `Sync`
    obtain ⟨hr, -⟩ := hL
    rw [hr]
    exact ⟨fun lvl => (Core.enabled_withs ops c [fs] lvl).symm, (Core.sync_withs ops c [fs]).symm⟩
  · obtain ⟨d, hr, -, hd, -⟩ := hL
    rw [hr]
    simp [Root.core, hd]

/-- After `initOnce`, the lazy root embeds `c.With(fs)`, and has evaluated it once in all. -/
theorem LazyRel.root_init {b : Bool} {sL sE : RunState E} (h : LazyRel ops c fs b sL sE) :
    ∃ d : LazyWithCore E, (sL.root.init ops).1 = .lazy d ∧ d.done = true ∧ d.core = Core.with ops c fs ∧
      sL.evals + (sL.root.init ops).2 = 1 := by
  obtain ⟨-, -, -, -, -, hL⟩ := h
  cases b
  · obtain ⟨hr, he⟩ := hL
    refine ⟨⟨Core.with ops c fs, true, fs⟩, ?_, rfl, rfl, ?_⟩ <;>
      simp [hr, he, Root.init, LazyWithCore.initOnce, LazyWithCore.new]
  · obtain ⟨d, hr, hd, hc, he⟩ := hL
    refine ⟨d, ?_, hd, hc, ?_⟩ <;> simp [hr, he, hd, Root.init, LazyWithCore.initOnce]

/-- **One call keeps the relation**, the root counting as initialized once a `With` or a `Check`
has reached it. -/
theorem LazyRel.step {b : Bool} {sL sE : RunState E} (h : LazyRel ops c fs b sL sE) (call : CoreCall) :
    LazyRel ops c fs (b || call.initsRoot) (sL.step ops merr call) (sE.step ops merr call) := by
  obtain ⟨d, hinitL, hdone, hd, hev⟩ := h.root_init
  have hcore := h.root_core
  obtain ⟨hder, hst, hobs, hE, hEv, hL⟩ := h
  -- the eager root is plain: its `initOnce` does nothing
  have hinitE : sE.root.init ops = (.plain (Core.with ops c fs), 0) := by rw [hE]; rfl
  have hview := @RunState.step_view _ ops merr sL sE hder hst hobs hcore.1 hcore.2
    (by rw [hinitL, hinitE]; exact hd) call
  cases hc : call.initsRoot
  · -- the root is left alone on both sides
    obtain ⟨hrL, heL⟩ := @RunState.step_frame _ ops merr sL _ hc
    obtain ⟨hrE, heE⟩ := @RunState.step_frame _ ops merr sE _ hc
    refine ⟨hview.1, hview.2.1, hview.2.2, by rw [hrE, hE], by rw [heE, hEv], ?_⟩
    simpa [hrL, heL] using hL
  · -- `initOnce` runs: the lazy root now embeds `c.With(fs)`
    obtain ⟨hrL, heL⟩ := @RunState.step_inits _ ops merr sL _ hc
    obtain ⟨hrE, heE⟩ := @RunState.step_inits _ ops merr sE _ hc
    refine ⟨hview.1, hview.2.1, hview.2.2, by rw [hrE, hinitE], by rw [heE, hinitE, hEv]; rfl, ?_⟩
    simp only [Bool.or_true, if_true]
    exact ⟨d, by rw [hrL, hinitL], hdone, hd, by rw [heL, hev]⟩

/-- **Every run keeps the relation.** -/
theorem LazyRel.run {b : Bool} {sL sE : RunState E} (h : LazyRel ops c fs b sL sE) (calls : List CoreCall) :
    LazyRel ops c fs (b || calls.any CoreCall.initsRoot) (calls.foldl (RunState.step ops merr) sL)
      (calls.foldl (RunState.step ops merr) sE) := by
  induction calls generalizing b sL sE with
  | nil => simpa using h
  | cons call calls ih =>
    have h' := ih (LazyRel.step ops merr c fs h call)
    simpa [Bool.or_assoc] using h'

/-- **`NewLazyWith(c, fs)` behaves as `c.With(fs)`.**  For every core `c` and fields `fs`, and
every run of `Enabled`, `Sync`, `With`, and `Check` followed by `Write`, on the lazy core and on
the cores derived from it: the results, what is written and the `Check` state are those of the
same run on `c.With(fs)`; and `c.With(fs)` is evaluated at most once, exactly once iff a `With`
or a `Check` reaches the lazy core itself. -/
theorem lazyWith_observes_with (st : CheckState) (calls : List CoreCall) :
    (runCalls ops merr (.lazy (LazyWithCore.new c fs)) st calls).obs =
      (runCalls ops merr (.plain (Core.with ops c fs)) st calls).obs ∧
    (runCalls ops merr (.lazy (LazyWithCore.new c fs)) st calls).st =
      (runCalls ops merr (.plain (Core.with ops c fs)) st calls).st ∧
    (runCalls ops merr (.lazy (LazyWithCore.new c fs)) st calls).evals ≤ 1 ∧
    ((runCalls ops merr (.lazy (LazyWithCore.new c fs)) st calls).evals = 1 ↔
      ∃ call ∈ calls, call.initsRoot = true) := by
  have h₀ : LazyRel ops c fs false ⟨.lazy (LazyWithCore.new c fs), [], st, 0, []⟩
      ⟨.plain (Core.with ops c fs), [], st, 0, []⟩ :=
    ⟨rfl, rfl, rfl, rfl, rfl, by simp⟩
  obtain ⟨-, hst, hobs, -, -, hL⟩ := LazyRel.run ops merr c fs h₀ calls
  refine ⟨hobs, hst, ?_⟩
  simp only [Bool.false_or] at hL
  -- the count is `1` once the root was reached, and `0` before
  cases hany : calls.any CoreCall.initsRoot
  · rw [hany] at hL
    obtain ⟨-, he⟩ := hL
    have hnone : ¬∃ call ∈ calls, call.initsRoot = true := by simpa using hany
    simp only [runCalls]
    rw [he]
    exact ⟨Nat.zero_le 1, by simpa using hnone⟩
  · rw [hany, if_pos rfl] at hL
    obtain ⟨-, -, -, -, he⟩ := hL
    have hsome : ∃ call ∈ calls, call.initsRoot = true := by simpa using hany
    simp only [runCalls]
    rw [he]
    exact ⟨Nat.le_refl 1, by simpa using hsome⟩

end Equiv

end Lazy

end Zap.Zapcore
