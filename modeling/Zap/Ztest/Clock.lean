import Zap.Go.Utf8
import Zap.Go.Std

/-!
# Zap.Ztest.Clock — `MockClock`

The test clock of `internal/ztest` keeps the time and a list of waiters, each a function to run
at a time.  `Add(d)` sorts the list once, then runs waiters from its front for as long as the
front one is due by `now + d`, setting the clock to each waiter's time before running it.  A
ticker's waiter, when it runs, sends its tick if the channel has room and appends the ticker's
next tick at the end of the list.  Times and durations are nanoseconds.

* `addLoop_tickers`, `add_tickers`: when every waiter is a tick of a positive period, `Add`
  returns, given a round per tick due, with the clock at `now + d`.
* `add_one_ticker`: with one ticker, `Add` runs every tick due, in order, once each.
* `add_two_tickers_out_of_order`: with tickers of periods 1 and 3, `Add(5)` runs the ticks at 1,
  3 and then 2, and returns with the first ticker's tick at 3, due, not run.
-/

namespace Zap.Ztest

open Go Go.Utf8

/-- The function of a waiter: `tick ch d` is the closure `NewTicker(d)` schedules for the ticker
with channel `ch`, and `call f` any other function given to `runAt`. -/
inductive Fn where
  | tick (ch : Nat) (d : Int)
  | call (f : Nat)
  deriving DecidableEq, Repr

/-- A `waiter`; `until_` is Go's `until`, a keyword of Lean. -/
structure Waiter where
  until_ : Int
  fn : Fn
  deriving DecidableEq, Repr

/-- A `MockClock`, with the channels of the tickers it made: each has room for one tick, and
`some t` is a tick not yet received. -/
structure MockClock where
  now : Int
  waiters : List Waiter
  chans : List (Option Int)
  deriving DecidableEq, Repr

/-- `NewMockClock()`, with `time.Now()` reading `t`. -/
def MockClock.new (t : Int) : MockClock := ⟨t, [], []⟩

/-- `c.runAt(t, fn)` -/
def MockClock.runAt (c : MockClock) (t : Int) (fn : Fn) : MockClock :=
  { c with waiters := c.waiters ++ [⟨t, fn⟩] }

/-- `c.NewTicker(d)`: a new channel, and `tick(c.Now())`, which schedules the first tick at
`now + d`; the ticker is named by its channel. -/
def MockClock.newTicker (c : MockClock) (d : Int) : MockClock × Nat :=
  ({ c.runAt (c.now + d) (.tick c.chans.length d) with chans := c.chans ++ [none] }, c.chans.length)

/-- `select { case ch <- next: default: }`: the tick is dropped when the channel is full. -/
def send (chans : List (Option Int)) (ch : Nat) (next : Int) : List (Option Int) :=
  chans.modify ch fun b => b.or (some next)

section Run

-- what each function `f` given to `runAt` schedules when it runs, by the time `c.Now()` reads
variable (calls : Nat → Int → List Waiter)

/-- `w.fn()`, the clock reading `w.until`. -/
def MockClock.runFn (c : MockClock) (w : Waiter) : MockClock :=
  match w.fn with
  | .tick ch d =>
    -- the send, then the deferred `tick(next)`
    ({ c with chans := send c.chans ch w.until_ }).runAt (w.until_ + d) (.tick ch d)
  | .call f => { c with waiters := c.waiters ++ calls f c.now }

/-- The loop of `Add` towards `newTime`, running at most `fuel` waiters: the clock after it and
the waiters it ran, in order, or `none` while it is still running. -/
def MockClock.addLoop (newTime : Int) : Nat → MockClock → Option (MockClock × List Waiter)
  | fuel, c =>
    match c.waiters with
    | [] => some (c, [])
    | w :: rest =>
      -- `w.until.After(newTime)`: break
      if newTime < w.until_ then some (c, [])
      else
        match fuel with
        | 0 => none
        | fuel + 1 =>
          (MockClock.addLoop newTime fuel ({ c with now := w.until_, waiters := rest }.runFn calls w)).map
            fun r => (r.1, w :: r.2)

/-- `sort.Slice(c.waiters, Before)`: Go sorts up to 12 elements by insertion, which keeps the
order of waiters due at one time. -/
def sortWaiters (ws : List Waiter) : List Waiter :=
  ws.insertionSort fun a b => a.until_ ≤ b.until_

/-- `c.Add(d)`: the clock after it and the waiters it ran; a panic for a negative `d`; `none`
while the loop is still running after `fuel` waiters. -/
def MockClock.add (c : MockClock) (d : Int) (fuel : Nat) : Option (Outcome (MockClock × List Waiter)) :=
  if d < 0 then some (.panic false (lit "cannot add negative duration"))
  else
    (MockClock.addLoop calls (c.now + d) fuel { c with waiters := sortWaiters c.waiters }).map
      fun r => .ok ({ r.1 with now := c.now + d }, r.2)

end Run

/-! ## The loop, one waiter at a time -/

section Loop

variable (calls : Nat → Int → List Waiter) {T : Int}

theorem addLoop_nil {fuel : Nat} {c : MockClock} (h : c.waiters = []) :
    MockClock.addLoop calls T fuel c = some (c, []) := by
  unfold MockClock.addLoop
  rw [h]

theorem addLoop_after {fuel : Nat} {c : MockClock} {w : Waiter} {rest : List Waiter}
    (h : c.waiters = w :: rest) (hT : T < w.until_) :
    MockClock.addLoop calls T fuel c = some (c, []) := by
  unfold MockClock.addLoop
  rw [h]
  exact if_pos hT

theorem addLoop_zero {c : MockClock} {w : Waiter} {rest : List Waiter} (h : c.waiters = w :: rest)
    (hT : w.until_ ≤ T) : MockClock.addLoop calls T 0 c = none := by
  unfold MockClock.addLoop
  rw [h]
  exact if_neg (by omega)

theorem addLoop_succ {fuel : Nat} {c : MockClock} {w : Waiter} {rest : List Waiter}
    (h : c.waiters = w :: rest) (hT : w.until_ ≤ T) :
    MockClock.addLoop calls T (fuel + 1) c =
      (MockClock.addLoop calls T fuel ({ c with now := w.until_, waiters := rest }.runFn calls w)).map
        fun r => (r.1, w :: r.2) := by
  conv_lhs => unfold MockClock.addLoop
  rw [h]
  exact if_neg (by omega)

/-- **What one pass of the loop does**: it stops, whatever the fuel, or the front waiter is due. -/
theorem addLoop_cases (c : MockClock) :
    (∀ fuel, MockClock.addLoop calls T fuel c = some (c, [])) ∨
      ∃ w rest, c.waiters = w :: rest ∧ w.until_ ≤ T := by
  cases hw : c.waiters with
  | nil => exact .inl fun _ => addLoop_nil calls hw
  | cons w rest =>
    by_cases hT : T < w.until_
    · exact .inl fun _ => addLoop_after calls hw hT
    · exact .inr ⟨w, rest, rfl, by omega⟩

/-- A tick's function appends the ticker's next tick. -/
theorem runFn_waiters_of_tick (c : MockClock) {w : Waiter} {ch : Nat} {p : Int}
    (h : w.fn = .tick ch p) :
    (c.runFn calls w).waiters = c.waiters ++ [⟨w.until_ + p, .tick ch p⟩] := by
  simp [MockClock.runFn, h, MockClock.runAt]

/-- **More rounds give the same result**: once the loop has stopped, fuel no longer matters. -/
theorem addLoop_mono (fuel : Nat) : ∀ {fuel' : Nat} {c : MockClock} {r : MockClock × List Waiter},
    MockClock.addLoop calls T fuel c = some r → fuel ≤ fuel' →
    MockClock.addLoop calls T fuel' c = some r := by
  induction fuel with
  | zero =>
    intro fuel' c r h hle
    rcases addLoop_cases calls c with hstop | ⟨w, rest, hw, hT⟩
    · rw [hstop] at h ⊢
      exact h
    · rw [addLoop_zero calls hw hT] at h
      cases h
  | succ fuel ih =>
    intro fuel' c r h hle
    rcases addLoop_cases calls c with hstop | ⟨w, rest, hw, hT⟩
    · rw [hstop] at h ⊢
      exact h
    · obtain ⟨fuel', rfl⟩ : ∃ f, fuel' = f + 1 := ⟨fuel' - 1, by omega⟩
      rw [addLoop_succ calls hw hT] at h ⊢
      obtain ⟨r', hr', rfl⟩ := Option.map_eq_some_iff.mp h
      rw [ih hr' (by omega)]
      rfl

end Loop

/-! ## Tickers alone: `Add` returns -/

/-- The ticks of period `p` from `u` that are due by `T`. -/
def dueTicks (T u p : Int) : Nat := if u ≤ T then ((T - u) / p).toNat + 1 else 0

/-- The ticks a waiter stands for by `T`; any other function counts none. -/
def Waiter.due (T : Int) (w : Waiter) : Nat :=
  match w.fn with
  | .tick _ p => dueTicks T w.until_ p
  | .call _ => 0

/-- Every waiter is a tick of a positive period. -/
def TickersOnly (ws : List Waiter) : Prop := ∀ w ∈ ws, ∃ ch p, w.fn = .tick ch p ∧ 0 < p

section Due

variable {T u p : Int}

theorem dueTicks_of_lt (h : T < u) : dueTicks T u p = 0 := if_neg (by omega)

/-- A tick due is one tick more than the ticks due from the next one. -/
theorem dueTicks_step (hp : 0 < p) (hu : u ≤ T) : dueTicks T u p = dueTicks T (u + p) p + 1 := by
  rw [dueTicks, if_pos hu]
  by_cases hnext : u + p ≤ T
  · -- `T - u` is `T - (u + p)` and one period more
    have hq : (T - u) / p = (T - (u + p)) / p + 1 := by
      rw [show T - u = T - (u + p) + 1 * p by ring, Int.add_mul_ediv_right _ _ (by omega)]
    have hnn : 0 ≤ (T - (u + p)) / p := Int.ediv_nonneg (by omega) (by omega)
    rw [dueTicks, if_pos hnext, hq]
    omega
  · have hq : (T - u) / p = 0 := Int.ediv_eq_zero_of_lt (by omega) (by omega)
    rw [dueTicks_of_lt (by omega), hq]
    rfl

/-- The ticks due are exactly those up to `T`: each of them is due, the next one is not. -/
theorem dueTicks_spec (hp : 0 < p) :
    (∀ i < dueTicks T u p, u + i * p ≤ T) ∧ T < u + dueTicks T u p * p := by
  by_cases hu : u ≤ T
  · have hq : 0 ≤ (T - u) / p := Int.ediv_nonneg (by omega) (by omega)
    have hmul : (T - u) / p * p ≤ T - u := Int.ediv_mul_le _ (by omega)
    have hlt : T - u < ((T - u) / p + 1) * p := Int.lt_ediv_add_one_mul_self _ hp
    have hcast : ((dueTicks T u p : Nat) : Int) = (T - u) / p + 1 := by
      rw [dueTicks, if_pos hu]
      push_cast
      rw [Int.toNat_of_nonneg hq]
    refine ⟨fun i hi => ?_, by rw [hcast]; linarith⟩
    have hi' : (i : Int) ≤ (T - u) / p := by
      have : (i : Int) < (T - u) / p + 1 := by rw [← hcast]; exact_mod_cast hi
      omega
    nlinarith
  · rw [dueTicks_of_lt (by omega)]
    exact ⟨fun i hi => absurd hi (Nat.not_lt_zero i), by simp; omega⟩

/-- A tick due counts itself and the ticks due from the ticker's next one. -/
theorem Waiter.due_of_tick {w : Waiter} {ch : Nat} (hfn : w.fn = .tick ch p) (hp : 0 < p)
    (hu : w.until_ ≤ T) : w.due T = dueTicks T (w.until_ + p) p + 1 := by
  have h : w.due T = dueTicks T w.until_ p := by simp [Waiter.due, hfn]
  rw [h, dueTicks_step hp hu]

end Due

section Tickers

variable (calls : Nat → Int → List Waiter) {T : Int}

/-- **Running a due tick keeps every waiter a tick, and leaves one tick fewer due.** -/
theorem runFn_tick_due {c : MockClock} {w : Waiter} {rest : List Waiter} (hc : TickersOnly c.waiters)
    (hw : c.waiters = w :: rest) (hT : w.until_ ≤ T) :
    TickersOnly ({ c with now := w.until_, waiters := rest }.runFn calls w).waiters ∧
      (({ c with now := w.until_, waiters := rest }.runFn calls w).waiters.map (Waiter.due T)).sum + 1 =
        (c.waiters.map (Waiter.due T)).sum := by
  obtain ⟨ch, p, hfn, hp⟩ := hc w (by simp [hw])
  have hnext := runFn_waiters_of_tick calls { c with now := w.until_, waiters := rest } hfn
  refine ⟨fun w' hw' => ?_, ?_⟩
  · -- the rest, and the ticker's next tick
    rw [hnext] at hw'
    rcases List.mem_append.mp hw' with hw' | hw'
    · exact hc w' (by simp [hw, hw'])
    · rw [List.mem_singleton.mp hw']
      exact ⟨ch, p, rfl, hp⟩
  · have hdue := Waiter.due_of_tick hfn hp hT
    rw [hnext, hw]
    simp only [List.map_append, List.sum_append, List.map_cons, List.map_nil, List.sum_cons,
      List.sum_nil, hdue]
    simp only [Waiter.due]
    omega

/-- **The loop stops, given a round per tick due.**  Each waiter it runs stands for one tick
fewer than the ticks it leaves in the list. -/
theorem addLoop_tickers (fuel : Nat) : ∀ c : MockClock, TickersOnly c.waiters →
    (c.waiters.map (Waiter.due T)).sum ≤ fuel → ∃ r, MockClock.addLoop calls T fuel c = some r := by
  induction fuel with
  | zero =>
    intro c hc hsum
    rcases addLoop_cases calls c with hstop | ⟨w, rest, hw, hT⟩
    · exact ⟨_, hstop 0⟩
    · -- a waiter due is a tick due, which needs a round
      have := (runFn_tick_due calls hc hw hT).2
      omega
  | succ fuel ih =>
    intro c hc hsum
    rcases addLoop_cases calls c with hstop | ⟨w, rest, hw, hT⟩
    · exact ⟨_, hstop _⟩
    · obtain ⟨hc', hsum'⟩ := runFn_tick_due calls hc hw hT
      obtain ⟨r, hr⟩ := ih _ hc' (by omega)
      rw [addLoop_succ calls hw hT, hr]
      exact ⟨_, rfl⟩

/-- **`Add` returns when every waiter is a tick**, given a round per tick due, with the clock at
`now + d`. -/
theorem add_tickers (c : MockClock) (hc : TickersOnly c.waiters) {d : Int} (hd : 0 ≤ d) {fuel : Nat}
    (hfuel : (c.waiters.map (Waiter.due (c.now + d))).sum ≤ fuel) :
    ∃ c' ran, c.add calls d fuel = some (.ok (c', ran)) ∧ c'.now = c.now + d := by
  have hperm : (sortWaiters c.waiters).Perm c.waiters := List.perm_insertionSort _ _
  obtain ⟨r, hr⟩ := addLoop_tickers calls fuel { c with waiters := sortWaiters c.waiters }
    (fun w hw => hc w (hperm.subset hw)) (by rw [(hperm.map _).sum_eq]; exact hfuel)
  refine ⟨{ r.1 with now := c.now + d }, r.2, ?_, rfl⟩
  rw [MockClock.add, if_neg (by omega), hr]
  rfl

end Tickers

/-! ## One ticker, and two -/

section Order

variable (calls : Nat → Int → List Waiter) {T : Int} {ch : Nat} {p : Int}

/-- The ticks from `u`, the first one apart. -/
theorem ticks_succ (u : Int) (n : Nat) :
    ((List.range (n + 1)).map fun i : Nat => (⟨u + i * p, .tick ch p⟩ : Waiter)) =
      ⟨u, .tick ch p⟩ :: (List.range n).map fun i : Nat => (⟨u + p + i * p, .tick ch p⟩ : Waiter) := by
  rw [List.range_succ_eq_map, List.map_cons, List.map_map]
  congr 1
  · simp
  · apply List.map_congr_left
    intro i _
    simp only [Function.comp, Nat.cast_succ, Waiter.mk.injEq, and_true]
    ring

/-- **One ticker: the loop runs every tick due, in order, once each**, and leaves the next one. -/
theorem addLoop_one_ticker (hp : 0 < p) (n : Nat) : ∀ (c : MockClock) (u : Int),
    c.waiters = [⟨u, .tick ch p⟩] → dueTicks T u p = n → ∀ fuel, n ≤ fuel →
    ∃ c', MockClock.addLoop calls T fuel c =
        some (c', (List.range n).map fun i : Nat => ⟨u + i * p, .tick ch p⟩) ∧
      c'.waiters = [⟨u + n * p, .tick ch p⟩] := by
  induction n with
  | zero =>
    -- no tick is due: the loop stops at once
    intro c u hc hn fuel _
    have hT : T < u := by
      by_contra hu
      rw [dueTicks, if_pos (by omega)] at hn
      omega
    exact ⟨c, addLoop_after calls hc hT, by simp [hc]⟩
  | succ n ih =>
    intro c u hc hn fuel hfuel
    have hu : u ≤ T := by
      by_contra hu
      rw [dueTicks_of_lt (by omega)] at hn
      omega
    obtain ⟨fuel, rfl⟩ : ∃ f, fuel = f + 1 := ⟨fuel - 1, by omega⟩
    -- the tick runs, and its ticker's next tick is the only waiter left
    have hnext : (({ c with now := u, waiters := [] } : MockClock).runFn calls ⟨u, .tick ch p⟩).waiters =
        [⟨u + p, .tick ch p⟩] := runFn_waiters_of_tick calls _ rfl
    obtain ⟨c', hrun, hc'⟩ := ih _ (u + p) hnext
      (by rw [dueTicks_step hp hu] at hn; omega) fuel (by omega)
    refine ⟨c', ?_, ?_⟩
    · rw [addLoop_succ calls hc hu]
      simp only [hrun, Option.map_some, ticks_succ]
    · rw [hc']
      simp only [List.cons.injEq, Waiter.mk.injEq, and_true, Nat.cast_succ]
      ring

/-- **With one ticker, `Add` runs every tick due, in order, once each**: the ticks at `u`,
`u + p`, ... up to `now + d`, the clock reading each in turn; it then leaves the next tick and
sets the clock to `now + d`. -/
theorem add_one_ticker (c : MockClock) {u d : Int} (hc : c.waiters = [⟨u, .tick ch p⟩])
    (hp : 0 < p) (hd : 0 ≤ d) {fuel : Nat} (hfuel : dueTicks (c.now + d) u p ≤ fuel) :
    ∃ c', c.add calls d fuel = some (.ok (c', (List.range (dueTicks (c.now + d) u p)).map
        fun i : Nat => ⟨u + i * p, .tick ch p⟩)) ∧
      c'.now = c.now + d ∧ c'.waiters = [⟨u + dueTicks (c.now + d) u p * p, .tick ch p⟩] := by
  have hsort : sortWaiters c.waiters = [⟨u, .tick ch p⟩] := by rw [hc]; rfl
  obtain ⟨c', hrun, hw⟩ := addLoop_one_ticker calls hp _ { c with waiters := sortWaiters c.waiters } u
    hsort rfl fuel hfuel
  refine ⟨{ c' with now := c.now + d }, ?_, rfl, hw⟩
  rw [MockClock.add, if_neg (by omega), hrun]
  rfl

/-- **Two tickers run out of order.**  On a new clock reading `t`, tickers of periods 1 and 3
wait at `t + 1` and `t + 3`.  `Add(5)` runs the first ticker's tick at `t + 1`, which appends
its next tick, at `t + 2`, behind the second ticker's tick at `t + 3`; so the ticks run at
`t + 1`, `t + 3`, `t + 2`, the clock going back from `t + 3` to `t + 2`.  The tick at `t + 2`
appends the one at `t + 3` behind the second ticker's at `t + 6`, after `t + 5`, where the loop
stops: `Add` returns with the tick at `t + 3`, due, not run. -/
theorem add_two_tickers_out_of_order (t : Int) {fuel : Nat} (hfuel : 3 ≤ fuel) :
    ∃ c', (((MockClock.new t).newTicker 1).1.newTicker 3).1.add calls 5 fuel =
        some (.ok (c', [⟨t + 1, .tick 0 1⟩, ⟨t + 3, .tick 1 3⟩, ⟨t + 2, .tick 0 1⟩])) ∧
      c'.now = t + 5 ∧ (⟨t + 3, .tick 0 1⟩ : Waiter) ∈ c'.waiters := by
  have hloop : MockClock.addLoop calls (t + 5) 3
      ⟨t, sortWaiters [⟨t + 1, .tick 0 1⟩, ⟨t + 3, .tick 1 3⟩], [none, none]⟩ =
      some (⟨t + 2, [⟨t + 6, .tick 1 3⟩, ⟨t + 3, .tick 0 1⟩], [some (t + 1), some (t + 3)]⟩,
        [⟨t + 1, .tick 0 1⟩, ⟨t + 3, .tick 1 3⟩, ⟨t + 2, .tick 0 1⟩]) := by
    simp [sortWaiters, MockClock.addLoop, MockClock.runFn, MockClock.runAt, send, add_assoc]
  refine ⟨⟨t + 5, [⟨t + 6, .tick 1 3⟩, ⟨t + 3, .tick 0 1⟩], [some (t + 1), some (t + 3)]⟩, ?_, rfl,
    by simp⟩
  rw [MockClock.add, if_neg (by simp)]
  show (MockClock.addLoop calls (t + 5) fuel
    ⟨t, sortWaiters [⟨t + 1, .tick 0 1⟩, ⟨t + 3, .tick 1 3⟩], [none, none]⟩).map _ = _
  rw [addLoop_mono calls 3 hloop hfuel]
  rfl

theorem add_two_tickers_out_of_order_zero :
    3 ≤ 3 ∧ ∃ c', (((MockClock.new 0).newTicker 1).1.newTicker 3).1.add (fun _ _ => []) 5 3 =
        some (.ok (c', [⟨0 + 1, .tick 0 1⟩, ⟨0 + 3, .tick 1 3⟩, ⟨0 + 2, .tick 0 1⟩])) ∧
      c'.now = 0 + 5 ∧ (⟨0 + 3, .tick 0 1⟩ : Waiter) ∈ c'.waiters :=
  ⟨le_refl 3, add_two_tickers_out_of_order (fun _ _ => []) 0 (le_refl 3)⟩

end Order

end Zap.Ztest
