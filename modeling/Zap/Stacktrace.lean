import Zap.Go.Sync

/-!
# Zap.Stacktrace — `Capture` and `Free` over the stacks of `_stackPool`

`runtime.Callers(skip, pc)` is modelled on a finite call stack `S`: it copies the first
`len(pc)` of the frames left after the `skip` skipped ones into `pc`, and returns their number.
`Capture` takes a stack from `_stackPool`; for `Full` it doubles its buffer for as long as
`Callers` fills it.  The program's stacks go through any run of captures, frees and garbage
collections (`World.run`).

* `grow_spec`: the doubling loop, started on a non-empty buffer, stops with every frame.
* `capture_full_nil_storage`: on an empty storage it never stops.
* `capture_full`, `capture_first`: on a stack with storage, `Capture` returns every remaining
  frame, or the first one.
* `World.good_run`: every stack in the pool or held by the program has storage, with `pcs` a
  prefix of it.
* `capture_terminates_complete`: after any run, every `Capture` returns, and is complete.
-/

namespace Zap.Stacktrace

open Go

/-- `Depth`: the two depths zap captures at. -/
inductive Depth where
  | first
  | full
  deriving DecidableEq, Repr

/-- A `Stack`.  `frames` is `runtime.CallersFrames(pcs)`, kept as the counters it walks, and
`none` for `nil`.  A slice's capacity is its length everywhere in this package, so
`storage[:n]` needs `n ≤ len(storage)`. -/
structure Stack where
  pcs : List UInt64
  frames : Option (List UInt64)
  storage : List UInt64
  deriving DecidableEq, Repr

/-- The `New` of `_stackPool`: `&Stack{storage: make([]uintptr, 64)}`. -/
def newStack : Stack := ⟨[], none, List.replicate 64 0⟩

/-- `runtime.Callers(skip, pc)` on the call stack `S`: the first `len(pc)` frames after the
`skip` skipped ones are copied into `pc`, and their number is returned. -/
def callers (S : List UInt64) (skip : Int) (pc : List UInt64) : List UInt64 × Nat :=
  let n := min pc.length (S.drop skip.toNat).length
  ((S.drop skip.toNat).take n ++ pc.drop n, n)

/-- `s[:n]`, `none` for the panic when `n` is past the capacity. -/
def sliceTo (s : List UInt64) (n : Nat) : Option (List UInt64) :=
  if n ≤ s.length then some (s.take n) else none

/-- The loop `for numFrames == len(pcs)` of a full capture, for at most `fuel` rounds: the buffer
and the count it stops with, `none` while it is still going. -/
def grow (S : List UInt64) (skip : Int) : Nat → List UInt64 → Nat → Option (List UInt64 × Nat)
  | fuel, pcs, n =>
    if n = pcs.length then
      match fuel with
      | 0 => none
      | fuel + 1 =>
        let r := callers S (skip + 2) (List.replicate (pcs.length * 2) 0)
        grow S skip fuel r.1 r.2
    else some (pcs, n)

/-- `Capture(skip, depth)` on the stack `Get` gave, `S` being the call stack `runtime.Callers`
sees; `fuel` bounds the rounds of the doubling loop.  `none`: no stack comes back, from the
panic of `storage[:1]` or a loop still going. -/
def capture (S : List UInt64) (fuel : Nat) (skip : Int) : Depth → Stack → Option Stack
  | .first, stack => do
    let pcs ← sliceTo stack.storage 1
    -- `pcs` shares the array of `storage`, so `Callers` writes into `storage`
    let (buf, n) := callers S (skip + 2) pcs
    pure ⟨buf.take n, some (buf.take n), buf ++ stack.storage.drop 1⟩
  | .full, stack => do
    let (buf, n) := callers S (skip + 2) stack.storage
    let (pcs, n) ← grow S skip fuel buf n
    -- the old storage is discarded, not returned to the pool
    pure ⟨pcs.take n, some (pcs.take n), pcs⟩

/-- `st.Free()`: the stack as it is put back into the pool. -/
def Stack.free (st : Stack) : Stack := { st with frames := none, pcs := [] }

/-- The frames `Capture` is after: those left once `runtime.Callers`, `Capture` and the `skip`
frames above are skipped. -/
def remaining (S : List UInt64) (skip : Int) : List UInt64 := S.drop (skip + 2).toNat

/-! ## `runtime.Callers` and the doubling loop -/

section Frames

variable (S : List UInt64) (skip : Int)

theorem callers_length (k : Int) (pc : List UInt64) : (callers S k pc).1.length = pc.length := by
  simp only [callers, List.length_append, List.length_take, List.length_drop]
  omega

theorem callers_le (k : Int) (pc : List UInt64) : (callers S k pc).2 ≤ (callers S k pc).1.length := by
  rw [callers_length]
  exact Nat.min_le_left _ _

/-- The counters `Callers` reports are the first frames. -/
theorem take_callers (k : Int) (pc : List UInt64) :
    (callers S k pc).1.take (callers S k pc).2 = (S.drop k.toNat).take (callers S k pc).2 := by
  have hlen : (callers S k pc).2 ≤ ((S.drop k.toNat).take (callers S k pc).2).length := by
    simp only [callers, List.length_take]
    omega
  simp only [callers] at hlen ⊢
  rw [List.take_append_of_le_length hlen, List.take_take, Nat.min_self]

theorem grow_stop {fuel : Nat} {pcs : List UInt64} {n : Nat} (h : n ≠ pcs.length) :
    grow S skip fuel pcs n = some (pcs, n) := by
  unfold grow
  exact if_neg h

theorem grow_zero_full {pcs : List UInt64} {n : Nat} (h : n = pcs.length) :
    grow S skip 0 pcs n = none := by
  rw [grow, if_pos h]

theorem grow_succ_full {fuel : Nat} {pcs : List UInt64} {n : Nat} (h : n = pcs.length) :
    grow S skip (fuel + 1) pcs n =
      grow S skip fuel (callers S (skip + 2) (List.replicate (pcs.length * 2) 0)).1
        (callers S (skip + 2) (List.replicate (pcs.length * 2) 0)).2 := by
  rw [grow, if_pos h]

/-- **The doubling loop stops with every frame.**  Started on a non-empty buffer that `Callers`
filled, it needs a round for each slot the buffer may lack. -/
theorem grow_spec (fuel : Nat) : ∀ (pcs : List UInt64) (n : Nat), 0 < pcs.length →
    n = min pcs.length (remaining S skip).length → pcs.take n = (remaining S skip).take n →
    (remaining S skip).length + 1 - pcs.length ≤ fuel →
    ∃ pcs', grow S skip fuel pcs n = some (pcs', (remaining S skip).length) ∧
      pcs'.take (remaining S skip).length = remaining S skip ∧
      (remaining S skip).length < pcs'.length := by
  induction fuel with
  | zero =>
    -- no round left: the buffer already had room for every frame
    intro pcs n hpos hn htake hfuel
    have hlt : (remaining S skip).length < pcs.length := by omega
    have hnF : n = (remaining S skip).length := by omega
    subst hnF
    refine ⟨pcs, grow_stop S skip (by omega), ?_, hlt⟩
    rw [htake, List.take_length]
  | succ fuel ih =>
    intro pcs n hpos hn htake hfuel
    by_cases hfull : n = pcs.length
    · -- `Callers` filled the buffer: one round with a buffer twice as long
      rw [grow_succ_full S skip hfull]
      have hlen := callers_length S (skip + 2) (List.replicate (pcs.length * 2) 0)
      rw [List.length_replicate] at hlen
      apply ih
      · omega
      · simp [callers, remaining]
      · exact take_callers S (skip + 2) _
      · omega
    · have hnF : n = (remaining S skip).length := by omega
      subst hnF
      refine ⟨pcs, grow_stop S skip hfull, ?_, by omega⟩
      rw [htake, List.take_length]

/-- Whatever the loop stops with, the count is below the buffer's length. -/
theorem grow_lt (fuel : Nat) : ∀ {pcs pcs' : List UInt64} {n n' : Nat}, n ≤ pcs.length →
    grow S skip fuel pcs n = some (pcs', n') → n' < pcs'.length := by
  induction fuel with
  | zero =>
    intro pcs pcs' n n' hn h
    by_cases hfull : n = pcs.length
    · rw [grow_zero_full S skip hfull] at h
      cases h
    · rw [grow_stop S skip hfull] at h
      cases h
      omega
  | succ fuel ih =>
    intro pcs pcs' n n' hn h
    by_cases hfull : n = pcs.length
    · rw [grow_succ_full S skip hfull] at h
      exact ih (callers_le S _ _) h
    · rw [grow_stop S skip hfull] at h
      cases h
      omega

/-- **An empty buffer is never filled up**: `Callers` returns `0 = len(pcs)` every round. -/
theorem grow_nil (fuel : Nat) : grow S skip fuel [] 0 = none := by
  induction fuel with
  | zero => exact grow_zero_full S skip rfl
  | succ fuel ih =>
    have h : callers S (skip + 2) (List.replicate (([] : List UInt64).length * 2) 0) = ([], 0) := by
      simp [callers]
    rw [grow_succ_full S skip (show (0 : Nat) = ([] : List UInt64).length from rfl), h]
    exact ih

end Frames

/-! ## `Capture` on one stack -/

/-- A stack `Capture` can use: its storage is not empty, and `pcs` is a prefix of it. -/
structure Stack.Good (st : Stack) : Prop where
  storage_pos : 0 < st.storage.length
  pcs_prefix : st.pcs <+: st.storage

theorem newStack_good : newStack.Good :=
  ⟨by simp [newStack], List.nil_prefix⟩

theorem Stack.Good.free {st : Stack} (h : st.Good) : st.free.Good :=
  ⟨h.storage_pos, List.nil_prefix⟩

section Capture

variable (S : List UInt64) (skip : Int)

theorem sliceTo_one {s : List UInt64} (h : 0 < s.length) : sliceTo s 1 = some (s.take 1) :=
  if_pos h

theorem length_take_one {s : List UInt64} (h : 0 < s.length) : (s.take 1).length = 1 := by
  simp
  omega

/-- **A full capture on an empty storage never returns**: the loop's measure needs storage. -/
theorem capture_full_nil_storage (fuel : Nat) (pcs : List UInt64) (frames : Option (List UInt64)) :
    capture S fuel skip .full ⟨pcs, frames, []⟩ = none := by
  have h : callers S (skip + 2) [] = ([], 0) := by simp [callers]
  simp [capture, h, grow_nil]

/-- **A full capture returns every remaining frame**, given a round of the loop per frame. -/
theorem capture_full {st : Stack} (hst : 0 < st.storage.length) {fuel : Nat}
    (hfuel : (remaining S skip).length ≤ fuel) :
    ∃ st', capture S fuel skip .full st = some st' ∧ st'.pcs = remaining S skip := by
  have hlen := callers_length S (skip + 2) st.storage
  obtain ⟨pcs', hgrow, htake, -⟩ := grow_spec S skip fuel _ _ (by omega)
    (by rw [hlen]; rfl) (take_callers S (skip + 2) st.storage) (by omega)
  exact ⟨_, by simp only [capture, hgrow]; rfl, htake⟩

/-- **A capture of the first frame returns it**, or nothing for an empty stack. -/
theorem capture_first {st : Stack} (hst : 0 < st.storage.length) (fuel : Nat) :
    ∃ st', capture S fuel skip .first st = some st' ∧
      st'.pcs = (remaining S skip).take (min 1 (remaining S skip).length) := by
  have hpc := length_take_one hst
  refine ⟨_, by simp only [capture, sliceTo_one hst]; rfl, ?_⟩
  show (callers S (skip + 2) _).1.take (callers S (skip + 2) _).2 = _
  rw [take_callers]
  simp only [callers, hpc]
  rfl

/-- **What `Capture` returns is good**, whatever the depth and the rounds. -/
theorem capture_good {st st' : Stack} (hst : st.Good) {fuel : Nat} {depth : Depth}
    (h : capture S fuel skip depth st = some st') : st'.Good := by
  cases depth with
  | first =>
    simp only [capture, sliceTo_one hst.storage_pos, Option.bind_eq_bind, Option.bind_some,
      Option.pure_def, Option.some.injEq] at h
    subst h
    have hlen := callers_length S (skip + 2) (st.storage.take 1)
    refine ⟨?_, (List.take_prefix _ _).trans (List.prefix_append _ _)⟩
    simp only [List.length_append, List.length_drop]
    have hone := length_take_one hst.storage_pos
    omega
  | full =>
    simp only [capture, Option.bind_eq_bind, Option.pure_def] at h
    cases hg : grow S skip fuel (callers S (skip + 2) st.storage).1 (callers S (skip + 2) st.storage).2 with
    | none => simp [hg] at h
    | some r =>
      simp only [hg, Option.bind_some, Option.some.injEq] at h
      subst h
      have hlt := grow_lt S skip fuel (callers_le S _ _) hg
      exact ⟨Nat.lt_of_le_of_lt (Nat.zero_le _) hlt, List.take_prefix _ _⟩

end Capture

/-! ## Runs of the program -/

/-- `_stackPool`, and the stacks the program holds between `Capture` and `Free`. -/
structure World where
  pool : Pool Stack
  held : List Stack

/-- What the program and the runtime do with stacks. -/
inductive Event where
  /-- `Capture(skip, depth)` with the call stack `S`, on the stack `Get` picks, the loop given
  `fuel` rounds -/
  | capture (pick : Option Nat) (S : List UInt64) (skip : Int) (depth : Depth) (fuel : Nat)
  /-- `Free` of the `i`th stack the program holds -/
  | free (i : Nat)
  /-- a garbage collection dropping the `i`th stack of the pool -/
  | drop (i : Nat)

/-- No stack yet. -/
def World.init : World := ⟨Pool.empty, []⟩

/-- One event; `none` when a capture does not return. -/
def World.step (w : World) : Event → Option World
  | .capture pick S skip depth fuel =>
    (capture S fuel skip depth (w.pool.get newStack pick).1).map
      fun st => ⟨(w.pool.get newStack pick).2, w.held ++ [st]⟩
  | .free i =>
    match w.held[i]? with
    | some st => some ⟨w.pool.put st.free, w.held.eraseIdx i⟩
    | none => some w
  | .drop i => some { w with pool := w.pool.drop i }

/-- A run of events, `none` if a capture in it does not return. -/
def World.run (w : World) : List Event → Option World
  | [] => some w
  | e :: es => (w.step e).bind fun w' => w'.run es

/-- Every stack in the pool, and every stack the program holds, is good. -/
def World.Good (w : World) : Prop := w.pool.All Stack.Good ∧ ∀ st ∈ w.held, st.Good

theorem World.good_init : World.init.Good :=
  ⟨Pool.all_empty, by simp [World.init]⟩

/-- **Each event keeps every stack good.** -/
theorem World.Good.step {w w' : World} (hw : w.Good) {e : Event} (h : w.step e = some w') :
    w'.Good := by
  cases e with
  | capture pick S skip depth fuel =>
    obtain ⟨hst, hpool⟩ := hw.1.get newStack_good pick
    simp only [World.step, Option.map_eq_some_iff] at h
    obtain ⟨st', hcap, rfl⟩ := h
    have hst' := capture_good S skip hst hcap
    refine ⟨hpool, fun st hmem => ?_⟩
    rcases List.mem_append.mp hmem with hmem | hmem
    · exact hw.2 st hmem
    · rw [List.mem_singleton.mp hmem]; exact hst'
  | free i =>
    simp only [World.step] at h
    cases hi : w.held[i]? with
    | none => simp only [hi, Option.some.injEq] at h; subst h; exact hw
    | some st =>
      simp only [hi, Option.some.injEq] at h
      subst h
      -- the freed stack keeps its storage
      exact ⟨hw.1.put (hw.2 st (List.mem_of_getElem? hi)).free,
        fun st' hmem => hw.2 st' (List.mem_of_mem_eraseIdx hmem)⟩
  | drop i =>
    simp only [World.step, Option.some.injEq] at h
    subst h
    exact ⟨hw.1.drop i, hw.2⟩

/-- **Every run keeps every stack good.** -/
theorem World.good_run : ∀ (es : List Event) {w w' : World}, w.Good → w.run es = some w' → w'.Good
  | [], _, _, hw, h => by
    simp only [World.run, Option.some.injEq] at h
    exact h ▸ hw
  | e :: es, w, w', hw, h => by
    simp only [World.run, Option.bind_eq_some_iff] at h
    obtain ⟨w₁, h₁, h₂⟩ := h
    exact World.good_run es (hw.step h₁) h₂

/-- **Stack capture terminates and is complete.**  After any run of captures at either depth,
frees and garbage collections, a full capture on whatever stack `Get` picks returns every
remaining frame of the call stack, given a round of the loop per frame; a capture of the first
frame returns the first `min(1, |frames|)` of them; and every stack held or pooled, and so
every stack `Free` puts back, has storage. -/
theorem capture_terminates_complete {es : List Event} {w : World} (hw : World.init.run es = some w)
    (pick : Option Nat) (S : List UInt64) (skip : Int) :
    (∀ fuel, (remaining S skip).length ≤ fuel → ∃ st,
      capture S fuel skip .full (w.pool.get newStack pick).1 = some st ∧ st.pcs = remaining S skip) ∧
    (∀ fuel, ∃ st, capture S fuel skip .first (w.pool.get newStack pick).1 = some st ∧
      st.pcs = (remaining S skip).take (min 1 (remaining S skip).length)) ∧
    (∀ st ∈ w.held, 0 < st.free.storage.length) ∧ (∀ st ∈ w.pool.items, 0 < st.storage.length) := by
  have hgood := World.good_run es World.good_init hw
  have hpick := (hgood.1.get newStack_good pick).1
  refine ⟨fun fuel hfuel => capture_full S skip hpick.storage_pos hfuel,
    fun fuel => capture_first S skip hpick.storage_pos fuel, ?_, ?_⟩
  · intro st hst
    exact (hgood.2 st hst).free.storage_pos
  · intro st hst
    exact (hgood.1 st hst).storage_pos

/-- A full capture, freed, then reused from the pool for a deeper stack. -/
theorem capture_terminates_complete_reused :
    World.init.run [.capture none [7, 8, 9] 0 .full 1, .free 0] =
        some ⟨⟨[⟨[], none, 9 :: List.replicate 63 0⟩]⟩, []⟩ ∧
      ∃ st, capture [1, 2, 3, 4] 2 0 .full
          (Pool.get ⟨[⟨[], none, 9 :: List.replicate 63 0⟩]⟩ newStack (some 0)).1 = some st ∧
        st.pcs = [3, 4] := by
  have hrun : World.init.run [.capture none [7, 8, 9] 0 .full 1, .free 0] =
      some ⟨⟨[⟨[], none, 9 :: List.replicate 63 0⟩]⟩, []⟩ := rfl
  exact ⟨hrun, (capture_terminates_complete hrun (some 0) [1, 2, 3, 4] 0).1 2 (by decide)⟩

end Zap.Stacktrace
