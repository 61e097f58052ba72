import Zap.Go.Bufio

/-!
# Zap.Zapcore.BufferedWriteSyncer — writes are batched, never split

A `BufferedWriteSyncer` puts its writes in a `bufio.Writer` of `Size` bytes, created on the first
write.  A write that does not fit the free space while the buffer holds something is preceded by a
`Flush`, so that `bufio` never fills the buffer with part of it: from an empty buffer `bufio`
writes a large payload in one call.  `Sync`, the ticker of `flushLoop` and `Stop` flush.

The underlying `WS` accepts every write whole and without error; the calls of `WS.Write` are
returned as lists.  The ticker is an event of its own, which does something only while
`flushLoop` runs (after the first write and before `Stop`).

* `Batched`: the payloads so far are the groups each underlying write received, in order, and the
  payloads still buffered.
* `Batched.bufioWrite`: a `bufio` write that fits, or goes to an empty buffer, keeps it.
* `Batched.run`: every run keeps it.
-/

namespace Zap.Zapcore

open Go

/-- `_defaultBufferSize`: 256 kB. -/
def defaultBufferSize : Nat := 256 * 1024

/-- A `BufferedWriteSyncer`: `Size`, whether `initialize` and `Stop` have run, and its
`bufio.Writer` (read only once initialized). -/
structure BufferedWriteSyncer where
  size : Nat
  initialized : Bool
  stopped : Bool
  writer : Bufio.Writer

/-- `&BufferedWriteSyncer{WS: ws, Size: size}` before its first write. -/
def BufferedWriteSyncer.new (size : Nat) : BufferedWriteSyncer := ⟨size, false, false, ⟨0, []⟩⟩

/-- `s.initialize()`: the buffer gets `Size`, or the default for `0`; `flushLoop` starts. -/
def BufferedWriteSyncer.initialize (s : BufferedWriteSyncer) : BufferedWriteSyncer :=
  let size := if s.size = 0 then defaultBufferSize else s.size
  { s with writer := Bufio.newWriterSize size, initialized := true }

/-- `s.Write(bs)`: the syncer after, and the calls of `WS.Write`.  The count is `len(bs)`. -/
def BufferedWriteSyncer.write (s : BufferedWriteSyncer) (bs : List UInt8) :
    BufferedWriteSyncer × List (List UInt8) :=
  let s := if s.initialized then s else BufferedWriteSyncer.initialize s
  -- to avoid partial writes, the buffer is flushed first when `bs` does not fit and it is not empty
  let pre := if s.writer.available < bs.length ∧ 0 < s.writer.buffered then s.writer.flush
    else (s.writer, [])
  let r := pre.1.write bs
  ({ s with writer := r.1 }, pre.2 ++ r.2)

/-- `s.Sync()`: the buffer is flushed once initialized. -/
def BufferedWriteSyncer.sync (s : BufferedWriteSyncer) : BufferedWriteSyncer × List (List UInt8) :=
  if s.initialized then
    let r := s.writer.flush
    ({ s with writer := r.1 }, r.2)
  else (s, [])

/-- A tick of `flushLoop`'s ticker: a `Sync`, while the loop runs. -/
def BufferedWriteSyncer.tick (s : BufferedWriteSyncer) : BufferedWriteSyncer × List (List UInt8) :=
  if s.initialized && !s.stopped then s.sync else (s, [])

/-- What happens to a `BufferedWriteSyncer` before it is stopped. -/
inductive WsEvent where
  | write (bs : List UInt8)
  | sync
  | tick

/-- One event: the syncer after, and the calls of `WS.Write`. -/
def BufferedWriteSyncer.step (s : BufferedWriteSyncer) : WsEvent → BufferedWriteSyncer × List (List UInt8)
  | .write bs => s.write bs
  | .sync => s.sync
  | .tick => s.tick

/-- A run of events: the syncer after, and all the calls of `WS.Write`. -/
def BufferedWriteSyncer.run (s : BufferedWriteSyncer) : List WsEvent → BufferedWriteSyncer × List (List UInt8)
  | [] => (s, [])
  | e :: es =>
    let r := s.step e
    let rest := r.1.run es
    (rest.1, r.2 ++ rest.2)

/-- The payloads of the writes of a run. -/
def payloads : List WsEvent → List (List UInt8)
  | [] => []
  | .write bs :: es => bs :: payloads es
  | _ :: es => payloads es

/-! ## The invariant -/

/-- The payloads so far are the groups that the underlying writes received, each whole and in
order, then the payloads still in the buffer. -/
def Batched (ps log : List (List UInt8)) (buf : List UInt8) : Prop :=
  ∃ (groups : List (List (List UInt8))) (pending : List (List UInt8)),
    ps = groups.flatten ++ pending ∧ log = groups.map List.flatten ∧ buf = pending.flatten

section Batched

variable {ps log : List (List UInt8)}

/-- A flush sends the buffered payloads as one group. -/
theorem Batched.flush {b : Bufio.Writer} (h : Batched ps log b.buf) :
    Batched ps (log ++ b.flush.2) b.flush.1.buf := by
  obtain ⟨groups, pending, hps, hlog, hbuf⟩ := h
  unfold Bufio.Writer.flush
  split
  · exact ⟨groups, pending, hps, by simp [hlog], hbuf⟩
  · refine ⟨groups ++ [pending], [], by simp [hps], by simp [hlog, hbuf], rfl⟩

/-- **A `bufio` write that fits, or that goes to an empty buffer, keeps the payload whole**: it
joins the buffered payloads, or is sent with them (they are all empty) in one call. -/
theorem Batched.bufioWrite {b : Bufio.Writer} (h : Batched ps log b.buf) {p : List UInt8}
    (hp : p.length ≤ b.available ∨ b.buffered = 0) :
    Batched (ps ++ [p]) (log ++ (b.write p).2) (b.write p).1.buf := by
  obtain ⟨groups, pending, hps, hlog, hbuf⟩ := h
  by_cases hfit : p.length ≤ b.available
  · rw [b.write_fits hfit]
    exact ⟨groups, pending ++ [p], by simp [hps], by simp [hlog], by simp [hbuf]⟩
  · have hempty : b.buffered = 0 := hp.resolve_left hfit
    rw [b.write_direct (Nat.lt_of_not_le hfit) hempty]
    -- nothing is buffered, so the pending payloads are all empty
    have hnil : pending.flatten = [] := by
      rw [← hbuf]
      exact List.eq_nil_of_length_eq_zero hempty
    refine ⟨groups ++ [pending ++ [p]], [], by simp [hps], by simp [hlog, hnil], ?_⟩
    simpa [Bufio.Writer.buffered] using hempty

end Batched

/-- The invariant of a syncer with the payloads `ps` written and the calls `log` made: `Batched`,
and an empty buffer before initialization. -/
def BufferedWriteSyncer.Inv (s : BufferedWriteSyncer) (ps log : List (List UInt8)) : Prop :=
  Batched ps log s.writer.buf ∧ (s.initialized = false → s.writer.buf = [])

section Steps

variable {s : BufferedWriteSyncer} {ps log : List (List UInt8)}

/-- Initializing gives an empty buffer; before, it was empty already. -/
theorem BufferedWriteSyncer.Inv.initialized (h : s.Inv ps log) :
    Batched ps log (if s.initialized then s else BufferedWriteSyncer.initialize s).writer.buf := by
  cases hi : s.initialized
  · have hbuf := h.2 hi
    have hb := h.1
    rw [hbuf] at hb
    simpa [Bufio.newWriterSize, BufferedWriteSyncer.initialize] using hb
  · simpa using h.1

/-- **`Write` keeps the invariant**: after the flush it may make, `bufio` never splits. -/
theorem BufferedWriteSyncer.Inv.write (h : s.Inv ps log) (bs : List UInt8) :
    (s.write bs).1.Inv (ps ++ [bs]) (log ++ (s.write bs).2) := by
  have h₀ := h.initialized
  have hinit : (if s.initialized then s else BufferedWriteSyncer.initialize s).initialized = true := by
    cases hi : s.initialized <;> simp [hi, BufferedWriteSyncer.initialize]
  unfold BufferedWriteSyncer.write
  generalize (if s.initialized then s else BufferedWriteSyncer.initialize s) = s' at h₀ hinit ⊢
  refine ⟨?_, fun hf => absurd hinit (by simpa using hf)⟩
  dsimp only
  split
  · -- the flush empties the buffer, and `bufio` starts from it
    have h₁ := h₀.flush
    have h₂ := h₁.bufioWrite (p := bs) (.inr (by simp [Bufio.Writer.buffered]))
    simpa [List.append_assoc] using h₂
  · next hpre =>
    -- `bs` fits, or the buffer is empty
    have hp : bs.length ≤ s'.writer.available ∨ s'.writer.buffered = 0 := by omega
    simpa using h₀.bufioWrite hp

/-- **`Sync` keeps the invariant**, and so do a tick and `Stop`, which sync. -/
theorem BufferedWriteSyncer.Inv.sync (h : s.Inv ps log) : s.sync.1.Inv ps (log ++ s.sync.2) := by
  unfold BufferedWriteSyncer.sync
  split
  · next hi => exact ⟨h.1.flush, fun hf => absurd hi (by simpa using hf)⟩
  · simpa using h

theorem BufferedWriteSyncer.Inv.tick (h : s.Inv ps log) : s.tick.1.Inv ps (log ++ s.tick.2) := by
  unfold BufferedWriteSyncer.tick
  split
  · exact h.sync
  · simpa using h

theorem BufferedWriteSyncer.Inv.step (h : s.Inv ps log) (e : WsEvent) :
    (s.step e).1.Inv (ps ++ payloads [e]) (log ++ (s.step e).2) := by
  cases e with
  | write bs => exact h.write bs
  | sync => simpa [BufferedWriteSyncer.step, payloads] using h.sync
  | tick => simpa [BufferedWriteSyncer.step, payloads] using h.tick

/-- **Every run keeps the invariant.** -/
theorem BufferedWriteSyncer.Inv.run (h : s.Inv ps log) (es : List WsEvent) :
    (s.run es).1.Inv (ps ++ payloads es) (log ++ (s.run es).2) := by
  induction es generalizing s ps log with
  | nil => simpa [BufferedWriteSyncer.run, payloads] using h
  | cons e es ih =>
    have h₁ := h.step e
    have h₂ := ih h₁
    -- the payloads of `e :: es` are those of `e`, then those of `es`
    have hp : payloads (e :: es) = payloads [e] ++ payloads es := by cases e <;> rfl
    simpa [BufferedWriteSyncer.run, hp, List.append_assoc] using h₂

end Steps

theorem BufferedWriteSyncer.run_append (s : BufferedWriteSyncer) (es fs : List WsEvent) :
    s.run (es ++ fs) = (((s.run es).1.run fs).1, (s.run es).2 ++ ((s.run es).1.run fs).2) := by
  induction es generalizing s with
  | nil => simp [BufferedWriteSyncer.run]
  | cons e es ih => simp [BufferedWriteSyncer.run, ih, List.append_assoc]

end Zap.Zapcore
