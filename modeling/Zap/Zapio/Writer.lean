import Zap.Go.Std
import Zap.Lib.Lines

/-!
# Zap.Zapio.Writer — `zapio.Writer` cuts a byte stream into log lines

A `Writer` keeps the partial line it has seen since the last `'\n'` in `buff`.  `Write` consumes
its input one line at a time (`writeLine`): a line that ends in `'\n'` is logged, directly when
nothing is buffered and through `flush(true)` otherwise; the bytes after the last `'\n'` are
buffered.  `Sync` and `Close` log the buffer only when it is not empty.

What `Write` logs is recorded as the list of the messages passed to `w.log`, which checks and
writes them at `w.Level` on `w.Log`; whether `w.Level` is enabled on the logger's core is the
argument `enabled`.

* `writeLine_cases`: the two things one `writeLine` can do.
* `writeLoop_spec`: the messages of `Write`, then the buffer, are the pieces of the buffer and the
  input split on `'\n'`.
* `Writer.run_lines`: any run of `Write` and `Sync` calls followed by `Close` logs the lines of
  each stretch of the stream between two `Sync`s.
* `writer_lines_of_chunks`: so the stream written in chunks is logged as its lines, however it
  is cut.
-/

namespace Zap.Zapio

open Go

/-- A `zapio.Writer`'s partial line (`buff`). -/
structure Writer where
  buff : List UInt8

/-- `w.flush(allowEmpty)`: the messages logged, and the writer after `buff.Reset()`. -/
def Writer.flush (w : Writer) (allowEmpty : Bool) : List (List UInt8) × Writer :=
  ((if allowEmpty || 0 < w.buff.length then [w.buff] else []), ⟨[]⟩)

/-- `w.writeLine(line)`: the remaining bytes, the messages logged, and the writer after. -/
def Writer.writeLine (w : Writer) (line : List UInt8) : List UInt8 × List (List UInt8) × Writer :=
  match indexByte line 0x0A with
  | none => ([], [], ⟨w.buff ++ line⟩)
  | some idx =>
    let remaining := line.drop (idx + 1)
    let line := line.take idx
    -- fast path: no partial message from a previous write
    if w.buff.length = 0 then (remaining, [line], w)
    else
      -- empty messages in the middle of the stream are logged
      let r := Writer.flush ⟨w.buff ++ line⟩ true
      (remaining, r.1, r.2)

/-- `writeLine` consumes at least one byte of a non-empty input. -/
theorem Writer.writeLine_remaining_lt (w : Writer) {line : List UInt8} (h : line ≠ []) :
    (w.writeLine line).1.length < line.length := by
  have hpos : 0 < line.length := List.length_pos_iff.mpr h
  unfold Writer.writeLine
  split
  · simpa using hpos
  · split <;> simp <;> omega

/-- The loop of `Write`: `for len(bs) > 0 { bs = w.writeLine(bs) }`. -/
def Writer.writeLoop (w : Writer) (bs : List UInt8) : List (List UInt8) × Writer :=
  if bs = [] then ([], w)
  else
    let r := w.writeLine bs
    let rest := r.2.2.writeLoop r.1
    (r.2.1 ++ rest.1, rest.2)
termination_by bs.length
decreasing_by exact Writer.writeLine_remaining_lt w ‹_›

/-- `w.Write(bs)`, with `enabled` for `w.Log.Core().Enabled(w.Level)`: the count, the messages
logged, and the writer after.  The error is always nil. -/
def Writer.write (enabled : Bool) (w : Writer) (bs : List UInt8) : Nat × List (List UInt8) × Writer :=
  if !enabled then (bs.length, [], w)
  else
    let r := w.writeLoop bs
    (bs.length, r.1, r.2)

/-- `w.Sync()`: an explicit `Sync` logs no empty message. -/
def Writer.sync (w : Writer) : List (List UInt8) × Writer := w.flush false

/-- `w.Close()`: it syncs. -/
def Writer.close (w : Writer) : List (List UInt8) × Writer := w.sync

/-- A call on a `Writer`. -/
inductive Call where
  | write (bs : List UInt8)
  | sync
  | close
  deriving DecidableEq

/-- A run of calls: the messages logged, and the writer after. -/
def Writer.run (enabled : Bool) (w : Writer) : List Call → List (List UInt8) × Writer
  | [] => ([], w)
  | .write bs :: cs =>
    let r := w.write enabled bs
    let rest := r.2.2.run enabled cs
    (r.2.1 ++ rest.1, rest.2)
  | .sync :: cs =>
    let r := w.sync
    let rest := r.2.run enabled cs
    (r.1 ++ rest.1, rest.2)
  | .close :: cs =>
    let r := w.close
    let rest := r.2.run enabled cs
    (r.1 ++ rest.1, rest.2)

/-- The stream a run writes, cut at each `Sync` and `Close`. -/
def stretches : List Call → List (List UInt8)
  | [] => [[]]
  | .write bs :: cs => (stretches cs).modifyHead (bs ++ ·)
  | .sync :: cs => [] :: stretches cs
  | .close :: cs => [] :: stretches cs

/-! ## One line at a time -/

/-- **What one `writeLine` does**: with no `'\n'` it buffers the whole input; otherwise it logs
the buffer and the input up to the first `'\n'`, empties the buffer, and leaves the rest. -/
theorem Writer.writeLine_cases (w : Writer) (bs : List UInt8) :
    (0x0A ∉ bs ∧ w.writeLine bs = ([], [], ⟨w.buff ++ bs⟩)) ∨
    ∃ l rem, bs = l ++ 0x0A :: rem ∧ 0x0A ∉ l ∧ w.writeLine bs = (rem, [w.buff ++ l], ⟨[]⟩) := by
  unfold Writer.writeLine
  split
  · next hnone => exact .inl ⟨indexByte_eq_none hnone, rfl⟩
  · next idx hsome =>
    obtain ⟨hs, hnot⟩ := indexByte_eq_some hsome
    refine .inr ⟨bs.take idx, bs.drop (idx + 1), hs, hnot, ?_⟩
    split
    · -- the fast path leaves `w` as it is, and its buffer is empty
      next hlen =>
      obtain ⟨buff⟩ := w
      obtain rfl : buff = [] := List.eq_nil_of_length_eq_zero hlen
      rfl
    · simp [Writer.flush]

theorem Writer.writeLoop_nil (w : Writer) : w.writeLoop [] = ([], w) := by
  rw [Writer.writeLoop, if_pos rfl]

theorem Writer.writeLoop_cons (w : Writer) {bs : List UInt8} (h : bs ≠ []) :
    w.writeLoop bs =
      ((w.writeLine bs).2.1 ++ ((w.writeLine bs).2.2.writeLoop (w.writeLine bs).1).1,
        ((w.writeLine bs).2.2.writeLoop (w.writeLine bs).1).2) := by
  rw [Writer.writeLoop, if_neg h]

/-- **The messages of `Write`, then the buffer left, are the pieces of the buffer and the input
split on `'\n'`**, for a buffer with no `'\n'` in it.  Induction along the loop: each
`writeLine` closes one piece, or buffers the last one. -/
theorem Writer.writeLoop_spec (w : Writer) (hw : 0x0A ∉ w.buff) (bs : List UInt8) :
    (w.writeLoop bs).1 ++ [(w.writeLoop bs).2.buff] = (w.buff ++ bs).splitOn 0x0A := by
  induction w, bs using Writer.writeLoop.induct with
  | case1 w =>
    rw [Writer.writeLoop_nil, List.append_nil, List.splitOn_eq_singleton hw]
    rfl
  | case2 w bs hne r ih =>
    rw [Writer.writeLoop_cons w hne]
    rcases Writer.writeLine_cases w bs with ⟨hnl, hline⟩ | ⟨l, rem, rfl, hl, hline⟩
    · -- no `'\n'`: everything is buffered, and the loop ends
      have hb : 0x0A ∉ w.buff ++ bs := by simp [hw, hnl]
      simp only [hline, Writer.writeLoop_nil, List.nil_append]
      rw [List.splitOn_eq_singleton hb]
    · -- the buffer and `l` make one message; the rest starts from an empty buffer
      have hrest := ih (by simp [r, hline])
      simp only [r, hline] at hrest
      simp only [hline, List.cons_append, List.nil_append] at hrest ⊢
      rw [hrest, ← List.append_assoc, List.splitOn_append_cons_self_of_not_mem (by simp [hw, hl])]

/-- The buffer left by `Write` is the open piece, with no `'\n'` in it. -/
theorem Writer.writeLoop_buff (w : Writer) (hw : 0x0A ∉ w.buff) (bs : List UInt8) :
    0x0A ∉ (w.writeLoop bs).2.buff :=
  List.not_mem_of_mem_splitOn (by rw [← w.writeLoop_spec hw bs]; simp)

/-! ## Runs -/

/-- `Sync` logs the buffer as a line of its own, unless it is empty. -/
theorem Writer.sync_lines (w : Writer) (hw : 0x0A ∉ w.buff) :
    w.sync = (List.lines 0x0A w.buff, ⟨[]⟩) := by
  rw [List.lines_of_not_mem hw]
  cases h : w.buff <;> simp [Writer.sync, Writer.flush, h]

theorem stretches_ne_nil (cs : List Call) : stretches cs ≠ [] := by
  cases cs with
  | nil => simp [stretches]
  | cons c cs =>
    cases c with
    | write bs => simpa [stretches] using stretches_ne_nil cs
    | sync => simp [stretches]
    | close => simp [stretches]

/-- **A run of `Write`, `Sync` and `Close` calls, then `Close`, logs the lines of each stretch of
the stream between two `Sync`s or `Close`s**, the first stretch continuing the buffer.  Induction
on the calls, with the buffer free of `'\n'` as the invariant: a `Write` closes the pieces of the
buffer and its input (`writeLoop_spec`), a `Sync` closes the buffer. -/
theorem Writer.run_lines (w : Writer) (hw : 0x0A ∉ w.buff) (cs : List Call) :
    (w.run true cs).1 ++ (w.run true cs).2.close.1 =
      ((stretches cs).modifyHead (w.buff ++ ·)).flatMap (List.lines 0x0A) := by
  induction cs generalizing w with
  | nil => simp [Writer.run, stretches, Writer.close, w.sync_lines hw]
  | cons c cs ih =>
    obtain ⟨s₀, S, hS⟩ := List.exists_cons_of_ne_nil (stretches_ne_nil cs)
    cases c with
    | write bs =>
      -- the closed pieces of the buffer and `bs`, then the rest from the open piece
      have hw' := w.writeLoop_buff hw bs
      have hsplit : (w.buff ++ bs).splitOn 0x0A = (w.writeLoop bs).1 ++ [(w.writeLoop bs).2.buff] :=
        (w.writeLoop_spec hw bs).symm
      have hrest := ih _ hw'
      rw [hS, List.modifyHead_cons, List.flatMap_cons] at hrest
      simp only [Writer.run, Writer.write, Bool.not_true, Bool.false_eq_true, if_false, stretches, hS,
        List.modifyHead_cons, List.flatMap_cons, List.append_assoc, hrest]
      rw [← List.append_assoc w.buff, List.lines_append_of_eq_concat hsplit, List.append_assoc]
    | sync =>
      -- the buffer is closed, and the rest starts from an empty one
      have hrest := ih ⟨[]⟩ (by simp)
      rw [hS, List.modifyHead_cons, List.nil_append] at hrest
      simp only [Writer.run, w.sync_lines hw, stretches, List.modifyHead_cons, List.flatMap_cons,
        List.append_nil, List.append_assoc, hrest, hS]
    | close =>
      have hrest := ih ⟨[]⟩ (by simp)
      rw [hS, List.modifyHead_cons, List.nil_append] at hrest
      simp only [Writer.run]
      rw [show w.close = w.sync from rfl]
      simp only [w.sync_lines hw, stretches, List.modifyHead_cons, List.flatMap_cons,
        List.append_nil, List.append_assoc, hrest, hS]

theorem Writer.run_append (enabled : Bool) (w : Writer) (cs ds : List Call) :
    w.run enabled (cs ++ ds) = ((w.run enabled cs).1 ++ ((w.run enabled cs).2.run enabled ds).1,
      ((w.run enabled cs).2.run enabled ds).2) := by
  induction cs generalizing w with
  | nil => simp [Writer.run]
  | cons c cs ih => cases c <;> simp [Writer.run, ih, List.append_assoc]

/-- Writes in a row write one stretch: their concatenation. -/
theorem stretches_writes (chunks : List (List UInt8)) (cs : List Call) :
    stretches (chunks.map .write ++ cs) = (stretches cs).modifyHead (chunks.flatten ++ ·) := by
  obtain ⟨s₀, S, hS⟩ := List.exists_cons_of_ne_nil (stretches_ne_nil cs)
  induction chunks with
  | nil => simp [hS]
  | cons bs chunks ih => simp [stretches, ih, hS, List.append_assoc]

/-- After `Close` the buffer is empty. -/
theorem Writer.run_close_buff (enabled : Bool) (w : Writer) (cs : List Call) :
    (w.run enabled (cs ++ [Call.close])).2.buff = [] := by
  rw [Writer.run_append]
  rfl

/-- **`zapio.Writer` logs the lines of its stream, however it is cut into writes.**  Writes of
`chunks` followed by `Close` log the segments of their concatenation between `'\n'`s, the last
left out when it is empty; so they log what one write of the whole stream logs; and a `Sync`
between two runs of writes cuts the stream there, logging the pending partial line iff it is not
empty. -/
theorem writer_lines_of_chunks (chunks chunks' : List (List UInt8)) :
    ((⟨[]⟩ : Writer).run true (chunks.map .write ++ [.close])).1 = List.lines 0x0A chunks.flatten ∧
    ((⟨[]⟩ : Writer).run true (chunks.map .write ++ [.close])).1 =
      ((⟨[]⟩ : Writer).run true [.write chunks.flatten, .close]).1 ∧
    ((⟨[]⟩ : Writer).run true (chunks.map .write ++ .sync :: chunks'.map .write ++ [.close])).1 =
      List.lines 0x0A chunks.flatten ++ List.lines 0x0A chunks'.flatten := by
  -- a run ending in `Close` logs nothing more at a second `Close`
  have hrun : ∀ cs : List Call, ((⟨[]⟩ : Writer).run true (cs ++ [Call.close])).1 =
      (stretches (cs ++ [Call.close])).flatMap (List.lines 0x0A) := by
    intro cs
    have h := Writer.run_lines ⟨[]⟩ (by simp) (cs ++ [Call.close])
    have hbuff := Writer.run_close_buff true ⟨[]⟩ cs
    have hclose : ((⟨[]⟩ : Writer).run true (cs ++ [Call.close])).2.close.1 = [] := by
      rw [Writer.close, Writer.sync_lines _ (by simp [hbuff]), hbuff]
      rfl
    have hid : ∀ l : List (List UInt8), l.modifyHead (fun x => x) = l := by
      intro l
      cases l <;> rfl
    simp only [hclose, List.append_nil, List.nil_append, hid] at h
    exact h
  have hnil : List.lines 0x0A ([] : List UInt8) = [] := by simp [List.lines]
  have hone : ∀ xs : List (List UInt8), ((⟨[]⟩ : Writer).run true (xs.map Call.write ++ [Call.close])).1 =
      List.lines 0x0A xs.flatten := by
    intro xs
    rw [hrun, stretches_writes]
    simp [stretches, hnil]
  refine ⟨hone chunks, ?_, ?_⟩
  · -- the whole stream as one chunk
    rw [hone chunks]
    simpa using (hone [chunks.flatten]).symm
  · have hcs : chunks.map Call.write ++ Call.sync :: chunks'.map Call.write ++ [Call.close] =
        (chunks.map Call.write ++ Call.sync :: chunks'.map Call.write) ++ [Call.close] := by simp
    rw [hcs, hrun, List.append_assoc, stretches_writes]
    simp [stretches, stretches_writes, hnil]

end Zap.Zapio
