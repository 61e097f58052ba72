import Mathlib.Data.List.Basic

/-!
# Zap.Go.Bufio — `bufio.Writer` over a writer that takes every write whole

`bufio.Writer` holds up to `size` bytes.  `Write(p)` copies `p` when it fits the free space;
otherwise it writes `p` straight to the underlying writer when nothing is buffered, and else fills
the buffer, flushes it and goes on with the rest.  The underlying writer here accepts every write
whole and without error, so `b.err` stays nil and its branches are never taken; the calls it
receives are returned as a list.

* `Writer.write_fits`, `Writer.write_direct`: the two branches of `Write` that keep `p` whole.
* `Writer.flush_buf`: after `Flush` the buffer is empty.
-/

namespace Go.Bufio

/-- A `bufio.Writer`: the length of its buffer (`len(b.buf)`), and the bytes it holds
(`b.buf[:b.n]`). -/
structure Writer where
  size : Nat
  buf : List UInt8

/-- `defaultBufSize` -/
def defaultBufSize : Nat := 4096

/-- `bufio.NewWriterSize(w, size)`: a size of `0` gets `defaultBufSize`. -/
def newWriterSize (size : Nat) : Writer := ⟨if size = 0 then defaultBufSize else size, []⟩

/-- `b.Available()` -/
def Writer.available (b : Writer) : Nat := b.size - b.buf.length

/-- `b.Buffered()` -/
def Writer.buffered (b : Writer) : Nat := b.buf.length

/-- `b.Flush()`: the writer after, and the underlying writes. -/
def Writer.flush (b : Writer) : Writer × List (List UInt8) :=
  if b.buf.length = 0 then (b, []) else (⟨b.size, []⟩, [b.buf])

@[simp] theorem Writer.flush_buf (b : Writer) : b.flush.1.buf = [] := by
  unfold Writer.flush
  split
  · next h => exact List.eq_nil_of_length_eq_zero h
  · rfl

@[simp] theorem Writer.flush_size (b : Writer) : b.flush.1.size = b.size := by
  unfold Writer.flush
  split <;> rfl

/-- `b.Write(p)`: the writer after, and the underlying writes.  The count is `len(p)`. -/
def Writer.write (b : Writer) (p : List UInt8) : Writer × List (List UInt8) :=
  if b.available < p.length then
    if b.buffered = 0 then
      -- large write, empty buffer: straight to the underlying writer, which takes all of `p`
      (b, [p])
    else
      -- fill the buffer, flush it, and go on with the rest
      let n := b.available
      let r := (⟨b.size, b.buf ++ p.take n⟩ : Writer).flush
      let rest := r.1.write (p.drop n)
      (rest.1, r.2 ++ rest.2)
  else (⟨b.size, b.buf ++ p⟩, [])
termination_by p.length + b.buf.length
decreasing_by
  simp only [Writer.flush_buf, List.length_nil, List.length_drop, Nat.add_zero]
  simp only [Writer.buffered] at *
  omega

/-- **A write that fits the free space is copied whole.** -/
theorem Writer.write_fits (b : Writer) {p : List UInt8} (h : p.length ≤ b.available) :
    b.write p = (⟨b.size, b.buf ++ p⟩, []) := by
  rw [Writer.write, if_neg (Nat.not_lt.mpr h)]

/-- **A larger write into an empty buffer goes to the underlying writer in one call.** -/
theorem Writer.write_direct (b : Writer) {p : List UInt8} (h : b.available < p.length)
    (hb : b.buffered = 0) : b.write p = (b, [p]) := by
  rw [Writer.write, if_pos h, if_pos hb]

end Go.Bufio
