/-
Accumulates words and byte strings. The length is counted as the chunks come, and empty chunks are not kept.

The output is a buffer of the counted length, into which the chunks are copied one behind the other. Nothing in the type
says that the count and the chunks agree, so the copying may find that a chunk does not fit, or leave zeros behind the
last one; where they do agree the output is the chunks themselves (`output?_of_counted`).
-/
import PacketStack.Field

namespace PacketStack

namespace Bytes

/-- A buffer with a chunk copied over it from an offset on, if the chunk ends within the buffer. -/
def overwritten? (buffer : Bytes) (offset : Nat) (chunk : Bytes) : Option Bytes :=
  if buffer.length < offset + chunk.length then none
  else some (buffer.take offset ++ (chunk ++ buffer.drop (offset + chunk.length)))

/-- Copies chunks over a buffer, each where the one before it ended. -/
def filled? (buffer : Bytes) (offset : Nat) : List Bytes → Option Bytes
  | [] => some buffer
  | chunk :: rest => do
    let buffer ← buffer.overwritten? offset chunk
    buffer.filled? (offset + chunk.length) rest

theorem overwritten?_behind (front chunk blank : Bytes) (fits : chunk.length ≤ blank.length) :
    (front ++ blank).overwritten? front.length chunk = some (front ++ chunk ++ blank.drop chunk.length) := by
  have inside : ¬ (front ++ blank).length < front.length + chunk.length := by
    rw [List.length_append]
    omega
  rw [overwritten?, if_neg inside, List.take_left, List.drop_length_add_append, List.append_assoc]

/-- Chunks that together are as long as what is left of a buffer take its place. -/
theorem filled?_behind (front blank : Bytes) (chunks : List Bytes) (fits : blank.length = chunks.flatten.length) :
    (front ++ blank).filled? front.length chunks = some (front ++ chunks.flatten) := by
  induction chunks generalizing front blank with
  | nil =>
    obtain rfl : blank = [] := List.eq_nil_of_length_eq_zero fits
    rfl
  | cons chunk rest ih =>
    rw [List.flatten_cons, List.length_append] at fits
    have left : (blank.drop chunk.length).length = rest.flatten.length := by
      rw [List.length_drop]
      omega
    have next := ih (front ++ chunk) (blank.drop chunk.length) left
    rw [List.length_append] at next
    rw [filled?, overwritten?_behind _ _ _ (by omega), Option.bind_eq_bind, Option.bind_some, next, List.flatten_cons,
      List.append_assoc]

end Bytes

structure Writer where
  chunks : List Bytes := []
  length : Nat := 0
  deriving DecidableEq

namespace Writer

/-- What has been written. -/
def bytes (w : Writer) : Bytes := w.chunks.flatten

/-- The chunks copied into a buffer of the counted length. -/
def output? (w : Writer) : Option Bytes := (Bytes.zeros w.length).filled? 0 w.chunks

/-- Writes the low 32 bits of a number. -/
def writeUint32 (w : Writer) (x : Number) : Writer := ⟨w.chunks ++ [Field.octets 4 x], w.length + 4⟩

def writeBytes (w : Writer) (chunk : Bytes) : Writer :=
  if chunk.isEmpty then w else ⟨w.chunks ++ [chunk], w.length + chunk.length⟩

theorem bytes_writeUint32 (w : Writer) (x : Number) : (w.writeUint32 x).bytes = w.bytes ++ Field.octets 4 x := by
  simp only [bytes, writeUint32, List.flatten_append, List.flatten_singleton]

theorem bytes_writeBytes (w : Writer) (chunk : Bytes) : (w.writeBytes chunk).bytes = w.bytes ++ chunk := by
  unfold writeBytes
  split
  · next h => rw [List.isEmpty_iff.mp h, List.append_nil]
  · simp only [bytes, List.flatten_append, List.flatten_singleton]

/-- A chunk counts for as many bytes as it has, also if it is empty and not kept. -/
theorem length_writeBytes (w : Writer) (chunk : Bytes) : (w.writeBytes chunk).length = w.length + chunk.length := by
  unfold writeBytes
  split
  · next empty => rw [List.isEmpty_iff.mp empty, List.length_nil, Nat.add_zero]
  · rfl

/-- As many bytes have been counted as are kept. -/
def Counted (w : Writer) : Prop := w.length = w.bytes.length

theorem output?_of_counted {w : Writer} (counted : w.Counted) : w.output? = some w.bytes := by
  have fits : (Bytes.zeros w.length).length = w.chunks.flatten.length := List.length_replicate.trans counted
  exact Bytes.filled?_behind [] (Bytes.zeros w.length) w.chunks fits

end Writer
end PacketStack
