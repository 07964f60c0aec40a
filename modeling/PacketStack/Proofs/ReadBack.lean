/-
What a writer puts out, taken in again by a reader.

The two share nothing but the bytes: the writer counts a length of its own and copies its chunks to offsets, the reader
moves a cursor. Each is therefore said of the bytes first. Every write adds its bytes behind those before it, and as
many to the count (`Entry.bytes_write`, `Counted.write`), and every read that finds the bytes of an entry in front of it
answers with the entry and stands behind it (`Entry.ask_read`). A run of reads then follows the run of writes, entry by
entry.
-/
import PacketStack.Bytes.Writer
import PacketStack.Proofs.Cursor

namespace PacketStack.Writer

/-- What is given to a writer in one call. -/
inductive Entry
  | uint32 (n : Int)
  | bytes (chunk : Bytes)

namespace Entry

def write (w : Writer) : Entry → Writer
  | uint32 n => w.writeUint32 (.int n)
  | bytes chunk => w.writeBytes chunk

/-- The bytes that it adds to the output. -/
def octets : Entry → Bytes
  | uint32 n => Field.octets 4 (.int n)
  | bytes chunk => chunk

/-- The call that takes it in again. -/
def read : Entry → Reader.Move
  | uint32 _ => .uint32
  | bytes chunk => .bytes chunk.length

/-- What is taken in: of a number its low 32 bits, of bytes all. -/
def answer : Entry → Reader.Piece
  | uint32 n => .number (n % 0x100000000).toNat
  | bytes chunk => .bytes chunk

end Entry

/-- A new writer after the entries, the first one first. -/
def written (entries : List Entry) : Writer := entries.foldl Entry.write {}

/-! ## Writing -/

theorem Entry.bytes_write (w : Writer) (e : Entry) : (e.write w).bytes = w.bytes ++ e.octets := by
  cases e with
  | uint32 n => exact w.bytes_writeUint32 _
  | bytes chunk => exact w.bytes_writeBytes chunk

/-- The count and the chunks go on together, by four for a word and not at all for an empty chunk. -/
theorem Counted.write {w : Writer} (counted : w.Counted) (e : Entry) : (e.write w).Counted := by
  have length : (e.write w).length = w.length + e.octets.length := by
    cases e with
    | uint32 n => rw [Entry.octets, Field.length_octets]; rfl
    | bytes chunk => exact w.length_writeBytes chunk
  rw [Counted, length, e.bytes_write, List.length_append, counted]

theorem counted_written (entries : List Entry) : (written entries).Counted := by
  have run (w : Writer) (counted : w.Counted) : (entries.foldl Entry.write w).Counted := by
    induction entries generalizing w with
    | nil => exact counted
    | cons e rest ih => exact ih _ (counted.write e)
  exact run {} rfl

theorem bytes_written (entries : List Entry) : (written entries).bytes = entries.flatMap Entry.octets := by
  have run (w : Writer) : (entries.foldl Entry.write w).bytes = w.bytes ++ entries.flatMap Entry.octets := by
    induction entries generalizing w with
    | nil => exact (List.append_nil _).symm
    | cons e rest ih => rw [List.foldl_cons, ih, e.bytes_write, List.flatMap_cons, List.append_assoc]
  exact run {}

/-! ## Reading -/

theorem toNat_octets_int (n : Int) : Bytes.toNat (Field.octets 4 (.int n)) = (n % 0x100000000).toNat := by
  have small : (n % 0x100000000).toNat < 0x100000000 := by omega
  have low : Number.lowBits 32 (.int n) = (n % 0x100000000).toNat := rfl
  rw [Field.octets, Bytes.toNat_word, low]
  exact Nat.mod_eq_of_lt small

/-- The call that takes an entry in asks for as many bytes as the entry has, and hands them out as the entry. -/
theorem Entry.asked_read (e : Entry) (left : Nat) : e.read.asked left = e.octets.length := by
  cases e with
  | uint32 n => rw [octets, Field.length_octets]; rfl
  | bytes chunk => rfl

theorem Entry.handed_read (e : Entry) : e.read.handed e.octets = e.answer := by
  cases e with
  | uint32 n => exact congrArg Reader.Piece.number (toNat_octets_int n)
  | bytes chunk => rfl

/-- **One entry**: with its bytes in front of the cursor it is taken in, and the cursor then stands behind them. -/
theorem Entry.ask_read {s : Reader.Reading} {k left : Nat} {rest : Bytes} (e : Entry) (stands : s.reader.Stands k left)
    (ahead : s.reader.bytes.drop k = e.octets ++ rest) :
    let next := s.ask (.move e.read)
    next.history = s.history ++ [(.move e.read, .ok e.answer)] ∧
    next.reader.Stands (k + e.octets.length) rest.length ∧
    next.reader.bytes.drop (k + e.octets.length) = rest := by
  have length : e.octets.length + rest.length = left := by rw [← List.length_append, ← ahead, stands.length_drop]
  have fine : ¬ e.read.Refused left := by
    rw [Reader.Move.Refused, e.asked_read]
    omega
  have performed : (Reader.Request.move e.read).perform.on s.reader = _ := e.read.on_perform stands
  rw [if_neg fine, e.asked_read, Int.toNat_natCast, ahead, List.take_left, e.handed_read] at performed
  rw [Reader.Reading.ask_of_on performed]
  refine ⟨rfl, ?_, ?_⟩
  · have behind : left - e.octets.length = rest.length := by omega
    rw [← behind]
    exact stands.advance (by omega)
  · show s.reader.bytes.drop (k + e.octets.length) = rest
    rw [← List.drop_drop, ahead, List.drop_left]

/-- **A run of entries**: with nothing but their bytes in front of the cursor all are taken in, and nothing is left. -/
theorem foldl_ask_read (entries : List Entry) {s : Reader.Reading} {k left : Nat} (stands : s.reader.Stands k left)
    (ahead : s.reader.bytes.drop k = entries.flatMap Entry.octets) :
    let last := (entries.map fun e => Reader.Request.move e.read).foldl Reader.Reading.ask s
    last.history = s.history ++ entries.map (fun e => (.move e.read, .ok e.answer)) ∧ last.reader.remaining = 0 := by
  induction entries generalizing s k left with
  | nil =>
    have length := stands.length_drop
    rw [ahead, List.flatMap_nil, List.length_nil] at length
    subst length
    exact ⟨(List.append_nil _).symm, stands.remaining⟩
  | cons e rest ih =>
    obtain ⟨answered, next, behind⟩ := e.ask_read stands ahead
    obtain ⟨history, remaining⟩ := ih next behind
    refine ⟨?_, remaining⟩
    rw [List.map_cons, List.foldl_cons, history, answered, List.map_cons, List.append_assoc, List.singleton_append]

/-- **What is written is read back.** Whatever has been written so far, the output is there, has the length that was
counted, and is continued by the next write. A reader over it, wherever it stands in a buffer, that is asked for the
same entries in order answers each with the entry's bytes or with its number modulo two to the power 32, refuses none,
and has nothing left. -/
theorem reads_back (entries : List Entry) (before behind : Bytes) :
    ∃ out : Bytes, (written entries).output? = some out ∧ (written entries).length = out.length ∧
      (∀ e : Entry, (written (entries ++ [e])).output? = some (out ++ e.octets)) ∧
      let s := Reader.Reading.after { before, bytes := out, after := behind } (entries.map fun e => .move e.read)
      s.history = entries.map (fun e => (.move e.read, .ok e.answer)) ∧ s.reader.remaining = 0 := by
  have output (entries : List Entry) : (written entries).output? = some (entries.flatMap Entry.octets) := by
    rw [output?_of_counted (counted_written entries), bytes_written]
  refine ⟨entries.flatMap Entry.octets, output entries, ?_, fun e => ?_, ?_⟩
  · rw [counted_written entries, bytes_written]
  · rw [output, List.flatMap_append, List.flatMap_singleton]
  · exact foldl_ask_read entries (k := 0) ⟨rfl, Nat.zero_add _⟩ rfl

example : (written [.uint32 (-1), .bytes [], .bytes [7]]).output? = some [0xff, 0xff, 0xff, 0xff, 7] := by decide

end PacketStack.Writer
