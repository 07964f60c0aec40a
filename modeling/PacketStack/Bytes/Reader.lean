/-
A cursor over a view of a byte string. A call on a reader may fail, and hands the reader back either way: what a failing
one leaves behind is settled by what it checks before the cursor is moved.

Counts are numbers and not only integers. While they are integers, so is the position, and what is read is
what the view holds there (`ahead_int`, `at?_nat`, `words_int`). A slice takes the whole part of each of its edges,
and a byte is only read where the cursor stands at one. A word is read from the buffer around the view: it
begins at the whole part of what the position comes to when counted from the front of the buffer. That sum is
rounded, so a position just below a byte may come to the byte itself.
-/
import PacketStack.Fault
import PacketStack.Number.Rounding

namespace PacketStack

namespace Bytes

/-- Where an edge of a slice falls in a string of `length` bytes: counted from its end, if below zero. -/
def edge (length : Nat) (x : Number) : Nat :=
  match x with
  | .infinity negative => if negative then 0 else length
  | x => (if x.whole < 0 then x.whole + length else x.whole).toNat

/-- The bytes from one edge to another, none if they are crossed. -/
def slice (bytes : Bytes) (start stop : Number) : Bytes :=
  (bytes.take (edge bytes.length stop)).drop (edge bytes.length start)

/-- The byte at a place, if there is one. -/
def at? (bytes : Bytes) (place : Number) : Option UInt8 :=
  match place.natural? with
  | some k => bytes[k]?
  | none => none

theorem edge_nat (length n : Nat) : edge length (n : Number) = n := by
  have positive : ¬ (n : Int) < 0 := by omega
  simp [edge, Number.whole, positive]

theorem at?_nat (bytes : Bytes) (k : Nat) : bytes.at? (k : Number) = bytes[k]? := rfl

end Bytes

/-- A view of a buffer, with the bytes of the buffer on either side of it. -/
structure Reader where
  before : Bytes := []
  bytes : Bytes
  after : Bytes := []
  position : Number := 0
  deriving DecidableEq

namespace Reader

/-- A reader of the bytes of a buffer from one edge to another. -/
def ofSlice (buffer : Bytes) (start stop : Number) : Reader :=
  let first := Bytes.edge buffer.length start
  { before := buffer.take first
    bytes := buffer.slice start stop
    after := buffer.drop (max first (Bytes.edge buffer.length stop)) }

def buffer (r : Reader) : Bytes := r.before ++ (r.bytes ++ r.after)

/-- The sum of two distances. Whole ones are added exactly. -/
def span (x y : Number) : Number :=
  match x, y with
  | .int a, .int b => .int (a + b)
  | x, y => x + y

/-- The reader with its cursor moved on. -/
def advance (r : Reader) (count : Number) : Reader := { r with position := span r.position count }

def remaining (r : Reader) : Number := span r.bytes.length r.position.negated

/-- The bytes from the cursor up to `count` further on. -/
def ahead (r : Reader) (count : Number) : Bytes := r.bytes.slice r.position (span r.position count)

/-- What a word at the cursor is read from. A position that is no number comes to the front of the buffer. -/
def words (r : Reader) : Bytes := r.buffer.drop (span r.before.length r.position).whole.toNat

/-- A call on a reader. -/
abbrev Call (α : Type) := ExceptT Fault (StateM Reader) α

/-- What a call on this reader answers, and the reader after it. -/
def Call.on {α : Type} (call : Call α) (r : Reader) : Except Fault α × Reader := StateT.run call.run r

def require (count : Number) : Call Unit := do
  let r ← get
  if r.remaining.lt count then throw (.insufficient count r.remaining) else return

/-- The next bytes, without moving. A negative count is not refused. -/
def peek (count : Number) : Call Bytes := do
  require count
  let r ← get
  return r.ahead count

def readBytes (count : Number) : Call Bytes :=
  if count.lt 0 then throw (.negativeRead count)
  else do
    require count
    let r ← get
    set (r.advance count)
    return r.ahead count

def skip (count : Number) : Call Unit :=
  if count.lt 0 then throw (.negativeSkip count)
  else do
    require count
    modify (·.advance count)

/-- A big-endian word of `size` bytes. -/
def readWord (size : Nat) : Call Nat := do
  require size
  let r ← get
  if r.words.length < size then throw (.wordOutside size)
  else do
    set (r.advance size)
    return Bytes.toNat (r.words.take size)

def readUint8 : Call Nat := do
  require 1
  let r ← get
  match r.bytes.at? r.position with
  | some b => do
    set (r.advance 1)
    return b.toNat
  | none => throw .betweenBytes

def readUint16 : Call Nat := readWord 2

def readUint32 : Call Nat := readWord 4

/-- All that is left, which cannot fail. -/
def readRemaining : Call Bytes := do
  let r ← get
  set { r with position := (r.bytes.length : Number) }
  return r.bytes.slice r.position r.bytes.length

/-! ## Calls one after the other -/

namespace Call

variable {α β : Type}

theorem on_pure (a : α) (r : Reader) : (pure a : Call α).on r = (.ok a, r) := rfl

theorem on_throw (f : Fault) (r : Reader) : (throw f : Call α).on r = (.error f, r) := rfl

/-- What follows sees the answer and the reader after it. After a fault nothing follows. -/
theorem on_bind (call : Call α) (next : α → Call β) (r : Reader) :
    (call >>= next).on r = match call.on r with
      | (.ok a, r') => (next a).on r'
      | (.error f, r') => (.error f, r') := by
  have follows : (call >>= next).on r = StateT.run (ExceptT.bindCont next (call.on r).1) (call.on r).2 := rfl
  rw [follows]
  obtain ⟨answer, r'⟩ := call.on r
  cases answer with
  | ok a => rfl
  | error f => rfl

theorem on_get_bind (next : Reader → Call β) (r : Reader) : (get >>= next : Call β).on r = (next r).on r := rfl

theorem on_set_bind (r' : Reader) (next : PUnit → Call β) (r : Reader) :
    (set r' >>= next : Call β).on r = (next ⟨⟩).on r' := rfl

theorem on_modify (change : Reader → Reader) (r : Reader) : (modify change : Call PUnit).on r = (.ok ⟨⟩, change r) := rfl

theorem on_map (f : α → β) (call : Call α) (r : Reader) :
    (f <$> call).on r = ((call.on r).1.map f, (call.on r).2) := by
  have follows : (f <$> call).on r = (call >>= fun a => pure (f a)).on r := by rw [map_eq_pure_bind]
  rw [follows, on_bind]
  obtain ⟨answer, r'⟩ := call.on r
  cases answer with
  | ok a => rfl
  | error f => rfl

end Call

theorem on_require_bind {α : Type} (count : Number) (next : Unit → Call α) (r : Reader) :
    (require count >>= next).on r =
      if r.remaining.lt count then (.error (.insufficient count r.remaining), r) else (next ()).on r := by
  rw [Call.on_bind, require, Call.on_get_bind]
  by_cases short : r.remaining.lt count = true
  · rw [if_pos short, if_pos short, Call.on_throw]
  · rw [if_neg short, if_neg short, Call.on_pure]

/-! ## A cursor at a byte -/

section
variable {r : Reader} {k : Nat}

theorem remaining_int (here : r.position = (k : Number)) : r.remaining = .int (r.bytes.length - k) := by
  rw [remaining, here]; rfl

theorem advance_int (here : r.position = (k : Number)) (n : Nat) :
    r.advance n = { r with position := (k + n : Nat) } := by
  rw [advance, here]; rfl

theorem ahead_int (here : r.position = (k : Number)) (n : Nat) : r.ahead n = (r.bytes.drop k).take n := by
  have stop : span (k : Number) n = ((k + n : Nat) : Number) := rfl
  rw [ahead, here, stop, Bytes.slice, Bytes.edge_nat, Bytes.edge_nat, List.drop_take, Nat.add_sub_cancel_left]

theorem words_int (here : r.position = (k : Number)) (inside : k ≤ r.bytes.length) :
    r.words = r.bytes.drop k ++ r.after := by
  have place : (span r.before.length r.position).whole.toNat = r.before.length + k := by
    rw [here]
    exact Int.toNat_natCast (r.before.length + k)
  rw [words, place, buffer, List.drop_length_add_append, List.drop_append_of_le_length inside]

end

end Reader
end PacketStack
