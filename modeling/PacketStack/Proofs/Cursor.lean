/-
A reader in use.

While the counts are integers, a reader is a plain cursor: a place in its view, from which each move takes as many bytes
as it asks for, or is refused and takes none (`Move.on_perform`). The reader comes back from a refused move as well, and
that it is where it was is due to the order of things: whatever is checked is checked before the cursor moves. That is
settled for one move; for a run of them, what has been taken so far is the front of the view up to the cursor, cut into
the pieces that the moves were answered with (`Reading.Tracks`, kept by every request). What lies around the view in its
buffer plays no part, although words are read from there.

Looking ahead is not refused for a negative count, as reading is: there the end of what is looked at may come to be
counted from the end of the view (`peek_agrees_iff`).
-/
import Mathlib.Data.List.Forall2
import PacketStack.Bytes.Reader

namespace PacketStack.Reader

/-- A call that can move the cursor on. -/
inductive Move
  | uint8
  | uint16
  | uint32
  | bytes (count : Int)
  | skip (count : Int)
  /-- All that is left. -/
  | rest

/-- What a caller gets back. -/
inductive Piece
  | number (n : Nat)
  | bytes (bytes : Bytes)
  | nothing

namespace Move

def perform : Move → Call Piece
  | uint8 => .number <$> readUint8
  | uint16 => .number <$> readUint16
  | uint32 => .number <$> readUint32
  | bytes count => .bytes <$> readBytes (.int count)
  | skip count => (fun _ => .nothing) <$> Reader.skip (.int count)
  | rest => .bytes <$> readRemaining

/-- How many bytes the move asks for where `left` are left. -/
def asked (left : Nat) : Move → Int
  | uint8 => 1
  | uint16 => 2
  | uint32 => 4
  | bytes count => count
  | skip count => count
  | rest => left

/-- The move asks for less than nothing, or for more than is left. -/
def Refused (left : Nat) (m : Move) : Prop := m.asked left < 0 ∨ left < m.asked left

instance (left : Nat) (m : Move) : Decidable (m.Refused left) := inferInstanceAs (Decidable (_ ∨ _))

/-- What is wrong with a refused move. -/
def refusal (left : Nat) (m : Move) : Fault :=
  if m.asked left < 0 then
    match m with
    | skip count => .negativeSkip (.int count)
    | m => .negativeRead (.int (m.asked left))
  else .insufficient (.int (m.asked left)) (.int left)

/-- What the bytes that it takes are handed out as. -/
def handed (taken : Bytes) : Move → Piece
  | uint8 | uint16 | uint32 => .number (Bytes.toNat taken)
  | bytes _ | rest => .bytes taken
  | skip _ => .nothing

end Move

/-- A move, or a look ahead. -/
inductive Request
  | move (m : Move)
  | peek (count : Int)

namespace Request

def perform : Request → Call Piece
  | move m => m.perform
  | peek count => .bytes <$> Reader.peek (.int count)

/-- Whether an answer to the request fits the bytes that the cursor went over. -/
def Fits : Request → Except Fault Piece → Bytes → Prop
  | move m, .ok piece, taken => m.asked taken.length = taken.length ∧ piece = m.handed taken
  | _, _, taken => taken = []

end Request

/-- A reader, and what has been asked of it so far. -/
structure Reading where
  reader : Reader
  /-- The requests and their answers, the first one first. -/
  history : List (Request × Except Fault Piece) := []

namespace Reading

/-- One more request. The next one finds the reader as this one leaves it, failing or not. -/
def ask (s : Reading) (q : Request) : Reading :=
  let (answer, reader) := q.perform.on s.reader
  ⟨reader, s.history ++ [(q, answer)]⟩

/-- Requests to a reader, one after the other. -/
def after (r : Reader) (requests : List Request) : Reading := requests.foldl ask { reader := r }

end Reading

/-! ## One move -/

/-- The cursor stands `k` bytes into the view, with `left` bytes left. -/
structure Stands (r : Reader) (k left : Nat) : Prop where
  here : r.position = (k : Number)
  total : k + left = r.bytes.length

section
variable {r : Reader} {k left : Nat}

theorem Stands.length_drop (stands : r.Stands k left) : (r.bytes.drop k).length = left := by
  have total := stands.total
  rw [List.length_drop]
  omega

theorem Stands.remaining (stands : r.Stands k left) : r.remaining = (left : Number) := by
  have total := stands.total
  have difference : (r.bytes.length : Int) - k = left := by omega
  rw [remaining_int stands.here, difference]

/-- More than is left is refused, and nothing has been done by then. -/
theorem Stands.on_require_bind {α : Type} (stands : r.Stands k left) (n : Int) (next : Unit → Call α) :
    (require (.int n) >>= next).on r =
      if left < n then (.error (.insufficient (.int n) (.int left)), r) else (next ()).on r := by
  rw [Reader.on_require_bind, stands.remaining, Number.lt_int]
  simp only [decide_eq_true_eq]

theorem Stands.advance (stands : r.Stands k left) {n : Nat} (enough : n ≤ left) :
    (r.advance n).Stands (k + n) (left - n) := by
  have total := stands.total
  rw [advance_int stands.here]
  exact ⟨rfl, by simp only; omega⟩

/-- A word at a byte of the view lies in the view, or is refused. -/
theorem Stands.on_readWord (stands : r.Stands k left) (size : Nat) :
    (readWord size).on r =
      if (left : Int) < size then (.error (.insufficient (.int size) (.int left)), r)
      else (.ok (Bytes.toNat ((r.bytes.drop k).take size)), r.advance size) := by
  rw [readWord, stands.on_require_bind, Call.on_get_bind]
  by_cases beyond : (left : Int) < size
  · rw [if_pos beyond, if_pos beyond]
  · have total := stands.total
    have words : r.words = r.bytes.drop k ++ r.after := words_int stands.here (by omega)
    have enough : size ≤ (r.bytes.drop k).length := by rw [stands.length_drop]; omega
    have fits : ¬ r.words.length < size := by rw [words, List.length_append]; omega
    rw [if_neg beyond, if_neg beyond, if_neg fits, Call.on_set_bind, Call.on_pure, words,
      List.take_append_of_le_length enough]

/-- A byte is a word of its own, though it is read from the view itself. -/
theorem Stands.on_readUint8 (stands : r.Stands k left) : readUint8.on r = (readWord 1).on r := by
  have one : (1 : Number) = .int (1 : Nat) := rfl
  rw [stands.on_readWord, readUint8, one, stands.on_require_bind, Call.on_get_bind, stands.here, Bytes.at?_nat]
  by_cases beyond : (left : Int) < (1 : Nat)
  · rw [if_pos beyond, if_pos beyond]
  · have total := stands.total
    have inside : k < r.bytes.length := by omega
    have single : (r.bytes.drop k).take 1 = [r.bytes[k]] := by rw [List.drop_eq_getElem_cons inside]; rfl
    rw [if_neg beyond, if_neg beyond, List.getElem?_eq_getElem inside, single, Bytes.toNat_one]
    rfl

/-- A count is refused below nothing, in words of the call's own, and beyond what is left, before the call does
anything. -/
theorem Stands.on_counted {α : Type} (stands : r.Stands k left) (n : Int) (negative : Fault) (call : Call α) :
    (if (Number.int n).lt 0 then throw negative else do require (.int n); call : Call α).on r =
      if n < 0 then (.error negative, r)
      else if left < n then (.error (.insufficient (.int n) (.int left)), r)
      else call.on r := by
  have zero : (0 : Number) = .int 0 := rfl
  rw [zero, Number.lt_int]
  by_cases below : n < 0
  · rw [if_pos (decide_eq_true below), if_pos below, Call.on_throw]
  · rw [if_neg (by simpa using below), if_neg below, stands.on_require_bind]

theorem Stands.on_readBytes (stands : r.Stands k left) (n : Int) :
    (readBytes (.int n)).on r =
      if n < 0 then (.error (.negativeRead (.int n)), r)
      else if left < n then (.error (.insufficient (.int n) (.int left)), r)
      else (.ok ((r.bytes.drop k).take n.toNat), r.advance n.toNat) := by
  rw [readBytes, stands.on_counted, Call.on_get_bind, Call.on_set_bind, Call.on_pure]
  by_cases negative : n < 0
  · rw [if_pos negative, if_pos negative]
  · obtain ⟨m, rfl⟩ := Int.eq_ofNat_of_zero_le (Int.not_lt.mp negative)
    rw [ahead_int stands.here]
    rfl

theorem Stands.on_skip (stands : r.Stands k left) (n : Int) :
    (Reader.skip (.int n)).on r =
      if n < 0 then (.error (.negativeSkip (.int n)), r)
      else if left < n then (.error (.insufficient (.int n) (.int left)), r)
      else (.ok (), r.advance n.toNat) := by
  rw [Reader.skip, stands.on_counted, Call.on_modify]
  by_cases negative : n < 0
  · rw [if_pos negative, if_pos negative]
  · obtain ⟨m, rfl⟩ := Int.eq_ofNat_of_zero_le (Int.not_lt.mp negative)
    rfl

theorem Stands.on_readRemaining (stands : r.Stands k left) :
    readRemaining.on r = (.ok (r.bytes.drop k), r.advance left) := by
  have total := stands.total
  rw [readRemaining, Call.on_get_bind, Call.on_set_bind, Call.on_pure, advance_int stands.here, stands.here, total,
    Bytes.slice, Bytes.edge_nat, Bytes.edge_nat, List.take_length]

/-- A call that is refused below nothing, in the move's own words, and beyond what is left is refused where the move is. -/
theorem Move.on_map_counted {α : Type} {m : Move} {call : Call α} {count : Int} {negative : Fault} {a : α} {r' : Reader}
    (piece : α → Piece) (asks : m.asked left = count) (words : count < 0 → m.refusal left = negative)
    (answers : call.on r =
      if count < 0 then (.error negative, r)
      else if left < count then (.error (.insufficient (.int count) (.int left)), r)
      else (.ok a, r')) :
    (piece <$> call).on r = if m.Refused left then (.error (m.refusal left), r) else (.ok (piece a), r') := by
  rw [Call.on_map, answers]
  by_cases below : count < 0
  · rw [if_pos below, if_pos (.inl (asks ▸ below)), words below]
    rfl
  · by_cases beyond : (left : Int) < count
    · have refused : m.refusal left = .insufficient (.int count) (.int left) := by
        unfold refusal
        rw [asks, if_neg below]
      rw [if_neg below, if_pos beyond, if_pos (.inr (asks ▸ beyond)), refused]
      rfl
    · have fine : ¬ m.Refused left := by rw [Refused, asks]; omega
      rw [if_neg below, if_neg beyond, if_neg fine]
      rfl

/-- **One move**: it is refused for asking for less than nothing or for more than is left, and then the reader is where it
was; else it takes what it asks for from where the cursor stands. -/
theorem Move.on_perform (stands : r.Stands k left) (m : Move) :
    m.perform.on r =
      if m.Refused left then (.error (m.refusal left), r)
      else (.ok (m.handed ((r.bytes.drop k).take (m.asked left).toNat)), r.advance (m.asked left).toNat) := by
  have word {m : Move} (size : Nat) (asks : m.asked left = size)
      (hands : ∀ taken, m.handed taken = .number (Bytes.toNat taken)) :
      (Piece.number <$> readWord size).on r =
        if m.Refused left then (.error (m.refusal left), r)
        else (.ok (m.handed ((r.bytes.drop k).take (m.asked left).toNat)), r.advance (m.asked left).toNat) := by
    have natural : ¬ (size : Int) < 0 := by omega
    rw [hands, asks, Int.toNat_natCast]
    exact on_map_counted .number asks (fun _ => rfl)
      ((stands.on_readWord size).trans (if_neg natural).symm)
  cases m with
  | uint8 =>
    have same : (Piece.number <$> readUint8).on r = (Piece.number <$> readWord 1).on r := by
      rw [Call.on_map, Call.on_map, stands.on_readUint8]
    rw [perform, same]
    exact word 1 rfl fun _ => rfl
  | uint16 => exact word 2 rfl fun _ => rfl
  | uint32 => exact word 4 rfl fun _ => rfl
  | bytes count => exact on_map_counted .bytes rfl (fun below => if_pos below) (stands.on_readBytes count)
  | skip count => exact on_map_counted (fun _ => .nothing) rfl (fun below => if_pos below) (stands.on_skip count)
  | rest =>
    have all : (r.bytes.drop k).take left = r.bytes.drop k := List.take_of_length_le (Nat.le_of_eq stands.length_drop)
    have fine : ¬ Refused left rest := by simp [Refused, asked]
    rw [perform, Call.on_map, stands.on_readRemaining, if_neg fine]
    simp [Except.map, asked, handed, all]

theorem Move.faultClass_refusal (left : Nat) (m : Move) : (m.refusal left).faultClass = .malformedInput := by
  unfold refusal
  split
  · cases m <;> rfl
  · rfl

/-- What a move that is not refused asks for is a number of bytes, and there are as many. -/
theorem Move.asked_of_not_refused {m : Move} (fine : ¬ m.Refused left) : ∃ n : Nat, m.asked left = n ∧ n ≤ left := by
  simp only [Refused, not_or, Int.not_lt] at fine
  obtain ⟨n, asks⟩ := Int.eq_ofNat_of_zero_le fine.1
  exact ⟨n, asks, by omega⟩

/-- Looking ahead is refused for more than is left, and for nothing else. The reader is where it was either way. -/
theorem Stands.on_peek (stands : r.Stands k left) (n : Int) :
    (Reader.peek (.int n)).on r =
      (if left < n then .error (.insufficient (.int n) (.int left)) else .ok (r.ahead (.int n)), r) := by
  rw [Reader.peek, stands.on_require_bind, Call.on_get_bind, Call.on_pure]
  by_cases beyond : (left : Int) < n
  · rw [if_pos beyond, if_pos beyond]
  · rw [if_neg beyond, if_neg beyond]

/-- A look ahead hands the reader back as it was, whatever it answers. -/
theorem Request.on_perform_peek (stands : r.Stands k left) (n : Int) :
    (Request.peek n).perform.on r = (((Reader.peek (.int n)).on r).1.map .bytes, r) := by
  rw [Request.perform, Call.on_map, stands.on_peek]

/-- Where the end of what is looked at would lie before the front of the view, it is counted from the back. -/
theorem Stands.ahead_of_neg (stands : r.Stands k left) {n : Int} (negative : n < 0) :
    r.ahead (.int n) = if 0 ≤ k + n then [] else (r.bytes.take (r.bytes.length + k + n).toNat).drop k := by
  have stop : span r.position (.int n) = .int (k + n) := by rw [stands.here]; rfl
  have edge : Bytes.edge r.bytes.length (.int (k + n)) = (if (k : Int) + n < 0 then k + n + r.bytes.length else k + n).toNat :=
    rfl
  rw [ahead, stop, stands.here, Bytes.slice, Bytes.edge_nat, edge]
  by_cases inside : 0 ≤ (k : Int) + n
  · rw [if_pos inside, if_neg (by omega)]
    exact List.drop_eq_nil_of_le (by rw [List.length_take]; omega)
  · have back : (k : Int) + n + r.bytes.length = r.bytes.length + k + n := by omega
    rw [if_neg inside, if_pos (by omega), back]

end

/-! ## A run of requests -/

namespace Reading

theorem ask_of_on {s : Reading} {q : Request} {answer : Except Fault Piece} {r : Reader}
    (performed : q.perform.on s.reader = (answer, r)) : s.ask q = ⟨r, s.history ++ [(q, answer)]⟩ := by
  rw [ask, performed]

/-- The cursor stands `k` bytes into the view of `r`, and these bytes are the pieces that the moves have taken. -/
structure Tracks (r : Reader) (s : Reading) (k left : Nat) : Prop where
  reader : s.reader = { r with position := (k : Number) }
  total : k + left = r.bytes.length
  taken : ∃ pieces : List Bytes, pieces.flatten = r.bytes.take k ∧
    List.Forall₂ (fun answered taken => answered.1.Fits answered.2 taken) s.history pieces

variable {r : Reader} {s : Reading} {k left : Nat}

theorem Tracks.stands (tracks : Tracks r s k left) : s.reader.Stands k left := by
  rw [tracks.reader]
  exact ⟨rfl, tracks.total⟩

theorem tracks_new {r : Reader} (front : r.position = 0) : Tracks r { reader := r } 0 r.bytes.length := by
  refine ⟨?_, by omega, [], rfl, .nil⟩
  obtain ⟨before, bytes, after, position⟩ := r
  obtain rfl : position = 0 := front
  rfl

/-- What a refused request leaves behind is its answer. -/
theorem Tracks.refused {q : Request} {answer : Except Fault Piece} (tracks : Tracks r s k left)
    (nothing : q.Fits answer []) : Tracks r ⟨s.reader, s.history ++ [(q, answer)]⟩ k left := by
  obtain ⟨pieces, front, fits⟩ := tracks.taken
  refine ⟨tracks.reader, tracks.total, pieces ++ [[]], ?_, List.rel_append fits (.cons nothing .nil)⟩
  rw [List.flatten_append, front]
  simp

/-- A move that is not refused leaves behind what it took, and the cursor that much further on. -/
theorem Tracks.moved (tracks : Tracks r s k left) {m : Move} {n : Nat} (asks : m.asked left = n) (enough : n ≤ left) :
    Tracks r ⟨s.reader.advance n, s.history ++ [(.move m, .ok (m.handed ((r.bytes.drop k).take n)))]⟩ (k + n)
      (left - n) := by
  have total := tracks.total
  have size : ((r.bytes.drop k).take n).length = n := by
    rw [List.length_take, List.length_drop]
    omega
  have fits : m.asked n = n := by
    cases m with
    | rest => rfl
    | _ => exact asks
  obtain ⟨pieces, front, history⟩ := tracks.taken
  refine ⟨?_, by omega, pieces ++ [(r.bytes.drop k).take n], ?_, List.rel_append history (.cons ?_ .nil)⟩
  · rw [advance_int tracks.stands.here, tracks.reader]
  · rw [List.flatten_append, front, List.flatten_singleton, List.take_add]
  · refine ⟨?_, rfl⟩
    rw [size]
    exact fits

/-- **The step**: one more request, and the front of the view up to the cursor is still what has been taken. -/
theorem Tracks.ask (tracks : Tracks r s k left) (q : Request) : ∃ k' left', Tracks r (s.ask q) k' left' := by
  cases q with
  | move m =>
    have performed : (Request.move m).perform.on s.reader = _ := m.on_perform tracks.stands
    by_cases refused : m.Refused left
    · rw [if_pos refused] at performed
      rw [ask_of_on performed]
      exact ⟨k, left, tracks.refused rfl⟩
    · obtain ⟨n, asks, enough⟩ := Move.asked_of_not_refused refused
      rw [if_neg refused, asks] at performed
      rw [ask_of_on performed]
      have bytes : s.reader.bytes = r.bytes := by rw [tracks.reader]
      rw [bytes]
      exact ⟨k + n, left - n, tracks.moved asks enough⟩
  | peek n =>
    rw [ask_of_on (Request.on_perform_peek tracks.stands n)]
    exact ⟨k, left, tracks.refused rfl⟩

/-- **The run**: so it is after any requests. -/
theorem tracks_after {r : Reader} (front : r.position = 0) (requests : List Request) :
    ∃ k left, Tracks r (after r requests) k left := by
  have run (s : Reading) (k left : Nat) (tracks : Tracks r s k left) :
      ∃ k left, Tracks r (requests.foldl Reading.ask s) k left := by
    induction requests generalizing s k left with
    | nil => exact ⟨k, left, tracks⟩
    | cons q rest ih =>
      obtain ⟨k', left', next⟩ := tracks.ask q
      exact ih _ k' left' next
  exact run _ 0 _ (tracks_new front)

/-- **A reader is a cursor on its view.** However it has been used, with looks ahead in between, it stands at a place in the
view, what is left is what lies behind that place, and what its moves have taken, piece by piece, is what lies before it. A
move is refused as malformed input exactly when it asks for less than nothing or for more than is left, and then leaves
the reader as it was. Any other one takes as many bytes as it asks for from that place, hands out these and no others,
and moves on by their number. -/
theorem cursor_law (before view behind : Bytes) (requests : List Request) (m : Move) :
    let s := after { before, bytes := view, after := behind } requests
    let next := s.ask (.move m)
    ∃ k left : Nat, k + left = view.length ∧
      s.reader = { before, bytes := view, after := behind, position := (k : Number) } ∧
      s.reader.remaining = (left : Number) ∧
      (∃ pieces : List Bytes, pieces.flatten = view.take k ∧
        List.Forall₂ (fun answered taken => answered.1.Fits answered.2 taken) s.history pieces) ∧
      (m.Refused left →
        m.perform.on s.reader = (.error (m.refusal left), s.reader) ∧ (m.refusal left).faultClass = .malformedInput ∧
        next.reader = s.reader) ∧
      (¬ m.Refused left → ∃ n : Nat, m.asked left = n ∧ ((view.drop k).take n).length = n ∧
        m.perform.on s.reader = (.ok (m.handed ((view.drop k).take n)), next.reader) ∧
        next.reader.position = ((k + n : Nat) : Number)) := by
  intro s next
  obtain ⟨k, left, tracks⟩ := tracks_after (r := { before, bytes := view, after := behind }) rfl requests
  have total : k + left = view.length := tracks.total
  have bytes : s.reader.bytes = view := congrArg Reader.bytes tracks.reader
  have performed : (Request.move m).perform.on s.reader = _ := m.on_perform tracks.stands
  refine ⟨k, left, total, tracks.reader, tracks.stands.remaining, tracks.taken, fun refused => ?_, fun fine => ?_⟩
  · rw [if_pos refused] at performed
    have left_behind : next = _ := ask_of_on performed
    exact ⟨performed, m.faultClass_refusal left, by rw [left_behind]⟩
  · obtain ⟨n, asks, enough⟩ := Move.asked_of_not_refused fine
    rw [if_neg fine, asks, bytes] at performed
    have moved : next.reader = s.reader.advance n := congrArg reader (ask_of_on performed)
    refine ⟨n, asks, ?_, ?_, ?_⟩
    · rw [List.length_take, List.length_drop]
      omega
    · rw [moved]
      exact performed
    · rw [moved, advance_int tracks.stands.here]

/-- **Looking ahead agrees with reading exactly where the count is not negative**: then both hand out the same bytes or
are refused alike. For a negative count reading is refused and looking ahead is not: it hands out nothing as long as the
count does not lead in front of the view, and else the bytes from the cursor to an end counted from the back of the view.
It never moves the cursor. -/
theorem peek_agrees_iff (before view behind : Bytes) (requests : List Request) (n : Int) :
    let s := after { before, bytes := view, after := behind } requests
    (s.ask (.peek n)).reader = s.reader ∧
    (((Reader.peek (.int n)).on s.reader).1 = ((readBytes (.int n)).on s.reader).1 ↔ 0 ≤ n) ∧
    (n < 0 → (readBytes (.int n)).on s.reader = (.error (.negativeRead (.int n)), s.reader) ∧
      ∃ k : Nat, s.reader.position = (k : Number) ∧
        (Reader.peek (.int n)).on s.reader =
          (.ok (if 0 ≤ k + n then [] else (view.take (view.length + k + n).toNat).drop k), s.reader)) := by
  intro s
  obtain ⟨k, left, tracks⟩ := tracks_after (r := { before, bytes := view, after := behind }) rfl requests
  have bytes : s.reader.bytes = view := congrArg Reader.bytes tracks.reader
  have reads := tracks.stands.on_readBytes n
  have looks := tracks.stands.on_peek n
  have unmoved : (s.ask (.peek n)).reader = s.reader := by rw [ask_of_on (Request.on_perform_peek tracks.stands n)]
  refine ⟨unmoved, ⟨fun agree => ?_, fun natural => ?_⟩, fun negative => ?_⟩
  · by_cases negative : n < 0
    · -- Reading is refused and looking ahead is not.
      rw [reads, if_pos negative, looks, if_neg (by omega)] at agree
      cases agree
    · omega
  · rw [if_neg (Int.not_lt.mpr natural)] at reads
    rw [reads, looks]
    by_cases beyond : (left : Int) < n
    · rw [if_pos beyond, if_pos beyond]
    · obtain ⟨m, rfl⟩ := Int.eq_ofNat_of_zero_le natural
      rw [if_neg beyond, if_neg beyond, ahead_int tracks.stands.here]
      rfl
  · rw [if_pos negative] at reads
    rw [if_neg (by omega), tracks.stands.ahead_of_neg negative, bytes] at looks
    exact ⟨reads, k, tracks.stands.here, looks⟩

end Reading

/-- A new reader looks ahead by a negative count and hands out all but the end of its view. -/
theorem peek_back_from_front :
    (Reader.peek (.int (-1))).on { bytes := [1, 2] } = (.ok [1], { bytes := [1, 2] }) ∧
    (readBytes (.int (-1))).on { bytes := [1, 2] } = (.error (.negativeRead (.int (-1))), { bytes := [1, 2] }) := by
  decide

end PacketStack.Reader
