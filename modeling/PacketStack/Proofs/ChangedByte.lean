/-
A change of one byte changes the hash.

The prime is odd, so that multiplying by it can be undone modulo two to the power 32, as exclusive or can. Each step of
the hash is therefore injective in the state, and in the byte. Two strings that differ in one byte lead to one state in
front of it, to two states behind it, and no byte that follows makes these the same again (`foldl_hashStep_injective`).

To differ in one place is to have one byte replaced (`DifferOnce.exists_replaced`, `differOnce_replaced`), which carries
this over to whatever is hashed by its bytes.
-/
import Mathlib.Logic.Function.Basic
import PacketStack.Packet

namespace PacketStack.Bytes

/-! ## States -/

/-- What the prime has to be multiplied by to give one. -/
def primeInverse : UInt32 := 0x359c449b

theorem mul_prime_injective : Function.Injective fun x : UInt32 => x * 0x01000193 := by
  have undone (x : UInt32) : x * 0x01000193 * primeInverse = x := by
    have one : (0x01000193 : UInt32) * primeInverse = 1 := by decide
    rw [UInt32.mul_assoc, one, UInt32.mul_one]
  exact Function.LeftInverse.injective (g := fun x => x * primeInverse) undone

/-- A byte sends different states to different states. -/
theorem hashStep_state_injective (b : UInt8) : Function.Injective fun state => hashStep state b := by
  intro s t same
  exact (UInt32.xor_left_inj b.toUInt32).mp (mul_prime_injective same)

/-- A state is sent to different states by different bytes. -/
theorem hashStep_byte_injective (state : UInt32) : Function.Injective (hashStep state) := by
  intro a b same
  exact UInt8.toUInt32_inj.mp ((UInt32.xor_right_inj state).mp (mul_prime_injective same))

/-- **No bytes make two states the same.** -/
theorem foldl_hashStep_injective (bytes : Bytes) : Function.Injective fun state => bytes.foldl hashStep state := by
  induction bytes with
  | nil => exact Function.injective_id
  | cons b rest ih =>
    intro s t same
    exact hashStep_state_injective b (ih same)

theorem hash_replaced_eq_iff (front back : Bytes) (a b : UInt8) :
    hash (front ++ [a] ++ back) = hash (front ++ [b] ++ back) ↔ a = b := by
  constructor
  · intro same
    rw [hash_append (front ++ [a]) back, hash_append (front ++ [b]) back] at same
    have behind : hash (front ++ [a]) = hash (front ++ [b]) := foldl_hashStep_injective back same
    rw [hash_append, hash_append] at behind
    exact hashStep_byte_injective (hash front) behind
  · intro same
    rw [same]

/-! ## Places -/

/-- The strings are as long as each other and have different bytes in exactly one place. -/
def DifferOnce (x y : Bytes) : Prop := x.length = y.length ∧ ∃! i : Nat, x[i]? ≠ y[i]?

theorem DifferOnce.exists_replaced {x y : Bytes} (differ : DifferOnce x y) :
    ∃ front a b back, a ≠ b ∧ x = front ++ [a] ++ back ∧ y = front ++ [b] ++ back := by
  obtain ⟨length, i, there, only⟩ := differ
  have same {j : Nat} (other : j ≠ i) : x[j]? = y[j]? := by
    by_contra different
    exact other (only j different)
  have inside : i < x.length := by
    by_contra beyond
    apply there
    rw [List.getElem?_eq_none (by omega), List.getElem?_eq_none (by omega)]
  have front : x.take i = y.take i := by
    apply List.ext_getElem?
    intro j
    rw [List.getElem?_take, List.getElem?_take]
    by_cases before : j < i
    · rw [if_pos before, if_pos before, same (by omega)]
    · rw [if_neg before, if_neg before]
  have back : x.drop (i + 1) = y.drop (i + 1) := by
    apply List.ext_getElem?
    intro j
    rw [List.getElem?_drop, List.getElem?_drop, same (by omega)]
  have inside' : i < y.length := by omega
  refine ⟨x.take i, x[i], y[i], x.drop (i + 1), ?_, ?_, ?_⟩
  · intro equal
    apply there
    rw [List.getElem?_eq_getElem inside, List.getElem?_eq_getElem inside', equal]
  · rw [List.append_assoc, List.singleton_append, ← List.drop_eq_getElem_cons inside, List.take_append_drop]
  · rw [front, back, List.append_assoc, List.singleton_append, ← List.drop_eq_getElem_cons inside',
      List.take_append_drop]

theorem differOnce_replaced (front back : Bytes) {a b : UInt8} (different : a ≠ b) :
    DifferOnce (front ++ [a] ++ back) (front ++ [b] ++ back) := by
  refine ⟨by simp only [List.length_append, List.length_singleton], front.length, ?_, ?_⟩
  · simp [different]
  · intro j there
    by_contra other
    apply there
    rcases Nat.lt_or_gt_of_ne other with before | behind
    · rw [List.append_assoc, List.append_assoc, List.getElem?_append_left before, List.getElem?_append_left before]
    · have past (c : UInt8) : (front ++ [c]).length ≤ j := by
        rw [List.length_append, List.length_singleton]
        omega
      rw [List.getElem?_append_right (past a), List.getElem?_append_right (past b), List.length_append,
        List.length_append, List.length_singleton, List.length_singleton]

theorem DifferOnce.hash_ne {x y : Bytes} (differ : DifferOnce x y) : hash x ≠ hash y := by
  obtain ⟨front, a, b, back, different, rfl, rfl⟩ := differ.exists_replaced
  intro same
  exact different ((hash_replaced_eq_iff front back a b).mp same)

/-- **A change of one byte changes the hash**, whatever stands in front of it and behind it. So two chains of layers
whose bytes differ in exactly one place never have the same hash, also where the layers are not those of this library. -/
theorem hash_changes :
    (∀ (front back : Bytes) (a b : UInt8), a ≠ b → hash (front ++ [a] ++ back) ≠ hash (front ++ [b] ++ back)) ∧
    (∀ p q : Packet, DifferOnce p.serialize q.serialize → p.hash ≠ q.hash) ∧
    ∀ l m : Layout, DifferOnce l.serialize m.serialize → l.hash ≠ m.hash := by
  refine ⟨?_, ?_, ?_⟩
  · intro front back a b different
    exact (differOnce_replaced front back different).hash_ne
  · intro p q differ
    exact differ.hash_ne
  · intro l m differ
    exact differ.hash_ne

/-- A UDP header against eight bytes that nothing describes, and against a header of two fields. -/
theorem hash_changes_between_kinds :
    let udp : Packet := .bare (.udp ⟨1234, 53, 8, 0⟩ [])
    let bytes : Packet := .unknown [4, 210, 0, 54, 0, 8, 0, 0]
    let fields : Layout := .bare { heading := some ⟨"Two Fields", [[4, 210, 0, 53], [0, 9, 0, 0]], []⟩ }
    ((1 : UInt8) ≠ 2 ∧ hash ([7] ++ [1] ++ [9]) ≠ hash ([7] ++ [2] ++ [9])) ∧
    (DifferOnce udp.serialize bytes.serialize ∧ udp.hash ≠ bytes.hash) ∧
    (DifferOnce udp.layout.serialize fields.serialize ∧ udp.layout.hash ≠ fields.hash) := by
  intro udp bytes fields
  have once : DifferOnce udp.serialize bytes.serialize :=
    differOnce_replaced [4, 210, 0] [0, 8, 0, 0] (a := 53) (b := 54) (by decide)
  have once' : DifferOnce udp.layout.serialize fields.serialize :=
    differOnce_replaced [4, 210, 0, 53, 0] [0, 0] (a := 8) (b := 9) (by decide)
  exact ⟨⟨by decide, hash_changes.1 [7] [9] 1 2 (by decide)⟩, ⟨once, hash_changes.2.1 udp bytes once⟩,
    once', hash_changes.2.2 udp.layout fields once'⟩

end PacketStack.Bytes
