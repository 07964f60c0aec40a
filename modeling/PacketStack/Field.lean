/-
A slot of a draft on its way to the wire: what it puts there, and what it has to hold first.
-/
import PacketStack.Fault

namespace PacketStack.Field

/-- The low `size` bytes of a number, big-endian. -/
def octets (size : Nat) (x : Number) : Bytes := Bytes.word size (x.lowBits (8 * size))

/-- An integer between zero and `max`. -/
def unsigned (field : String) (max x : Number) : Except Fault Nat :=
  match x.natural? with
  | some n => if max.lt x then .error (.notUnsigned field max x) else .ok n
  | none => .error (.notUnsigned field max x)

/-- An integer that a field of `w` bits can hold. -/
def word (field : String) (w : Nat) (x : Number) : Except Fault (BitVec w) :=
  match x.word? w with
  | some v => .ok v
  | none => .error (.notUnsigned field (2 ^ w - 1 : Nat) x)

def required (field : String) : Option Bytes → Except Fault Bytes
  | some bytes => .ok bytes
  | none => .error (.bytesMissing field)

/-- Bytes that are there and whose count agrees with `size`. -/
def sized (field : String) (size : Number) (slot : Option Bytes) : Except Fault Bytes := do
  let bytes ← required field slot
  if size.agrees bytes.length then return bytes else throw (.bytesSize field size bytes)

/-- Bytes that are there and are exactly `size` many. -/
def block (field : String) (size : Nat) (slot : Option Bytes) : Except Fault (Block size) :=
  match slot with
  | none => .error (.bytesMissing field)
  | some bytes =>
    match Block.ofBytes? size bytes with
    | some block => .ok block
    | none => .error (.bytesSize field size bytes)

theorem octets_one (n : Nat) : octets 1 (n : Number) = [UInt8.ofNat n] := by
  rw [octets, Number.lowBits_nat, Bytes.word_one]
  congr 1
  exact UInt8.toNat_inj.mp (by simp only [UInt8.toNat_ofNat']; omega)

theorem octets_two {n : Nat} (h : n < 0x10000) : octets 2 (n : Number) = [UInt8.ofNat (n / 256), UInt8.ofNat n] := by
  rw [octets, Number.lowBits_nat, Nat.mod_eq_of_lt h, Bytes.word_two]

theorem octets_four {n : Nat} (h : n < 0x100000000) : octets 4 (n : Number) = Bytes.word 4 n := by
  rw [octets, Number.lowBits_nat, Nat.mod_eq_of_lt h]

theorem length_octets (size : Nat) (x : Number) : (octets size x).length = size := Bytes.length_word _ _

theorem word_toNat {field : String} {w : Nat} (v : BitVec w) : word field w (v.toNat : Number) = .ok v := by
  rw [word, Number.word?_toNat]

theorem word_eq_ok_iff {field : String} {w : Nat} {x : Number} {v : BitVec w} :
    word field w x = .ok v ↔ x = (v.toNat : Number) := by
  refine ⟨fun h => ?_, fun h => h ▸ word_toNat v⟩
  unfold word at h
  split at h
  · next hx => cases h; exact Number.eq_of_word? hx
  · cases h

theorem unsigned_eq_ok_iff {field : String} {max : Nat} {x : Number} {n : Nat} :
    unsigned field max x = .ok n ↔ x = (n : Number) ∧ n ≤ max := by
  cases hx : x.natural? with
  | none =>
    have other : x ≠ (n : Number) := fun h => by rw [h] at hx; cases hx
    simp only [unsigned, hx, other, false_and, reduceCtorEq]
  | some m =>
    obtain rfl := Number.natural?_eq_some_iff.mp hx
    simp only [unsigned, hx, Number.lt_int, Number.int.injEq, Int.ofNat_inj]
    by_cases h : max < m
    · simp [h]; omega
    · simp [h]; omega

theorem block_bytes {field : String} {size : Nat} (b : Block size) : block field size (some b.bytes) = .ok b := by
  obtain ⟨bytes, h⟩ := b
  simp only [block, Block.ofBytes?, dif_pos h]

end PacketStack.Field
