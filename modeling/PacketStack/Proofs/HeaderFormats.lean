/-
How headers stand on the wire: numbers side by side in fields that do not end at bytes, and blocks of bytes behind them.

`HeaderFormat.read` takes them apart, by nothing but the widths of the fields. As long as every number is below two to the
power of its own field's width, none runs over into the next one (`bitFields_packed`), and what is read from the bytes of a
header is the header (`read_wire`).
-/
import Mathlib.Algebra.GroupWithZero.Nat
import PacketStack.Proofs.Wire

namespace PacketStack

namespace Bytes

/-- The values of fields of so many bits, side by side in a number, the most significant first. -/
def bitFields : List Nat → Nat → List Nat
  | [], _ => []
  | width :: widths, n => n / 2 ^ widths.sum % 2 ^ width :: bitFields widths n

/-- The number in which the values stand side by side. -/
def packed : List Nat → List Nat → Nat
  | _ :: widths, value :: values => value * 2 ^ widths.sum + packed widths values
  | _, _ => 0

/-- The parts of so many bytes, one behind the other. -/
def parts : List Nat → Bytes → List Bytes
  | [], _ => []
  | size :: sizes, bytes => bytes.take size :: parts sizes (bytes.drop size)

theorem packed_lt {values widths : List Nat} (fit : List.Forall₂ (fun value width => value < 2 ^ width) values widths) :
    packed widths values < 2 ^ widths.sum := by
  induction fit with
  | nil => exact Nat.one_pos
  | @cons value width values widths small _ ih =>
    have room : (value + 1) * 2 ^ widths.sum ≤ 2 ^ width * 2 ^ widths.sum := Nat.mul_le_mul_right _ small
    rw [packed, List.sum_cons, Nat.pow_add]
    rw [Nat.add_mul, Nat.one_mul] at room
    omega

/-- What stands in front of the fields does not matter to them. -/
theorem bitFields_behind (widths : List Nat) (front n : Nat) :
    bitFields widths (front * 2 ^ widths.sum + n) = bitFields widths n := by
  induction widths generalizing front with
  | nil => rfl
  | cons width widths ih =>
    have split : front * 2 ^ (width :: widths).sum = front * 2 ^ width * 2 ^ widths.sum := by
      rw [List.sum_cons, Nat.pow_add, Nat.mul_assoc]
    have first : (front * 2 ^ width * 2 ^ widths.sum + n) / 2 ^ widths.sum = n / 2 ^ widths.sum + front * 2 ^ width := by
      rw [Nat.add_comm, Nat.add_mul_div_right _ _ (Nat.two_pow_pos _)]
    rw [split, bitFields, bitFields, ih, first, Nat.add_mul_mod_self_right]

/-- **Values that fit their fields are all read back.** -/
theorem bitFields_packed {values widths : List Nat}
    (fit : List.Forall₂ (fun value width => value < 2 ^ width) values widths) :
    bitFields widths (packed widths values) = values := by
  induction fit with
  | nil => rfl
  | @cons value width values widths small fit ih =>
    have first : (value * 2 ^ widths.sum + packed widths values) / 2 ^ widths.sum = value := by
      rw [Nat.add_comm, Nat.add_mul_div_right _ _ (Nat.two_pow_pos _), Nat.div_eq_of_lt (packed_lt fit), Nat.zero_add]
    rw [packed, bitFields, bitFields_behind, ih, first, Nat.mod_eq_of_lt small]

example : bitFields [4, 8, 20] 0x6ab12345 = [6, 0xab, 0x12345] := by decide

theorem toNat_append (front back : Bytes) : toNat (front ++ back) = toNat front * 256 ^ back.length + toNat back := by
  induction back using List.reverseRecOn with
  | nil => simp only [List.append_nil, List.length_nil, Nat.pow_zero, Nat.mul_one, toNat, List.foldl_nil, Nat.add_zero]
  | append_singleton back b ih =>
    rw [← List.append_assoc, toNat_concat, toNat_concat, ih, List.length_append, List.length_singleton, Nat.pow_succ,
      Nat.add_mul, Nat.mul_assoc, Nat.add_assoc]

theorem toNat_octets {size w : Nat} (v : BitVec w) (room : w ≤ 8 * size) :
    toNat (Field.octets size (v.toNat : Number)) = v.toNat := by
  have small : v.toNat < 2 ^ (8 * size) := Nat.lt_of_lt_of_le v.isLt (Nat.pow_le_pow_right Nat.two_pos room)
  rw [Field.octets, Number.lowBits_nat, Nat.mod_eq_of_lt small, toNat_word, ← Nat.pow_mul 2 8 size, Nat.mod_eq_of_lt small]

end Bytes

/-- How a header stands on the wire: numbers first, without gaps, then blocks of bytes. -/
structure HeaderFormat where
  /-- The bits of each number. -/
  widths : List Nat
  /-- The bytes of each block. -/
  sizes : List Nat

namespace HeaderFormat

/-- The numbers and the blocks that the front of a byte string holds. -/
def read (format : HeaderFormat) (raw : Bytes) : List Nat × List Bytes :=
  let front := format.widths.sum / 8
  (Bytes.bitFields format.widths (Bytes.toNat (raw.take front)), Bytes.parts format.sizes (raw.drop front))

/-- Version, traffic class, flow label, payload length, next header and hop limit, and two addresses. -/
def ipv6 : HeaderFormat := ⟨[4, 8, 20, 16, 8, 8], [16, 16]⟩

/-- Two ports, length and checksum. -/
def udp : HeaderFormat := ⟨[16, 16, 16, 16], []⟩

/-- Type and length, and the reserved bytes. -/
def redirected : HeaderFormat := ⟨[8, 8], [6]⟩

/-- Both lengths. -/
def ssh : HeaderFormat := ⟨[32, 8], []⟩

/-- To read a header is to unpack the bytes of its numbers. -/
theorem read_append {format : HeaderFormat} {front : Bytes} {values : List Nat} (blocks : Bytes)
    (whole : front.length = format.widths.sum / 8) (value : front.toNat = Bytes.packed format.widths values)
    (fit : List.Forall₂ (fun value width => value < 2 ^ width) values format.widths) :
    format.read (front ++ blocks) = (values, Bytes.parts format.sizes blocks) := by
  simp only [read, List.take_left' whole, List.drop_left' whole, value, Bytes.bitFields_packed fit]

end HeaderFormat

/-! ## The fields of a header -/

/-- The numbers of a header, in the order in which they stand on the wire. -/
def Ipv6.Header.numbers (h : Header) : List Nat :=
  [h.version.toNat, h.trafficClass.toNat, h.flowLabel.toNat, h.payloadLength.toNat, h.nextHeader.toNat, h.hopLimit.toNat]

@[inherit_doc Ipv6.Header.numbers]
def Udp.Header.numbers (h : Header) : List Nat :=
  [h.sourcePort.toNat, h.destinationPort.toNat, h.length.toNat, h.checksum.toNat]

/-- The option's own type is the first of them. -/
def Redirected.Header.numbers (h : Header) : List Nat := [Contract.redirectedType, h.length.toNat]

@[inherit_doc Ipv6.Header.numbers]
def Ssh.Header.numbers (h : Header) : List Nat := [h.packetLength.toNat, h.paddingLength.toNat]

theorem Ipv6.Header.read_wire (h : Header) (rest : Bytes) :
    HeaderFormat.ipv6.read (h.fields.wire.flatten ++ rest) = (h.numbers, [h.source.bytes, h.destination.bytes]) := by
  have version := h.version.isLt
  have trafficClass := h.trafficClass.isLt
  have flowLabel := h.flowLabel.isLt
  have source : h.source.bytes.length = 16 := h.source.size
  have destination : h.destination.bytes.length = 16 := h.destination.size
  let first := h.version.toNat * 0x10000000 + h.trafficClass.toNat * 0x100000 + h.flowLabel.toNat
  let front : Bytes := Bytes.word 4 first ++ (Field.octets 2 (h.payloadLength.toNat : Number) ++
    (Field.octets 1 (h.nextHeader.toNat : Number) ++ Field.octets 1 (h.hopLimit.toNat : Number)))
  have whole : h.fields.wire.flatten ++ rest = front ++ (h.source.bytes ++ (h.destination.bytes ++ rest)) := by
    simp only [front, first, Fields.wire, firstWord_fields, List.flatten_cons, List.flatten_nil, List.append_nil,
      List.append_assoc]
    rfl
  have length : front.length = 8 := by simp only [front, List.length_append, Bytes.length_word, Field.length_octets]
  have value : front.toNat = Bytes.packed HeaderFormat.ipv6.widths h.numbers := by
    have word : Bytes.toNat (Bytes.word 4 first) = first := by
      rw [Bytes.toNat_word]
      exact Nat.mod_eq_of_lt (by omega)
    simp (disch := decide) only [front, Bytes.toNat_append, List.length_append, Field.length_octets, word,
      Bytes.toNat_octets, HeaderFormat.ipv6, numbers, Bytes.packed, List.sum_cons, List.sum_nil]
    omega
  rw [whole, HeaderFormat.read_append _ length value]
  · simp only [HeaderFormat.ipv6, Bytes.parts, List.take_left' source, List.drop_left' source, List.take_left' destination]
  · exact .cons version (.cons trafficClass (.cons flowLabel
      (.cons h.payloadLength.isLt (.cons h.nextHeader.isLt (.cons h.hopLimit.isLt .nil)))))

theorem Udp.Header.read_wire (h : Header) (rest : Bytes) :
    HeaderFormat.udp.read (h.fields.wire.flatten ++ rest) = (h.numbers, []) := by
  have value : Bytes.toNat h.fields.wire.flatten = Bytes.packed HeaderFormat.udp.widths h.numbers := by
    simp (disch := decide) only [Fields.wire, fields, List.flatten_cons, List.flatten_nil, List.append_nil,
      Bytes.toNat_append, List.length_append, Field.length_octets, Bytes.toNat_octets, HeaderFormat.udp, numbers,
      Bytes.packed, List.sum_cons, List.sum_nil]
    omega
  rw [HeaderFormat.read_append _ h.length_wire value]
  · rfl
  · exact .cons h.sourcePort.isLt (.cons h.destinationPort.isLt (.cons h.length.isLt (.cons h.checksum.isLt .nil)))

theorem Redirected.Header.read_wire (h : Header) (rest : Bytes) :
    HeaderFormat.redirected.read (h.fields.wire.flatten ++ rest) = (h.numbers, [h.reserved.bytes]) := by
  let front : Bytes := Field.octets 1 (Contract.redirectedType : Number) ++ Field.octets 1 (h.length.toNat : Number)
  have whole : h.fields.wire.flatten ++ rest = front ++ (h.reserved.bytes ++ rest) := by
    simp only [front, Fields.wire, List.flatten_cons, List.flatten_nil, List.append_nil, List.append_assoc]
    rfl
  have length : front.length = 2 := by simp only [front, List.length_append, Field.length_octets]
  have value : front.toNat = Bytes.packed HeaderFormat.redirected.widths h.numbers := by
    have type : Bytes.toNat (Field.octets 1 (Contract.redirectedType : Number)) = Contract.redirectedType := by decide
    simp (disch := decide) only [front, Bytes.toNat_append, Field.length_octets, type, Bytes.toNat_octets,
      HeaderFormat.redirected, numbers, Bytes.packed, List.sum_cons, List.sum_nil]
    omega
  rw [whole, HeaderFormat.read_append _ length value]
  · simp only [HeaderFormat.redirected, Bytes.parts, List.take_left' h.reserved.size]
  · exact .cons (by decide) (.cons h.length.isLt .nil)

theorem Ssh.Header.read_wire (h : Header) (rest : Bytes) :
    HeaderFormat.ssh.read (h.fields.wire.flatten ++ rest) = (h.numbers, []) := by
  have value : Bytes.toNat h.fields.wire.flatten = Bytes.packed HeaderFormat.ssh.widths h.numbers := by
    simp (disch := decide) only [Fields.wire, fields, List.flatten_cons, List.flatten_nil, List.append_nil,
      Bytes.toNat_append, Field.length_octets, Bytes.toNat_octets, HeaderFormat.ssh, numbers, Bytes.packed, List.sum_cons,
      List.sum_nil]
    omega
  rw [HeaderFormat.read_append _ h.length_wire value]
  · rfl
  · exact .cons (Nat.lt_trans h.packetLength.isLt (by decide)) (.cons h.paddingLength.isLt .nil)

end PacketStack
