/-
The SSH binary packet's two lengths. The packet length counts the padding length's own byte, the payload and
the padding; what follows the padding is the code that authenticates the packet, whose length no field tells.
-/
import PacketStack.Field
import PacketStack.Layout

namespace PacketStack.Ssh

/-- The size of both lengths on the wire. -/
def headerSize : Nat := 5

/-- The largest packet length: greater ones are neither read nor built. -/
def maxLength : Nat := 0x7fffffff

/-- The smallest block that padding is computed for. -/
def blockMinimum : Nat := 8

structure Fields where
  packetLength : Number
  paddingLength : Number
  deriving DecidableEq

namespace Fields

def wire (f : Fields) : List Bytes := [Field.octets 4 f.packetLength, Field.octets 1 f.paddingLength]

def heading (f : Fields) : Heading where
  title := "SSH2 Binary Packet Header"
  raw := f.wire
  lines := [("packet_length", f.packetLength.text), ("padding_length", f.paddingLength.text)]

end Fields

/-- The packet length never has its top bit set. -/
structure Header where
  packetLength : BitVec 31
  paddingLength : BitVec 8
  deriving DecidableEq

namespace Header

def fields (h : Header) : Fields where
  packetLength := h.packetLength.toNat
  paddingLength := h.paddingLength.toNat

/-- Takes both lengths off the front. -/
def read? : Bytes → Option (Nat × UInt8 × Bytes)
  | l₀ :: l₁ :: l₂ :: l₃ :: padding :: rest => some (Bytes.toNat [l₀, l₁, l₂, l₃], padding, rest)
  | _ => none

/-- The header in front of `raw` and what follows it. -/
def decode (raw : Bytes) : Except Fault (Header × Bytes) :=
  match read? raw with
  | none => .error (.sshHeaderShort raw)
  | some (length, padding, rest) =>
    if maxLength < length then .error (.sshLengthAbove length)
    else .ok (⟨BitVec.ofNat 31 length, padding.toBitVec⟩, rest)

theorem read?_wire (h : Header) (rest : Bytes) :
    read? (h.fields.wire.flatten ++ rest) = some (h.packetLength.toNat, UInt8.ofNat h.paddingLength.toNat, rest) := by
  have hl := h.packetLength.isLt
  have packet : h.fields.packetLength = (h.packetLength.toNat : Number) := rfl
  have padding : h.fields.paddingLength = (h.paddingLength.toNat : Number) := rfl
  have word := Bytes.toNat_word 4 h.packetLength.toNat
  rw [Nat.mod_eq_of_lt (by omega), Bytes.word_four] at word
  simp only [Fields.wire, packet, padding, Field.octets_one, Field.octets_four (Nat.lt_trans hl (by decide)),
    Bytes.word_four, List.flatten_cons, List.flatten_nil, List.cons_append, List.nil_append, List.append_nil, read?, word]

theorem decode_wire (h : Header) (rest : Bytes) : decode (h.fields.wire.flatten ++ rest) = .ok (h, rest) := by
  have hl := h.packetLength.isLt
  simp only [decode, read?_wire, maxLength, BitVec.ofNat_toNat, BitVec.setWidth_eq, UInt8.toBitVec_ofNat']
  exact if_neg (by omega)

theorem length_of_decode {raw rest : Bytes} {h : Header} (hd : decode raw = .ok (h, rest)) :
    raw.length = headerSize + rest.length := by
  unfold decode at hd
  split at hd
  · cases hd
  · next length padding rest' hr =>
    split at hd <;> cases hd
    unfold read? at hr
    split at hr
    · cases hr
      simp only [List.length_cons, headerSize]
      omega
    · cases hr

end Header
end PacketStack.Ssh
