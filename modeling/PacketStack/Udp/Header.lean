/-
The UDP header, and the checksum over it, its payload and the addresses of the layer around it.
-/
import PacketStack.Bytes.Checksum
import PacketStack.Field
import PacketStack.Layout

namespace PacketStack.Udp

/-- The header's size on the wire. -/
def headerSize : Nat := 8

structure Fields where
  sourcePort : Number
  destinationPort : Number
  length : Number
  checksum : Number
  deriving DecidableEq

namespace Fields

def wire (f : Fields) : List Bytes :=
  [Field.octets 2 f.sourcePort, Field.octets 2 f.destinationPort, Field.octets 2 f.length, Field.octets 2 f.checksum]

def heading (f : Fields) : Heading where
  title := "UDP Header"
  raw := f.wire
  lines :=
    [("Source port", f.sourcePort.text),
     ("Destination port", f.destinationPort.text),
     ("Length", s!"{f.length} [bytes]"),
     ("Checksum", f.checksum.hexText 4)]

end Fields

/-- The pseudo-header: both addresses, the datagram's length and the IP number of UDP. -/
def pseudoHeader (source destination : Bytes) (length : Number) : Bytes :=
  source ++ destination ++ Field.octets 4 length ++ Bytes.word 4 Contract.udpNumber

/--
The checksum over pseudo-header, header and payload. Zero is written as `0xffff`, because a zero on the wire
says that there is no checksum.
-/
def checksum (source destination : Bytes) (f : Fields) (payload : Bytes) : BitVec 16 :=
  let sum := Checksum.ofChunks (pseudoHeader source destination f.length :: f.wire ++ [payload])
  BitVec.ofNat 16 (if sum = 0 then 0xffff else sum)

structure Header where
  sourcePort : BitVec 16
  destinationPort : BitVec 16
  length : BitVec 16
  checksum : BitVec 16
  deriving DecidableEq

namespace Header

def fields (h : Header) : Fields where
  sourcePort := h.sourcePort.toNat
  destinationPort := h.destinationPort.toNat
  length := h.length.toNat
  checksum := h.checksum.toNat

/-- Takes a header off the front. -/
def read? : Bytes → Option (Header × Bytes)
  | s₀ :: s₁ :: d₀ :: d₁ :: l₀ :: l₁ :: c₀ :: c₁ :: rest =>
    some ({
      sourcePort := BitVec.ofNat 16 (Bytes.toNat [s₀, s₁])
      destinationPort := BitVec.ofNat 16 (Bytes.toNat [d₀, d₁])
      length := BitVec.ofNat 16 (Bytes.toNat [l₀, l₁])
      checksum := BitVec.ofNat 16 (Bytes.toNat [c₀, c₁]) }, rest)
  | _ => none

/-- The header in front of `raw` and what follows it. -/
def decode (raw : Bytes) : Except Fault (Header × Bytes) :=
  match read? raw with
  | none => .error (.udpHeaderShort raw)
  | some read => .ok read

theorem read?_wire (h : Header) (rest : Bytes) : read? (h.fields.wire.flatten ++ rest) = some (h, rest) := by
  have half (v : BitVec 16) : Field.octets 2 (v.toNat : Number) = [UInt8.ofNat (v.toNat / 256), UInt8.ofNat v.toNat] :=
    Field.octets_two v.isLt
  have whole (v : BitVec 16) : BitVec.ofNat 16 (Bytes.toNat [UInt8.ofNat (v.toNat / 256), UInt8.ofNat v.toNat]) = v := by
    rw [← Bytes.word_two, Bytes.toNat_word]
    exact BitVec.eq_of_toNat_eq (by have := v.isLt; simp only [BitVec.toNat_ofNat]; omega)
  simp only [Fields.wire, fields, half, List.flatten_cons, List.flatten_nil, List.cons_append, List.nil_append,
    List.append_nil, read?, whole]

theorem length_of_decode {raw rest : Bytes} {h : Header} (hd : decode raw = .ok (h, rest)) :
    raw.length = headerSize + rest.length := by
  unfold decode at hd
  split at hd
  · cases hd
  · next read hr =>
    cases hd
    unfold read? at hr
    split at hr
    · cases hr
      simp only [List.length_cons, headerSize]
      omega
    · cases hr

end Header
end PacketStack.Udp
