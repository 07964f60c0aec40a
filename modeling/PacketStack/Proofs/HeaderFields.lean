/-
What building puts into a header.

`Draft.fields` lists a header's numbers as the draft settles them: the values that each may have, what was set, and what
it is derived as. A packet that is built has exactly those numbers (`Makes.holds`), and they are the ones that are read
from its bytes (`Makes.read`).
-/
import PacketStack.Proofs.HeaderFormats
import PacketStack.Proofs.UdpChecksum

namespace PacketStack

/-! ## What a draft settles -/

/-- A number of a header, before it is built. -/
structure NumericField where
  /-- It has to be below this. -/
  bound : Nat
  /-- What was set. -/
  slot : Number
  /-- How it is derived from the packet that is built, if it is. -/
  derived : Option (Packet → Nat) := none

/-- The number is in range, and it is the one that was set or the one that was to be derived. -/
structure NumericField.Holds (p : Packet) (field : NumericField) (n : Nat) : Prop where
  below : n < field.bound
  verbatim : field.derived = none → field.slot = (n : Number)
  computed : ∀ value, field.derived = some value → n = value p

/-- How a field is derived if it is to be corrected. -/
def CorrectionPolicy.derivation (policy : CorrectionPolicy) (c : Correction) (value : Packet → Nat) :
    Option (Packet → Nat) :=
  if policy.corrects c then some value else none

section
variable {p : Packet} {bound n : Nat} {slot : Number} (below : n < bound)
include below

theorem NumericField.Holds.of_slot (same : slot = (n : Number)) : Holds p ⟨bound, slot, none⟩ n :=
  ⟨below, fun _ => same, fun _ none => nomatch none⟩

theorem NumericField.Holds.of_corrects {policy : CorrectionPolicy} {c : Correction} {value : Packet → Nat}
    (off : policy.corrects c = false → slot = (n : Number)) (on : policy.corrects c = true → n = value p) :
    Holds p ⟨bound, slot, policy.derivation c value⟩ n := by
  cases corrects : policy.corrects c with
  | false =>
    have derivation : policy.derivation c value = none := by simp [CorrectionPolicy.derivation, corrects]
    rw [derivation]
    exact of_slot below (off corrects)
  | true =>
    have derivation : policy.derivation c value = some value := if_pos corrects
    rw [derivation]
    refine ⟨below, fun verbatim => ?_, fun _ computed => ?_⟩
    · cases verbatim
    · cases computed
      exact on corrects

end

theorem NumericField.exists_holds {p : Packet} {fields : List NumericField} {values : List Nat}
    (all : List.Forall₂ (Holds p) fields values) {field : NumericField} (member : field ∈ fields) :
    ∃ n, field.Holds p n := by
  induction all with
  | nil => cases member
  | cons first _ ih =>
    obtain rfl | behind := List.mem_cons.mp member
    · exact ⟨_, first⟩
    · exact ih behind

namespace Packet

/-- The bytes of the payload, if there is one. -/
def payloadBytes (p : Packet) : Bytes := p.payload?.elim [] serialize

/-- The padding of an SSH binary packet. -/
def padding : Packet → Bytes
  | carrying (.ssh _ padding _) _ => padding
  | _ => []

end Packet

/-- The checksum to derive in front of a payload, from what was set and the length that is to be written. -/
def Udp.Draft.checksumFor (d : Draft) (payload : Bytes) : BitVec 16 :=
  let length : Number := if d.policy.corrects .length then (8 + payload.length : Nat) else d.length
  Udp.checksum (d.source.getD []) (d.destination.getD []) ⟨d.sourcePort, d.destinationPort, length, 0⟩ payload

namespace Draft

/-- The numbers of the header, in the order in which they stand on the wire. -/
def fields : Draft → List NumericField
  | ipv6 d =>
    [⟨2 ^ 4, d.version, none⟩, ⟨2 ^ 8, d.trafficClass, none⟩, ⟨2 ^ 20, d.flowLabel, none⟩,
      ⟨2 ^ 16, d.payloadLength, d.policy.derivation .length fun p => p.payloadBytes.length⟩,
      ⟨2 ^ 8, d.nextHeader, none⟩, ⟨2 ^ 8, d.hopLimit, none⟩]
  | udp d =>
    [⟨2 ^ 16, d.sourcePort, none⟩, ⟨2 ^ 16, d.destinationPort, none⟩,
      ⟨2 ^ 16, d.length, d.policy.derivation .length fun p => 8 + p.payloadBytes.length⟩,
      ⟨2 ^ 16, d.checksum, d.policy.derivation .checksum fun p => (d.checksumFor p.payloadBytes).toNat⟩]
  | redirected d =>
    [⟨2 ^ 8, 4, none⟩, ⟨2 ^ 8, d.length, d.policy.derivation .length fun p => (8 + p.payloadBytes.length) / 8⟩]
  | ssh d =>
    [⟨2 ^ 31, d.packetLength,
        d.policy.derivation .length fun p => 1 + p.payloadBytes.length + p.padding.length⟩,
      ⟨2 ^ 8, d.paddingLength, d.policy.derivation .length fun p => p.padding.length⟩]

/-- The blocks of the header. -/
def blocks : Draft → List (Option Bytes)
  | ipv6 d => [d.source, d.destination]
  | redirected d => [d.reserved]
  | udp _ => []
  | ssh _ => []

def format : Draft → HeaderFormat
  | ipv6 _ => .ipv6
  | udp _ => .udp
  | redirected _ => .redirected
  | ssh _ => .ssh

end Draft

def Datagram.numbers : Datagram → List Nat
  | ipv6 h _ => h.numbers
  | udp h _ => h.numbers

def Datagram.blocks : Datagram → List Bytes
  | ipv6 h _ => [h.source.bytes, h.destination.bytes]
  | udp _ _ => []

namespace Packet

/-- The numbers of the outermost header. A leaf has no header. -/
def numbers : Packet → List Nat
  | leaf _ => []
  | bare d => d.numbers
  | carrying (.datagram d) _ => d.numbers
  | carrying (.redirected h) _ => h.numbers
  | carrying (.ssh h _ _) _ => h.numbers

/-- The blocks of the outermost header. -/
def blocks : Packet → List Bytes
  | leaf _ => []
  | bare d => d.blocks
  | carrying (.datagram d) _ => d.blocks
  | carrying (.redirected h) _ => [h.reserved.bytes]
  | carrying (.ssh _ _ _) _ => []

theorem numbers_over (d : Datagram) (body : Option Packet) : (Packet.over d body).numbers = d.numbers := by
  cases body <;> rfl

theorem blocks_over (d : Datagram) (body : Option Packet) : (Packet.over d body).blocks = d.blocks := by
  cases body <;> rfl

theorem payloadBytes_over (d : Datagram) (body : Option Packet) :
    (Packet.over d body).payloadBytes = body.elim [] serialize := by
  rw [payloadBytes, payload?_over]

end Packet

/-! ## Building -/

/-- The packets that a draft can be built into, by the headers that they have. -/
inductive Draft.Makes : Draft → Packet → Prop
  | ipv6 {d : Ipv6.Draft} {h : Ipv6.Header} {body : Option Packet} :
      d.header (body.elim [] Packet.serialize).length = .ok h → Makes (.ipv6 d) (Packet.over (.ipv6 h d.trailer) body)
  | udp {d : Udp.Draft} {h : Udp.Header} {body : Option Packet} :
      d.header (body.elim [] Packet.serialize).length (body.elim [] Packet.serialize) = .ok h →
      Makes (.udp d) (Packet.over (.udp h d.trailer) body)
  | redirected {d : Redirected.Draft} {reserved : Block 6} {h : Redirected.Header} {body : Packet} :
      d.reserved = some reserved.bytes → d.header reserved body.serialize.length body.serialize = .ok h →
      Makes (.redirected d) (.carrying (.redirected h) body)
  | ssh {d : Ssh.Draft} {h : Ssh.Header} {padding mac : Bytes} {body : Packet} :
      d.header body.serialize.length = .ok (h, padding) → Makes (.ssh d) (.carrying (.ssh h padding mac) body)

theorem Draft.makes_of_build {d : Draft} {payload : Option Builder} {p : Packet}
    (built : (Builder.over d payload).build = .ok p) : d.Makes p := by
  cases d with
  | udp d =>
    obtain ⟨body, h, -, made, rfl⟩ := Udp.Draft.build_eq_ok_iff.mp built
    exact .udp made
  | ipv6 d =>
    cases payload with
    | none =>
      obtain ⟨_, alone, rfl⟩ := Builder.build_bare_eq_ok_iff.mp built
      obtain ⟨h, made, rest⟩ := bind_eq_ok.mp alone
      cases rest
      exact @Makes.ipv6 d h none made
    | some payload =>
      obtain ⟨close, body, f, prepared, -, closed, rfl⟩ := Builder.build_carrying_eq_ok_iff.mp built
      cases prepared
      obtain ⟨h, made, rest⟩ := bind_eq_ok.mp closed
      cases rest
      rw [body.byteLength_eq] at made
      exact @Makes.ipv6 d h (some body) made
  | redirected d =>
    cases payload with
    | none =>
      obtain ⟨_, alone, -⟩ := Builder.build_bare_eq_ok_iff.mp built
      cases alone
    | some payload =>
      obtain ⟨close, body, f, prepared, -, closed, rfl⟩ := Builder.build_carrying_eq_ok_iff.mp built
      obtain ⟨reserved, present, rest⟩ := bind_eq_ok.mp prepared
      cases rest
      obtain ⟨h, made, rest⟩ := bind_eq_ok.mp closed
      cases rest
      rw [body.byteLength_eq] at made
      exact .redirected (Field.block_eq_ok_iff.mp present) made
  | ssh d =>
    cases payload with
    | none =>
      obtain ⟨_, alone, -⟩ := Builder.build_bare_eq_ok_iff.mp built
      cases alone
    | some payload =>
      obtain ⟨close, body, f, prepared, -, closed, rfl⟩ := Builder.build_carrying_eq_ok_iff.mp built
      obtain ⟨mac, -, rest⟩ := bind_eq_ok.mp prepared
      cases rest
      obtain ⟨⟨h, padding⟩, made, rest⟩ := bind_eq_ok.mp closed
      cases rest
      rw [body.byteLength_eq] at made
      exact .ssh made

namespace Udp.Draft

variable {d : Draft} {payload : Bytes} {h : Header}

theorem length_eq_slot (off : d.policy.corrects .length = false) {n : Nat} {length : Number}
    (settled : d.lengthFor n = .ok length) : d.length = length := by
  rw [lengthFor, off] at settled
  exact Except.ok.inj settled

/-- Deriving the checksum leaves all else as it was set. -/
theorem slots_of_header {n : Nat} (made : d.header n payload = .ok h) :
    d.lengthFor n = .ok (h.length.toNat : Number) ∧ d.sourcePort = (h.sourcePort.toNat : Number) ∧
      d.destinationPort = (h.destinationPort.toNat : Number) ∧
      (d.policy.corrects .checksum = false → d.checksum = (h.checksum.toNat : Number)) := by
  cases derived : d.policy.corrects .checksum with
  | false =>
    rw [header_eq_plainHeader derived] at made
    obtain ⟨length, sourcePort, destinationPort, checksum⟩ := plainHeader_eq_ok_iff.mp made
    exact ⟨length, sourcePort, destinationPort, fun _ => checksum⟩
  | true =>
    obtain ⟨plain, _, _, verbatim, -, rfl⟩ := (header_eq_ok_iff derived).mp made
    obtain ⟨length, sourcePort, destinationPort, -⟩ := plainHeader_eq_ok_iff.mp verbatim
    exact ⟨length, sourcePort, destinationPort, fun off => nomatch off⟩

/-- Where the checksum is to be derived, it is the one for what was set. -/
theorem checksum_of_header (on : d.policy.corrects .checksum = true) (made : d.header payload.length payload = .ok h) :
    h.checksum = d.checksumFor payload := by
  obtain ⟨plain, source, destination, verbatim, given, rfl⟩ := (header_eq_ok_iff on).mp made
  obtain ⟨length, sourcePort, destinationPort, -⟩ := plainHeader_eq_ok_iff.mp verbatim
  obtain ⟨atSource, atDestination⟩ := addresses_eq_ok_iff.mp given
  have written : (if d.policy.corrects .length then ((8 + payload.length : Nat) : Number) else d.length) =
      (plain.length.toNat : Number) := by
    split
    · next derived => rw [length_of_plainHeader derived verbatim]; rfl
    · next off => exact length_eq_slot (Bool.eq_false_iff.mpr off) length
  simp only [checksumFor, written, sourcePort, destinationPort, atSource, atDestination, Option.getD_some]
  rfl

end Udp.Draft

namespace Draft.Makes

variable {d : Draft} {p : Packet}

/-- Every number is in range, and it is the one that was set or the one that was to be derived. -/
theorem holds (h : d.Makes p) : List.Forall₂ (NumericField.Holds p) d.fields p.numbers := by
  cases h with
  | @ipv6 d h body made =>
    obtain ⟨length, version, trafficClass, flowLabel, nextHeader, hopLimit, -⟩ := Ipv6.Draft.header_eq_ok_iff.mp made
    have verbatim (off : d.policy.corrects .length = false) : d.payloadLength = (h.payloadLength.toNat : Number) := by
      rw [Ipv6.Draft.lengthFor, off] at length
      exact Except.ok.inj length
    rw [Packet.numbers_over]
    refine .cons (.of_slot h.version.isLt version) (.cons (.of_slot h.trafficClass.isLt trafficClass)
      (.cons (.of_slot h.flowLabel.isLt flowLabel) (.cons (.of_corrects h.payloadLength.isLt verbatim fun on => ?_)
        (.cons (.of_slot h.nextHeader.isLt nextHeader) (.cons (.of_slot h.hopLimit.isLt hopLimit) .nil)))))
    rw [Packet.payloadBytes_over]
    exact d.payloadLength_of_header on made
  | @udp d h body made =>
    obtain ⟨length, sourcePort, destinationPort, checksum⟩ := Udp.Draft.slots_of_header made
    rw [Packet.numbers_over]
    refine .cons (.of_slot h.sourcePort.isLt sourcePort) (.cons (.of_slot h.destinationPort.isLt destinationPort)
      (.cons (.of_corrects h.length.isLt (fun off => Udp.Draft.length_eq_slot off length) fun on => ?_)
        (.cons (.of_corrects h.checksum.isLt checksum fun on => ?_) .nil)))
    · rw [Packet.payloadBytes_over]
      exact d.length_of_header on made
    · rw [Packet.payloadBytes_over]
      exact congrArg BitVec.toNat (Udp.Draft.checksum_of_header on made)
  | @redirected d reserved h body _ made =>
    obtain ⟨length, -⟩ := Redirected.Draft.header_eq_ok_iff.mp made
    have verbatim (off : d.policy.corrects .length = false) : d.length = (h.length.toNat : Number) := by
      rw [Redirected.Draft.lengthFor, off] at length
      exact Except.ok.inj length
    refine .cons (.of_slot (by decide) rfl) (.cons (.of_corrects h.length.isLt verbatim fun on => ?_) .nil)
    have measured : 8 * h.length.toNat = 8 + body.serialize.length := d.length_of_header on made
    exact (Nat.div_eq_of_eq_mul_right (by decide) measured.symm).symm
  | @ssh d h padding mac body made =>
    obtain ⟨-, lengths⟩ := Ssh.Draft.header_eq_ok_iff.mp made
    have verbatim (off : d.policy.corrects .length = false) :
        d.packetLength = (h.packetLength.toNat : Number) ∧ d.paddingLength = (h.paddingLength.toNat : Number) := by
      rw [Ssh.Draft.lengthsFor, off] at lengths
      exact Ssh.Fields.mk.inj (Except.ok.inj lengths)
    have derived (on : d.policy.corrects .length = true) := d.lengths_of_header on made
    exact .cons (.of_corrects h.packetLength.isLt (fun off => (verbatim off).1) fun on => (derived on).1)
      (.cons (.of_corrects h.paddingLength.isLt (fun off => (verbatim off).2) fun on => (derived on).2) .nil)

/-- Every block is the one that was set, and of the right size. -/
theorem blocks (h : d.Makes p) : d.blocks = p.blocks.map some ∧ p.blocks.map List.length = d.format.sizes := by
  cases h with
  | @ipv6 d h body made =>
    obtain ⟨-, -, -, -, -, -, source, destination⟩ := Ipv6.Draft.header_eq_ok_iff.mp made
    have sizes : [h.source.bytes.length, h.destination.bytes.length] = [16, 16] := by
      rw [h.source.size, h.destination.size]
      rfl
    rw [Packet.blocks_over]
    exact ⟨by rw [Draft.blocks, source, destination]; rfl, sizes⟩
  | udp made =>
    rw [Packet.blocks_over]
    exact ⟨rfl, rfl⟩
  | @redirected d reserved h body present made =>
    obtain ⟨-, rfl⟩ := Redirected.Draft.header_eq_ok_iff.mp made
    exact ⟨by rw [Draft.blocks, present]; rfl, by rw [Packet.blocks, List.map_singleton, h.reserved.size]; rfl⟩
  | ssh made => exact ⟨rfl, rfl⟩

/-- The front of the bytes reads as the numbers and the blocks. -/
theorem read (h : d.Makes p) : d.format.read p.serialize = (p.numbers, p.blocks) := by
  cases h with
  | @ipv6 d h body made =>
    rw [Packet.serialize_over, Packet.numbers_over, Packet.blocks_over]
    exact h.read_wire _
  | @udp d h body made =>
    rw [Packet.serialize_over, Packet.numbers_over, Packet.blocks_over]
    exact h.read_wire _
  | @redirected d reserved h body _ made =>
    rw [Packet.serialize_carrying]
    exact h.read_wire _
  | @ssh d h padding mac body made =>
    rw [Packet.serialize_carrying]
    exact h.read_wire _

end Draft.Makes

/-- **Building truncates nothing**: whatever numbers were set, each number of a header that is built is in range and the
one that was set or derived, and the front of the bytes reads as exactly the header's numbers and blocks. A number that
is not derived and is out of range, or no integer, is refused. -/
theorem Draft.build_truncates_nothing (d : Draft) (payload : Option Builder) :
    let built := (Builder.over d payload).build
    (∀ p, built = .ok p →
      List.Forall₂ (NumericField.Holds p) d.fields p.numbers ∧
      d.blocks = p.blocks.map some ∧ p.blocks.map List.length = d.format.sizes ∧
      d.format.read p.serialize = (p.numbers, p.blocks)) ∧
    ((∃ field ∈ d.fields, field.derived = none ∧ ¬ ∃ n < field.bound, field.slot = (n : Number)) →
      ∃ f, built = .error f) := by
  intro built
  refine ⟨fun p given => ?_, fun ⟨field, member, verbatim, outside⟩ => ?_⟩
  · have makes := makes_of_build given
    exact ⟨makes.holds, makes.blocks.1, makes.blocks.2, makes.read⟩
  · cases given : built with
    | error f => exact ⟨f, rfl⟩
    | ok p =>
      obtain ⟨n, holds⟩ := NumericField.exists_holds (makes_of_build given).holds member
      exact absurd ⟨n, holds.below, holds.verbatim verbatim⟩ outside

/-- An IPv6 header whose first word has its top bit set, around three bytes; and half a flow label. -/
theorem Draft.build_truncates_nothing_of_ones :
    let d : Ipv6.Draft :=
      { version := 15, trafficClass := 0xff, flowLabel := 0xfffff, source := Bytes.zeros 16
        destination := Bytes.zeros 16, policy := ⟨[.length], [.length]⟩ }
    let payload : Builder := .leaf (.unknown [1, 2, 3])
    (∃ p, (Builder.over (.ipv6 d) payload).build = .ok p ∧
      HeaderFormat.ipv6.read p.serialize = ([15, 0xff, 0xfffff, 3, 59, 64], [Bytes.zeros 16, Bytes.zeros 16])) ∧
    ∃ f, (Builder.over (.ipv6 { d with flowLabel := .fraction 1 0 }) payload).build = .error f := by
  intro d payload
  let address : Ipv6.Address := ⟨Bytes.zeros 16, rfl⟩
  have built : (Builder.over (.ipv6 d) payload).build =
      .ok (.carrying (.datagram (.ipv6 ⟨15, 0xff, 0xfffff, 3, 59, 64, address, address⟩ [])) (.unknown [1, 2, 3])) := by
    decide +kernel
  let half : NumericField := { bound := 2 ^ 20, slot := .fraction 1 0 }
  have broken : half ∈ (Draft.ipv6 { d with flowLabel := half.slot }).fields := .tail _ (.tail _ (.head _))
  obtain ⟨-, -, -, read⟩ := (build_truncates_nothing (.ipv6 d) payload).1 _ built
  exact ⟨⟨_, built, read⟩,
    (build_truncates_nothing _ payload).2 ⟨half, broken, rfl, fun ⟨_, _, same⟩ => by cases same⟩⟩

end PacketStack
