/-
How many bytes a chain has.

The length that is added up from the parts of a chain is the length of its bytes (`Packet.byteLength_eq`), and
what a builder comes to can be read off its drafts before anything is built: `Builder.size` is the length of
whatever is built from it (`Builder.byteLength_of_build`).
-/
import PacketStack.Proofs.Dissection
import PacketStack.Proofs.Slots

namespace PacketStack

/-! ## Chains -/

theorem Bytes.total_eq (parts : List Bytes) : total parts = parts.flatten.length := by
  induction parts with
  | nil => rfl
  | cons part rest ih => rw [total, List.flatten_cons, List.length_append, ih]

namespace Surround

theorem headingLength_eq (s : Surround) : s.headingLength = s.front.length := by
  unfold headingLength front
  cases s.heading with
  | none => rfl
  | some heading => exact Bytes.total_eq heading.raw

theorem trailingLength_eq (s : Surround) : s.trailingLength = s.back.length := Bytes.total_eq s.trailing

end Surround

/-- The length that is added up from the parts is that of the bytes that are put together from them. -/
theorem Layout.byteLength_eq (l : Layout) : l.byteLength = l.serialize.length := by
  induction l with
  | leaf raw text malformed => rw [serialize_leaf, byteLength]
  | bare s => rw [serialize_bare, byteLength, List.length_append, s.headingLength_eq, s.trailingLength_eq]
  | around s payload ih =>
    rw [serialize_around, byteLength, List.length_append, List.length_append, s.headingLength_eq, s.trailingLength_eq,
      ih, Nat.add_assoc]

theorem Packet.byteLength_eq (p : Packet) : p.byteLength = p.serialize.length := p.layout.byteLength_eq

def Datagram.headerSize : Datagram → Nat
  | ipv6 .. => Ipv6.headerSize
  | udp .. => Udp.headerSize

def Frame.headerSize : Frame → Nat
  | datagram d => d.headerSize
  | redirected _ => Redirected.fixedSize
  | ssh .. => Ssh.headerSize

theorem Datagram.length_front (d : Datagram) : d.surround.front.length = d.headerSize := by
  cases d with
  | ipv6 h trailer => exact h.length_wire
  | udp h trailer => exact h.length_wire

theorem Frame.length_front (f : Frame) : f.surround.front.length = f.headerSize := by
  cases f with
  | datagram d => exact d.length_front
  | redirected h => exact h.length_wire
  | ssh h padding mac => exact h.length_wire

theorem Packet.byteLength_bare (d : Datagram) : (bare d).byteLength = d.headerSize + d.trailer.length := by
  rw [byteLength_eq, serialize_bare, List.length_append, d.length_front, d.back_eq]

theorem Packet.byteLength_carrying (f : Frame) (payload : Packet) :
    (carrying f payload).byteLength = f.headerSize + payload.byteLength + f.surround.back.length := by
  rw [byteLength_eq, serialize_carrying, List.length_append, List.length_append, f.length_front, ← byteLength_eq,
    Nat.add_assoc]

/-! ## With a payload or without -/

/-- A draft around a payload, or on its own. -/
def Builder.over (d : Draft) : Option Builder → Builder
  | none => bare d
  | some payload => carrying d payload

/-- A datagram around a payload, or on its own. -/
def Packet.over (d : Datagram) : Option Packet → Packet
  | none => bare d
  | some payload => carrying (.datagram d) payload

theorem Packet.payload?_over (d : Datagram) (body : Option Packet) : (Packet.over d body).payload? = body := by
  cases body <;> rfl

theorem Packet.serialize_over (d : Datagram) (body : Option Packet) :
    (Packet.over d body).serialize = d.surround.front ++ (body.elim [] serialize ++ d.trailer) := by
  cases body with
  | none => rw [Packet.over, serialize_bare, d.back_eq]; rfl
  | some payload => rw [Packet.over, serialize_carrying, Frame.surround, d.back_eq]; rfl

/-! ## Builders -/

namespace Draft

def headerSize : Draft → Nat
  | ipv6 _ => Ipv6.headerSize
  | udp _ => Udp.headerSize
  | redirected _ => Redirected.fixedSize
  | ssh _ => Ssh.headerSize

/-- The size of the fields behind a payload of `n` bytes. -/
def trailingSize : Draft → Nat → Nat
  | ipv6 d, _ => d.trailer.length
  | udp d, _ => d.trailer.length
  | redirected _, _ => 0
  | ssh d, n => ((d.paddingFor n).toOption.getD []).length + (d.mac.getD []).length

theorem size_of_close {d : Draft} {close : Packet → Except Fault Frame} {payload : Packet} {f : Frame}
    (prepared : d.prepare = .ok close) (closed : close payload = .ok f) :
    f.headerSize = d.headerSize ∧ f.surround.back.length = d.trailingSize payload.byteLength := by
  cases d with
  | ipv6 d =>
    cases prepared
    obtain ⟨header, -, built⟩ := bind_eq_ok.mp closed
    cases built
    exact ⟨rfl, congrArg List.length (Datagram.back_eq _)⟩
  | udp d =>
    cases prepared
    obtain ⟨header, -, built⟩ := bind_eq_ok.mp closed
    cases built
    exact ⟨rfl, congrArg List.length (Datagram.back_eq _)⟩
  | redirected d =>
    obtain ⟨reserved, -, rest⟩ := bind_eq_ok.mp prepared
    cases rest
    obtain ⟨header, -, built⟩ := bind_eq_ok.mp closed
    cases built
    exact ⟨rfl, rfl⟩
  | ssh d =>
    obtain ⟨mac, present, rest⟩ := bind_eq_ok.mp prepared
    cases rest
    obtain ⟨⟨header, padding⟩, made, built⟩ := bind_eq_ok.mp closed
    cases built
    obtain ⟨given, -⟩ := Ssh.Draft.header_eq_ok_iff.mp made
    have code : d.mac = some mac := Field.required_eq_ok_iff.mp present
    refine ⟨rfl, ?_⟩
    simp only [Frame.surround, Surround.back, List.flatten_cons, List.flatten_nil, List.append_nil, List.length_append,
      trailingSize, given, code, Except.toOption, Option.getD_some]

theorem size_of_alone {d : Draft} {made : Datagram} (built : d.alone = .ok made) :
    made.headerSize = d.headerSize ∧ made.trailer.length = d.trailingSize 0 := by
  cases d with
  | ipv6 d =>
    obtain ⟨header, -, built⟩ := bind_eq_ok.mp built
    cases built
    exact ⟨rfl, rfl⟩
  | udp d =>
    obtain ⟨header, -, built⟩ := bind_eq_ok.mp built
    cases built
    exact ⟨rfl, rfl⟩
  | redirected d => cases built
  | ssh d => cases built

end Draft

namespace Builder

/-- The number of bytes that the chain comes to. -/
def size : Builder → Nat
  | leaf l => l.raw.length
  | bare d => d.headerSize + d.trailingSize 0
  | carrying d payload => d.headerSize + payload.size + d.trailingSize payload.size

theorem byteLength_of_build {b : Builder} {p : Packet} (built : b.build = .ok p) : p.byteLength = b.size := by
  induction b generalizing p with
  | leaf l =>
    cases built
    rfl
  | bare d =>
    obtain ⟨made, alone, rfl⟩ := build_bare_eq_ok_iff.mp built
    obtain ⟨front, back⟩ := Draft.size_of_alone alone
    rw [Packet.byteLength_bare, front, back, size]
  | carrying d payload ih =>
    obtain ⟨close, inner, f, prepared, below, closed, rfl⟩ := build_carrying_eq_ok_iff.mp built
    obtain ⟨front, back⟩ := Draft.size_of_close prepared closed
    rw [Packet.byteLength_carrying, front, back, ih below, size]

end Builder
end PacketStack
