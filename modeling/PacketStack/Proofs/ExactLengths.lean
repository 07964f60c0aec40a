/-
Lengths that are what they say.

A layer's lengths are exact when they are those of what it holds (`Packet.Exact`). Each decoder cuts its payload and
its trailing fields out by the announced lengths, so every layer of a decoded chain is exact (`Decodes.exact`), also
around payloads that were refused or quarantined. The redirected header option is the exception: its length only
has to fit into the bytes that are there, and what it embeds runs to their end.
-/
import PacketStack.Proofs.Lossless
import PacketStack.Proofs.Sizes
import PacketStack.Proofs.Splitting

namespace PacketStack

/-- The announced length is that of a payload of `n` bytes. -/
def Datagram.Measures : Datagram → Nat → Prop
  | ipv6 h _, n => h.payloadLength.toNat = n
  | udp h _, n => h.length.toNat = Udp.headerSize + n

/-- The announced lengths are those of a payload of `n` bytes and of the padding behind it. -/
def Frame.Measures : Frame → Nat → Prop
  | datagram d, n => d.Measures n
  | redirected h, n => Redirected.unit * h.length.toNat = Redirected.fixedSize + n
  | ssh h padding _, n => h.packetLength.toNat = 1 + n + padding.length ∧ h.paddingLength.toNat = padding.length

/-- The outermost layer's lengths, if it has any, are those of what it holds. -/
def Packet.Exact : Packet → Prop
  | leaf _ => True
  | bare d => d.Measures 0
  | carrying f payload => f.Measures payload.byteLength

namespace Packet

/-- Every layer but the redirected header options is exact. -/
def Settled (p : Packet) : Prop := ∀ q ∈ p.layers, q.kind ≠ .redirected → q.Exact

theorem settled_leaf (l : Leaf) : (leaf l).Settled := by
  intro q hq _
  obtain rfl := List.mem_singleton.mp hq
  trivial

theorem settled_bare {d : Datagram} (h : d.Measures 0) : (bare d).Settled := by
  intro q hq _
  obtain rfl := List.mem_singleton.mp hq
  exact h

theorem settled_carrying {f : Frame} {payload : Packet} :
    (carrying f payload).Settled ↔ (f.kind ≠ .redirected → f.Measures payload.byteLength) ∧ payload.Settled := by
  simp only [Settled, layers, List.forall_mem_cons, kind, Exact]

theorem byteLength_unmarked (p : Packet) : p.unmarked.byteLength = p.byteLength := by
  rw [byteLength_eq, byteLength_eq, serialize_unmarked]

theorem Settled.unmarked {p : Packet} (h : p.Settled) : p.unmarked.Settled := by
  induction p with
  | leaf l => exact settled_leaf _
  | bare d => exact h
  | carrying f payload ih =>
    obtain ⟨outer, below⟩ := settled_carrying.mp h
    refine settled_carrying.mpr ⟨fun other => ?_, ih below⟩
    rw [byteLength_unmarked]
    exact outer other

theorem Settled.quarantined {p : Packet} (h : p.Settled) : p.quarantined.Settled := by
  cases p with
  | leaf l => exact h
  | bare d => exact h
  | carrying f payload => exact Settled.unmarked h

end Packet

/-! ## Decoded chains -/

namespace Layer

theorem measures_of_handoff {l : Layer} {raw inner : Bytes} {frame : Frame} {contract : Contract} {value : Nat}
    (h : l.dissect raw = .ok (.handoff frame contract value inner)) (other : frame.kind ≠ .redirected) :
    frame.Measures inner.length := by
  cases splits_of_dissect h with
  | ipv6 _ size _ => exact size
  | redirected _ => exact absurd rfl other
  | ssh _ packet padding _ => exact ⟨packet, padding⟩

theorem settled_of_complete {l : Layer} {raw : Bytes} {p : Packet} (h : l.dissect raw = .ok (.complete p)) :
    p.Settled := by
  cases splits_of_dissect h with
  | ipv6Bare _ none => exact Packet.settled_bare none
  | udpBare _ none => exact Packet.settled_bare none
  | udp _ size _ => exact Packet.settled_carrying.mpr ⟨fun _ => size, Packet.settled_leaf _⟩
  | unknown _ => exact Packet.settled_leaf _

end Layer

theorem Frame.settled_enclosed {f : Frame} {payload : Packet} (below : payload.Settled)
    (outer : f.kind ≠ .redirected → f.Measures payload.byteLength) : (f.enclosed payload).Settled := by
  cases f with
  | datagram d => exact Packet.settled_carrying.mpr ⟨outer, below⟩
  | redirected h => exact Packet.settled_carrying.mpr ⟨fun other => absurd rfl other, below.quarantined⟩
  | ssh h padding mac => exact Packet.settled_carrying.mpr ⟨outer, below⟩

/-- The layers of a decoded chain announce the lengths that they have. -/
theorem Decodes.exact {r : Registry Decoder} {l : Layer} {raw : Bytes} {p : Packet} (h : Decodes r l raw p) :
    p.Settled := by
  induction h with
  | complete hd => exact Layer.settled_of_complete hd
  | nested hd _ below ih =>
    refine Frame.settled_enclosed ih fun other => ?_
    rw [Packet.byteLength_eq, below.serialize]
    exact Layer.measures_of_handoff hd other
  | contained hd _ =>
    refine Frame.settled_enclosed (Packet.settled_leaf _) fun other => ?_
    rw [Packet.byteLength_eq, Packet.malformed, Packet.serialize_leaf]
    exact Layer.measures_of_handoff hd other

end PacketStack
