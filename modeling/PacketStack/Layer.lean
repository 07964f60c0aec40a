/-
The ways to take a byte string apart.

Dissecting looks at one layer only. It either completes a packet or hands the bytes inside the layer off,
with the number that selects their decoder; those bytes are never empty and always fewer than the layer's
own, so that decoding ends (`dissect_handoff`).
-/
import PacketStack.Packet

namespace PacketStack

inductive Layer
  | ipv6
  | udp
  | redirected
  | ssh
  | unknown
  deriving DecidableEq

inductive Dissection
  | complete (p : Packet)
  /-- The frame still lacks its payload, which `inner` is to be decoded into. -/
  | handoff (frame : Frame) (contract : Contract) (value : Nat) (inner : Bytes)

namespace Layer

/-- A payload length of zero says that there is no payload. -/
def dissectIpv6 (raw : Bytes) : Except Fault Dissection := do
  let (h, rest) ← Ipv6.Header.decode raw
  let length := h.payloadLength.toNat
  if rest.length < length then .error (.ipv6PayloadLength length rest.length raw)
  else if length = 0 then .ok (.complete (.bare (.ipv6 h rest)))
  else
    .ok (.handoff (.datagram (.ipv6 h (rest.drop length))) .ipNumber h.nextHeader.toNat (rest.take length))

/-- The payload is not looked into. -/
def dissectUdp (raw : Bytes) : Except Fault Dissection := do
  let (h, rest) ← Udp.Header.decode raw
  let length := h.length.toNat
  if length < Udp.headerSize ∨ raw.length < length then .error (.udpLength length raw)
  else if length = Udp.headerSize then .ok (.complete (.bare (.udp h rest)))
  else
    let size := length - Udp.headerSize
    .ok (.complete (.carrying (.datagram (.udp h (rest.drop size))) (.unknown (rest.take size))))

/-- All that follows the reserved bytes is taken for an IPv6 packet. -/
def dissectRedirected (raw : Bytes) : Except Fault Dissection := do
  let (h, embedded) ← Redirected.Header.decode raw
  .ok (.handoff (.redirected h) .etherType Contract.ipv6EtherType embedded)

/-- The payload's first byte is the message number that selects its decoder. -/
def dissectSsh (raw : Bytes) : Except Fault Dissection := do
  let (h, rest) ← Ssh.Header.decode raw
  let length := h.packetLength.toNat
  let padding := h.paddingLength.toNat
  let needed := 4 + length
  if length = padding + 1 then .error (.sshPayloadMissing raw)
  else if length < padding + 1 then .error (.sshPaddingLength padding length raw)
  else if raw.length < needed then .error (.sshLength length needed raw)
  else
    let size := length - padding - 1
    let inner := rest.take size
    let behind := rest.drop size
    .ok (.handoff (.ssh h (behind.take padding) (behind.drop padding)) .sshMessageNumber (inner.headD 0).toNat inner)

def dissectUnknown (raw : Bytes) : Except Fault Dissection :=
  if raw.isEmpty then .error .unknownEmpty else .ok (.complete (.unknown raw))

def dissect : Layer → Bytes → Except Fault Dissection
  | ipv6 => dissectIpv6
  | udp => dissectUdp
  | redirected => dissectRedirected
  | ssh => dissectSsh
  | unknown => dissectUnknown

theorem dissect_handoff {l : Layer} {raw inner : Bytes} {frame : Frame} {contract : Contract} {value : Nat}
    (h : l.dissect raw = .ok (.handoff frame contract value inner)) : inner ≠ [] ∧ inner.length < raw.length := by
  suffices 0 < inner.length ∧ inner.length < raw.length from ⟨List.ne_nil_of_length_pos this.1, this.2⟩
  cases l with
  | ipv6 =>
    obtain ⟨⟨hdr, rest⟩, hd, h⟩ := bind_eq_ok.mp h
    have := Ipv6.Header.length_of_decode hd
    simp only at h
    split at h
    · cases h
    split at h <;> cases h
    simp only [List.length_take, Ipv6.headerSize] at *
    omega
  | udp =>
    obtain ⟨⟨hdr, rest⟩, hd, h⟩ := bind_eq_ok.mp h
    simp only at h
    split at h
    · cases h
    split at h <;> cases h
  | redirected =>
    obtain ⟨⟨hdr, embedded⟩, hd, h⟩ := bind_eq_ok.mp h
    have := Redirected.Header.length_of_decode hd
    cases h
    simp only [Redirected.fixedSize, Redirected.embeddedMinimum] at this
    omega
  | ssh =>
    obtain ⟨⟨hdr, rest⟩, hd, h⟩ := bind_eq_ok.mp h
    have := Ssh.Header.length_of_decode hd
    simp only at h
    split at h
    · cases h
    split at h
    · cases h
    split at h <;> cases h
    simp only [List.length_take, Ssh.headerSize] at *
    omega
  | unknown =>
    simp only [dissect, dissectUnknown] at h
    split at h <;> cases h

end Layer
end PacketStack
