/-
Layers that derive their lengths can be decoded again, whatever they carry.

What a draft derives is the length of what it is closed around (`Draft.measures_of_close`), and by that length a decoder
cuts the same bytes out again, between the header and the trailing fields (`Datagram.decode_over`,
`Frame.decode_around_ssh`). The payload has no part in this. Its own lengths may be wrong, it may look like a trailer,
its decoder may refuse it: the layer around it is the same, and so are the bytes inside.
-/
import PacketStack.Proofs.ExactLengths

namespace PacketStack

/-! ## What is derived -/

namespace Draft

variable {d : Draft} (on : d.policy.corrects .length = true)
include on

theorem measures_of_alone {made : Datagram} (built : d.alone = .ok made) : made.Measures 0 := by
  cases d with
  | ipv6 d =>
    obtain ⟨h, header, rest⟩ := bind_eq_ok.mp built
    cases rest
    exact d.payloadLength_of_header on header
  | udp d =>
    obtain ⟨h, header, rest⟩ := bind_eq_ok.mp built
    cases rest
    exact d.length_of_header on header
  | redirected d => cases built
  | ssh d => cases built

theorem measures_of_close {close : Packet → Except Fault Frame} {payload : Packet} {f : Frame}
    (prepared : d.prepare = .ok close) (closed : close payload = .ok f) : f.Measures payload.byteLength := by
  cases d with
  | ipv6 d =>
    cases prepared
    obtain ⟨h, header, rest⟩ := bind_eq_ok.mp closed
    cases rest
    exact d.payloadLength_of_header on header
  | udp d =>
    cases prepared
    obtain ⟨h, header, rest⟩ := bind_eq_ok.mp closed
    cases rest
    exact d.length_of_header on header
  | redirected d =>
    obtain ⟨reserved, -, rest⟩ := bind_eq_ok.mp prepared
    cases rest
    obtain ⟨h, header, rest⟩ := bind_eq_ok.mp closed
    cases rest
    exact d.length_of_header on header
  | ssh d =>
    obtain ⟨mac, -, rest⟩ := bind_eq_ok.mp prepared
    cases rest
    obtain ⟨⟨h, padding⟩, header, rest⟩ := bind_eq_ok.mp closed
    cases rest
    exact d.lengths_of_header on header

end Draft

/-! ## Datagrams -/

/-- The datagrams that a layer takes apart: IPv6 of version 6, and UDP. -/
inductive Datagram.Of : Layer → Datagram → Prop
  | ipv6 {h : Ipv6.Header} {trailer : Bytes} : h.version.toNat = 6 → Of .ipv6 (.ipv6 h trailer)
  | udp {h : Udp.Header} {trailer : Bytes} : Of .udp (.udp h trailer)

/-- The drafts of such datagrams that derive their length. -/
inductive Draft.Measuring : Layer → Draft → Prop
  | ipv6 {d : Ipv6.Draft} : d.version = 6 → d.policy.corrects .length = true → Measuring .ipv6 (.ipv6 d)
  | udp {d : Udp.Draft} : d.policy.corrects .length = true → Measuring .udp (.udp d)

theorem Draft.Measuring.derives {l : Layer} {d : Draft} (hd : d.Measuring l) : d.policy.corrects .length = true := by
  cases hd with
  | ipv6 _ on => exact on
  | udp on => exact on

theorem Draft.Measuring.of_alone {l : Layer} {d : Draft} (hd : d.Measuring l) {made : Datagram}
    (built : d.alone = .ok made) : made.Of l := by
  cases hd with
  | ipv6 version _ =>
    obtain ⟨h, header, rest⟩ := bind_eq_ok.mp built
    cases rest
    obtain ⟨-, same, -⟩ := Ipv6.Draft.header_eq_ok_iff.mp header
    exact .ipv6 (Number.nat_inj.mp (same.symm.trans version))
  | udp _ =>
    obtain ⟨h, -, rest⟩ := bind_eq_ok.mp built
    cases rest
    exact .udp

theorem Draft.Measuring.of_close {l : Layer} {d : Draft} (hd : d.Measuring l) {close : Packet → Except Fault Frame}
    {payload : Packet} {f : Frame} (prepared : d.prepare = .ok close) (closed : close payload = .ok f) :
    ∃ made : Datagram, f = .datagram made ∧ made.Of l := by
  cases hd with
  | ipv6 version _ =>
    cases prepared
    obtain ⟨h, header, rest⟩ := bind_eq_ok.mp closed
    cases rest
    obtain ⟨-, same, -⟩ := Ipv6.Draft.header_eq_ok_iff.mp header
    exact ⟨_, rfl, .ipv6 (Number.nat_inj.mp (same.symm.trans version))⟩
  | udp _ =>
    cases prepared
    obtain ⟨h, -, rest⟩ := bind_eq_ok.mp closed
    cases rest
    exact ⟨_, rfl, .udp⟩

/-- What is built measures its payload, if there is one, and no bytes otherwise. -/
theorem Draft.Measuring.of_build {l : Layer} {d : Draft} (hd : d.Measuring l) {payload : Option Builder} {p : Packet}
    (built : (Builder.over d payload).build = .ok p) :
    ∃ (made : Datagram) (body : Option Packet),
      p = Packet.over made body ∧ made.Of l ∧ made.Measures (body.elim [] Packet.serialize).length := by
  cases payload with
  | none =>
    obtain ⟨made, alone, rfl⟩ := Builder.build_bare_eq_ok_iff.mp built
    exact ⟨made, none, rfl, hd.of_alone alone, measures_of_alone hd.derives alone⟩
  | some payload =>
    obtain ⟨close, body, f, prepared, -, closed, rfl⟩ := Builder.build_carrying_eq_ok_iff.mp built
    have measured := measures_of_close hd.derives prepared closed
    obtain ⟨made, rfl, kind⟩ := hd.of_close prepared closed
    rw [body.byteLength_eq] at measured
    exact ⟨made, some body, rfl, kind, measured⟩

section
variable {r : Registry Decoder}

/-- **The step**: by its length alone, a datagram is read back around the bytes that it measures. -/
theorem Datagram.Of.decode_over (hr : r.Plain) {l : Layer} {made : Datagram} (kind : made.Of l) {body : Option Packet}
    (measured : made.Measures (body.elim [] Packet.serialize).length) :
    ∃ read, (l.decode r (Packet.over made body).serialize).result = .ok (Packet.over made read) := by
  rw [Packet.serialize_over]
  -- From here on nothing is known of the payload but its bytes.
  generalize body.elim [] Packet.serialize = inner at measured ⊢
  cases kind with
  | @ipv6 h trailer version =>
    have front := Ipv6.Header.decode_wire version (inner ++ trailer)
    by_cases empty : inner = []
    · subst empty
      exact ⟨none, congrArg Outcome.result (Layer.decode_complete (Layer.Splits.ipv6Bare front measured).dissect)⟩
    · exact ⟨some (r.nested .ipNumber h.nextHeader.toNat inner),
        Layer.result_of_handoff hr (Layer.Splits.ipv6 front measured empty).dissect⟩
  | @udp h trailer =>
    have front := h.decode_wire (inner ++ trailer)
    by_cases empty : inner = []
    · subst empty
      exact ⟨none, congrArg Outcome.result (Layer.decode_complete (Layer.Splits.udpBare front measured).dissect)⟩
    · exact ⟨some (.unknown inner),
        congrArg Outcome.result (Layer.decode_complete (Layer.Splits.udp front measured empty).dissect)⟩

/-- **A datagram that derives its length can be decoded**, whatever it carries and whatever follows it. The header, the
trailer and the bytes of the payload are the ones that were built. -/
theorem Layer.decode_measured (hr : r.Plain) {l : Layer} {d : Draft} (hd : d.Measuring l) {payload : Option Builder}
    {p : Packet} (built : (Builder.over d payload).build = .ok p) :
    ∃ (made : Datagram) (q : Packet), (l.decode r p.serialize).result = .ok q ∧
      p = Packet.over made p.payload? ∧ q = Packet.over made q.payload? ∧
      q.payload?.elim [] Packet.serialize = p.payload?.elim [] Packet.serialize ∧ p.sameBytes q = true := by
  obtain ⟨made, body, rfl, kind, measured⟩ := hd.of_build built
  obtain ⟨read, decoded⟩ := kind.decode_over hr measured
  have whole : (Packet.over made read).serialize = (Packet.over made body).serialize := (hr.decodes decoded).serialize
  have inside : read.elim [] Packet.serialize = body.elim [] Packet.serialize := by
    rw [Packet.serialize_over, Packet.serialize_over] at whole
    exact List.append_cancel_right (List.append_cancel_left whole)
  refine ⟨made, Packet.over made read, decoded, ?_, ?_, ?_, ?_⟩
  · rw [Packet.payload?_over]
  · rw [Packet.payload?_over]
  · rw [Packet.payload?_over, Packet.payload?_over, inside]
  · rw [Packet.sameBytes, whole, beq_self_eq_true]

/-- IPv6 around UDP whose own length is too short for it, so that it is refused; and UDP around no bytes, in front of a
trailer. -/
theorem Layer.decode_measured_around_refused :
    let ipv6 : Ipv6.Draft :=
      { nextHeader := 17, source := Bytes.zeros 16, destination := Bytes.zeros 16, trailer := [1, 2]
        policy := ⟨[.length], [.length]⟩ }
    let udp : Udp.Draft := { trailer := [7], policy := ⟨[.length, .checksum], [.length]⟩ }
    (∃ p q, (Builder.over (.ipv6 ipv6) (some (.bare (.udp { length := 5 })))).build = .ok p ∧
      (Layer.ipv6.decode Registry.builtIn p.serialize).result = .ok q ∧ q.containsMalformed = true ∧
      p.sameBytes q = true) ∧
    ∃ p q, (Builder.over (.udp udp) (some (.leaf (.unknown [])))).build = .ok p ∧
      (Layer.udp.decode Registry.builtIn p.serialize).result = .ok q ∧ q.payload? = none ∧ p.sameBytes q = true := by
  intro ipv6 udp
  let address : Ipv6.Address := ⟨Bytes.zeros 16, rfl⟩
  let around : Packet :=
    .carrying (.datagram (.ipv6 ⟨6, 0, 0, 8, 17, 64, address, address⟩ [1, 2])) (.bare (.udp ⟨0, 0, 5, 0⟩ []))
  let empty : Packet := .carrying (.datagram (.udp ⟨0, 0, 8, 0⟩ [7])) (.unknown [])
  have builtAround : (Builder.over (.ipv6 ipv6) (some (.bare (.udp { length := 5 })))).build = .ok around := by
    decide +kernel
  have builtEmpty : (Builder.over (.udp udp) (some (.leaf (.unknown [])))).build = .ok empty := by decide +kernel
  obtain ⟨made, q, decoded, -, -, -, same⟩ := decode_measured Registry.plain_builtIn (.ipv6 rfl rfl) builtAround
  obtain ⟨made', q', decoded', -, -, -, same'⟩ := decode_measured Registry.plain_builtIn (.udp rfl) builtEmpty
  have refused : (Layer.ipv6.decode Registry.builtIn around.serialize).result.toOption.map Packet.containsMalformed =
      some true := by decide +kernel
  have none : (Layer.udp.decode Registry.builtIn empty.serialize).result.toOption.map Packet.payload? = some none := by
    decide +kernel
  rw [decoded] at refused
  rw [decoded'] at none
  exact ⟨⟨around, q, builtAround, decoded, Option.some.inj refused, same⟩,
    ⟨empty, q', builtEmpty, decoded', Option.some.inj none, same'⟩⟩

end

/-! ## SSH binary packets -/

namespace Ssh

/-- What a draft around `n` bytes comes to where the lengths are derived. -/
structure Draft.Frames (d : Draft) (n : Nat) (h : Header) (padding mac : Bytes) : Prop where
  packetLength : h.packetLength.toNat = 1 + n + padding.length
  paddingLength : h.paddingLength.toNat = padding.length
  fits : padding.length ≤ 0xff
  mac : d.mac = some mac
  given : d.paddingAtBuild = false → d.padding = some padding
  computed : d.paddingAtBuild = true →
    ∃ size : Nat, d.cipherBlockSize = size ∧ padding = Bytes.zeros (n % max size 8)

theorem Draft.frames_of_build {d : Draft} (on : d.policy.corrects .length = true) {payload : Builder} {p : Packet}
    (built : (Builder.carrying (.ssh d) payload).build = .ok p) :
    ∃ (h : Header) (padding mac : Bytes) (body : Packet), p = .carrying (.ssh h padding mac) body ∧
      payload.build = .ok body ∧ d.Frames body.serialize.length h padding mac := by
  obtain ⟨close, body, f, prepared, below, closed, rfl⟩ := Builder.build_carrying_eq_ok_iff.mp built
  have measured := PacketStack.Draft.measures_of_close (d := .ssh d) on prepared closed
  obtain ⟨mac, present, rest⟩ := bind_eq_ok.mp prepared
  cases rest
  obtain ⟨⟨h, padding⟩, header, rest⟩ := bind_eq_ok.mp closed
  cases rest
  obtain ⟨chosen, -⟩ := header_eq_ok_iff.mp header
  rw [body.byteLength_eq] at measured chosen
  obtain ⟨packetLength, paddingLength⟩ := measured
  have byte := h.paddingLength.isLt
  refine ⟨h, padding, mac, body, rfl, below, packetLength, paddingLength, by omega, Field.required_eq_ok_iff.mp present,
    fun off => ?_, fun on => ?_⟩
  · simp only [paddingFor, off, Bool.false_eq_true, if_false] at chosen
    split at chosen <;> cases chosen
    assumption
  · simp only [paddingFor, on, if_true] at chosen
    obtain ⟨size, admissible, rest⟩ := bind_eq_ok.mp chosen
    cases rest
    exact ⟨size, (Field.unsigned_eq_ok_iff.mp admissible).1, rfl⟩

section
variable {r : Registry Decoder} {d : Draft} {h : Header} {padding mac : Bytes} {body : Packet}

theorem Header.decode_carrying (h : Header) (padding mac : Bytes) (body : Packet) :
    decode (Packet.carrying (.ssh h padding mac) body).serialize = .ok (h, body.serialize ++ (padding ++ mac)) := by
  rw [Packet.serialize_carrying, Frame.back_ssh]
  exact h.decode_wire _

namespace Draft.Frames

theorem length_serialize (hf : d.Frames body.serialize.length h padding mac) :
    (Packet.carrying (.ssh h padding mac) body).serialize.length = 4 + h.packetLength.toNat + mac.length := by
  have front := (Frame.ssh h padding mac).length_front
  rw [Packet.serialize_carrying, List.length_append, List.length_append, front, Frame.back_ssh, List.length_append,
    hf.packetLength, Frame.headerSize, headerSize]
  omega

/-- **The step**: two lengths are enough to tell payload, padding and authentication code apart. -/
theorem decode_around (hr : r.Plain) (hf : d.Frames body.serialize.length h padding mac)
    (present : body.serialize ≠ []) : ∃ read,
      (Layer.ssh.decode r (Packet.carrying (.ssh h padding mac) body).serialize).result =
        .ok (.carrying (.ssh h padding mac) read) := by
  have front := h.decode_carrying padding mac body
  have parts := (Layer.Splits.ssh front hf.packetLength hf.paddingLength present).dissect
  exact ⟨_, Layer.result_of_handoff hr parts⟩

theorem ne_nil_of_decode (hf : d.Frames body.serialize.length h padding mac) {q : Packet}
    (decoded : (Layer.ssh.decode r (Packet.carrying (.ssh h padding mac) body).serialize).result = .ok q) :
    body.serialize ≠ [] := by
  obtain ⟨parts, accepted⟩ := Layer.exists_dissect_of_decode decoded
  cases Layer.splits_of_dissect accepted with
  | @ssh _ inner padding' mac' h' front packet pad present =>
    rw [h.decode_carrying] at front
    obtain ⟨rfl, -⟩ := Prod.mk.inj (Except.ok.inj front)
    have packetLength := hf.packetLength
    have paddingLength := hf.paddingLength
    have some := List.length_pos_iff.mpr present
    exact List.ne_nil_of_length_pos (by omega)

end Draft.Frames

/-- **A packet that derives its lengths keeps the frame law**, and is decoded exactly if its payload has any bytes. Both
lengths, the padding, the authentication code and the bytes of the payload are then the ones that were built. -/
theorem Draft.build_frames (hr : r.Plain) (on : d.policy.corrects .length = true) {payload : Builder} {p : Packet}
    (built : (Builder.carrying (.ssh d) payload).build = .ok p) :
    ∃ (h : Header) (padding mac : Bytes) (body : Packet), p = .carrying (.ssh h padding mac) body ∧
      payload.build = .ok body ∧ d.Frames body.serialize.length h padding mac ∧
      p.serialize.length = 4 + h.packetLength.toNat + mac.length ∧
      ((∃ q, (Layer.ssh.decode r p.serialize).result = .ok q) ↔ body.serialize ≠ []) ∧
      ∀ q, (Layer.ssh.decode r p.serialize).result = .ok q →
        ∃ read, q = .carrying (.ssh h padding mac) read ∧ read.serialize = body.serialize := by
  obtain ⟨h, padding, mac, body, rfl, below, hf⟩ := frames_of_build on built
  refine ⟨h, padding, mac, body, rfl, below, hf, hf.length_serialize, ⟨?_, fun present => ?_⟩, fun q decoded => ?_⟩
  · rintro ⟨q, decoded⟩
    exact hf.ne_nil_of_decode decoded
  · obtain ⟨read, decoded⟩ := hf.decode_around hr present
    exact ⟨_, decoded⟩
  · obtain ⟨read, decoded'⟩ := hf.decode_around hr (hf.ne_nil_of_decode decoded)
    have whole := (hr.decodes decoded').serialize
    rw [decoded'] at decoded
    cases decoded
    rw [Packet.serialize_carrying, Packet.serialize_carrying] at whole
    exact ⟨read, rfl, List.append_cancel_right (List.append_cancel_left whole)⟩

/-- Three bytes of padding behind nineteen of payload, for blocks of sixteen; and a payload without bytes, which is built
but not decoded. -/
theorem Draft.build_frames_of_computed_padding :
    let d : Draft :=
      { mac := some [0xaa, 0xbb], cipherBlockSize := 16, paddingAtBuild := true, policy := ⟨[.length], [.length]⟩ }
    (∃ p q read, (Builder.carrying (.ssh d) (.leaf (.unknown (Bytes.zeros 19)))).build = .ok p ∧
      p.serialize.length = 29 ∧ (Layer.ssh.decode Registry.builtIn p.serialize).result = .ok q ∧
      q = .carrying (.ssh ⟨23, 3⟩ [0, 0, 0] [0xaa, 0xbb]) read ∧ read.serialize = Bytes.zeros 19) ∧
    ∃ p, (Builder.carrying (.ssh d) (.leaf (.unknown []))).build = .ok p ∧
      ¬ ∃ q, (Layer.ssh.decode Registry.builtIn p.serialize).result = .ok q := by
  intro d
  have built : (Builder.carrying (.ssh d) (.leaf (.unknown (Bytes.zeros 19)))).build =
      .ok (.carrying (.ssh ⟨23, 3⟩ [0, 0, 0] [0xaa, 0xbb]) (.unknown (Bytes.zeros 19))) := by decide +kernel
  have builtEmpty : (Builder.carrying (.ssh d) (.leaf (.unknown []))).build =
      .ok (.carrying (.ssh ⟨1, 0⟩ [] [0xaa, 0xbb]) (.unknown [])) := by decide +kernel
  constructor
  · obtain ⟨h, padding, mac, body, whole, -, -, length, accepted, read⟩ := build_frames Registry.plain_builtIn rfl built
    cases whole
    obtain ⟨q, decoded⟩ := accepted.mpr (by decide)
    obtain ⟨inner, same, bytes⟩ := read q decoded
    exact ⟨_, q, inner, built, length, decoded, same, bytes⟩
  · obtain ⟨h, padding, mac, body, whole, -, -, -, accepted, -⟩ := build_frames Registry.plain_builtIn rfl builtEmpty
    cases whole
    exact ⟨_, builtEmpty, fun decoded => accepted.mp decoded rfl⟩

end
end Ssh
end PacketStack
