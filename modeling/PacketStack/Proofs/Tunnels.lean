/-
IPv6 layers in each other come back from the wire as they were built.

`Ipv6Stack` lists the chains that this holds for: tunnels of any depth, the innermost of which carries nothing, bytes
without a decoder, or UDP. Every length in them is derived, so building fails at most for one that does not fit; each
layer that is built measures its own payload, wherever the trailers around it begin, and the number in front of the
payload leads to the decoder that takes it apart. `Returns.around` is the step from a payload to the layer around it.
-/
import PacketStack.Proofs.Acceptance
import PacketStack.Proofs.Lookups
import PacketStack.Proofs.Sizes
import PacketStack.Proofs.Splitting

namespace PacketStack

/-- An integer between zero and `max`. -/
def Number.Within (max : Nat) (x : Number) : Prop := ∃ n : Nat, x = (n : Number) ∧ n ≤ max

theorem Number.Within.exists_word {w : Nat} {x : Number} (h : x.Within (2 ^ w - 1)) :
    ∃ v : BitVec w, x = (v.toNat : Number) := by
  obtain ⟨n, rfl, le⟩ := h
  have fits : n < 2 ^ w := Nat.lt_of_le_of_lt le (Nat.sub_lt (Nat.two_pow_pos w) Nat.one_pos)
  exact ⟨BitVec.ofNat w n, by rw [BitVec.toNat_ofNat, Nat.mod_eq_of_lt fits]⟩

/-! ## One layer -/

/-- Slots that an IPv6 layer can be built from, whose length is derived. -/
structure Ipv6.Draft.Corrected (d : Draft) : Prop where
  version : d.version = 6
  trafficClass : d.trafficClass.Within 0xff
  flowLabel : d.flowLabel.Within 0xfffff
  nextHeader : d.nextHeader.Within 0xff
  hopLimit : d.hopLimit.Within 0xff
  source : ∃ address : Address, d.source = some address.bytes
  destination : ∃ address : Address, d.destination = some address.bytes
  derives : d.policy.corrects .length = true

/-- Slots that a UDP layer can be built from, whose length is derived. Only a derived checksum needs the addresses. -/
structure Udp.Draft.Corrected (d : Draft) : Prop where
  sourcePort : d.sourcePort.Within 0xffff
  destinationPort : d.destinationPort.Within 0xffff
  checksum : d.checksum.Within 0xffff
  derives : d.policy.corrects .length = true
  addresses : d.policy.corrects .checksum = true →
    ∃ source destination : Block 16, d.source = some source.bytes ∧ d.destination = some destination.bytes

section
variable {h : Ipv6.Header} (version : h.version.toNat = 6)
include version

theorem Ipv6.Header.decode_bare (trailer : Bytes) :
    decode (Packet.bare (.ipv6 h trailer)).serialize = .ok (h, trailer) := by
  rw [Packet.serialize_bare, Datagram.back_eq]
  exact decode_wire version trailer

theorem Ipv6.Header.decode_carrying (trailer : Bytes) (payload : Packet) :
    decode (Packet.carrying (.datagram (.ipv6 h trailer)) payload).serialize =
      .ok (h, payload.serialize ++ trailer) := by
  rw [Packet.serialize_carrying, Frame.surround, Datagram.back_eq]
  exact decode_wire version _

end

section
variable (h : Udp.Header)

theorem Udp.Header.decode_bare (trailer : Bytes) :
    decode (Packet.bare (.udp h trailer)).serialize = .ok (h, trailer) := by
  rw [Packet.serialize_bare, Datagram.back_eq]
  exact h.decode_wire trailer

theorem Udp.Header.decode_carrying (trailer : Bytes) (payload : Packet) :
    decode (Packet.carrying (.datagram (.udp h trailer)) payload).serialize =
      .ok (h, payload.serialize ++ trailer) := by
  rw [Packet.serialize_carrying, Frame.surround, Datagram.back_eq]
  exact h.decode_wire _

end

/-- The only thing that can be wrong with the header is the length of the payload. -/
theorem Ipv6.Draft.Corrected.header_cases {d : Draft} (hd : d.Corrected) (n : Nat) :
    (0xffff < n ∧ d.header n = .error (.ipv6Overflow n)) ∨
    (n ≤ 0xffff ∧ ∃ h : Header, d.header n = .ok h ∧ h.version.toNat = 6 ∧ h.payloadLength.toNat = n ∧
      d.nextHeader = (h.nextHeader.toNat : Number)) := by
  by_cases long : 0xffff < n
  · have refused : d.lengthFor n = .error (.ipv6Overflow n) := by rw [lengthFor, if_pos hd.derives, if_pos long]
    exact .inl ⟨long, by rw [header, refused, error_bind]⟩
  · obtain ⟨trafficClass, ht⟩ := Number.Within.exists_word (w := 8) hd.trafficClass
    obtain ⟨flowLabel, hf⟩ := Number.Within.exists_word (w := 20) hd.flowLabel
    obtain ⟨nextHeader, hn⟩ := Number.Within.exists_word (w := 8) hd.nextHeader
    obtain ⟨hopLimit, hh⟩ := Number.Within.exists_word (w := 8) hd.hopLimit
    obtain ⟨source, hs⟩ := hd.source
    obtain ⟨destination, hd'⟩ := hd.destination
    have length : (BitVec.ofNat 16 n).toNat = n := by rw [BitVec.toNat_ofNat, Nat.mod_eq_of_lt (by omega)]
    refine .inr ⟨Nat.le_of_not_lt long, ⟨6, trafficClass, flowLabel, BitVec.ofNat 16 n, nextHeader, hopLimit, source,
      destination⟩, ?_, rfl, length, hn⟩
    refine header_eq_ok_iff.mpr ⟨?_, hd.version, ht, hf, hn, hh, hs, hd'⟩
    rw [lengthFor, if_pos hd.derives, if_neg long, length]

theorem Udp.Draft.Corrected.header_cases {d : Draft} (hd : d.Corrected) (n : Nat) (payload : Bytes) :
    (0xffff < headerSize + n ∧ d.header n payload = .error (.udpOverflow (headerSize + n))) ∨
    (headerSize + n ≤ 0xffff ∧ ∃ h : Header, d.header n payload = .ok h ∧ h.length.toNat = headerSize + n) := by
  by_cases long : 0xffff < headerSize + n
  · have refused : d.lengthFor n = .error (.udpOverflow (headerSize + n)) := by
      simp only [lengthFor, hd.derives, long, if_true]
    exact .inl ⟨long, by rw [header, plainHeader, refused, error_bind, error_bind]⟩
  · obtain ⟨sourcePort, hs⟩ := Number.Within.exists_word (w := 16) hd.sourcePort
    obtain ⟨destinationPort, hd'⟩ := Number.Within.exists_word (w := 16) hd.destinationPort
    obtain ⟨checksum, hc⟩ := Number.Within.exists_word (w := 16) hd.checksum
    have length : (BitVec.ofNat 16 (headerSize + n)).toNat = headerSize + n := by
      rw [BitVec.toNat_ofNat, Nat.mod_eq_of_lt (by omega)]
    have plain : d.plainHeader n = .ok ⟨sourcePort, destinationPort, BitVec.ofNat 16 (headerSize + n), checksum⟩ := by
      refine plainHeader_eq_ok_iff.mpr ⟨?_, hs, hd', hc⟩
      simp only [lengthFor, hd.derives, long, length, if_true, if_false]
    refine .inr ⟨Nat.le_of_not_lt long, ?_⟩
    cases derived : d.policy.corrects .checksum with
    | false => exact ⟨_, (header_eq_plainHeader derived n payload).trans plain, length⟩
    | true =>
      obtain ⟨source, destination, given⟩ := hd.addresses derived
      have both := addresses_eq_ok_iff.mpr given
      exact ⟨_, (header_eq_ok_iff derived).mpr ⟨_, source, destination, plain, both, rfl⟩, length⟩

/-! ## Nested decoding -/

/-- A layer's decoder that succeeds is all that a nested decode does. -/
theorem Registry.decodeNested_of_layer {r : Registry Decoder} {contract : Contract} {value : Number} {raw : Bytes}
    {l : Layer} {p : Packet} {events : List Event} (found : r.find? contract value = some (.layer l))
    (decoded : l.decode r raw = { result := .ok p, events }) :
    r.decodeNested contract raw value = { result := .ok p, events } := by
  rw [decodeNested_of_handler found]
  change Route.contain _ raw (l.decode r raw) = _
  rw [decoded]
  rfl

/-! ## Chains -/

namespace Builder

/-- The lengths that the IPv6 and UDP layers of a chain derive from their payloads. -/
def derivedLengths : Builder → List Nat
  | bare (.ipv6 _) => [0]
  | bare (.udp _) => [Udp.headerSize]
  | carrying (.ipv6 _) payload => payload.size :: payload.derivedLengths
  | carrying (.udp _) payload => (Udp.headerSize + payload.size) :: payload.derivedLengths
  | carrying _ payload => payload.derivedLengths
  | _ => []

/-- What is told when the chain is decoded: that there is no decoder for the bytes in the innermost IPv6 layer. -/
def fallbacks : Builder → List Event
  | carrying (.ipv6 d) (leaf _) => [.fallback .ipNumber d.nextHeader]
  | carrying (.ipv6 _) payload => payload.fallbacks
  | _ => []

/-- A UDP layer around bytes, or around nothing. -/
inductive UdpStack : Builder → Prop
  | empty {d : Udp.Draft} : d.Corrected → UdpStack (bare (.udp d))
  | unknown {d : Udp.Draft} {raw : Bytes} : d.Corrected → raw ≠ [] → UdpStack (carrying (.udp d) (leaf (.unknown raw)))

/-- IPv6 layers in each other under the next header `t`. -/
inductive Ipv6Stack (t : UInt8) : Builder → Prop
  | empty {d : Ipv6.Draft} : d.Corrected → Ipv6Stack t (bare (.ipv6 d))
  | unknown {d : Ipv6.Draft} {raw : Bytes} : d.Corrected → d.nextHeader ≠ 17 → d.nextHeader ≠ (t.toNat : Number) →
      raw ≠ [] → Ipv6Stack t (carrying (.ipv6 d) (leaf (.unknown raw)))
  | udp {d : Ipv6.Draft} {payload : Builder} : d.Corrected → d.nextHeader = 17 → UdpStack payload →
      Ipv6Stack t (carrying (.ipv6 d) payload)
  | tunnel {d : Ipv6.Draft} {payload : Builder} : d.Corrected → d.nextHeader = (t.toNat : Number) →
      Ipv6Stack t payload → Ipv6Stack t (carrying (.ipv6 d) payload)

/-- A builder that fails for a derived length, or builds a packet that decoding its bytes gives again. -/
inductive Returns (b : Builder) (decode : Bytes → Outcome) (events : List Event) : Prop
  | overflows {n : Nat} {f : Fault} : n ∈ b.derivedLengths → 0xffff < n → b.build = .error f →
      f.faultClass = .inconsistentLength → Returns b decode events
  | builds {p : Packet} : (∀ n ∈ b.derivedLengths, n ≤ 0xffff) → b.build = .ok p → p.serialize ≠ [] →
      decode p.serialize = { result := .ok p, events } → Returns b decode events

section
variable {r : Registry Decoder}

theorem Returns.nested {b : Builder} {l : Layer} {events : List Event} {contract : Contract} {value : Number}
    (h : b.Returns (l.decode r) events) (found : r.find? contract value = some (.layer l)) :
    b.Returns (fun raw => r.decodeNested contract raw value) events := by
  cases h with
  | overflows member long refused class_ => exact .overflows member long refused class_
  | builds fits built present decoded => exact .builds fits built present (Registry.decodeNested_of_layer found decoded)

theorem returns_unknown {raw : Bytes} (present : raw ≠ []) {contract : Contract} {value : Number}
    (missing : r.find? contract value = none) :
    (leaf (.unknown raw)).Returns (fun raw => r.decodeNested contract raw value) [.fallback contract value] := by
  have bytes : (Packet.leaf (.unknown raw)).serialize = raw := Packet.serialize_leaf _
  refine .builds (fun n none => nomatch none) rfl (by rwa [bytes]) ?_
  rw [bytes]
  exact Registry.decodeNested_of_missing missing present

/-- A layer's decoder only gives what there are bytes for. -/
theorem returns_of_decode {b : Builder} {l : Layer} {p : Packet} {events : List Event}
    (fits : ∀ n ∈ b.derivedLengths, n ≤ 0xffff) (built : b.build = .ok p)
    (decoded : l.decode r p.serialize = { result := .ok p, events }) : b.Returns (l.decode r) events := by
  refine .builds fits built (fun none => ?_) decoded
  have refused : l.refusal [] = some .malformedInput := by cases l <;> rfl
  obtain ⟨f, -, error⟩ := Layer.decode_of_refusal refused
  have given := error r
  rw [← none, decoded] at given
  cases given

theorem UdpStack.returns {b : Builder} (hb : b.UdpStack) : b.Returns (Layer.udp.decode r) [] := by
  cases hb with
  | @empty d hd =>
    obtain ⟨long, -⟩ | ⟨fits, h, made, length⟩ := hd.header_cases 0 []
    · exact absurd long (by decide)
    · have built : (bare (.udp d)).build = .ok (.bare (.udp h d.trailer)) := by
        simp only [build, Draft.alone, made, ok_bind]
        rfl
      have parts := (Layer.Splits.udpBare (h.decode_bare d.trailer) length).dissect
      refine returns_of_decode (fun n member => ?_) built (Layer.decode_complete parts)
      exact List.mem_singleton.mp member ▸ fits
  | @unknown d raw hd present =>
    have size : (Packet.leaf (.unknown raw)).byteLength = raw.length := rfl
    have bytes : (Packet.leaf (.unknown raw)).serialize = raw := Packet.serialize_leaf _
    obtain ⟨long, refused⟩ | ⟨fits, h, made, length⟩ := hd.header_cases raw.length raw
    · have failed : (carrying (.udp d) (leaf (.unknown raw))).build =
          .error (.udpOverflow (Udp.headerSize + raw.length)) := by
        simp only [build, Draft.prepare, ok_bind, size, bytes, refused]
        rfl
      exact .overflows List.mem_cons_self long failed rfl
    · have built : (carrying (.udp d) (leaf (.unknown raw))).build =
          .ok (.carrying (.datagram (.udp h d.trailer)) (.unknown raw)) := by
        simp only [build, Draft.prepare, ok_bind, size, bytes, made]
        rfl
      have front := h.decode_carrying d.trailer (.unknown raw)
      rw [Packet.unknown, bytes] at front
      have parts := (Layer.Splits.udp front length present).dissect
      refine returns_of_decode (fun n member => ?_) built (Layer.decode_complete parts)
      exact List.mem_singleton.mp member ▸ fits

/-- **The step**: a payload that comes back does so inside another IPv6 layer. -/
theorem Returns.around {d : Ipv6.Draft} (hd : d.Corrected) {payload : Builder} {events : List Event}
    (h : payload.Returns (fun raw => r.decodeNested .ipNumber raw d.nextHeader) events) :
    (carrying (.ipv6 d) payload).Returns (Layer.ipv6.decode r) events := by
  cases h with
  | @overflows n f member long refused class_ =>
    have failed : (carrying (.ipv6 d) payload).build = .error f := by
      simp only [build, Draft.prepare, ok_bind, refused]
      rfl
    exact .overflows (List.mem_cons_of_mem _ member) long failed class_
  | @builds q fits below present decoded =>
    have size : q.byteLength = payload.size := byteLength_of_build below
    obtain ⟨long, refused⟩ | ⟨short, h, made, version, length, next⟩ := hd.header_cases q.byteLength
    · have failed : (carrying (.ipv6 d) payload).build = .error (.ipv6Overflow q.byteLength) := by
        simp only [build, Draft.prepare, ok_bind, below, refused]
        rfl
      exact .overflows List.mem_cons_self (size ▸ long) failed rfl
    · have built : (carrying (.ipv6 d) payload).build = .ok (.carrying (.datagram (.ipv6 h d.trailer)) q) := by
        simp only [build, Draft.prepare, ok_bind, below, made]
        rfl
      -- The announced length ends the payload in front of the trailer; the next header is the one it was built with.
      have front := Ipv6.Header.decode_carrying version d.trailer q
      have parts := (Layer.Splits.ipv6 front (length.trans q.byteLength_eq) present).dissect
      refine returns_of_decode (fun n member => ?_) built ?_
      · obtain rfl | member := List.mem_cons.mp member
        · exact size ▸ short
        · exact fits n member
      · rw [Layer.decode_handoff parts, ← next, decoded]
        rfl

theorem returns_bare_ipv6 {d : Ipv6.Draft} (hd : d.Corrected) : (bare (.ipv6 d)).Returns (Layer.ipv6.decode r) [] := by
  obtain ⟨long, -⟩ | ⟨fits, h, made, version, length, -⟩ := hd.header_cases 0
  · exact absurd long (by decide)
  · have built : (bare (.ipv6 d)).build = .ok (.bare (.ipv6 h d.trailer)) := by
      simp only [build, Draft.alone, made, ok_bind]
      rfl
    have parts := (Layer.Splits.ipv6Bare (Ipv6.Header.decode_bare version d.trailer) length).dissect
    refine returns_of_decode (fun n member => ?_) built (Layer.decode_complete parts)
    exact List.mem_singleton.mp member ▸ fits

end

/-- What the next header of a layer leads to. -/
theorem find?_nextHeader {t : UInt8} (ht : t ≠ 17) {d : Ipv6.Draft} (hd : d.Corrected) :
    (Registry.tunnelling t).find? .ipNumber d.nextHeader =
      if d.nextHeader = (t.toNat : Number) then some (.layer .ipv6)
      else if d.nextHeader = 17 then some (.layer .udp) else none := by
  obtain ⟨n, next, le⟩ := hd.nextHeader
  rw [next, Registry.find?_tunnelling ht (Nat.le_trans le (by decide))]
  simp only [Number.nat_inj, show (17 : Number) = ((17 : Nat) : Number) from rfl]

theorem Ipv6Stack.returns {t : UInt8} (ht : t ≠ 17) {b : Builder} (hb : b.Ipv6Stack t) :
    b.Returns (Layer.ipv6.decode (.tunnelling t)) b.fallbacks := by
  induction hb with
  | empty hd => exact returns_bare_ipv6 hd
  | unknown hd notUdp notTunnel present =>
    have missing := find?_nextHeader ht hd
    rw [if_neg notTunnel, if_neg notUdp] at missing
    exact (returns_unknown present missing).around hd
  | @udp d payload hd next hp =>
    have other : d.nextHeader ≠ (t.toNat : Number) := fun same =>
      ht (UInt8.toNat_inj.mp (Number.nat_inj.mp (next.symm.trans same)).symm)
    have found := find?_nextHeader ht hd
    rw [if_neg other, if_pos next] at found
    have none : (carrying (.ipv6 d) payload).fallbacks = [] := by cases hp <;> rfl
    exact none ▸ (hp.returns.nested found).around hd
  | @tunnel d payload hd next hp ih =>
    have found := find?_nextHeader ht hd
    rw [if_pos next] at found
    have same : (carrying (.ipv6 d) payload).fallbacks = payload.fallbacks := by cases hp <;> rfl
    exact same ▸ (ih.nested found).around hd

end Builder

/-- **Building and decoding again is the identity on IPv6 in IPv6**: building fails exactly if a length that is derived
does not fit, and decoding the bytes of what is built gives it back, layer by layer. No layer of it is contained as
malformed; all that is told of is a number without a decoder. -/
theorem Layer.decode_build {t : UInt8} (ht : t ≠ 17) {b : Builder} (hb : b.Ipv6Stack t) :
    ((∃ f, b.build = .error f ∧ f.faultClass = .inconsistentLength) ↔ ∃ n ∈ b.derivedLengths, 0xffff < n) ∧
    ((∀ n ∈ b.derivedLengths, n ≤ 0xffff) → ∃ p, b.build = .ok p ∧
      Layer.ipv6.decode (.tunnelling t) p.serialize = { result := .ok p, events := b.fallbacks }) := by
  cases hb.returns ht with
  | @overflows n f member long refused class_ =>
    refine ⟨iff_of_true ⟨f, refused, class_⟩ ⟨n, member, long⟩, fun fits => ?_⟩
    exact absurd (fits n member) (Nat.not_le.mpr long)
  | @builds p fits built present decoded =>
    refine ⟨iff_of_false ?_ ?_, fun _ => ⟨p, built, decoded⟩⟩
    · rintro ⟨f, refused, -⟩
      rw [built] at refused
      cases refused
    · rintro ⟨n, member, long⟩
      exact absurd (fits n member) (Nat.not_le.mpr long)

/-- UDP with a derived checksum in two IPv6 layers, with a trailer behind each; and a payload of one byte too many. -/
theorem Layer.decode_build_tunnel :
    let around (next : Number) (trailer : Bytes) : Draft :=
      .ipv6 { nextHeader := next, source := Bytes.zeros 16, destination := Bytes.zeros 16, trailer
              policy := ⟨[.length], [.length]⟩ }
    let udp : Draft :=
      .udp { sourcePort := 1234, destinationPort := 53, source := Bytes.zeros 16, destination := Bytes.zeros 16
             trailer := [7], policy := ⟨[.length, .checksum], [.checksum, .length]⟩ }
    (∃ p, (Builder.carrying (around 41 [1, 2]) (.carrying (around 17 [3])
        (.carrying udp (.leaf (.unknown [0xde, 0xad, 0xbe]))))).build = .ok p ∧
      Layer.ipv6.decode (.tunnelling 41) p.serialize = { result := .ok p }) ∧
    ∃ f, (Builder.carrying (around 59 []) (.leaf (.unknown (Bytes.zeros 65536)))).build = .error f ∧
      f.faultClass = .inconsistentLength := by
  intro around udp
  have address : ∃ address : Block 16, some (Bytes.zeros 16) = some address.bytes := ⟨⟨Bytes.zeros 16, rfl⟩, rfl⟩
  have slots (next : Nat) (le : next ≤ 0xff) (trailer : Bytes) : Ipv6.Draft.Corrected
      { nextHeader := next, source := Bytes.zeros 16, destination := Bytes.zeros 16, trailer
        policy := ⟨[.length], [.length]⟩ } :=
    ⟨rfl, ⟨0, rfl, by decide⟩, ⟨0, rfl, by decide⟩, ⟨next, rfl, le⟩, ⟨64, rfl, by decide⟩, address, address, rfl⟩
  obtain ⟨address', same⟩ := address
  have inner : Builder.UdpStack (.carrying udp (.leaf (.unknown [0xde, 0xad, 0xbe]))) :=
    .unknown ⟨⟨1234, rfl, by decide⟩, ⟨53, rfl, by decide⟩, ⟨0, rfl, by decide⟩, rfl,
      fun _ => ⟨address', address', same, same⟩⟩ (by decide)
  constructor
  · obtain ⟨p, built, decoded⟩ := (decode_build (t := 41) (by decide) (.tunnel (slots 41 (by decide) [1, 2]) rfl
      (.udp (slots 17 (by decide) [3]) rfl inner))).2 (by decide)
    exact ⟨p, built, decoded⟩
  · have size : (Bytes.zeros 65536).length = 65536 := List.length_replicate
    have present : Bytes.zeros 65536 ≠ [] := List.ne_nil_of_length_pos (by rw [size]; decide)
    exact (decode_build (t := 41) (by decide) (.unknown (slots 59 (by decide) []) (by decide) (by decide)
      present)).1.mpr ⟨65536, List.mem_cons.mpr (.inl size.symm), by decide⟩

end PacketStack
