/-
Building a header, by its slots: for each kind of draft, `header_eq_ok_iff` says which header comes out and what
every slot has to hold for it.

The length is whatever `lengthFor` settles on, so that these equations serve verbatim and derived lengths alike. A
derived length is the one of the payload (`payloadLength_of_header` and its likes).
-/
import PacketStack.Builder

namespace PacketStack

theorem Number.nat_inj {m n : Nat} : (m : Number) = (n : Number) ↔ m = n := by rw [Number.int.injEq, Int.ofNat_inj]

theorem Field.required_eq_ok_iff {field : String} {slot : Option Bytes} {bytes : Bytes} :
    required field slot = .ok bytes ↔ slot = some bytes := by
  cases slot with
  | none => simp only [required, reduceCtorEq]
  | some given => simp only [required, Except.ok.injEq, Option.some.injEq]

theorem Field.block_eq_ok_iff {field : String} {size : Nat} {slot : Option Bytes} {b : Block size} :
    block field size slot = .ok b ↔ slot = some b.bytes := by
  refine ⟨fun h => ?_, fun h => h ▸ block_bytes b⟩
  unfold block at h
  split at h
  · cases h
  · next bytes =>
    unfold Block.ofBytes? at h
    split at h
    · next b' some =>
      split at some <;> cases some
      cases h
      rfl
    · cases h

theorem Ipv6.Draft.header_eq_ok_iff {d : Draft} {n : Nat} {h : Header} :
    d.header n = .ok h ↔
      d.lengthFor n = .ok (h.payloadLength.toNat : Number) ∧ d.version = (h.version.toNat : Number) ∧
      d.trafficClass = (h.trafficClass.toNat : Number) ∧ d.flowLabel = (h.flowLabel.toNat : Number) ∧
      d.nextHeader = (h.nextHeader.toNat : Number) ∧ d.hopLimit = (h.hopLimit.toNat : Number) ∧
      d.source = some h.source.bytes ∧ d.destination = some h.destination.bytes := by
  constructor
  · intro built
    simp only [header, bind_eq_ok, Field.word_eq_ok_iff, Field.block_eq_ok_iff] at built
    obtain ⟨length, hl, version, hv, trafficClass, ht, flowLabel, hf, payloadLength, rfl, built⟩ := built
    obtain ⟨nextHeader, hn, hopLimit, hh, source, hs, destination, hd, built⟩ := built
    cases built
    exact ⟨hl, hv, ht, hf, hn, hh, hs, hd⟩
  · rintro ⟨length, version, trafficClass, flowLabel, nextHeader, hopLimit, source, destination⟩
    simp only [header, length, version, trafficClass, flowLabel, nextHeader, hopLimit, source, destination,
      ok_bind, Field.word_toNat, Field.block_bytes]
    rfl

theorem Udp.Draft.plainHeader_eq_ok_iff {d : Draft} {n : Nat} {h : Header} :
    d.plainHeader n = .ok h ↔
      d.lengthFor n = .ok (h.length.toNat : Number) ∧ d.sourcePort = (h.sourcePort.toNat : Number) ∧
      d.destinationPort = (h.destinationPort.toNat : Number) ∧ d.checksum = (h.checksum.toNat : Number) := by
  constructor
  · intro built
    simp only [plainHeader, bind_eq_ok, Field.word_eq_ok_iff] at built
    obtain ⟨length, hl, sourcePort, hs, destinationPort, hd, _, rfl, checksum, hc, built⟩ := built
    cases built
    exact ⟨hl, hs, hd, hc⟩
  · rintro ⟨length, sourcePort, destinationPort, checksum⟩
    simp only [plainHeader, length, sourcePort, destinationPort, checksum, ok_bind, Field.word_toNat]
    rfl

theorem Udp.Draft.header_eq_plainHeader {d : Draft} (off : d.policy.corrects .checksum = false) (n : Nat)
    (payload : Bytes) : d.header n payload = d.plainHeader n := by
  simp only [header, off, Bool.false_eq_true, if_false]
  cases d.plainHeader n <;> rfl

theorem Udp.Draft.addresses_eq_ok_iff {d : Draft} {source destination : Block 16} :
    d.addresses = .ok (source, destination) ↔
      d.source = some source.bytes ∧ d.destination = some destination.bytes := by
  constructor
  · intro given
    unfold addresses at given
    split at given
    · cases given
    · simp only [bind_eq_ok, Field.block_eq_ok_iff] at given
      obtain ⟨source', hs, destination', hd, given⟩ := given
      cases given
      exact ⟨hs, hd⟩
  · rintro ⟨hs, hd⟩
    simp only [addresses, hs, hd, Field.block_bytes, ok_bind]
    rfl

/-- The checksum is derived from the header that has it blank. -/
theorem Udp.Draft.header_eq_ok_iff {d : Draft} (on : d.policy.corrects .checksum = true) {n : Nat} {payload : Bytes}
    {h : Header} :
    d.header n payload = .ok h ↔ ∃ plain source destination,
      d.plainHeader n = .ok plain ∧ d.addresses = .ok (source, destination) ∧
      h = { plain with
        checksum := Udp.checksum source.bytes destination.bytes { plain.fields with checksum := 0 } payload } := by
  simp only [header, on, if_true]
  constructor
  · intro built
    obtain ⟨plain, hp, built⟩ := bind_eq_ok.mp built
    obtain ⟨⟨source, destination⟩, ha, built⟩ := bind_eq_ok.mp built
    cases built
    exact ⟨plain, source, destination, hp, ha, rfl⟩
  · rintro ⟨plain, source, destination, hp, ha, rfl⟩
    simp only [hp, ha, ok_bind]
    rfl

theorem Redirected.Draft.header_eq_ok_iff {d : Draft} {reserved : Block 6} {n : Nat} {embedded : Bytes} {h : Header} :
    d.header reserved n embedded = .ok h ↔
      d.lengthFor n embedded = .ok (h.length.toNat : Number) ∧ h.reserved = reserved := by
  constructor
  · intro built
    simp only [header, bind_eq_ok, Field.word_eq_ok_iff] at built
    obtain ⟨_, hl, length, rfl, built⟩ := built
    cases built
    exact ⟨hl, rfl⟩
  · rintro ⟨length, rfl⟩
    simp only [header, length, ok_bind, Field.word_toNat]
    rfl

theorem Ssh.Draft.header_eq_ok_iff {d : Draft} {n : Nat} {h : Header} {padding : Bytes} :
    d.header n = .ok (h, padding) ↔ d.paddingFor n = .ok padding ∧
      d.lengthsFor n padding.length = .ok ⟨(h.packetLength.toNat : Number), (h.paddingLength.toNat : Number)⟩ := by
  constructor
  · intro built
    obtain ⟨padding', hp, built⟩ := bind_eq_ok.mp built
    obtain ⟨⟨packet, pad⟩, hl, built⟩ := bind_eq_ok.mp built
    simp only at built
    split at built
    · cases built
    · next packetLength hw =>
      obtain ⟨paddingLength, hf, built⟩ := bind_eq_ok.mp built
      cases built
      rw [Field.word_eq_ok_iff] at hf
      rw [← hf, ← Number.eq_of_word? hw]
      exact ⟨hp, hl⟩
  · rintro ⟨hp, hl⟩
    simp only [header, hp, hl, ok_bind, Number.word?_toNat, Field.word_toNat]
    rfl

/-! ## Building a chain -/

namespace Builder

theorem build_bare_eq_ok_iff {d : Draft} {p : Packet} :
    (bare d).build = .ok p ↔ ∃ made, d.alone = .ok made ∧ p = .bare made := by
  constructor
  · intro built
    obtain ⟨made, alone, rest⟩ := bind_eq_ok.mp built
    cases rest
    exact ⟨made, alone, rfl⟩
  · rintro ⟨made, alone, rfl⟩
    simp only [build, alone, ok_bind]
    rfl

theorem build_carrying_eq_ok_iff {d : Draft} {payload : Builder} {p : Packet} :
    (carrying d payload).build = .ok p ↔ ∃ close body f,
      d.prepare = .ok close ∧ payload.build = .ok body ∧ close body = .ok f ∧ p = .carrying f body := by
  constructor
  · intro built
    obtain ⟨close, prepared, built⟩ := bind_eq_ok.mp built
    obtain ⟨body, below, built⟩ := bind_eq_ok.mp built
    obtain ⟨f, closed, rest⟩ := bind_eq_ok.mp built
    cases rest
    exact ⟨close, body, f, prepared, below, closed, rfl⟩
  · rintro ⟨close, body, f, prepared, below, closed, rfl⟩
    simp only [build, prepared, below, closed, ok_bind]
    rfl

end Builder

/-! ## Derived lengths -/

theorem Ipv6.Draft.payloadLength_of_header {d : Draft} (on : d.policy.corrects .length = true) {n : Nat} {h : Header}
    (made : d.header n = .ok h) : h.payloadLength.toNat = n := by
  obtain ⟨length, -⟩ := header_eq_ok_iff.mp made
  rw [lengthFor, if_pos on] at length
  split at length
  · cases length
  · exact (Number.nat_inj.mp (Except.ok.inj length)).symm

theorem Udp.Draft.length_of_plainHeader {d : Draft} (on : d.policy.corrects .length = true) {n : Nat} {h : Header}
    (made : d.plainHeader n = .ok h) : h.length.toNat = headerSize + n := by
  obtain ⟨length, -⟩ := plainHeader_eq_ok_iff.mp made
  rw [lengthFor, if_pos on] at length
  simp only at length
  split at length
  · cases length
  · exact (Number.nat_inj.mp (Except.ok.inj length)).symm

/-- Deriving the checksum leaves the length as it is. -/
theorem Udp.Draft.length_of_header {d : Draft} (on : d.policy.corrects .length = true) {n : Nat} {payload : Bytes}
    {h : Header} (made : d.header n payload = .ok h) : h.length.toNat = headerSize + n := by
  cases derived : d.policy.corrects .checksum with
  | false =>
    rw [header_eq_plainHeader derived] at made
    exact length_of_plainHeader on made
  | true =>
    obtain ⟨plain, source, destination, verbatim, -, rfl⟩ := (header_eq_ok_iff derived).mp made
    exact length_of_plainHeader (h := plain) on verbatim

theorem Redirected.Draft.length_of_header {d : Draft} (on : d.policy.corrects .length = true) {reserved : Block 6}
    {n : Nat} {embedded : Bytes} {h : Header} (made : d.header reserved n embedded = .ok h) :
    unit * h.length.toNat = fixedSize + n := by
  obtain ⟨length, -⟩ := header_eq_ok_iff.mp made
  rw [lengthFor, if_pos on] at length
  simp only at length
  split at length
  · cases length
  · next whole =>
    split at length
    · cases length
    · rw [← Number.nat_inj.mp (Except.ok.inj length)]
      exact Nat.mul_div_cancel' (Nat.dvd_of_mod_eq_zero (Decidable.not_not.mp whole))

theorem Ssh.Draft.lengths_of_header {d : Draft} (on : d.policy.corrects .length = true) {n : Nat} {h : Header}
    {padding : Bytes} (made : d.header n = .ok (h, padding)) :
    h.packetLength.toNat = 1 + n + padding.length ∧ h.paddingLength.toNat = padding.length := by
  obtain ⟨-, lengths⟩ := header_eq_ok_iff.mp made
  rw [lengthsFor, if_pos on] at lengths
  split at lengths
  · cases lengths
  · obtain ⟨packet, pad⟩ := Fields.mk.inj (Except.ok.inj lengths)
    exact ⟨(Number.nat_inj.mp packet).symm, (Number.nat_inj.mp pad).symm⟩

end PacketStack
