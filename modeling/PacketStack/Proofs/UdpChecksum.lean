/-
What a receiver makes of a derived UDP checksum.

The receiver sums up the same bytes as the sender, but with the checksum in its place (`Header.covered`). As long as no
carry is lost on the sender's side, that comes to zero (`Header.internet_covered`), and the checksum itself is never
zero. Nothing of this depends on what the draft held in its checksum, or on what follows the datagram.
-/
import PacketStack.Proofs.OnesComplement
import PacketStack.Proofs.Sizes

namespace PacketStack

namespace Udp

/-- What the checksum covers: the addresses, the length and the IP number of UDP, the header and the payload. -/
def Header.covered (h : Header) (source destination payload : Bytes) : Bytes :=
  source ++ destination ++ Bytes.word 4 h.length.toNat ++ Bytes.word 4 17 ++ h.fields.wire.flatten ++ payload

section
variable {source destination : Block 16} {payload : Bytes}

namespace Header

/-- The covered bytes in front of the checksum. -/
def beforeChecksum (h : Header) (source destination : Block 16) : Bytes :=
  source.bytes ++ destination.bytes ++ Bytes.word 4 h.length.toNat ++ (Bytes.word 4 17 ++
    ((Field.octets 2 h.fields.sourcePort ++ Field.octets 2 h.fields.destinationPort) ++ Field.octets 2 h.fields.length))

theorem covered_eq (h : Header) : h.covered source.bytes destination.bytes payload =
    h.beforeChecksum source destination ++ (Bytes.word 2 h.checksum.toNat ++ payload) := by
  have checksum : Field.octets 2 h.fields.checksum = Bytes.word 2 h.checksum.toNat := Field.octets_two h.checksum.isLt
  simp only [covered, beforeChecksum, Fields.wire, checksum, List.flatten_cons, List.flatten_nil, List.append_nil,
    List.append_assoc]

theorem length_covered (h : Header) :
    (h.covered source.bytes destination.bytes payload).length = 48 + payload.length := by
  simp only [covered, List.length_append, source.size, destination.size, Bytes.length_word, h.length_wire, headerSize]

theorem length_beforeChecksum (h : Header) : (h.beforeChecksum source destination).length = 46 := by
  simp only [beforeChecksum, List.length_append, source.size, destination.size, Bytes.length_word, Field.length_octets]

/-- The IP number of UDP keeps the sum from being nothing but zeros. -/
theorem words_beforeChecksum_pos (h : Header) : 0 < (Checksum.words (h.beforeChecksum source destination)).sum := by
  have even : (source.bytes ++ destination.bytes ++ Bytes.word 4 h.length.toNat).length % 2 = 0 := by
    simp only [List.length_append, source.size, destination.size, Bytes.length_word]
  have number (rest : Bytes) : Checksum.words (Bytes.word 4 17 ++ rest) = 0 :: 17 :: Checksum.words rest := rfl
  rw [beforeChecksum, Checksum.words_append even, number]
  simp only [List.sum_append, List.sum_cons]
  omega

end Header

/-- The checksum is derived from what it will cover, with zero in its place. -/
theorem checksum_eq_internet (h : Header) (source destination : Block 16) (short : payload.length ≤ 131026) :
    let sum := Checksum.internet (Header.covered { h with checksum := 0 } source.bytes destination.bytes payload)
    checksum source.bytes destination.bytes { h.fields with checksum := 0 } payload =
      BitVec.ofNat 16 (if sum = 0 then 0xffff else sum) := by
  let blank : Header := { h with checksum := 0 }
  have chunks :
      (pseudoHeader source.bytes destination.bytes blank.fields.length :: blank.fields.wire ++ [payload]).flatten =
        blank.covered source.bytes destination.bytes payload := by
    have length : Field.octets 4 blank.fields.length = Bytes.word 4 h.length.toNat :=
      Field.octets_four (Nat.lt_trans h.length.isLt (by decide))
    simp only [Header.covered, pseudoHeader, length, Contract.udpNumber, List.cons_append, List.flatten_cons,
      List.flatten_append, List.flatten_nil, List.append_nil, List.append_assoc]
    rfl
  have exact_ := Checksum.ofChunks_eq_internet_of_length (pseudoHeader source.bytes destination.bytes
    blank.fields.length :: blank.fields.wire ++ [payload]) (by rw [chunks, Header.length_covered]; omega)
  rw [chunks] at exact_
  show BitVec.ofNat 16 (if Checksum.ofChunks _ = 0 then 0xffff else Checksum.ofChunks _) = _
  rw [← exact_]
  rfl

/-- With the derived checksum in it, what is covered sums up to zero. -/
theorem Header.internet_covered (h : Header) (source destination : Block 16) (short : payload.length ≤ 131026) :
    let made : Header :=
      { h with checksum := Udp.checksum source.bytes destination.bytes { h.fields with checksum := 0 } payload }
    made.checksum ≠ 0 ∧ Checksum.internet (made.covered source.bytes destination.bytes payload) = 0 := by
  intro made
  obtain ⟨sum, blank⟩ : ∃ sum,
      Checksum.internet (covered { h with checksum := 0 } source.bytes destination.bytes payload) = sum := ⟨_, rfl⟩
  have below : sum < 0x10000 := by
    rw [← blank, Checksum.internet]
    omega
  have derived : made.checksum.toNat = if sum = 0 then 0xffff else sum := by
    have value := congrArg BitVec.toNat (checksum_eq_internet h source destination short)
    simp only [blank, BitVec.toNat_ofNat] at value
    refine value.trans (Nat.mod_eq_of_lt ?_)
    split <;> omega
  constructor
  · intro zero
    rw [zero] at derived
    split at derived <;> simp at derived
    omega
  · rw [covered_eq, derived]
    rw [covered_eq] at blank
    exact Checksum.internet_filled (by rw [length_beforeChecksum]) blank (words_beforeChecksum_pos _)

end

namespace Draft
variable {d : Draft} {n : Nat} {payload : Bytes} {h : Header}

/-- The checksum that the draft holds only has to be one. -/
theorem header_withChecksum (on : d.policy.corrects .checksum = true) (built : d.header n payload = .ok h)
    (trailer : Bytes) (checksum : BitVec 16) :
    Draft.header { d with trailer, checksum := (checksum.toNat : Number) } n payload = .ok h := by
  let revised : Draft := { d with trailer, checksum := (checksum.toNat : Number) }
  obtain ⟨plain, source, destination, made, given, rfl⟩ := (header_eq_ok_iff on).mp built
  obtain ⟨length, sourcePort, destinationPort, -⟩ := plainHeader_eq_ok_iff.mp made
  refine (header_eq_ok_iff (d := revised) on).mpr ⟨{ plain with checksum }, source, destination, ?_, given, rfl⟩
  exact plainHeader_eq_ok_iff.mpr ⟨length, sourcePort, destinationPort, rfl⟩

/-- A derived length bounds the payload. -/
theorem length_le_of_header (on : d.policy.corrects .length = true) (built : d.plainHeader n = .ok h) :
    headerSize + n ≤ 0xffff := by
  have length := length_of_plainHeader on built
  have fits := h.length.isLt
  omega

/-- Only the bytes of the payload matter to the header. -/
theorem build_eq_ok_iff {payload : Option Builder} {p : Packet} :
    (Builder.over (.udp d) payload).build = .ok p ↔ ∃ (body : Option Packet) (h : Header),
      payload.mapM Builder.build = .ok body ∧
      d.header (body.elim [] Packet.serialize).length (body.elim [] Packet.serialize) = .ok h ∧
      p = Packet.over (.udp h d.trailer) body := by
  cases payload with
  | none =>
    constructor
    · intro built
      obtain ⟨_, alone, rfl⟩ := Builder.build_bare_eq_ok_iff.mp built
      obtain ⟨h, made, whole⟩ := bind_eq_ok.mp alone
      cases whole
      exact ⟨none, h, rfl, made, rfl⟩
    · rintro ⟨body, h, inner, made, rfl⟩
      cases inner
      simp only [Builder.over, Builder.build, PacketStack.Draft.alone]
      rw [show d.header 0 [] = .ok h from made]
      rfl
  | some payload =>
    constructor
    · intro built
      obtain ⟨close, body, f, prepared, inner, closed, rfl⟩ := Builder.build_carrying_eq_ok_iff.mp built
      cases prepared
      obtain ⟨h, made, whole⟩ := bind_eq_ok.mp closed
      cases whole
      rw [Packet.byteLength_eq] at made
      refine ⟨body, h, ?_, made, rfl⟩
      rw [Option.mapM_some, inner]
      rfl
    · rintro ⟨body, h, inner, made, rfl⟩
      obtain ⟨body, below, rest⟩ := bind_eq_ok.mp inner
      cases rest
      rw [Option.elim_some, ← Packet.byteLength_eq] at made
      simp only [Builder.over, Builder.build, PacketStack.Draft.prepare, below, ok_bind, made]
      rfl

end Draft

/-- **A derived checksum verifies at the receiver**: it is not zero, and the bytes that it covers, itself among them,
have the Internet checksum zero. Neither what the draft holds in its checksum nor what follows the datagram changes
it. -/
theorem Draft.build_verifies {d : Draft} (on : d.policy.corrects .checksum = true) {payload : Option Builder}
    {p : Packet} (built : (Builder.over (.udp d) payload).build = .ok p)
    (short : d.policy.corrects .length = false → (p.payload?.elim [] Packet.serialize).length ≤ 131026) :
    ∃ (h : Header) (source destination : Block 16),
      p = Packet.over (.udp h d.trailer) p.payload? ∧
      d.source = some source.bytes ∧ d.destination = some destination.bytes ∧ h.checksum ≠ 0 ∧
      Checksum.internet (h.covered source.bytes destination.bytes (p.payload?.elim [] Packet.serialize)) = 0 ∧
      Checksum.ofChunks [h.covered source.bytes destination.bytes (p.payload?.elim [] Packet.serialize)] = 0 ∧
      ∀ (trailer : Bytes) (checksum : BitVec 16),
        (Builder.over (.udp { d with trailer, checksum := (checksum.toNat : Number) }) payload).build =
          .ok (Packet.over (.udp h trailer) p.payload?) := by
  obtain ⟨body, h, inner, made, rfl⟩ := Draft.build_eq_ok_iff.mp built
  have payload? : (Packet.over (.udp h d.trailer) body).payload? = body := by cases body <;> rfl
  rw [payload?] at short ⊢
  obtain ⟨plain, source, destination, derived, given, rfl⟩ := (Draft.header_eq_ok_iff on).mp made
  obtain ⟨atSource, atDestination⟩ := Draft.addresses_eq_ok_iff.mp given
  have bound : (body.elim [] Packet.serialize).length ≤ 131026 := by
    cases corrects : d.policy.corrects .length with
    | false => exact short corrects
    | true =>
      have := Draft.length_le_of_header corrects derived
      omega
  obtain ⟨nonzero, verifies⟩ := plain.internet_covered source destination bound
  refine ⟨_, source, destination, rfl, atSource, atDestination, nonzero, verifies, ?_, fun trailer checksum => ?_⟩
  · rw [Checksum.ofChunks_eq_internet_of_length, List.flatten_singleton, verifies]
    rw [List.flatten_singleton, Header.length_covered]
    omega
  · exact Draft.build_eq_ok_iff.mpr ⟨body, _, inner, Draft.header_withChecksum on made trailer checksum, rfl⟩

/-- Three bytes under a length that says five. -/
theorem Draft.build_verifies_of_odd_payload :
    let d : Draft :=
      { sourcePort := 1234, destinationPort := 53, length := 5, checksum := 9, source := Bytes.zeros 16
        destination := Bytes.zeros 16, trailer := [7], policy := ⟨[.length, .checksum], [.checksum]⟩ }
    ∃ h : Header,
      (Builder.over (.udp d) (some (.leaf (.unknown [0xde, 0xad, 0xbe])))).build =
        .ok (Packet.over (.udp h [7]) (some (.unknown [0xde, 0xad, 0xbe]))) ∧
      h.length = 5 ∧ h.checksum ≠ 0 ∧
      Checksum.internet (h.covered (Bytes.zeros 16) (Bytes.zeros 16) [0xde, 0xad, 0xbe]) = 0 := by
  intro d
  have built : (Builder.over (.udp d) (some (.leaf (.unknown [0xde, 0xad, 0xbe])))).build =
      .ok (.carrying (.datagram (.udp ⟨1234, 53, 5, 0x5e2f⟩ [7])) (.unknown [0xde, 0xad, 0xbe])) := by
    decide +kernel
  obtain ⟨h, source, destination, whole, atSource, atDestination, nonzero, verifies, -, -⟩ :=
    Draft.build_verifies rfl built fun _ => by decide
  cases whole
  rw [← Option.some.inj atSource, ← Option.some.inj atDestination] at verifies
  exact ⟨_, built, rfl, nonzero, verifies⟩

end Udp
end PacketStack
