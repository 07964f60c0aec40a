/-
The length of a redirected header option, in units of eight bytes.

Where the length is derived, building asks whether the units come out even and whether a byte can count them
(`Draft.build_cases`); what was set before makes no difference. A decoder asks for something else: that there is room for a
whole IPv6 header, and that the units it reads are there (`Header.decode_wire`). The units that were derived are there, so
that the room alone decides whether what was built is decoded again (`Header.decode_around`).
-/
import PacketStack.Proofs.LengthCorrection

namespace PacketStack.Redirected

/-- Its own length is no obstacle to an option that has it. -/
theorem Header.decode_wire (h : Header) {embedded : Bytes} (enough : embeddedMinimum ≤ embedded.length)
    (fits : h.length.toNat * unit ≤ fixedSize + embedded.length) :
    decode (h.fields.wire.flatten ++ embedded) = .ok (h, embedded) := by
  have type : (UInt8.ofNat Contract.redirectedType).toNat = Contract.redirectedType := by decide
  have size : (h.fields.wire.flatten ++ embedded).length = fixedSize + embedded.length := by
    rw [List.length_append, h.length_wire]
  rw [decode, read?_wire]
  simp only [type, size, Nat.not_lt.mpr enough, Nat.not_lt.mpr fits, ne_eq, not_true_eq_false, if_false]

theorem Header.serialize_around (h : Header) (body : Packet) :
    (Packet.carrying (.redirected h) body).serialize = h.fields.wire.flatten ++ body.serialize := by
  have back : (Frame.redirected h).surround.back = [] := rfl
  rw [Packet.serialize_carrying, back, List.append_nil]
  rfl

/-- **Room for an IPv6 header decides**: an option that has the length that it says is decoded exactly if it embeds that
much, and then around the same bytes. -/
theorem Header.decode_around {r : Registry Decoder} (hr : r.Plain) (h : Header) (body : Packet)
    (measured : unit * h.length.toNat = fixedSize + body.serialize.length) :
    let raw := (Packet.carrying (.redirected h) body).serialize
    ((∃ q, (Layer.redirected.decode r raw).result = .ok q) ↔ embeddedMinimum ≤ body.serialize.length) ∧
    ∀ q, (Layer.redirected.decode r raw).result = .ok q →
      ∃ embedded, q = .carrying (.redirected h) embedded ∧ embedded.serialize = body.serialize := by
  intro raw
  have whole : raw = h.fields.wire.flatten ++ body.serialize := h.serialize_around body
  have size : raw.length = fixedSize + body.serialize.length := by rw [whole, List.length_append, h.length_wire]
  have room {q : Packet} (decoded : (Layer.redirected.decode r raw).result = .ok q) :
      embeddedMinimum ≤ body.serialize.length := by
    obtain ⟨parts, accepted⟩ := Layer.exists_dissect_of_decode decoded
    cases Layer.splits_of_dissect accepted with
    | redirected front =>
      obtain ⟨total, enough⟩ := length_of_decode front
      omega
  have around (enough : embeddedMinimum ≤ body.serialize.length) :
      ∃ embedded, (Layer.redirected.decode r raw).result = .ok (.carrying (.redirected h) embedded) := by
    have front : decode raw = .ok (h, body.serialize) := by
      rw [whole]
      exact h.decode_wire enough (by rw [Nat.mul_comm, measured])
    exact ⟨_, Layer.result_of_handoff hr (Layer.Splits.redirected front).dissect⟩
  refine ⟨⟨fun ⟨q, decoded⟩ => room decoded, fun enough => ?_⟩, fun q decoded => ?_⟩
  · obtain ⟨embedded, decoded⟩ := around enough
    exact ⟨_, decoded⟩
  · obtain ⟨embedded, decoded'⟩ := around (room decoded)
    have same := (hr.decodes decoded').serialize
    rw [decoded'] at decoded
    cases decoded
    rw [h.serialize_around, whole] at same
    exact ⟨embedded, rfl, List.append_cancel_left same⟩

section
variable {d : Draft} (on : d.policy.corrects .length = true) {reserved : Block 6}
  (six : d.reserved = some reserved.bytes) {payload : Builder} {body : Packet} (below : payload.build = .ok body)
include on six below

/-- Either the units come out even and a byte can count them, or the length is refused. -/
theorem Draft.build_cases :
    let n := body.serialize.length
    let built := (Builder.carrying (.redirected d) payload).build
    (n % 8 = 0 ∧ n ≤ 2032 ∧ ∃ h : Header, built = .ok (.carrying (.redirected h) body) ∧ h.reserved = reserved ∧
      unit * h.length.toNat = fixedSize + n) ∨
    ¬ (n % 8 = 0 ∧ n ≤ 2032) ∧ ∃ f, built = .error f ∧ f.faultClass = .inconsistentLength := by
  intro n built
  have size : body.byteLength = n := body.byteLength_eq
  have closed : built = (d.header reserved n body.serialize).map fun h => .carrying (.redirected h) body := by
    rw [← size]
    simp only [built, Builder.build, prepare_eq six, below, ok_bind]
    cases d.header reserved body.byteLength body.serialize <;> rfl
  rw [closed, header_derived on]
  by_cases whole : (fixedSize + n) % unit = 0
  · rw [if_neg (not_not_intro whole)]
    by_cases long : 2040 < fixedSize + n
    · rw [if_pos long]
      refine .inr ⟨fun units => ?_, _, rfl, rfl⟩
      simp only [fixedSize] at long
      omega
    · rw [if_neg long]
      simp only [fixedSize, unit] at whole long ⊢
      refine .inl ⟨by omega, by omega, _, rfl, rfl, ?_⟩
      rw [BitVec.toNat_ofNat, Nat.mod_eq_of_lt (by omega)]
      omega
  · rw [if_pos whole]
    refine .inr ⟨fun units => ?_, _, rfl, rfl⟩
    simp only [fixedSize, unit] at whole
    omega

/-- **An option that derives its length** is built exactly if what it embeds has a multiple of eight bytes, at most 2032,
and refused for an inconsistent length otherwise. Its length then counts all of its bytes. It is decoded again exactly if
it embeds room for an IPv6 header, and then with the same header around the same bytes. -/
theorem Draft.build_units {r : Registry Decoder} (hr : r.Plain) :
    let n := body.serialize.length
    let built := (Builder.carrying (.redirected d) payload).build
    ((∃ p, built = .ok p) ↔ n % 8 = 0 ∧ n ≤ 2032) ∧
    (∀ f, built = .error f → f.faultClass = .inconsistentLength) ∧
    ∀ p, built = .ok p → ∃ h : Header, p = .carrying (.redirected h) body ∧ h.reserved = reserved ∧
      8 * h.length.toNat = p.byteLength ∧ p.byteLength = 8 + n ∧
      ((∃ q, (Layer.redirected.decode r p.serialize).result = .ok q) ↔ 40 ≤ n) ∧
      ∀ q, (Layer.redirected.decode r p.serialize).result = .ok q →
        ∃ embedded, q = .carrying (.redirected h) embedded ∧ embedded.serialize = body.serialize := by
  intro n built
  obtain ⟨whole, short, h, made, same, measured⟩ | ⟨units, f, refused, class_⟩ := build_cases on six below
  · refine ⟨iff_of_true ⟨_, made⟩ ⟨whole, short⟩, fun f refused => ?_, fun p given => ?_⟩
    · cases made.symm.trans refused
    · cases made.symm.trans given
      have total : (Packet.carrying (.redirected h) body).byteLength = 8 + n := by
        rw [Packet.byteLength_eq, h.serialize_around, List.length_append, h.length_wire, fixedSize]
      obtain ⟨decodes, read⟩ := h.decode_around hr body measured
      exact ⟨h, rfl, same, measured.trans total.symm, total, decodes, read⟩
  · refine ⟨iff_of_false ?_ units, fun f' refused' => ?_, fun p given => ?_⟩
    · rintro ⟨p, given⟩
      cases refused.symm.trans given
    · cases refused.symm.trans refused'
      exact class_
    · cases refused.symm.trans given

end

/-- Forty bytes that are no IPv6 packet; too few for one; one unit too many; and a byte too many. -/
theorem Draft.build_units_at_bounds :
    let d : Draft := { length := 77, reserved := some (Bytes.zeros 6), policy := ⟨[.length], [.length]⟩ }
    let option (n : Nat) : Builder := .carrying (.redirected d) (.leaf (.unknown (Bytes.zeros n)))
    (∃ p q embedded, (option 40).build = .ok p ∧ p.byteLength = 48 ∧
      (Layer.redirected.decode Registry.builtIn p.serialize).result = .ok q ∧ q.payload? = some embedded ∧
      embedded.serialize = Bytes.zeros 40 ∧ q.containsMalformed = true) ∧
    (∃ p, (option 32).build = .ok p ∧ ¬ ∃ q, (Layer.redirected.decode Registry.builtIn p.serialize).result = .ok q) ∧
    (∃ p, (option 2032).build = .ok p) ∧
    (¬ ∃ p, (option 2040).build = .ok p) ∧ ¬ ∃ p, (option 41).build = .ok p := by
  intro d option
  let reserved : Block 6 := ⟨Bytes.zeros 6, rfl⟩
  have law (n : Nat) := @build_units d rfl reserved rfl (.leaf (.unknown (Bytes.zeros n))) (.unknown (Bytes.zeros n)) rfl
    Registry.builtIn Registry.plain_builtIn
  have size (n : Nat) : (Packet.unknown (Bytes.zeros n)).serialize.length = n := by
    rw [Packet.unknown, Packet.serialize_leaf]
    exact List.length_replicate
  simp only [size] at law
  refine ⟨?_, ?_, ?_, ?_, ?_⟩
  · let p : Packet := .carrying (.redirected ⟨6, reserved⟩) (.unknown (Bytes.zeros 40))
    have built : (option 40).build = .ok p := by decide +kernel
    obtain ⟨h, same, -, -, total, accepted, read⟩ := (law 40).2.2 p built
    obtain ⟨q, decoded⟩ := accepted.mpr (by decide)
    obtain ⟨embedded, rfl, bytes⟩ := read q decoded
    have malformed : (Layer.redirected.decode Registry.builtIn p.serialize).result.toOption.map Packet.containsMalformed =
        some true := by decide +kernel
    rw [decoded] at malformed
    exact ⟨p, _, embedded, built, total, decoded, rfl, bytes.trans (Packet.serialize_leaf _), Option.some.inj malformed⟩
  · obtain ⟨p, built⟩ := (law 32).1.mpr (by decide)
    obtain ⟨h, -, -, -, -, accepted, -⟩ := (law 32).2.2 p built
    exact ⟨p, built, fun decoded => absurd (accepted.mp decoded) (by decide)⟩
  · exact (law 2032).1.mpr (by decide)
  · exact fun built => absurd ((law 2040).1.mp built) (by decide)
  · exact fun built => absurd ((law 41).1.mp built) (by decide)

end PacketStack.Redirected
