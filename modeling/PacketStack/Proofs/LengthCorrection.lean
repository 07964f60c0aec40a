/-
Turning length correction on in a chain that was taken apart.

A draft that derives its length gives the header back that it was made of, if that header's lengths are exact
(`Frame.prepare_corrected`). So any layers with exact lengths can be corrected, in any combination, and the chain that
is built is the chain itself (`build_correctLengths`). Decoded chains are exact but for their redirected header
options; an option whose length is another is given the length that it has, if a whole number of units can be one
(`build_correctOption`).
-/
import PacketStack.Proofs.Embedding
import PacketStack.Proofs.ExactLengths

namespace PacketStack

/-- Turns length correction on, or leaves the draft as it is. -/
def Draft.correctLength (d : Draft) (on : Bool) : Except Fault Draft :=
  if on then d.correct .length true else .ok d

/-- Turns length correction on in the chosen builders of the chain, the outermost one having the number zero. A leaf
does not support it. -/
def Builder.correctLengths : Builder → (Nat → Bool) → Except Fault Builder
  | leaf l, chosen => if chosen 0 then (({} : CorrectionPolicy).set .length true).map fun _ => leaf l else .ok (leaf l)
  | bare d, chosen => return bare (← d.correctLength (chosen 0))
  | carrying d payload, chosen => do
    let d ← d.correctLength (chosen 0)
    return carrying d (← payload.correctLengths fun n => chosen (n + 1))

/-! ## One layer -/

section
variable {policy : CorrectionPolicy}

theorem Ipv6.Header.header_corrected (h : Header) (trailer : Bytes) {n : Nat} (on : policy.corrects .length = true)
    (exact_ : h.payloadLength.toNat = n) : Draft.header { h.draft trailer with policy } n = .ok h := by
  refine Draft.header_eq_ok_iff.mpr ⟨?_, rfl, rfl, rfl, rfl, rfl, rfl, rfl⟩
  have fits := h.payloadLength.isLt
  rw [Draft.lengthFor, if_pos on, if_neg (by omega), exact_]

theorem Udp.Header.header_corrected (h : Header) (trailer : Bytes) {n : Nat} (payload : Bytes)
    (on : policy.corrects .length = true) (off : policy.corrects .checksum = false)
    (exact_ : h.length.toNat = headerSize + n) : Draft.header { h.draft trailer with policy } n payload = .ok h := by
  rw [Draft.header_eq_plainHeader off]
  refine Draft.plainHeader_eq_ok_iff.mpr ⟨?_, rfl, rfl, rfl⟩
  have fits := h.length.isLt
  simp only [Draft.lengthFor, on, if_true, exact_] at *
  rw [if_neg (by omega)]

theorem Redirected.Header.header_corrected (h : Header) {n : Nat} (embedded : Bytes)
    (on : policy.corrects .length = true) (exact_ : unit * h.length.toNat = fixedSize + n) :
    Draft.header { h.draft with policy } h.reserved n embedded = .ok h := by
  refine Draft.header_eq_ok_iff.mpr ⟨?_, rfl⟩
  have fits := h.length.isLt
  simp only [Draft.lengthFor, on, if_true, ← exact_, unit, Nat.mul_mod_right, ne_eq, not_true_eq_false, if_false,
    Nat.mul_div_cancel_left _ (show 0 < 8 by decide)]
  rw [if_neg (by omega)]

/-- A derived option length counts whole units, and has to fit into its byte. -/
theorem Redirected.Draft.header_derived {d : Draft} (on : d.policy.corrects .length = true) (reserved : Block 6)
    (n : Nat) (embedded : Bytes) : d.header reserved n embedded =
      if (fixedSize + n) % unit ≠ 0 then .error (.redirectedUnit (fixedSize + n) embedded)
      else if 2040 < fixedSize + n then .error (.redirectedOverflow (fixedSize + n))
      else .ok { length := BitVec.ofNat 8 ((fixedSize + n) / unit), reserved } := by
  by_cases whole : (fixedSize + n) % unit = 0
  · by_cases fits : 2040 < fixedSize + n
    · have above : 0xff < (fixedSize + n) / unit := by simp only [unit] at *; omega
      simp only [header, lengthFor, on, whole, fits, above, ne_eq, not_true_eq_false, if_true, if_false]
      rfl
    · have below : (fixedSize + n) / unit < 0x100 := by simp only [unit]; omega
      have length : (BitVec.ofNat 8 ((fixedSize + n) / unit)).toNat = (fixedSize + n) / unit := by
        rw [BitVec.toNat_ofNat, Nat.mod_eq_of_lt below]
      simp only [whole, fits, ne_eq, not_true_eq_false, if_false]
      refine header_eq_ok_iff.mpr ⟨?_, rfl⟩
      simp only [lengthFor, on, whole, Nat.not_lt.mpr (Nat.le_of_lt_succ below), length, ne_eq, not_true_eq_false,
        if_true, if_false]
  · simp only [header, lengthFor, on, whole, ne_eq, not_false_eq_true, if_true]
    rfl

theorem Ssh.Header.header_corrected (h : Header) (padding mac : Bytes) {n : Nat} (on : policy.corrects .length = true)
    (packet : h.packetLength.toNat = 1 + n + padding.length) (pad : h.paddingLength.toNat = padding.length) :
    Draft.header { h.draft padding mac with policy } n = .ok (h, padding) := by
  refine Draft.header_eq_ok_iff.mpr ⟨rfl, ?_⟩
  have fits := h.paddingLength.isLt
  rw [Draft.lengthsFor, if_pos on, if_neg (by omega), packet, pad]

end

/-- The reserved bytes are all that is checked before the embedded packet is built. -/
theorem Redirected.Draft.prepare_eq {d : Draft} {reserved : Block 6} (present : d.reserved = some reserved.bytes) :
    (PacketStack.Draft.redirected d).prepare = .ok fun payload => do
      return .redirected (← d.header reserved payload.byteLength payload.serialize) := by
  rw [PacketStack.Draft.prepare, reservedBlock, present, Field.block_bytes]
  rfl

theorem Datagram.alone_corrected {d : Datagram} (exact_ : d.Measures 0) :
    ∃ corrected, d.draft.correct .length true = .ok corrected ∧ corrected.alone = .ok d := by
  cases d with
  | ipv6 h trailer =>
    refine ⟨.ipv6 { h.draft trailer with policy := ⟨[.length], [.length]⟩ }, rfl, ?_⟩
    rw [Draft.alone, Ipv6.Header.header_corrected h trailer rfl exact_]
    rfl
  | udp h trailer =>
    refine ⟨.udp { h.draft trailer with policy := ⟨[.length, .checksum], [.length]⟩ }, rfl, ?_⟩
    rw [Draft.alone, Udp.Header.header_corrected h trailer [] rfl rfl exact_]
    rfl

/-- Around a payload that the frame measures, deriving the lengths of its draft gives the frame back. -/
theorem Frame.prepare_corrected (f : Frame) : ∃ corrected close, f.draft.correct .length true = .ok corrected ∧
    corrected.prepare = .ok close ∧ ∀ payload : Packet, f.Measures payload.byteLength → close payload = .ok f := by
  cases f with
  | datagram d =>
    cases d with
    | ipv6 h trailer =>
      refine ⟨.ipv6 { h.draft trailer with policy := ⟨[.length], [.length]⟩ }, _, rfl, rfl, fun payload exact_ => ?_⟩
      rw [Ipv6.Header.header_corrected h trailer rfl exact_]
      rfl
    | udp h trailer =>
      refine ⟨.udp { h.draft trailer with policy := ⟨[.length, .checksum], [.length]⟩ }, _, rfl, rfl,
        fun payload exact_ => ?_⟩
      rw [Udp.Header.header_corrected h trailer payload.serialize rfl rfl exact_]
      rfl
  | redirected h =>
    refine ⟨.redirected { h.draft with policy := ⟨[.length], [.length]⟩ }, _, rfl,
      Redirected.Draft.prepare_eq rfl, fun payload exact_ => ?_⟩
    rw [Redirected.Header.header_corrected h payload.serialize rfl exact_]
    rfl
  | ssh h padding mac =>
    refine ⟨.ssh { h.draft padding mac with policy := ⟨[.length], [.length]⟩ }, _, rfl, rfl, fun payload exact_ => ?_⟩
    rw [Ssh.Header.header_corrected h padding mac rfl exact_.1 exact_.2]
    rfl

/-! ## The chain -/

theorem Datagram.alone_correctLength {d : Datagram} (on : Bool) (exact_ : on = true → d.Measures 0) :
    ∃ corrected, d.draft.correctLength on = .ok corrected ∧ corrected.alone = .ok d := by
  cases on with
  | false => exact ⟨d.draft, rfl, d.alone_draft⟩
  | true => exact alone_corrected (exact_ rfl)

theorem Frame.prepare_correctLength {f : Frame} {payload : Packet} (on : Bool)
    (exact_ : on = true → f.Measures payload.byteLength) : ∃ corrected close, f.draft.correctLength on = .ok corrected ∧
      corrected.prepare = .ok close ∧ close payload = .ok f := by
  cases on with
  | false =>
    obtain ⟨close, prepared, closes⟩ := f.prepare_draft
    exact ⟨f.draft, close, rfl, prepared, closes payload⟩
  | true =>
    obtain ⟨corrected, close, corrects, prepared, closes⟩ := f.prepare_corrected
    exact ⟨corrected, close, corrects, prepared, closes payload (exact_ rfl)⟩

theorem Builder.correctLengths_none (b : Builder) {chosen : Nat → Bool} (none : ∀ n, chosen n = false) :
    b.correctLengths chosen = .ok b := by
  induction b generalizing chosen with
  | leaf l =>
    rw [correctLengths, none 0]
    rfl
  | bare d =>
    rw [correctLengths, none 0]
    rfl
  | carrying d payload ih =>
    rw [correctLengths, none 0, ih fun n => none (n + 1)]
    rfl

namespace Packet

theorem layers_toBuilder (p : Packet) : p.toBuilder.layers = p.layers.map toBuilder := by
  induction p with
  | leaf l => rfl
  | bare d => rfl
  | carrying f payload ih =>
    rw [toBuilder, Builder.layers, ih]
    rfl

/-- Correcting lengths that are exact changes nothing, whichever are chosen. -/
theorem build_correctLengths {p : Packet} {chosen : Nat → Bool}
    (exact_ : ∀ n q, p.layers[n]? = some q → chosen n = true → q.toBuilder.policy.supports .length = true ∧ q.Exact) :
    ∃ b, p.toBuilder.correctLengths chosen = .ok b ∧ b.build = .ok p := by
  induction p generalizing chosen with
  | leaf l =>
    cases on : chosen 0 with
    | false => exact ⟨.leaf l, by rw [toBuilder, Builder.correctLengths, on]; rfl, rfl⟩
    | true =>
      obtain ⟨supported, -⟩ := exact_ 0 (leaf l) rfl on
      cases supported
  | bare d =>
    obtain ⟨corrected, corrects, alone⟩ := Datagram.alone_correctLength (chosen 0) fun on =>
      (exact_ 0 (bare d) rfl on).2
    refine ⟨.bare corrected, ?_, ?_⟩
    · rw [toBuilder, Builder.correctLengths, corrects]
      rfl
    · rw [Builder.build, alone]
      rfl
  | carrying f payload ih =>
    obtain ⟨corrected, close, corrects, prepared, closes⟩ := Frame.prepare_correctLength (chosen 0) fun on =>
      (exact_ 0 (carrying f payload) rfl on).2
    obtain ⟨below, correctsBelow, builds⟩ := ih fun n q hq on => exact_ (n + 1) q hq on
    refine ⟨.carrying corrected below, ?_, ?_⟩
    · rw [toBuilder, Builder.correctLengths, corrects, correctsBelow]
      rfl
    · simp only [Builder.build, prepared, builds, closes, ok_bind]
      rfl

/-- An option whose length alone is derived keeps its reserved bytes and what it embeds. -/
theorem build_correctOption (h : Redirected.Header) (embedded : Packet) :
    ∃ b d, (carrying (.redirected h) embedded).toBuilder.correctLengths (· == 0) = .ok b ∧
      d.policy.corrects .length = true ∧
      b.build = (Redirected.Draft.header d h.reserved embedded.byteLength embedded.serialize).map fun header =>
        carrying (.redirected header) embedded := by
  let d : Redirected.Draft := { h.draft with policy := ⟨[.length], [.length]⟩ }
  have below : embedded.toBuilder.correctLengths (fun n => n + 1 == 0) = .ok embedded.toBuilder :=
    embedded.toBuilder.correctLengths_none fun n => rfl
  refine ⟨.carrying (.redirected d) embedded.toBuilder, d, ?_, rfl, ?_⟩
  · simp only [toBuilder, Builder.correctLengths, below]
    rfl
  · rw [Builder.build, Redirected.Draft.prepare_eq (show d.reserved = some h.reserved.bytes from rfl), ok_bind,
      build_toBuilder, ok_bind]
    beta_reduce
    cases d.header h.reserved embedded.byteLength embedded.serialize <;> rfl

theorem exists_of_kind_redirected {p : Packet} (h : p.kind = .redirected) :
    ∃ header embedded, p = carrying (.redirected header) embedded := by
  cases p with
  | leaf l => cases l <;> cases h
  | bare d => cases d <;> cases h
  | carrying f payload =>
    cases f with
    | datagram d => cases d <;> cases h
    | redirected header => exact ⟨header, payload, rfl⟩
    | ssh header padding mac => cases h

/-- The length of an option is its second byte. -/
theorem serialize_withLength (h : Redirected.Header) (length : BitVec 8) (embedded : Packet) :
    (carrying (.redirected { h with length }) embedded).serialize =
      (carrying (.redirected h) embedded).serialize.set 1 (UInt8.ofNat length.toNat) := by
  have front (length : BitVec 8) : (Frame.redirected { h with length }).surround.front =
      [4, UInt8.ofNat length.toNat] ++ h.reserved.bytes := by
    have byte : Field.octets 1 (length.toNat : Number) = [UInt8.ofNat length.toNat] := Field.octets_one _
    have type : Field.octets 1 (Contract.redirectedType : Number) = [4] := Field.octets_one _
    simp only [Frame.surround, Surround.front, Option.elim_some, Heading.serialize, Redirected.Fields.heading,
      Redirected.Fields.wire, Redirected.Fields.type, Redirected.Header.fields, byte, type, List.flatten_cons,
      List.flatten_nil, List.append_nil, List.cons_append, List.nil_append]
  rw [serialize_carrying, serialize_carrying, front, front h.length]
  rfl

/-- An option is refused exactly if no whole number of units that fits makes up its length; otherwise its length is
all that changes. -/
theorem correct_option (h : Redirected.Header) (embedded : Packet) :
    let p := carrying (.redirected h) embedded
    ∃ b, p.toBuilder.correctLengths (· == 0) = .ok b ∧
      ((∃ f, b.build = .error f ∧ f.faultClass = .inconsistentLength) ↔ p.byteLength % 8 ≠ 0 ∨ 2040 < p.byteLength) ∧
      (p.byteLength % 8 = 0 → p.byteLength ≤ 2040 → ∃ q, b.build = .ok q ∧
        q.serialize = p.serialize.set 1 (UInt8.ofNat (p.byteLength / 8))) := by
  intro p
  obtain ⟨b, d, corrects, on, built⟩ := build_correctOption h embedded
  obtain ⟨n, size⟩ : ∃ n, Redirected.fixedSize + embedded.byteLength = n := ⟨_, rfl⟩
  have same : p.byteLength = n := (byteLength_carrying (.redirected h) embedded).trans size
  refine ⟨b, corrects, ?_⟩
  rw [built, Redirected.Draft.header_derived on, size, same]
  simp only [Redirected.unit]
  by_cases whole : n % 8 = 0
  · by_cases long : 2040 < n
    · simp only [whole, long, ne_eq, not_true_eq_false, if_true, if_false]
      exact ⟨iff_of_true ⟨_, rfl, rfl⟩ (.inr trivial), fun _ short => absurd long (Nat.not_lt.mpr short)⟩
    · have fits : (BitVec.ofNat 8 (n / 8)).toNat = n / 8 := by
        rw [BitVec.toNat_ofNat, Nat.mod_eq_of_lt (by omega)]
      simp only [whole, long, ne_eq, not_true_eq_false, if_false]
      refine ⟨iff_of_false ?_ (by simp), fun _ _ => ⟨_, rfl, ?_⟩⟩
      · rintro ⟨f, refused, -⟩
        cases refused
      · rw [serialize_withLength, fits]
  · simp only [whole, ne_eq, not_false_eq_true, if_true]
    exact ⟨iff_of_true ⟨_, rfl, rfl⟩ (.inl trivial), fun even => absurd even (by simp)⟩

end Packet

/-- **Correcting lengths changes nothing in a chain that was decoded**, whichever layers are chosen, as long as each
chosen option has the length that it says. The length of another option becomes the length that it has, and no other
byte changes; it is refused exactly if that is no whole number of units, or more of them than a byte can say. -/
theorem Layer.decode_correctLengths {r : Registry Decoder} (hr : r.Plain) {l : Layer} {raw : Bytes} {p : Packet}
    (h : (l.decode r raw).result = .ok p) :
    (∀ chosen : Nat → Bool,
      (∀ n b, p.toBuilder.layers[n]? = some b → chosen n = true → b.policy.supports .length = true) →
      (∀ n header embedded, p.layers[n]? = some (.carrying (.redirected header) embedded) → chosen n = true →
        8 * header.length.toNat = (Packet.carrying (.redirected header) embedded).byteLength) →
      ∃ b, p.toBuilder.correctLengths chosen = .ok b ∧ b.build = .ok p) ∧
    (l = .redirected → ∃ b, p.toBuilder.correctLengths (· == 0) = .ok b ∧
      ((∃ f, b.build = .error f ∧ f.faultClass = .inconsistentLength) ↔ p.byteLength % 8 ≠ 0 ∨ 2040 < p.byteLength) ∧
      (p.byteLength % 8 = 0 → p.byteLength ≤ 2040 → ∃ q, b.build = .ok q ∧
        q.serialize = p.serialize.set 1 (UInt8.ofNat (p.byteLength / 8)))) := by
  refine ⟨fun chosen supported measured => ?_, fun option => ?_⟩
  · have settled := (hr.decodes h).exact
    refine Packet.build_correctLengths fun n q hq on => ⟨supported n q.toBuilder ?_ on, ?_⟩
    · rw [Packet.layers_toBuilder, List.getElem?_map, hq]
      rfl
    · by_cases option : q.kind = .redirected
      · obtain ⟨header, embedded, rfl⟩ := Packet.exists_of_kind_redirected option
        have size := measured n header embedded hq on
        rw [Packet.byteLength_carrying] at size
        exact size
      · exact settled q (List.mem_of_getElem? hq) option
  · subst option
    obtain ⟨header, rfl⟩ := exists_of_decode_redirected hr h
    exact Packet.correct_option header _

/-- An option of 56 bytes around IPv6 around UDP, with length correction on in all three of its layers; and one that
says nothing of its length, which becomes six units. -/
theorem Layer.decode_correctLengths_of_options :
    let embedded := [0x60, 0, 0, 0, 0, 8, 17, 64] ++ Bytes.zeros 32 ++ [0, 1, 0, 2, 0, 8, 0, 3]
    let silent := [4, 0] ++ Bytes.zeros 46
    (∃ p b, (redirected.decode Registry.builtIn ([4, 7] ++ Bytes.zeros 6 ++ embedded)).result = .ok p ∧
      p.toBuilder.correctLengths (fun _ => true) = .ok b ∧ b.build = .ok p) ∧
    ∃ p b q, (redirected.decode Registry.builtIn silent).result = .ok p ∧
      p.toBuilder.correctLengths (· == 0) = .ok b ∧ b.build = .ok q ∧ q.serialize = [4, 6] ++ Bytes.zeros 46 := by
  intro embedded silent
  let p : Packet := .carrying (.redirected ⟨7, ⟨Bytes.zeros 6, rfl⟩⟩) (.carrying
    (.datagram (.ipv6 ⟨6, 0, 0, 8, 17, 64, ⟨Bytes.zeros 16, rfl⟩, ⟨Bytes.zeros 16, rfl⟩⟩ []))
    (.bare (.udp ⟨1, 2, 8, 3⟩ [])))
  have decoded : (redirected.decode Registry.builtIn ([4, 7] ++ Bytes.zeros 6 ++ embedded)).result = .ok p := by
    decide +kernel
  obtain ⟨q, decoded'⟩ := decode_of_accepted Registry.plain_builtIn (show redirected.refusal silent = none by decide)
  refine ⟨?_, ?_⟩
  · have supported (n : Nat) (b : Builder) (hb : p.toBuilder.layers[n]? = some b) :
        b.policy.supports .length = true := by
      match n, hb with
      | 0, hb => cases hb; decide
      | 1, hb => cases hb; decide
      | 2, hb => cases hb; decide
    have measured (n : Nat) (header : Redirected.Header) (option : Packet)
        (hq : p.layers[n]? = some (.carrying (.redirected header) option)) :
        8 * header.length.toNat = (Packet.carrying (.redirected header) option).byteLength := by
      match n, hq with
      | 0, hq => cases hq; rfl
      | 1, hq => cases hq
      | 2, hq => cases hq
    obtain ⟨b, corrects, builds⟩ := (decode_correctLengths Registry.plain_builtIn decoded).1 (fun _ => true)
      (fun n b hb _ => supported n b hb) (fun n header option hq _ => measured n header option hq)
    exact ⟨p, b, decoded, corrects, builds⟩
  · obtain ⟨b, corrects, -, builds⟩ := (decode_correctLengths Registry.plain_builtIn decoded').2 rfl
    have whole : q.serialize = silent := (Registry.plain_builtIn.decodes decoded').serialize
    have size : q.byteLength = 48 := by rw [Packet.byteLength_eq, whole]; decide
    obtain ⟨q', built, bytes⟩ := builds (by rw [size]) (by rw [size]; decide)
    refine ⟨q, b, q', decoded', corrects, built, ?_⟩
    rw [bytes, size, whole]
    rfl

end PacketStack
