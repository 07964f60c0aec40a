/-
What a redirected header option embeds: the chain that its inner bytes are decoded into, quarantined.

A layer's decoder never gives a malformed layer of its own (`Decodes.isMalformed`). Nested bytes come out
malformed only where their decoder refused them, and then all of them are kept
(`Registry.Plain.nested_of_isMalformed`). Of the chain that an option embeds, the outermost layer alone can
therefore be malformed: whatever is refused deeper down, also inside options further in, is an unknown layer by
the time that the option is complete.
-/
import PacketStack.Proofs.Acceptance
import PacketStack.Proofs.Splitting

namespace PacketStack

variable {r : Registry Decoder}

theorem Frame.isMalformed_enclosed (f : Frame) (payload : Packet) : (f.enclosed payload).isMalformed = false := by
  cases f <;> rfl

theorem Layer.isMalformed_of_complete {l : Layer} {raw : Bytes} {p : Packet} (h : l.dissect raw = .ok (.complete p)) :
    p.isMalformed = false := by
  cases splits_of_dissect h <;> rfl

theorem Decodes.isMalformed {l : Layer} {raw : Bytes} {p : Packet} (h : Decodes r l raw p) : p.isMalformed = false := by
  cases h with
  | complete hd => exact Layer.isMalformed_of_complete hd
  | nested _ _ _ => exact Frame.isMalformed_enclosed _ _
  | contained _ _ => exact Frame.isMalformed_enclosed _ _

/-- Nested bytes come out malformed only if they were refused, and are kept then. -/
theorem Registry.Plain.nested_of_isMalformed (hr : r.Plain) {contract : Contract} {value : Number} {inner : Bytes}
    (h : (r.nested contract value inner).isMalformed = true) :
    ∃ cause, r.nested contract value inner = .malformed inner (some cause) := by
  have plain := hr.handlerAt contract value
  unfold nested at h ⊢
  cases given : ((r.handlerAt contract value).decode r inner).result with
  | error f => exact ⟨f, rfl⟩
  | ok p =>
    rw [given] at h
    cases at_ : r.handlerAt contract value with
    | layer l =>
      rw [at_] at given
      have clean := (hr.decodes (l := l) given).isMalformed
      rw [clean] at h
      cases h
    | custom decode =>
      rw [at_] at given plain
      cases plain with
      | refusing answers =>
        obtain ⟨f, error, -⟩ := answers inner
        rw [Handler.decode_custom, error] at given
        cases given

/-- Quarantine unmarks every layer alike where the outermost one is not malformed. -/
theorem Packet.unmarkedAs_quarantined {p : Packet} (clean : p.isMalformed = false) :
    List.Forall₂ UnmarkedAs p.layers p.quarantined.layers := by
  cases p with
  | leaf l => exact .cons (.of_sameLayer clean (SameLayer.refl _)) .nil
  | bare d => exact .cons (.of_sameLayer clean (SameLayer.refl _)) .nil
  | carrying f payload => exact .cons (.of_sameLayer clean rfl) (layers_unmarked payload)

namespace Layer

/-- An accepted option embeds the quarantined chain of all the bytes from offset 8 on. -/
theorem exists_of_decode_redirected (hr : r.Plain) {raw : Bytes} {p : Packet}
    (h : (redirected.decode r raw).result = .ok p) :
    ∃ header, p = .carrying (.redirected header)
      (r.nested .etherType Contract.ipv6EtherType (raw.drop 8)).quarantined := by
  rw [decode_result hr] at h
  cases hd : redirected.dissect raw with
  | error f => rw [hd] at h; cases h
  | ok d =>
    rw [hd] at h
    obtain ⟨⟨header, embedded⟩, -, handed⟩ := bind_eq_ok.mp hd
    obtain ⟨-, fits⟩ := fits_of_dissect hd
    cases handed
    cases h
    obtain ⟨rfl, -⟩ := fits
    exact ⟨header, rfl⟩

/-- **An option hides nothing malformed.** Only the outermost layer that it embeds can be malformed, and it then has
all the bytes from offset 8 on. Otherwise the embedded chain is, layer by layer, the one that those bytes are decoded
into, with an unknown layer in place of a malformed one. -/
theorem decode_redirected_hides_nothing (hr : r.Plain) {raw : Bytes} {p : Packet}
    (h : (redirected.decode r raw).result = .ok p) :
    ∃ embedded decoded, p.payload? = some embedded ∧
      (r.decodeNested .etherType (raw.drop 8) Contract.ipv6EtherType).result = .ok decoded ∧
      (p.containsMalformed = true ↔ embedded.isMalformed = true) ∧
      (embedded.isMalformed = true → embedded = decoded ∧ ∃ cause, embedded = .malformed (raw.drop 8) cause) ∧
      (embedded.isMalformed = false → List.Forall₂ Packet.UnmarkedAs decoded.layers embedded.layers) := by
  obtain ⟨header, rfl⟩ := exists_of_decode_redirected hr h
  let decoded := r.nested .etherType Contract.ipv6EtherType (raw.drop 8)
  refine ⟨decoded.quarantined, decoded, rfl, hr.decodeNested .., ?_, fun malformed => ?_, fun clean => ?_⟩
  · have below : (Packet.carrying (.redirected header) decoded.quarantined).containsMalformed =
        decoded.quarantined.containsMalformed := rfl
    rw [below, Packet.containsMalformed_quarantined, Packet.isMalformed_quarantined]
  · rw [Packet.isMalformed_quarantined] at malformed
    obtain ⟨cause, kept⟩ := hr.nested_of_isMalformed malformed
    have same : decoded.quarantined = decoded := by rw [show decoded = _ from kept]; rfl
    exact ⟨same, some cause, same.trans kept⟩
  · rw [Packet.isMalformed_quarantined] at clean
    exact Packet.unmarkedAs_quarantined clean

/-- The built-in table with the redirected header option under the number of ICMPv6, so that options nest. -/
def nestingOptions : Registry Decoder :=
  (Registry.builtIn.register .ipNumber 58 (.layer .redirected) false).registry

/-- An option around IPv6 around an option whose own embedded bytes are refused: the malformed layer at the root of
the inner option's chain is an unknown one in the outer option. -/
theorem decode_redirected_hides_nothing_nested :
    let refused := Bytes.zeros 40
    let raw := [4, 0] ++ Bytes.zeros 6 ++ [0x60, 0, 0, 0, 0, 48, 58, 64] ++ Bytes.zeros 32 ++ [4, 0] ++ Bytes.zeros 6 ++
      refused
    ∃ p embedded decoded, (redirected.decode nestingOptions raw).result = .ok p ∧ p.payload? = some embedded ∧
      (nestingOptions.decodeNested .etherType (raw.drop 8) Contract.ipv6EtherType).result = .ok decoded ∧
      p.containsMalformed = false ∧ decoded.containsMalformed = true ∧
      List.Forall₂ Packet.UnmarkedAs decoded.layers embedded.layers := by
  intro refused raw
  have plain : nestingOptions.Plain := Registry.plain_builtIn.register .ipNumber 58 (.layer .redirected) false
  obtain ⟨p, given⟩ := decode_of_accepted plain (show redirected.refusal raw = none by decide)
  obtain ⟨embedded, decoded, carried, nested, hides, -, same⟩ := decode_redirected_hides_nothing plain given
  have outer : ((redirected.decode nestingOptions raw).result.toOption.bind Packet.payload?).map Packet.isMalformed =
      some false := by decide +kernel
  have deep : (nestingOptions.decodeNested .etherType (raw.drop 8) Contract.ipv6EtherType).result.toOption.map
      Packet.containsMalformed = some true := by decide +kernel
  rw [given] at outer
  rw [nested] at deep
  simp only [Except.toOption, Option.bind_some, carried, Option.map_some, Option.some.injEq] at outer deep
  refine ⟨p, embedded, decoded, given, carried, nested, ?_, deep, same outer⟩
  rw [Bool.eq_false_iff, ne_eq, hides, outer]
  decide

end Layer
end PacketStack
