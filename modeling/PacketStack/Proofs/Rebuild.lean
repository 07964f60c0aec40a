/-
Going back to builders and building again gives the same chain.

`toBuilder` copies every slot of a layer into a draft that derives nothing. What a header holds fits its slots,
whatever the header says about the bytes that follow, so each draft is built into its layer again
(`Frame.prepare_draft`, `Datagram.alone_draft`) and the chain into itself (`build_toBuilder`).

It makes no difference whether the builders are a chain of their own or held by handle among others.
-/
import PacketStack.Proofs.Handles

namespace PacketStack

/-! ## One layer -/

theorem Ipv6.Header.header_draft (h : Header) (trailer : Bytes) (payloadLength : Nat) :
    (h.draft trailer).header payloadLength = .ok h := by
  have verbatim : (h.draft trailer).lengthFor payloadLength = .ok (h.payloadLength.toNat : Number) := rfl
  simp only [Draft.header, verbatim, ok_bind]
  simp only [draft, Field.word_toNat, Field.block_bytes, ok_bind]
  rfl

theorem Udp.Header.header_draft (h : Header) (trailer : Bytes) (payloadLength : Nat) (payload : Bytes) :
    (h.draft trailer).header payloadLength payload = .ok h := by
  have verbatim : (h.draft trailer).lengthFor payloadLength = .ok (h.length.toNat : Number) := rfl
  have plain : (h.draft trailer).plainHeader payloadLength = .ok h := by
    simp only [Draft.plainHeader, verbatim, ok_bind]
    simp only [draft, Field.word_toNat, ok_bind]
    rfl
  simp only [Draft.header, plain, ok_bind]
  rfl

theorem Redirected.Header.reservedBlock_draft (h : Header) : h.draft.reservedBlock = .ok h.reserved :=
  Field.block_bytes h.reserved

theorem Redirected.Header.header_draft (h : Header) (payloadLength : Nat) (payload : Bytes) :
    h.draft.header h.reserved payloadLength payload = .ok h := by
  have verbatim : h.draft.lengthFor payloadLength payload = .ok (h.length.toNat : Number) := rfl
  simp only [Draft.header, verbatim, ok_bind, Field.word_toNat]
  rfl

theorem Ssh.Header.header_draft (h : Header) (padding mac : Bytes) (payloadLength : Nat) :
    (h.draft padding mac).header payloadLength = .ok (h, padding) := by
  have kept : (h.draft padding mac).paddingFor payloadLength = .ok padding := rfl
  have verbatim : (h.draft padding mac).lengthsFor payloadLength padding.length =
      .ok ⟨(h.packetLength.toNat : Number), (h.paddingLength.toNat : Number)⟩ := rfl
  simp only [Draft.header, kept, verbatim, ok_bind, Number.word?_toNat, Field.word_toNat]
  rfl

theorem Datagram.alone_draft (d : Datagram) : d.draft.alone = .ok d := by
  cases d with
  | ipv6 h trailer =>
    simp only [draft, Draft.alone, Ipv6.Header.header_draft, ok_bind]
    rfl
  | udp h trailer =>
    simp only [draft, Draft.alone, Udp.Header.header_draft, ok_bind]
    rfl

/-- Whatever payload it is closed around, the draft of a frame gives the frame back. -/
theorem Frame.prepare_draft (f : Frame) : ∃ close, f.draft.prepare = .ok close ∧ ∀ payload, close payload = .ok f := by
  cases f with
  | datagram d =>
    cases d with
    | ipv6 h trailer =>
      refine ⟨_, rfl, fun payload => ?_⟩
      simp only [Ipv6.Header.header_draft, ok_bind]
      rfl
    | udp h trailer =>
      refine ⟨_, rfl, fun payload => ?_⟩
      simp only [Udp.Header.header_draft, ok_bind]
      rfl
  | redirected h =>
    simp only [draft, Draft.prepare, Redirected.Header.reservedBlock_draft, ok_bind]
    refine ⟨_, rfl, fun payload => ?_⟩
    simp only [Redirected.Header.header_draft, ok_bind]
    rfl
  | ssh h padding mac =>
    refine ⟨_, rfl, fun payload => ?_⟩
    simp only [Ssh.Header.header_draft, ok_bind]
    rfl

/-! ## The chain -/

theorem Packet.build_toBuilder (p : Packet) : p.toBuilder.build = .ok p := by
  induction p with
  | leaf l => rfl
  | bare d =>
    simp only [toBuilder, Builder.build, Datagram.alone_draft, ok_bind]
    rfl
  | carrying f payload ih =>
    obtain ⟨close, prepared, closes⟩ := f.prepare_draft
    simp only [toBuilder, Builder.build, prepared, ih, closes, ok_bind]
    rfl

/-- **Rebuilding is the identity**: the builders of a chain build the chain itself, layer by layer, whatever its
lengths say, and so do they on a workbench that holds any other builders. -/
theorem Packet.rebuild_eq_self (p : Packet) (w : Workbench) :
    p.toBuilder.build = .ok p ∧ (w.place p.toBuilder).2.build (w.place p.toBuilder).1 = .ok p := by
  have own := p.build_toBuilder
  refine ⟨own, ?_⟩
  rw [Workbench.build_place, own]

end PacketStack
