/-
What quarantine does to a chain: it never fails, and the chain that comes back is the chain that went in, except
that a malformed layer below the outermost one has become an unknown one with the same bytes.

Quarantine goes through builders: the chain is taken apart into drafts, the malformed builder is replaced in its
parent, corrections are turned off, and everything is built again. `quarantined` says the same on the chain
itself; `quarantine_eq` is the equation, by way of `build_toBuilder`.
-/
import Mathlib.Data.List.Forall2
import PacketStack.Proofs.Rebuild

namespace PacketStack

namespace Packet

/-- The chain with its malformed layer, if it has one, made an unknown one. -/
def unmarked : Packet → Packet
  | leaf l => unknown l.raw
  | bare d => bare d
  | carrying f payload => carrying f payload.unmarked

/-- The chain with nothing malformed below its outermost layer. -/
def quarantined : Packet → Packet
  | carrying f payload => carrying f payload.unmarked
  | p => p

/-- The same layer but for what it carries: kind, header and the fields behind the payload. -/
def SameLayer : Packet → Packet → Prop
  | leaf l, leaf l' => l = l'
  | bare d, bare d' => d = d'
  | carrying f _, carrying f' _ => f = f'
  | _, _ => False

/-- What becomes of a layer that another carries. -/
def UnmarkedAs (p q : Packet) : Prop :=
  if p.isMalformed then q = unknown p.serialize else p.SameLayer q

theorem SameLayer.refl (p : Packet) : p.SameLayer p := by cases p <;> rfl

theorem UnmarkedAs.of_sameLayer {p q : Packet} (clean : p.isMalformed = false) (same : p.SameLayer q) :
    p.UnmarkedAs q := by
  rw [UnmarkedAs, if_neg (by rw [clean]; decide)]
  exact same

/-! ## Through the builders -/

theorem replaceMalformed_toBuilder (f : Frame) (payload : Packet) :
    (carrying f payload).toBuilder.replaceMalformed = (carrying f payload.unmarked).toBuilder := by
  induction payload generalizing f with
  | leaf l => rfl
  | bare d => rfl
  | carrying f' payload ih => exact congrArg (Builder.carrying f.draft) (ih f')

theorem disableCorrections_toBuilder (p : Packet) : p.toBuilder.disableCorrections = p.toBuilder := by
  induction p with
  | leaf l => rfl
  | bare d => cases d <;> rfl
  | carrying f payload ih =>
    have draft : f.draft.withPolicy f.draft.policy.disable = f.draft := by
      cases f with
      | datagram d => cases d <;> rfl
      | redirected h => rfl
      | ssh h padding mac => rfl
    rw [toBuilder, Builder.disableCorrections, draft, ih]

theorem unmarked_of_clean {p : Packet} (h : p.containsMalformed = false) : p.unmarked = p := by
  induction p with
  | leaf l =>
    cases l with
    | unknown raw => rfl
    | malformed raw cause => cases h
  | bare d => rfl
  | carrying f payload ih => exact congrArg (carrying f) (ih h)

theorem quarantined_of_not_hides {p : Packet} (h : p.hidesMalformed = false) : p.quarantined = p := by
  cases p with
  | leaf l => rfl
  | bare d => rfl
  | carrying f payload => exact congrArg (carrying f) (unmarked_of_clean h)

theorem quarantine_eq (p : Packet) : p.quarantine = .ok p.quarantined := by
  unfold quarantine
  split
  · next hides =>
    cases p with
    | leaf l =>
      cases l with
      | unknown raw => cases hides
      | malformed raw cause => cases hides
    | bare d => cases hides
    | carrying f payload =>
      rw [replaceMalformed_toBuilder, disableCorrections_toBuilder, build_toBuilder]
      rfl
  · next clean => rw [quarantined_of_not_hides (by simpa using clean)]

/-! ## On the chain -/

theorem serialize_unmarked (p : Packet) : p.unmarked.serialize = p.serialize := by
  induction p with
  | leaf l => simp only [unmarked, unknown, serialize_leaf, Leaf.raw]
  | bare d => rfl
  | carrying f payload ih => simp only [unmarked, serialize_carrying, ih]

theorem serialize_quarantined (p : Packet) : p.quarantined.serialize = p.serialize := by
  cases p with
  | leaf l => rfl
  | bare d => rfl
  | carrying f payload => simp only [quarantined, serialize_carrying, serialize_unmarked]

theorem containsMalformed_unmarked (p : Packet) : p.unmarked.containsMalformed = false := by
  induction p with
  | leaf l => rfl
  | bare d => rfl
  | carrying f payload ih => exact ih

theorem containsMalformed_quarantined (p : Packet) : p.quarantined.containsMalformed = p.isMalformed := by
  cases p with
  | leaf l => rfl
  | bare d => rfl
  | carrying f payload => exact containsMalformed_unmarked payload

theorem isMalformed_quarantined (p : Packet) : p.quarantined.isMalformed = p.isMalformed := by
  cases p <;> rfl

theorem hidesMalformed_quarantined (p : Packet) : p.quarantined.hidesMalformed = false := by
  rw [hidesMalformed, containsMalformed_quarantined, isMalformed_quarantined, Bool.not_and_self]

theorem containsMalformed_iff {p : Packet} : p.containsMalformed = true ↔ ∃ q ∈ p.layers, q.isMalformed = true := by
  induction p with
  | leaf l => simp only [layers, List.mem_singleton, exists_eq_left]; rfl
  | bare d => simp only [layers, List.mem_singleton, exists_eq_left]; rfl
  | carrying f payload ih =>
    have outer : (carrying f payload).isMalformed = false := rfl
    simp only [layers, List.exists_mem_cons_iff, outer, Bool.false_eq_true, false_or]
    exact ih

theorem layers_unmarked (p : Packet) : List.Forall₂ UnmarkedAs p.layers p.unmarked.layers := by
  induction p with
  | leaf l =>
    refine .cons ?_ .nil
    cases l with
    | unknown raw => exact .of_sameLayer rfl (SameLayer.refl _)
    | malformed raw cause => exact congrArg unknown (serialize_leaf _).symm
  | bare d => exact .cons (.of_sameLayer rfl (SameLayer.refl _)) .nil
  | carrying f payload ih => exact .cons (.of_sameLayer rfl rfl) ih

theorem layers_quarantined (p : Packet) :
    p.SameLayer p.quarantined ∧ List.Forall₂ UnmarkedAs p.layers.tail p.quarantined.layers.tail := by
  cases p with
  | leaf l => exact ⟨SameLayer.refl _, .nil⟩
  | bare d => exact ⟨SameLayer.refl _, .nil⟩
  | carrying f payload => exact ⟨rfl, layers_unmarked payload⟩

theorem hidesMalformed_of_tail {p : Packet} (h : ∀ q ∈ p.layers.tail, q.isMalformed = false) :
    p.hidesMalformed = false := by
  cases p with
  | leaf l => exact Bool.not_and_self _
  | bare d => rfl
  | carrying f payload =>
    refine Bool.eq_false_iff.mpr fun hides => ?_
    have inside : payload.containsMalformed = true := hides
    obtain ⟨q, hq, malformed⟩ := containsMalformed_iff.mp inside
    exact Bool.false_ne_true ((h q hq).symm.trans malformed)

theorem length_layers_quarantined (p : Packet) : p.quarantined.layers.length = p.layers.length := by
  cases p with
  | leaf l => rfl
  | bare d => rfl
  | carrying f payload => exact congrArg (· + 1) (layers_unmarked payload).length_eq.symm

/-- **Quarantine changes the hidden malformed layer and nothing else.** -/
theorem quarantine_keeps (p : Packet) : ∃ q, p.quarantine = .ok q ∧
    q.serialize = p.serialize ∧ q.layers.length = p.layers.length ∧
    p.SameLayer q ∧ List.Forall₂ UnmarkedAs p.layers.tail q.layers.tail ∧
    (q.containsMalformed = true ↔ p.isMalformed = true) ∧
    ((∀ below ∈ p.layers.tail, below.isMalformed = false) → q = p) ∧
    q.quarantine = .ok q := by
  obtain ⟨outer, below⟩ := layers_quarantined p
  refine ⟨p.quarantined, quarantine_eq p, serialize_quarantined p, length_layers_quarantined p, outer, below, ?_,
    fun clean => ?_, ?_⟩
  · rw [containsMalformed_quarantined]
  · exact quarantined_of_not_hides (hidesMalformed_of_tail clean)
  · rw [quarantine_eq, quarantined_of_not_hides (hidesMalformed_quarantined p)]

end Packet
end PacketStack
