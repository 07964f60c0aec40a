/-
Which byte strings a layer's decoder accepts: those that pass the layer's own checks.

What lies inside a layer never makes its decoder fail. A nested decoder that refuses is contained, a number
without an entry is decoded as unknown, and the rebuild of a quarantined chain always succeeds; and where the
layer's own checks fail, nothing nested is decoded at all.
-/
import PacketStack.Proofs.Nesting

namespace PacketStack

namespace Layer

variable {r r' : Registry Decoder}

theorem decode_of_refusal {l : Layer} {raw : Bytes} {c : FaultClass} (h : l.refusal raw = some c) :
    ∃ f, f.faultClass = c ∧ ∀ r, (l.decode r raw).result = .error f := by
  cases hd : l.dissect raw with
  | error f =>
    have same := refusal_of_dissect hd
    rw [h, Option.some.injEq] at same
    exact ⟨f, same.symm, fun r => by rw [decode_refused hd]⟩
  | ok d =>
    have accepted := (fits_of_dissect hd).1
    rw [h] at accepted
    cases accepted

theorem decode_of_accepted (hr : r.Plain) {l : Layer} {raw : Bytes} (h : l.refusal raw = none) :
    ∃ p, (l.decode r raw).result = .ok p := by
  rw [decode_result hr]
  split
  · next f hd =>
    have refused := refusal_of_dissect hd
    rw [h] at refused
    cases refused
  · next p _ => exact ⟨p, rfl⟩
  · exact ⟨_, rfl⟩

/-- **A layer is accepted exactly if it passes its own checks**, and refused with the class of the first check that
fails. The fault is the same under any other table, so that nothing nested has a part in it. -/
theorem decode_by_own_checks (hr : r.Plain) (hr' : r'.Plain) (l : Layer) (raw : Bytes) :
    ((∃ p, (l.decode r raw).result = .ok p) ↔ l.refusal raw = none) ∧
    (∀ c, (∃ f, (l.decode r raw).result = .error f ∧ f.faultClass = c) ↔ l.refusal raw = some c) ∧
    ∀ f, (l.decode r raw).result = .error f ↔ (l.decode r' raw).result = .error f := by
  cases h : l.refusal raw with
  | none =>
    obtain ⟨p, accepted⟩ := decode_of_accepted hr h
    obtain ⟨p', accepted'⟩ := decode_of_accepted hr' h
    simp [accepted, accepted']
  | some c =>
    obtain ⟨f, class_, refused⟩ := decode_of_refusal h
    simp [refused, class_]

/-- IPv6 around a payload that the decoder of TCP refuses, and with that payload cut off. -/
theorem decode_by_own_checks_around_refused :
    let header := [0x60, 0, 0, 0, 0, 1, 6, 64] ++ Bytes.zeros 32
    (∃ p, (ipv6.decode Registry.refusingTcp (header ++ [0xaa])).result = .ok p) ∧
    ∃ f, (ipv6.decode Registry.refusingTcp header).result = .error f ∧ f.faultClass = .inconsistentLength := by
  intro header
  have around := decode_by_own_checks Registry.plain_refusingTcp Registry.plain_builtIn ipv6 (header ++ [0xaa])
  have cut := decode_by_own_checks Registry.plain_refusingTcp Registry.plain_builtIn ipv6 header
  exact ⟨around.1.mpr (by decide), (cut.2.1 .inconsistentLength).mpr (by decide)⟩

end Layer
end PacketStack
