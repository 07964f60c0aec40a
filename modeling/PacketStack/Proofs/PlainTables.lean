/-
Plain tables: those whose entries are layers or refuse everything.

The built-in table is plain, and a table stays so whatever plain decoders are registered, replaced and removed.
-/
import PacketStack.Decode

namespace PacketStack

/-- A layer's decoder, or one that answers any bytes with a fault of the packet hierarchy. -/
inductive Handler.Plain : Handler → Prop
  | layer (l : Layer) : Plain (.layer l)
  | refusing {decode : Bytes → Except Fault Packet}
      (h : ∀ raw, ∃ f, decode raw = .error f ∧ f.ofPacket = true) : Plain (.custom decode)

/-- Every entry is a plain decoder, under whatever contract and number. -/
def Registry.Plain (r : Registry Decoder) : Prop := ∀ e ∈ r.entries, ∃ h, e.2 = .handler h ∧ h.Plain

namespace Registry

theorem mem_of_find? {α : Type} {r : Registry α} {contract : Contract} {value : Number} {entry : α}
    (found : r.find? contract value = some entry) : (keyText contract value, entry) ∈ r.entries := by
  obtain ⟨front, rest, entries, -⟩ := List.lookup_eq_some_iff.mp found
  rw [entries]
  exact List.mem_append_right front List.mem_cons_self

theorem mem_put {α : Type} {key : String} {entry : α} {entries : List (String × α)} {e : String × α}
    (h : e ∈ put key entry entries) : e = (key, entry) ∨ e ∈ entries := by
  induction entries with
  | nil => exact .inl (List.mem_singleton.mp h)
  | cons first rest ih =>
    unfold put at h
    split at h
    · exact (List.mem_cons.mp h).imp_right (List.mem_cons_of_mem _)
    · obtain rfl | h := List.mem_cons.mp h
      · exact .inr List.mem_cons_self
      · exact (ih h).imp_right (List.mem_cons_of_mem _)

theorem mem_register {α : Type} {r : Registry α} {contract : Contract} {value : Number} {entry : α} {replace : Bool}
    {e : String × α} (h : e ∈ (r.register contract value entry replace).registry.entries) :
    e = (keyText contract value, entry) ∨ e ∈ r.entries := by
  unfold Registry.register at h
  split at h
  · exact .inr h
  · exact mem_put h

variable {r : Registry Decoder}

theorem plain_empty : Plain {} := by
  intro e he
  cases he

theorem Plain.register (hr : r.Plain) (contract : Contract) (value : Number) {h : Handler} (hh : h.Plain)
    (replace : Bool) : (r.register contract value (.handler h) replace).registry.Plain := by
  intro e he
  obtain rfl | he := mem_register he
  · exact ⟨h, rfl, hh⟩
  · exact hr e he

theorem Plain.unregister (hr : r.Plain) {contract : Contract} {value : Number} {c : Change Decoder}
    (h : r.unregister contract value = some c) : c.registry.Plain := by
  unfold Registry.unregister at h
  split at h
  · cases h
    exact fun e he => hr e (List.mem_filter.mp he).1
  · cases h

theorem Plain.registerAll (hr : r.Plain) {entries : List (Contract × Number × Decoder)}
    (plain : ∀ e ∈ entries, ∃ h, e.2.2 = .handler h ∧ h.Plain) : (r.registerAll entries).registry.Plain := by
  induction entries generalizing r with
  | nil => exact hr
  | cons e rest ih =>
    obtain ⟨contract, value, entry⟩ := e
    obtain ⟨h, rfl, hh⟩ := plain _ List.mem_cons_self
    have first := hr.register contract value hh false
    unfold Registry.registerAll
    simp only
    split
    · exact first
    · exact ih first fun e he => plain e (List.mem_cons_of_mem _ he)

theorem plain_builtIn : builtIn.Plain := by
  refine plain_empty.registerAll fun e he => ?_
  obtain ⟨l, -, installed⟩ := List.mem_filterMap.mp he
  obtain ⟨number, -, rfl⟩ := Option.map_eq_some_iff.mp installed
  exact ⟨_, rfl, .layer l⟩

/-- The built-in table with a decoder of TCP that refuses everything. -/
def refusingTcp : Registry Decoder :=
  (builtIn.register .ipNumber 6 (.handler (.custom fun _ => .error .unknownEmpty)) false).registry

theorem plain_refusingTcp : refusingTcp.Plain :=
  plain_builtIn.register .ipNumber 6 (.refusing fun _ => ⟨_, rfl, rfl⟩) false

end Registry
end PacketStack
