/-
Which entries of a table decoding depends on.

The bytes of each layer say which number its payload is decoded under, and yet only three kinds of pairs are ever looked
up: an option embeds IPv6, and next headers and message numbers are bytes (`Layer.consulted_of_handoff`). Tables that agree
on these pairs lead every run down the same way (`Descends.transfer`), and the way down settles the rest. Nothing is looked
up on the way up, neither where bytes are kept nor where a chain is quarantined.
-/
import PacketStack.Proofs.Endings
import PacketStack.Proofs.Lookups

namespace PacketStack

/-- The pairs that a layer can have its payload decoded under. -/
inductive Consulted : Contract → Nat → Prop
  | embedded : Consulted .etherType Contract.ipv6EtherType
  | nextHeader (byte : UInt8) : Consulted .ipNumber byte.toNat
  | message (byte : UInt8) : Consulted .sshMessageNumber byte.toNat

/-- The tables have the same decoders, or none, under all of these pairs. -/
def Registry.AgreesWith (r r' : Registry Decoder) : Prop :=
  ∀ contract value, Consulted contract value → r.find? contract (value : Number) = r'.find? contract (value : Number)

theorem Consulted.le {contract : Contract} {value : Nat} (h : Consulted contract value) : value ≤ Number.exactBelow := by
  have byte (b : UInt8) : b.toNat ≤ Number.exactBelow := Nat.le_trans (Nat.le_of_lt b.toNat_lt) (by decide)
  cases h with
  | embedded => decide
  | nextHeader b => exact byte b
  | message b => exact byte b

theorem Layer.consulted_of_handoff {l : Layer} {raw inner : Bytes} {frame : Frame} {contract : Contract} {value : Nat}
    (h : l.dissect raw = .ok (.handoff frame contract value inner)) : Consulted contract value := by
  cases splits_of_dissect h with
  | @ipv6 _ _ _ header _ _ _ => exact .nextHeader ⟨header.nextHeader⟩
  | redirected _ => exact .embedded
  | ssh _ _ _ _ => exact .message _

namespace Registry

variable {r r' r'' : Registry Decoder}

theorem AgreesWith.trans (h : r.AgreesWith r') (h' : r'.AgreesWith r'') : r.AgreesWith r'' := by
  intro contract value consulted
  rw [h contract value consulted, h' contract value consulted]

/-- A registration under any other pair leaves a table that agrees. -/
theorem agreesWith_register {contract : Contract} {value : Nat} (exact_ : value ≤ Number.exactBelow)
    (other : ∀ c n, Consulted c n → c.id ≠ contract.id ∨ n ≠ value) (entry : Decoder) (replace : Bool) :
    r.AgreesWith (r.register contract value entry replace).registry := by
  intro c n consulted
  cases accepted : (r.register contract value entry replace).fault with
  | some f => rw [register_of_refused accepted]
  | none =>
    have apart : keyText c n ≠ keyText contract value := by
      intro same
      obtain ⟨id, number⟩ := (keyText_inj consulted.le exact_).mp same
      rcases other c n consulted with ne | ne
      · exact ne id
      · exact ne number
    rw [find?_register accepted, if_neg apart]

end Registry

section
variable {r r' : Registry Decoder} {l : Layer} {raw : Bytes} {frames : List Frame} {ending : Ending}

/-- **The step down**, in tables that agree: each look-up of one run finds the same in the other. -/
theorem Descends.transfer (agree : r.AgreesWith r') (h : Descends r l raw frames ending) :
    Descends r' l raw frames ending := by
  induction h with
  | complete hd => exact .complete hd
  | unclaimed hd missing =>
    rw [agree _ _ (Layer.consulted_of_handoff hd)] at missing
    exact .unclaimed hd missing
  | refused hd found refuses =>
    rw [agree _ _ (Layer.consulted_of_handoff hd)] at found
    exact .refused hd found refuses
  | deeper hd found _ ih =>
    rw [agree _ _ (Layer.consulted_of_handoff hd)] at found
    exact .deeper hd found ih

/-- **Unrelated entries have no part in a decode.** Under tables that agree on the pairs that are consulted, a layer gives
the same packet or the same fault, and tells of the same events. -/
theorem Layer.decode_of_agreesWith (hr : r.Steady) (agree : r.AgreesWith r') (l : Layer) (raw : Bytes) :
    l.decode r raw = l.decode r' raw := by
  cases hd : l.dissect raw with
  | error f => rw [decode_refused hd, decode_refused hd]
  | ok d =>
    obtain ⟨frames, ending, down⟩ := hr.descends hd
    rw [down.decode, (down.transfer agree).decode]

end

/-- A table that decodes IPv4, numbers that are no bytes and the option itself in another way, and an option around IPv6
around bytes that TCP refuses. -/
theorem Layer.decode_of_agreesWith_rearranged :
    let table := Registry.refusingTcp
    let other := (((table.register .etherType (0x0800 : Nat) (.layer .udp) false).registry.register
      .ipNumber (256 : Nat) (.layer .ssh) false).registry.register .ndOptionType (4 : Nat) (.layer .unknown) true).registry
    let raw : Bytes := [4, 0] ++ Bytes.zeros 6 ++ [0x60, 0, 0, 0, 0, 1, 6, 64] ++ Bytes.zeros 32 ++ [0xaa]
    table.AgreesWith other ∧ table.has .etherType (0x0800 : Nat) = false ∧ other.has .etherType (0x0800 : Nat) = true ∧
      (redirected.decode table raw).events.length = 1 ∧ redirected.decode table raw = redirected.decode other raw := by
  intro table other raw
  have agree : table.AgreesWith other := by
    refine ((Registry.agreesWith_register (by decide) ?_ _ false).trans
      (Registry.agreesWith_register (by decide) ?_ _ false)).trans (Registry.agreesWith_register (by decide) ?_ _ true)
    · rintro c n (_ | b | b)
      · exact .inr (by decide)
      · exact .inl (by decide)
      · exact .inl (by decide)
    · rintro c n (_ | b | b)
      · exact .inl (by decide)
      · exact .inr (Nat.ne_of_lt b.toNat_lt)
      · exact .inl (by decide)
    · rintro c n (_ | b | b)
      · exact .inl (by decide)
      · exact .inl (by decide)
      · exact .inl (by decide)
  exact ⟨agree, by decide +kernel, by decide +kernel, by decide +kernel,
    decode_of_agreesWith Registry.plain_refusingTcp.steady agree redirected raw⟩

end PacketStack
