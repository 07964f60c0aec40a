/-
Which entry a table finds.

A key is made of the identity of its contract, a colon and the decimal text of its number. The text of an integer has
no colon in it, so the last colon of a key ends the identity, whatever characters the identity itself has: keys are
the same only for the same identity and the same number (`keyText_inj`). What a registration or a removal does to the
entry of any pair can therefore be settled by comparing pairs (`find?_register`, `find?_unregister`).
-/
import PacketStack.Decode
import PacketStack.Proofs.Spelling

namespace PacketStack

namespace Number

theorem colon_notMem_decimal {n : Nat} (h : n ≤ exactBelow) : ':' ∉ (n : Number).decimal := by
  rw [decimal_nat h]
  exact Nondigit.notMem_toDigits (by decide) (by decide) (by decide) n

end Number

/-- Where the text behind it has none, a separator is the last one and can be found again. -/
theorem append_separator_inj {s t u v : List Char} {c : Char} (hu : c ∉ u) (hv : c ∉ v) :
    s ++ c :: u = t ++ c :: v ↔ s = t ∧ u = v := by
  have behind {s u : List Char} (hu : c ∉ u) : (s ++ c :: u).reverse.takeWhile (· ≠ c) = u.reverse := by
    have kept : ∀ x ∈ u.reverse, decide (x ≠ c) = true := fun x hx =>
      decide_eq_true fun same => hu (same ▸ List.mem_reverse.mp hx)
    rw [List.reverse_append, List.reverse_cons, List.append_assoc, List.takeWhile_append_of_pos kept]
    simp
  constructor
  · intro same
    have tails : u.reverse = v.reverse := by rw [← behind hu, same, behind hv]
    obtain rfl := List.reverse_inj.mp tails
    exact ⟨List.append_cancel_right same, rfl⟩
  · rintro ⟨rfl, rfl⟩
    rfl

namespace Registry

theorem toList_keyText (contract : Contract) (value : Number) :
    (keyText contract value).toList = contract.id.toList ++ ':' :: value.decimal := by
  simp only [keyText, Number.text, String.toList_append, String.toList_ofList, List.append_assoc]
  rfl

/-- A key tells its identity and its number. -/
theorem keyText_inj {contract other : Contract} {m n : Nat} (hm : m ≤ Number.exactBelow) (hn : n ≤ Number.exactBelow) :
    keyText contract m = keyText other n ↔ contract.id = other.id ∧ m = n := by
  rw [← String.toList_inj, toList_keyText, toList_keyText,
    append_separator_inj (Number.colon_notMem_decimal hm) (Number.colon_notMem_decimal hn), Number.decimal_inj hm hn,
    String.toList_inj]

section
variable {α : Type} {r : Registry α} {contract : Contract} {value : Number}

/-- A registration is refused exactly where there is an entry that it may not replace. -/
theorem fault_register (r : Registry α) (contract : Contract) (value : Number) (entry : α) (replace : Bool) :
    (r.register contract value entry replace).fault =
      if r.has contract value && !replace then some (.registered contract value) else none := by
  unfold register
  split <;> rfl

theorem register_of_refused {entry : α} {replace : Bool} {f : Fault}
    (refused : (r.register contract value entry replace).fault = some f) :
    r.register contract value entry replace = { registry := r, fault := some f } := by
  unfold register at refused ⊢
  split at refused
  · next present => rw [if_pos present, ← refused]
  · cases refused

/-- An accepted registration puts its entry under its own key and leaves every other key alone. -/
theorem find?_register {entry : α} {replace : Bool} (accepted : (r.register contract value entry replace).fault = none)
    (contract' : Contract) (value' : Number) :
    (r.register contract value entry replace).registry.find? contract' value' =
      if keyText contract' value' = keyText contract value then some entry else r.find? contract' value' := by
  unfold register at accepted ⊢
  split at accepted
  · cases accepted
  · next free => rw [if_neg free, find?, lookup_put, find?]

theorem find?_unregister {c : Change α} (removed : r.unregister contract value = some c) (contract' : Contract)
    (value' : Number) :
    c.registry.find? contract' value' =
      if keyText contract' value' = keyText contract value then none else r.find? contract' value' := by
  unfold unregister at removed
  split at removed
  · cases removed
    rw [find?, lookup_drop, find?]
  · cases removed

end

/-- UDP is the only layer that the built-in table has under an IP number. -/
theorem find?_builtIn_ipNumber {v : Nat} (hv : v ≤ Number.exactBelow) :
    builtIn.find? .ipNumber v = if v = 17 then some (.layer .udp) else none := by
  have entries : builtIn.entries = [(keyText .etherType (34525 : Nat), .layer .ipv6),
      (keyText .ipNumber (17 : Nat), .layer .udp), (keyText .ndOptionType (4 : Nat), .layer .redirected)] := rfl
  have udp : (keyText .ipNumber v == keyText .ipNumber (17 : Nat)) = decide (v = 17) := by
    rw [beq_eq_decide]
    exact decide_eq_decide.mpr ((keyText_inj hv (by decide)).trans (and_iff_right rfl))
  have ipv6 : (keyText .ipNumber v == keyText .etherType (34525 : Nat)) = false :=
    beq_eq_false_iff_ne.mpr fun same => absurd ((keyText_inj hv (by decide)).mp same).1 (by decide)
  have redirected : (keyText .ipNumber v == keyText .ndOptionType (4 : Nat)) = false :=
    beq_eq_false_iff_ne.mpr fun same => absurd ((keyText_inj hv (by decide)).mp same).1 (by decide)
  rw [find?, entries, List.lookup_cons, ipv6, List.lookup_cons, udp, List.lookup_cons, redirected]
  by_cases h : v = 17 <;> simp [h]

/-- The built-in table with IPv6 under an IP number of its own. -/
def tunnelling (t : UInt8) : Registry Decoder :=
  (builtIn.register .ipNumber (t.toNat : Number) (.layer .ipv6) false).registry

theorem find?_tunnelling {t : UInt8} (ht : t ≠ 17) {v : Nat} (hv : v ≤ Number.exactBelow) :
    (tunnelling t).find? .ipNumber v =
      if v = t.toNat then some (.layer .ipv6) else if v = 17 then some (.layer .udp) else none := by
  have byte : t.toNat ≤ Number.exactBelow := Nat.le_trans (Nat.le_of_lt t.toNat_lt) (by decide)
  have free : builtIn.find? .ipNumber (t.toNat : Number) = none := by
    have other : t.toNat ≠ 17 := fun same => ht (UInt8.toNat_inj.mp same)
    rw [find?_builtIn_ipNumber byte, if_neg other]
  have accepted : (builtIn.register .ipNumber (t.toNat : Number) (.layer .ipv6) false).fault = none := by
    rw [fault_register, has, free]
    rfl
  rw [tunnelling, find?_register accepted, find?_builtIn_ipNumber hv]
  simp only [keyText_inj hv byte, true_and]

end Registry
end PacketStack
