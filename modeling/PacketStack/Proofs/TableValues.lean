/-
Which numbers a table lists under a contract.

`Registry.values` reads numbers out of all keys that begin with the identity and a colon. A key under that identity gives
back its number. But where another identity begins with this one and a colon (`Contract.Covers`), its keys begin so too, and
what is left of them is no number (`Registry.reading_eq_some_iff`). There are no other such keys. A table that is used has one
key for each of its pairs (`Session.keyed_after`), so the list is the ascending one of the numbers under the contract
exactly while nothing is under an identity that the contract covers (`Session.values_agree_iff`).
-/
import Mathlib.Data.List.Basic
import Mathlib.Data.Set.List
import PacketStack.Proofs.Numerals
import PacketStack.Proofs.PlainTables
import PacketStack.Proofs.TableSessions

namespace PacketStack

/-- The other identity begins with this one and a colon. -/
def Contract.Covers (contract other : Contract) : Prop := contract.id.toList ++ [':'] <+: other.id.toList

namespace Registry

variable {α : Type}

/-! ## Reading keys -/

/-- What `values` makes of a key. -/
def reading (contract : Contract) (key : String) : Option Number :=
  ((contract.id ++ ":").toList.isPrefixOf? key.toList).map Number.read

theorem values_eq (r : Registry α) (contract : Contract) :
    r.values contract = Number.ascending (r.entries.filterMap fun e => reading contract e.1) := rfl

/-- The last colon of a key ends its identity. Where the front of the key ends at an earlier one, the rest of the identity
stands before the number. -/
theorem reading_eq_some_iff {contract other : Contract} {n : Nat} (hn : n ≤ Number.exactBelow) {x : Number} :
    reading contract (keyText other n) = some x ↔
      other.id = contract.id ∧ x = (n : Number) ∨ contract.Covers other ∧ x = .nan := by
  have front : (contract.id ++ ":").toList = contract.id.toList ++ [':'] := String.toList_append
  have digits : Number.read (n : Number).decimal = (n : Number) := by
    rw [Number.decimal_nat hn, Number.read_digits hn]
  have starts : reading contract (keyText other n) = some x ↔ ∃ rest,
      contract.id.toList ++ ':' :: rest = other.id.toList ++ ':' :: (n : Number).decimal ∧ Number.read rest = x := by
    simp only [reading, front, toList_keyText, Option.map_eq_some_iff, List.isPrefixOf?_eq_some_iff_append_eq,
      List.append_assoc, List.singleton_append]
  rw [starts]
  constructor
  · rintro ⟨rest, same, rfl⟩
    obtain ⟨between, ids, behind⟩ | ⟨between, ids, behind⟩ := List.append_eq_append_iff.mp same
    · cases between with
      | nil =>
        rw [List.append_nil, String.toList_inj] at ids
        cases behind
        exact .inl ⟨ids, digits⟩
      | cons c between =>
        cases behind
        refine .inr ⟨⟨between, ?_⟩, Number.read_of_colon (by simp)⟩
        rw [ids, List.append_assoc, List.singleton_append]
    · cases between with
      | nil =>
        rw [List.append_nil, String.toList_inj] at ids
        cases behind
        exact .inl ⟨ids.symm, digits⟩
      | cons c between =>
        obtain ⟨-, later⟩ := List.cons.inj behind
        have colon : ':' ∈ (n : Number).decimal := by simp [later]
        exact absurd colon (Number.colon_notMem_decimal hn)
  · rintro (⟨same, rfl⟩ | ⟨⟨between, covered⟩, rfl⟩)
    · exact ⟨_, by rw [same], digits⟩
    · refine ⟨between ++ ':' :: (n : Number).decimal, ?_, Number.read_of_colon (by simp)⟩
      rw [← covered]
      simp only [List.append_assoc, List.cons_append, List.nil_append]

/-! ## Keys -/

/-- Each key is that of a pair, and no key comes twice. -/
structure Keyed (r : Registry α) : Prop where
  pairs : ∀ e ∈ r.entries, ∃ (contract : Contract) (value : Index), e.1 = keyText contract value.val
  distinct : r.entries.Pairwise fun e e' => e.1 ≠ e'.1

theorem keyed_empty : Keyed ({} : Registry α) := ⟨fun _ h => (List.not_mem_nil h).elim, List.Pairwise.nil⟩

variable {r : Registry α}

theorem keys_put (key : String) (entry : α) (entries : List (String × α)) :
    (put key entry entries).map Prod.fst =
      if key ∈ entries.map Prod.fst then entries.map Prod.fst else entries.map Prod.fst ++ [key] := by
  induction entries with
  | nil => rfl
  | cons e rest ih =>
    obtain ⟨k, e⟩ := e
    unfold put
    split
    · next same => simp [same]
    · next other =>
      simp only [List.map_cons, ih, List.mem_cons, Ne.symm other, false_or]
      split <;> rfl

theorem Keyed.register (keyed : r.Keyed) (contract : Contract) (value : Index) (entry : α) (replace : Bool) :
    (r.register contract value.val entry replace).registry.Keyed := by
  refine ⟨fun e he => ?_, ?_⟩
  · obtain rfl | he := mem_register he
    · exact ⟨contract, value, rfl⟩
    · exact keyed.pairs e he
  · unfold Registry.register
    split
    · exact keyed.distinct
    · have keys := keyed.distinct
      rw [← List.pairwise_map (f := Prod.fst) (R := (· ≠ ·))] at keys ⊢
      rw [keys_put]
      split
      · exact keys
      · next fresh =>
        refine List.pairwise_append.mpr ⟨keys, List.pairwise_singleton _ _, fun k hk k' hk' => ?_⟩
        rw [List.mem_singleton.mp hk']
        exact fun same => fresh (same ▸ hk)

theorem Keyed.unregister (keyed : r.Keyed) {contract : Contract} {value : Number} {c : Change α}
    (removed : r.unregister contract value = some c) : c.registry.Keyed := by
  unfold Registry.unregister at removed
  split at removed
  · cases removed
    exact ⟨fun e he => keyed.pairs e (List.mem_filter.mp he).1, keyed.distinct.sublist List.filter_sublist⟩
  · cases removed

theorem Keyed.perform (keyed : r.Keyed) (fallback : α) : ∀ c : Call α, (c.perform fallback r).registry.Keyed
  | .register contract value entry replace => keyed.register contract value entry replace
  | .unregister contract value => by
    simp only [Call.perform]
    split
    · next removed => exact keyed.unregister removed
    · exact keyed
  | .lookup _ _ => keyed
  | .has _ _ => keyed

theorem has_keyText_iff {contract : Contract} {value : Number} :
    r.has contract value = true ↔ ∃ e ∈ r.entries, e.1 = keyText contract value := by
  rw [has, find?, List.lookup_isSome_iff]
  exact exists_congr fun e => and_congr_right fun _ => beq_iff_eq.trans eq_comm

/-- Of the contract only the identity counts. -/
theorem has_congr {contract other : Contract} (same : other.id = contract.id) (value : Number) :
    r.has other value = r.has contract value := by
  simp only [has, find?, keyText, same]

/-! ## What is listed -/

section
variable (keyed : r.Keyed) {contract : Contract}
include keyed

/-- **What is listed** under a contract are the numbers of its own entries, and no number for each entry under an identity
that it covers. -/
theorem Keyed.mem_values {x : Number} : x ∈ r.values contract ↔ ∃ (other : Contract) (v : Index),
    r.has other v.val = true ∧ (other.id = contract.id ∧ x = (v.val : Number) ∨ contract.Covers other ∧ x = .nan) := by
  rw [values_eq, (Number.perm_ascending _).mem_iff, List.mem_filterMap]
  constructor
  · rintro ⟨e, he, read⟩
    obtain ⟨other, v, key⟩ := keyed.pairs e he
    rw [key, reading_eq_some_iff (Nat.le_of_lt_succ v.isLt)] at read
    exact ⟨other, v, has_keyText_iff.mpr ⟨e, he, key⟩, read⟩
  · rintro ⟨other, v, present, read⟩
    obtain ⟨e, he, key⟩ := has_keyText_iff.mp present
    exact ⟨e, he, by rwa [key, reading_eq_some_iff (Nat.le_of_lt_succ v.isLt)]⟩

/-- No number is listed twice. -/
theorem Keyed.distinct_readings : (r.entries.filterMap fun e => reading contract e.1).Pairwise fun x y => x = y → x = .nan := by
  refine List.Pairwise.filterMap _ ?_ (keyed.distinct.imp_of_mem fun {e e'} he he' apart => And.intro he (And.intro he' apart))
  rintro e e' ⟨he, he', apart⟩ x read x' read' rfl
  obtain ⟨other, v, key⟩ := keyed.pairs e he
  obtain ⟨other', v', key'⟩ := keyed.pairs e' he'
  rw [key, reading_eq_some_iff (Nat.le_of_lt_succ v.isLt)] at read
  rw [key', reading_eq_some_iff (Nat.le_of_lt_succ v'.isLt)] at read'
  obtain ⟨own, rfl⟩ | ⟨-, none⟩ := read
  · obtain ⟨own', same⟩ | ⟨-, none⟩ := read'
    · refine absurd ?_ apart
      rw [key, key', keyText, keyText, own, own', same]
    · exact none
  · exact none

end

/-- Numbers that are there are sorted as the integers that they are. -/
theorem ascending_indices (indices : List Index) :
    Number.ascending (indices.map fun v => (v.val : Number)) =
      (indices.mergeSort fun v w => decide (v ≤ w)).map fun v => (v.val : Number) := by
  have numbers : Number.nan ∉ indices.map fun v => (v.val : Number) := by simp
  rw [Number.ascending, if_neg numbers]
  refine (List.map_mergeSort fun v _ w _ => ?_).symm
  rw [Number.lt_int, ← decide_not, decide_eq_decide, Int.not_lt, Int.ofNat_le]
  rfl

/-- Where only numbers are listed, their order is strictly ascending. -/
theorem Keyed.ascending_values (keyed : r.Keyed) {contract : Contract} (numbers : .nan ∉ r.values contract) :
    (r.values contract).Pairwise fun x y => x.lt y = true := by
  have index : (r.entries.filterMap fun e => reading contract e.1) ∈
      Set.range (List.map fun v : Index => (v.val : Number)) := by
    rw [Set.range_list_map]
    intro x hx
    have listed : x ∈ r.values contract := (Number.perm_ascending _).mem_iff.mpr hx
    obtain ⟨other, v, -, ⟨-, rfl⟩ | ⟨-, rfl⟩⟩ := keyed.mem_values.mp listed
    · exact ⟨v, rfl⟩
    · exact absurd listed numbers
  obtain ⟨indices, same⟩ := index
  have distinct : (indices.mergeSort fun v w => decide (v ≤ w)).Nodup := by
    have apart : (r.entries.filterMap fun e => reading contract e.1).Pairwise fun x y => x = y → x = .nan :=
      keyed.distinct_readings
    rw [← same, List.pairwise_map] at apart
    refine (List.mergeSort_perm indices _).nodup_iff.mpr (apart.imp fun {v w} nowhere equal => ?_)
    cases nowhere (congrArg (fun v : Index => (v.val : Number)) equal)
  have sorted : (indices.mergeSort fun v w => decide (v ≤ w)).Pairwise fun v w => decide (v ≤ w) = true := by
    refine List.pairwise_mergeSort (fun a b c ab bc => ?_) (fun a b => ?_) indices
    · exact decide_eq_true (Nat.le_trans (of_decide_eq_true ab) (of_decide_eq_true bc))
    · rw [Bool.or_eq_true, decide_eq_true_eq, decide_eq_true_eq]
      exact Nat.le_total a.val b.val
  rw [values_eq, ← same, ascending_indices, List.pairwise_map]
  refine (sorted.and distinct).imp fun {v w} ⟨le, ne⟩ => ?_
  rw [Number.lt_int]
  exact decide_eq_true (Int.ofNat_lt.mpr (Nat.lt_of_le_of_ne (of_decide_eq_true le) fun h => ne (Fin.ext h)))

end Registry

namespace Session

variable {α : Type}

/-- **The run**: however a new table is used, each of its keys is that of a pair, and none comes twice. -/
theorem keyed_after (fallback : α) (calls : List (Call α)) : (after fallback calls).registry.Keyed := by
  have run (s : Session α) (keyed : s.registry.Keyed) : (calls.foldl (Session.call fallback) s).registry.Keyed := by
    induction calls generalizing s with
    | nil => exact keyed
    | cons c rest ih => exact ih _ (keyed.perform fallback c)
  exact run {} Registry.keyed_empty

/-- **What is listed under a contract agrees with what the table has** exactly while it has nothing under an identity that
the contract covers: then the list is strictly ascending, and its members are the numbers that the table has under the
contract. In any case it has all of these numbers; and for an entry under a covered identity it has a member that is no
number, but no other one. -/
theorem values_agree_iff (fallback : α) (calls : List (Call α)) (contract : Contract) :
    let r := (after fallback calls).registry
    (((r.values contract).Pairwise (fun x y => x.lt y = true) ∧
        ∀ x, x ∈ r.values contract ↔ ∃ v : Index, x = (v.val : Number) ∧ r.has contract v.val = true) ↔
      ∀ (other : Contract) (v : Index), contract.Covers other → r.has other v.val = false) ∧
    (∀ v : Index, (v.val : Number) ∈ r.values contract ↔ r.has contract v.val = true) ∧
    (.nan ∈ r.values contract ↔ ∃ (other : Contract) (v : Index), contract.Covers other ∧ r.has other v.val = true) ∧
    ∀ x ∈ r.values contract, x = .nan ∨ ∃ v : Index, x = (v.val : Number) := by
  intro r
  have keyed : r.Keyed := keyed_after fallback calls
  have number (v : Index) : (v.val : Number) ∈ r.values contract ↔ r.has contract v.val = true := by
    rw [keyed.mem_values]
    constructor
    · rintro ⟨other, w, present, ⟨same, equal⟩ | ⟨-, none⟩⟩
      · rwa [equal, ← Registry.has_congr same]
      · cases none
    · exact fun present => ⟨contract, v, present, .inl ⟨rfl, rfl⟩⟩
  have none : .nan ∈ r.values contract ↔
      ∃ (other : Contract) (v : Index), contract.Covers other ∧ r.has other v.val = true := by
    rw [keyed.mem_values]
    constructor
    · rintro ⟨other, v, present, ⟨-, equal⟩ | ⟨covered, -⟩⟩
      · cases equal
      · exact ⟨other, v, covered, present⟩
    · rintro ⟨other, v, covered, present⟩
      exact ⟨other, v, present, .inr ⟨covered, rfl⟩⟩
  have only : ∀ x ∈ r.values contract, x = .nan ∨ ∃ v : Index, x = (v.val : Number) := by
    intro x listed
    obtain ⟨other, v, -, ⟨-, rfl⟩ | ⟨-, rfl⟩⟩ := keyed.mem_values.mp listed
    · exact .inr ⟨v, rfl⟩
    · exact .inl rfl
  refine ⟨⟨fun ⟨_, members⟩ other v covered => ?_, fun free => ?_⟩, number, none, only⟩
  · refine Bool.eq_false_iff.mpr fun present => ?_
    obtain ⟨w, equal, -⟩ := (members .nan).mp (none.mpr ⟨other, v, covered, present⟩)
    cases equal
  · have numbers : .nan ∉ r.values contract := by
      rw [none]
      rintro ⟨other, v, covered, present⟩
      rw [free other v covered] at present
      cases present
    refine ⟨keyed.ascending_values numbers, fun x => ⟨fun listed => ?_, ?_⟩⟩
    · obtain rfl | ⟨v, rfl⟩ := only x listed
      · exact absurd listed numbers
      · exact ⟨v, rfl, (number v).mp listed⟩
    · rintro ⟨v, rfl, present⟩
      exact (number v).mpr present

/-- An entry under an identity that begins with another one and a colon is listed there, and not had. -/
theorem values_of_covered :
    let r := (after (α := Decoder) (.layer .unknown) [.register ⟨"a:b", 8, []⟩ 3 (.layer .unknown) false]).registry
    r.values ⟨"a", 8, []⟩ = [.nan] ∧ ∀ v : Index, r.has ⟨"a", 8, []⟩ v.val = false := by
  intro r
  have listed : r.values ⟨"a", 8, []⟩ = [.nan] := by decide +kernel
  refine ⟨listed, fun v => Bool.eq_false_iff.mpr fun present => ?_⟩
  obtain ⟨e, he, key⟩ := Registry.has_keyText_iff.mp present
  obtain rfl := List.mem_singleton.mp he
  have same := (@Registry.keyText_eq_iff_pair ⟨"a:b", 8, []⟩ ⟨"a", 8, []⟩ 3 v).mp key
  exact absurd (show "a" = "a:b" from congrArg Prod.fst same) (by decide)

end Session
end PacketStack
