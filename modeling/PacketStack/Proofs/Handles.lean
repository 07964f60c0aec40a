/-
Builders held by handle are the chains that the handles lead to.

`Leads w h b` says that following `h` through the workbench comes to an end and that what was met on the way is
the chain `b`. Each station on the way is met once, because a station met again would lead to a shorter chain
than it does (`Leads.length_le`), so the steps that building allows are enough: building from the handle is
building the chain (`Leads.build`). Placing a chain makes a handle that leads to it (`leads_place`).
-/
import Mathlib.Data.List.Perm.Subperm
import PacketStack.Workbench

namespace PacketStack.Workbench

variable {w : Workbench} {h : Handle} {b b' : Builder}

/-- Following a handle comes to an end, and what was met is the chain. -/
inductive Leads (w : Workbench) : Handle → Builder → Prop
  | leaf {h : Handle} {l : Leaf} : w.get? h = some (.leaf l) → Leads w h (.leaf l)
  | bare {h : Handle} {d : Draft} : w.get? h = some (.draft d none) → Leads w h (.bare d)
  | carrying {h payload : Handle} {d : Draft} {b : Builder} :
      w.get? h = some (.draft d (some payload)) → Leads w payload b → Leads w h (.carrying d b)

theorem Leads.det (h₁ : w.Leads h b) (h₂ : w.Leads h b') : b = b' := by
  induction h₁ generalizing b' with
  | leaf get =>
    cases h₂ with
    | leaf get' => rw [get] at get'; cases get'; rfl
    | bare get' => rw [get] at get'; cases get'
    | carrying get' _ => rw [get] at get'; cases get'
  | bare get =>
    cases h₂ with
    | leaf get' => rw [get] at get'; cases get'
    | bare get' => rw [get] at get'; cases get'; rfl
    | carrying get' _ => rw [get] at get'; cases get'
  | carrying get _ ih =>
    cases h₂ with
    | leaf get' => rw [get] at get'; cases get'
    | bare get' => rw [get] at get'; cases get'
    | carrying get' leads' => rw [get] at get'; cases get'; rw [ih leads']

theorem Leads.lt_length (leads : w.Leads h b) : h < w.stations.length := by
  cases leads with
  | leaf get => exact (List.getElem?_eq_some_iff.mp get).1
  | bare get => exact (List.getElem?_eq_some_iff.mp get).1
  | carrying get _ => exact (List.getElem?_eq_some_iff.mp get).1

/-- The handles met on the way are different, and each leads to a part of the chain. -/
theorem Leads.handles (leads : w.Leads h b) : ∃ met : List Handle,
    met.length = b.layers.length ∧ met.Nodup ∧
      ∀ x ∈ met, ∃ part, w.Leads x part ∧ part.layers.length ≤ b.layers.length := by
  induction leads with
  | @leaf h l get =>
    refine ⟨[h], rfl, by simp, fun x hx => ?_⟩
    obtain rfl := List.mem_singleton.mp hx
    exact ⟨_, .leaf get, Nat.le_refl _⟩
  | @bare h d get =>
    refine ⟨[h], rfl, by simp, fun x hx => ?_⟩
    obtain rfl := List.mem_singleton.mp hx
    exact ⟨_, .bare get, Nat.le_refl _⟩
  | @carrying h payload d b get inner ih =>
    obtain ⟨met, count, nodup, parts⟩ := ih
    have size : (Builder.carrying d b).layers.length = b.layers.length + 1 := rfl
    refine ⟨h :: met, by rw [List.length_cons, count, size], List.nodup_cons.mpr ⟨fun again => ?_, nodup⟩, ?_⟩
    · obtain ⟨part, leads, short⟩ := parts h again
      rw [← (Leads.carrying get inner).det leads] at short
      omega
    · intro x hx
      rcases List.mem_cons.mp hx with rfl | hx
      · exact ⟨_, .carrying get inner, Nat.le_refl _⟩
      · obtain ⟨part, leads, short⟩ := parts x hx
        exact ⟨part, leads, by omega⟩

theorem Leads.length_le (leads : w.Leads h b) : b.layers.length ≤ w.stations.length := by
  obtain ⟨met, count, nodup, parts⟩ := leads.handles
  have inside : met ⊆ List.range w.stations.length := fun x hx => by
    obtain ⟨part, leads, -⟩ := parts x hx
    exact List.mem_range.mpr leads.lt_length
  have le := (List.subperm_of_subset nodup inside).length_le
  rwa [count, List.length_range] at le

theorem Leads.buildFrom (leads : w.Leads h b) {steps : Nat} (enough : b.layers.length ≤ steps) :
    w.buildFrom steps h = b.build := by
  induction leads generalizing steps with
  | leaf get =>
    obtain ⟨steps, rfl⟩ : ∃ n, steps = n + 1 := Nat.exists_eq_add_of_le' enough
    simp only [Workbench.buildFrom, get]
    rfl
  | bare get =>
    obtain ⟨steps, rfl⟩ : ∃ n, steps = n + 1 := Nat.exists_eq_add_of_le' enough
    simp only [Workbench.buildFrom, get]
    rfl
  | carrying get _ ih =>
    simp only [Builder.layers, List.length_cons] at enough
    obtain ⟨steps, rfl⟩ : ∃ n, steps = n + 1 := ⟨steps - 1, by omega⟩
    simp only [Workbench.buildFrom, get, ih (by omega : _ ≤ steps)]
    rfl

theorem Leads.build (leads : w.Leads h b) : w.build h = b.build :=
  leads.buildFrom (Nat.le_succ_of_le leads.length_le)

/-! ## Placing a chain -/

theorem get?_add {s t : Station} (get : w.get? h = some s) : (w.add t).2.get? h = some s := by
  obtain ⟨lt, -⟩ := List.getElem?_eq_some_iff.mp get
  exact (List.getElem?_append_left lt).trans get

theorem get?_add_self (w : Workbench) (s : Station) : (w.add s).2.get? (w.add s).1 = some s :=
  List.getElem?_concat_length

theorem Leads.add (leads : w.Leads h b) (s : Station) : (w.add s).2.Leads h b := by
  induction leads with
  | leaf get => exact .leaf (get?_add get)
  | bare get => exact .bare (get?_add get)
  | carrying get _ ih => exact .carrying (get?_add get) ih

theorem leads_place (w : Workbench) (b : Builder) : (w.place b).2.Leads (w.place b).1 b := by
  induction b generalizing w with
  | leaf l => exact .leaf (get?_add_self w _)
  | bare d => exact .bare (get?_add_self w _)
  | carrying d payload ih => exact .carrying (get?_add_self (w.place payload).2 _) ((ih w).add _)

theorem build_place (w : Workbench) (b : Builder) : (w.place b).2.build (w.place b).1 = b.build :=
  (leads_place w b).build

end PacketStack.Workbench
