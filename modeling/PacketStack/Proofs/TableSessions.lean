/-
A table is a map from pairs of an identity and a number.

A `Session` is a table in use: calls on a new table one after the other, each with the answer that it got, and the
events they gave rise to. What a session holds under a pair is read off the history alone: it is what the last
registration or removal under that very pair left there, of those that succeeded (`Session.held`). The table finds
exactly that. One call keeps it so (`Session.Tracks.call`), hence every run of calls does (`Session.tracks_after`), and
each answer is the one of a map on pairs (`Session.answers_as_map`).

That two pairs never get in each other's way rests on their keys being different (`Registry.keyText_inj`).
-/
import PacketStack.Proofs.Lookups

namespace PacketStack

/-- A number that a key has digit for digit: an integer from zero to two to the power of the significant bits. -/
abbrev Index := Fin (Number.exactBelow + 1)

inductive Call (α : Type)
  | register (contract : Contract) (value : Index) (entry : α) (replace : Bool)
  | unregister (contract : Contract) (value : Index)
  | lookup (contract : Contract) (value : Index)
  | has (contract : Contract) (value : Index)

/-- What a caller gets back. -/
inductive Answer (α : Type)
  | done
  | refused (fault : Fault)
  | present (yes : Bool)
  | found (entry : α)

/-- What a call does: the table after it, what its caller gets back, and the events. -/
structure Effect (α : Type) where
  registry : Registry α
  answer : Answer α
  events : List Event := []

namespace Call

variable {α : Type}

/-- What a call is about. Of the contract only the identity counts. -/
def pair : Call α → String × Index
  | register contract value _ _ => (contract.id, value)
  | unregister contract value => (contract.id, value)
  | lookup contract value => (contract.id, value)
  | has contract value => (contract.id, value)

def perform (fallback : α) (r : Registry α) : Call α → Effect α
  | register contract value entry replace =>
    let change := r.register contract value.val entry replace
    { registry := change.registry, answer := change.fault.elim .done .refused, events := change.events }
  | unregister contract value =>
    match r.unregister contract value.val with
    | some change => { registry := change.registry, answer := .present true, events := change.events }
    | none => { registry := r, answer := .present false }
  | lookup contract value =>
    let (entry, events) := r.lookup fallback contract value.val
    { registry := r, answer := .found entry, events }
  | has contract value => { registry := r, answer := .present (r.has contract value.val) }

/-- The answer of a map that holds this much under the call's pair. -/
def expected (fallback : α) (held : Option α) : Call α → Answer α
  | register contract value _ replace =>
    if held.isSome && !replace then .refused (.registered contract value.val) else .done
  | unregister _ _ => .present held.isSome
  | lookup _ _ => .found (held.getD fallback)
  | has _ _ => .present held.isSome

/-- What a call that got this answer leaves under a pair, if it settles that at all: an entry, or none. -/
def leaves (pair : String × Index) : Call α → Answer α → Option (Option α)
  | register contract value entry _, .done => if (contract.id, value) = pair then some (some entry) else none
  | unregister contract value, .present true => if (contract.id, value) = pair then some none else none
  | _, _ => none

end Call

structure Session (α : Type) where
  registry : Registry α := {}
  /-- The calls and their answers, the first one first. -/
  history : List (Call α × Answer α) := []
  events : List Event := []

namespace Session

variable {α : Type}

/-- One more call. -/
def call (fallback : α) (s : Session α) (c : Call α) : Session α :=
  let effect := c.perform fallback s.registry
  { registry := effect.registry, history := s.history ++ [(c, effect.answer)], events := s.events ++ effect.events }

/-- Calls on a new table, one after the other. -/
def after (fallback : α) (calls : List (Call α)) : Session α := calls.foldl (call fallback) {}

/-- What the last successful registration or removal under a pair left there. -/
def held (s : Session α) (pair : String × Index) : Option α :=
  (s.history.reverse.findSome? fun (c, answer) => c.leaves pair answer).getD none

/-- The table finds what the history says that it holds. -/
def Tracks (s : Session α) : Prop :=
  ∀ (contract : Contract) (value : Index), s.registry.find? contract value.val = s.held (contract.id, value)

end Session

/-! ## One call -/

section
variable {α : Type} {r : Registry α}

theorem Registry.keyText_eq_iff_pair {contract other : Contract} {value value' : Index} :
    keyText contract value.val = keyText other value'.val ↔ (other.id, value') = (contract.id, value) := by
  rw [keyText_inj (Nat.le_of_lt_succ value.isLt) (Nat.le_of_lt_succ value'.isLt), Prod.mk.injEq,
    eq_comm (a := value'), Fin.ext_iff, eq_comm (a := other.id)]

namespace Call

/-- A call is answered from what the table finds under its own pair. -/
theorem answer_perform (fallback : α) (r : Registry α) {held : Option α} :
    ∀ (c : Call α), (∀ contract (value : Index), (contract.id, value) = c.pair → r.find? contract value.val = held) →
      (c.perform fallback r).answer = c.expected fallback held
  | register contract value entry replace, found => by
    have here : r.has contract value.val = held.isSome := congrArg Option.isSome (found contract value rfl)
    simp only [perform, expected, Registry.fault_register, here]
    split <;> rfl
  | unregister contract value, found => by
    have here : r.has contract value.val = held.isSome := congrArg Option.isSome (found contract value rfl)
    simp only [perform, expected, Registry.unregister, here]
    cases held <;> rfl
  | lookup contract value, found => by
    simp only [perform, expected, Registry.lookup, found contract value rfl]
    cases held <;> rfl
  | has contract value, found => by
    simp only [perform, expected, Registry.has, found contract value rfl]

/-- **The step**: a call changes what is found under its own pair, in the way that its answer tells, and nothing else. -/
theorem find?_perform (fallback : α) (r : Registry α) (c : Call α) (contract : Contract) (value : Index) :
    (c.perform fallback r).registry.find? contract value.val =
      (c.leaves (contract.id, value) (c.perform fallback r).answer).getD (r.find? contract value.val) := by
  cases c with
  | register contract' value' entry replace =>
    simp only [perform]
    cases accepted : (r.register contract' value'.val entry replace).fault with
    | some f =>
      rw [Registry.register_of_refused accepted]
      rfl
    | none =>
      simp only [Registry.find?_register accepted, Registry.keyText_eq_iff_pair, Option.elim_none, leaves]
      split <;> rfl
  | unregister contract' value' =>
    simp only [perform]
    cases removed : r.unregister contract' value'.val with
    | none => rfl
    | some change =>
      simp only [Registry.find?_unregister removed, Registry.keyText_eq_iff_pair, leaves]
      split <;> rfl
  | lookup contract' value' => rfl
  | has contract' value' => rfl

/-- Only a call's own pair can be changed by it. -/
theorem leaves_of_other {c : Call α} {pair : String × Index} (other : pair ≠ c.pair) (answer : Answer α) :
    c.leaves pair answer = none := by
  unfold leaves
  split
  · exact if_neg fun same => other same.symm
  · exact if_neg fun same => other same.symm
  · rfl

/-- A refused registration changes nothing and tells of nothing. -/
theorem perform_of_refused {fallback : α} {c : Call α} {f : Fault}
    (refused : (c.perform fallback r).answer = .refused f) :
    (c.perform fallback r).registry = r ∧ (c.perform fallback r).events = [] := by
  cases c with
  | register contract value entry replace =>
    simp only [perform] at refused ⊢
    cases accepted : (r.register contract value.val entry replace).fault with
    | some f => rw [Registry.register_of_refused accepted]; exact ⟨rfl, rfl⟩
    | none => rw [accepted] at refused; cases refused
  | unregister contract value =>
    simp only [perform] at refused
    split at refused <;> cases refused
  | lookup contract value => cases refused
  | has contract value => cases refused

end Call
end

/-! ## A run of calls -/

namespace Session

variable {α : Type} {s : Session α}

theorem held_call (fallback : α) (s : Session α) (c : Call α) (pair : String × Index) :
    (s.call fallback c).held pair =
      (c.leaves pair (c.perform fallback s.registry).answer).getD (s.held pair) := by
  simp only [held, call, List.reverse_append, List.reverse_singleton, List.singleton_append, List.findSome?_cons]
  cases c.leaves pair (c.perform fallback s.registry).answer <;> rfl

theorem Tracks.call (h : s.Tracks) (fallback : α) (c : Call α) : (s.call fallback c).Tracks := by
  intro contract value
  rw [held_call, ← h contract value]
  exact c.find?_perform fallback s.registry contract value

theorem tracks_after (fallback : α) (calls : List (Call α)) : (after fallback calls).Tracks := by
  have run (s : Session α) (h : s.Tracks) : (calls.foldl (Session.call fallback) s).Tracks := by
    induction calls generalizing s with
    | nil => exact h
    | cons c rest ih => exact ih _ (h.call fallback c)
  exact run {} fun _ _ => rfl

/-- **A table is a map on pairs.** After any calls on a new table the next one is answered from what the last successful
registration or removal under the same identity and the same number left there; where nothing is left, lookups give the
decoder of unknown bytes. Only registrations are refused, as conflicts, and then neither an entry nor a record changes.
No call has an effect on another pair. -/
theorem answers_as_map (calls : List (Call Decoder)) (c : Call Decoder) :
    let s := after (.layer .unknown) calls
    let next := s.call (.layer .unknown) c
    next.history = s.history ++ [(c, c.expected (.layer .unknown) (s.held c.pair))] ∧
    (∀ f, c.expected (.layer .unknown) (s.held c.pair) = .refused f →
      f.faultClass = .registryConflict ∧ next.registry = s.registry ∧ next.events = s.events) ∧
    ∀ (contract : Contract) (value : Index), (contract.id, value) ≠ c.pair →
      next.registry.has contract value.val = s.registry.has contract value.val ∧
      next.registry.lookup (.layer .unknown) contract value.val = s.registry.lookup (.layer .unknown) contract value.val := by
  intro s next
  have tracks : s.Tracks := tracks_after _ calls
  have answer : (c.perform (.layer .unknown) s.registry).answer = c.expected (.layer .unknown) (s.held c.pair) :=
    c.answer_perform _ _ fun contract value same => same ▸ tracks contract value
  refine ⟨by rw [← answer]; rfl, fun f refused => ?_, fun contract value other => ?_⟩
  · obtain ⟨registry, events⟩ := Call.perform_of_refused (answer.trans refused)
    refine ⟨?_, registry, (congrArg (s.events ++ ·) events).trans (List.append_nil _)⟩
    cases c with
    | register contract value entry replace =>
      simp only [Call.expected] at refused
      split at refused <;> cases refused
      rfl
    | unregister contract value => cases refused
    | lookup contract value => cases refused
    | has contract value => cases refused
  · have same : next.registry.find? contract value.val = s.registry.find? contract value.val := by
      refine (c.find?_perform _ s.registry contract value).trans ?_
      rw [Call.leaves_of_other other]
      rfl
    simp only [Registry.has, Registry.lookup, same, and_self]

end Session
end PacketStack
