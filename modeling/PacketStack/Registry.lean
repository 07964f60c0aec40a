/-
A table of entries under numbering spaces and numbers.

An entry is found by the text of its key, the contract's identity, a colon and the number. `values` reads the
numbers back from the keys that begin with the identity and the colon.

What an operation does to the table is a `Change`: the table afterwards, the fault if it was refused, and the
events. A refused change leaves the table as it was.
-/
import PacketStack.Diagnostics

namespace PacketStack

structure Registry (α : Type) where
  entries : List (String × α) := []

namespace Registry

variable {α β : Type}

/-- Replaces the entry of a key where it stands, or adds it at the end. -/
def put (key : String) (entry : α) : List (String × α) → List (String × α)
  | [] => [(key, entry)]
  | (k, e) :: rest => if k = key then (key, entry) :: rest else (k, e) :: put key entry rest

def drop (key : String) (entries : List (String × α)) : List (String × α) := entries.filter (·.1 ≠ key)

theorem lookup_put (key k : String) (entry : α) (entries : List (String × α)) :
    (put key entry entries).lookup k = if k = key then some entry else entries.lookup k := by
  induction entries with
  | nil => grind [put]
  | cons p rest ih => unfold put; split <;> grind

theorem lookup_drop (key k : String) (entries : List (String × α)) :
    (drop key entries).lookup k = if k = key then none else entries.lookup k := by
  induction entries with
  | nil => simp [drop]
  | cons p rest ih => unfold drop at ih ⊢; grind

def keyText (contract : Contract) (value : Number) : String := contract.id ++ ":" ++ value.text

def find? (r : Registry α) (contract : Contract) (value : Number) : Option α :=
  r.entries.lookup (keyText contract value)

def has (r : Registry α) (contract : Contract) (value : Number) : Bool := (r.find? contract value).isSome

/-- The numbers under a contract, in ascending order. -/
def values (r : Registry α) (contract : Contract) : List Number :=
  let front := (contract.id ++ ":").toList
  Number.ascending (r.entries.filterMap fun (key, _) => (front.isPrefixOf? key.toList).map Number.read)

/-- The same table with other entries. -/
def map (f : α → β) (r : Registry α) : Registry β := ⟨r.entries.map fun (key, e) => (key, f e)⟩

structure Change (α : Type) where
  registry : Registry α
  fault : Option Fault := none
  events : List Event := []

/-- Adds an entry. A number that has one already is refused unless `replace` is given. -/
def register (r : Registry α) (contract : Contract) (value : Number) (entry : α) (replace : Bool) : Change α :=
  if r.has contract value && !replace then { registry := r, fault := some (.registered contract value) }
  else
    { registry := ⟨put (keyText contract value) entry r.entries⟩
      events := [.registered contract value] }

/-- Removes an entry, if there is one. -/
def unregister (r : Registry α) (contract : Contract) (value : Number) : Option (Change α) :=
  if r.has contract value then
    some {
      registry := ⟨drop (keyText contract value) r.entries⟩
      events := [.unregistered contract value] }
  else none

/-- Adds entries in order until one is refused; those before it stay. -/
def registerAll (r : Registry α) : List (Contract × Number × α) → Change α
  | [] => { registry := r }
  | (contract, value, entry) :: rest =>
    let first := r.register contract value entry false
    if first.fault.isSome then first
    else
      let others := first.registry.registerAll rest
      { others with events := first.events ++ others.events }

end Registry
end PacketStack
