/-
Builders that are held by handle, so that one builder can be the payload of several others and a later change
to it shows in all of them.

A builder carries at most one payload, so what hangs below a handle is a chain; `chain` follows it. A chain
may lead back into itself. Such a chain has no end to build from: building it fails as endless, after the
checks that come before the payload.
-/
import PacketStack.Builder

namespace PacketStack

abbrev Handle := Nat

inductive Station
  | leaf (l : Leaf)
  | draft (d : Draft) (payload : Option Handle)
  deriving DecidableEq

namespace Station

def kind : Station → Kind
  | leaf l => l.kind
  | draft d _ => d.kind

def isMalformed : Station → Bool
  | leaf l => l.isMalformed
  | draft .. => false

/-- A leaf has nothing to correct. -/
def policy : Station → CorrectionPolicy
  | leaf _ => {}
  | draft d _ => d.policy

def payload? : Station → Option Handle
  | leaf _ => none
  | draft _ payload => payload

/-- Puts a payload in or takes it out. A leaf only goes without. -/
def carry (payload : Option Handle) : Station → Except Fault Station
  | leaf l => if payload.isSome then .error (.leafPayload l.isMalformed) else .ok (leaf l)
  | draft d _ => .ok (draft d payload)

/-- Turns a correction on or off. -/
def correct (c : Correction) (on : Bool) : Station → Except Fault Station
  | leaf l => (({} : CorrectionPolicy).set c on).map fun _ => leaf l
  | draft d payload => (d.correct c on).map (draft · payload)

def disableCorrections : Station → Station
  | leaf l => leaf l
  | draft d payload => draft (d.withPolicy d.policy.disable) payload

end Station

/-- A handle is the place of its station. -/
structure Workbench where
  stations : List Station := []
  deriving DecidableEq

namespace Workbench

def get? (w : Workbench) (h : Handle) : Option Station := w.stations[h]?

/-- Adds a station, whose handle is new. -/
def add (w : Workbench) (s : Station) : Handle × Workbench := (w.stations.length, ⟨w.stations ++ [s]⟩)

def set (w : Workbench) (h : Handle) (s : Station) : Workbench := ⟨w.stations.set h s⟩

/-- Adds a whole builder, from its innermost layer on. -/
def place (w : Workbench) : Builder → Handle × Workbench
  | .leaf l => w.add (.leaf l)
  | .bare d => w.add (.draft d none)
  | .carrying d payload =>
    let (inner, w) := w.place payload
    w.add (.draft d inner)

/-- Follows a handle through at most `steps` stations. -/
def chainFrom (w : Workbench) : Nat → Handle → List Handle
  | 0, _ => []
  | steps + 1, h =>
    match w.get? h with
    | none => []
    | some s => h :: (s.payload?.elim [] (w.chainFrom steps))

/-- The handles from one on down, each once. -/
def chain (w : Workbench) (h : Handle) : List Handle := (w.chainFrom w.stations.length h).eraseDups

/--
Builds in at most `steps` stations. A chain with more stations than there are leads back into itself; a handle
without a station counts as such a chain too.
-/
def buildFrom (w : Workbench) : Nat → Handle → Except Fault Packet
  | 0, _ => .error .endless
  | steps + 1, h =>
    match w.get? h with
    | none => .error .endless
    | some (.leaf l) => .ok (.leaf l)
    | some (.draft d none) => return .bare (← d.alone)
    | some (.draft d (some payload)) => do
      let close ← d.prepare
      let built ← w.buildFrom steps payload
      return .carrying (← close built) built

def build (w : Workbench) (h : Handle) : Except Fault Packet := w.buildFrom (w.stations.length + 1) h

/-- Turns off every correction from a handle on down. -/
def disableCorrections (w : Workbench) (h : Handle) : Workbench :=
  (w.chain h).foldl (fun w h => (w.get? h).elim w fun s => w.set h s.disableCorrections) w

/-- What a walk from the outside in meets: each station, and the one that carries it. -/
def walk (w : Workbench) (h : Handle) : List (Station × Option Station) :=
  let met := (w.chain h).filterMap w.get?
  met.zip (none :: met.map some)

end Workbench
end PacketStack
