/-
What happens to a table of decoders and while it is used, as records with a time.

An event says what happened; `stamp` turns a run of events into records, each of which reads the clock once.
-/
import PacketStack.Fault
import PacketStack.Number.Rounding

namespace PacketStack

inductive Event
  | registered (contract : Contract) (value : Number)
  | unregistered (contract : Contract) (value : Number)
  /-- No decoder was found, so the bytes count as unknown. -/
  | fallback (contract : Contract) (value : Number)
  /-- The bytes of a nested layer could not be decoded and were kept. -/
  | malformedLayer (contract : Contract) (value : Number) (raw : Bytes) (fault : Fault)
  deriving DecidableEq

namespace Event

def code : Event → String
  | registered .. => "decoder-registered"
  | unregistered .. => "decoder-unregistered"
  | fallback .. => "decoder-fallback"
  | malformedLayer .. => "malformed-layer"

def level : Event → String
  | malformedLayer .. => "warn"
  | _ => "debug"

def entryText (contract : Contract) (value : Number) : String := contract.id ++ " " ++ contract.describe value

def message : Event → String
  | registered c v => s!"Registered decoder for {entryText c v}"
  | unregistered c v => s!"Removed decoder for {entryText c v}"
  | fallback c v => s!"No decoder for {entryText c v}; treating as unknown payload"
  | malformedLayer c v raw f => s!"Kept {raw.length} undecodable byte(s) for {entryText c v}: {f.message}"

end Event

/-- What comes with the message about bytes that were kept: the entry that they were for, the bytes in hexadecimal, and
what was wrong with them. -/
structure Detail where
  contract : String
  value : Number
  data : String
  fault : Fault
  deriving DecidableEq

def Event.detail? : Event → Option Detail
  | malformedLayer c v raw f => some ⟨c.id, v, Bytes.spaced raw, f⟩
  | _ => none

/-- An event at a time; the time is missing where no clock was given. -/
structure Record where
  time : Option Number
  event : Event
  deriving DecidableEq

/-- Shows `now`, and `step` more each time it is read. -/
structure Clock where
  now : Number
  step : Number
  deriving DecidableEq

namespace Clock

def tick (c : Clock) : Clock := { c with now := c.now + c.step }

end Clock

/-- The records of a run of events, and the clock after the last of them. -/
def stamp : Option Clock → List Event → List Record × Option Clock
  | clock, [] => ([], clock)
  | clock, event :: events =>
    let (records, last) := stamp (clock.map Clock.tick) events
    (⟨clock.map Clock.now, event⟩ :: records, last)

end PacketStack
