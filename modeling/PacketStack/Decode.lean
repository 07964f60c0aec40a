/-
Decoding through a table of decoders.

A layer hands its inner bytes off to the decoder that the table has for them. A fault of the packet hierarchy
that comes back from there is contained: the bytes are kept as a malformed layer, and an event tells of it.
Any other fault passes through. What is missing from the table is decoded as unknown.

A decoder may redirect to another entry of the table. `route` follows redirections to the decoder at their
end before anything is decoded; there are at most as many as the table has entries, unless they lead back
into themselves.
-/
import PacketStack.Builder
import PacketStack.Layer
import PacketStack.Registry

namespace PacketStack

/-- A decoder that does its own work. -/
inductive Handler
  | layer (l : Layer)
  /-- A caller's own. It answers from the bytes alone: it is not given the table or whatever else decoding goes by, tells
  of nothing, and does not change from one call to the next. One that decodes nested bytes itself is no such decoder. -/
  | custom (decode : Bytes → Except Fault Packet)

namespace Handler

/-- Answers the same for any bytes. -/
def answer (result : Except Fault Packet) : Handler := custom fun _ => result

/-- Keeps the bytes as a malformed layer without a cause. -/
def sentinel : Handler := custom fun raw => .ok (.malformed raw none)

end Handler

inductive Decoder
  | handler (h : Handler)
  /-- Decodes the bytes after the first `skip` as nested under another entry. -/
  | redirect (contract : Contract) (skip : Nat) (value : Number)

def Decoder.layer (l : Layer) : Decoder := .handler (.layer l)

/-- What decoding gives, and what happened meanwhile. -/
structure Outcome where
  result : Except Fault Packet
  events : List Event := []

/-- Puts a decoded payload into its frame. What a redirected header option embeds is quarantined first. -/
def Frame.enclose (f : Frame) (payload : Packet) : Except Fault Packet :=
  match f with
  | redirected _ => payload.quarantine.map (.carrying f)
  | _ => .ok (.carrying f payload)

/-- Where the decoder of nested bytes was found. -/
structure Route where
  handler : Handler
  /-- Bytes to leave out in front. -/
  skip : Nat
  contract : Contract
  value : Number
  /-- Whether the table has no entry here. -/
  missing : Bool

namespace Route

/-- The bytes that are left for the decoder. -/
def inner (route : Route) (raw : Bytes) : Bytes := raw.drop route.skip

/-- Keeps the bytes as a malformed layer if they could not be decoded. -/
def contain (route : Route) (raw : Bytes) (o : Outcome) : Outcome :=
  let found := if route.missing then [Event.fallback route.contract route.value] else []
  match o.result with
  | .error f =>
    if f.ofPacket then
      { result := .ok (.malformed raw (some f))
        events := found ++ o.events ++ [.malformedLayer route.contract route.value raw f] }
    else { o with events := found ++ o.events }
  | .ok _ => { o with events := found ++ o.events }

end Route

namespace Registry

/-- Follows at most `hops` entries, after `skip` bytes have been left out. -/
def routeFrom (r : Registry Decoder) : Nat → Contract → Number → Nat → Option Route
  | 0, _, _, _ => none
  | hops + 1, contract, value, skip =>
    match r.find? contract value with
    | none => some { handler := .layer .unknown, skip, contract, value, missing := true }
    | some (.handler handler) => some { handler, skip, contract, value, missing := false }
    | some (.redirect contract' skip' value') => r.routeFrom hops contract' value' (skip + skip')

/-- The decoder of nested bytes, unless redirections lead back into themselves. -/
def route (r : Registry Decoder) (contract : Contract) (value : Number) : Option Route :=
  r.routeFrom (r.entries.length + 1) contract value 0

end Registry

/-- Each handoff leaves fewer bytes to decode. -/
def Handler.decode (r : Registry Decoder) (handler : Handler) (raw : Bytes) : Outcome :=
  match handler with
  | .custom decode => { result := decode raw }
  | .layer l =>
    match _h : l.dissect raw with
    | .error f => { result := .error f }
    | .ok (.complete p) => { result := .ok p }
    | .ok (.handoff frame contract value inner) =>
      match r.route contract value with
      | none => { result := .error .endless }
      | some route =>
        let o := route.contain (route.inner inner) (Handler.decode r route.handler (route.inner inner))
        { o with result := o.result.bind frame.enclose }
termination_by raw.length
decreasing_by
  have := (Layer.dissect_handoff ‹_›).2
  simp only [Route.inner, List.length_drop]
  omega

namespace Registry

/-- Decodes a layer nested inside another. -/
def decodeNested (r : Registry Decoder) (contract : Contract) (raw : Bytes) (value : Number) : Outcome :=
  match r.route contract value with
  | none => { result := .error .endless }
  | some route => route.contain (route.inner raw) (route.handler.decode r (route.inner raw))

end Registry

/-- Runs a decoder with the table as its context. -/
def Decoder.decode (r : Registry Decoder) (d : Decoder) (raw : Bytes) : Outcome :=
  match d with
  | .handler h => h.decode r raw
  | .redirect contract skip value => r.decodeNested contract (raw.drop skip) value

namespace Registry

/-- The entry, or the fallback for numbers without one. -/
def lookup {α : Type} (r : Registry α) (fallback : α) (contract : Contract) (value : Number) : α × List Event :=
  match r.find? contract value with
  | some entry => (entry, [])
  | none => (fallback, [.fallback contract value])

/-- Decodes an outermost layer, whose faults reach the caller. -/
def decode (r : Registry Decoder) (contract : Contract) (raw : Bytes) (value : Number) : Outcome :=
  let (d, events) := r.lookup (.layer .unknown) contract value
  let o := d.decode r raw
  { o with events := events ++ o.events }

/-- Where a layer is found by itself: IPv6, UDP and the redirected header option have a number of their own. -/
def installable : Layer → Option (Contract × Number)
  | .ipv6 => some (.etherType, Contract.ipv6EtherType)
  | .udp => some (.ipNumber, Contract.udpNumber)
  | .redirected => some (.ndOptionType, Contract.redirectedType)
  | _ => none

def builtInEntries {α : Type} (entry : Layer → α) : List (Contract × Number × α) :=
  [Layer.ipv6, .udp, .redirected].filterMap fun l =>
    (installable l).map fun (contract, value) => (contract, value, entry l)

/-- Installs every layer that has a number of its own. -/
def install {α : Type} (r : Registry α) (entry : Layer → α) : Change α := r.registerAll (builtInEntries entry)

/-- The table that is used when none is given. -/
def builtIn : Registry Decoder := (({} : Registry Decoder).install Decoder.layer).registry

end Registry

/-- Decodes a layer with the table as its context. -/
def Layer.decode (r : Registry Decoder) (l : Layer) (raw : Bytes) : Outcome := (Handler.layer l).decode r raw

/-- Decodes an outermost layer with the table that is used when none is given. -/
def decodePacket (contract : Contract) (raw : Bytes) (value : Number) : Except Fault Packet :=
  (Registry.builtIn.decode contract raw value).result

end PacketStack
