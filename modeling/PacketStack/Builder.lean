/-
Chains of drafts, and how they are built.

Building goes from the outside in and back: `Draft.prepare` checks what has to hold before the payload is built
and gives the rest of the work, which needs the built payload. A draft that may go without a payload is
finished by `Draft.alone`.

`Packet.toBuilder` goes the other way. No correction is on in the drafts it makes, so that a chain is built
again as it was, whatever its lengths say.
-/
import PacketStack.Ipv6.Draft
import PacketStack.Udp.Draft
import PacketStack.Redirected.Draft
import PacketStack.Ssh.Draft
import PacketStack.Packet

namespace PacketStack

inductive Draft
  | ipv6 (d : Ipv6.Draft)
  | udp (d : Udp.Draft)
  | redirected (d : Redirected.Draft)
  | ssh (d : Ssh.Draft)
  deriving DecidableEq

namespace Draft

def kind : Draft → Kind
  | ipv6 _ => .ipv6
  | udp _ => .udp
  | redirected _ => .redirected
  | ssh _ => .ssh

def policy : Draft → CorrectionPolicy
  | ipv6 d => d.policy
  | udp d => d.policy
  | redirected d => d.policy
  | ssh d => d.policy

def withPolicy (p : CorrectionPolicy) : Draft → Draft
  | ipv6 d => ipv6 { d with policy := p }
  | udp d => udp { d with policy := p }
  | redirected d => redirected { d with policy := p }
  | ssh d => ssh { d with policy := p }

/-- Turns a correction on or off. -/
def correct (d : Draft) (c : Correction) (on : Bool) : Except Fault Draft :=
  (d.policy.set c on).map d.withPolicy

/-- The checks before the payload is built, and the frame that the built payload makes of the draft. -/
def prepare : Draft → Except Fault (Packet → Except Fault Frame)
  | ipv6 d => .ok fun payload => do
    return .datagram (.ipv6 (← d.header payload.byteLength) d.trailer)
  | udp d => .ok fun payload => do
    return .datagram (.udp (← d.header payload.byteLength payload.serialize) d.trailer)
  | redirected d => do
    let reserved ← d.reservedBlock
    return fun payload => do return .redirected (← d.header reserved payload.byteLength payload.serialize)
  | ssh d => do
    let mac ← Field.required "mac" d.mac
    return fun payload => do
      let (header, padding) ← d.header payload.byteLength
      return .ssh header padding mac

/-- What the draft is without a payload. -/
def alone : Draft → Except Fault Datagram
  | ipv6 d => return .ipv6 (← d.header 0) d.trailer
  | udp d => return .udp (← d.header 0 []) d.trailer
  | redirected _ => .error .redirectedPayloadMissing
  | ssh _ => .error .sshDraftPayloadMissing

end Draft

inductive Builder
  | leaf (l : Leaf)
  | bare (d : Draft)
  | carrying (d : Draft) (payload : Builder)
  deriving DecidableEq

namespace Builder

def kind : Builder → Kind
  | leaf l => l.kind
  | bare d => d.kind
  | carrying d _ => d.kind

/-- A leaf has nothing to correct. -/
def policy : Builder → CorrectionPolicy
  | leaf _ => {}
  | bare d => d.policy
  | carrying d _ => d.policy

/-- The builder and the builders below it, the outermost first. -/
def layers : Builder → List Builder
  | leaf l => [leaf l]
  | bare d => [bare d]
  | carrying d payload => carrying d payload :: payload.layers

def build : Builder → Except Fault Packet
  | leaf l => .ok (.leaf l)
  | bare d => return .bare (← d.alone)
  | carrying d payload => do
    let close ← d.prepare
    let built ← payload.build
    return .carrying (← close built) built

/-- Turns off every correction in the chain. -/
def disableCorrections : Builder → Builder
  | leaf l => leaf l
  | bare d => bare (d.withPolicy d.policy.disable)
  | carrying d payload => carrying (d.withPolicy d.policy.disable) payload.disableCorrections

/-- Makes an unknown layer with the same bytes of a malformed layer that another layer carries. -/
def replaceMalformed : Builder → Builder
  | carrying d (leaf l) => carrying d (leaf (.unknown l.raw))
  | carrying d payload => carrying d payload.replaceMalformed
  | b => b

end Builder

def Datagram.draft : Datagram → Draft
  | ipv6 h trailer => .ipv6 (h.draft trailer)
  | udp h trailer => .udp (h.draft trailer)

def Frame.draft : Frame → Draft
  | datagram d => d.draft
  | redirected h => .redirected h.draft
  | ssh h padding mac => .ssh (h.draft padding mac)

namespace Packet

def toBuilder : Packet → Builder
  | leaf l => .leaf l
  | bare d => .bare d.draft
  | carrying f payload => .carrying f.draft payload.toBuilder

/-- Whether a layer below the outermost one is malformed. -/
def hidesMalformed (p : Packet) : Bool := !p.isMalformed && p.containsMalformed

/--
Rebuilds a chain that holds a malformed layer below its outermost one so that nothing in it is ever
corrected: the malformed layer becomes an unknown one. Any other chain comes back as it is.
-/
def quarantine (p : Packet) : Except Fault Packet :=
  if p.hidesMalformed then p.toBuilder.replaceMalformed.disableCorrections.build else .ok p

end Packet
end PacketStack
