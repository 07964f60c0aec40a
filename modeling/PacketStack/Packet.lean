/-
Chains of layers.

A chain is frames around a core. The core is a leaf, whose bytes have no structure, or a datagram without a
payload; a frame is a datagram, a redirected header option or an SSH binary packet with exactly one layer
inside. Headers hold only values that fit the wire, so every chain can be built again.

Length, bytes, text and hash of a chain are those of its layout.
-/
import PacketStack.Ipv6.Header
import PacketStack.Udp.Header
import PacketStack.Redirected.Header
import PacketStack.Ssh.Header

namespace PacketStack

inductive Kind
  | ipv6
  | udp
  | redirected
  | ssh
  | unknown
  | malformed
  deriving DecidableEq

namespace Kind

def all : List Kind := [ipv6, udp, redirected, ssh, unknown, malformed]

def name : Kind → String
  | ipv6 => "ipv6"
  | udp => "udp"
  | redirected => "nd-redirected-header"
  | ssh => "ssh2-binary-packet"
  | unknown => "unknown"
  | malformed => "malformed"

end Kind

/-- A layer whose bytes are not looked into. -/
inductive Leaf
  /-- Bytes that no decoder claimed. -/
  | unknown (raw : Bytes)
  /-- Bytes that a decoder claimed and could not decode. -/
  | malformed (raw : Bytes) (cause : Option Fault)
  deriving DecidableEq

namespace Leaf

def raw : Leaf → Bytes
  | unknown raw => raw
  | malformed raw _ => raw

def kind : Leaf → Kind
  | unknown _ => .unknown
  | malformed _ _ => .malformed

def isMalformed : Leaf → Bool
  | unknown _ => false
  | malformed _ _ => true

def causeLine : Option Fault → String
  | none => ""
  | some f => "\n  cause: " ++ f.report.line

def text : Leaf → String
  | unknown raw => s!"[Unknown Packet ({raw.length} bytes)]\n  data: {raw.describe}"
  | malformed raw cause => s!"[Malformed Packet ({raw.length} bytes)]\n  data: {raw.describe}{causeLine cause}"

def layout (l : Leaf) : Layout := .leaf l.raw l.text l.isMalformed

end Leaf

/-- A layer that may go without a payload. Its trailer is what follows the part its length covers. -/
inductive Datagram
  | ipv6 (header : Ipv6.Header) (trailer : Bytes)
  | udp (header : Udp.Header) (trailer : Bytes)
  deriving DecidableEq

namespace Datagram

def kind : Datagram → Kind
  | ipv6 .. => .ipv6
  | udp .. => .udp

def heading : Datagram → Heading
  | ipv6 h _ => h.fields.heading
  | udp h _ => h.fields.heading

def trailer : Datagram → Bytes
  | ipv6 _ trailer => trailer
  | udp _ trailer => trailer

def trailerText (trailer : Bytes) : Option String :=
  if trailer.isEmpty then none else some ("  Trailer: " ++ Bytes.describe trailer)

def surround (d : Datagram) : Surround where
  heading := d.heading
  trailing := [d.trailer]
  trailer := trailerText d.trailer

end Datagram

/-- A layer around a payload. -/
inductive Frame
  | datagram (d : Datagram)
  | redirected (header : Redirected.Header)
  | ssh (header : Ssh.Header) (padding mac : Bytes)
  deriving DecidableEq

namespace Frame

def kind : Frame → Kind
  | datagram d => d.kind
  | redirected _ => .redirected
  | ssh .. => .ssh

def surround : Frame → Surround
  | datagram d => d.surround
  | redirected h => { heading := h.fields.heading }
  | ssh h padding mac =>
    { heading := h.fields.heading
      trailing := [padding, mac]
      trailer := s!"  random padding: {padding.describe}\n  mac: {mac.describe}" }

end Frame

inductive Packet
  | leaf (l : Leaf)
  | bare (d : Datagram)
  | carrying (f : Frame) (payload : Packet)
  deriving DecidableEq

namespace Packet

def unknown (raw : Bytes) : Packet := leaf (.unknown raw)

def malformed (raw : Bytes) (cause : Option Fault) : Packet := leaf (.malformed raw cause)

def kind : Packet → Kind
  | leaf l => l.kind
  | bare d => d.kind
  | carrying f _ => f.kind

def payload? : Packet → Option Packet
  | carrying _ payload => some payload
  | _ => none

/-- The packet and the payloads below it, the outermost first. -/
def layers : Packet → List Packet
  | leaf l => [leaf l]
  | bare d => [bare d]
  | carrying f payload => carrying f payload :: payload.layers

def layout : Packet → Layout
  | leaf l => l.layout
  | bare d => .bare d.surround
  | carrying f payload => .around f.surround payload.layout

def heading? : Packet → Option Heading
  | leaf _ => none
  | bare d => d.heading
  | carrying f _ => f.surround.heading

def byteLength (p : Packet) : Nat := p.layout.byteLength

def serialize (p : Packet) : Bytes := p.layout.serialize

def text (p : Packet) : String := p.layout.text

def hash (p : Packet) : UInt32 := p.layout.hash

/-- Whether the outermost layer is malformed. -/
def isMalformed (p : Packet) : Bool := p.layout.malformed

/-- Whether any layer is malformed. -/
def containsMalformed (p : Packet) : Bool := p.layout.containsMalformed

/-- The outermost layer of a kind. -/
def find? (p : Packet) (kind : Kind) : Option Packet := p.layers.find? (·.kind = kind)

/-- Packets are the same when their bytes are. -/
def sameBytes (p q : Packet) : Bool := p.serialize == q.serialize

theorem serialize_leaf (l : Leaf) : (leaf l).serialize = l.raw := Layout.serialize_leaf ..

theorem serialize_bare (d : Datagram) : (bare d).serialize = d.surround.front ++ d.surround.back :=
  Layout.serialize_bare d.surround

theorem serialize_carrying (f : Frame) (payload : Packet) :
    (carrying f payload).serialize = f.surround.front ++ (payload.serialize ++ f.surround.back) :=
  Layout.serialize_around f.surround payload.layout

end Packet
end PacketStack
