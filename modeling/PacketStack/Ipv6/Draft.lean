/-
The slots of an IPv6 layer that is still to be built. Every slot may hold anything; `header` says what the
slots have to hold, in the order in which they stand on the wire, once the payload's length is known.
-/
import PacketStack.Correction
import PacketStack.Ipv6.Header

namespace PacketStack.Ipv6

structure Draft where
  version : Number := Ipv6.version
  trafficClass : Number := 0
  flowLabel : Number := 0
  payloadLength : Number := 0
  nextHeader : Number := Contract.noNextHeader
  hopLimit : Number := 64
  source : Option Bytes := none
  destination : Option Bytes := none
  /-- Bytes behind the payload, which the payload length does not count. -/
  trailer : Bytes := []
  policy : CorrectionPolicy := .supporting [.length]
  deriving DecidableEq

namespace Draft

/-- The payload length to write: derived from the payload if that is asked for. -/
def lengthFor (d : Draft) (payloadLength : Nat) : Except Fault Number :=
  if d.policy.corrects .length then
    if 0xffff < payloadLength then .error (.ipv6Overflow payloadLength) else .ok payloadLength
  else .ok d.payloadLength

def header (d : Draft) (payloadLength : Nat) : Except Fault Header := do
  let length ← d.lengthFor payloadLength
  return {
    version := ← Field.word "version" 4 d.version
    trafficClass := ← Field.word "trafficClass" 8 d.trafficClass
    flowLabel := ← Field.word "flowLabel" 20 d.flowLabel
    payloadLength := ← Field.word "payloadLength" 16 length
    nextHeader := ← Field.word "nextHeader" 8 d.nextHeader
    hopLimit := ← Field.word "hopLimit" 8 d.hopLimit
    source := ← Field.block "srcAddr" addressSize d.source
    destination := ← Field.block "dstAddr" addressSize d.destination }

end Draft

/-- The draft that is built into this header and trailer again. -/
def Header.draft (h : Header) (trailer : Bytes) : Draft where
  version := h.version.toNat
  trafficClass := h.trafficClass.toNat
  flowLabel := h.flowLabel.toNat
  payloadLength := h.payloadLength.toNat
  nextHeader := h.nextHeader.toNat
  hopLimit := h.hopLimit.toNat
  source := some h.source.bytes
  destination := some h.destination.bytes
  trailer := trailer

end PacketStack.Ipv6
