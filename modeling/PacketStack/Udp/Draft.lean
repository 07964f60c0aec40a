/-
The slots of a UDP layer that is still to be built. The addresses are those of the layer around it and are
only looked at to derive the checksum.
-/
import PacketStack.Correction
import PacketStack.Udp.Header

namespace PacketStack.Udp

structure Draft where
  sourcePort : Number := 0
  destinationPort : Number := 0
  length : Number := 0
  checksum : Number := 0
  source : Option Bytes := none
  destination : Option Bytes := none
  /-- Bytes behind the datagram, which neither the length nor the checksum covers. -/
  trailer : Bytes := []
  policy : CorrectionPolicy := .supporting [.length, .checksum]
  deriving DecidableEq

namespace Draft

/-- The length to write: derived from the payload if that is asked for. -/
def lengthFor (d : Draft) (payloadLength : Nat) : Except Fault Number :=
  if d.policy.corrects .length then
    let length := headerSize + payloadLength
    if 0xffff < length then .error (.udpOverflow length) else .ok length
  else .ok d.length

/-- Both addresses, which have to be there before either is measured. -/
def addresses (d : Draft) : Except Fault (Block 16 × Block 16) :=
  if d.source.isNone || d.destination.isNone then .error .udpAddressesMissing
  else return (← Field.block "srcAddr" 16 d.source, ← Field.block "dstAddr" 16 d.destination)

/-- The header with every slot as it was set, except that the length may be derived. -/
def plainHeader (d : Draft) (payloadLength : Nat) : Except Fault Header := do
  let length ← d.lengthFor payloadLength
  return {
    sourcePort := ← Field.word "srcPort" 16 d.sourcePort
    destinationPort := ← Field.word "dstPort" 16 d.destinationPort
    length := ← Field.word "length" 16 length
    checksum := ← Field.word "checksum" 16 d.checksum }

def header (d : Draft) (payloadLength : Nat) (payload : Bytes) : Except Fault Header := do
  let plain ← d.plainHeader payloadLength
  if d.policy.corrects .checksum then
    let (source, destination) ← d.addresses
    let blank : Fields := { plain.fields with checksum := 0 }
    return { plain with checksum := Udp.checksum source.bytes destination.bytes blank payload }
  else return plain

end Draft

/-- The draft that is built into this header and trailer again. -/
def Header.draft (h : Header) (trailer : Bytes) : Draft where
  sourcePort := h.sourcePort.toNat
  destinationPort := h.destinationPort.toNat
  length := h.length.toNat
  checksum := h.checksum.toNat
  trailer := trailer

end PacketStack.Udp
