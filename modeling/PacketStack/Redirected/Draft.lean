/-
The slots of a redirected header option that is still to be built. The reserved bytes are checked before the
embedded packet is built, the length after it.
-/
import PacketStack.Correction
import PacketStack.Redirected.Header

namespace PacketStack.Redirected

structure Draft where
  length : Number := 0
  reserved : Option Bytes := none
  policy : CorrectionPolicy := .supporting [.length]
  deriving DecidableEq

namespace Draft

/-- The length to write: derived from the embedded packet if that is asked for. -/
def lengthFor (d : Draft) (embeddedLength : Nat) (embedded : Bytes) : Except Fault Number :=
  if d.policy.corrects .length then
    let total := fixedSize + embeddedLength
    if total % unit ≠ 0 then .error (.redirectedUnit total embedded)
    else if 0xff < total / unit then .error (.redirectedOverflow total)
    else .ok (total / unit : Nat)
  else .ok d.length

def reservedBlock (d : Draft) : Except Fault (Block 6) := Field.block "reserved" 6 d.reserved

def header (d : Draft) (reserved : Block 6) (embeddedLength : Nat) (embedded : Bytes) : Except Fault Header := do
  let length ← d.lengthFor embeddedLength embedded
  return { length := ← Field.word "length" 8 length, reserved }

end Draft

/-- The draft that is built into this header again. -/
def Header.draft (h : Header) : Draft where
  length := h.length.toNat
  reserved := some h.reserved.bytes

end PacketStack.Redirected
