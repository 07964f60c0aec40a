/-
The slots of an SSH binary packet that is still to be built.

Padding computed at build time is as many zero bytes as the payload exceeds a multiple of the cipher's
block; the block is never less than eight bytes.
-/
import PacketStack.Correction
import PacketStack.Ssh.Header

namespace PacketStack.Ssh

structure Draft where
  packetLength : Number := 0
  paddingLength : Number := 0
  padding : Option Bytes := none
  mac : Option Bytes := none
  cipherBlockSize : Number := 0
  /-- Whether the padding is computed. -/
  paddingAtBuild : Bool := false
  policy : CorrectionPolicy := .supporting [.length]
  deriving DecidableEq

namespace Draft

def paddingFor (d : Draft) (payloadLength : Nat) : Except Fault Bytes :=
  if d.paddingAtBuild then do
    let size ← Field.unsigned "cipherBlockSize" maxLength d.cipherBlockSize
    return Bytes.zeros (payloadLength % max size blockMinimum)
  else
    match d.padding with
    | some padding => .ok padding
    | none => .error .sshPaddingMissing

/-- Both lengths to write: derived from payload and padding if that is asked for. -/
def lengthsFor (d : Draft) (payloadLength paddingLength : Nat) : Except Fault Fields :=
  if d.policy.corrects .length then
    if 0xff < paddingLength then .error (.sshPaddingOverflow paddingLength)
    else .ok ⟨(1 + payloadLength + paddingLength : Nat), paddingLength⟩
  else .ok ⟨d.packetLength, d.paddingLength⟩

/-- The header and the padding. -/
def header (d : Draft) (payloadLength : Nat) : Except Fault (Header × Bytes) := do
  let padding ← d.paddingFor payloadLength
  let lengths ← d.lengthsFor payloadLength padding.length
  match lengths.packetLength.word? 31 with
  | none => .error (.sshLengthOutside lengths.packetLength)
  | some packetLength =>
    return ({ packetLength, paddingLength := ← Field.word "paddingLength" 8 lengths.paddingLength }, padding)

end Draft

/-- The draft that is built into this header, padding and authentication code again. -/
def Header.draft (h : Header) (padding mac : Bytes) : Draft where
  packetLength := h.packetLength.toNat
  paddingLength := h.paddingLength.toNat
  padding := some padding
  mac := some mac

end PacketStack.Ssh
