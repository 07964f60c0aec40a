/-
What can go wrong, by cause, with one place for the wording.

A fault belongs to a class. The classes of the packet hierarchy are the ones that a layer contains when they
come from a layer nested inside it; the two others pass through every layer. `raised` is a fault that a
caller's own decoder brings along, under any class and wording, with a report of what caused it.
-/
import PacketStack.Bytes.Basic
import PacketStack.Contract

namespace PacketStack

/-- The fields that a draft can derive when it is built. -/
inductive Correction
  | length
  | checksum
  deriving DecidableEq

def Correction.name : Correction → String
  | length => "length"
  | checksum => "checksum"

inductive FaultClass
  | packet
  | malformedInput
  | typeMismatch
  | inconsistentLength
  | invalidBuilderState
  | registryConflict
  | range
  | general
  deriving DecidableEq

namespace FaultClass

def all : List FaultClass :=
  [packet, malformedInput, typeMismatch, inconsistentLength, invalidBuilderState, registryConflict, range, general]

def name : FaultClass → String
  | packet => "PacketError"
  | malformedInput => "MalformedInputError"
  | typeMismatch => "TypeMismatchError"
  | inconsistentLength => "InconsistentLengthError"
  | invalidBuilderState => "InvalidBuilderStateError"
  | registryConflict => "RegistryConflictError"
  | range => "RangeError"
  | general => "Error"

/-- Whether the class is one of the packet hierarchy. -/
def ofPacket : FaultClass → Bool
  | range => false
  | general => false
  | _ => true

/-- The classes above a class, and itself. -/
def lineage (c : FaultClass) : List FaultClass :=
  ([general, packet, c].filter fun d => d != packet || c.ofPacket).eraseDups

end FaultClass

/-- A class and a wording. -/
structure Report where
  faultClass : FaultClass
  message : String
  deriving DecidableEq

inductive Fault
  -- reading bytes
  | negativeRead (count : Number)
  | negativeSkip (count : Number)
  | insufficient (needed remaining : Number)
  /-- The cursor stands at no byte. -/
  | betweenBytes
  /-- The bytes of a word end beyond the buffer. -/
  | wordOutside (size : Nat)
  -- headers and what they announce
  | ipv6HeaderShort (data : Bytes)
  | ipv6Version (version : Nat) (data : Bytes)
  | ipv6PayloadLength (announced available : Nat) (data : Bytes)
  | udpHeaderShort (data : Bytes)
  | udpLength (announced : Nat) (data : Bytes)
  | redirectedShort (data : Bytes)
  | redirectedType (type : Nat) (data : Bytes)
  | redirectedLength (announced : Nat) (data : Bytes)
  | sshHeaderShort (data : Bytes)
  | sshLengthAbove (length : Nat)
  | sshPayloadMissing (data : Bytes)
  | sshPaddingLength (padding length : Nat) (data : Bytes)
  | sshLength (length needed : Nat) (data : Bytes)
  | unknownEmpty
  -- slots of a draft
  | notUnsigned (field : String) (max value : Number)
  | bytesMissing (field : String)
  | bytesSize (field : String) (size : Number) (data : Bytes)
  | udpAddressesMissing
  | redirectedPayloadMissing
  | sshDraftPayloadMissing
  | sshPaddingMissing
  | leafPayload (malformed : Bool)
  | uncorrectable (correction : Correction)
  -- derived lengths
  | ipv6Overflow (length : Nat)
  | udpOverflow (length : Nat)
  | redirectedUnit (length : Nat) (embedded : Bytes)
  | redirectedOverflow (length : Nat)
  | sshPaddingOverflow (length : Nat)
  | sshLengthOutside (length : Number)
  -- the table of decoders
  | registered (contract : Contract) (value : Number)
  /-- A chain of decoders or builders that leads back into itself. -/
  | endless
  /-- A fault of a caller's own. -/
  | raised (report : Report) (cause : Option Report)
  deriving DecidableEq

namespace Fault

def faultClass : Fault → FaultClass
  | negativeRead .. | negativeSkip .. | insufficient .. | betweenBytes => .malformedInput
  | wordOutside .. => .range
  | ipv6HeaderShort .. | udpHeaderShort .. | redirectedShort .. | sshHeaderShort .. => .malformedInput
  | sshPayloadMissing .. | unknownEmpty => .malformedInput
  | ipv6Version .. | redirectedType .. => .typeMismatch
  | ipv6PayloadLength .. | udpLength .. | redirectedLength .. => .inconsistentLength
  | sshLengthAbove .. | sshPaddingLength .. | sshLength .. => .inconsistentLength
  | notUnsigned .. | bytesMissing .. | bytesSize .. => .invalidBuilderState
  | udpAddressesMissing | redirectedPayloadMissing | sshDraftPayloadMissing => .invalidBuilderState
  | sshPaddingMissing | leafPayload .. | uncorrectable .. => .invalidBuilderState
  | ipv6Overflow .. | udpOverflow .. | redirectedUnit .. | redirectedOverflow .. => .inconsistentLength
  | sshPaddingOverflow .. | sshLengthOutside .. => .inconsistentLength
  | registered .. => .registryConflict
  | endless => .range
  | raised report _ => report.faultClass

def message : Fault → String
  | negativeRead count => s!"Cannot read negative byte length ({count})"
  | negativeSkip count => s!"Cannot skip negative length ({count})"
  | insufficient needed remaining => s!"Insufficient data: need {needed} byte(s), have {remaining}"
  | betweenBytes => "Reader overflow while reading uint8"
  | wordOutside size => s!"Invalid DataView length {size}"
  | ipv6HeaderShort data =>
    s!"The data is too short to build an IPv6 header (40 bytes). data: {data.spaced}"
  | ipv6Version version data => s!"The version must be 6, got {version}. data: {data.spaced}"
  | ipv6PayloadLength announced available data =>
    s!"The payload length {announced} exceeds the {available} byte(s) after the IPv6 header. data: {data.spaced}"
  | udpHeaderShort data => s!"The data is too short to build a UDP header (8 bytes). data: {data.spaced}"
  | udpLength announced data =>
    s!"The UDP length {announced} must be between 8 and {data.length}. data: {data.spaced}"
  | redirectedShort data => s!"The raw data length must be at least 48, got {data.length}. data: {data.spaced}"
  | redirectedType type data =>
    let wanted := Contract.ndOptionType.describe Contract.redirectedType
    let got := Contract.ndOptionType.describe type
    s!"The type must be {wanted}, got {got}. data: {data.spaced}"
  | redirectedLength announced data =>
    s!"The raw data is too short to build this option: {announced} bytes are needed, got {data.length}. data: {data.spaced}"
  | sshHeaderShort data =>
    s!"The data is too short to build an SSH2 binary packet header (5 bytes). data: {data.spaced}"
  | sshLengthAbove length => s!"A packet length above 2147483647 is not supported, got {length}"
  | sshPayloadMissing data => s!"Payload is required for an SSH2 binary packet. data: {data.spaced}"
  | sshPaddingLength padding length data =>
    s!"The padding length {padding} does not fit in packet length {length}. data: {data.spaced}"
  | sshLength length needed data =>
    s!"The packet length {length} needs {needed} bytes, got {data.length}. data: {data.spaced}"
  | unknownEmpty => "An unknown payload needs at least one byte"
  | notUnsigned field max value => s!"{field} must be an integer between 0 and {max}, got {value}"
  | bytesMissing field => s!"{field} is required"
  | bytesSize field size data => s!"{field} must be {size} bytes, got {data.length}: {data.describe}"
  | udpAddressesMissing => "srcAddr and dstAddr are required to correct the UDP checksum"
  | redirectedPayloadMissing => "ipPacket is required"
  | sshDraftPayloadMissing => "payloadBuilder is required"
  | sshPaddingMissing => "randomPadding is required unless padding is computed at build"
  | leafPayload malformed =>
    if malformed then "A malformed layer cannot carry a nested layer"
    else "An unknown payload cannot carry a nested layer"
  | uncorrectable correction => s!"This builder cannot correct {correction.name} at build time"
  | ipv6Overflow length => s!"An IPv6 payload of {length} bytes does not fit the 16-bit payload length field"
  | udpOverflow length => s!"A UDP datagram of {length} bytes does not fit the 16-bit length field"
  | redirectedUnit length embedded =>
    s!"The option length {length} is not a multiple of 8. ipPacket: {embedded.spaced}"
  | redirectedOverflow length => s!"The option length {length} exceeds 2040 bytes"
  | sshPaddingOverflow length => s!"A padding of {length} bytes does not fit the padding_length byte"
  | sshLengthOutside length => s!"A packet length outside 0..2147483647 is not supported, got {length}"
  | registered contract value => s!"A decoder for {contract.id} {contract.describe value} is already registered"
  | endless => "Maximum call stack size exceeded"
  | raised report _ => report.message

/-- Whether a layer contains the fault when it comes from a layer nested inside it. -/
def ofPacket (f : Fault) : Bool := f.faultClass.ofPacket

/-- What a fault of a caller's own says caused it. -/
def cause? : Fault → Option Report
  | raised _ cause => cause
  | _ => none

/-- A fault of a caller's own. A registry conflict reports no cause. -/
def raise (report : Report) (cause : Option Report) : Fault :=
  raised report (if report.faultClass = .registryConflict then none else cause)

def report (f : Fault) : Report := ⟨f.faultClass, f.message⟩

end Fault

namespace Report

/-- The class and the wording on one line. -/
def line (r : Report) : String := r.faultClass.name ++ ": " ++ r.message

/-- As `line`, but the class alone where there is no wording. -/
def text (r : Report) : String := if r.message.isEmpty then r.faultClass.name else r.line

end Report

theorem ok_bind {α β : Type} (a : α) (f : α → Except Fault β) : (.ok a >>= f) = f a := rfl

theorem error_bind {α β : Type} (e : Fault) (f : α → Except Fault β) : (.error e >>= f) = .error e := rfl

theorem bind_eq_ok {α β : Type} {x : Except Fault α} {f : α → Except Fault β} {b : β} :
    (x >>= f) = .ok b ↔ ∃ a, x = .ok a ∧ f a = .ok b := by
  cases x with
  | error e => exact ⟨fun h => (nomatch h), fun ⟨_, h, _⟩ => nomatch h⟩
  | ok a => exact ⟨fun h => ⟨a, rfl, h⟩, fun ⟨_, rfl, h⟩ => h⟩

end PacketStack
