/-
The fixed IPv6 header.

`Fields` holds any values at all, which is enough to describe them and to put their low bits on the wire.
`Header` holds values that fit, so that what is read back from the wire is the header itself
(`read?_wire`).
-/
import PacketStack.Field
import PacketStack.Layout

namespace PacketStack.Ipv6

/-- The size of an address. -/
def addressSize : Nat := 16

abbrev Address := Block addressSize

/-- The header's size on the wire. -/
def headerSize : Nat := 40

/-- The only version there is. -/
def version : Nat := 6

/-- The full form of an address: hexadecimal groups of two bytes without leading zeros. -/
def groups : Bytes → List String
  | high :: low :: rest => String.ofList (Nat.toDigits 16 (high.toNat * 256 + low.toNat)) :: groups rest
  | _ => []

def addressText (address : Bytes) : String := ":".intercalate (groups address)

structure Fields where
  version : Number
  trafficClass : Number
  flowLabel : Number
  payloadLength : Number
  nextHeader : Number
  hopLimit : Number
  source : Bytes
  destination : Bytes
  deriving DecidableEq

namespace Fields

/-- Version, traffic class and flow label share the first word. -/
def firstWord (f : Fields) : Nat :=
  f.version.lowBits 4 * 0x10000000 + f.trafficClass.lowBits 8 * 0x100000 + f.flowLabel.lowBits 20

def wire (f : Fields) : List Bytes :=
  [Bytes.word 4 f.firstWord, Field.octets 2 f.payloadLength, Field.octets 1 f.nextHeader, Field.octets 1 f.hopLimit,
    f.source, f.destination]

def heading (f : Fields) : Heading where
  title := "IPv6 Header"
  raw := f.wire
  lines :=
    [("Version", f.version.text),
     ("Traffic Class", f.trafficClass.hexText 2),
     ("Flow Label", f.flowLabel.hexText 5),
     ("Payload length", s!"{f.payloadLength} [bytes]"),
     ("Next Header", Contract.ipNumber.describe f.nextHeader),
     ("Hop Limit", f.hopLimit.text),
     ("Source address", addressText f.source),
     ("Destination address", addressText f.destination)]

end Fields

structure Header where
  version : BitVec 4
  trafficClass : BitVec 8
  flowLabel : BitVec 20
  payloadLength : BitVec 16
  nextHeader : BitVec 8
  hopLimit : BitVec 8
  source : Address
  destination : Address
  deriving DecidableEq

namespace Header

def fields (h : Header) : Fields where
  version := h.version.toNat
  trafficClass := h.trafficClass.toNat
  flowLabel := h.flowLabel.toNat
  payloadLength := h.payloadLength.toNat
  nextHeader := h.nextHeader.toNat
  hopLimit := h.hopLimit.toNat
  source := h.source.bytes
  destination := h.destination.bytes

/-- Takes a header off the front, whatever its version. -/
def read? : Bytes → Option (Header × Bytes)
  | b₀ :: b₁ :: b₂ :: b₃ :: l₀ :: l₁ :: next :: hops :: rest => do
    let first := Bytes.toNat [b₀, b₁, b₂, b₃]
    let (source, rest) ← Block.cut addressSize rest
    let (destination, rest) ← Block.cut addressSize rest
    some ({
      version := BitVec.ofNat 4 (first / 0x10000000)
      trafficClass := BitVec.ofNat 8 (first / 0x100000)
      flowLabel := BitVec.ofNat 20 first
      payloadLength := BitVec.ofNat 16 (Bytes.toNat [l₀, l₁])
      nextHeader := next.toBitVec
      hopLimit := hops.toBitVec
      source
      destination }, rest)
  | _ => none

/-- The header in front of `raw` and what follows it. -/
def decode (raw : Bytes) : Except Fault (Header × Bytes) :=
  match read? raw with
  | none => .error (.ipv6HeaderShort raw)
  | some (h, rest) =>
    if h.version.toNat = Ipv6.version then .ok (h, rest) else .error (.ipv6Version h.version.toNat raw)

theorem firstWord_fields (h : Header) :
    h.fields.firstWord = h.version.toNat * 0x10000000 + h.trafficClass.toNat * 0x100000 + h.flowLabel.toNat := by
  have := h.version.isLt
  have := h.trafficClass.isLt
  have := h.flowLabel.isLt
  simp only [Fields.firstWord, fields, Number.lowBits_nat]
  omega

theorem read?_wire (h : Header) (rest : Bytes) : read? (h.fields.wire.flatten ++ rest) = some (h, rest) := by
  have hl := h.payloadLength.isLt
  have first := firstWord_fields h
  have word := Bytes.toNat_word 4 h.fields.firstWord
  have length := Bytes.toNat_word 2 h.payloadLength.toNat
  rw [Bytes.word_four] at word
  rw [Bytes.word_two] at length
  have next : h.fields.nextHeader = (h.nextHeader.toNat : Number) := rfl
  have hops : h.fields.hopLimit = (h.hopLimit.toNat : Number) := rfl
  have payload : h.fields.payloadLength = (h.payloadLength.toNat : Number) := rfl
  simp only [Fields.wire, Bytes.word_four, next, hops, payload, Field.octets_one, Field.octets_two hl, List.flatten_cons,
    List.flatten_nil, List.cons_append, List.nil_append, List.append_nil, List.append_assoc, read?, word, length]
  rw [show h.fields.source = h.source.bytes from rfl, show h.fields.destination = h.destination.bytes from rfl,
    Block.cut_append]
  simp only [Option.bind_eq_bind, Option.bind_some, Block.cut_append, first]
  refine congrArg some (Prod.ext ?_ rfl)
  obtain ⟨version, trafficClass, flowLabel, payloadLength, nextHeader, hopLimit, source, destination⟩ := h
  simp only [Header.mk.injEq, and_true] at *
  refine ⟨?_, ?_, ?_, ?_, ?_, ?_⟩ <;> apply BitVec.eq_of_toNat_eq <;>
    simp only [BitVec.toNat_ofNat, UInt8.toBitVec_ofNat'] <;> omega

theorem length_of_decode {raw rest : Bytes} {h : Header} (hd : decode raw = .ok (h, rest)) :
    raw.length = headerSize + rest.length := by
  unfold decode at hd
  split at hd
  · cases hd
  · next h' rest' hr =>
    split at hd <;> cases hd
    unfold read? at hr
    split at hr
    · simp only [Option.bind_eq_bind, Option.bind_eq_some_iff, Option.some.injEq, Prod.exists, Prod.mk.injEq] at hr
      obtain ⟨s, rest₁, hs, d, rest₂, hd, -, rfl⟩ := hr
      have ls := s.size
      have ld := d.size
      rw [Block.append_of_cut hs, Block.append_of_cut hd]
      simp only [List.length_cons, List.length_append, headerSize, addressSize] at *
      omega
    · cases hr

end Header
end PacketStack.Ipv6
