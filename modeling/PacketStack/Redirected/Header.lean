/-
The Neighbor Discovery option that carries as much of a redirected packet as fits. Its length counts the
whole option in units of eight bytes.
-/
import PacketStack.Field
import PacketStack.Layout

namespace PacketStack.Redirected

/-- The size of type, length and reserved bytes. -/
def fixedSize : Nat := 8

/-- The least that the embedded packet can be, a whole IPv6 header. -/
def embeddedMinimum : Nat := 40

/-- The unit of the length. -/
def unit : Nat := 8

structure Fields where
  length : Number
  reserved : Bytes
  deriving DecidableEq

namespace Fields

/-- Every option of this kind has the same type. -/
def type (_ : Fields) : Number := Contract.redirectedType

def wire (f : Fields) : List Bytes := [Field.octets 1 f.type, Field.octets 1 f.length, f.reserved]

def heading (f : Fields) : Heading where
  title := "IPv6 Neighbor Discovery Redirected Header Option"
  raw := f.wire
  lines :=
    [("Type", Contract.ndOptionType.describe f.type),
     ("Length", s!"{f.length} ({f.length.doubled 3} bytes)"),
     ("Reserved", f.reserved.describe)]

end Fields

structure Header where
  length : BitVec 8
  reserved : Block 6
  deriving DecidableEq

namespace Header

def fields (h : Header) : Fields where
  length := h.length.toNat
  reserved := h.reserved.bytes

/-- Takes a type and a header off the front. -/
def read? : Bytes → Option (UInt8 × Header × Bytes)
  | type :: length :: rest => do
    let (reserved, rest) ← Block.cut 6 rest
    some (type, ⟨length.toBitVec, reserved⟩, rest)
  | _ => none

/-- The header in front of `raw` and the embedded packet, which is all that follows. -/
def decode (raw : Bytes) : Except Fault (Header × Bytes) :=
  match read? raw with
  | none => .error (.redirectedShort raw)
  | some (type, h, embedded) =>
    if embedded.length < embeddedMinimum then .error (.redirectedShort raw)
    else if type.toNat ≠ Contract.redirectedType then .error (.redirectedType type.toNat raw)
    else if raw.length < h.length.toNat * unit then .error (.redirectedLength (h.length.toNat * unit) raw)
    else .ok (h, embedded)

theorem read?_wire (h : Header) (rest : Bytes) :
    read? (h.fields.wire.flatten ++ rest) = some (UInt8.ofNat Contract.redirectedType, h, rest) := by
  have type : h.fields.type = (Contract.redirectedType : Number) := rfl
  have length : h.fields.length = (h.length.toNat : Number) := rfl
  have reserved : h.fields.reserved = h.reserved.bytes := rfl
  have byte : (UInt8.ofNat h.length.toNat).toBitVec = h.length := by
    rw [UInt8.toBitVec_ofNat', BitVec.ofNat_toNat, BitVec.setWidth_eq]
  simp only [Fields.wire, type, length, reserved, Field.octets_one, List.flatten_cons, List.flatten_nil, List.cons_append,
    List.nil_append, List.append_nil, read?, byte, Block.cut_append, Option.bind_eq_bind,
    Option.bind_some]

theorem length_of_decode {raw embedded : Bytes} {h : Header} (hd : decode raw = .ok (h, embedded)) :
    raw.length = fixedSize + embedded.length ∧ embeddedMinimum ≤ embedded.length := by
  unfold decode at hd
  split at hd
  · cases hd
  · next type h' embedded' hr =>
    split at hd
    · cases hd
    split at hd
    · cases hd
    split at hd <;> cases hd
    unfold read? at hr
    split at hr
    · simp only [Option.bind_eq_bind, Option.bind_eq_some_iff, Option.some.injEq, Prod.exists, Prod.mk.injEq] at hr
      obtain ⟨reserved, rest, hc, -, -, rfl⟩ := hr
      have lr := reserved.size
      rw [Block.append_of_cut hc]
      simp only [List.length_cons, List.length_append, fixedSize]
      omega
    · cases hr

end Header
end PacketStack.Redirected
