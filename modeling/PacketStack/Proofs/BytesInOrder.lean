/-
The bytes of a chain from one end to the other.

A layer puts its heading in front of what it carries and its trailing fields behind it. So the headings stand in front, the
outermost first, then the bytes of the innermost layer if nothing describes them, then the trailing fields, those of the
innermost layer first (`Layout.serialize_eq`). The length that is added up from the parts is the number of these bytes at
each layer, and also what a writer counts that is given the layer's fields and its payload one by one.

All this is said of layouts, whose headings and trailing fields are any that there can be; chains of packets are those
layouts whose layers are packets (`Packet.layers_layout`).
-/
import PacketStack.Bytes.Writer
import PacketStack.Proofs.Sizes

namespace PacketStack

namespace Writer

theorem bytes_writeAll (w : Writer) (chunks : List Bytes) :
    (chunks.foldl writeBytes w).bytes = w.bytes ++ chunks.flatten := by
  induction chunks generalizing w with
  | nil => simp
  | cons chunk rest ih =>
    rw [List.foldl_cons, ih, bytes_writeBytes]
    simp

theorem length_writeAll (w : Writer) (chunks : List Bytes) :
    (chunks.foldl writeBytes w).length = w.length + chunks.flatten.length := by
  induction chunks generalizing w with
  | nil => simp
  | cons chunk rest ih =>
    rw [List.foldl_cons, ih, length_writeBytes, List.flatten_cons, List.length_append, Nat.add_assoc]

end Writer

namespace Layout

/-- The layout and the payloads below it, the outermost first. -/
def layers : Layout → List Layout
  | leaf raw text malformed => [leaf raw text malformed]
  | bare s => [bare s]
  | around s payload => around s payload :: payload.layers

/-- What the outermost layer puts around what it carries. -/
def surround : Layout → Surround
  | leaf .. => {}
  | bare s => s
  | around s _ => s

/-- The bytes of the innermost layer that no field describes. -/
def core : Layout → Bytes
  | leaf raw .. => raw
  | bare _ => []
  | around _ payload => payload.core

/-- What the outermost layer is written in: its fields, and what it carries in one piece. -/
def chunks : Layout → List Bytes
  | leaf raw .. => [raw]
  | bare s => s.heading.elim [] Heading.raw ++ s.trailing
  | around s payload => s.heading.elim [] Heading.raw ++ payload.serialize :: s.trailing

theorem flatten_chunks (l : Layout) : l.chunks.flatten = l.serialize := by
  have front (s : Surround) : (s.heading.elim [] Heading.raw).flatten = s.front := by
    rcases s with ⟨_ | heading, trailing, trailer⟩ <;> rfl
  cases l with
  | leaf raw text malformed => rw [serialize_leaf, chunks, List.flatten_singleton]
  | bare s => rw [serialize_bare, chunks, List.flatten_append, front, Surround.back]
  | around s payload =>
    rw [serialize_around, chunks, List.flatten_append, front, List.flatten_cons, Surround.back]

/-- **Headings from the outside in, opaque bytes, trailing fields from the inside out.** -/
theorem serialize_eq (l : Layout) :
    l.serialize = (l.layers.map (·.surround.front)).flatten ++
      (l.core ++ (l.layers.reverse.map (·.surround.back)).flatten) := by
  induction l with
  | leaf raw text malformed =>
    rw [serialize_leaf]
    simp [layers, core, surround, Surround.front, Surround.back]
  | bare s =>
    rw [serialize_bare]
    simp [layers, core, surround]
  | around s payload ih =>
    rw [serialize_around, ih]
    simp [layers, core, surround]

end Layout

namespace Packet

/-- What the outermost layer puts around what it carries. -/
def surround : Packet → Surround
  | leaf _ => {}
  | bare d => d.surround
  | carrying f _ => f.surround

/-- The bytes of the innermost layer that no field describes. -/
def core : Packet → Bytes
  | leaf l => l.raw
  | bare _ => []
  | carrying _ payload => payload.core

theorem surround_layout (p : Packet) : p.layout.surround = p.surround := by
  cases p <;> rfl

theorem core_layout (p : Packet) : p.layout.core = p.core := by
  induction p with
  | leaf l => rfl
  | bare d => rfl
  | carrying f payload ih => exact ih

theorem layers_layout (p : Packet) : p.layout.layers = p.layers.map layout := by
  induction p with
  | leaf l => rfl
  | bare d => rfl
  | carrying f payload ih => rw [layout, Layout.layers, ih]; rfl

end Packet

/-- **A chain has as many bytes as are added up from its parts, at each of its layers, and they are in order**: those of
the headings, the outermost first, those of the innermost layer if nothing describes them, and those of the trailing
fields, the innermost layer's first. Writing a layer field by field gives the same bytes and counts as many. So it is
for any headings and trailing fields around any payload, and for packets. -/
theorem Layout.bytes_in_order (l : Layout) (p : Packet) :
    (∀ m ∈ l.layers, m.byteLength = m.serialize.length ∧
      (m.chunks.foldl Writer.writeBytes {}).bytes = m.serialize ∧
      (m.chunks.foldl Writer.writeBytes {}).length = m.byteLength) ∧
    l.serialize = (l.layers.map (·.surround.front)).flatten ++
      (l.core ++ (l.layers.reverse.map (·.surround.back)).flatten) ∧
    (∀ q ∈ p.layers, q.byteLength = q.serialize.length) ∧
    p.serialize = (p.layers.map (·.surround.front)).flatten ++
      (p.core ++ (p.layers.reverse.map (·.surround.back)).flatten) := by
  refine ⟨fun m _ => ⟨m.byteLength_eq, ?_, ?_⟩, l.serialize_eq, fun q _ => q.byteLength_eq, ?_⟩
  · rw [Writer.bytes_writeAll, m.flatten_chunks]
    rfl
  · rw [Writer.length_writeAll, m.flatten_chunks, m.byteLength_eq]
    exact Nat.zero_add _
  · have parts := p.layout.serialize_eq
    rw [p.layers_layout, p.core_layout, ← List.map_reverse, List.map_map, List.map_map] at parts
    simp only [Function.comp_def, Packet.surround_layout] at parts
    exact parts

end PacketStack
