/-
What every layer has in common: a heading in front of the payload, fields behind it, and a text.

A layout is what remains of a chain of layers when the meaning of the fields is left out. Its length is added
up from the parts and its bytes are put together from the parts, independently of each other; `serialize_around`
says where the bytes of a payload stand.
-/
import PacketStack.Bytes.Basic
import PacketStack.Number.Text

namespace PacketStack

/-- A titled group of wire fields, and the lines that describe them. -/
structure Heading where
  title : String
  raw : List Bytes
  lines : List (String × String)
  deriving DecidableEq

namespace Heading

def byteLength (h : Heading) : Nat := Bytes.total h.raw

def serialize (h : Heading) : Bytes := h.raw.flatten

def text (h : Heading) : String :=
  "\n".intercalate (s!"[{h.title} ({h.byteLength} bytes)]" :: h.lines.map fun (name, value) => s!"  {name}: {value}")

end Heading

/-- What a layer puts around its payload. -/
structure Surround where
  heading : Option Heading := none
  trailing : List Bytes := []
  /-- The text of the trailing fields, if there is one. -/
  trailer : Option String := none
  deriving DecidableEq

namespace Surround

def headingLength (s : Surround) : Nat := s.heading.elim 0 Heading.byteLength

def trailingLength (s : Surround) : Nat := Bytes.total s.trailing

def front (s : Surround) : Bytes := s.heading.elim [] Heading.serialize

def back (s : Surround) : Bytes := s.trailing.flatten

/-- The heading and the trailer, an empty trailer being left out. -/
def parts (s : Surround) : List String :=
  (s.heading.map Heading.text).toList ++ s.trailer.toList.filter (!·.isEmpty)

end Surround

inductive Layout
  | leaf (raw : Bytes) (text : String) (malformed : Bool)
  | bare (surround : Surround)
  | around (surround : Surround) (payload : Layout)
  deriving DecidableEq

namespace Layout

def byteLength : Layout → Nat
  | leaf raw _ _ => raw.length
  | bare s => s.headingLength + s.trailingLength
  | around s payload => s.headingLength + payload.byteLength + s.trailingLength

/-- The bytes of a layout in front of others, so that a chain is gone through once. -/
def onto : Layout → Bytes → Bytes
  | leaf raw _ _, rest => raw ++ rest
  | bare s, rest => s.front ++ (s.back ++ rest)
  | around s payload, rest => s.front ++ payload.onto (s.back ++ rest)

def serialize (l : Layout) : Bytes := l.onto []

/-- The trailer is described before the payload, whose text may be long. -/
def text : Layout → String
  | leaf _ text _ => text
  | bare s => "\n".intercalate s.parts
  | around s payload => "\n".intercalate (s.parts ++ [payload.text])

def malformed : Layout → Bool
  | leaf _ _ malformed => malformed
  | _ => false

/-- Whether the layer or one below it is malformed. -/
def containsMalformed : Layout → Bool
  | leaf _ _ malformed => malformed
  | bare _ => false
  | around _ payload => payload.containsMalformed

def hash (l : Layout) : UInt32 := Bytes.hash l.serialize

theorem onto_eq (l : Layout) (rest : Bytes) : l.onto rest = l.serialize ++ rest := by
  unfold serialize
  induction l generalizing rest with
  | leaf raw => simp only [onto, List.append_nil]
  | bare s => simp only [onto, List.append_nil, List.append_assoc]
  | around s payload ih =>
    rw [onto, onto, ih, ih (s.back ++ [])]
    simp only [List.append_nil, List.append_assoc]

theorem serialize_leaf (raw : Bytes) (text : String) (malformed : Bool) : (leaf raw text malformed).serialize = raw :=
  List.append_nil raw

theorem serialize_bare (s : Surround) : (bare s).serialize = s.front ++ s.back := by
  rw [serialize, onto, List.append_nil]

theorem serialize_around (s : Surround) (payload : Layout) :
    (around s payload).serialize = s.front ++ (payload.serialize ++ s.back) := by
  rw [serialize, onto, onto_eq, List.append_nil]

end Layout
end PacketStack
