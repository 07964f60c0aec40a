/-
The text of a chain tells the chain.

Each layer begins with a line in brackets whose title is that of its kind, and each other line of it has its value behind
a name that the kind settles; so the lines of a chain fall apart into those of its layers (`Frame.rows_append_inj`), and
these tell every field. Only what a malformed layer says of its cause can be any text at all, with lines that look like
those of a layer. It stands at the very end, where nothing is left to be mistaken, and is all that the text of a chain
tells besides the chain (`Packet.text_eq_iff`).
-/
import PacketStack.Packet
import PacketStack.Proofs.FieldLines

namespace PacketStack

/-! ## Frames -/

/-- What the first line of a layer says it is. -/
def Kind.title : Kind → String
  | ipv6 => "IPv6 Header"
  | udp => "UDP Header"
  | redirected => "IPv6 Neighbor Discovery Redirected Header Option"
  | ssh => "SSH2 Binary Packet Header"
  | unknown => "Unknown Packet"
  | malformed => "Malformed Packet"

theorem Kind.oneLine_title (k : Kind) : OneLine k.title := by cases k <;> decide

theorem Kind.of_headline {k k' : Kind} {m n : Nat} (same : headline k.title m = headline k'.title n) : k = k' := by
  have plain (k : Kind) : '(' ∉ k.title.toList := by cases k <;> decide
  have titles : k.title = k'.title := title_of_headline (plain k) (plain k') same
  cases k <;> cases k' <;> first | rfl | exact absurd titles (by decide)

/-- Lines that do not go on with a field: there are none, or a layer begins. -/
def Opens (lines : List String) : Prop := ∀ first ∈ lines.head?, ∀ line, first ≠ lineText line

theorem opens_nil : Opens [] := fun _ mem => nomatch mem

theorem opens_headline (title : String) (length : Nat) (rest : List String) : Opens (headline title length :: rest) := by
  intro first mem line
  cases mem
  exact headline_ne_lineText title length line

namespace Datagram

/-- The line of the trailer, if there is one. -/
def trailerLines (trailer : Bytes) : List (String × String) :=
  if trailer.isEmpty then [] else [("Trailer", trailer.describe)]

/-- A datagram that says nothing of a trailer has none, as no other line goes on with a field. -/
theorem trailerLines_inj {t u : Bytes} {x y : List String} (hx : Opens x) (hy : Opens y)
    (same : (trailerLines t).map lineText ++ x = (trailerLines u).map lineText ++ y) : t = u ∧ x = y := by
  cases t with
  | nil =>
    cases u with
    | nil => exact ⟨rfl, same⟩
    | cons b u =>
      have line : x = lineText ("Trailer", Bytes.describe (b :: u)) :: y := same
      exact absurd rfl (hx _ (by rw [line]; rfl) _)
  | cons a t =>
    cases u with
    | nil =>
      have line : lineText ("Trailer", Bytes.describe (a :: t)) :: x = y := same
      exact absurd rfl (hy _ (by rw [← line]; rfl) _)
    | cons b u =>
      obtain ⟨first, rest⟩ := List.cons.inj same
      exact ⟨Bytes.describe_inj.mp (lineText_inj.mp first), rest⟩

theorem rows_trailer (trailer : Bytes) :
    ((trailerText trailer).toList.filter (!·.isEmpty)).flatMap rows = (trailerLines trailer).map lineText := by
  rw [trailerText, trailerLines]
  by_cases empty : trailer.isEmpty = true
  · rw [if_pos empty, if_pos empty]
    rfl
  · have line : "  Trailer: " ++ trailer.describe = lineText ("Trailer", trailer.describe) := by
      rw [← String.toList_inj, toList_lineText]
      simp
    rw [if_neg empty, if_neg empty, line]
    simp [isEmpty_lineText, rows_of_oneLine (trailer.oneLine_line (show OneLine "Trailer" by decide))]

end Datagram

namespace Frame

def heading : Frame → Heading
  | datagram d => d.heading
  | redirected h => h.fields.heading
  | ssh h _ _ => h.fields.heading

/-- The lines of what follows the payload. -/
def trailerLines : Frame → List (String × String)
  | datagram d => Datagram.trailerLines d.trailer
  | redirected _ => []
  | ssh _ padding mac => [("random padding", padding.describe), ("mac", mac.describe)]

/-- The lines of a frame, its payload's left out. -/
def rows (f : Frame) : List String :=
  headline f.kind.title f.heading.byteLength :: (f.heading.lines.map lineText ++ f.trailerLines.map lineText)

theorem rows_heading (f : Frame) :
    PacketStack.rows f.heading.text = headline f.kind.title f.heading.byteLength :: f.heading.lines.map lineText := by
  cases f with
  | datagram d =>
    cases d with
    | ipv6 h trailer => exact Heading.rows_text h.legible
    | udp h trailer => exact Heading.rows_text h.legible
  | redirected h => exact Heading.rows_text h.legible
  | ssh h padding mac => exact Heading.rows_text h.legible

theorem rows_trailer (f : Frame) :
    (f.surround.trailer.toList.filter (!·.isEmpty)).flatMap PacketStack.rows = f.trailerLines.map lineText := by
  cases f with
  | datagram d => exact Datagram.rows_trailer d.trailer
  | redirected h => rfl
  | ssh h padding mac =>
    have lines : "  random padding: " ++ padding.describe ++ "\n  mac: " ++ mac.describe =
        lineText ("random padding", padding.describe) ++ "\n" ++ lineText ("mac", mac.describe) := by
      rw [← String.toList_inj]
      simp [toList_lineText]
    have surround : (ssh h padding mac).surround.trailer =
        some (lineText ("random padding", padding.describe) ++ "\n" ++ lineText ("mac", mac.describe)) :=
      congrArg some lines
    rw [surround, trailerLines]
    simp [rows_append, rows_of_oneLine (padding.oneLine_line (show OneLine "random padding" by decide)),
      rows_of_oneLine (mac.oneLine_line (show OneLine "mac" by decide))]

/-- Frames of one kind. -/
inductive Alike : Frame → Frame → Prop
  | ipv6 (h k : Ipv6.Header) (t u : Bytes) : Alike (datagram (.ipv6 h t)) (datagram (.ipv6 k u))
  | udp (h k : Udp.Header) (t u : Bytes) : Alike (datagram (.udp h t)) (datagram (.udp k u))
  | redirected (h k : Redirected.Header) : Alike (redirected h) (redirected k)
  | ssh (h k : Ssh.Header) (p m q n : Bytes) : Alike (ssh h p m) (ssh k q n)

theorem alike_of_kind {f g : Frame} (kinds : f.kind = g.kind) : Alike f g := by
  rcases f with ⟨⟨h, t⟩ | ⟨h, t⟩⟩ | h | ⟨h, p, m⟩ <;>
    rcases g with ⟨⟨k, u⟩ | ⟨k, u⟩⟩ | k | ⟨k, q, n⟩ <;>
    first | constructor | cases kinds

namespace Alike

variable {f g : Frame} (alike : Alike f g)
include alike

theorem names : f.heading.lines.map Prod.fst = g.heading.lines.map Prod.fst := by
  cases alike with
  | ipv6 => simp only [heading, Datagram.heading, Ipv6.Fields.heading, List.map_cons, List.map_nil]
  | udp => simp only [heading, Datagram.heading, Udp.Fields.heading, List.map_cons, List.map_nil]
  | redirected => simp only [heading, Redirected.Fields.heading, List.map_cons, List.map_nil]
  | ssh => simp only [heading, Ssh.Fields.heading, List.map_cons, List.map_nil]

theorem trailer_inj {x y : List String} (hx : Opens x) (hy : Opens y)
    (same : f.trailerLines.map lineText ++ x = g.trailerLines.map lineText ++ y) :
    f.surround.trailing = g.surround.trailing ∧ x = y := by
  cases alike with
  | ipv6 h k t u =>
    obtain ⟨rfl, rfl⟩ := Datagram.trailerLines_inj hx hy same
    exact ⟨rfl, rfl⟩
  | udp h k t u =>
    obtain ⟨rfl, rfl⟩ := Datagram.trailerLines_inj hx hy same
    exact ⟨rfl, rfl⟩
  | redirected h k => exact ⟨rfl, same⟩
  | ssh h k p m q n =>
    have names : (Frame.ssh h p m).trailerLines.map Prod.fst = (Frame.ssh k q n).trailerLines.map Prod.fst := rfl
    obtain ⟨lines, rest⟩ := lineTexts_inj names same
    simp only [trailerLines, List.cons.injEq, Prod.mk.injEq, Bytes.describe_inj, true_and, and_true] at lines
    obtain ⟨rfl, rfl⟩ := lines
    exact ⟨rfl, rest⟩

theorem eq_of_parts (lines : f.heading.lines = g.heading.lines) (trailing : f.surround.trailing = g.surround.trailing) :
    f = g := by
  cases alike with
  | ipv6 h k t u =>
    obtain rfl := Ipv6.Header.eq_of_lines lines
    obtain rfl := (List.cons.inj trailing).1
    rfl
  | udp h k t u =>
    obtain rfl := Udp.Header.eq_of_lines lines
    obtain rfl := (List.cons.inj trailing).1
    rfl
  | redirected h k => rw [Redirected.Header.eq_of_lines lines]
  | ssh h k p m q n =>
    obtain rfl := Ssh.Header.eq_of_lines lines
    obtain ⟨rfl, rest⟩ := List.cons.inj trailing
    obtain rfl := (List.cons.inj rest).1
    rfl

end Alike

/-- The lines of a frame in front of others that begin with a layer tell the frame, and where they end. -/
theorem rows_append_inj {f g : Frame} {x y : List String} (hx : Opens x) (hy : Opens y)
    (same : f.rows ++ x = g.rows ++ y) : f = g ∧ x = y := by
  simp only [rows, List.cons_append, List.append_assoc, List.cons.injEq] at same
  obtain ⟨first, rest⟩ := same
  have alike := alike_of_kind (Kind.of_headline first)
  obtain ⟨lines, behind⟩ := lineTexts_inj alike.names rest
  obtain ⟨trailing, ends⟩ := alike.trailer_inj hx hy behind
  exact ⟨alike.eq_of_parts lines trailing, ends⟩

end Frame

/-! ## Chains -/

namespace Leaf

def causeRows (cause : Option Fault) : List String := cause.elim [] fun f => PacketStack.rows ("  cause: " ++ f.report.line)

def cause? : Leaf → Option Fault
  | unknown _ => none
  | malformed _ cause => cause

/-- The leaf without what it says of its cause. -/
def withoutCause : Leaf → Leaf
  | unknown raw => unknown raw
  | malformed raw _ => malformed raw none

def rows (l : Leaf) : List String :=
  headline l.kind.title l.raw.length :: lineText ("data", l.raw.describe) :: causeRows l.cause?

/-- The text of a leaf is its two lines and its cause's. -/
theorem text_eq (l : Leaf) :
    l.text = headline l.kind.title l.raw.length ++ "\n" ++ lineText ("data", l.raw.describe) ++ causeLine l.cause? := by
  cases l with
  | unknown raw =>
    have text : (unknown raw).text = "[Unknown Packet (" ++ Nat.repr raw.length ++ " bytes)]\n  data: " ++ raw.describe :=
      rfl
    rw [← String.toList_inj]
    simp [text, toList_headline, toList_lineText, Nat.repr, kind, Kind.title, Leaf.raw, cause?, causeLine]
  | malformed raw cause =>
    have text : (malformed raw cause).text =
        "[Malformed Packet (" ++ Nat.repr raw.length ++ " bytes)]\n  data: " ++ raw.describe ++ causeLine cause := rfl
    rw [← String.toList_inj]
    simp [text, toList_headline, toList_lineText, Nat.repr, kind, Kind.title, Leaf.raw, cause?]

theorem rows_text (l : Leaf) : PacketStack.rows l.text = l.rows := by
  have first : OneLine (headline l.kind.title l.raw.length) := l.kind.oneLine_title.headline _
  have data : OneLine (lineText ("data", l.raw.describe)) := l.raw.oneLine_line (show OneLine "data" by decide)
  rw [text_eq, rows]
  cases l.cause? with
  | none =>
    rw [causeLine, String.append_empty, rows_append, rows_of_oneLine first, rows_of_oneLine data]
    rfl
  | some f =>
    have behind : "\n  cause: " ++ f.report.line = "\n" ++ ("  cause: " ++ f.report.line) := by
      rw [← String.append_assoc]
      rfl
    rw [causeLine, behind, ← String.append_assoc, rows_append, rows_append, rows_of_oneLine first, rows_of_oneLine data]
    rfl

theorem kind_ne (l : Leaf) (f : Frame) : l.kind ≠ f.kind := by
  rcases l with raw | ⟨raw, cause⟩ <;> rcases f with ⟨⟨h, t⟩ | ⟨h, t⟩⟩ | h | ⟨h, p, m⟩ <;> exact nofun

theorem withoutCause_of_rows {l k : Leaf} (same : l.rows = k.rows) : l.withoutCause = k.withoutCause := by
  obtain ⟨first, rest⟩ := List.cons.inj same
  have kinds : l.kind = k.kind := Kind.of_headline first
  have bytes : l.raw = k.raw := Bytes.describe_inj.mp (lineText_inj.mp (List.cons.inj rest).1)
  cases l with
  | unknown raw =>
    cases k with
    | unknown raw' => exact congrArg unknown bytes
    | malformed => cases kinds
  | malformed raw cause =>
    cases k with
    | unknown => cases kinds
    | malformed raw' cause' => exact congrArg (malformed · none) bytes

end Leaf

namespace Packet

/-- The lines of a chain, those of the outermost layer first. -/
def rows : Packet → List String
  | leaf l => l.rows
  | bare d => (Frame.datagram d).rows
  | carrying f payload => f.rows ++ payload.rows

/-- The chain without what a malformed layer says of its cause. -/
def withoutCause : Packet → Packet
  | leaf l => leaf l.withoutCause
  | bare d => bare d
  | carrying f payload => carrying f payload.withoutCause

/-- What the chain says of the cause of a malformed layer. -/
def causeLine : Packet → String
  | leaf l => Leaf.causeLine l.cause?
  | bare _ => ""
  | carrying _ payload => payload.causeLine

theorem rows_text (p : Packet) : PacketStack.rows p.text = p.rows := by
  have parts (f : Frame) : f.surround.parts.flatMap PacketStack.rows = f.rows := by
    have heading : f.surround.heading = some f.heading := by cases f <;> rfl
    rw [Surround.parts, heading, Option.map_some, Option.toList_some, List.flatMap_append, f.rows_trailer,
      List.flatMap_singleton, f.rows_heading]
    rfl
  have joined (f : Frame) (rest : List String) :
      PacketStack.rows ("\n".intercalate (f.surround.parts ++ rest)) = f.rows ++ rest.flatMap PacketStack.rows := by
    have some : f.surround.parts ++ rest ≠ [] := by
      intro none
      have := (parts f).symm
      rw [(List.append_eq_nil_iff.mp none).1] at this
      cases this
    rw [rows_joined some, List.flatMap_append, parts]
  induction p with
  | leaf l => exact l.rows_text
  | bare d =>
    have text : (bare d).text = "\n".intercalate ((Frame.datagram d).surround.parts ++ []) := by
      rw [List.append_nil]
      rfl
    rw [text, joined, List.flatMap_nil, List.append_nil, rows]
  | carrying f payload ih =>
    have text : (carrying f payload).text = "\n".intercalate (f.surround.parts ++ [payload.text]) := rfl
    rw [text, joined, List.flatMap_singleton, ih, rows]

theorem head?_rows (p : Packet) : ∃ n rest, p.rows = headline p.kind.title n :: rest := by
  cases p with
  | leaf l => exact ⟨_, _, rfl⟩
  | bare d => exact ⟨_, _, rfl⟩
  | carrying f payload => exact ⟨_, _, rfl⟩

theorem opens_rows (p : Packet) : Opens p.rows := by
  obtain ⟨n, rest, lines⟩ := p.head?_rows
  rw [lines]
  exact opens_headline p.kind.title n rest

theorem rows_ne_nil (p : Packet) : p.rows ≠ [] := by
  obtain ⟨n, rest, lines⟩ := p.head?_rows
  rw [lines]
  exact List.cons_ne_nil _ rest

theorem kind_of_rows {p q : Packet} (same : p.rows = q.rows) : p.kind = q.kind := by
  obtain ⟨m, u, hp⟩ := p.head?_rows
  obtain ⟨n, v, hq⟩ := q.head?_rows
  rw [hp, hq] at same
  exact Kind.of_headline (List.cons.inj same).1

theorem withoutCause_of_rows {p q : Packet} (same : p.rows = q.rows) : p.withoutCause = q.withoutCause := by
  have kinds := kind_of_rows same
  induction p generalizing q with
  | leaf l =>
    cases q with
    | leaf k => exact congrArg leaf (Leaf.withoutCause_of_rows same)
    | bare e => exact absurd kinds (l.kind_ne (.datagram e))
    | carrying g q => exact absurd kinds (l.kind_ne g)
  | bare d =>
    have alone : (Frame.datagram d).rows ++ [] = q.rows := (List.append_nil _).trans same
    cases q with
    | leaf k => exact absurd kinds.symm (k.kind_ne (.datagram d))
    | bare e =>
      obtain ⟨frames, -⟩ := Frame.rows_append_inj opens_nil opens_nil (alone.trans (List.append_nil _).symm)
      cases frames
      rfl
    | carrying g q => exact absurd (Frame.rows_append_inj opens_nil q.opens_rows alone).2.symm q.rows_ne_nil
  | carrying f p ih =>
    cases q with
    | leaf k => exact absurd kinds.symm (k.kind_ne f)
    | bare e =>
      have alone : f.rows ++ p.rows = (Frame.datagram e).rows ++ [] := same.trans (List.append_nil _).symm
      exact absurd (Frame.rows_append_inj p.opens_rows opens_nil alone).2 p.rows_ne_nil
    | carrying g q =>
      obtain ⟨rfl, rest⟩ := Frame.rows_append_inj p.opens_rows q.opens_rows same
      rw [withoutCause, withoutCause, ih rest (kind_of_rows rest)]

/-- What a malformed layer says of its cause ends the text. -/
theorem text_withoutCause (p : Packet) : p.text = p.withoutCause.text ++ p.causeLine := by
  induction p with
  | leaf l =>
    have whole : (leaf l).text = l.text := rfl
    have front : (leaf l).withoutCause.text = l.withoutCause.text := rfl
    rw [whole, front, l.text_eq, l.withoutCause.text_eq]
    cases l <;> simp [Leaf.withoutCause, Leaf.cause?, Leaf.causeLine, causeLine, Leaf.kind, Leaf.raw]
  | bare d => exact String.append_empty.symm
  | carrying f payload ih =>
    have whole : (carrying f payload).text = "\n".intercalate (f.surround.parts ++ [payload.text]) := rfl
    have front : (carrying f payload).withoutCause.text =
        "\n".intercalate (f.surround.parts ++ [payload.withoutCause.text]) := rfl
    rw [whole, front, ih, joined_append, causeLine]

/-- Two chains read the same when they differ at most in the cause of a malformed layer, and it is worded the same. -/
theorem text_eq_iff {p q : Packet} : p.text = q.text ↔ p.withoutCause = q.withoutCause ∧ p.causeLine = q.causeLine := by
  constructor
  · intro same
    have chains : p.withoutCause = q.withoutCause := withoutCause_of_rows (by rw [← rows_text, ← rows_text, same])
    rw [p.text_withoutCause, q.text_withoutCause, chains] at same
    exact ⟨chains, (String.append_right_inj _).mp same⟩
  · rintro ⟨chains, causes⟩
    rw [p.text_withoutCause, q.text_withoutCause, chains, causes]

theorem kinds_withoutCause (p : Packet) : p.withoutCause.layers.map kind = p.layers.map kind := by
  induction p with
  | leaf l => cases l <;> rfl
  | bare d => rfl
  | carrying f payload ih =>
    rw [withoutCause, layers, layers, List.map_cons, List.map_cons, ih]
    rfl

theorem serialize_withoutCause (p : Packet) : p.withoutCause.serialize = p.serialize := by
  induction p with
  | leaf l => cases l <;> rfl
  | bare d => rfl
  | carrying f payload ih => rw [withoutCause, serialize_carrying, serialize_carrying, ih]

/-- Chains with the same text have the same kinds layer by layer and the same bytes, whatever the causes are worded like. -/
theorem text_faithful {p q : Packet} (same : p.text = q.text) :
    p.layers.map kind = q.layers.map kind ∧ p.serialize = q.serialize := by
  obtain ⟨chains, -⟩ := text_eq_iff.mp same
  constructor
  · rw [← p.kinds_withoutCause, chains, q.kinds_withoutCause]
  · rw [← p.serialize_withoutCause, chains, q.serialize_withoutCause]

/-- An SSH packet around a byte that a decoder refused. -/
def refused (cause : Fault) : Packet := carrying (.ssh ⟨6, 4⟩ (Bytes.zeros 4) []) (malformed [7] cause)

/-- A fault of a caller's own that is worded like one of the library's. -/
def reworded : Fault := .raised (Fault.sshHeaderShort [7]).report none

theorem text_faithful_of_reworded :
    (refused (.sshHeaderShort [7])).text = (refused reworded).text ∧ refused (.sshHeaderShort [7]) ≠ refused reworded ∧
    (refused (.sshHeaderShort [7])).layers.map kind = (refused reworded).layers.map kind ∧
    (refused (.sshHeaderShort [7])).serialize = (refused reworded).serialize :=
  ⟨rfl, by decide, text_faithful rfl⟩

end Packet

end PacketStack
