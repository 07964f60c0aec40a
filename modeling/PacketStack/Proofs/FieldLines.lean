/-
The lines of a heading.

A text is a row of lines (`rows`). A heading has one line for its title and one for each field, since nothing that it
writes has a line break in it (`Heading.rows_text`). The line of a field is a name and a value. The names are settled by
the kind of header; then the lines tell the values (`lineTexts_inj`), and the values tell the header, field by field
(`eq_of_lines` for each header).
-/
import PacketStack.Redirected.Header
import PacketStack.Ssh.Header
import PacketStack.Udp.Header
import PacketStack.Proofs.Spelling

namespace PacketStack

/-! ## Lines -/

/-- The lines of a text. -/
def rows (text : String) : List String := (text.toList.splitOn '\n').map String.ofList

/-- The text has no line but the first. -/
abbrev OneLine (text : String) : Prop := '\n' ∉ text.toList

theorem OneLine.append {s t : String} (hs : OneLine s) (ht : OneLine t) : OneLine (s ++ t) := by
  rw [OneLine, String.toList_append, List.mem_append, not_or]
  exact ⟨hs, ht⟩

theorem rows_of_oneLine {text : String} (single : OneLine text) : rows text = [text] := by
  rw [rows, List.splitOn_eq_singleton single, List.map_singleton, String.ofList_toList]

theorem rows_append (first rest : String) : rows (first ++ "\n" ++ rest) = rows first ++ rows rest := by
  have text : (first ++ "\n" ++ rest).toList = first.toList ++ '\n' :: rest.toList := by simp
  rw [rows, text, List.splitOn_append_cons_self, List.map_append]
  rfl

theorem rows_joined {parts : List String} (some : parts ≠ []) : rows ("\n".intercalate parts) = parts.flatMap rows := by
  induction parts with
  | nil => exact absurd rfl some
  | cons part rest ih =>
    cases rest with
    | nil => simp
    | cons next rest =>
      rw [String.intercalate_cons_cons, rows_append, ih (List.cons_ne_nil next rest)]
      rfl

theorem joined_append (parts : List String) (last more : String) :
    "\n".intercalate (parts ++ [last ++ more]) = "\n".intercalate (parts ++ [last]) ++ more := by
  induction parts with
  | nil => simp
  | cons part parts ih =>
    cases parts with
    | nil => simp [String.append_assoc]
    | cons next parts =>
      simp only [List.cons_append, String.intercalate_cons_cons] at ih ⊢
      rw [ih, ← String.append_assoc]

/-- Lines with a line break between them are found again. -/
theorem rows_lines {lines : List String} (some : lines ≠ []) (single : ∀ line ∈ lines, OneLine line) :
    rows ("\n".intercalate lines) = lines := by
  rw [rows, show "\n" = String.singleton '\n' from rfl, splitOn_separated some single, List.map_map]
  simp

/-- The first line of a layer. -/
def headline (title : String) (length : Nat) : String := s!"[{title} ({length} bytes)]"

/-- The line of a field. -/
def lineText (line : String × String) : String := s!"  {line.1}: {line.2}"

theorem toList_headline (title : String) (length : Nat) :
    (headline title length).toList =
      '[' :: (title.toList ++ ' ' :: '(' :: (Nat.toDigits 10 length ++ " bytes)]".toList)) := by
  have text : headline title length = "[" ++ title ++ " (" ++ Nat.repr length ++ " bytes)]" := rfl
  simp [text, Nat.repr]

theorem toList_lineText (line : String × String) :
    (lineText line).toList = ' ' :: ' ' :: (line.1.toList ++ ':' :: ' ' :: line.2.toList) := by
  have text : lineText line = "  " ++ line.1 ++ ": " ++ line.2 := rfl
  simp [text]

theorem isEmpty_lineText (line : String × String) : (lineText line).isEmpty = false := by
  rw [← Bool.not_eq_true, String.isEmpty_iff, ← String.toList_inj, toList_lineText]
  exact List.cons_ne_nil _ _

theorem headline_ne_lineText (title : String) (length : Nat) (line : String × String) :
    headline title length ≠ lineText line := by
  intro same
  rw [← String.toList_inj, toList_headline, toList_lineText] at same
  exact absurd (List.cons.inj same).1 (by decide)

/-- The title ends at the first parenthesis. -/
theorem title_of_headline {s t : String} {m n : Nat} (hs : '(' ∉ s.toList) (ht : '(' ∉ t.toList)
    (same : headline s m = headline t n) : s = t := by
  rw [← String.toList_inj, toList_headline, toList_headline] at same
  have blank {s : String} (h : '(' ∉ s.toList) : '(' ∉ s.toList ++ [' '] := by simp [h]
  have titles : (s.toList ++ [' ']) ++ '(' :: (Nat.toDigits 10 m ++ " bytes)]".toList) =
      (t.toList ++ [' ']) ++ '(' :: (Nat.toDigits 10 n ++ " bytes)]".toList) := by
    simpa using (List.cons.inj same).2
  exact String.toList_inj.mp (List.append_cancel_right (front_inj (blank hs) (blank ht) (by simp) (by simp) titles))

theorem lineText_inj {name value other : String} : lineText (name, value) = lineText (name, other) ↔ value = other := by
  rw [← String.toList_inj, toList_lineText, toList_lineText]
  simp [String.toList_inj]

/-- Under the same names, lines tell their values, and where they end. -/
theorem lineTexts_inj {lines others : List (String × String)} (names : lines.map Prod.fst = others.map Prod.fst)
    {u v : List String} (same : lines.map lineText ++ u = others.map lineText ++ v) : lines = others ∧ u = v := by
  induction lines generalizing others with
  | nil =>
    obtain rfl : others = [] := by simpa using names.symm
    exact ⟨rfl, same⟩
  | cons line lines ih =>
    cases others with
    | nil => cases names
    | cons other others =>
      obtain ⟨name, value⟩ := line
      obtain ⟨name', value'⟩ := other
      simp only [List.map_cons, List.cons.injEq] at names
      obtain ⟨rfl, names⟩ := names
      obtain ⟨first, rest⟩ := List.cons.inj same
      obtain ⟨rfl, rfl⟩ := ih names rest
      rw [lineText_inj.mp first]
      exact ⟨rfl, rfl⟩

/-! ## Numbers of the wire -/

namespace Number

variable {w : Nat}

/-- What a field of the wire holds is written digit for digit. -/
theorem toNat_le_exactBelow (narrow : w ≤ precision) (v : BitVec w) : v.toNat ≤ exactBelow :=
  Nat.le_of_lt (Nat.lt_of_lt_of_le v.isLt (Nat.pow_le_pow_right (by decide) narrow))

theorem text_word_inj (narrow : w ≤ precision) {a b : BitVec w} :
    (a.toNat : Number).text = (b.toNat : Number).text ↔ a = b :=
  (text_inj (toNat_le_exactBelow narrow a) (toNat_le_exactBelow narrow b)).trans BitVec.toNat_inj

theorem hexText_word_inj {width : Nat} {a b : BitVec w} :
    (a.toNat : Number).hexText width = (b.toNat : Number).hexText width ↔ a = b :=
  hexText_inj.trans BitVec.toNat_inj

theorem doubled_nat {n bits : Nat} (small : n * 2 ^ bits < limit) :
    (n : Number).doubled bits = ((n * 2 ^ bits : Nat) : Number) := by
  have product : (n : Int) * 2 ^ bits = (n * 2 ^ bits : Nat) := by push_cast; rfl
  rw [doubled, capped, product, Int.natAbs_natCast, if_neg (by omega)]

theorem oneLine_text (narrow : w ≤ precision) (v : BitVec w) : OneLine (v.toNat : Number).text :=
  notMem_text (by decide) (toNat_le_exactBelow narrow v)

theorem oneLine_hexText (width n : Nat) : OneLine ((n : Number).hexText width) :=
  notMem_hexText (by decide) (by decide) width n

end Number

/-! ## Headers -/

/-- Nothing in a heading has a line break in it. -/
structure Heading.Legible (h : Heading) : Prop where
  title : OneLine h.title
  names : ∀ line ∈ h.lines, OneLine line.1
  values : ∀ line ∈ h.lines, OneLine line.2

theorem OneLine.lineText {line : String × String} (name : OneLine line.1) (value : OneLine line.2) :
    OneLine (lineText line) := by
  rw [OneLine, toList_lineText]
  simp [name, value]

theorem Bytes.oneLine_describe (bytes : Bytes) : OneLine bytes.describe :=
  notMem_describe (by decide) (by decide) (by decide) bytes

theorem Bytes.oneLine_line {name : String} (single : OneLine name) (bytes : Bytes) :
    OneLine (PacketStack.lineText (name, bytes.describe)) :=
  .lineText single bytes.oneLine_describe

theorem OneLine.headline {title : String} (single : OneLine title) (length : Nat) : OneLine (headline title length) := by
  have digits : '\n' ∉ Nat.toDigits 10 length := Nondigit.notMem_toDigits (by decide) (by decide) (by decide) length
  rw [OneLine, toList_headline]
  simp [single, digits]

theorem Heading.rows_text {h : Heading} (legible : h.Legible) :
    rows h.text = headline h.title h.byteLength :: h.lines.map lineText := by
  refine rows_lines (List.cons_ne_nil _ _) fun row mem => ?_
  rcases List.mem_cons.mp mem with rfl | mem
  · exact legible.title.headline h.byteLength
  · obtain ⟨line, listed, rfl⟩ := List.mem_map.mp mem
    exact .lineText (legible.names line listed) (legible.values line listed)

namespace Ipv6.Header

theorem legible (h : Header) : h.fields.heading.Legible where
  title := show OneLine "IPv6 Header" by decide
  names := by
    simp only [Fields.heading, List.forall_mem_cons, List.not_mem_nil, false_imp_iff, implies_true]
    decide
  values := by
    simp only [Fields.heading, fields, List.forall_mem_cons, List.not_mem_nil, false_imp_iff, implies_true, and_true]
    refine ⟨?version, ?trafficClass, ?flowLabel, ?payloadLength, ?nextHeader, ?hopLimit, ?source, ?destination⟩
    case version => exact Number.oneLine_text (by decide) h.version
    case trafficClass => exact Number.oneLine_hexText 2 h.trafficClass.toNat
    case flowLabel => exact Number.oneLine_hexText 5 h.flowLabel.toNat
    case payloadLength => exact .append (Number.oneLine_text (by decide) h.payloadLength) (by decide)
    case nextHeader => exact Contract.notMem_describe (by decide) (by decide) (by decide) h.nextHeader.toNat
    case hopLimit => exact Number.oneLine_text (by decide) h.hopLimit
    case source => exact notMem_addressText (by decide) (by decide) h.source.bytes
    case destination => exact notMem_addressText (by decide) (by decide) h.destination.bytes

theorem eq_of_lines {h k : Header} (same : h.fields.heading.lines = k.fields.heading.lines) : h = k := by
  obtain ⟨version, trafficClass, flowLabel, payloadLength, nextHeader, hopLimit, source, destination⟩ := h
  obtain ⟨version', trafficClass', flowLabel', payloadLength', nextHeader', hopLimit', source', destination'⟩ := k
  simp only [Fields.heading, fields, List.cons.injEq, Prod.mk.injEq, true_and, and_true, Number.hexText_word_inj,
    addressText_inj, Contract.describe_inj, BitVec.toNat_inj] at same
  obtain ⟨v, rfl, rfl, l, rfl, m, rfl, rfl⟩ := same
  obtain rfl := (Number.text_word_inj (by decide)).mp v
  obtain rfl := (Number.text_word_inj (by decide)).mp ((String.append_left_inj _).mp l)
  obtain rfl := (Number.text_word_inj (by decide)).mp m
  rfl

end Ipv6.Header

namespace Udp.Header

theorem legible (h : Header) : h.fields.heading.Legible where
  title := show OneLine "UDP Header" by decide
  names := by
    simp only [Fields.heading, List.forall_mem_cons, List.not_mem_nil, false_imp_iff, implies_true]
    decide
  values := by
    simp only [Fields.heading, fields, List.forall_mem_cons, List.not_mem_nil, false_imp_iff, implies_true, and_true]
    refine ⟨?sourcePort, ?destinationPort, ?length, ?checksum⟩
    case sourcePort => exact Number.oneLine_text (by decide) h.sourcePort
    case destinationPort => exact Number.oneLine_text (by decide) h.destinationPort
    case length => exact .append (Number.oneLine_text (by decide) h.length) (by decide)
    case checksum => exact Number.oneLine_hexText 4 h.checksum.toNat

theorem eq_of_lines {h k : Header} (same : h.fields.heading.lines = k.fields.heading.lines) : h = k := by
  obtain ⟨source, destination, length, checksum⟩ := h
  obtain ⟨source', destination', length', checksum'⟩ := k
  simp only [Fields.heading, fields, List.cons.injEq, Prod.mk.injEq, true_and, and_true, Number.hexText_word_inj] at same
  obtain ⟨s, d, l, rfl⟩ := same
  obtain rfl := (Number.text_word_inj (by decide)).mp s
  obtain rfl := (Number.text_word_inj (by decide)).mp d
  obtain rfl := (Number.text_word_inj (by decide)).mp ((String.append_left_inj _).mp l)
  rfl

end Udp.Header

namespace Redirected.Header

theorem legible (h : Header) : h.fields.heading.Legible where
  title := show OneLine "IPv6 Neighbor Discovery Redirected Header Option" by decide
  names := by
    simp only [Fields.heading, List.forall_mem_cons, List.not_mem_nil, false_imp_iff, implies_true]
    decide
  values := by
    simp only [Fields.heading, fields, List.forall_mem_cons, List.not_mem_nil, false_imp_iff, implies_true, and_true]
    refine ⟨?type, ?length, ?reserved⟩
    case type => exact Contract.notMem_describe (by decide) (by decide) (by decide) Contract.redirectedType
    case length =>
      have narrow := h.length.isLt
      have small : h.length.toNat * 2 ^ 3 < Number.limit :=
        Nat.lt_of_lt_of_le (by omega) (show 2048 ≤ Number.limit by decide +kernel)
      have bytes : OneLine ((h.length.toNat : Number).doubled 3).text := by
        rw [Number.doubled_nat small]
        exact Number.notMem_text (by decide) (Nat.le_trans (by omega) (show 2048 ≤ Number.exactBelow by decide))
      exact (((Number.oneLine_text (by decide) h.length).append (by decide)).append bytes).append (by decide)
    case reserved => exact Bytes.oneLine_describe h.reserved.bytes

theorem eq_of_lines {h k : Header} (same : h.fields.heading.lines = k.fields.heading.lines) : h = k := by
  obtain ⟨length, ⟨reserved, size⟩⟩ := h
  obtain ⟨length', ⟨reserved', size'⟩⟩ := k
  simp only [Fields.heading, fields, List.cons.injEq, Prod.mk.injEq, true_and, and_true, Bytes.describe_inj] at same
  obtain ⟨-, line, rfl⟩ := same
  -- The length in bytes stands behind the length and a blank.
  have text (v : BitVec 8) (rest : String) : ((v.toNat : Number).text ++ " (" ++ rest ++ " bytes)").toList =
      (v.toNat : Number).text.toList ++ ' ' :: ('(' :: (rest.toList ++ " bytes)".toList)) := by simp
  have digits (v : BitVec 8) : ' ' ∉ (v.toNat : Number).text.toList :=
    Number.notMem_text (by decide) (Number.toNat_le_exactBelow (by decide) v)
  have whole := String.toList_inj.mpr line
  simp only [ToString.toString, text] at whole
  have front := front_inj (digits length) (digits length') (by simp) (by simp) whole
  obtain rfl := (Number.text_word_inj (by decide)).mp (String.toList_inj.mp front)
  rfl

end Redirected.Header

namespace Ssh.Header

theorem legible (h : Header) : h.fields.heading.Legible where
  title := show OneLine "SSH2 Binary Packet Header" by decide
  names := by
    simp only [Fields.heading, List.forall_mem_cons, List.not_mem_nil, false_imp_iff, implies_true]
    decide
  values := by
    simp only [Fields.heading, fields, List.forall_mem_cons, List.not_mem_nil, false_imp_iff, implies_true, and_true]
    exact ⟨Number.oneLine_text (by decide) h.packetLength, Number.oneLine_text (by decide) h.paddingLength⟩

theorem eq_of_lines {h k : Header} (same : h.fields.heading.lines = k.fields.heading.lines) : h = k := by
  obtain ⟨packetLength, paddingLength⟩ := h
  obtain ⟨packetLength', paddingLength'⟩ := k
  simp only [Fields.heading, fields, List.cons.injEq, Prod.mk.injEq, true_and, and_true] at same
  obtain ⟨packet, padding⟩ := same
  obtain rfl := (Number.text_word_inj (by decide)).mp packet
  obtain rfl := (Number.text_word_inj (by decide)).mp padding
  rfl

end Ssh.Header

end PacketStack
