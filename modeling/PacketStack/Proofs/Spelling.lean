/-
What a value is written as tells the value.

Digits read back as their number, also behind zeros (`readHex_leftpad`), and none of them is a blank, a colon or the end
of a line. So wherever values are written side by side with such a sign between them, the text falls apart into them again
(`splitOn`): a byte string at its blanks, an address at its colons, a number at the blank before its name.
-/
import Mathlib.Data.List.Basic
import PacketStack.Ipv6.Header

namespace PacketStack

/-! ## Digits -/

/-- A character that is no digit, also not of a hexadecimal number. -/
abbrev Nondigit (c : Char) : Prop := ∀ d < 16, Nat.digitChar d ≠ c

theorem Nondigit.notMem_toDigits {c : Char} (other : Nondigit c) {b : Nat} (base : 1 < b) (small : b ≤ 16) (n : Nat) :
    c ∉ Nat.toDigits b n := by
  induction n using Nat.strongRecOn with
  | ind n ih =>
    rw [Nat.toDigits_eq_if base]
    by_cases single : n < b
    · rw [if_pos single, List.mem_singleton]
      exact fun same => other n (by omega) same.symm
    · have rest : n / b < n := Nat.div_lt_self (by omega) base
      have last : n % b < b := Nat.mod_lt n (by omega)
      rw [if_neg single, List.mem_append, List.mem_singleton]
      intro mem
      rcases mem with front | same
      · exact ih _ rest front
      · exact other (n % b) (by omega) same.symm

namespace Number

/-- The value of a hexadecimal digit. -/
def digitValue (c : Char) : Nat := if c.isDigit then c.toNat - '0'.toNat else c.toNat - 'a'.toNat + 10

def readHex (digits : List Char) : Nat := digits.foldl (fun n c => n * 16 + digitValue c) 0

theorem digitValue_digitChar : ∀ d < 16, digitValue (Nat.digitChar d) = d := by decide

theorem readHex_concat (digits : List Char) (c : Char) : readHex (digits ++ [c]) = readHex digits * 16 + digitValue c := by
  simp only [readHex, List.foldl_append, List.foldl_cons, List.foldl_nil]

theorem readHex_toDigits (n : Nat) : readHex (Nat.toDigits 16 n) = n := by
  induction n using Nat.strongRecOn with
  | ind n ih =>
    rw [Nat.toDigits_eq_if (by decide)]
    by_cases single : n < 16
    · rw [if_pos single, readHex, List.foldl_cons, List.foldl_nil, digitValue_digitChar n single, Nat.zero_mul, Nat.zero_add]
    · rw [if_neg single, readHex_concat, ih _ (by omega), digitValue_digitChar _ (by omega)]
      omega

/-- Zeros in front do not count. -/
theorem readHex_leftpad (width : Nat) (digits : List Char) : readHex (digits.leftpad width '0') = readHex digits := by
  have zeros (k : Nat) : (List.replicate k '0').foldl (fun n c => n * 16 + digitValue c) 0 = 0 := by
    induction k with
    | zero => rfl
    | succ k ih => exact ih
  rw [readHex, List.leftpad, List.foldl_append, zeros, readHex]

theorem toDigits_inj {m n : Nat} : Nat.toDigits 16 m = Nat.toDigits 16 n ↔ m = n := by
  refine ⟨fun same => ?_, fun same => same ▸ rfl⟩
  rw [← readHex_toDigits m, same, readHex_toDigits]

theorem toList_hexText (width n : Nat) :
    ((n : Number).hexText width).toList = '0' :: 'x' :: (Nat.toDigits 16 n).leftpad width '0' := by
  have positive : ¬ (n : Int) < 0 := by omega
  simp only [hexText, hexadecimal, signed, if_neg positive, hexNat, Int.natAbs_natCast, String.toList_append,
    String.toList_ofList]
  rfl

theorem hexText_inj {width m n : Nat} : (m : Number).hexText width = (n : Number).hexText width ↔ m = n := by
  refine ⟨fun same => ?_, fun same => same ▸ rfl⟩
  rw [← String.toList_inj, toList_hexText, toList_hexText] at same
  have digits := (List.cons.inj (List.cons.inj same).2).2
  calc
    m = readHex ((Nat.toDigits 16 m).leftpad width '0') := by rw [readHex_leftpad, readHex_toDigits]
    _ = readHex ((Nat.toDigits 16 n).leftpad width '0') := by rw [digits]
    _ = n := by rw [readHex_leftpad, readHex_toDigits]

theorem decimal_nat {n : Nat} (h : n ≤ exactBelow) : (n : Number).decimal = Nat.toDigits 10 n := by
  rcases Nat.lt_or_eq_of_le h with below | rfl
  · have positive : ¬ (n : Int) < 0 := Int.not_lt.mpr (Int.natCast_nonneg n)
    rw [decimal, signed, if_neg positive, writeNat, Int.natAbs_natCast, if_pos below]
  · -- The bound itself is the first number whose digits are searched for.
    decide +kernel

theorem decimal_inj {m n : Nat} (hm : m ≤ exactBelow) (hn : n ≤ exactBelow) :
    (m : Number).decimal = (n : Number).decimal ↔ m = n := by
  refine ⟨fun same => ?_, fun same => same ▸ rfl⟩
  rw [decimal_nat hm, decimal_nat hn] at same
  calc
    m = Nat.ofDigitChars 10 (Nat.toDigits 10 m) 0 := Nat.ofDigitChars_ten_toDigits.symm
    _ = Nat.ofDigitChars 10 (Nat.toDigits 10 n) 0 := by rw [same]
    _ = n := Nat.ofDigitChars_ten_toDigits

theorem text_inj {m n : Nat} (hm : m ≤ exactBelow) (hn : n ≤ exactBelow) :
    (m : Number).text = (n : Number).text ↔ m = n := by
  rw [text, text, String.ofList_inj, decimal_inj hm hn]

section
variable {c : Char} (other : Nondigit c)
include other

theorem notMem_text {n : Nat} (h : n ≤ exactBelow) : c ∉ (n : Number).text.toList := by
  rw [text, String.toList_ofList, decimal_nat h]
  exact other.notMem_toDigits (by decide) (by decide) n

theorem notMem_hexText (cross : c ≠ 'x') (width n : Nat) : c ∉ ((n : Number).hexText width).toList := by
  have zero : c ≠ '0' := fun same => other 0 (by decide) same.symm
  rw [toList_hexText, List.leftpad]
  simp only [List.mem_cons, List.mem_append, List.mem_replicate, not_or]
  exact ⟨zero, cross, fun padding => zero padding.2, other.notMem_toDigits (by decide) (by decide) n⟩

end

end Number

/-! ## Values side by side -/

/-- Parts with a separator between them that none of them has are found again. -/
theorem splitOn_separated {c : Char} {parts : List String} (some : parts ≠ []) (free : ∀ part ∈ parts, c ∉ part.toList) :
    ((String.singleton c).intercalate parts).toList.splitOn c = parts.map String.toList := by
  rw [String.toList_intercalate, String.toList_singleton]
  refine List.splitOn_intercalate c (fun part mem => ?_) (by simpa using some)
  obtain ⟨text, listed, rfl⟩ := List.mem_map.mp mem
  exact free text listed

theorem notMem_separated {c : Char} {separator : String} {parts : List String} (between : c ∉ separator.toList)
    (free : ∀ part ∈ parts, c ∉ part.toList) : c ∉ (separator.intercalate parts).toList := by
  induction parts with
  | nil => simp
  | cons part rest ih =>
    cases rest with
    | nil => simpa using free
    | cons next rest =>
      have tail := ih fun part mem => free part (List.mem_cons_of_mem _ mem)
      rw [String.intercalate_cons_cons, String.toList_append, String.toList_append]
      simp only [List.mem_append, not_or]
      exact ⟨⟨free part List.mem_cons_self, between⟩, tail⟩

namespace Bytes

theorem toList_pair (b : UInt8) : (pair b).toList = [Nat.digitChar (b.toNat / 16), Nat.digitChar (b.toNat % 16)] :=
  String.toList_ofList

theorem pair_inj {a b : UInt8} : pair a = pair b ↔ a = b := by
  have reads (b : UInt8) : Number.readHex (pair b).toList = b.toNat := by
    have := b.toNat_lt
    rw [toList_pair, Number.readHex, List.foldl_cons, List.foldl_cons, List.foldl_nil,
      Number.digitValue_digitChar _ (by omega), Number.digitValue_digitChar _ (by omega)]
    omega
  refine ⟨fun same => UInt8.toNat_inj.mp ?_, fun same => same ▸ rfl⟩
  rw [← reads a, same, reads b]

theorem notMem_pair {c : Char} (other : Nondigit c) (b : UInt8) : c ∉ (pair b).toList := by
  have := b.toNat_lt
  rw [toList_pair]
  simp only [List.mem_cons, List.not_mem_nil, or_false, not_or]
  exact ⟨fun same => other _ (by omega) same.symm, fun same => other _ (by omega) same.symm⟩

/-- Split at its blanks, a described byte string is its pairs of digits, or the one word for none. -/
theorem splitOn_describe (bytes : Bytes) :
    bytes.describe.toList.splitOn ' ' =
      if bytes.isEmpty then ["(none)".toList] else (bytes.map pair).map String.toList := by
  unfold describe
  by_cases none : bytes.isEmpty = true
  · rw [if_pos none, if_pos none]
    decide
  · rw [if_neg none, if_neg none, spaced, hex]
    refine splitOn_separated (by simpa using none) fun part mem => ?_
    obtain ⟨b, -, rfl⟩ := List.mem_map.mp mem
    exact notMem_pair (by decide) b

theorem describe_inj {a b : Bytes} : a.describe = b.describe ↔ a = b := by
  refine ⟨fun same => ?_, fun same => same ▸ rfl⟩
  have words := splitOn_describe a
  rw [same, splitOn_describe b] at words
  -- The word for none is longer than a pair of digits.
  have word (b : UInt8) : "(none)".toList ≠ (pair b).toList := fun equal => by
    have length : "(none)".toList.length = 2 := by rw [equal, toList_pair]; rfl
    exact absurd length (by decide)
  cases a with
  | nil =>
    cases b with
    | nil => rfl
    | cons y b => exact absurd (List.cons.inj words).1.symm (word y)
  | cons x a =>
    cases b with
    | nil => exact absurd (List.cons.inj words).1 (word x)
    | cons y b =>
      have pairs := (List.map_inj_right fun _ _ => String.toList_inj.mp).mp words
      exact ((List.map_inj_right fun _ _ => pair_inj.mp).mp pairs).symm

theorem notMem_describe {c : Char} (other : Nondigit c) (blank : c ≠ ' ') (word : c ∉ "(none)".toList) (bytes : Bytes) :
    c ∉ bytes.describe.toList := by
  unfold describe
  by_cases none : bytes.isEmpty = true
  · rw [if_pos none]
    exact word
  · rw [if_neg none, spaced, hex]
    refine notMem_separated (by simpa using blank) fun part mem => ?_
    obtain ⟨b, -, rfl⟩ := List.mem_map.mp mem
    exact notMem_pair other b

end Bytes

namespace Ipv6

/-- Groups of whole pairs of bytes tell the bytes. -/
theorem groups_inj : ∀ {a b : Bytes}, a.length % 2 = 0 → b.length % 2 = 0 → groups a = groups b → a = b
  | [], [], _, _, _ => rfl
  | [], [_], _, odd, _ => by simp at odd
  | [], _ :: _ :: _, _, _, same => by simp [groups] at same
  | [_], _, odd, _, _ => by simp at odd
  | _ :: _ :: _, [], _, _, same => by simp [groups] at same
  | _ :: _ :: _, [_], _, odd, _ => by simp at odd
  | x :: x' :: a, y :: y' :: b, ha, hb, same => by
    have := x.toNat_lt
    have := x'.toNat_lt
    have := y.toNat_lt
    have := y'.toNat_lt
    simp only [groups, List.cons.injEq, String.ofList_inj, Number.toDigits_inj] at same
    obtain ⟨word, rest⟩ := same
    have high : x = y := UInt8.toNat_inj.mp (by omega)
    have low : x' = y' := UInt8.toNat_inj.mp (by omega)
    have below : a = b := groups_inj (by simpa [Nat.add_assoc] using ha) (by simpa [Nat.add_assoc] using hb) rest
    rw [high, low, below]

theorem notMem_groups {c : Char} (other : Nondigit c) (bytes : Bytes) : ∀ group ∈ groups bytes, c ∉ group.toList := by
  induction bytes using groups.induct with
  | case1 high low rest ih =>
    intro group mem
    rw [groups, List.mem_cons] at mem
    rcases mem with rfl | mem
    · rw [String.toList_ofList]
      exact other.notMem_toDigits (by decide) (by decide) _
    · exact ih group mem
  | case2 bytes short =>
    intro group mem
    rw [groups] at mem
    · cases mem
    · exact short

theorem addressText_inj {a b : Address} : addressText a.bytes = addressText b.bytes ↔ a = b := by
  have pieces (a : Address) : (addressText a.bytes).toList.splitOn ':' = (groups a.bytes).map String.toList := by
    refine splitOn_separated (fun none => ?_) (notMem_groups (by decide) _)
    obtain ⟨x, x', rest, bytes⟩ : ∃ x x' rest, a.bytes = x :: x' :: rest := by
      match a.bytes, a.size with
      | x :: x' :: rest, _ => exact ⟨x, x', rest, rfl⟩
    rw [bytes, groups] at none
    cases none
  have even (a : Address) : a.bytes.length % 2 = 0 := by rw [a.size]; rfl
  refine ⟨fun same => ?_, fun same => same ▸ rfl⟩
  have split := pieces a
  rw [same, pieces b] at split
  have groups := (List.map_inj_right fun _ _ => String.toList_inj.mp).mp split
  obtain ⟨bytes, size⟩ := a
  obtain ⟨bytes', size'⟩ := b
  obtain rfl : bytes' = bytes := groups_inj (even ⟨bytes', size'⟩) (even ⟨bytes, size⟩) groups
  rfl

theorem notMem_addressText {c : Char} (other : Nondigit c) (colon : c ≠ ':') (bytes : Bytes) :
    c ∉ (addressText bytes).toList :=
  notMem_separated (by simpa using colon) (notMem_groups other bytes)

end Ipv6

/-- What stands in front of the first separator, or of the end, is found again. -/
theorem front_inj {c : Char} {s t u v : List Char} (hs : c ∉ s) (ht : c ∉ t) (hu : ∀ x ∈ u.head?, x = c)
    (hv : ∀ x ∈ v.head?, x = c) (same : s ++ u = t ++ v) : s = t := by
  have front {s u : List Char} (hs : c ∉ s) (hu : ∀ x ∈ u.head?, x = c) : (s ++ u).takeWhile (· ≠ c) = s := by
    have kept : ∀ x ∈ s, decide (x ≠ c) = true := fun x mem => decide_eq_true fun same => hs (same ▸ mem)
    rw [List.takeWhile_append_of_pos kept]
    cases u with
    | nil => simp
    | cons x u => simp [hu x rfl]
  rw [← front hs hu, same, front ht hv]

namespace Contract

/-- A name stands behind a blank, in parentheses. -/
theorem toList_describe (c : Contract) (n : Nat) : ∃ rest : List Char,
    (c.describe n).toList = ((n : Number).hexText (c.bits / 4)).toList ++ rest ∧
    (rest = [] ∨ ∃ entry ∈ c.names, rest = ' ' :: '(' :: (entry.1.toList ++ [')'])) := by
  unfold describe
  simp only
  split
  · next name found =>
    obtain ⟨entry, first, rfl⟩ := Option.map_eq_some_iff.mp found
    refine ⟨_, ?_, .inr ⟨entry, List.mem_of_find?_eq_some first, rfl⟩⟩
    simp only [String.toList_append, List.append_assoc]
    rfl
  · exact ⟨[], by simp, .inl rfl⟩

theorem describe_inj (c : Contract) {m n : Nat} : c.describe m = c.describe n ↔ m = n := by
  refine ⟨fun same => ?_, fun same => same ▸ rfl⟩
  obtain ⟨u, left, hu⟩ := c.toList_describe m
  obtain ⟨v, right, hv⟩ := c.toList_describe n
  have digits (n : Nat) : ' ' ∉ ((n : Number).hexText (c.bits / 4)).toList :=
    Number.notMem_hexText (by decide) (by decide) _ n
  have blank {rest : List Char}
      (h : rest = [] ∨ ∃ entry ∈ c.names, rest = ' ' :: '(' :: (entry.1.toList ++ [')'])) : ∀ x ∈ rest.head?, x = ' ' := by
    rcases h with rfl | ⟨entry, -, rfl⟩ <;> simp
  rw [same, right] at left
  exact (Number.hexText_inj.mp (String.toList_inj.mp (front_inj (digits n) (digits m) (blank hv) (blank hu) left))).symm

theorem notMem_describe {c : Contract} {x : Char} (other : Nondigit x) (signs : x ∉ ['x', ' ', '(', ')'])
    (names : ∀ entry ∈ c.names, x ∉ entry.1.toList) (n : Nat) : x ∉ (c.describe n).toList := by
  simp only [List.mem_cons, List.not_mem_nil, or_false, not_or] at signs
  obtain ⟨cross, blank, left, right⟩ := signs
  obtain ⟨rest, text, h⟩ := c.toList_describe n
  rw [text, List.mem_append, not_or]
  refine ⟨Number.notMem_hexText other cross _ n, ?_⟩
  rcases h with rfl | ⟨entry, listed, rfl⟩
  · exact List.not_mem_nil
  · simp [blank, left, right, names entry listed]

end Contract
end PacketStack
