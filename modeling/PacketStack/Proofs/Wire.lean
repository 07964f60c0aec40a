/-
Headers on the wire, from the reader's side: whatever bytes a header is read from, they are the ones the
header writes (`eq_wire_of_read?`), reading fails exactly where there are too few bytes (`read?_eq_none_iff`),
and what was read are the numbers that stand at fixed places (`fields_of_read?`).

With `read?_wire` of the header modules this makes reading and writing inverse to each other: no bit of a
header is lost, and none is made up.
-/
import Mathlib.Data.List.Induction
import PacketStack.Ipv6.Header
import PacketStack.Udp.Header
import PacketStack.Redirected.Header
import PacketStack.Ssh.Header

namespace PacketStack

namespace Bytes

/-- The number in `size` bytes from a place on, big-endian. -/
def fieldAt (bytes : Bytes) (place size : Nat) : Nat := toNat ((bytes.drop place).take size)

theorem toNat_two (a b : UInt8) : toNat [a, b] = a.toNat * 256 + b.toNat := by
  simp only [toNat, List.foldl_cons, List.foldl_nil, Nat.zero_mul, Nat.zero_add]

theorem toNat_four (a b c d : UInt8) :
    toNat [a, b, c, d] = ((a.toNat * 256 + b.toNat) * 256 + c.toNat) * 256 + d.toNat := by
  simp only [toNat, List.foldl_cons, List.foldl_nil, Nat.zero_mul, Nat.zero_add]

/-- Bytes are the word of their value, leading zeros included. -/
theorem word_toNat {size : Nat} {bytes : Bytes} (h : bytes.length = size) : word size (toNat bytes) = bytes := by
  subst h
  induction bytes using List.reverseRecOn with
  | nil => rfl
  | append_singleton bytes b ih =>
    have hb := b.toNat_lt
    have front : (toNat bytes * 256 + b.toNat) / 256 = toNat bytes := by omega
    have last : UInt8.ofNat (toNat bytes * 256 + b.toNat) = b := by
      apply UInt8.toNat_inj.mp
      rw [UInt8.toNat_ofNat']
      omega
    rw [List.length_append, List.length_singleton, toNat_concat, word, front, last, ih]

theorem toNat_lt {size : Nat} {bytes : Bytes} (h : bytes.length = size) : toNat bytes < 2 ^ (8 * size) := by
  have value := toNat_word size (toNat bytes)
  rw [word_toNat h] at value
  rw [value, Nat.pow_mul]
  exact Nat.mod_lt _ (Nat.pow_pos (by decide))

theorem toNat_two_lt (a b : UInt8) : toNat [a, b] < 0x10000 := by
  have := a.toNat_lt
  have := b.toNat_lt
  rw [toNat_two]
  omega

theorem exists_two {bytes : Bytes} (h : 2 ≤ bytes.length) : ∃ a b rest, bytes = a :: b :: rest := by
  rcases bytes with _ | ⟨a, _ | ⟨b, rest⟩⟩
  · cases h
  · simp at h
  · exact ⟨a, b, rest, rfl⟩

theorem exists_five {bytes : Bytes} (h : 5 ≤ bytes.length) :
    ∃ a b c d e rest, bytes = a :: b :: c :: d :: e :: rest := by
  obtain ⟨a, b, rest, rfl⟩ := exists_two (Nat.le_trans (by decide) h)
  simp only [List.length_cons, Nat.reduceLeDiff] at h
  obtain ⟨c, d, rest, rfl⟩ := exists_two (Nat.le_of_succ_le h)
  rcases rest with _ | ⟨e, rest⟩
  · simp at h
  · exact ⟨a, b, c, d, e, rest, rfl⟩

theorem exists_eight {bytes : Bytes} (h : 8 ≤ bytes.length) :
    ∃ a b c d e f g i rest, bytes = a :: b :: c :: d :: e :: f :: g :: i :: rest := by
  obtain ⟨a, b, c, d, e, rest, rfl⟩ := exists_five (Nat.le_trans (by decide) h)
  simp only [List.length_cons, Nat.reduceLeDiff] at h
  obtain ⟨f, g, rest, rfl⟩ := exists_two (Nat.le_of_succ_le h)
  rcases rest with _ | ⟨i, rest⟩
  · simp at h
  · exact ⟨a, b, c, d, e, f, g, i, rest, rfl⟩

theorem take_drop_of_eq_append {n : Nat} {raw front rest : Bytes} (h : raw = front ++ rest) (hn : front.length = n) :
    front = raw.take n ∧ rest = raw.drop n := by
  rw [h, List.take_left' hn, List.drop_left' hn]
  exact ⟨rfl, rfl⟩

end Bytes

theorem Field.octets_toNat {size : Nat} {bytes : Bytes} (h : bytes.length = size) :
    Field.octets size (Bytes.toNat bytes : Number) = bytes := by
  rw [Field.octets, Number.lowBits_nat, Nat.mod_eq_of_lt (Bytes.toNat_lt h), Bytes.word_toNat h]

theorem Block.length_of_cut {n : Nat} {bytes rest : Bytes} {block : Block n} (h : cut n bytes = some (block, rest)) :
    bytes.length = n + rest.length := by
  rw [append_of_cut h, List.length_append, block.size]

/-! ## IPv6 -/

namespace Ipv6.Header

theorem read?_eq_none_iff {raw : Bytes} : read? raw = none ↔ raw.length < headerSize := by
  unfold read?
  split
  · next b₀ b₁ b₂ b₃ l₀ l₁ next hops rest =>
    simp only [Option.bind_eq_bind, List.length_cons, headerSize]
    cases hs : Block.cut addressSize rest with
    | none =>
      have short := Block.cut_eq_none_iff.mp hs
      simp only [Option.bind_none, addressSize, true_iff] at *
      omega
    | some cut =>
      obtain ⟨source, rest₁⟩ := cut
      have behind := Block.length_of_cut hs
      simp only [Option.bind_some]
      cases hd : Block.cut addressSize rest₁ with
      | none =>
        have short := Block.cut_eq_none_iff.mp hd
        simp only [Option.bind_none, addressSize, true_iff] at *
        omega
      | some cut =>
        obtain ⟨destination, rest₂⟩ := cut
        have behind' := Block.length_of_cut hd
        simp only [Option.bind_some, addressSize, reduceCtorEq, false_iff] at *
        omega
  · next short =>
    refine iff_of_true rfl (Nat.lt_of_not_le fun long => ?_)
    obtain ⟨_, _, _, _, _, _, _, _, _, present⟩ := Bytes.exists_eight (Nat.le_trans (by decide) long)
    exact short _ _ _ _ _ _ _ _ _ present

/-- What a header was read from. -/
theorem cut_of_read? {raw rest : Bytes} {h : Header} (hr : read? raw = some (h, rest)) :
    ∃ b₀ b₁ b₂ b₃ l₀ l₁ next hops,
      raw = b₀ :: b₁ :: b₂ :: b₃ :: l₀ :: l₁ :: next :: hops :: (h.source.bytes ++ (h.destination.bytes ++ rest)) ∧
      h.version = BitVec.ofNat 4 (Bytes.toNat [b₀, b₁, b₂, b₃] / 0x10000000) ∧
      h.trafficClass = BitVec.ofNat 8 (Bytes.toNat [b₀, b₁, b₂, b₃] / 0x100000) ∧
      h.flowLabel = BitVec.ofNat 20 (Bytes.toNat [b₀, b₁, b₂, b₃]) ∧
      h.payloadLength = BitVec.ofNat 16 (Bytes.toNat [l₀, l₁]) ∧
      h.nextHeader = next.toBitVec ∧ h.hopLimit = hops.toBitVec := by
  unfold read? at hr
  split at hr
  · next b₀ b₁ b₂ b₃ l₀ l₁ next hops rest' =>
    simp only [Option.bind_eq_bind, Option.bind_eq_some_iff, Option.some.injEq, Prod.exists, Prod.mk.injEq] at hr
    obtain ⟨source, rest₁, hs, destination, rest₂, hd, rfl, rfl⟩ := hr
    rw [Block.append_of_cut hs, Block.append_of_cut hd]
    exact ⟨b₀, b₁, b₂, b₃, l₀, l₁, next, hops, rfl, rfl, rfl, rfl, rfl, rfl, rfl⟩
  · cases hr

theorem eq_wire_of_read? {raw rest : Bytes} {h : Header} (hr : read? raw = some (h, rest)) :
    raw = h.fields.wire.flatten ++ rest := by
  obtain ⟨b₀, b₁, b₂, b₃, l₀, l₁, next, hops, rfl, version, trafficClass, flowLabel, payloadLength, nextHeader, hopLimit⟩ :=
    cut_of_read? hr
  have first : h.fields.firstWord = Bytes.toNat [b₀, b₁, b₂, b₃] := by
    have := b₀.toNat_lt
    have := b₁.toNat_lt
    have := b₂.toNat_lt
    have := b₃.toNat_lt
    simp only [firstWord_fields, version, trafficClass, flowLabel, Bytes.toNat_four, BitVec.toNat_ofNat]
    omega
  have length : h.fields.payloadLength = (Bytes.toNat [l₀, l₁] : Number) := by
    have := l₀.toNat_lt
    have := l₁.toNat_lt
    simp only [fields, payloadLength, BitVec.toNat_ofNat, Bytes.toNat_two]
    rw [Nat.mod_eq_of_lt (by omega)]
  have nextHeader : h.fields.nextHeader = (next.toNat : Number) := by rw [fields, nextHeader]; rfl
  have hopLimit : h.fields.hopLimit = (hops.toNat : Number) := by rw [fields, hopLimit]; rfl
  have word : Bytes.word 4 (Bytes.toNat [b₀, b₁, b₂, b₃]) = [b₀, b₁, b₂, b₃] := Bytes.word_toNat rfl
  have octets : Field.octets 2 (Bytes.toNat [l₀, l₁] : Number) = [l₀, l₁] := Field.octets_toNat rfl
  rw [Fields.wire, first, length, nextHeader, hopLimit, word, octets]
  simp only [Field.octets_one, UInt8.ofNat_toNat, fields, List.flatten_cons, List.flatten_nil, List.cons_append,
    List.nil_append, List.append_nil, List.append_assoc]

theorem fields_of_read? {raw rest : Bytes} {h : Header} (hr : read? raw = some (h, rest)) :
    h.version.toNat = raw.fieldAt 0 1 / 16 ∧ h.payloadLength.toNat = raw.fieldAt 4 2 ∧
      h.nextHeader.toNat = raw.fieldAt 6 1 := by
  obtain ⟨b₀, b₁, b₂, b₃, l₀, l₁, next, hops, rfl, version, -, -, payloadLength, nextHeader, -⟩ := cut_of_read? hr
  have := b₀.toNat_lt
  have := b₁.toNat_lt
  have := b₂.toNat_lt
  have := b₃.toNat_lt
  have := l₀.toNat_lt
  have := l₁.toNat_lt
  simp only [version, payloadLength, nextHeader, Bytes.fieldAt, List.drop_zero, List.drop_succ_cons, List.take_succ_cons,
    List.take_zero, Bytes.toNat_one, Bytes.toNat_two, Bytes.toNat_four, BitVec.toNat_ofNat, UInt8.toNat_toBitVec, and_true]
  omega

theorem decode_wire {h : Header} (version : h.version.toNat = 6) (rest : Bytes) :
    decode (h.fields.wire.flatten ++ rest) = .ok (h, rest) := by
  simp only [decode, read?_wire, version, Ipv6.version, if_true]

theorem length_wire (h : Header) : h.fields.wire.flatten.length = headerSize := by
  have source : h.fields.source.length = 16 := h.source.size
  have destination : h.fields.destination.length = 16 := h.destination.size
  simp only [Fields.wire, List.flatten_cons, List.flatten_nil, List.append_nil, List.length_append, Bytes.length_word,
    Field.length_octets, source, destination, headerSize]

/-- Everything that reading an IPv6 header can come to. -/
theorem decode_cases (raw : Bytes) :
    (raw.length < 40 ∧ decode raw = .error (.ipv6HeaderShort raw)) ∨
    (40 ≤ raw.length ∧ raw.fieldAt 0 1 / 16 ≠ 6 ∧ ∃ version, decode raw = .error (.ipv6Version version raw)) ∨
    (40 ≤ raw.length ∧ raw.fieldAt 0 1 / 16 = 6 ∧ ∃ h, decode raw = .ok (h, raw.drop 40) ∧
      h.fields.wire.flatten = raw.take 40 ∧ h.payloadLength.toNat = raw.fieldAt 4 2 ∧
      h.nextHeader.toNat = raw.fieldAt 6 1) := by
  cases hr : read? raw with
  | none => exact .inl ⟨read?_eq_none_iff.mp hr, by rw [decode, hr]⟩
  | some read =>
    obtain ⟨h, rest⟩ := read
    have long : 40 ≤ raw.length := Nat.le_of_not_lt fun short => by simp [read?_eq_none_iff.mpr short] at hr
    obtain ⟨version, payloadLength, nextHeader⟩ := fields_of_read? hr
    obtain ⟨front, behind⟩ : h.fields.wire.flatten = raw.take 40 ∧ rest = raw.drop 40 :=
      Bytes.take_drop_of_eq_append (eq_wire_of_read? hr) (length_wire h)
    by_cases six : raw.fieldAt 0 1 / 16 = 6
    · refine .inr (.inr ⟨long, six, h, ?_, front, payloadLength, nextHeader⟩)
      rw [decode, hr, ← behind]
      exact if_pos (version.trans six)
    · refine .inr (.inl ⟨long, six, h.version.toNat, ?_⟩)
      rw [decode, hr]
      exact if_neg (version ▸ six)

end Ipv6.Header

/-! ## UDP -/

namespace Udp.Header

theorem read?_eq_none_iff {raw : Bytes} : read? raw = none ↔ raw.length < headerSize := by
  unfold read?
  split
  · simp only [List.length_cons, headerSize, reduceCtorEq, false_iff]
    omega
  · next short =>
    refine iff_of_true rfl (Nat.lt_of_not_le fun long => ?_)
    obtain ⟨_, _, _, _, _, _, _, _, _, present⟩ := Bytes.exists_eight long
    exact short _ _ _ _ _ _ _ _ _ present

theorem eq_wire_of_read? {raw rest : Bytes} {h : Header} (hr : read? raw = some (h, rest)) :
    raw = h.fields.wire.flatten ++ rest := by
  have half (a b : UInt8) : Field.octets 2 ((BitVec.ofNat 16 (Bytes.toNat [a, b])).toNat : Number) = [a, b] := by
    have whole : Bytes.toNat [a, b] % 0x10000 = Bytes.toNat [a, b] := Nat.mod_eq_of_lt (Bytes.toNat_two_lt a b)
    rw [BitVec.toNat_ofNat, whole]
    exact Field.octets_toNat rfl
  unfold read? at hr
  split at hr
  · cases hr
    simp only [Fields.wire, fields, half, List.flatten_cons, List.flatten_nil, List.cons_append, List.nil_append,
      List.append_nil]
  · cases hr

theorem fields_of_read? {raw rest : Bytes} {h : Header} (hr : read? raw = some (h, rest)) :
    h.length.toNat = raw.fieldAt 4 2 := by
  unfold read? at hr
  split at hr
  · cases hr
    exact (BitVec.toNat_ofNat ..).trans (Nat.mod_eq_of_lt (Bytes.toNat_lt rfl))
  · cases hr

theorem decode_wire (h : Header) (rest : Bytes) : decode (h.fields.wire.flatten ++ rest) = .ok (h, rest) := by
  rw [decode, read?_wire]

theorem length_wire (h : Header) : h.fields.wire.flatten.length = headerSize := by
  simp only [Fields.wire, List.flatten_cons, List.flatten_nil, List.append_nil, List.length_append, Field.length_octets,
    headerSize]

/-- Everything that reading a UDP header can come to. -/
theorem decode_cases (raw : Bytes) :
    (raw.length < 8 ∧ decode raw = .error (.udpHeaderShort raw)) ∨
    (8 ≤ raw.length ∧ ∃ h, decode raw = .ok (h, raw.drop 8) ∧ h.fields.wire.flatten = raw.take 8 ∧
      h.length.toNat = raw.fieldAt 4 2) := by
  cases hr : read? raw with
  | none => exact .inl ⟨read?_eq_none_iff.mp hr, by rw [decode, hr]⟩
  | some read =>
    obtain ⟨h, rest⟩ := read
    have long : 8 ≤ raw.length := Nat.le_of_not_lt fun short => by simp [read?_eq_none_iff.mpr short] at hr
    obtain ⟨front, behind⟩ : h.fields.wire.flatten = raw.take 8 ∧ rest = raw.drop 8 :=
      Bytes.take_drop_of_eq_append (eq_wire_of_read? hr) (length_wire h)
    exact .inr ⟨long, h, by rw [decode, hr, behind], front, fields_of_read? hr⟩

end Udp.Header

/-! ## The redirected header option -/

namespace Redirected.Header

theorem read?_eq_none_iff {raw : Bytes} : read? raw = none ↔ raw.length < fixedSize := by
  unfold read?
  split
  · next type length rest =>
    cases hc : Block.cut 6 rest with
    | none =>
      have short := Block.cut_eq_none_iff.mp hc
      simp only [Option.bind_eq_bind, Option.bind_none, List.length_cons, fixedSize, true_iff]
      omega
    | some reserved =>
      have behind := Block.length_of_cut hc
      simp only [Option.bind_eq_bind, Option.bind_some, List.length_cons, fixedSize, reduceCtorEq, false_iff]
      omega
  · next short =>
    refine iff_of_true rfl (Nat.lt_of_not_le fun long => ?_)
    obtain ⟨_, _, _, present⟩ := Bytes.exists_two (Nat.le_trans (by decide) long)
    exact short _ _ _ present

theorem length_of_read? {raw rest : Bytes} {type : UInt8} {h : Header} (hr : read? raw = some (type, h, rest)) :
    raw.length = fixedSize + rest.length := by
  unfold read? at hr
  split at hr
  · simp only [Option.bind_eq_bind, Option.bind_eq_some_iff, Option.some.injEq, Prod.exists, Prod.mk.injEq] at hr
    obtain ⟨reserved, behind, hc, -, -, rfl⟩ := hr
    have size := Block.length_of_cut hc
    simp only [List.length_cons, fixedSize]
    omega
  · cases hr

theorem eq_wire_of_read? {raw rest : Bytes} {type : UInt8} {h : Header} (hr : read? raw = some (type, h, rest))
    (ht : type.toNat = Contract.redirectedType) : raw = h.fields.wire.flatten ++ rest := by
  unfold read? at hr
  split at hr
  · next type' length rest' =>
    simp only [Option.bind_eq_bind, Option.bind_eq_some_iff, Option.some.injEq, Prod.exists, Prod.mk.injEq] at hr
    obtain ⟨reserved, behind, hc, rfl, rfl, rfl⟩ := hr
    have type : Field.octets 1 (Contract.redirectedType : Number) = [type'] := by
      rw [Field.octets_one, ← ht, UInt8.ofNat_toNat]
    have length : Field.octets 1 (length.toBitVec.toNat : Number) = [length] := by
      rw [Field.octets_one, UInt8.toNat_toBitVec, UInt8.ofNat_toNat]
    simp only [Fields.wire, Fields.type, fields, type, length, Block.append_of_cut hc, List.flatten_cons, List.flatten_nil,
      List.cons_append, List.nil_append, List.append_nil]
  · cases hr

theorem fields_of_read? {raw rest : Bytes} {type : UInt8} {h : Header} (hr : read? raw = some (type, h, rest)) :
    type.toNat = raw.fieldAt 0 1 ∧ h.length.toNat = raw.fieldAt 1 1 := by
  unfold read? at hr
  split at hr
  · simp only [Option.bind_eq_bind, Option.bind_eq_some_iff, Option.some.injEq, Prod.exists, Prod.mk.injEq] at hr
    obtain ⟨reserved, behind, -, rfl, rfl, -⟩ := hr
    exact ⟨(Bytes.toNat_one _).symm, (Bytes.toNat_one _).symm⟩
  · cases hr

theorem length_wire (h : Header) : h.fields.wire.flatten.length = fixedSize := by
  have reserved : h.fields.reserved.length = 6 := h.reserved.size
  simp only [Fields.wire, List.flatten_cons, List.flatten_nil, List.append_nil, List.length_append, Field.length_octets,
    reserved, fixedSize]

/-- Everything that reading a redirected header option can come to. -/
theorem decode_cases (raw : Bytes) :
    (raw.length < 48 ∧ decode raw = .error (.redirectedShort raw)) ∨
    (48 ≤ raw.length ∧ raw.fieldAt 0 1 ≠ 4 ∧ ∃ type, decode raw = .error (.redirectedType type raw)) ∨
    (48 ≤ raw.length ∧ raw.fieldAt 0 1 = 4 ∧ raw.length < 8 * raw.fieldAt 1 1 ∧
      ∃ announced, decode raw = .error (.redirectedLength announced raw)) ∨
    (48 ≤ raw.length ∧ raw.fieldAt 0 1 = 4 ∧ 8 * raw.fieldAt 1 1 ≤ raw.length ∧
      ∃ h, decode raw = .ok (h, raw.drop 8) ∧ h.fields.wire.flatten = raw.take 8 ∧
        h.length.toNat = raw.fieldAt 1 1) := by
  cases hr : read? raw with
  | none =>
    have short := read?_eq_none_iff.mp hr
    exact .inl ⟨Nat.lt_trans short (by decide), by rw [decode, hr]⟩
  | some read =>
    obtain ⟨type, h, rest⟩ := read
    obtain ⟨typeField, lengthField⟩ := fields_of_read? hr
    have size : raw.length = 8 + rest.length := length_of_read? hr
    by_cases short : raw.length < 48
    · refine .inl ⟨short, ?_⟩
      rw [decode, hr]
      exact if_pos (by rw [embeddedMinimum]; omega)
    have enough : ¬ rest.length < embeddedMinimum := by rw [embeddedMinimum]; omega
    by_cases ht : type.toNat = Contract.redirectedType
    · obtain ⟨front, behind⟩ : h.fields.wire.flatten = raw.take 8 ∧ rest = raw.drop 8 :=
        Bytes.take_drop_of_eq_append (eq_wire_of_read? hr ht) (length_wire h)
      by_cases long : raw.length < 8 * raw.fieldAt 1 1
      · refine .inr (.inr (.inl ⟨by omega, typeField ▸ ht, long, h.length.toNat * unit, ?_⟩))
        rw [decode, hr]
        simp only [enough, ht, ne_eq, not_true, if_false]
        exact if_pos (by rw [unit]; omega)
      · refine .inr (.inr (.inr ⟨by omega, typeField ▸ ht, by omega, h, ?_, front, lengthField⟩))
        rw [decode, hr, ← behind]
        simp only [enough, ht, ne_eq, not_true, if_false]
        exact if_neg (by rw [unit]; omega)
    · refine .inr (.inl ⟨by omega, typeField ▸ ht, type.toNat, ?_⟩)
      rw [decode, hr]
      simp only [enough, ht, ne_eq, not_false_eq_true, if_false, if_true]

end Redirected.Header

/-! ## The SSH binary packet -/

namespace Ssh.Header

theorem read?_eq_none_iff {raw : Bytes} : read? raw = none ↔ raw.length < headerSize := by
  unfold read?
  split
  · simp only [List.length_cons, headerSize, reduceCtorEq, false_iff]
    omega
  · next short =>
    refine iff_of_true rfl (Nat.lt_of_not_le fun long => ?_)
    obtain ⟨_, _, _, _, _, _, present⟩ := Bytes.exists_five long
    exact short _ _ _ _ _ _ present

theorem fields_of_read? {raw rest : Bytes} {length : Nat} {padding : UInt8} (hr : read? raw = some (length, padding, rest)) :
    length = raw.fieldAt 0 4 ∧ padding.toNat = raw.fieldAt 4 1 := by
  unfold read? at hr
  split at hr
  · cases hr
    exact ⟨rfl, (Bytes.toNat_one _).symm⟩
  · cases hr

theorem eq_wire_of_read? {raw rest : Bytes} {length : Nat} {padding : UInt8}
    (hr : read? raw = some (length, padding, rest)) (hl : length ≤ maxLength) :
    raw = (fields ⟨BitVec.ofNat 31 length, padding.toBitVec⟩).wire.flatten ++ rest := by
  have whole : (BitVec.ofNat 31 length).toNat = length := by
    rw [BitVec.toNat_ofNat, Nat.mod_eq_of_lt (by simp only [maxLength] at hl; omega)]
  unfold read? at hr
  split at hr
  · next l₀ l₁ l₂ l₃ padding' rest' =>
    cases hr
    have octets : Field.octets 4 (Bytes.toNat [l₀, l₁, l₂, l₃] : Number) = [l₀, l₁, l₂, l₃] := Field.octets_toNat rfl
    simp only [Fields.wire, fields, whole, octets, UInt8.toNat_toBitVec, Field.octets_one, UInt8.ofNat_toNat,
      List.flatten_cons, List.flatten_nil, List.cons_append, List.nil_append, List.append_nil]
  · cases hr

theorem length_wire (h : Header) : h.fields.wire.flatten.length = headerSize := by
  simp only [Fields.wire, List.flatten_cons, List.flatten_nil, List.append_nil, List.length_append, Field.length_octets,
    headerSize]

/-- Everything that reading the two lengths of an SSH binary packet can come to. -/
theorem decode_cases (raw : Bytes) :
    (raw.length < 5 ∧ decode raw = .error (.sshHeaderShort raw)) ∨
    (5 ≤ raw.length ∧ 0x7fffffff < raw.fieldAt 0 4 ∧ ∃ length, decode raw = .error (.sshLengthAbove length)) ∨
    (5 ≤ raw.length ∧ raw.fieldAt 0 4 ≤ 0x7fffffff ∧ ∃ h, decode raw = .ok (h, raw.drop 5) ∧
      h.fields.wire.flatten = raw.take 5 ∧ h.packetLength.toNat = raw.fieldAt 0 4 ∧
      h.paddingLength.toNat = raw.fieldAt 4 1) := by
  cases hr : read? raw with
  | none => exact .inl ⟨read?_eq_none_iff.mp hr, by rw [decode, hr]⟩
  | some read =>
    obtain ⟨length, padding, rest⟩ := read
    have long : 5 ≤ raw.length := Nat.le_of_not_lt fun short => by simp [read?_eq_none_iff.mpr short] at hr
    obtain ⟨lengthField, paddingField⟩ := fields_of_read? hr
    by_cases above : maxLength < length
    · refine .inr (.inl ⟨long, lengthField ▸ above, length, ?_⟩)
      rw [decode, hr]
      exact if_pos above
    · obtain ⟨front, behind⟩ : _ = raw.take 5 ∧ rest = raw.drop 5 :=
        Bytes.take_drop_of_eq_append (eq_wire_of_read? hr (Nat.le_of_not_lt above)) (length_wire _)
      have whole : (BitVec.ofNat 31 length).toNat = length := by
        rw [BitVec.toNat_ofNat, Nat.mod_eq_of_lt (by simp only [maxLength] at above; omega)]
      refine .inr (.inr ⟨long, lengthField ▸ Nat.le_of_not_lt above, _, ?_, front, whole.trans lengthField, paddingField⟩)
      rw [decode, hr, behind]
      exact if_neg above

end Ssh.Header
end PacketStack
