/-
Ones'-complement sums, and the Internet checksum of RFC 1071 as a function of one byte string.

`internet` adds the words of the string with an end-around carry at each addition. The sum that is folded only at
its end is the same one while it fits into 32 bits (`ofChunks_eq_internet`), which the words of 131074 bytes always do
(`ofChunks_eq_internet_of_length`). Both sums are `reduced`: there are two zeros, and only a sum of nothing but zeros
is the first of them.
-/
import PacketStack.Bytes.Checksum
import Mathlib.Algebra.GroupWithZero.Nat

namespace PacketStack.Checksum

/-- The big-endian words of a byte string; a last byte that stands alone is followed by zero. -/
def words : Bytes → List Nat
  | [] => []
  | [high] => [high.toNat * 256]
  | high :: low :: rest => (high.toNat * 256 + low.toNat) :: words rest

/-- The sum of two words, in which what is carried out at the top is added at the bottom. -/
def plus (a b : Nat) : Nat := if a + b < 0x10000 then a + b else a + b - 0x10000 + 1

/-- The complement of the ones'-complement sum of all words. -/
def internet (bytes : Bytes) : Nat := 0xffff - (words bytes).foldl plus 0

/-- The word that a sum comes to in ones' complement. A multiple of `0xffff` comes to `0xffff`, zero excepted. -/
def reduced (sum : Nat) : Nat := if sum = 0 then 0 else (sum - 1) % 0xffff + 1

/-! ## Words -/

theorem words_lt (bytes : Bytes) : ∀ word ∈ words bytes, word < 0x10000 := by
  induction bytes using words.induct with
  | case1 => exact fun word h => nomatch h
  | case2 high =>
    intro word h
    obtain rfl := List.mem_singleton.mp h
    have := high.toNat_lt
    omega
  | case3 high low rest ih =>
    intro word h
    obtain rfl | h := List.mem_cons.mp h
    · have := high.toNat_lt
      have := low.toNat_lt
      omega
    · exact ih word h

theorem words_append {front : Bytes} (even : front.length % 2 = 0) (back : Bytes) :
    words (front ++ back) = words front ++ words back := by
  induction front using words.induct with
  | case1 => rfl
  | case2 high => cases even
  | case3 high low rest ih =>
    rw [List.length_cons, List.length_cons] at even
    rw [List.cons_append, List.cons_append, words, words, ih (by omega), List.cons_append]

theorem sum_words_le (bytes : Bytes) : (words bytes).sum ≤ (bytes.length + 1) / 2 * 0xffff := by
  induction bytes using words.induct with
  | case1 => exact Nat.le_refl 0
  | case2 high =>
    have := high.toNat_lt
    simp only [words, List.sum_cons, List.sum_nil, List.length_singleton]
    omega
  | case3 high low rest ih =>
    have := high.toNat_lt
    have := low.toNat_lt
    simp only [words, List.sum_cons, List.length_cons]
    omega

/-- The sum of the words of chunks is that of their bytes in one string. -/
theorem close_foldl_add (chunks : List Bytes) : (chunks.foldl Sum.add {}).close = (words chunks.flatten).sum := by
  have joined (s : Sum) : chunks.foldl Sum.add s = s.add chunks.flatten := by
    induction chunks generalizing s with
    | nil => rfl
    | cons chunk rest ih => rw [List.foldl_cons, ih, List.flatten_cons, Sum.add_append]
  have summed (bytes : Bytes) (total : Nat) : (Sum.add ⟨total, none⟩ bytes).close = total + (words bytes).sum := by
    induction bytes using words.induct generalizing total with
    | case1 => rfl
    | case2 high =>
      rw [words, List.sum_singleton]
      rfl
    | case3 high low rest ih =>
      have pair : Sum.add ⟨total, none⟩ (high :: low :: rest) =
          Sum.add ⟨total + (high.toNat * 256 + low.toNat), none⟩ rest := rfl
      rw [pair, ih, words, List.sum_cons, Nat.add_assoc]
  rw [joined, summed, Nat.zero_add]

/-! ## Sums -/

theorem reduced_lt (sum : Nat) : reduced sum < 0x10000 := by
  unfold reduced
  split <;> omega

/-- A sum comes to the second zero exactly if it is a multiple of `0xffff`, but not zero itself. -/
theorem reduced_eq_max_iff {sum : Nat} : reduced sum = 0xffff ↔ sum ≠ 0 ∧ sum % 0xffff = 0 := by
  unfold reduced
  split <;> omega

theorem plus_reduced {sum word : Nat} (fits : word < 0x10000) : plus (reduced sum) word = reduced (sum + word) := by
  unfold plus reduced
  split <;> split <;> split <;> omega

theorem foldl_plus {ws : List Nat} (fits : ∀ word ∈ ws, word < 0x10000) (sum : Nat) :
    ws.foldl plus (reduced sum) = reduced (sum + ws.sum) := by
  induction ws generalizing sum with
  | nil => rfl
  | cons word rest ih =>
    have below : ∀ w ∈ rest, w < 0x10000 := fun w hw => fits w (List.mem_cons_of_mem word hw)
    rw [List.foldl_cons, plus_reduced (fits word List.mem_cons_self), ih below, List.sum_cons, Nat.add_assoc]

theorem internet_eq (bytes : Bytes) : internet bytes = 0xffff - reduced (words bytes).sum := by
  have sum := foldl_plus (words_lt bytes) 0
  rw [Nat.zero_add] at sum
  rw [internet, ← sum]
  rfl

/-- A carry keeps what a 32-bit sum comes to. -/
theorem reduced_carry {sum : Nat} (fits : sum < 0x100000000) : reduced (carry sum) = reduced sum := by
  have whole : carry sum = sum % 0x10000 + sum / 0x10000 := by rw [carry, Nat.mod_eq_of_lt fits]
  by_cases zero : sum = 0
  · subst zero
    rfl
  · have moved : sum - 1 = 0xffff * (sum / 0x10000) + (carry sum - 1) := by omega
    rw [reduced, reduced, if_neg zero, if_neg (by omega), moved, Nat.mul_add_mod]

theorem fold_eq_reduced {sum : Nat} (fits : sum < 0x100000000) : fold sum = reduced sum := by
  fun_induction fold sum with
  | case1 sum large ih =>
    have less := carry_lt large
    rw [ih (by omega), reduced_carry fits]
  | case2 sum small =>
    unfold reduced
    split <;> omega

/-- No carry is lost while the sum fits into 32 bits. -/
theorem ofChunks_eq_internet {chunks : List Bytes} (fits : (words chunks.flatten).sum < 0x100000000) :
    ofChunks chunks = internet chunks.flatten := by
  rw [ofChunks, close_foldl_add, fold_eq_reduced fits, internet_eq]

theorem ofChunks_eq_internet_of_length (chunks : List Bytes) (short : chunks.flatten.length ≤ 131074) :
    ofChunks chunks = internet chunks.flatten := by
  refine ofChunks_eq_internet (Nat.lt_of_le_of_lt (sum_words_le _) ?_)
  omega

/-! ## Filling in a checksum -/

/-- A word of a string adds itself to the sum of the others. -/
theorem sum_words_around {front : Bytes} (even : front.length % 2 = 0) (back : Bytes) {word : Nat}
    (fits : word < 0x10000) :
    (words (front ++ (Bytes.word 2 word ++ back))).sum = (words front).sum + (words back).sum + word := by
  have pair : words (Bytes.word 2 word ++ back) = word :: words back := by
    have whole : (UInt8.ofNat (word / 256)).toNat * 256 + (UInt8.ofNat word).toNat = word := by
      simp only [UInt8.toNat_ofNat']
      omega
    rw [Bytes.word_two, List.cons_append, List.cons_append, List.nil_append, words, whole]
  rw [words_append even, pair, List.sum_append, List.sum_cons]
  omega

/-- A sum and the complement of what it comes to make the second zero. Where that complement is the first zero, the
second one can stand for it. -/
theorem reduced_add_complement {sum complement : Nat} (positive : 0 < sum) (h : 0xffff - reduced sum = complement) :
    reduced (sum + if complement = 0 then 0xffff else complement) = 0xffff := by
  have nonzero : reduced sum = (sum - 1) % 0xffff + 1 := if_neg (Nat.ne_of_gt positive)
  have bound := reduced_lt sum
  refine reduced_eq_max_iff.mpr ⟨by omega, ?_⟩
  split <;> omega

/-- A string whose words do not all vanish, with its own checksum put in place of a zero word, has the checksum zero;
so it has with `0xffff` put there, if its checksum is zero. -/
theorem internet_filled {front back : Bytes} (even : front.length % 2 = 0) {sum : Nat}
    (blank : internet (front ++ (Bytes.word 2 0 ++ back)) = sum) (positive : 0 < (words front).sum) :
    internet (front ++ (Bytes.word 2 (if sum = 0 then 0xffff else sum) ++ back)) = 0 := by
  rw [internet_eq, sum_words_around even back (by decide), Nat.add_zero] at blank
  have fits : (if sum = 0 then 0xffff else sum) < 0x10000 := by split <;> omega
  rw [internet_eq, sum_words_around even back fits, reduced_add_complement (Nat.add_pos_left positive _) blank]

end PacketStack.Checksum
