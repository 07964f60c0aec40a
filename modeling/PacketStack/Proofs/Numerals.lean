/-
Reading back what is written digit for digit.

An integer of at most two to the power of the significant bits is a number itself, so that rounding leaves it alone
(`ofRatio_nat`) and its digits read back as what they say (`read_digits`). A text with a colon anywhere is no number
(`read_of_colon`): neither the digits nor the exponent can have one.
-/
import Mathlib.Data.List.TakeWhile
import PacketStack.Number.Text

namespace PacketStack.Number

/-! ## Rounding -/

/-- Halving takes back what doubling gave. -/
theorem halved_doubled (n : Int) (k : Nat) : halved (n * 2 ^ k) k = int n := by
  induction k with
  | zero => rw [Int.pow_zero, Int.mul_one, halved]
  | succ k ih =>
    have twice : n * 2 ^ (k + 1) = n * 2 ^ k * 2 := by rw [Int.pow_succ, Int.mul_assoc]
    rw [halved, twice, Int.mul_emod_left, if_pos rfl, Int.mul_ediv_cancel _ (by decide), ih]

theorem nearest_one (n : Nat) : nearest n 1 = n := by
  unfold nearest
  simp only [Nat.div_one, Nat.mod_one]
  exact if_pos (by decide)

theorem inUnits_neg (num den k : Nat) : inUnits num den (-(k : Int)) = (num * 2 ^ k, den) := by
  cases k with
  | zero => simp only [Nat.pow_zero, Nat.mul_one]; exact congrArg (Prod.mk num) (Nat.mul_one den)
  | succ k => rfl

theorem scaled_doubled {n : Nat} (small : n < limit) (k : Nat) : scaled (n * 2 ^ k : Nat) (-(k : Int)) = (n : Number) := by
  cases k with
  | zero =>
    have below : ¬ limit ≤ (n : Int).natAbs := by
      rw [Int.natAbs_natCast]
      exact Nat.not_le.mpr small
    have plain : (n * 2 ^ 0 : Nat) = n := Nat.mul_one n
    have same : ((n : Int) * 2 ^ (0 : Nat)) = n := Int.mul_one _
    rw [plain]
    change capped ((n : Int) * 2 ^ (0 : Nat)) = _
    rw [same, capped, if_neg below]
  | succ k =>
    rw [Int.natCast_mul, Int.natCast_pow]
    exact halved_doubled n (k + 1)

/-- A number is read in the largest unit in which it has all of the significant bits. -/
theorem unitExponent_nat {n k : Nat} (positive : n ≠ 0) (bits : n.log2 + k + 1 = precision) :
    unitExponent n 1 = -(k : Int) := by
  have first : (n.log2 : Int) - (Nat.log2 1 : Nat) - (precision : Nat) = -((k + 1 : Nat) : Int) := by
    have none : Nat.log2 1 = 0 := by decide
    omega
  have long : ¬ n * 2 ^ (k + 1) < 1 * 2 ^ precision := by
    have least := Nat.mul_le_mul_right (2 ^ (k + 1)) (Nat.log2_self_le positive)
    rw [← Nat.pow_add, ← Nat.add_assoc, bits] at least
    omega
  have range : precision = 53 := rfl
  rw [unitExponent]
  simp only [first, inUnits_neg, if_neg long]
  omega

/-- **Small integers are numbers**: rounding does not change them. -/
theorem ofRatio_nat {n : Nat} (h : n ≤ exactBelow) : ofRatio false n 1 = (n : Number) := by
  by_cases zero : n = 0
  · subst zero
    decide +kernel
  rcases Nat.lt_or_eq_of_le h with below | rfl
  · have log : n.log2 < precision := (Nat.log2_lt zero).mpr below
    obtain ⟨k, bits⟩ := Nat.exists_eq_add_of_lt log
    have unit : unitExponent n 1 = -(k : Int) := unitExponent_nat zero bits.symm
    rw [ofRatio]
    simp only [unit, inUnits_neg, nearest_one, Bool.false_eq_true, if_false]
    exact scaled_doubled (Nat.lt_trans below (by decide +kernel)) k
  · -- The bound itself has one bit more, and ends in zero.
    decide +kernel

/-! ## Digits -/

theorem readNat?_toDigits (n : Nat) : readNat? (Nat.toDigits 10 n) = some n := by
  have digits : (Nat.toDigits 10 n).any (!·.isDigit) = false := by
    simp only [List.any_eq_false, Bool.not_eq_true, Bool.not_eq_false']
    exact fun c hc => Nat.isDigit_of_mem_toDigits (by decide) (by decide) hc
  have some : (Nat.toDigits 10 n).isEmpty = false := by
    simp [Nat.toDigits_ne_nil]
  have value : (Nat.toDigits 10 n).foldl (fun n c => n * 10 + (c.toNat - '0'.toNat)) 0 = n := by
    simp only [Nat.mul_comm _ 10]
    exact Nat.ofDigitChars_ten_toDigits
  rw [readNat?, digits, some, value]
  rfl

/-- **What is written digit for digit is read back.** -/
theorem read_digits {n : Nat} (h : n ≤ exactBelow) : read (Nat.toDigits 10 n) = (n : Number) := by
  have digits : ∀ c ∈ Nat.toDigits 10 n, c.isDigit = true := fun c hc =>
    Nat.isDigit_of_mem_toDigits (by decide) (by decide) hc
  have other {s : List Char} {c : Char} (front : s.head? = some c) (letter : c.isDigit = false) :
      Nat.toDigits 10 n ≠ s := by
    rintro rfl
    rw [digits c (List.mem_of_head? front)] at letter
    cases letter
  have whole : (Nat.toDigits 10 n).takeWhile Char.isDigit = Nat.toDigits 10 n := List.takeWhile_eq_self_iff.mpr digits
  have rest : (Nat.toDigits 10 n).dropWhile Char.isDigit = [] := List.dropWhile_eq_nil_iff.mpr digits
  have magnitude : readMagnitude? false (Nat.toDigits 10 n) = some (n : Number) := by
    rw [readMagnitude?]
    simp only [whole, rest, readNat?_toDigits, readExponent?, Option.bind_eq_bind, Option.bind_some]
    exact congrArg some ((congrArg (ofRatio false · 1) (Nat.mul_one n)).trans (ofRatio_nat h))
  unfold read
  rw [if_neg (other rfl rfl), if_neg (other rfl rfl)]
  split
  · next s minus => exact absurd minus (other rfl rfl)
  · rw [magnitude, Option.getD_some]

/-! ## Colons -/

theorem readNat?_of_colon {s : List Char} (colon : ':' ∈ s) : readNat? s = none := by
  have other : s.any (!·.isDigit) = true := List.any_eq_true.mpr ⟨':', colon, rfl⟩
  rw [readNat?, other, Bool.or_true, if_pos rfl]

theorem readExponent?_of_colon {s : List Char} (colon : ':' ∈ s) : readExponent? s = none := by
  unfold readExponent?
  split
  · cases colon
  · next digits => rw [readNat?_of_colon (by simpa using colon), Option.map_none]
  · next digits => rw [readNat?_of_colon (by simpa using colon), Option.map_none]
  · rfl

theorem colon_mem_dropWhile {s : List Char} (colon : ':' ∈ s) : ':' ∈ s.dropWhile Char.isDigit := by
  rw [← List.takeWhile_append_dropWhile (p := Char.isDigit) (l := s), List.mem_append] at colon
  rcases colon with front | behind
  · cases List.all_eq_true.mp List.all_takeWhile _ front
  · exact behind

theorem readMagnitude?_of_colon (negative : Bool) {s : List Char} (colon : ':' ∈ s) :
    readMagnitude? negative s = none := by
  have behind := colon_mem_dropWhile colon
  rw [readMagnitude?]
  simp only
  split
  · next places point =>
    rw [point] at behind
    have exponent := readExponent?_of_colon (colon_mem_dropWhile (List.mem_of_ne_of_mem (by decide) behind))
    simp only [exponent, Option.bind_eq_bind, Option.bind_none, Option.bind_fun_none]
  · simp only [readExponent?_of_colon behind, Option.bind_eq_bind, Option.bind_none, Option.bind_fun_none]

/-- **A text with a colon is no number.** -/
theorem read_of_colon {s : List Char} (colon : ':' ∈ s) : read s = nan := by
  have infinite (negative : Bool) : s ≠ (infinity negative).decimal := by
    rintro rfl
    revert colon
    cases negative <;> decide
  unfold read
  rw [if_neg (infinite false), if_neg (infinite true)]
  split
  · rw [readMagnitude?_of_colon true (List.mem_of_ne_of_mem (by decide) colon), Option.getD_none]
  · rw [readMagnitude?_of_colon false colon, Option.getD_none]

end PacketStack.Number
