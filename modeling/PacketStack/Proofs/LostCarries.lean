/-
Which sums the folded checksum gets right.

The fold sees the sum as a 32-bit word, so that only the low 32 bits decide what it comes to (`fold_mod`). What lies above
them would have to be carried around like anything else, and is lost. That does no harm exactly where the lost part comes
to nothing in ones' complement (`ofChunks_by_low_bits`). It does at the first sum that needs a 33rd bit, which 131075 bytes
can have (`ofChunks_ne_internet`) and no fewer.
-/
import PacketStack.Proofs.OnesComplement

namespace PacketStack.Checksum

/-- A carry looks at the low 32 bits alone. -/
theorem carry_mod (sum : Nat) : carry (sum % 0x100000000) = carry sum := by
  unfold carry
  omega

/-- So does the fold, which is a chain of carries. -/
theorem fold_mod (sum : Nat) : fold (sum % 0x100000000) = fold sum := by
  by_cases fits : sum < 0x100000000
  · rw [Nat.mod_eq_of_lt fits]
  · have whole : fold sum = fold (carry (sum % 0x100000000)) := by
      rw [fold, if_pos (by omega), carry_mod]
    by_cases large : 0x10000 ≤ sum % 0x100000000
    · rw [whole, fold, if_pos large]
    · have done : carry (sum % 0x100000000) = sum % 0x100000000 := by
        unfold carry
        omega
      rw [whole, done]

/-- Sums come to the same word if they differ by a multiple of `0xffff`, unless just one of them is zero. -/
theorem reduced_eq_iff {a b : Nat} : reduced a = reduced b ↔ (a = 0 ↔ b = 0) ∧ a % 0xffff = b % 0xffff := by
  unfold reduced
  split <;> split <;> omega

theorem ofChunks_eq (chunks : List Bytes) :
    ofChunks chunks = 0xffff - reduced ((words chunks.flatten).sum % 0x100000000) := by
  rw [ofChunks, close_foldl_add, ← fold_mod, fold_eq_reduced (Nat.mod_lt _ (by decide))]

/-- **The checksum is that of the low 32 bits of the sum.** However the bytes are cut into chunks, it is the Internet
checksum of all of them if what is above the 32 bits is a multiple of `0xffff` and something is left below, or if there is
no sum at all. Nothing is ever above the 32 bits of the sum of 131074 bytes. -/
theorem ofChunks_by_low_bits (chunks : List Bytes) :
    let sum := (words chunks.flatten).sum
    ofChunks chunks = 0xffff - reduced (sum % 0x100000000) ∧
    (ofChunks chunks = internet chunks.flatten ↔
      sum / 0x100000000 % 0xffff = 0 ∧ (sum % 0x100000000 = 0 → sum = 0)) ∧
    (chunks.flatten.length ≤ 131074 → ofChunks chunks = internet chunks.flatten) := by
  intro sum
  have below : ofChunks chunks = 0xffff - reduced (sum % 0x100000000) := ofChunks_eq chunks
  refine ⟨below, ?_, ofChunks_eq_internet_of_length chunks⟩
  have low := reduced_lt (sum % 0x100000000)
  have all := reduced_lt sum
  have same : ofChunks chunks = internet chunks.flatten ↔ reduced (sum % 0x100000000) = reduced sum := by
    have whole : internet chunks.flatten = 0xffff - reduced sum := internet_eq _
    rw [below, whole]
    omega
  rw [same, reduced_eq_iff]
  omega

theorem words_ones (n : Nat) :
    words (List.replicate (2 * n + 1) 0xff) = List.replicate n 0xffff ++ [0xff00] := by
  induction n with
  | zero => rfl
  | succ n ih =>
    change words (0xff :: 0xff :: List.replicate (2 * n + 1) 0xff) = _
    rw [words, ih]
    rfl

/-- One byte more than the bound, all of them ones: the carry into the 33rd bit is lost. -/
theorem ofChunks_ne_internet :
    ofChunks [List.replicate 131075 0xff] = 0x100 ∧ internet (List.replicate 131075 0xff) = 0xff := by
  have sum : (words (List.replicate 131075 0xff)).sum = 65537 * 0xffff + 0xff00 := by
    rw [words_ones 65537, List.sum_append_nat, List.sum_replicate_nat, List.sum_singleton]
  constructor
  · rw [ofChunks_eq, List.flatten_singleton, sum]
    rfl
  · rw [internet_eq, sum]
    rfl

end PacketStack.Checksum
