/-
The Internet checksum of chunks that are read as one byte string.

The chunks are summed as they come: `Sum` carries the byte that waits for the second half of its word from
one chunk to the next, so chunk boundaries do not matter (`add_append`). The high half of the sum is then
folded into the low half until sixteen bits are left; the fold sees its operand as a 32-bit word.

The sum itself is a natural number, exact at any size. Kept as a number of 53 significant bits it is exact only below two
to the power 53, which takes more than two hundred gigabytes to reach; what rounding does to sums beyond is not said here.
-/
import PacketStack.Bytes.Basic

namespace PacketStack.Checksum

/-- The words so far, and the first byte of a word whose second has not come yet. -/
structure Sum where
  total : Nat := 0
  pending : Option UInt8 := none
  deriving DecidableEq

namespace Sum

def push (s : Sum) (b : UInt8) : Sum :=
  match s.pending with
  | none => { s with pending := some b }
  | some high => ⟨s.total + (high.toNat * 256 + b.toNat), none⟩

def add (s : Sum) (chunk : Bytes) : Sum := chunk.foldl push s

/-- A last byte that stands alone is the high half of a word. -/
def close (s : Sum) : Nat :=
  match s.pending with
  | none => s.total
  | some high => s.total + high.toNat * 256

theorem add_append (s : Sum) (front back : Bytes) : s.add (front ++ back) = (s.add front).add back :=
  List.foldl_append

end Sum

/-- One end-around carry over a 32-bit view of the sum. -/
def carry (sum : Nat) : Nat := sum % 0x10000 + sum % 0x100000000 / 0x10000

theorem carry_lt {sum : Nat} (h : 0x10000 ≤ sum) : carry sum < sum := by
  unfold carry
  omega

def fold (sum : Nat) : Nat :=
  if 0x10000 ≤ sum then fold (carry sum) else sum
termination_by sum
decreasing_by exact carry_lt ‹_›

theorem fold_lt (sum : Nat) : fold sum < 0x10000 := by
  fun_induction fold sum <;> omega

/-- The complement of the folded sum. -/
def ofChunks (chunks : List Bytes) : Nat :=
  0xffff - fold (chunks.foldl Sum.add {}).close

theorem ofChunks_lt (chunks : List Bytes) : ofChunks chunks < 0x10000 := by
  unfold ofChunks
  omega

end PacketStack.Checksum
