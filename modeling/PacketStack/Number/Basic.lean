/-
The numbers that a numeric slot may hold before it is checked: integers of any size, binary fractions,
the two infinities and a value that is no number.

A slot is only put on the wire through `lowBits`, which keeps the low bits of the whole part, and only
accepted through `word?`, which asks for an integer in range. Fractions are kept in lowest terms and zero has
no sign, so two numbers are equal exactly when they are written the same; `agrees` differs from that only in that the value
that is no number agrees with nothing.

Numbers that can all be compared have one ascending order. The value that is no number is less than nothing and
greater than nothing; where it is in a list, the order is that of sorting by runs.
-/
import PacketStack.RunSort

-- Powers are Lean's own, also where an algebra library gives numbers another one.
attribute [instance (high)] instPowNat

namespace PacketStack

inductive Number
  | nan
  | infinity (negative : Bool)
  | int (n : Int)
  /-- The odd `numerator` over two to the power `halvings + 1`. -/
  | fraction (numerator : Int) (halvings : Nat)
  deriving DecidableEq, Inhabited

namespace Number

instance : Coe Nat Number := ⟨fun n => int n⟩

instance (n : Nat) : OfNat Number n := ⟨int n⟩

/-- The number `m` over two to the power `k`, in lowest terms. -/
def halved (m : Int) : Nat → Number
  | 0 => int m
  | k + 1 => if m % 2 = 0 then halved (m / 2) k else fraction m k

/-- The whole part, toward zero; no whole part counts as zero. -/
def whole : Number → Int
  | nan => 0
  | infinity _ => 0
  | int n => n
  | fraction m k => m.tdiv (2 ^ (k + 1))

/-- What a field of `w` bits keeps of a number. -/
def lowBits (w : Nat) (x : Number) : Nat := (x.whole % 2 ^ w).toNat

/-- The number as a natural, if it is an integer and not negative. -/
def natural? : Number → Option Nat
  | int (.ofNat n) => some n
  | _ => none

/-- The number as a word, if it is an integer that the word can hold. -/
def word? (w : Nat) (x : Number) : Option (BitVec w) := do
  let n ← x.natural?
  if n < 2 ^ w then some (BitVec.ofNat w n) else none

def negated : Number → Number
  | nan => nan
  | infinity negative => infinity !negative
  | int n => int (-n)
  | fraction m k => fraction (-m) k

/-- Numeric equality: the value that is no number differs from itself. -/
def agrees (x y : Number) : Bool := x != nan && x == y

/-- Numerator and binary places of a finite number. -/
def finite? : Number → Option (Int × Nat)
  | int n => some (n, 0)
  | fraction m k => some (m, k + 1)
  | _ => none

def lt (x y : Number) : Bool :=
  match x.finite?, y.finite? with
  | some (a, i), some (b, j) => a * 2 ^ j < b * 2 ^ i
  | some _, none => y == infinity false
  | none, some _ => x == infinity true
  | none, none => x == infinity true && y == infinity false

/-- The significant bits of a number. -/
def precision : Nat := 53

/-- Magnitudes from here on are infinite. -/
def limit : Nat := 2 ^ (1024 : Nat)

/-- An integer, or an infinity when it is beyond the limit. -/
def capped (n : Int) : Number := if limit ≤ n.natAbs then infinity (n < 0) else int n

/-- Multiplies by two to the power `bits`, which loses nothing below the limit. -/
def doubled (bits : Nat) : Number → Number
  | int n => capped (n * 2 ^ bits)
  | fraction m k => halved (m * 2 ^ bits) (k + 1)
  | x => x

def ascending (xs : List Number) : List Number :=
  if nan ∈ xs then RunSort.sort lt xs else xs.mergeSort fun x y => !y.lt x

theorem lowBits_nat (w n : Nat) : lowBits w (n : Number) = n % 2 ^ w := by
  have size : (2 : Int) ^ w = (2 ^ w : Nat) := (Int.natCast_pow 2 w).symm
  rw [lowBits, whole, size, ← Int.natCast_emod, Int.toNat_natCast]

theorem natural?_eq_some_iff {x : Number} {n : Nat} : x.natural? = some n ↔ x = (n : Number) := by
  refine ⟨fun h => ?_, fun h => h ▸ rfl⟩
  unfold natural? at h
  split at h
  · cases h; rfl
  · cases h

theorem word?_toNat {w : Nat} (v : BitVec w) : word? w (v.toNat : Number) = some v := by
  rw [word?, natural?_eq_some_iff.mpr rfl, Option.bind_eq_bind, Option.bind_some, if_pos v.isLt, BitVec.ofNat_toNat,
    BitVec.setWidth_eq]

theorem eq_of_word? {w : Nat} {x : Number} {v : BitVec w} (h : x.word? w = some v) : x = (v.toNat : Number) := by
  rw [word?, Option.bind_eq_bind, Option.bind_eq_some_iff] at h
  obtain ⟨n, hn, h⟩ := h
  split at h
  · next small =>
    cases h
    rw [BitVec.toNat_ofNat, Nat.mod_eq_of_lt small]
    exact natural?_eq_some_iff.mp hn
  · cases h

theorem lt_int (a b : Int) : lt (int a) (int b) = decide (a < b) := by
  simp only [lt, finite?, Int.pow_zero, Int.mul_one]

theorem perm_ascending (xs : List Number) : (ascending xs).Perm xs := by
  unfold ascending
  split
  · exact RunSort.perm_sort lt xs
  · exact List.mergeSort_perm xs _

end Number
end PacketStack
