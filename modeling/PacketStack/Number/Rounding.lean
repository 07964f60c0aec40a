/-
Exact values brought to the numbers that exist: 53 significant bits, units no smaller than two to the power
-1074, ties to the even neighbour, and an infinity at the limit.

`ofRatio` works on natural numerators and denominators throughout, so nothing is lost before the one
rounding step.
-/
import PacketStack.Number.Basic

namespace PacketStack.Number

/-- The number `m` times two to the power `e`. -/
def scaled (m : Int) (e : Int) : Number :=
  match e with
  | .ofNat k => capped (m * 2 ^ k)
  | .negSucc k => halved m (k + 1)

/-- The integer nearest `num / den`, a tie going to the even one. -/
def nearest (num den : Nat) : Nat :=
  let q := num / den
  let twice := 2 * (num % den)
  if twice < den then q
  else if den < twice then q + 1
  else if q % 2 = 0 then q else q + 1

/-- The quotient `num / (den * 2 ^ e)` as a numerator and a denominator. -/
def inUnits (num den : Nat) (e : Int) : Nat × Nat :=
  match e with
  | .ofNat k => (num, den * 2 ^ k)
  | .negSucc k => (num * 2 ^ (k + 1), den)

/-- The exponent of the unit in which `num / den` has at most 53 bits, or of the smallest unit there is. -/
def unitExponent (num den : Nat) : Int :=
  let e := (num.log2 : Int) - den.log2 - precision
  let (n, d) := inUnits num den e
  max (-1074) (if n < d * 2 ^ precision then e else e + 1)

/-- The number nearest `num / den`, or its negation. -/
def ofRatio (negative : Bool) (num den : Nat) : Number :=
  let e := unitExponent num den
  let units := inUnits num den e
  let m := nearest units.1 units.2
  scaled (if negative then -m else m) e

/-- The number nearest `digits` times ten to the power `e`. -/
def ofDecimal (negative : Bool) (digits : Nat) (e : Int) : Number :=
  match e with
  | .ofNat k => ofRatio negative (digits * 10 ^ k) 1
  | .negSucc k => ofRatio negative digits (10 ^ (k + 1))

/-- The sum, rounded once. Opposite infinities have no sum. -/
def add (x y : Number) : Number :=
  match x.finite?, y.finite? with
  | some (a, i), some (b, j) =>
    let sum := a * 2 ^ j + b * 2 ^ i
    ofRatio (sum < 0) sum.natAbs (2 ^ (i + j))
  | some _, none => y
  | none, some _ => x
  | none, none => if x = y then x else nan

instance : Add Number := ⟨add⟩

end PacketStack.Number
