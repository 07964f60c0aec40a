/-
How a number is written, and how a written number is read.

A decimal numeral has the fewest digits that read back as the number, and of those the nearest ones. It is
written positionally while the point stands at most 21 places after the first digit and at most 6 zeros
before it, and with an exponent otherwise. A hexadecimal numeral is exact.
-/
import PacketStack.Number.Rounding

namespace PacketStack.Number

/-- Decimal digits, and the place of the point counted from the first of them. -/
structure Numeral where
  digits : List Char
  point : Int
  deriving DecidableEq

namespace Numeral

/-- The numeral of `n` times ten to the power `e`, without zeros at the end. -/
def ofNat (n : Nat) (e : Int) : Numeral :=
  let digits := Nat.toDigits 10 n
  ⟨(digits.reverse.dropWhile (· == '0')).reverse, digits.length + e⟩

/-- Writes the sign and the digits of an exponent. -/
def exponent (e : Int) : List Char :=
  (if e < 0 then '-' else '+') :: Nat.toDigits 10 e.natAbs

def write (x : Numeral) : List Char :=
  let count : Int := x.digits.length
  if count ≤ x.point ∧ x.point ≤ 21 then
    x.digits ++ List.replicate (x.point - count).toNat '0'
  else if 0 < x.point ∧ x.point ≤ 21 then
    x.digits.take x.point.toNat ++ '.' :: x.digits.drop x.point.toNat
  else if -6 < x.point ∧ x.point ≤ 0 then
    '0' :: '.' :: (List.replicate (-x.point).toNat '0' ++ x.digits)
  else
    match x.digits with
    | [digit] => digit :: 'e' :: exponent (x.point - 1)
    | digits => digits.take 1 ++ '.' :: (digits.drop 1 ++ 'e' :: exponent (x.point - 1))

/--
The fewest digits for the number `x = exact / 10 ^ places`, tried from `count` digits on: on the grid of
that many digits the neighbours of the exact value are `low` and `low + 1`.
-/
def search (x : Number) (exact places : Nat) : Nat → Nat → Numeral
  | 0, _ => ofNat exact (-places)
  | tries + 1, count =>
    let cut := (Nat.toDigits 10 exact).length - count
    let e : Int := (cut : Int) - places
    let low := exact / 10 ^ cut
    let reads (n : Nat) : Bool := ofDecimal false n e == x
    match reads low, reads (low + 1) with
    | true, true => ofNat (nearest exact (10 ^ cut)) e
    | true, false => ofNat low e
    | false, true => ofNat (low + 1) e
    | false, false => search x exact places tries (count + 1)

end Numeral

/-- Integers below this are written digit for digit. -/
def exactBelow : Nat := 2 ^ precision

def writeNat (n : Nat) : List Char :=
  if n < exactBelow then Nat.toDigits 10 n else (Numeral.search (n : Number) n 0 17 1).write

/-- The digits of `m / 2 ^ (k + 1)`, whose exact decimal places are as many as its binary ones. -/
def writeFraction (m k : Nat) : List Char :=
  (Numeral.search (fraction m k) (m * 5 ^ (k + 1)) (k + 1) 17 1).write

def signed (n : Int) (magnitude : List Char) : List Char :=
  if n < 0 then '-' :: magnitude else magnitude

def decimal : Number → List Char
  | nan => "NaN".toList
  | infinity negative => (if negative then "-Infinity" else "Infinity").toList
  | int n => signed n (writeNat n.natAbs)
  | fraction m k => signed m (writeFraction m.natAbs k)

def text (x : Number) : String := String.ofList x.decimal

instance : ToString Number := ⟨text⟩

def hexNat (n : Nat) : List Char := Nat.toDigits 16 n

def hexFraction (m k : Nat) : List Char :=
  let places := (k + 4) / 4
  let part := (m % 2 ^ (k + 1)) * 2 ^ (4 * places - (k + 1))
  hexNat (m / 2 ^ (k + 1)) ++ '.' :: (Nat.toDigits 16 part).leftpad places '0'

def hexadecimal : Number → List Char
  | int n => signed n (hexNat n.natAbs)
  | fraction m k => signed m (hexFraction m.natAbs k)
  | x => x.decimal

/-- Hexadecimal with `0x` in front, filled with zeros to at least `width` characters. -/
def hexText (width : Nat) (x : Number) : String :=
  "0x" ++ String.ofList (x.hexadecimal.leftpad width '0')

/-- The value of a run of digits, if there are only digits and at least one. -/
def readNat? (digits : List Char) : Option Nat :=
  if digits.isEmpty || digits.any (!·.isDigit) then none
  else some (digits.foldl (fun n c => n * 10 + (c.toNat - '0'.toNat)) 0)

def readExponent? : List Char → Option Int
  | [] => some 0
  | 'e' :: '+' :: digits => (readNat? digits).map Int.ofNat
  | 'e' :: '-' :: digits => (readNat? digits).map fun n => -(Int.ofNat n)
  | _ => none

/-- Reads digits, a point with digits behind it, and an exponent. -/
def readMagnitude? (negative : Bool) (s : List Char) : Option Number := do
  let whole := s.takeWhile Char.isDigit
  let rest := s.dropWhile Char.isDigit
  match rest with
  | '.' :: rest =>
    let places := rest.takeWhile Char.isDigit
    let digits ← readNat? (whole ++ places)
    let e ← readExponent? (rest.dropWhile Char.isDigit)
    some (ofDecimal negative digits (e - places.length))
  | rest =>
    let digits ← readNat? whole
    let e ← readExponent? rest
    some (ofDecimal negative digits e)

/-- Reads what is written in decimal; any other text is no number. -/
def read (s : List Char) : Number :=
  if s = (infinity false).decimal then infinity false
  else if s = (infinity true).decimal then infinity true
  else
    match s with
    | '-' :: s => (readMagnitude? true s).getD nan
    | s => (readMagnitude? false s).getD nan

end PacketStack.Number
