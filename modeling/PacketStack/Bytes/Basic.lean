/-
Byte strings: their hexadecimal text, big-endian words, their hash, and blocks of a fixed size.

A byte string is a list, so that taking a layer off the front is `take` and `drop` and the bytes of a chain
are plain concatenations. `toNat_word` says that a word reads back modulo its size, and `cut_append` that a
block is cut off the front exactly where it was put.

The hash is the 32-bit FNV-1a: each byte is folded in by exclusive or, and the state is then multiplied by an odd
prime, so that every step is a bijection of the state.
-/

-- Powers are Lean's own, also where an algebra library gives numbers another one.
attribute [instance (high)] instPowNat

namespace PacketStack

abbrev Bytes := List UInt8

namespace Bytes

/-- Two lower-case hexadecimal digits. -/
def pair (b : UInt8) : String :=
  String.ofList [Nat.digitChar (b.toNat / 16), Nat.digitChar (b.toNat % 16)]

def hex (separator : String) (bytes : Bytes) : String :=
  separator.intercalate (bytes.map pair)

/-- The form in which byte strings stand in texts and messages. -/
def spaced (bytes : Bytes) : String := hex " " bytes

/-- An empty string is named, so that a line never ends in nothing. -/
def describe (bytes : Bytes) : String :=
  if bytes.isEmpty then "(none)" else spaced bytes

/-- The low `size` bytes of `n`, the most significant first. -/
def word : Nat → Nat → Bytes
  | 0, _ => []
  | size + 1, n => word size (n / 256) ++ [UInt8.ofNat n]

/-- The value of big-endian bytes. -/
def toNat (bytes : Bytes) : Nat := bytes.foldl (fun n b => n * 256 + b.toNat) 0

/-- The number of bytes in several parts together. -/
def total : List Bytes → Nat
  | [] => 0
  | part :: rest => part.length + total rest

def zeros (n : Nat) : Bytes := List.replicate n 0

theorem length_word (size n : Nat) : (word size n).length = size := by
  induction size generalizing n with
  | zero => rfl
  | succ size ih => rw [word, List.length_append, ih, List.length_singleton]

theorem toNat_one (a : UInt8) : toNat [a] = a.toNat := by
  simp only [toNat, List.foldl_cons, List.foldl_nil, Nat.zero_mul, Nat.zero_add]

theorem toNat_concat (bytes : Bytes) (b : UInt8) : toNat (bytes ++ [b]) = toNat bytes * 256 + b.toNat := by
  simp only [toNat, List.foldl_append, List.foldl_cons, List.foldl_nil]

theorem toNat_word (size n : Nat) : toNat (word size n) = n % 256 ^ size := by
  induction size generalizing n with
  | zero => simp [word, toNat, Nat.mod_one]
  | succ size ih =>
    have split : 256 ^ (size + 1) = 256 * 256 ^ size := Nat.pow_succ'
    rw [word, toNat_concat, ih, UInt8.toNat_ofNat', split, Nat.mod_mul]
    omega

theorem word_one (n : Nat) : word 1 n = [UInt8.ofNat n] := rfl

theorem word_two (n : Nat) : word 2 n = [UInt8.ofNat (n / 256), UInt8.ofNat n] := rfl

theorem word_four (n : Nat) :
    word 4 n = [UInt8.ofNat (n / 256 / 256 / 256), UInt8.ofNat (n / 256 / 256), UInt8.ofNat (n / 256), UInt8.ofNat n] :=
  rfl

def hashStep (state : UInt32) (b : UInt8) : UInt32 := (state ^^^ b.toUInt32) * 0x01000193

def hash (bytes : Bytes) : UInt32 := bytes.foldl hashStep 0x811c9dc5

theorem hash_append (front back : Bytes) : hash (front ++ back) = back.foldl hashStep (hash front) :=
  List.foldl_append

end Bytes

/-- A byte string of exactly `n` bytes. -/
structure Block (n : Nat) where
  bytes : Bytes
  size : bytes.length = n
  deriving DecidableEq

namespace Block

def ofBytes? (n : Nat) (bytes : Bytes) : Option (Block n) :=
  if h : bytes.length = n then some ⟨bytes, h⟩ else none

/-- Splits a block off the front, if there are enough bytes. -/
def cut (n : Nat) (bytes : Bytes) : Option (Block n × Bytes) :=
  if h : n ≤ bytes.length then
    some (⟨bytes.take n, by rw [List.length_take, Nat.min_eq_left h]⟩, bytes.drop n)
  else none

theorem cut_append {n : Nat} (block : Block n) (rest : Bytes) : cut n (block.bytes ++ rest) = some (block, rest) := by
  obtain ⟨bytes, rfl⟩ := block
  simp [cut]

theorem append_of_cut {n : Nat} {bytes rest : Bytes} {block : Block n} (h : cut n bytes = some (block, rest)) :
    bytes = block.bytes ++ rest := by
  unfold cut at h
  split at h
  · cases h; exact (List.take_append_drop n bytes).symm
  · cases h

theorem cut_eq_none_iff {n : Nat} {bytes : Bytes} : cut n bytes = none ↔ bytes.length < n := by
  unfold cut
  split <;> simp <;> omega

end Block

end PacketStack
