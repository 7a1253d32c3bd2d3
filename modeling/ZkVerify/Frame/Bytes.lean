import Mathlib.Algebra.Group.Nat.Defs
import Mathlib.Data.Nat.Basic

/-!
# Bytes and hashes

Byte strings, 32-byte hashes and the length of a compact integer.  The hash functions
of the chain are a parameter, `Hashing`.  A hash function has collisions, so nothing
is assumed about all inputs; `Hashing.NoCollisions` speaks of the inputs of a list, and
an input is a byte string together with the function it is hashed with.
-/

namespace Frame

/-- A byte string. -/
abbrev Bytes := List UInt8

/-- A 32-byte hash. -/
abbrev H256 := Vector UInt8 32

/-- The bytes of a hash. -/
def hashBytes (h : H256) : Bytes := h.toList

/-- A byte string literal. -/
def ascii (text : List Char) : Bytes := text.map fun c => UInt8.ofNat c.toNat

/-- A hash literal: the 32 bytes of `n`, the most significant one first. -/
def h256 (n : ℕ) : H256 := Vector.ofFn fun i : Fin 32 => UInt8.ofNat (n / 256 ^ (31 - i.val))

/-- The hash functions in use. -/
inductive HashFunction
  | keccak256
  | sha2_256
deriving DecidableEq, Repr

/-- An implementation of the hash functions. -/
abbrev Hashing := HashFunction → Bytes → H256

/-- Different inputs of the list have different hashes. -/
def Hashing.NoCollisions (H : Hashing) (inputs : List (HashFunction × Bytes)) : Prop :=
  ∀ i ∈ inputs, ∀ j ∈ inputs, H i.1 i.2 = H j.1 j.2 → i = j

instance (H : Hashing) (inputs : List (HashFunction × Bytes)) :
    Decidable (H.NoCollisions inputs) :=
  inferInstanceAs (Decidable (∀ i ∈ inputs, ∀ j ∈ inputs, H i.1 i.2 = H j.1 j.2 → i = j))

theorem Hashing.NoCollisions.mono {H : Hashing} {inputs inputs' : List (HashFunction × Bytes)}
    (h : H.NoCollisions inputs) (hsub : inputs' ⊆ inputs) : H.NoCollisions inputs' :=
  fun i hi j hj => h i (hsub hi) j (hsub hj)

/-- The number of bytes of a `Compact<u32>`. -/
def compactLen (n : ℕ) : ℕ :=
  if n < 2 ^ 6 then 1 else if n < 2 ^ 14 then 2 else if n < 2 ^ 30 then 4 else 5

end Frame
