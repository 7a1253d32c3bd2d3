import ZkVerify.Frame.Codec
import ZkVerify.Frame.MerkleSoundness
import ZkVerify.Aggregate.Paths

/-!
# Paths that lead to a receipt

Whoever checks a path knows the receipt, but not the statements behind it.  `MerkleTree.Sound` says
what has to be expected of the tree then: a path that verifies against a root starts at one of the
leaves, whatever position and number of leaves it claims.  No hash function can promise this for
all strings, so `MerkleInputs` says which strings are hashed, and no two of them may collide.

The law holds for the binary Merkle tree over Keccak (`binaryTree_sound`).
-/

namespace ZkVerify.Aggregate

open Frame

/-- The strings that are hashed for a tree. -/
structure MerkleInputs where
  /-- For the root over a list of leaves. -/
  root : List H256 → List (HashFunction × Bytes)
  /-- For the check of a path, with its number of leaves, its position and its leaf. -/
  path : List H256 → ℕ → ℕ → H256 → List (HashFunction × Bytes)

/-- A path that verifies against a root starts at one of its leaves, unless two of the strings
collide that are hashed for the root and for the path. -/
def MerkleTree.Sound (tree : MerkleTree) (merkleRoot : List H256 → H256) (H : Hashing)
    (inputs : MerkleInputs) : Prop :=
  ∀ leaves path numberOfLeaves leafIndex leaf, leaves ≠ [] →
    H.NoCollisions (inputs.root leaves ++ inputs.path path numberOfLeaves leafIndex leaf) →
    tree.verifyProof (merkleRoot leaves) path numberOfLeaves leafIndex leaf = true →
    leaf ∈ leaves

/-! ## The binary tree -/

/-- The string that is hashed for a leaf or for two nodes. -/
def inputBytes : Merkle.Input H256 H256 → HashFunction × Bytes
  | .inl leaf => (.keccak256, hashBytes leaf)
  | .inr (a, b) => (.keccak256, hashBytes a ++ hashBytes b)

theorem inputBytes_injective : Function.Injective inputBytes := by
  have hdelimited : Delimited hashBytes := delimited_toList 32
  have hlength : ∀ leaf a b : H256, hashBytes leaf ≠ hashBytes a ++ hashBytes b := by
    intro leaf a b h
    have := congrArg List.length h
    simp [hashBytes] at this
  intro i j h
  rcases i with leaf | ⟨a, b⟩
  · rcases j with leaf' | ⟨a', b'⟩
    · rw [hdelimited.injective (Prod.mk.inj h).2]
    · exact absurd (Prod.mk.inj h).2 (hlength _ _ _)
  · rcases j with leaf' | ⟨a', b'⟩
    · exact absurd (Prod.mk.inj h).2.symm (hlength _ _ _)
    · obtain ⟨rfl, hb⟩ := hdelimited _ _ _ _ (Prod.mk.inj h).2
      rw [hdelimited.injective hb]

/-- The node that an input is hashed to. -/
def digest (H : Hashing) (input : Merkle.Input H256 H256) : H256 :=
  H (inputBytes input).1 (inputBytes input).2

/-- The strings that are hashed for the binary tree: all leaves and all pairs of nodes, and on a
path its leaf and what is climbed through. -/
def binaryInputs (H : Hashing) : MerkleInputs where
  root leaves := ((Merkle.tree zeroReceipt leaves).inputs (digest H)).map inputBytes
  path siblings numberOfLeaves leafIndex leaf :=
    inputBytes (.inl leaf) :: ((Merkle.climbInputs (fun a b => digest H (.inr (a, b))) leafIndex
      numberOfLeaves (digest H (.inl leaf)) siblings).map .inr).map inputBytes

theorem binaryTree_sound (H : Hashing) :
    (binaryTree H).Sound (binaryRoot H) H (binaryInputs H) := by
  intro leaves path numberOfLeaves leafIndex leaf hne hno h
  have hroot : binaryRoot H leaves = (Merkle.tree zeroReceipt leaves).hash (digest H) := by
    rw [Merkle.hash_tree]
    exact Merkle.root_eq_of_ne_nil (by simpa using hne) _ _
  obtain ⟨-, hclimb⟩ := (Bool.and_eq_true _ _).mp h
  have hclimb := (of_decide_eq_true hclimb).trans hroot
  rw [← Merkle.leaves_tree zeroReceipt hne]
  refine Merkle.mem_of_climb_eq (digest H) _ (fun i hi j hj hij => ?_) hclimb
  have hinput : ∀ input, (input ∈ (Merkle.tree zeroReceipt leaves).inputs (digest H) ∨
      input = .inl leaf ∨ input ∈ (Merkle.climbInputs (fun a b => digest H (.inr (a, b)))
        leafIndex numberOfLeaves (digest H (.inl leaf)) path).map .inr) →
      inputBytes input ∈ (binaryInputs H).root leaves ++
        (binaryInputs H).path path numberOfLeaves leafIndex leaf := by
    rintro input (hmem | rfl | hmem)
    · exact List.mem_append_left _ (List.mem_map_of_mem hmem)
    · exact List.mem_append_right _ List.mem_cons_self
    · exact List.mem_append_right _ (List.mem_cons_of_mem _ (List.mem_map_of_mem hmem))
  exact inputBytes_injective (hno _ (hinput i hi) _ (hinput j hj) hij)

end ZkVerify.Aggregate
