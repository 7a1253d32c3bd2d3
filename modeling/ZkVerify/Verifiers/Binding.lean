import ZkVerify.Verifiers.Registry
import ZkVerify.Verifiers.Stark
import ZkVerify.Verifiers.Tee
import ZkVerify.Verifiers.Ultrahonk

/-!
# What a statement binds

A statement is the hash of four hashes: of the name of the verifier, of the key, of the
version and of the public inputs.  Each has 32 bytes, so the four can be read off the
hashed string, and each of them determines what it is the hash of.  For a key that is given by its
hash this needs the registry: the key that the proof is verified against is the one
with that hash.

A hash function has collisions, so all this is relative to the inputs that two
submissions hash, `Submission.hashInputs`.
-/

namespace ZkVerify.Verifiers

open Frame

/-! ## The statement -/

section Statement

variable {A V P I X T V' P' I' X' : Type} {H : Hashing}

/-- The string whose hash is the statement, for a key with the given hash. -/
def statementPreimage (H : Hashing) (verifier : Verifier V P I X) (vkHash : H256) (proof : P)
    (pubs : I) : Bytes :=
  hashBytes (H .keccak256 verifier.hashContextData) ++ hashBytes vkHash ++
    hashBytes (verifier.verifierVersionHash proof) ++
    hashBytes (H .keccak256 (verifier.pubsBytes pubs))

/-- The hash of a key or the hash itself. -/
def VkOrHash.toHash (verifier : Verifier V P I X) : VkOrHash V → H256
  | .hash h => h
  | .vk key => verifier.vkHash key

theorem computeStatementHash_eq (verifier : Verifier V P I X) (vkOrHash : VkOrHash V) (proof : P)
    (pubs : I) :
    computeStatementHash H verifier vkOrHash proof pubs =
      H .keccak256 (statementPreimage H verifier (vkOrHash.toHash verifier) proof pubs) := by
  cases vkOrHash <;> rfl

/-- The four hashes can be read off the hashed string. -/
theorem statementPreimage_inj {verifier : Verifier V P I X} {verifier' : Verifier V' P' I' X'}
    {h h' : H256} {proof : P} {proof' : P'} {pubs : I} {pubs' : I'}
    (heq : statementPreimage H verifier h proof pubs =
      statementPreimage H verifier' h' proof' pubs') :
    H .keccak256 verifier.hashContextData = H .keccak256 verifier'.hashContextData ∧ h = h' ∧
      verifier.verifierVersionHash proof = verifier'.verifierVersionHash proof' ∧
      H .keccak256 (verifier.pubsBytes pubs) = H .keccak256 (verifier'.pubsBytes pubs') := by
  have hdelimited : Delimited hashBytes := delimited_toList 32
  unfold statementPreimage at heq
  simp only [List.append_assoc] at heq
  obtain ⟨hcontext, heq⟩ := hdelimited _ _ _ _ heq
  obtain ⟨hvk, heq⟩ := hdelimited _ _ _ _ heq
  obtain ⟨hversion, heq⟩ := hdelimited _ _ _ _ heq
  exact ⟨hcontext, hvk, hversion, hdelimited.injective heq⟩

variable [DecidableEq A]

/-- The key that a proof is verified against has the hash that the statement commits to. -/
theorem resolveVk_hash {cfg : Config A V P I X T} {s : State A V X T} {vkOrHash : VkOrHash V}
    {vk : V} (hs : Reachable cfg s) (h : resolveVk cfg vkOrHash s = .ok vk) :
    vkOrHash.toHash cfg.verifier = cfg.verifier.vkHash vk := by
  cases vkOrHash with
  | hash hash =>
      obtain ⟨entry, hlookup, rfl⟩ := resolveVk_hash_eq_ok.mp h
      exact (hs.registered.hashed hash entry hlookup).symm
  | vk given =>
      obtain ⟨_, -, h⟩ := seq_eq_ok.mp h
      cases h
      rfl

/-- A call of `submit_proof` that succeeds in a reachable state: the key it verifies against and
the statement it emits. -/
structure Submission (cfg : Config A V P I X T) where
  state : State A V X T
  reachable : Reachable cfg state
  origin : RawOrigin A
  vkOrHash : VkOrHash V
  proof : P
  pubs : I
  domainId : Option ℕ
  statement : H256
  emitted : ∃ state' info, submitProof cfg origin vkOrHash proof pubs domainId state =
    .ok (state', info) ∧ state'.events = state.events ++ [.proofVerified statement]
  vk : V
  resolved : resolveVk cfg vkOrHash state = .ok vk

/-- The statement of a submission is the hash of its preimage, for the key of the submission. -/
theorem Submission.statement_eq {cfg : Config A V P I X T} (a : Submission cfg) :
    a.statement = cfg.hashing .keccak256
      (statementPreimage cfg.hashing cfg.verifier (cfg.verifier.vkHash a.vk) a.proof a.pubs) := by
  obtain ⟨state', info, hok, hevents⟩ := a.emitted
  rw [← resolveVk_hash a.reachable a.resolved,
    ← computeStatementHash_eq (H := cfg.hashing) cfg.verifier a.vkOrHash]
  have heffect : Effect cfg a.state (.submitProof a.origin a.vkOrHash a.proof a.pubs a.domainId)
      state' := effect_of_dispatch hok
  cases heffect with
  | verified =>
      have hnew := List.append_cancel_left hevents
      simpa [eq_comm] using hnew

end Statement

/-! ## The verifiers of the chain -/

/-- The verifiers, except for the one for Groth16. -/
inductive Kind
  | fflonk
  | ultraplonk
  | ultrahonk
  | ezkl
  | risc0
  | sp1
  | plonky2
  | tee
deriving DecidableEq, Repr

namespace Kind

/-- The verification keys. -/
@[reducible] def Vk : Kind → Type
  | fflonk => Fflonk.Vk
  | ultraplonk => Ultraplonk.Vk
  | ultrahonk => Ultrahonk.VersionedVk
  | ezkl => Ezkl.Vk
  | risc0 => Risc0.Vk
  | sp1 => Sp1.Vk
  | plonky2 => Plonky2.Vk
  | tee => Tee.Vk

/-- The proofs. -/
@[reducible] def Proof : Kind → Type
  | fflonk => Fflonk.Proof
  | ultraplonk => Ultraplonk.Proof
  | ultrahonk => Ultrahonk.VersionedProof
  | ezkl => Ezkl.Proof
  | risc0 => Risc0.Proof
  | sp1 => Sp1.Proof
  | plonky2 => Plonky2.Proof
  | tee => Tee.Proof

/-- The public inputs. -/
@[reducible] def Pubs : Kind → Type
  | fflonk => Fflonk.Pubs
  | ultraplonk => Ultraplonk.Pubs
  | ultrahonk => Ultrahonk.Pubs
  | ezkl => Ezkl.Pubs
  | risc0 => Risc0.Pubs
  | sp1 => Sp1.Pubs
  | plonky2 => Plonky2.Pubs
  | tee => Tee.Pubs

end Kind

/-- The verification crates of all verifiers. -/
structure Crates (X C : Type) where
  fflonk : Fflonk.Crate
  ultraplonk : Ultraplonk.Crate
  ultrahonk : Ultrahonk.Crate
  ezkl : Ezkl.Crate
  risc0 : Risc0.Crate
  sp1 : Sp1.Crate
  plonky2 : Plonky2.Crate
  tee : Tee.Crate X C

namespace Kind

variable {X C : Type} {H : Hashing} {crates : Crates X C}

/-- The verifier of each kind. -/
def verifier (H : Hashing) (crates : Crates X C) : (k : Kind) → Verifier k.Vk k.Proof k.Pubs X
  | fflonk => Fflonk.verifier H crates.fflonk
  | ultraplonk => Ultraplonk.verifier H crates.ultraplonk
  | ultrahonk => Ultrahonk.verifier H crates.ultrahonk
  | ezkl => Ezkl.verifier H crates.ezkl
  | risc0 => Risc0.verifier crates.risc0
  | sp1 => Sp1.verifier crates.sp1
  | plonky2 => Plonky2.verifier H crates.plonky2
  | tee => Tee.verifier H crates.tee

/-- What is hashed to get the hash of a key; the keys of `risc0` and `sp1` are hashes. -/
def vkInputs : (k : Kind) → k.Vk → List (HashFunction × Bytes)
  | fflonk, vk => [(.keccak256, vk.encode)]
  | ultraplonk, vk => [(.sha2_256, Ultraplonk.encodeVk vk)]
  | ultrahonk, vk => [(vk.hashFunction, vk.vkBytes)]
  | ezkl, vk => [(.keccak256, Ezkl.encodeVk vk)]
  | risc0, _ => []
  | sp1, _ => []
  | plonky2, vk => [(.keccak256, vk.encode)]
  | tee, vk => [(.keccak256, vk.encode)]

/-- The name of each verifier. -/
def context : Kind → Bytes
  | fflonk => ascii ['f', 'f', 'l', 'o', 'n', 'k']
  | ultraplonk => ascii ['u', 'l', 't', 'r', 'a', 'p', 'l', 'o', 'n', 'k']
  | ultrahonk => ascii ['u', 'l', 't', 'r', 'a', 'h', 'o', 'n', 'k']
  | ezkl => ascii ['e', 'z', 'k', 'l']
  | risc0 => ascii ['r', 'i', 's', 'c', '0']
  | sp1 => ascii ['s', 'p', '1']
  | plonky2 => ascii ['p', 'l', 'o', 'n', 'k', 'y', '2']
  | tee => ascii ['t', 'e', 'e']

theorem hashContextData_eq (k : Kind) : (k.verifier H crates).hashContextData = k.context := by
  cases k <;> rfl

theorem context_injective : Function.Injective context := by
  intro i j h
  cases i <;> cases j <;> first | rfl | exact absurd h (by decide)

/-- The bytes of the public inputs determine them. -/
theorem pubsBytes_injective (k : Kind) : Function.Injective (k.verifier H crates).pubsBytes := by
  cases k with
  | fflonk => exact fun _ _ h => Vector.toList_inj.mp h
  | ultraplonk | ultrahonk | ezkl => exact flattenPubs_injective
  | risc0 | sp1 | plonky2 | tee => exact Function.injective_id

/-- A hash without collisions on two codes tells the values apart. -/
private theorem eq_of_hash {V : Type} {code : V → HashFunction × Bytes}
    (hcode : Function.Injective code) {v w : V} (hno : H.NoCollisions [code v, code w])
    (h : H (code v).1 (code v).2 = H (code w).1 (code w).2) : v = w :=
  hcode (hno _ (by simp) _ (by simp) h)

/-- The hash of a key determines it. -/
theorem vkHash_inj (k : Kind) {v w : k.Vk} (hno : H.NoCollisions (k.vkInputs v ++ k.vkInputs w))
    (h : (k.verifier H crates).vkHash v = (k.verifier H crates).vkHash w) : v = w := by
  cases k with
  | fflonk =>
      exact eq_of_hash (fun _ _ h => Fflonk.Vk.encode_injective (Prod.mk.inj h).2) hno h
  | ultraplonk =>
      exact eq_of_hash (fun _ _ h => Ultraplonk.encodeVk_injective (Prod.mk.inj h).2) hno h
  | ultrahonk => exact eq_of_hash Ultrahonk.VersionedVk.hashed_injective hno h
  | ezkl => exact eq_of_hash (fun _ _ h => Ezkl.encodeVk_injective (Prod.mk.inj h).2) hno h
  | risc0 | sp1 => exact h
  | plonky2 => exact eq_of_hash (fun _ _ h => Plonky2.Vk.encode_injective (Prod.mk.inj h).2) hno h
  | tee => exact eq_of_hash (fun _ _ h => Tee.Vk.encode_injective (Prod.mk.inj h).2) hno h

end Kind

/-! ## The runtime -/

/-- What the verifier pallets of one chain share. -/
structure Runtime (A X C T : Type) where
  hashing : Hashing
  crates : Crates X C
  onProofVerified : Option A → Option ℕ → H256 → X → Option X
  onProofVerifiedWeight : Option ℕ → Weight
  ticket : Consideration A X T (DispatchError Error)
  weightInfo : (k : Kind) → WeightInfo k.Vk k.Proof k.Pubs
  dbRead : Weight
  onVerifyDisabledVerifier : Weight

variable {A X C T : Type}

/-- The configuration of the pallet of one verifier. -/
def Runtime.config (R : Runtime A X C T) (k : Kind) : Config A k.Vk k.Proof k.Pubs X T where
  verifier := k.verifier R.hashing R.crates
  hashing := R.hashing
  onProofVerified := R.onProofVerified
  onProofVerifiedWeight := R.onProofVerifiedWeight
  ticket := R.ticket
  weightInfo := R.weightInfo k
  dbRead := R.dbRead
  onVerifyDisabledVerifier := R.onVerifyDisabledVerifier

variable [DecidableEq A]

/-- Everything that is hashed for the statement of a submission. -/
def Submission.hashInputs {R : Runtime A X C T} {k : Kind} (a : Submission (R.config k)) :
    List (HashFunction × Bytes) :=
  (.keccak256, statementPreimage R.hashing (k.verifier R.hashing R.crates)
      ((k.verifier R.hashing R.crates).vkHash a.vk) a.proof a.pubs) ::
    (.keccak256, (k.verifier R.hashing R.crates).hashContextData) ::
    (.keccak256, (k.verifier R.hashing R.crates).pubsBytes a.pubs) :: k.vkInputs a.vk

namespace Submission

variable {R : Runtime A X C T} {k : Kind} (a : Submission (R.config k))

theorem preimage_mem_hashInputs :
    (.keccak256, statementPreimage R.hashing (k.verifier R.hashing R.crates)
      ((k.verifier R.hashing R.crates).vkHash a.vk) a.proof a.pubs) ∈ a.hashInputs := by
  simp [hashInputs]

theorem context_mem_hashInputs :
    (.keccak256, (k.verifier R.hashing R.crates).hashContextData) ∈ a.hashInputs := by
  simp [hashInputs]

theorem pubs_mem_hashInputs :
    (.keccak256, (k.verifier R.hashing R.crates).pubsBytes a.pubs) ∈ a.hashInputs := by
  simp [hashInputs]

theorem vkInputs_subset_hashInputs : k.vkInputs a.vk ⊆ a.hashInputs := by
  intro f hf
  simp [hashInputs, hf]

end Submission

/-- Two submissions, to any two verifiers, that emit the same statement are to the same verifier,
were verified against the same key and for the same public inputs, and have the same version. -/
theorem statement_binds (R : Runtime A X C T) {i j : Kind} (a : Submission (R.config i))
    (b : Submission (R.config j)) (hno : R.hashing.NoCollisions (a.hashInputs ++ b.hashInputs))
    (hstatement : a.statement = b.statement) :
    (⟨i, a.vk, a.pubs⟩ : Σ k : Kind, k.Vk × k.Pubs) = ⟨j, b.vk, b.pubs⟩ ∧
      (i.verifier R.hashing R.crates).verifierVersionHash a.proof =
        (j.verifier R.hashing R.crates).verifierVersionHash b.proof := by
  have hkeccak : ∀ u v, (.keccak256, u) ∈ a.hashInputs → (.keccak256, v) ∈ b.hashInputs →
      R.hashing .keccak256 u = R.hashing .keccak256 v → u = v := fun u v hu hv h =>
    congrArg Prod.snd (hno _ (List.mem_append_left _ hu) _ (List.mem_append_right _ hv) h)
  rw [a.statement_eq, b.statement_eq] at hstatement
  -- The statements are hashes of the same string, so its four parts agree.
  obtain ⟨hcontext, hvk, hversion, hpubs⟩ := statementPreimage_inj
    (hkeccak _ _ a.preimage_mem_hashInputs b.preimage_mem_hashInputs hstatement)
  have hname := hkeccak _ _ a.context_mem_hashInputs b.context_mem_hashInputs hcontext
  rw [Kind.hashContextData_eq, Kind.hashContextData_eq] at hname
  obtain rfl : i = j := Kind.context_injective hname
  have hpubs : a.pubs = b.pubs :=
    i.pubsBytes_injective (hkeccak _ _ a.pubs_mem_hashInputs b.pubs_mem_hashInputs hpubs)
  have hkeys : i.vkInputs a.vk ++ i.vkInputs b.vk ⊆ a.hashInputs ++ b.hashInputs :=
    List.append_subset.mpr ⟨List.subset_append_of_subset_left _ a.vkInputs_subset_hashInputs,
      List.subset_append_of_subset_right _ b.vkInputs_subset_hashInputs⟩
  have hvk : a.vk = b.vk := i.vkHash_inj (hno.mono hkeys) hvk
  exact ⟨by rw [hvk, hpubs], hversion⟩

/-! ## The benchmark key of fflonk -/

/-- The key with which the fflonk verifier is tested and benchmarked. -/
def sampleVk : Fflonk.Vk where
  power := 24
  k1 := 2
  k2 := 3
  w := 5709868443893258075976348696661355716898495876243883251619397131511003808859
  w3 := 21888242871839275217838484774961031246154997185409878258781734729429964517155
  w4 := 21888242871839275217838484774961031246007050428528088939761107053157389710902
  w8 := 19540430494807482326159819597004422086093766032135589407132600596362845576832
  wr := 18200100796661656210024324131237448517259556535315737226009542456080026430510
  x2 :=
    ⟨⟨21831381940315734285607113342023901060522397560371972897001948545212302161822,
        17231025384763736816414546592865244497437017442647097510447326538965263639101⟩,
      ⟨2388026358213174446665280700919698872609886601280537296205114254867301080648,
        11507326595632554467052522095592665270651932854513688777769618397986436103170⟩,
      ⟨1, 0⟩⟩
  c0 :=
    ⟨7436841426934271843999872946312645822871802402068881571108027575346498207286,
      18448034242258174646222819724328439025708531082946938915005051387020977719791, 1⟩

/-- The valid proof for `sampleVk`. -/
def sampleProof : Fflonk.Proof :=
  ⟨([0x283e3f25323d02dabdb94a897dc2697a3b930d8781381ec574af89a201a91d5a,
    0x2c2808c59f5c736ff728eedfea58effc2443722e78b2eb4e6759a278e9246d60,
    0x0f9c56dc88e043ce0b90c402e96b1f4b1a246f4d0d69a4c340bc910e1f2fd805,
    0x19e465e01bd7629f175931feed102cb6459a1be7b08018b93c142e961d0352d8,
    0x0b8e5d340df28c2f454c5a2535ca01a230bb945ee24b1171481a9a2c6496fed6,
    0x1cf8878e40adb52dc27da5e79718f118467319d15d64fed460d69d951376ac63,
    0x1a6c44faaec76e296b43fe720d700a63fd530f9064878b5f72f2ffe7458c2f03,
    0x1ac6ed8c1e0758dfb3702ed29bbc0c14b5e727c164b3ade07b9f164af0be54b0,
    0x143b1a6534b2dcf2bd660e1b5b420d86c0c350fd9d614b639c5df98009f1375e,
    0x141259679021d0a6a3aa3aae2516bace4a4a651265217ec0ea7c0d7f89b98710,
    0x0abcc93d98ff40bae16eff6c29955f7a37155bb25672b12eb5074dcb7c3e2b00,
    0x1718a257cca21ee593d1ba9f8e91e5168aed8e0b1893e11a6b583d975e747f80,
    0x08a8c2150a04d8f867945ca1740dc3fc3b2fc4daff61b4725fb294435a1b9010,
    0x1803690ae70fc212b7e929de9a22a4642ef4772546cf93ffd1b1196a3d9113a3,
    0x009c506755578932ca3630508ca1ed6ee83df5ec9e26cb0b5800a70967a1a93a,
    0x04d142b6a532935a31d84f75d16929df6d38c3a210ac4f435a8024dfb7e6c1f3,
    0x246d58038a943f237325b44f03d106e523adfec4324615a2dd09e1e5b9143b41,
    0x1c1cf09ee411cf9864d30df4904099920cee9ae8134d45dfeb29e46115d2e740,
    0x098674b8fc2ca31fac6fcc9302860654fdc1b522b7e064b0759bc5924f332fa9,
    0x21121b5af880f83fbce02f19dabb8f684593e7322fb80bfc0d054797b1d4eff4,
    0x11b01bf68f81f2032ae4f7fc514bd76ca1b264f3989a92e6b3d74cda4f8a7149,
    0x20e4c02f5a71082a8bcf5be0b5750a244bd040a776ec541dfc2c8ae73180e924,
    0x0ada5414d66387211eec80d7d9d48498efa1e646d64bb1bf8775b3796a9fd0bf,
    0x0fdf8244018ce57b018c093e2f75ed77d8dbdb1a7b60a2da671de2efe5f6b9d7].flatMap
    fun n => (h256 n).toList).toArray, by decide +kernel⟩

/-- The public inputs of `sampleProof`. -/
def samplePubs : Fflonk.Pubs :=
  h256 0x0d69b94acdfaca5bacc248a60b35b925a2374644ce0c1205db68228c8921d9d9

/-- The hash of `sampleVk`. -/
def sampleVkHash : H256 :=
  h256 0x6fc9745758412a2fd89c21be8542239c860a076620d44a8c7ee933539c0581f7

/-- The statement of `sampleProof`. -/
def sampleStatement : H256 :=
  h256 0x0362e61e7c6f487ab600d841f1e584ad9a75f9c5b0c4d8999b10ff67e914566c

/-- The Keccak-256 hashes of the name, the key, the public inputs and the statement. -/
def sampleDigests : List (Bytes × H256) :=
  let context := h256 0xf3ea530c56e5b3ca31ab40a63fede9b510929ed8c111288b8415ea4dff1296c8
  let pubs := h256 0xa0cfac4e4341a0cba426456f676a6a6d18db184d07dba8766095ff89c2a1e812
  [(Kind.fflonk.context, context), (sampleVk.encode, sampleVkHash), (samplePubs.toList, pubs),
    (hashBytes context ++ hashBytes sampleVkHash ++ hashBytes noVersionHash ++ hashBytes pubs,
      sampleStatement)]

/-- The hash functions on the inputs of `sampleDigests`. -/
def sampleHashing : Hashing
  | .keccak256, bytes => (sampleDigests.lookup bytes).getD (h256 0)
  | .sha2_256, _ => h256 0

/-- Crates that accept the sample key and its proof, and nothing else. -/
def sampleCrates : Crates (Book ℕ Unit) Unit where
  fflonk :=
    { keyIsValid := fun vk => decide (vk = sampleVk)
      keyIsReadable := fun vk => decide (vk = sampleVk)
      proofIsReadable := fun proof => decide (proof = sampleProof)
      verify := fun vk proof pubs =>
        decide (vk = sampleVk) && decide (proof = sampleProof) && decide (pubs = samplePubs) }
  ultraplonk := ⟨0, fun _ => false, fun _ _ _ => .error .verificationError⟩
  ultrahonk :=
    ⟨0, fun _ => false, fun _ => false, fun _ _ _ => .error .verificationError,
      fun _ _ _ => .error .verificationError, fun _ => none, fun _ => ⟨0, 0⟩, fun _ => ⟨0, 0⟩⟩
  ezkl := ⟨0, fun _ _ _ => .error .verificationError⟩
  risc0 :=
    ⟨0, 0, 0, fun _ => false, fun _ => none, fun _ _ _ => false, ⟨0, 0⟩, fun _ => ⟨0, 0⟩⟩
  sp1 := ⟨0, fun _ => false, fun _ _ _ => false⟩
  plonky2 :=
    ⟨0, 0, 0, fun _ _ => none, fun _ _ => false, fun _ _ _ => false, fun _ _ => ⟨0, 0⟩⟩
  tee :=
    { now := fun _ => 0
      getCrl := fun _ _ => none
      caNameFor := fun _ => []
      quoteIsReadable := fun _ => false
      tcbIsReadable := fun _ => false
      tcbInfoVerify := fun _ _ => false
      quoteVerify := fun _ _ _ _ => false
      attestationIsReadable := fun _ => false
      attestationVerify := fun _ _ _ => false
      tcbIsDecodable := fun _ => false
      tcbResponseVerify := fun _ _ _ _ => false
      intelVerifyProof := ⟨0, 0⟩
      nitroVerifyProof := ⟨0, 0⟩ }

/-- A chain with the sample crates, on which a registration costs the size of the key. -/
def sampleRuntime : Runtime ℕ (Book ℕ Unit) Unit ℕ where
  hashing := sampleHashing
  crates := sampleCrates
  onProofVerified _ _ _ x := some x
  onProofVerifiedWeight _ := ⟨0, 0⟩
  ticket := Book.consideration () Footprint.size
  weightInfo _ := ⟨fun _ _ => ⟨0, 0⟩, ⟨0, 0⟩, fun _ => ⟨0, 0⟩, fun _ _ => ⟨0, 0⟩⟩
  dbRead := ⟨0, 0⟩
  onVerifyDisabledVerifier := ⟨0, 0⟩

/-- Every account owns `1000`. -/
def sampleAccounts : Book ℕ Unit := ⟨fun _ => 1000, fun _ _ => 0, fun _ => 0, fun _ => 0, 1000000⟩

theorem sampleProof_verifies (x : Book ℕ Unit) :
    (Kind.fflonk.verifier sampleHashing sampleCrates).verifyProof sampleVk sampleProof samplePubs
      x = .ok none := by
  simp [Kind.verifier, Fflonk.verifier, sampleCrates]

theorem sampleVk_resolved :
    resolveVk (sampleRuntime.config .fflonk) (.vk sampleVk) (.genesis sampleAccounts) =
      .ok sampleVk := by
  decide +kernel

/-- Account `1` submits the proof with its key. -/
def sampleByValue : Submission (sampleRuntime.config .fflonk) where
  state := .genesis sampleAccounts
  reachable := ⟨sampleAccounts, [], rfl⟩
  origin := .signed 1
  vkOrHash := .vk sampleVk
  proof := sampleProof
  pubs := samplePubs
  domainId := none
  statement := sampleStatement
  emitted := by
    have hstatement : computeStatementHash sampleHashing (Kind.fflonk.verifier sampleHashing
        sampleCrates) (.vk sampleVk) sampleProof samplePubs = sampleStatement := by decide +kernel
    rw [← hstatement]
    exact submitProof_ok rfl sampleVk_resolved rfl (sampleProof_verifies _) rfl
  vk := sampleVk
  resolved := sampleVk_resolved

/-- Account `2` registers the key. -/
def sampleRegistered : State ℕ Fflonk.Vk (Book ℕ Unit) ℕ :=
  run (sampleRuntime.config .fflonk) (.genesis sampleAccounts)
    [.call (.registerVk (.signed 2) sampleVk)]

theorem sampleVkHash_resolved :
    resolveVk (sampleRuntime.config .fflonk) (.hash sampleVkHash) sampleRegistered =
      .ok sampleVk := by
  decide +kernel

/-- Account `3` submits the proof with the hash of the registered key. -/
def sampleByHash : Submission (sampleRuntime.config .fflonk) where
  state := sampleRegistered
  reachable := ⟨sampleAccounts, _, rfl⟩
  origin := .signed 3
  vkOrHash := .hash sampleVkHash
  proof := sampleProof
  pubs := samplePubs
  domainId := some 0
  statement := sampleStatement
  emitted := by
    have hstatement : computeStatementHash sampleHashing (Kind.fflonk.verifier sampleHashing
        sampleCrates) (.hash sampleVkHash) sampleProof samplePubs = sampleStatement := by
      decide +kernel
    rw [← hstatement]
    exact submitProof_ok (by decide +kernel) sampleVkHash_resolved rfl (sampleProof_verifies _) rfl
  vk := sampleVk
  resolved := sampleVkHash_resolved

theorem statement_binds_sample :
    (⟨.fflonk, sampleByValue.vk, sampleByValue.pubs⟩ : Σ k : Kind, k.Vk × k.Pubs) =
        ⟨.fflonk, sampleByHash.vk, sampleByHash.pubs⟩ ∧
      (Kind.fflonk.verifier sampleHashing sampleCrates).verifierVersionHash sampleByValue.proof =
        (Kind.fflonk.verifier sampleHashing sampleCrates).verifierVersionHash sampleByHash.proof :=
  statement_binds sampleRuntime sampleByValue sampleByHash (by decide +kernel) rfl

end ZkVerify.Verifiers
