import ZkVerify.Verifiers.ByHash
import ZkVerify.Chain.Verified

/-!
# The hash of a key, off the chain

A client that wants to submit proofs by the hash of a key asks a node for this hash.  The node
computes it on its own, from a key in another format and with checks of its own, without asking the
chain.

`requestFor` is what a client has to send for a key of the chain: its fields under the names that
they have in the format of the node.  It does not know how the node reads a request.
`vk_hash_agrees` says that the node reads it as it is meant.  The request for a key that is
registered with a settlement pallet is answered with the hash under which the chain has stored the
key, except for the TEE keys, which the node does not offer.  And whatever request is answered is
the request for exactly one key, and the answer is the hash of this key.
-/

namespace ZkVerify.Chain.VkHashRpc

open Frame Verifiers

/-! ## Keys in requests -/

/-- `ErrorObject`. -/
structure ErrorObject where
  code : ℕ
  message : String
  data : Option String
deriving DecidableEq

/-- `ErrorObject::owned`, with the message as data. -/
def ErrorObject.owned (code : ℕ) (message : String) : ErrorObject := ⟨code, message, some message⟩

/-- `Groth16Vk`. -/
structure Groth16Vk where
  curve : Groth16.Curve
  alphaG1 : ByteVec
  betaG2 : ByteVec
  gammaG2 : ByteVec
  deltaG2 : ByteVec
  gammaAbcG1 : BoundedVec ByteVec u32Max

/-- `From<Groth16Vk>`. -/
def Groth16Vk.into (vk : Groth16Vk) : Groth16.VerificationKeyWithCurve where
  curve := vk.curve
  alphaG1 := ⟨vk.alphaG1⟩
  betaG2 := ⟨vk.betaG2⟩
  gammaG2 := ⟨vk.gammaG2⟩
  deltaG2 := ⟨vk.deltaG2⟩
  gammaAbcG1 := ⟨vk.gammaAbcG1.toList.map Groth16.G1.mk, by simp [vk.gammaAbcG1.length_le]⟩

/-- `Plonky2Vk`. -/
structure Plonky2Vk where
  config : Plonky2.Plonky2Config
  bytes : ByteVec

/-- `EzklVk`. -/
structure EzklVk where
  vkBytes : ByteVec

/-- `FflonkVk`. -/
structure FflonkVk where
  power : UInt8
  k1 : Fflonk.U256
  k2 : Fflonk.U256
  w : Fflonk.U256
  w3 : Fflonk.U256
  w4 : Fflonk.U256
  w8 : Fflonk.U256
  wr : Fflonk.U256
  x2 : Vector (Vector Fflonk.U256 2) 3
  c0 : Vector Fflonk.U256 3

/-- `From<FflonkVk>`. -/
def FflonkVk.into (vk : FflonkVk) : Fflonk.Vk where
  power := vk.power
  k1 := vk.k1
  k2 := vk.k2
  w := vk.w
  w3 := vk.w3
  w4 := vk.w4
  w8 := vk.w8
  wr := vk.wr
  x2 := ⟨⟨vk.x2[0][0], vk.x2[0][1]⟩, ⟨vk.x2[1][0], vk.x2[1][1]⟩, ⟨vk.x2[2][0], vk.x2[2][1]⟩⟩
  c0 := ⟨vk.c0[0], vk.c0[1], vk.c0[2]⟩

/-- `try_into` from bytes to an array. -/
def tryIntoArray (n : ℕ) (bytes : ByteVec) : Option (Vector UInt8 n) :=
  if h : bytes.toList.length = n then some ⟨bytes.toList.toArray, by simp [h]⟩ else none

/-- `UltrahonkVk`. -/
inductive UltrahonkVk
  | v0_84 (bytes : ByteVec)
  | v3_0 (bytes : ByteVec)
  | legacy (bytes : ByteVec)

/-- `TryFrom<UltrahonkVk>`. -/
def UltrahonkVk.tryInto : UltrahonkVk → Except String Ultrahonk.VersionedVk
  | .v0_84 bytes => do
      let arr ← okOr (tryIntoArray _ bytes) "Incorrect length for V0_84 VK"
      return .v0_84 arr
  | .v3_0 bytes => do
      let arr ← okOr (tryIntoArray _ bytes) "Incorrect length for V3_0 VK"
      return .v3_0 arr
  | .legacy bytes => do
      let arr ← okOr (tryIntoArray _ bytes) "Incorrect length for Legacy VK"
      return .legacy arr

/-- The methods of `VKHashApi`, with their arguments. -/
inductive Request
  | ezkl (vk : EzklVk)
  | fflonk (vk : FflonkVk)
  | groth16 (vk : Groth16Vk)
  | plonky2 (vk : Plonky2Vk)
  | risc0 (vk : H256)
  | ultrahonk (vk : UltrahonkVk)
  | ultraplonk (vk : ByteVec)
  | sp1 (vk : H256)

variable {A X C T T₁ T₂ : Type} (cfg : Config A X C T T₁ T₂)

/-- `VKHash`: the answer of the node. -/
def Request.answer : Request → Except ErrorObject H256
  | .ezkl vk =>
      let length := vk.vkBytes.toList.length
      if length = 0 ∨ length &&& 31 ≠ 0 ∨ Ezkl.maxVkLength < length then
        .error (.owned 1 "Incorrect Slice Length")
      else .ok ((cfg.verifier (.other .ezkl)).vkHash ⟨vk.vkBytes⟩)
  | .fflonk vk => .ok ((cfg.verifier (.other .fflonk)).vkHash vk.into)
  | .groth16 vk => .ok ((cfg.verifier .groth16).vkHash vk.into)
  | .plonky2 vk => .ok ((cfg.verifier (.other .plonky2)).vkHash ⟨vk.config, vk.bytes⟩)
  | .risc0 vk => .ok vk
  | .ultrahonk vk =>
      match vk.tryInto with
      | .ok vk => .ok ((cfg.verifier (.other .ultrahonk)).vkHash vk)
      | .error e => .error (.owned 1 e)
  | .ultraplonk vk =>
      if vk.toList.length ≠ Ultraplonk.vkSize then .error (.owned 1 "Incorrect Slice Length")
      else do
        let vk ← okOr (tryIntoArray _ vk) (.owned 2 "Deserialize error")
        return (cfg.verifier (.other .ultraplonk)).vkHash vk
  | .sp1 vk => .ok vk

/-! ## The request for a key -/

/-- An array as bytes. -/
def ofArray {n : ℕ} (arr : Vector UInt8 n) (hn : n ≤ u32Max) : ByteVec :=
  ⟨arr.toList, by simpa using hn⟩

/-- A key of one of the settlement pallets. -/
abbrev Key := Σ k : Settlement, k.Vk

/-- What a client sends to ask for the hash of a key: the fields of the key, under their names. -/
def requestFor : Key → Option Request
  | ⟨.groth16, vk⟩ => some (.groth16
      { curve := vk.curve
        alphaG1 := vk.alphaG1.bytes
        betaG2 := vk.betaG2.bytes
        gammaG2 := vk.gammaG2.bytes
        deltaG2 := vk.deltaG2.bytes
        gammaAbcG1 := ⟨vk.gammaAbcG1.toList.map Groth16.G1.bytes, by
          simp [vk.gammaAbcG1.length_le]⟩ })
  | ⟨.other .fflonk, vk⟩ => some (.fflonk
      { power := vk.power
        k1 := vk.k1
        k2 := vk.k2
        w := vk.w
        w3 := vk.w3
        w4 := vk.w4
        w8 := vk.w8
        wr := vk.wr
        x2 := #v[#v[vk.x2.x.real, vk.x2.x.imaginary], #v[vk.x2.y.real, vk.x2.y.imaginary],
          #v[vk.x2.z.real, vk.x2.z.imaginary]]
        c0 := #v[vk.c0.x, vk.c0.y, vk.c0.z] })
  | ⟨.other .ultraplonk, vk⟩ => some (.ultraplonk (ofArray vk (by decide)))
  | ⟨.other .ultrahonk, .v0_84 bytes⟩ => some (.ultrahonk (.v0_84 (ofArray bytes (by decide))))
  | ⟨.other .ultrahonk, .v3_0 bytes⟩ => some (.ultrahonk (.v3_0 (ofArray bytes (by decide))))
  | ⟨.other .ultrahonk, .legacy bytes⟩ => some (.ultrahonk (.legacy (ofArray bytes (by decide))))
  | ⟨.other .ezkl, vk⟩ => some (.ezkl { vkBytes := vk.vkBytes })
  | ⟨.other .risc0, vk⟩ => some (.risc0 vk)
  | ⟨.other .sp1, vk⟩ => some (.sp1 vk)
  | ⟨.other .plonky2, vk⟩ => some (.plonky2 { config := vk.config, bytes := vk.bytes })
  -- The node has no method for these keys.
  | ⟨.other .tee, _⟩ => none

theorem exists_requestFor (key : Key) (hkey : key.1 ≠ .other .tee) :
    ∃ r, requestFor key = some r := by
  obtain ⟨k, vk⟩ := key
  cases k with
  | groth16 => exact ⟨_, rfl⟩
  | other kind =>
      cases kind with
      | ultrahonk => cases vk <;> exact ⟨_, rfl⟩
      | tee => exact absurd rfl hkey
      | _ => exact ⟨_, rfl⟩

/-! ## How the node reads a request -/

/-- The key that the node computes with. -/
def Request.read : Request → Option Key
  | .ezkl vk => some ⟨.other .ezkl, ⟨vk.vkBytes⟩⟩
  | .fflonk vk => some ⟨.other .fflonk, vk.into⟩
  | .groth16 vk => some ⟨.groth16, vk.into⟩
  | .plonky2 vk => some ⟨.other .plonky2, ⟨vk.config, vk.bytes⟩⟩
  | .risc0 vk => some ⟨.other .risc0, vk⟩
  | .ultrahonk vk =>
      match vk.tryInto with
      | .ok vk => some ⟨.other .ultrahonk, vk⟩
      | .error _ => none
  | .ultraplonk vk => (tryIntoArray _ vk).map fun vk => ⟨.other .ultraplonk, vk⟩
  | .sp1 vk => some ⟨.other .sp1, vk⟩

theorem tryInto_of_read {vk : UltrahonkVk} {key : Key}
    (h : (Request.ultrahonk vk).read = some key) :
    ∃ vk', vk.tryInto = .ok vk' ∧ key = ⟨.other .ultrahonk, vk'⟩ := by
  cases hvk : vk.tryInto with
  | error e => simp [Request.read, hvk] at h
  | ok vk' => exact ⟨vk', rfl, by simpa [Request.read, hvk] using h.symm⟩

theorem tryIntoArray_eq_some {n : ℕ} {bytes : ByteVec} {arr : Vector UInt8 n} (hn : n ≤ u32Max) :
    tryIntoArray n bytes = some arr ↔ bytes = ofArray arr hn := by
  unfold tryIntoArray
  constructor
  · intro h
    split at h
    · cases h
      exact BoundedVec.ext rfl
    · cases h
  · rintro rfl
    have hlength : (ofArray arr hn).toList.length = n := arr.length_toList
    rw [dif_pos hlength]
    exact congrArg some (Vector.toList_inj.mp rfl)

/-- The request for a key is read as this key. -/
theorem read_requestFor {key : Key} {r : Request} (h : requestFor key = some r) :
    r.read = some key := by
  have harray : ∀ {n : ℕ} (arr : Vector UInt8 n) (hn : n ≤ u32Max),
      tryIntoArray n (ofArray arr hn) = some arr := fun arr hn =>
    (tryIntoArray_eq_some hn).mpr rfl
  obtain ⟨k, vk⟩ := key
  cases k with
  | groth16 =>
      cases h
      have hpoints : Groth16.G1.mk ∘ Groth16.G1.bytes = id := rfl
      simp only [Request.read, Groth16Vk.into, List.map_map, hpoints, List.map_id]
  | other kind =>
      cases kind with
      | ultraplonk =>
          cases h
          simp [Request.read, harray]
      | ultrahonk => cases vk <;> cases h <;> simp [Request.read, UltrahonkVk.tryInto, harray]
      | tee => cases h
      | fflonk | ezkl | risc0 | sp1 | plonky2 =>
          cases h
          rfl

private theorem vector_two {α : Type} (v : Vector α 2) : #v[v[0], v[1]] = v := by
  ext i hi
  match i, hi with
  | 0, _ => rfl
  | 1, _ => rfl

private theorem vector_three {α : Type} (v : Vector α 3) : #v[v[0], v[1], v[2]] = v := by
  ext i hi
  match i, hi with
  | 0, _ => rfl
  | 1, _ => rfl
  | 2, _ => rfl

/-- A request is the one for the key that it is read as. -/
theorem requestFor_read {r : Request} {key : Key} (h : r.read = some key) :
    requestFor key = some r := by
  cases r with
  | groth16 vk =>
      cases h
      have hpoints : Groth16.G1.bytes ∘ Groth16.G1.mk = id := rfl
      simp only [requestFor, Groth16Vk.into, List.map_map, hpoints, List.map_id]
  | fflonk vk =>
      cases h
      simp only [requestFor, FflonkVk.into, vector_two, vector_three]
  | ultraplonk vk =>
      obtain ⟨arr, harr, rfl⟩ := Option.map_eq_some_iff.mp h
      obtain rfl := (tryIntoArray_eq_some (by decide)).mp harr
      rfl
  | ultrahonk vk =>
      obtain ⟨vk', hvk, rfl⟩ := tryInto_of_read h
      cases vk with
      | v0_84 bytes | v3_0 bytes | legacy bytes =>
          obtain ⟨arr, harr, hvk'⟩ := seq_eq_ok.mp hvk
          cases hvk'
          obtain rfl := (tryIntoArray_eq_some (by decide)).mp (okOr_eq_ok.mp harr)
          rfl
  | ezkl | plonky2 | risc0 | sp1 =>
      cases h
      rfl

variable {cfg}

/-- A valid key passes the checks of the node. -/
theorem answer_of_valid {r : Request} {key : Key} (hread : r.read = some key)
    {x : AggregateState A X T₁ T₂} (hvalid : (cfg.verifier key.1).validateVk key.2 x = .ok ()) :
    r.answer cfg = .ok ((cfg.verifier key.1).vkHash key.2) := by
  cases r with
  | ezkl vk =>
      cases hread
      -- The node repeats the check of the pallet.
      by_cases hlength : vk.vkBytes.toList.length = 0 ∨ vk.vkBytes.toList.length &&& 31 ≠ 0 ∨
          Ezkl.maxVkLength < vk.vkBytes.toList.length
      · have hinvalid : (cfg.verifier (.other .ezkl)).validateVk ⟨vk.vkBytes⟩ x =
            .error (.error .invalidVerificationKey) := if_pos hlength
        rw [hinvalid] at hvalid
        cases hvalid
      · exact if_neg hlength
  | fflonk | groth16 | plonky2 | risc0 | sp1 =>
      cases hread
      rfl
  | ultrahonk vk =>
      obtain ⟨vk', hvk, rfl⟩ := tryInto_of_read hread
      simp [Request.answer, hvk]
  | ultraplonk vk =>
      obtain ⟨arr, harr, rfl⟩ := Option.map_eq_some_iff.mp hread
      obtain rfl := (tryIntoArray_eq_some (by decide)).mp harr
      have hlength : (ofArray arr (by decide)).toList.length = Ultraplonk.vkSize :=
        arr.length_toList
      simp [Request.answer, harr, hlength]

/-- An answer is the hash that the pallet computes for the key that the node reads. -/
theorem read_of_answer {r : Request} {h : H256} (hanswer : r.answer cfg = .ok h) :
    ∃ key : Key, r.read = some key ∧ (cfg.verifier key.1).vkHash key.2 = h := by
  cases r with
  | ezkl vk =>
      refine ⟨_, rfl, ?_⟩
      simp only [Request.answer] at hanswer
      split at hanswer
      · cases hanswer
      · exact Except.ok.inj hanswer
  | fflonk | groth16 | plonky2 | risc0 | sp1 => exact ⟨_, rfl, Except.ok.inj hanswer⟩
  | ultrahonk vk =>
      cases hvk : vk.tryInto with
      | error e => simp [Request.answer, hvk] at hanswer
      | ok arr =>
          refine ⟨⟨.other .ultrahonk, arr⟩, by simp [Request.read, hvk], ?_⟩
          simpa [Request.answer, hvk] using hanswer
  | ultraplonk vk =>
      simp only [Request.answer] at hanswer
      split at hanswer
      · cases hanswer
      · obtain ⟨arr, harr, hhash⟩ := seq_eq_ok.mp hanswer
        refine ⟨⟨.other .ultraplonk, arr⟩, ?_, Except.ok.inj hhash⟩
        simp [Request.read, okOr_eq_ok.mp harr]

/-! ## The node and the chain -/

variable [DecidableEq A] {kept : Set RuntimeHoldReason}

/-- The node and the chain agree on the hashes of keys.  In every run, the request for a key that a
settlement pallet other than that of the TEE keys has stored is answered with the hash under which
it is stored.  And every answer, to whatever request, is the hash that the pallet computes for the
one key that the request is for. -/
theorem vk_hash_agrees (x : X) (steps : List (Step cfg kept)) {k : Settlement}
    (hk : k ≠ .other .tee) {h : H256} {entry : VkEntry k.Vk}
    (hlookup : ((run (.genesis x : State A X T T₁ T₂) steps).view k).vks.lookup h = some entry) :
    (∃ r, requestFor ⟨k, entry.vk⟩ = some r ∧ r.answer cfg = .ok h) ∧
      ∀ (r : Request) (h' : H256), r.answer cfg = .ok h' →
        ∃ key : Key, requestFor key = some r ∧ (cfg.verifier key.1).vkHash key.2 = h' ∧
          ∀ key', requestFor key' = some r → key' = key := by
  have hs : Verifiers.Reachable (cfg.verifiers k)
      ((run (.genesis x : State A X T T₁ T₂) steps).view k) :=
    Reachable.view ⟨x, steps, rfl⟩ k
  obtain ⟨y, hvalid⟩ := hs.stored_valid hlookup
  have hhash : (cfg.verifier k).vkHash entry.vk = h := hs.registered.hashed h entry hlookup
  constructor
  · obtain ⟨r, hr⟩ := exists_requestFor ⟨k, entry.vk⟩ hk
    refine ⟨r, hr, ?_⟩
    rw [answer_of_valid (read_requestFor hr) hvalid, hhash]
  · intro r h' hanswer
    obtain ⟨key, hread, hkey⟩ := read_of_answer hanswer
    refine ⟨key, requestFor_read hread, hkey, fun key' hkey' => ?_⟩
    exact Option.some.inj ((read_requestFor hkey').symm.trans hread)

def sampleEzklVk : Ezkl.Vk := ⟨List.replicate 32 3, by decide⟩

/-- Account `2` registers a groth16 key and account `4` an ezkl key. -/
def sampleKeys : List (Step sampleConfig Set.univ) :=
  [.call (.settlement .groth16 (.registerVk (.signed 2) Groth16.sampleVk)),
    .call (.settlement (.other .ezkl) (.registerVk (.signed 4) sampleEzklVk))]

/-- The state in which the two keys are registered. -/
def sampleRegistered : State ℕ (Book ℕ RuntimeHoldReason) ℕ ℕ ℕ :=
  run (.genesis sampleBook) sampleKeys

theorem vk_hash_agrees_sample :
    (∃ r, requestFor ⟨.groth16, Groth16.sampleVk⟩ = some r ∧
        r.answer sampleConfig = .ok (sampleHashing .keccak256 Groth16.sampleVk.encode)) ∧
      ∃ r, requestFor ⟨.other .ezkl, sampleEzklVk⟩ = some r ∧
        r.answer sampleConfig = .ok (sampleHashing .keccak256 (Ezkl.encodeVk sampleEzklVk)) := by
  have hgroth16 : ((sampleRegistered.view .groth16).vks.lookup
      (sampleHashing .keccak256 Groth16.sampleVk.encode)).map VkEntry.vk =
        some Groth16.sampleVk := by
    decide +kernel
  have hezkl : ((sampleRegistered.view (.other .ezkl)).vks.lookup
      (sampleHashing .keccak256 (Ezkl.encodeVk sampleEzklVk))).map VkEntry.vk =
        some sampleEzklVk := by
    decide +kernel
  obtain ⟨entry, hlookup, hvk⟩ := Option.map_eq_some_iff.mp hgroth16
  obtain ⟨entry', hlookup', hvk'⟩ := Option.map_eq_some_iff.mp hezkl
  have hagrees := (vk_hash_agrees sampleBook sampleKeys (by decide) hlookup).1
  have hagrees' := (vk_hash_agrees sampleBook sampleKeys (by decide) hlookup').1
  rw [hvk] at hagrees
  rw [hvk'] at hagrees'
  exact ⟨hagrees, hagrees'⟩

end ZkVerify.Chain.VkHashRpc
