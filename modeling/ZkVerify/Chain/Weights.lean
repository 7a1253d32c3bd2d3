import ZkVerify.Frame.Weights
import ZkVerify.Chain.Runtime

/-!
# No call reports more weight than it was charged

A call is charged for the weight that is annotated at its declaration, before anything is known
about its arguments.  Once it was dispatched it can report a lower weight, and the difference is
paid back.  `submit_proof` reports what the verifier has found out about the proof: the power of
its segments, the degree of the circuit, its size.  What it was charged for is the worst case, a
weight that another function of the pallet names.  Nothing in the code relates the two; it is the
numbers in the tables of the runtime that do, and the checks of the verifiers on what they look up.

The numbers are those of `runtime/zkverify/src/weights`.
-/

namespace ZkVerify.Chain

open Frame

/-! ## The tables of the runtime -/

/-- `RocksDbWeight`. -/
def rocksDbWeight : RuntimeDbWeight := ⟨9_372 * 1000, 71_631 * 1000⟩

/-- A weight that grows with the length of an argument. -/
def linearWeight (base slope : Weight) (n : ℕ) : Weight :=
  base.saturatingAdd (slope.saturatingMul n)

theorem linearWeight_mono (base slope : Weight) {m n : ℕ} (h : m ≤ n) :
    (linearWeight base slope m).AllLte (linearWeight base slope n) :=
  (Weight.AllLte.refl base).saturatingAdd (slope.saturatingMul_mono h)

/-- The weights of a settlement pallet. -/
structure SettlementWeights (V P I : Type) extends Verifiers.WeightInfo V P I where
  registerVk : V → Weight
  unregisterVk : Weight

/-- The weight of a registration: four reads and three writes. -/
def registration (time proofSize : ℕ) : Weight :=
  ((Weight.mk time proofSize).saturatingAdd (rocksDbWeight.reads 4)).saturatingAdd
    (rocksDbWeight.writes 3)

/-- The end of a registration: three reads and three writes. -/
def deregistration (time proofSize : ℕ) : Weight :=
  ((Weight.mk time proofSize).saturatingAdd (rocksDbWeight.reads 3)).saturatingAdd
    (rocksDbWeight.writes 3)

/-- A key is read from the storage. -/
def keyRead (time proofSize : ℕ) : Weight :=
  (Weight.mk time proofSize).saturatingAdd (rocksDbWeight.reads 1)

/-- The weights of a pallet for which they do not depend on the arguments. -/
def flatWeights {V P I : Type} (verifyProof getVk validateVk computeStatementHash registerVk
    unregisterVk : Weight) : SettlementWeights V P I where
  verifyProof _ _ := verifyProof
  getVk := getVk
  validateVk _ := validateVk
  computeStatementHash _ _ := computeStatementHash
  registerVk _ := registerVk
  unregisterVk := unregisterVk

/-- `FflonkWeight`. -/
def fflonkWeight {V P I : Type} : SettlementWeights V P I :=
  flatWeights ⟨18_789_080_000, 0⟩ (keyRead 5_420_000 4018) ⟨2_944_129_000, 0⟩ ⟨7_103_000, 0⟩
    (registration 3_011_294_000 4018) (deregistration 49_473_000 4018)

/-- `UltraplonkWeight`. -/
def ultraplonkWeight {V P I : Type} : SettlementWeights V P I :=
  flatWeights ⟨2_284_755_000, 0⟩ (keyRead 4_498_000 5137) ⟨25_608_000, 0⟩ ⟨9_999_000, 0⟩
    (registration 82_524_000 5137) (deregistration 47_729_000 5137)

/-- `EzklWeight`. -/
def ezklWeight {V P I : Type} : SettlementWeights V P I :=
  flatWeights ⟨4_387_109_000, 0⟩ (keyRead 7_845_000 12723) ⟨190_000, 0⟩ ⟨20_778_000, 0⟩
    (registration 76_743_000 12723) (deregistration 50_164_000 12723)

/-- `Sp1Weight`. -/
def sp1Weight {V P I : Type} : SettlementWeights V P I :=
  flatWeights ⟨69_936_789_000, 0⟩ (keyRead 3_967_000 3537) ⟨191_000, 0⟩ ⟨2_444_000, 0⟩
    (registration 53_619_000 3676) (deregistration 45_885_000 3676)

namespace Risc0

open Verifiers.Risc0

/-- `Risc0MaxNSegment`. -/
def maxNSegment : ℕ := 4

/-- `verify_proof_succinct`. -/
def verifyProofSuccinct : Weight := ⟨28_824_883_000, 0⟩

/-- `verify_proof_segment_poseidon2_16` to `verify_proof_segment_poseidon2_21`. -/
def verifyProofSegmentPoseidon2 : ℕ → Weight
  | 16 => ⟨27_709_367_000, 0⟩
  | 17 => ⟨29_923_877_000, 0⟩
  | 18 => ⟨31_805_829_000, 0⟩
  | 19 => ⟨33_704_091_000, 0⟩
  | 20 => ⟨35_908_693_000, 0⟩
  | 21 => ⟨38_416_219_000, 0⟩
  | _ => ⟨0, 0⟩

/-- `max_verify_proof_weight`. -/
def maxVerifyProofWeight : Weight := (verifyProofSegmentPoseidon2 20).mul maxNSegment

/-- `Risc0Weight`. -/
def weight : SettlementWeights Vk Proof Pubs :=
  flatWeights maxVerifyProofWeight (keyRead 3_877_000 3537) ⟨191_000, 0⟩ ⟨2_474_000, 0⟩
    (registration 53_239_000 3676) (deregistration 46_396_000 3676)

end Risc0

namespace Plonky2

open Verifiers.Plonky2

/-- `verify_proof_poseidon_uncompressed_2` to `verify_proof_keccak_uncompressed_19`. -/
def verifyProofUncompressed : Plonky2Config → ℕ → Weight
  | .poseidon, 2 => ⟨10_824_905_000, 0⟩
  | .keccak, 2 => ⟨1_410_716_000, 0⟩
  | .poseidon, 3 => ⟨11_865_619_000, 0⟩
  | .keccak, 3 => ⟨1_504_481_000, 0⟩
  | .poseidon, 4 => ⟨12_940_367_000, 0⟩
  | .keccak, 4 => ⟨1_609_798_000, 0⟩
  | .poseidon, 5 => ⟨14_005_748_000, 0⟩
  | .keccak, 5 => ⟨1_718_050_000, 0⟩
  | .poseidon, 6 => ⟨17_185_018_000, 0⟩
  | .keccak, 6 => ⟨2_728_648_000, 0⟩
  | .poseidon, 7 => ⟨18_480_268_000, 0⟩
  | .keccak, 7 => ⟨2_851_378_000, 0⟩
  | .poseidon, 8 => ⟨19_798_882_000, 0⟩
  | .keccak, 8 => ⟨2_972_884_000, 0⟩
  | .poseidon, 9 => ⟨21_138_124_000, 0⟩
  | .keccak, 9 => ⟨3_101_053_000, 0⟩
  | .poseidon, 10 => ⟨24_620_600_000, 0⟩
  | .keccak, 10 => ⟨4_123_033_000, 0⟩
  | .poseidon, 11 => ⟨26_115_633_000, 0⟩
  | .keccak, 11 => ⟨4_267_132_000, 0⟩
  | .poseidon, 12 => ⟨27_685_626_000, 0⟩
  | .keccak, 12 => ⟨4_401_764_000, 0⟩
  | .poseidon, 13 => ⟨29_329_818_000, 0⟩
  | .keccak, 13 => ⟨4_556_112_000, 0⟩
  | .poseidon, 14 => ⟨32_961_904_000, 0⟩
  | .keccak, 14 => ⟨5_592_528_000, 0⟩
  | .poseidon, 15 => ⟨34_781_855_000, 0⟩
  | .keccak, 15 => ⟨5_757_236_000, 0⟩
  | .poseidon, 16 => ⟨36_742_207_000, 0⟩
  | .keccak, 16 => ⟨5_924_429_000, 0⟩
  | .poseidon, 17 => ⟨38_558_470_000, 0⟩
  | .keccak, 17 => ⟨6_202_398_000, 0⟩
  | .poseidon, 18 => ⟨42_429_514_000, 0⟩
  | .keccak, 18 => ⟨7_215_581_000, 0⟩
  | .poseidon, 19 => ⟨44_572_006_000, 0⟩
  | .keccak, 19 => ⟨7_355_953_000, 0⟩
  | _, _ => ⟨0, 0⟩

/-- `Plonky2Weight`. -/
def weight : SettlementWeights Vk Proof Pubs :=
  flatWeights (verifyProofUncompressed .poseidon 19) (keyRead 4_749_000 53510) ⟨8_516_000, 0⟩
    ⟨7_634_000, 0⟩ (registration 68_118_000 53510) (deregistration 46_808_000 53510)

/-- No entry of the table is above the last one. -/
theorem verifyProofUncompressed_le (config : Plonky2Config) {n : ℕ} (hn : n ≤ 19) :
    (verifyProofUncompressed config n).AllLte (verifyProofUncompressed .poseidon 19) := by
  revert n
  cases config <;> decide

end Plonky2

namespace Ultrahonk

open Verifiers.Ultrahonk

/-- `verify_zk_proof_v3_0`. -/
def verifyZkProofV3_0 : ℕ → Weight := linearWeight ⟨2_697_286_924, 0⟩ ⟨37_187_085, 0⟩

/-- `verify_plain_proof_v3_0`. -/
def verifyPlainProofV3_0 : ℕ → Weight := linearWeight ⟨2_485_554_847, 0⟩ ⟨33_699_744, 0⟩

/-- `UltrahonkWeight`. -/
def weight : SettlementWeights VersionedVk VersionedProof Pubs where
  verifyProof proof _ :=
    match proof with
    | .v0_84 inner | .legacy inner =>
        match inner.proofType with
        | .zk => ⟨4_013_918_000, 0⟩
        | .plain => ⟨3_731_581_000, 0⟩
    | .v3_0 (.zk _) => verifyZkProofV3_0 maxBenchmarkedLogCircuitSize
    | .v3_0 (.plain _) => verifyPlainProofV3_0 maxBenchmarkedLogCircuitSize
  getVk := keyRead 5_470_000 5394
  validateVk _ := ⟨17_102_000, 0⟩
  computeStatementHash _ _ := ⟨12_664_000, 0⟩
  registerVk _ := registration 66_755_000 5394
  unregisterVk := deregistration 38_953_000 5394

end Ultrahonk

namespace Tee

open Verifiers.Tee

/-- `intel_verify_proof`. -/
def intelVerifyProof : Weight :=
  (Weight.mk 7_288_678_000 2913549).saturatingAdd (rocksDbWeight.reads 2)

/-- `nitro_verify_proof`. -/
def nitroVerifyProof : Weight :=
  (Weight.mk 51_021_198_000 2913549).saturatingAdd (rocksDbWeight.reads 2)

/-- `TeeWeight`. -/
def weight : SettlementWeights Vk Proof Pubs :=
  flatWeights (intelVerifyProof.max nitroVerifyProof) (keyRead 7_424_000 134581)
    ((Weight.mk 4_534_422_000 2913549).saturatingAdd (rocksDbWeight.reads 2)) ⟨20_698_000, 0⟩
    (((Weight.mk 4_490_710_000 2913549).saturatingAdd (rocksDbWeight.reads 6)).saturatingAdd
      (rocksDbWeight.writes 3))
    (deregistration 40_015_000 134581)

end Tee

namespace Groth16

open Verifiers.Groth16

/-- `Groth16Weight`.  A list that is longer than a `u32` does not fit into a block. -/
def weight : SettlementWeights VerificationKeyWithCurve ProofWithCurve Pubs where
  verifyProof proof pubs :=
    match proof.curve with
    | .bn254 => linearWeight ⟨2_937_980_957, 0⟩ ⟨103_678_772, 0⟩ pubs.length
    | .bls12_381 => linearWeight ⟨3_653_180_557, 0⟩ ⟨190_428_976, 0⟩ pubs.length
  getVk := keyRead 13_705_000 10558
  validateVk vk :=
    let n := vk.gammaAbcG1.toList.length - 1
    match vk.curve with
    | .bn254 => linearWeight ⟨1_038_825_034, 0⟩ ⟨95_185_790, 0⟩ n
    | .bls12_381 => linearWeight ⟨406_651_017, 0⟩ ⟨62_632_947, 0⟩ n
  computeStatementHash _ pubs := linearWeight ⟨6_872_287, 0⟩ ⟨451_424, 0⟩ pubs.length
  registerVk vk :=
    let n := vk.gammaAbcG1.toList.length - 1
    let weight := match vk.curve with
      | .bn254 => linearWeight ⟨1_107_550_465, 10558⟩ ⟨95_611_062, 0⟩ n
      | .bls12_381 => linearWeight ⟨476_363_204, 10558⟩ ⟨63_142_727, 0⟩ n
    (weight.saturatingAdd (rocksDbWeight.reads 4)).saturatingAdd (rocksDbWeight.writes 3)
  unregisterVk := deregistration 54_623_000 10558

end Groth16

/-- The weights of each settlement pallet. -/
def settlementWeights : (k : Settlement) → SettlementWeights k.Vk k.Proof k.Pubs
  | .groth16 => Groth16.weight
  | .other .fflonk => fflonkWeight
  | .other .ultraplonk => ultraplonkWeight
  | .other .ultrahonk => Ultrahonk.weight
  | .other .ezkl => ezklWeight
  | .other .risc0 => Risc0.weight
  | .other .sp1 => sp1Weight
  | .other .plonky2 => Plonky2.weight
  | .other .tee => Tee.weight

/-- The weights of the aggregate pallet. -/
def aggregateWeights : Aggregate.WeightInfo where
  aggregate n :=
    ((((linearWeight ⟨20_711_093, 212899⟩ ⟨68_005_046, 0⟩ n).saturatingAdd
      (rocksDbWeight.reads 3)).saturatingAdd (rocksDbWeight.writes 3)).saturatingAdd
        ((Weight.mk 0 96).saturatingMul n))
  aggregateOnInvalidDomain := (Weight.mk 4_929_000 212899).saturatingAdd (rocksDbWeight.reads 1)
  aggregateOnInvalidId := (Weight.mk 7_003_000 212899).saturatingAdd (rocksDbWeight.reads 1)

theorem aggregateWeights_mono {m n : ℕ} (h : m ≤ n) :
    (aggregateWeights.aggregate m).AllLte (aggregateWeights.aggregate n) :=
  (((linearWeight_mono _ _ h).saturatingAdd (.refl _)).saturatingAdd (.refl _)).saturatingAdd
    (Weight.saturatingMul_mono _ h)

/-! ## What a call is charged -/

variable {A X C T T₁ T₂ : Type} [DecidableEq A] {cfg : Config A X C T T₁ T₂}
  {kept : Set RuntimeHoldReason} {s : State A X T T₁ T₂} {k : Settlement}

/-- The weights of the configuration are those of the runtime. -/
structure Config.RuntimeWeights (cfg : Config A X C T T₁ T₂) : Prop where
  maxNSegment : cfg.crates.risc0.maxNSegment = Risc0.maxNSegment
  succinct : cfg.crates.risc0.verifyProofSuccinct = Risc0.verifyProofSuccinct
  segment : cfg.crates.risc0.verifyProofSegmentPoseidon2 = Risc0.verifyProofSegmentPoseidon2
  uncompressed : cfg.crates.plonky2.verifyProofUncompressed = Plonky2.verifyProofUncompressed
  zk : cfg.crates.ultrahonk.verifyZkProofV3_0 = Ultrahonk.verifyZkProofV3_0
  plain : cfg.crates.ultrahonk.verifyPlainProofV3_0 = Ultrahonk.verifyPlainProofV3_0
  intel : cfg.crates.tee.intelVerifyProof = Tee.intelVerifyProof
  nitro : cfg.crates.tee.nitroVerifyProof = Tee.nitroVerifyProof
  settlement : ∀ k, cfg.settlementWeight k = (settlementWeights k).toWeightInfo
  aggregate : cfg.aggregateWeight = aggregateWeights
  dbRead : cfg.dbRead = rocksDbWeight.reads 1
  -- `on_verify_disabled_verifier`.
  disabled : cfg.onVerifyDisabledVerifier = rocksDbWeight.reads 1

/-- The annotations of the calls of a settlement pallet. -/
def Config.charged (cfg : Config A X C T T₁ T₂) (k : Settlement) :
    Verifiers.Call A k.Vk k.Proof k.Pubs → Weight
  | .submitProof _ vkOrHash proof pubs domainId =>
      Verifiers.submitProofWeight (cfg.verifiers k) vkOrHash proof pubs domainId none
  | .registerVk _ vk => (settlementWeights k).registerVk vk
  | .disable _ _ => rocksDbWeight.writes 1
  | .unregisterVk _ _ => (settlementWeights k).unregisterVk

/-- The annotation of `aggregate`. -/
def Config.aggregateCharged (cfg : Config A X C T T₁ T₂) : Weight :=
  (cfg.aggregateWeight.aggregate aggregateMaxSize).add ⟨0, 0⟩

/-! ## What the verifiers report -/

/-- The times of the segments add up, and the size of the proof stays as it is. -/
private theorem proofSize_foldl (weights : List Weight) (acc : Weight) :
    (weights.foldl
      (fun acc w => (⟨wrappingAdd u64Max acc.refTime w.refTime, acc.proofSize⟩ : Weight))
      acc).proofSize = acc.proofSize := by
  induction weights generalizing acc with
  | nil => rfl
  | cons w weights ih => exact ih _

omit [DecidableEq A] in
/-- The time of a proof of risc0 was compared with the maximum. -/
theorem Risc0.verifyProof_le (hw : cfg.RuntimeWeights) {vk : Verifiers.Risc0.Vk}
    {proof : Verifiers.Risc0.Proof} {pubs : Verifiers.Risc0.Pubs} {w : Weight}
    (h : Verifiers.Risc0.verifyProof cfg.crates.risc0 vk proof pubs = .ok (some w)) :
    w.AllLte maxVerifyProofWeight := by
  obtain ⟨_, -, h⟩ := seq_eq_ok.mp h
  obtain ⟨_, -, h⟩ := seq_eq_ok.mp h
  obtain ⟨_, -, h⟩ := seq_eq_ok.mp h
  obtain ⟨_, -, h⟩ := seq_eq_ok.mp h
  obtain ⟨_, hweight, h⟩ := seq_eq_ok.mp h
  obtain ⟨_, htime, h⟩ := seq_eq_ok.mp h
  obtain ⟨_, -, h⟩ := seq_eq_ok.mp h
  cases h
  have htime := of_decide_eq_true (ensure_eq_ok.mp htime)
  rw [Verifiers.Risc0.maxVerifyProofTime, hw.segment, hw.maxNSegment] at htime
  refine ⟨htime, ?_⟩
  obtain ⟨structure_, -, hstructure⟩ := Option.bind_eq_some_iff.mp (okOr_eq_ok.mp hweight)
  cases structure_ with
  | succinct =>
      cases hstructure
      rw [hw.succinct]
      exact le_rfl
  | composite segments =>
      obtain ⟨weights, -, hsum⟩ := Option.bind_eq_some_iff.mp hstructure
      cases hsum
      rw [proofSize_foldl]
      exact Nat.zero_le _

omit [DecidableEq A] in
/-- The weight of a proof of plonky2 is an entry of the table. -/
theorem Plonky2.verifyProof_le (hw : cfg.RuntimeWeights) {vk : Verifiers.Plonky2.Vk}
    {proof : Verifiers.Plonky2.Proof} {pubs : Verifiers.Plonky2.Pubs} {w : Weight}
    (h : Verifiers.Plonky2.verifyProof cfg.crates.plonky2 vk proof pubs = .ok (some w)) :
    w.AllLte (verifyProofUncompressed .poseidon 19) := by
  obtain ⟨_, -, h⟩ := seq_eq_ok.mp h
  obtain ⟨_, -, h⟩ := seq_eq_ok.mp h
  obtain ⟨_, -, h⟩ := seq_eq_ok.mp h
  obtain ⟨degreeBits, -, h⟩ := seq_eq_ok.mp h
  obtain ⟨_, hweight, h⟩ := seq_eq_ok.mp h
  obtain ⟨_, -, h⟩ := seq_eq_ok.mp h
  cases h
  unfold Verifiers.Plonky2.computeWeight at hweight
  rw [hw.uncompressed] at hweight
  split at hweight
  · cases hweight
    exact verifyProofUncompressed_le _ (by decide)
  · split at hweight
    · rename_i hbits
      cases hweight
      exact verifyProofUncompressed_le _ hbits.2
    · cases hweight

omit [DecidableEq A] in
/-- The size of the circuit of a proof of ultrahonk was compared with the maximum. -/
theorem Ultrahonk.verifyProof_le (hw : cfg.RuntimeWeights) {vk : Verifiers.Ultrahonk.VersionedVk}
    {proof : Verifiers.Ultrahonk.VersionedProof} {pubs : Verifiers.Ultrahonk.Pubs} {w : Weight}
    (h : Verifiers.Ultrahonk.verifyProof cfg.crates.ultrahonk vk proof pubs = .ok (some w)) :
    w.AllLte (weight.verifyProof proof pubs) := by
  obtain ⟨_, -, h⟩ := seq_eq_ok.mp h
  cases proof with
  | v0_84 inner | legacy inner =>
      cases vk <;> simp [Verifiers.Ultrahonk.verifyV0_84, seq_eq_ok, pure, Except.pure] at h
  | v3_0 inner =>
      cases vk with
      | v0_84 | legacy => cases h
      | v3_0 bytes =>
          obtain ⟨logCircuitSize, hsize, h⟩ := seq_eq_ok.mp h
          obtain ⟨_, -, h⟩ := seq_eq_ok.mp h
          obtain ⟨_, hweight, h⟩ := seq_eq_ok.mp h
          cases h
          obtain ⟨_, -, hsize⟩ := seq_eq_ok.mp hsize
          obtain ⟨_, hbound, hsize⟩ := seq_eq_ok.mp hsize
          cases hsize
          have hmax : max logCircuitSize Verifiers.Ultrahonk.minBenchmarkedLogCircuitSize ≤
              Verifiers.Ultrahonk.maxBenchmarkedLogCircuitSize :=
            max_le (of_decide_eq_true (ensure_eq_ok.mp hbound)) (by decide)
          cases inner with
          | zk =>
              cases hweight
              rw [hw.zk]
              exact linearWeight_mono _ _ hmax
          | plain =>
              cases hweight
              rw [hw.plain]
              exact linearWeight_mono _ _ hmax

omit [DecidableEq A] in
theorem Tee.verifyProof_le (hw : cfg.RuntimeWeights) {vk : Verifiers.Tee.Vk}
    {proof : Verifiers.Tee.Proof} {pubs : Verifiers.Tee.Pubs} {x : X} {w : Weight}
    (h : Verifiers.Tee.verifyProof cfg.crates.tee vk proof pubs x = .ok (some w)) :
    w.AllLte (intelVerifyProof.max nitroVerifyProof) := by
  obtain ⟨_, -, h⟩ := seq_eq_ok.mp h
  obtain ⟨_, -, h⟩ := seq_eq_ok.mp h
  obtain ⟨_, -, h⟩ := seq_eq_ok.mp h
  cases vk with
  | intel =>
      obtain ⟨_, -, h⟩ := seq_eq_ok.mp h
      obtain ⟨_, -, h⟩ := seq_eq_ok.mp h
      obtain ⟨_, -, h⟩ := seq_eq_ok.mp h
      obtain ⟨_, -, h⟩ := seq_eq_ok.mp h
      obtain ⟨_, -, h⟩ := seq_eq_ok.mp h
      cases h
      rw [hw.intel]
      exact Weight.allLte_max_left _ _
  | nitro =>
      obtain ⟨_, -, h⟩ := seq_eq_ok.mp h
      obtain ⟨_, -, h⟩ := seq_eq_ok.mp h
      cases h
      rw [hw.nitro]
      exact Weight.allLte_max_right _ _

omit [DecidableEq A] in
/-- No verifier reports more than what its pallet charges for it. -/
theorem verifyProof_le (hw : cfg.RuntimeWeights) {vk : k.Vk} {proof : k.Proof} {pubs : k.Pubs}
    {a : AggregateState A X T₁ T₂} {w : Weight}
    (h : (cfg.verifier k).verifyProof vk proof pubs a = .ok (some w)) :
    w.AllLte ((cfg.settlementWeight k).verifyProof proof pubs) := by
  rw [hw.settlement k]
  cases k with
  | groth16 =>
      simp [Config.verifier, Settlement.verifier, Verifiers.Groth16.verifier,
        Verifiers.Groth16.verifyProof, seq_eq_ok, pure, Except.pure] at h
  | other kind =>
      cases kind with
      | fflonk =>
          simp [Config.verifier, Settlement.verifier, Verifiers.Kind.verifier,
            Verifiers.Fflonk.verifier, seq_eq_ok, pure, Except.pure] at h
      | ultraplonk =>
          simp [Config.verifier, Settlement.verifier, Verifiers.Kind.verifier,
            Verifiers.Ultraplonk.verifier, seq_eq_ok, pure, Except.pure] at h
      | ultrahonk => exact Ultrahonk.verifyProof_le hw h
      | ezkl =>
          simp [Config.verifier, Settlement.verifier, Verifiers.Kind.verifier,
            Verifiers.Ezkl.verifier, seq_eq_ok, pure, Except.pure] at h
      | risc0 => exact Risc0.verifyProof_le hw h
      | sp1 =>
          simp [Config.verifier, Settlement.verifier, Verifiers.Kind.verifier,
            Verifiers.Sp1.verifier, seq_eq_ok, pure, Except.pure] at h
      | plonky2 => exact Plonky2.verifyProof_le hw h
      | tee => exact Tee.verifyProof_le hw h

/-! ## What the calls report -/

section verifiers

variable {V P I Y : Type} {conf : Verifiers.Config A V P I Y T} {v : Verifiers.State A V Y T}
  {w : Weight}

omit [DecidableEq A] in
theorem quiet_check {α : Type} (c : Except Verifiers.Fault α) : Quiet (Verifiers.check c) := by
  cases c with
  | ok a => exact quiet_ok a
  | error f =>
      cases f with
      | error e => exact quiet_of _
      | panic => exact quiet_panic _

omit [DecidableEq A] in
theorem quiet_resolveVk (vkOrHash : Verifiers.VkOrHash V) :
    Quiet (Verifiers.resolveVk conf vkOrHash v) := by
  cases vkOrHash with
  | hash h => exact quiet_okOr _ (quiet_of _)
  | vk vk => exact (quiet_check _).bind fun _ => quiet_ok _

omit [DecidableEq A] in
theorem reported_submitProof {origin : RawOrigin A} {vkOrHash : Verifiers.VkOrHash V} {proof : P}
    {pubs : I} {domainId : Option ℕ}
    (h : reported (Verifiers.submitProof conf origin vkOrHash proof pubs domainId v) = some w) :
    w = conf.onVerifyDisabledVerifier ∨
      ∃ vk u, conf.verifier.verifyProof vk proof pubs v.chain = .ok (some u) ∧
        w = Verifiers.submitProofWeight conf vkOrHash proof pubs domainId (some u) := by
  rcases reported_ensure_bind h with hdisabled | h
  · exact .inl (Option.some.inj hdisabled).symm
  · obtain ⟨vk, -, h⟩ := (quiet_resolveVk vkOrHash).reported_bind h
    obtain ⟨account, -, h⟩ := (quiet_ensureSignedOrRoot origin).reported_bind h
    obtain ⟨weight, hverify, h⟩ := (quiet_check _).reported_bind h
    obtain ⟨x, -, h⟩ := (quiet_okOr _ (quiet_panic _)).reported_bind h
    obtain ⟨u, rfl, rfl⟩ := Option.map_eq_some_iff.mp h
    exact .inr ⟨vk, u, Verifiers.check_eq_ok.mp hverify, rfl⟩

theorem reported_registerVk {origin : RawOrigin A} {vk : V}
    (h : reported (Verifiers.registerVk conf origin vk v) = some w) :
    w = conf.onVerifyDisabledVerifier := by
  rcases reported_ensure_bind h with hdisabled | h
  · exact (Option.some.inj hdisabled).symm
  · obtain ⟨who, -, h⟩ := (quiet_ensureSigned origin).reported_bind h
    obtain ⟨_, -, h⟩ := (quiet_ensure _ (quiet_of _)).reported_bind h
    obtain ⟨_, -, h⟩ := (quiet_check _).reported_bind h
    obtain ⟨_, -, h⟩ := (quiet_raise _).reported_bind h
    obtain ⟨_, -, h⟩ := (quiet_raise _).reported_bind h
    cases h

theorem reported_unregisterVk (origin : RawOrigin A) (hash : H256) :
    reported (Verifiers.unregisterVk conf origin hash v) = none := by
  by_contra hne
  obtain ⟨w, h⟩ := Option.ne_none_iff_exists'.mp hne
  obtain ⟨who, -, h⟩ := (quiet_ensureSigned origin).reported_bind h
  split at h
  · split at h <;> cases h
  · obtain ⟨x, -, h⟩ := (quiet_raise _).reported_bind h
    dsimp only at h
    split at h
    · cases h
    · split at h <;> cases h

omit [DecidableEq A] in
theorem reported_disable (origin : RawOrigin A) (disabled : Bool) :
    reported (Verifiers.disable origin disabled v) = none := by
  cases origin <;> rfl

end verifiers

omit [DecidableEq A] in
theorem quiet_fromOrigin (conf : Aggregate.Config A X T₁ T₂) (origin : RawOrigin A) :
    Quiet (Aggregate.User.fromOrigin conf origin) := by
  unfold Aggregate.User.fromOrigin
  split
  · exact quiet_ok _
  · split
    · exact quiet_ok _
    · exact quiet_of _

/-- `aggregate` reports a weight of its two errors, or that of the statements it publishes. -/
theorem reported_aggregate {S M : ℕ} {conf : Aggregate.Config A X T₁ T₂}
    {a : Aggregate.State A X T₁ T₂ S M} {origin : RawOrigin A} {d id : ℕ} {w : Weight}
    (h : reported (Aggregate.aggregate conf origin d id a) = some w) :
    w = conf.weightInfo.aggregateOnInvalidDomain ∨ w = conf.weightInfo.aggregateOnInvalidId ∨
      ∃ n ≤ S, ∃ destination,
        w = (conf.weightInfo.aggregate n).add (conf.dispatchWeight destination) := by
  obtain ⟨aggregator, -, h⟩ := (quiet_fromOrigin conf origin).reported_bind h
  rcases reported_okOr_bind h with hinvalid | ⟨domain, -, h⟩
  · exact .inl (Option.some.inj hinvalid).symm
  obtain ⟨⟨taken, domain, popped⟩, -, h⟩ := (quiet_unwind _).reported_bind h
  rcases reported_okOr_bind h with hinvalid | ⟨aggregation, -, h⟩
  · exact .inr (.inl (Option.some.inj hinvalid).symm)
  obtain ⟨_, -, h⟩ := (quiet_ensure _ (quiet_of _)).reported_bind h
  dsimp only at h
  rcases hhold : domain.handleHoldState a.submittersAllowlist with ⟨domain, changed⟩
  rw [hhold] at h
  obtain ⟨_, -, h⟩ := (quiet_raise _).reported_bind h
  exact .inr (.inr ⟨_, aggregation.statements.length_le, _, (Option.some.inj h).symm⟩)

/-! ## The weight that is paid back -/

omit [DecidableEq A] in
/-- What a disabled verifier reports is the first part of what it was charged. -/
theorem dbRead_le_submitProofWeight {V P I Y : Type} (conf : Verifiers.Config A V P I Y T)
    (hread : conf.dbRead.refTime ≤ u64Max) (vkOrHash : Verifiers.VkOrHash V) (proof : P) (pubs : I)
    (domainId : Option ℕ) (verify : Option Weight) :
    conf.dbRead.AllLte
      (Verifiers.submitProofWeight conf vkOrHash proof pubs domainId verify) :=
  (((Weight.allLte_compose_left hread _).trans
    (Weight.allLte_compose_left (Weight.refTime_compose_le _ _) _)).trans
      (Weight.allLte_compose_left (Weight.refTime_compose_le _ _) _)).trans
        (Weight.allLte_compose_left (Weight.refTime_compose_le _ _) _)

/-- Every registration writes three times, which takes longer than to read that the verifier is
disabled. -/
theorem reads_le_registerVk (k : Settlement) (vk : k.Vk) :
    (rocksDbWeight.reads 1).AllLte ((settlementWeights k).registerVk vk) := by
  have hwrites : ∀ u : Weight,
      (rocksDbWeight.reads 1).AllLte (u.saturatingAdd (rocksDbWeight.writes 3)) := by
    intro u
    have hread : (rocksDbWeight.reads 1).AllLte (rocksDbWeight.writes 3) := by decide
    exact hread.trans (Weight.allLte_saturatingAdd_right (by decide) (by decide) u)
  cases k with
  | groth16 => exact hwrites _
  | other kind => cases kind <;> exact hwrites _

/-- In whatever state it is dispatched, a call to a settlement pallet or to `aggregate` never
reports more weight than it was charged, neither when it succeeds nor when it fails. -/
theorem weight_within_charge (hw : cfg.RuntimeWeights) (s : State A X T T₁ T₂) :
    (∀ k c w, reported (Verifiers.dispatch (cfg.verifiers k) c (s.view k)) = some w →
      w.AllLte (cfg.charged k c)) ∧
    ∀ origin d a w, reported (Aggregate.aggregate cfg.aggregate origin d a s.aggregate) = some w →
      w.AllLte cfg.aggregateCharged := by
  have hread : cfg.dbRead.refTime ≤ u64Max := by
    rw [hw.dbRead]
    decide
  constructor
  · intro k c w h
    cases c with
    | submitProof origin vkOrHash proof pubs domainId =>
        rcases reported_submitProof h with hdisabled | ⟨vk, u, hverify, rfl⟩
        · have hdisabled : w = cfg.dbRead := by
            rw [hw.dbRead, ← hw.disabled]
            exact hdisabled
          rw [hdisabled]
          exact dbRead_le_submitProofWeight (cfg.verifiers k) hread vkOrHash proof pubs domainId
            none
        · -- Only the part of the verification differs from what was charged.
          have hle := verifyProof_le hw hverify
          exact (((Weight.AllLte.refl _).compose hle).compose (.refl _)).compose (.refl _)
    | registerVk origin vk =>
        have hdisabled : w = cfg.onVerifyDisabledVerifier := reported_registerVk h
        rw [hdisabled, hw.disabled]
        exact reads_le_registerVk k vk
    | disable origin disabled => cases (reported_disable origin disabled).symm.trans h
    | unregisterVk origin hash => cases (reported_unregisterVk origin hash).symm.trans h
  · intro origin d a w h
    rw [Config.aggregateCharged]
    rcases reported_aggregate h with hinvalid | hinvalid | ⟨n, hn, destination, hweight⟩
    · have hw' : w = cfg.aggregateWeight.aggregateOnInvalidDomain := hinvalid
      rw [hw', hw.aggregate]
      decide
    · have hw' : w = cfg.aggregateWeight.aggregateOnInvalidId := hinvalid
      rw [hw', hw.aggregate]
      decide
    · have hw' : w = (cfg.aggregateWeight.aggregate n).add ⟨0, 0⟩ := hweight
      rw [hw', hw.aggregate]
      exact Weight.AllLte.add_zero (aggregateWeights_mono hn)

/-- The sample chain with the weights of the runtime, and a crate that accepts every proof of
risc0. -/
def weightedConfig : Config ℕ (Book ℕ RuntimeHoldReason) Unit ℕ ℕ ℕ :=
  { sampleConfig with
    crates := { sampleCrates with
      risc0 :=
        { maxNSegment := Risc0.maxNSegment
          segment20MaxSize := 350000
          maxPubsSize := 2052
          proofIsReadable := fun _ => true
          proofStructure := fun _ => some (.composite [⟨.poseidon2, 17⟩, ⟨.poseidon2, 21⟩])
          verify := fun _ _ _ => true
          verifyProofSuccinct := Risc0.verifyProofSuccinct
          verifyProofSegmentPoseidon2 := Risc0.verifyProofSegmentPoseidon2 }
      plonky2 := { sampleCrates.plonky2 with
        verifyProofUncompressed := Plonky2.verifyProofUncompressed }
      ultrahonk := { sampleCrates.ultrahonk with
        verifyZkProofV3_0 := Ultrahonk.verifyZkProofV3_0
        verifyPlainProofV3_0 := Ultrahonk.verifyPlainProofV3_0 }
      tee := { sampleCrates.tee with
        intelVerifyProof := Tee.intelVerifyProof
        nitroVerifyProof := Tee.nitroVerifyProof } }
    settlementWeight := fun k => (settlementWeights k).toWeightInfo
    aggregateWeight := aggregateWeights
    dbRead := rocksDbWeight.reads 1
    onVerifyDisabledVerifier := rocksDbWeight.reads 1 }

theorem weightedConfig_runtimeWeights : weightedConfig.RuntimeWeights :=
  ⟨rfl, rfl, rfl, rfl, rfl, rfl, rfl, rfl, fun _ => rfl, rfl, rfl, rfl⟩

/-- A submission of a proof in two segments. -/
def sampleSegments : Verifiers.Call ℕ Verifiers.Risc0.Vk Verifiers.Risc0.Proof
    Verifiers.Risc0.Pubs :=
  .submitProof (.signed 1) (.vk sampleKey) (.v3_0 [9]) [7] none

theorem weight_within_charge_sample :
    let s : State ℕ (Book ℕ RuntimeHoldReason) ℕ ℕ ℕ := .genesis sampleBook
    ∃ w, reported (Verifiers.dispatch (weightedConfig.verifiers (.other .risc0)) sampleSegments
        (s.view (.other .risc0))) = some w ∧
      w.AllLte (weightedConfig.charged (.other .risc0) sampleSegments) := by
  intro s
  have hreported : reported (Verifiers.dispatch (weightedConfig.verifiers (.other .risc0))
      sampleSegments (s.view (.other .risc0))) = some ⟨68_352_133_000, 0⟩ := by decide +kernel
  exact ⟨_, hreported, (weight_within_charge weightedConfig_runtimeWeights s).1 (.other .risc0)
    sampleSegments _ hreported⟩

end ZkVerify.Chain
