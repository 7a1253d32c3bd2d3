import ZkVerify.Frame.Codec
import Mathlib.Order.Fin.Basic

/-!
# Beneficiaries and their signatures

A beneficiary of a token claim is an account of the chain or an Ethereum address.  The
former signs the claim message itself, with or without the `<Bytes>` wrapping that
wallets add; the latter signs the message followed by a separator and the account that
is to be paid, as an EIP-191 message.

The signature scheme of the chain, the recovery of Ethereum public keys and the hash
functions are parameters, collected in `Signing`.
-/

namespace ZkVerify.TokenClaim

open Frame

/-- `H160`, read as a number with the most significant byte first. -/
abbrev EthereumAddress := Fin (2 ^ 160)

/-- The 20 bytes of an address. -/
def EthereumAddress.bytes (address : EthereumAddress) : Bytes := (littleEndian 20 address).reverse

/-- `ecdsa::Signature`. -/
abbrev EthereumSignature := Vector UInt8 65

/-- `Beneficiary`. -/
inductive Beneficiary (A : Type)
  | substrate (account : A)
  | ethereum (address : EthereumAddress)

/-! ## The order of beneficiaries -/

section Order

variable {A : Type} [LinearOrder A]

/-- `Beneficiary::cmp`: accounts come before Ethereum addresses. -/
def Beneficiary.le : Beneficiary A → Beneficiary A → Prop
  | .substrate _, .ethereum _ => True
  | .ethereum _, .substrate _ => False
  | .substrate a, .substrate b => a ≤ b
  | .ethereum a, .ethereum b => a ≤ b

instance : DecidableRel (Beneficiary.le (A := A))
  | .substrate _, .ethereum _ => isTrue trivial
  | .ethereum _, .substrate _ => isFalse id
  | .substrate a, .substrate b => inferInstanceAs (Decidable (a ≤ b))
  | .ethereum a, .ethereum b => inferInstanceAs (Decidable (a ≤ b))

instance : LinearOrder (Beneficiary A) where
  le := Beneficiary.le
  le_refl a := by
    cases a <;> exact le_rfl
  le_trans a b c hab hbc := by
    cases a <;> cases b <;> cases c <;> simp_all only [Beneficiary.le]
    · exact le_trans hab hbc
    · exact le_trans hab hbc
  le_antisymm a b hab hba := by
    cases a <;> cases b <;> simp_all only [Beneficiary.le]
    · rw [le_antisymm hab hba]
    · rw [le_antisymm hab hba]
  le_total a b := by
    cases a <;> cases b <;> simp only [Beneficiary.le, or_true, true_or]
    · exact le_total _ _
    · exact le_total _ _
  toDecidableLE := inferInstanceAs (DecidableRel (Beneficiary.le (A := A)))

end Order

/-! ## Signatures -/

/-- The signature schemes that a claim relies on. -/
structure Signing (A Sig : Type) where
  /-- `T::Signature::verify`. -/
  verify : Sig → Bytes → A → Bool
  /-- `T::AccountIdBytesToSign::to_bytes_literal`. -/
  toBytesLiteral : A → Bytes
  ethMsgSeparator : Bytes
  hashing : Hashing
  secp256k1EcdsaRecover : EthereumSignature → H256 → Option (Vector UInt8 64)
  /-- `ecdsa::Public::from_full`. -/
  publicFromFull : Vector UInt8 64 → Option (Vector UInt8 33)
  toEthAddress : Vector UInt8 33 → Option EthereumAddress

/-- `ClaimSignature`: an Ethereum signature comes with the account that is to be paid. -/
inductive ClaimSignature (A Sig : Type)
  | substrate (signature : Sig)
  | ethereum (signature : EthereumSignature) (dest : A)

/-- `MSG_PREFIX`. -/
def msgPrefix : Bytes := ascii "<Bytes>".toList

/-- `MSG_SUFFIX`. -/
def msgSuffix : Bytes := ascii "</Bytes>".toList

/-- The bytes that `eip191_hash_message` hashes. -/
def eip191Message (message : Bytes) : Bytes :=
  ascii "\x19Ethereum Signed Message:\n".toList ++ ascii (Nat.toDigits 10 message.length) ++ message

variable {A Sig : Type}

/-- `eip191_hash_message`. -/
def eip191HashMessage (signing : Signing A Sig) (message : Bytes) : H256 :=
  signing.hashing .keccak256 (eip191Message message)

/-- `eth_recover`. -/
def ethRecover (signing : Signing A Sig) (msgToSign : H256) (ethSig : EthereumSignature) :
    Option EthereumAddress := do
  let pkRaw ← signing.secp256k1EcdsaRecover ethSig msgToSign
  let pk ← signing.publicFromFull pkRaw
  signing.toEthAddress pk

/-- The message that an Ethereum beneficiary signs for a destination. -/
def msgWithDest (signing : Signing A Sig) (claimMessage : Bytes) (dest : A) : Bytes :=
  claimMessage ++ signing.ethMsgSeparator ++ signing.toBytesLiteral dest

/-- `ClaimSignature::verify`. -/
def ClaimSignature.verify (signing : Signing A Sig) (signature : ClaimSignature A Sig)
    (claimMessage : Bytes) (beneficiary : Beneficiary A) : Bool :=
  match beneficiary, signature with
  | .substrate subAddr, .substrate subSig =>
      signing.verify subSig (msgPrefix ++ claimMessage ++ msgSuffix) subAddr ||
        signing.verify subSig claimMessage subAddr
  | .ethereum ethAddr, .ethereum ethSig dest =>
      let msgToSign := eip191HashMessage signing (msgWithDest signing claimMessage dest)
      match ethRecover signing msgToSign ethSig with
      | some derivedAddress => decide (derivedAddress = ethAddr)
      | none => false
  | _, _ => false

end ZkVerify.TokenClaim
