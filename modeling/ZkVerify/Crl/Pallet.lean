import ZkVerify.Frame.Bytes
import ZkVerify.Frame.Collections
import ZkVerify.Frame.Dispatch

/-!
# The crl pallet

For every registered certificate authority the pallet stores its root certificate and the
certificates that are revoked.  Anybody may submit a revocation list: it is parsed and
verified against the root certificate, and if it is newer than the last one of the same
issuer, its entries replace those of this issuer.

The parsers of revocation lists and the hash function for issuers are parameters.
-/

namespace ZkVerify.Crl

open Frame

/-! ## Data -/

/-- `MAX_CRL_PEM_LENGTH`. -/
def maxCrlPemLength : ℕ := 65536

/-- `MAX_CERT_CHAIN_PEM_LENGTH`. -/
def maxCertChainPemLength : ℕ := 16384

/-- `MAX_ROOT_CERT_LENGTH`. -/
def maxRootCertLength : ℕ := 2048

/-- `MAX_CRL_DER_LENGTH`. -/
def maxCrlDerLength : ℕ := 65536

/-- `MAX_CERT_CHAIN_DER_LENGTH`. -/
def maxCertChainDerLength : ℕ := 16384

/-- `MAX_REVOKED_CERTS_PER_CA`. -/
def maxRevokedCertsPerCa : ℕ := 10000

/-- `MAX_ISSUERS_PER_CA`. -/
def maxIssuersPerCa : ℕ := 10

/-- `MAX_CERT_ISSUER_LENGTH`. -/
def maxCertIssuerLength : ℕ := 256

/-- `MAX_CERT_SERIAL_LENGTH`. -/
def maxCertSerialLength : ℕ := 32

/-- A revoked certificate, as the parsers return it. -/
structure RevokedCertId where
  issuer : Bytes
  serialNumber : Bytes
deriving DecidableEq, Repr

/-- `Crl`: the entries of a revocation list. -/
abbrev CrlEntries := List RevokedCertId

/-- A revocation list with the certificate chain of its signature, in one of two formats. -/
inductive CrlInput
  | pem (crl certChain : Bytes)
  | der (crl certChain : Bytes)
deriving DecidableEq, Repr

/-- A revoked certificate, as it is stored. -/
structure RevokedInfo where
  issuer : BoundedVec UInt8 maxCertIssuerLength
  serial : BoundedVec UInt8 maxCertSerialLength
deriving DecidableEq

/-- `RevokedCertId::from`. -/
def RevokedInfo.toCertId (info : RevokedInfo) : RevokedCertId :=
  ⟨info.issuer.toList, info.serial.toList⟩

/-- What is stored for a certificate authority. -/
structure CaInfo where
  rootCert : BoundedVec UInt8 maxRootCertLength
  revokedCount : ℕ
  /-- The `thisUpdate` of the last list of each issuer, under the hash of the issuer. -/
  crlVersions : BoundedMap H256 ℕ maxIssuersPerCa

/-- The name of a certificate authority, with at most `N` bytes. -/
abbrev CaName (N : ℕ) := BoundedVec UInt8 N

/-- The revoked certificates of one authority. -/
abbrev RevokedList := BoundedVec RevokedInfo maxRevokedCertsPerCa

/-- The errors of the pallet. -/
inductive Error
  | caNameTooLong
  | caNameEmpty
  | rootCertEmpty
  | caAlreadyRegistered
  | caNotFound
  | maxCasReached
  | rootCertTooLarge
  | crlPemTooLarge
  | certChainPemTooLarge
  | crlValidationError
  | tooManyRevokedCerts
  | issuerTooLarge
  | serialNumberTooLarge
  | crlTooLarge
  | notNewerCrl
  | tooManyIssuers
  | emptyCrl
  | crlDerTooLarge
  | certChainDerTooLarge
deriving DecidableEq, Repr

/-- The events of the pallet. -/
inductive Event (N : ℕ)
  | caRegistered (name : CaName N)
  | caUnregistered (name : CaName N)
  | crlUpdated (caName : CaName N) (issuer : Bytes) (lastUpdate revokedCount : ℕ)
deriving DecidableEq

/-- The storage of the pallet, the events so far and the rest of the chain. -/
structure State (N : ℕ) (X : Type) where
  certificateAuthorities : Finmap fun _ : CaName N => CaInfo
  revoked : Finmap fun _ : CaName N => RevokedList
  events : List (Event N)
  chain : X

variable {A X : Type} {N : ℕ}

/-- The storage before the first operation. -/
def State.genesis (x : X) : State N X :=
  { certificateAuthorities := ∅, revoked := ∅, events := [], chain := x }

/-- The weights that the pallet reads. -/
structure WeightInfo where
  registerCa : Weight
  unregisterCa : Weight
  updatePemCrl : ℕ → Weight
  updateDerCrl : ℕ → Weight

/-- The configuration of the pallet. -/
structure Config (A X : Type) where
  managerOrigin : RawOrigin A → Bool
  /-- `UnixTime::now`, in seconds. -/
  now : X → ℕ
  /-- `parse_crl_pem`: the list, its certificate chain, the root certificate and the time. -/
  parseCrlPem : (crl certChain : Bytes) → Option Bytes → ℕ → Option (ℕ × CrlEntries)
  /-- `parse_crl_der`. -/
  parseCrlDer : (crl certChain : Bytes) → Option Bytes → ℕ → Option (ℕ × CrlEntries)
  blake2_256 : Bytes → H256
  weightInfo : WeightInfo

/-- What a dispatchable returns; none of them can panic. -/
abbrev DispatchResult (X : Type) (N : ℕ) :=
  Except (Abort Error Empty) (State N X × PostDispatchInfo)

/-! ## Revoked certificates -/

/-- `try_push` of one entry in `merge_revoked_certs_for_ca`. -/
def pushRevoked (store : RevokedList) (r : RevokedCertId) :
    Except (DispatchError Error) RevokedList := do
  let issuer ← okOr (BoundedVec.tryFrom r.issuer) (.module .issuerTooLarge)
  let serial ← okOr (BoundedVec.tryFrom r.serialNumber) (.module .serialNumberTooLarge)
  okOr (store.tryPush ⟨issuer, serial⟩) (.module .tooManyRevokedCerts)

/-- `merge_revoked_certs_for_ca`. -/
def mergeRevokedCertsForCa (caName : CaName N) (newEntries : CrlEntries) (issuerBytes : Bytes)
    (s : State N X) : Except (DispatchError Error) (ℕ × State N X) := do
  let store := (s.revoked.lookup caName).getD BoundedVec.empty
  let store := store.retain fun r => decide (r.issuer.toList ≠ issuerBytes)
  let store ← newEntries.foldlM pushRevoked store
  return (store.toList.length, { s with revoked := s.revoked.insert caName store })

/-- `get_crl_for_ca`. -/
def getCrlForCa (caName : CaName N) (s : State N X) : Option CrlEntries :=
  (s.revoked.lookup caName).map fun crl => crl.toList.map RevokedInfo.toCertId

/-- `get_crl`. -/
def getCrl (caName : Bytes) (s : State N X) : Option CrlEntries := do
  let boundedName ← BoundedVec.tryFrom caName
  getCrlForCa boundedName s

/-! ## The operations -/

/-- `register_ca`. -/
def registerCa (cfg : Config A X) (origin : RawOrigin A) (name rootCert : Bytes)
    (s : State N X) : DispatchResult X N := do
  ensure (cfg.managerOrigin origin) (.of .badOrigin)
  ensure (!name.isEmpty) (.of (.module .caNameEmpty))
  ensure (!rootCert.isEmpty) (.of (.module .rootCertEmpty))
  let boundedName ← okOr (BoundedVec.tryFrom name) (.of (.module .caNameTooLong))
  ensure (decide (boundedName ∉ s.certificateAuthorities))
    (.of (.module .caAlreadyRegistered))
  let boundedRootCert ← okOr (BoundedVec.tryFrom rootCert) (.of (.module .rootCertTooLarge))
  let caInfo : CaInfo := ⟨boundedRootCert, 0, BoundedMap.empty⟩
  return ({ s with
    certificateAuthorities := s.certificateAuthorities.insert boundedName caInfo
    revoked := s.revoked.insert boundedName BoundedVec.empty
    events := s.events ++ [.caRegistered boundedName] },
    ⟨some cfg.weightInfo.registerCa, .yes⟩)

/-- `unregister_ca`. -/
def unregisterCa (cfg : Config A X) (origin : RawOrigin A) (name : Bytes) (s : State N X) :
    DispatchResult X N := do
  ensure (cfg.managerOrigin origin) (.of .badOrigin)
  let boundedName ← okOr (BoundedVec.tryFrom name) (.of (.module .caNameTooLong))
  -- `clear_revoked_certs_for_ca` comes first; a missing authority rolls it back.
  let s := { s with revoked := s.revoked.erase boundedName }
  ensure (decide (boundedName ∈ s.certificateAuthorities)) (.of (.module .caNotFound))
  return ({ s with
    certificateAuthorities := s.certificateAuthorities.erase boundedName
    events := s.events ++ [.caUnregistered boundedName] },
    ⟨some cfg.weightInfo.unregisterCa, .yes⟩)

/-- The part of `update_crl` that checks the sizes and calls the parser. -/
def parseInput (cfg : Config A X) (input : CrlInput) (rootCert : Bytes) (now : ℕ) :
    Except (DispatchError Error) (ℕ × CrlEntries) :=
  match input with
  | .pem crl certChain => do
      ensure (decide (crl.length ≤ maxCrlPemLength)) (.module .crlPemTooLarge)
      ensure (decide (certChain.length ≤ maxCertChainPemLength)) (.module .certChainPemTooLarge)
      okOr (cfg.parseCrlPem crl certChain (some rootCert) now) (.module .crlValidationError)
  | .der crl certChain => do
      ensure (decide (crl.length ≤ maxCrlDerLength)) (.module .crlDerTooLarge)
      ensure (decide (certChain.length ≤ maxCertChainDerLength)) (.module .certChainDerTooLarge)
      okOr (cfg.parseCrlDer crl certChain (some rootCert) now) (.module .crlValidationError)

/-- The list is newer than the one with the given version, if there is one. -/
def isNewer (thisUpdate : ℕ) : Option ℕ → Bool
  | some existingVersion => decide (existingVersion < thisUpdate)
  | none => true

/-- The weight of an update that leaves `revokedCount` entries. -/
def updateWeight (cfg : Config A X) (input : CrlInput) (revokedCount : ℕ) : Weight :=
  match input with
  | .pem _ _ => cfg.weightInfo.updatePemCrl revokedCount
  | .der _ _ => cfg.weightInfo.updateDerCrl revokedCount

/-- `update_crl`. -/
def updateCrl (cfg : Config A X) (origin : RawOrigin A) (caName : Bytes) (input : CrlInput)
    (s : State N X) : DispatchResult X N := do
  let _ ← ensureSigned origin
  let boundedName ← okOr (BoundedVec.tryFrom caName) (.of (.module .caNameTooLong))
  let caInfo ← okOr (s.certificateAuthorities.lookup boundedName) (.of (.module .caNotFound))
  let (thisUpdate, parsedCrl) ←
    raise (parseInput cfg input caInfo.rootCert.toList (cfg.now s.chain))
  -- The first entry names the issuer of the whole list.
  let first ← okOr parsedCrl.head? (.of (.module .emptyCrl))
  let issuerHash := cfg.blake2_256 first.issuer
  ensure (isNewer thisUpdate (caInfo.crlVersions.get issuerHash)) (.of (.module .notNewerCrl))
  let (revokedCount, s) ← raise (mergeRevokedCertsForCa boundedName parsedCrl first.issuer s)
  let crlVersions ← okOr (caInfo.crlVersions.tryInsert issuerHash thisUpdate)
    (.of (.module .tooManyIssuers))
  let caInfo : CaInfo := { caInfo with revokedCount, crlVersions }
  return ({ s with
    certificateAuthorities := s.certificateAuthorities.insert boundedName caInfo
    events := s.events ++ [.crlUpdated boundedName first.issuer thisUpdate revokedCount] },
    ⟨some (updateWeight cfg input revokedCount), .yes⟩)

end ZkVerify.Crl
