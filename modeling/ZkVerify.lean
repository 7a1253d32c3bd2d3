import ZkVerify.Frame.Prelude
import ZkVerify.Frame.Collections
import ZkVerify.Frame.Bytes
import ZkVerify.Frame.Dispatch
import ZkVerify.Frame.Holds
import ZkVerify.Frame.Shared
import ZkVerify.Frame.Weights
import ZkVerify.Frame.Backed
import ZkVerify.Frame.Enumerate
import ZkVerify.Frame.BatchLog
import ZkVerify.Frame.RefCount
import ZkVerify.Frame.Codec
import ZkVerify.Frame.Reader
import ZkVerify.Frame.LastWriter
import ZkVerify.Frame.Drain
import ZkVerify.Frame.OrderedMap
import ZkVerify.Frame.Currency
import ZkVerify.Frame.Entitlements
import ZkVerify.Frame.Merkle
import ZkVerify.Frame.MerkleSoundness
import ZkVerify.Frame.PerThing
import ZkVerify.Frame.Credit
import ZkVerify.Frame.Ancestry
import ZkVerify.Frame.Transfers
import ZkVerify.Aggregate.Data
import ZkVerify.Aggregate.Domain
import ZkVerify.Aggregate.Pallet
import ZkVerify.Aggregate.Run
import ZkVerify.Aggregate.Effects
import ZkVerify.Aggregate.Representation
import ZkVerify.Aggregate.Isolation
import ZkVerify.Aggregate.Allowlist
import ZkVerify.Aggregate.Lifecycle
import ZkVerify.Aggregate.Batches
import ZkVerify.Aggregate.History
import ZkVerify.Aggregate.Funds
import ZkVerify.Aggregate.Solvency
import ZkVerify.Aggregate.Settlement
import ZkVerify.Aggregate.Wealth
import ZkVerify.Aggregate.Callback
import ZkVerify.Aggregate.Tickets
import ZkVerify.Aggregate.Deposits
import ZkVerify.Aggregate.DomainDeposits
import ZkVerify.Aggregate.Drain
import ZkVerify.Aggregate.Capacity
import ZkVerify.Aggregate.Acceptance
import ZkVerify.Aggregate.Publication
import ZkVerify.Aggregate.Authority
import ZkVerify.Aggregate.Fees
import ZkVerify.Aggregate.Announcements
import ZkVerify.Aggregate.Receipts
import ZkVerify.Aggregate.Paths
import ZkVerify.Aggregate.Disclosure
import ZkVerify.Aggregate.PathSoundness
import ZkVerify.Aggregate.EncodedSize
import ZkVerify.Verifiers.Pallet
import ZkVerify.Verifiers.Run
import ZkVerify.Verifiers.Registry
import ZkVerify.Verifiers.Plonk
import ZkVerify.Verifiers.Ultrahonk
import ZkVerify.Verifiers.Stark
import ZkVerify.Verifiers.Tee
import ZkVerify.Verifiers.Groth16
import ZkVerify.Verifiers.Groth16Inputs
import ZkVerify.Verifiers.Binding
import ZkVerify.Verifiers.ByHash
import ZkVerify.Verifiers.Groth16Keys
import ZkVerify.Verifiers.Groth16KeySize
import ZkVerify.Verifiers.DegreeBits
import ZkVerify.Verifiers.Nitro
import ZkVerify.Verifiers.TeeKeySize
import ZkVerify.Verifiers.UltrahonkMigration
import ZkVerify.Crl.Pallet
import ZkVerify.Crl.Run
import ZkVerify.Crl.Store
import ZkVerify.Crl.Convergence
import ZkVerify.Verifiers.Revocation
import ZkVerify.TokenClaim.Beneficiary
import ZkVerify.TokenClaim.Payload
import ZkVerify.TokenClaim.Pallet
import ZkVerify.TokenClaim.Run
import ZkVerify.TokenClaim.Solvency
import ZkVerify.TokenClaim.Payments
import ZkVerify.TokenClaim.Unsigned
import ZkVerify.TokenClaim.Payout
import ZkVerify.Payout.EraPayout
import ZkVerify.Payout.DealWithFees
import ZkVerify.Payout.Inflation
import ZkVerify.Chain.Runtime
import ZkVerify.Chain.Verified
import ZkVerify.Chain.LightClient
import ZkVerify.Chain.Deposits
import ZkVerify.Chain.Wealth
import ZkVerify.Chain.Weights
import ZkVerify.Chain.Upgrade
import ZkVerify.Chain.VkHashRpc
import ZkVerify.Finality.Selection
import ZkVerify.Finality.Target
