import Veilux.Lib.Bytes
import Veilux.Lib.Json
import Veilux.Lib.Keys
import Veilux.Lib.Mirror
import Veilux.Lib.Quorum
import Veilux.Lib.Run
import Veilux.Lib.Total
import Veilux.Kernel.Crypto
import Veilux.Kernel.Serde
import Veilux.Kernel.Types
import Veilux.Kernel.State
import Veilux.Kernel.Prism
import Veilux.Kernel.Cascade
import Veilux.Prism.Token
import Veilux.Prism.TokenSupply
import Veilux.Prism.PhotonVm
import Veilux.Prism.Contract
import Veilux.Veil.Identity
import Veilux.Veil.View
import Veilux.Veil.Private
import Veilux.Prism.Evidence
import Veilux.Prism.NativeToken
import Veilux.Prism.Staking
import Veilux.Consensus.Validator
import Veilux.Consensus.Vote
import Veilux.Consensus.Aurora
import Veilux.Consensus.Certificate
import Veilux.Node.Store
import Veilux.Node.Node
import Veilux.Node.Blocks
import Veilux.Node.Fees
import Veilux.Prism.Names
import Veilux.Prism.Allowance
import Veilux.Prism.StakingBooks
import Veilux.Prism.StakingSteps
import Veilux.Prism.StakeAccounts
import Veilux.Prism.Rewards
import Veilux.Prism.Governance
import Veilux.Prism.Slashing
import Veilux.Prism.QuorumFraud
import Veilux.Node.Private
import Veilux.Node.Authentic
import Veilux.Node.Reachable
import Veilux.Node.Assembly
import Veilux.Network.Message
import Veilux.Node.SlashWatch
import Veilux.Node.ViewSync
import Veilux.Node.Driver
import Veilux.Node.Engine
import Veilux.Node.Steps
import Veilux.Node.Shape
import Veilux.Node.Ballots
import Veilux.Node.Views
import Veilux.Node.Commands
import Veilux.Lib.Merkle
import Veilux.Kernel.Merkle
import Veilux.Kernel.StateProof
import Veilux.Kernel.Binding
import Veilux.Node.Submission
import Veilux.Evm.Rlp
import Veilux.Evm.Transaction
import Veilux.Evm.Host
import Veilux.Node.Eth
import Veilux.Kernel.Visits
import Veilux.Node.Chain
import Veilux.Node.Rpc
import Veilux.Node.Replay
import Veilux.Node.Replay
import Veilux.Node.Directory
import Veilux.Node.Process
import Veilux.Evm.Precompile
import Veilux.Evm.Frame
import Veilux.Evm.Plain
import Veilux.Evm.Turn
import Veilux.Evm.Frames
import Veilux.Evm.MemHost
import Veilux.Evm.Journaled
import Veilux.Node.EthHost
import Veilux.Evm.Metering
import Veilux.Node.EthValue
import Veilux.Kernel.Handled
import Veilux.Prism.Bridge
import Veilux.Lib.Distinct
import Veilux.Prism.BridgeRuns
import Veilux.Prism.Oracle
import Veilux.Prism.Spelling
import Veilux.Prism.TokenEffects
import Veilux.Prism.BridgeBacking
import Veilux.Prism.Confidential
import Veilux.Prism.ConfidentialNotes
import Veilux.Prism.Dex
import Veilux.Prism.Vesting
import Veilux.Prism.Positions
import Veilux.Veil.Projection
import Veilux.Node.SubLedgers
import Veilux.Veil.Sealing
import Veilux.Node.Envelopes
import Veilux.Kernel.Spares
import Veilux.Node.EthAddresses
import Veilux.Prism.Nft
import Veilux.Prism.Storage
import Veilux.Prism.Multisig
import Veilux.Prism.Name
import Veilux.Prism.Ai
import Veilux.Veil.Commitment
import Veilux.Prism.StorageRuns
import Veilux.Lib.Tally
import Veilux.Prism.StoragePins
import Veilux.Prism.NftSteps
import Veilux.Prism.NftTitles
import Veilux.Prism.NameSpelling
import Veilux.Prism.NameRecords
import Veilux.Network.Session
import Veilux.Network.Handshake
import Veilux.Network.SessionOrder
import Veilux.Network.Agreement
import Veilux.Node.Watch
import Veilux.Node.Accountability
import Veilux.Lib.Utf16
import Veilux.Sdk.Encoding
import Veilux.Veil.Attestations
import Veilux.Prism.Charges
import Veilux.Node.Arbitration
import Veilux.Lib.Limbs
import Veilux.Evm.WordArithmetic
import Veilux.Evm.WordShifts
import Veilux.Evm.WordOpcodes
import Veilux.Prism.DexRoot
import Veilux.Prism.DexPricing
import Veilux.Prism.VestingSchedule
import Veilux.Prism.VestingRuns
import Veilux.Prism.Spares
import Veilux.Node.Untouched
import Veilux.Node.BasePrices
import Veilux.Prism.DexLiquidity
import Veilux.Lib.Kept
import Veilux.Node.PendingLog
import Veilux.Evm.RlpReads
import Veilux.Evm.RlpCodec
import Veilux.Evm.RlpCanonical
import Veilux.Evm.Signing
import Veilux.Lib.Decoding
import Veilux.Evm.JumpSafety
import Veilux.Prism.PhotonJumps
import Veilux.Kernel.Modest
import Veilux.Prism.PhotonGas
import Veilux.Prism.Costs
import Veilux.Node.BlockGas
import Veilux.Consensus.VoteOrder
import Veilux.Evm.ByteIndex
import Veilux.Evm.ExactOperands
import Veilux.Evm.Truncation
import Veilux.Evm.WordNumbers
import Veilux.Evm.Modexp
import Veilux.Lib.Rotation
import Veilux.Consensus.Rotation
import Veilux.Prism.OracleFeeds
import Veilux.Veil.CanonicalRoots
import Veilux.Veil.Disclosure
import Veilux.Lib.HashChain
import Veilux.Node.LightClient
import Veilux.Lib.Checked
import Veilux.Evm.RlpBounds
import Veilux.Lib.Lexicographic
import Veilux.Kernel.PrefixScan
import Veilux.Evm.Bn254
import Veilux.Evm.Bn254Curve
import Veilux.Node.EthChains
import Veilux.Node.Waiting
import Veilux.Evm.FailedCalls
import Veilux.Evm.Panics
import Veilux.Node.Agreement
import Veilux.Prism.MultisigRuns
import Veilux.Node.EthAccounts
import Veilux.Node.EthNonces
import Veilux.Lib.Shares
import Veilux.Prism.DexValue
import Veilux.Lib.Lines
import Veilux.Network.Link
import Veilux.Node.EthReceipts
import Veilux.Lib.Unwinding
import Veilux.Prism.PhotonLimits
import Veilux.Prism.ContractRuns
