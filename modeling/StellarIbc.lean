import StellarIbc.Bytes
import StellarIbc.ContractMonad
import StellarIbc.Trace
import StellarIbc.RouterTypes
import StellarIbc.RouterHost
import StellarIbc.RouterRegistry
import StellarIbc.RouterStore
import StellarIbc.RouterPacketHandler
import StellarIbc.RouterSpecs
import StellarIbc.Router
import StellarIbc.RouterIntegrity
import StellarIbc.Sha256
import StellarIbc.LedgerChain
import StellarIbc.TwoChain
import StellarIbc.TwoChainSafety
import StellarIbc.ByteParser
import StellarIbc.ProtobufWire
import StellarIbc.SparseMerkle
import StellarIbc.CoreSmt
import StellarIbc.CoreProof
import StellarIbc.LightClientTypes
import StellarIbc.LightClientStore
import StellarIbc.LightClientMerkle
import StellarIbc.LightClient
import StellarIbc.ServedProofs
import StellarIbc.LightClientBinding
import StellarIbc.LightClientHeaders
import StellarIbc.Json
import StellarIbc.ScVal
import StellarIbc.TransferTypes
import StellarIbc.TransferPacket
import StellarIbc.Transfer
import StellarIbc.TransferSystem
import StellarIbc.TransferRefunds
import StellarIbc.Fallible
import StellarIbc.CoreState
import StellarIbc.StateRoots
import StellarIbc.RouterSource
import StellarIbc.RouterDestination
import StellarIbc.SorobanClient
import StellarIbc.AttestationClient
import StellarIbc.TendermintClient
import StellarIbc.ClientTrust
import StellarIbc.RouterClients
import StellarIbc.FrozenClients
import StellarIbc.LightClientRuns
import StellarIbc.LightClientHistory
import StellarIbc.LightClientFreeze
import StellarIbc.TransferBalances
import StellarIbc.SmtMap
import StellarIbc.CoreCommitment
import StellarIbc.StateReplay
import StellarIbc.TransferSupply
import StellarIbc.RegistryHistory
import StellarIbc.IdentifierBuffers
import StellarIbc.StoreMirror
import StellarIbc.MediatedClients
import StellarIbc.ClientConsistency
import StellarIbc.AttestationQuorum
import StellarIbc.LightClientOrder
import StellarIbc.SmtFrames
import StellarIbc.Decimal
import StellarIbc.DecimalWriters
import StellarIbc.Ics23Path
import StellarIbc.TransferLimits
import StellarIbc.CoreConversion
import StellarIbc.XdrReader
import StellarIbc.ClientListing
import StellarIbc.TendermintCodec
import StellarIbc.EventAttributes
import StellarIbc.RouterEvents
import StellarIbc.AddressHex
import StellarIbc.RouterEnabled
import StellarIbc.TwoChainProgress
import StellarIbc.GatewayQueries
import StellarIbc.GatewayAnswers
import StellarIbc.RelayedProofs
import StellarIbc.RouterInvocations
import StellarIbc.EscrowedTransfers
import StellarIbc.ClientQueries
import StellarIbc.TendermintHeaders
import StellarIbc.ReportedClients
import StellarIbc.GatewayReports
import StellarIbc.LocalService
import StellarIbc.RouterEventLog
import StellarIbc.LedgerLayout
