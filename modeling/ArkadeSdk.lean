import ArkadeSdk.Arkade.ProgramRederive
import ArkadeSdk.Swap.QuoteDeadlines
import ArkadeSdk.Lib.LabelledRun
import ArkadeSdk.Extension.PacketRoundTrip
import ArkadeSdk.Extension.EnvelopeRoundTrip
import ArkadeSdk.Script.TapscriptUnique
import ArkadeSdk.Arkade.ArkadeScript
import ArkadeSdk.Arkade.Vm
import ArkadeSdk.Script.Covenant
import ArkadeSdk.Swap.OfferBatch
import ArkadeSdk.Script.VhtlcContract
import ArkadeSdk.Swap.RfqRecordRestart
import ArkadeSdk.Swap.OfferStatusKept
import ArkadeSdk.Swap.OfferRoundTrip
import ArkadeSdk.Swap.CoverageKept
import ArkadeSdk.Contracts.ScanBatched
import ArkadeSdk.Wallet.PendingTxKept
import ArkadeSdk.Wallet.BatchSafe
import ArkadeSdk.Wallet.IntentRecordsKept
import ArkadeSdk.Boltz.SwapManager
import ArkadeSdk.Boltz.SwapFinality
import ArkadeSdk.Boltz.SwapLock
import ArkadeSdk.Boltz.VhtlcBatchSafe
import ArkadeSdk.Wallet.RenewalExclusive
import ArkadeSdk.Exit.CaptureComplete
import ArkadeSdk.Wallet.ClaimSecretsKept
import ArkadeSdk.Boltz.CooperativeSign
import ArkadeSdk.Boltz.QuoteRecordKept
import ArkadeSdk.Boltz.SwapCreationBound
import ArkadeSdk.Tree.Spendable
import ArkadeSdk.Tree.TxTreeLossless
import ArkadeSdk.Wallet.BatchRecipientsExact
import ArkadeSdk.Wallet.BatchIsolation
import ArkadeSdk.Wallet.OffchainSubmit
import ArkadeSdk.Swap.RepliesKept
import ArkadeSdk.Wallet.ReceiveRotatorKept
import ArkadeSdk.Boltz.SwapRestoreExact
import ArkadeSdk.Wallet.TransactionHistoryReconciled
import ArkadeSdk.Wallet.TransactionHistoryAmounts
import ArkadeSdk.Extension.Detection
import ArkadeSdk.Wallet.AssetManagerConserves
import ArkadeSdk.Wallet.SettlementAcceptable
import ArkadeSdk.Wallet.BoardingSweepOwn
import ArkadeSdk.Wallet.DelegatePayable
import ArkadeSdk.Wallet.ArkadeCashAccounted
import ArkadeSdk.Extension.EmulatorRoundTrip
import ArkadeSdk.Extension.PacketLeaf
import ArkadeSdk.Script.UnknownFields
import ArkadeSdk.Wallet.TxSizeSigned
import ArkadeSdk.Script.ExitPaths
import ArkadeSdk.Extension.MetadataHash
import ArkadeSdk.Wallet.RampsCovered
import ArkadeSdk.Wallet.OnchainFees
import ArkadeSdk.Arkade.ArkadeAsm
import ArkadeSdk.Exit.Dag
import ArkadeSdk.Script.OffchainTx
import ArkadeSdk.Wallet.CanonicalVtxo
import ArkadeSdk.Wallet.OffchainBalance
import ArkadeSdk.Script.SignatureCheck
import ArkadeSdk.Swap.LockupFate
import ArkadeSdk.Swap.OnchainFill
import ArkadeSdk.Wallet.ScriptProbe
import ArkadeSdk.Boltz.RefundPass
import ArkadeSdk.Contracts.PathHandlers
import ArkadeSdk.Exit.TopoSort
import ArkadeSdk.Wallet.CoinSelection
import ArkadeSdk.Extension.EnvelopeWork
import ArkadeSdk.Providers.RateGateBound
import ArkadeSdk.Wallet.Bip21
import ArkadeSdk.Boltz.RestoredTimeouts
import ArkadeSdk.Exit.Executor
import ArkadeSdk.Providers.EventStreams
import ArkadeSdk.Worker.MessageBus
import ArkadeSdk.Worker.WorkerRequests
import ArkadeSdk.Repositories.ManagedConnection
