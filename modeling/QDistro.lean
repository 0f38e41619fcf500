import QDistro.PolkitBinding
import QDistro.PolkitCancel
import QDistro.AuditedEffects
import QDistro.BlindCache
import QDistro.ArgvPin
import QDistro.PathAgreement
import QDistro.TamperEvidence
import QDistro.McsAllocator
import QDistro.InPlaceNarrowing
import QDistro.StaleInput
import QDistro.TransferOutcomes
import QDistro.SealedReceipts
import QDistro.SlotTeardown
import QDistro.ShellMailbox
import QDistro.DockCrash
import QDistro.LinkLoss
import QDistro.MediaFlow
import QDistro.PanelAgreement
import QDistro.PlanApproval
import QDistro.OffloadContract
import QDistro.FragmentSafety
import QDistro.OriginIsolation
import QDistro.SiloFreezer
import QDistro.LinkWatchers
import QDistro.NetvmGuard
import QDistro.DisposableImport
import QDistro.EditSafety
import QDistro.ExportAtomicity
import QDistro.VaultRefinement
import QDistro.BackupHistory
import QDistro.BackupRuns
import QDistro.BridgeFrames
import QDistro.BridgeRequests
import QDistro.DerivativeFields
import QDistro.IntentTokens
import QDistro.ScriptWords
import QDistro.RollbackWindow
import QDistro.DeadPayloads
import QDistro.SiloGates
import QDistro.ReceiptFiles
import QDistro.TomlTables
import QDistro.Activations
import QDistro.LineageQueries
import QDistro.NestedRegistry
import QDistro.ViewerState
import QDistro.ProxyInput
import QDistro.HelperMemory
import QDistro.MutationEvidence
import QDistro.RateLimit
import QDistro.ProcessSpawn
import QDistro.SnapAnswers
import QDistro.PaletteRepair
import QDistro.CronSearch
import QDistro.ChannelEnv
import QDistro.AgentRelay
import QDistro.CarrierHandshake
import QDistro.WorkflowLoad
