import KeryxMiner.BlockSearch
import KeryxMiner.ContentIds
import KeryxMiner.DevfundPercent
import KeryxMiner.DevfundSchedule
import KeryxMiner.DirtyFlag
import KeryxMiner.DistinctWork
import KeryxMiner.EscrowLifecycle
import KeryxMiner.ForgedTrace
import KeryxMiner.GpuWalk
import KeryxMiner.HeaderBytes
import KeryxMiner.InferencePause
import KeryxMiner.InferenceSteps
import KeryxMiner.JobNotice
import KeryxMiner.JumpAgreement
import KeryxMiner.KeccakAgreement
import KeryxMiner.KeccakAssembly
import KeryxMiner.KernelAgreement
import KeryxMiner.ModelBounds
import KeryxMiner.ModelFiles
import KeryxMiner.NonceEnumeration
import KeryxMiner.NonceRange
import KeryxMiner.OpoiTags
import KeryxMiner.PayloadCodecs
import KeryxMiner.PayoutAddress
import KeryxMiner.PoolSettings
import KeryxMiner.RequestBooks
import KeryxMiner.ResidencyProgress
import KeryxMiner.ServedRuns
import KeryxMiner.ShareAccounts
import KeryxMiner.StopTokens
import KeryxMiner.Targets
import KeryxMiner.TemplatePause
import KeryxMiner.TransactionIds
import KeryxMiner.TreeReuse
import KeryxMiner.WatchPairs
import KeryxMiner.WaveMix
import KeryxMiner.CachedDecoding
import KeryxMiner.ServedAnswers
import KeryxMiner.PublishedAnswers
