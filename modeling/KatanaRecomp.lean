import KatanaRecomp.Runtime.ProvenanceRing
import KatanaRecomp.Runtime.PreciseException
import KatanaRecomp.Runtime.StaticAotGuard
import KatanaRecomp.Runtime.BlockTableRejection
import KatanaRecomp.Runtime.SystemReplayLaws
import KatanaRecomp.Runtime.ItlbRanks
import KatanaRecomp.Runtime.BlockPage
import KatanaRecomp.Runtime.CodeAddressLaws
import KatanaRecomp.Runtime.ScifLaws
import KatanaRecomp.Runtime.DmacLaws
import KatanaRecomp.Runtime.PersistentLaws
import KatanaRecomp.Runtime.AudioCommandDrain
import KatanaRecomp.Io.ImageRuns
import KatanaRecomp.Runtime.NativePortSaveRuns
import KatanaRecomp.Runtime.StepDivision
import KatanaRecomp.Ir.LivenessFixpoint
import KatanaRecomp.Analysis.BlockStructure
import KatanaRecomp.Analysis.FunctionOwnership
import KatanaRecomp.Analysis.FunctionEdgeJournalRuns
import KatanaRecomp.Analysis.IngressClosure
import KatanaRecomp.Analysis.ScanShardRuns
import KatanaRecomp.Codegen.FpuEquivalence
import KatanaRecomp.Codegen.PartitionLaws
import KatanaRecomp.Codegen.CacheBudgetLru
import KatanaRecomp.Runtime.ModuleRemoval
import KatanaRecomp.Runtime.PromotionFaults
import KatanaRecomp.Runtime.LinearTransactionLaws
import KatanaRecomp.Runtime.DirectWriteBatchLaws
import KatanaRecomp.Runtime.PrevalidatedLaws
import KatanaRecomp.Runtime.SchedulerCompose
import KatanaRecomp.Runtime.MediaClock
import KatanaRecomp.Runtime.TimerHandoffLaws
import KatanaRecomp.Runtime.ClockConversions
import KatanaRecomp.Runtime.RtcCalendar
import KatanaRecomp.Runtime.PrsLanguage
import KatanaRecomp.Analysis.BoundaryOwner
import KatanaRecomp.Codegen.NativeAotResume
import KatanaRecomp.Runtime.UtlbAccessCounter
import KatanaRecomp.Runtime.DispatchShare
import KatanaRecomp.Runtime.ImmutableOverlap
import KatanaRecomp.Codegen.DispatchShards
