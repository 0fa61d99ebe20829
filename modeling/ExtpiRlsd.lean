import ExtpiRlsd.RlsdMonotone
import ExtpiRlsd.Padding
import ExtpiRlsd.PromptAssembly
import ExtpiRlsd.Privacy
import ExtpiRlsd.DirectOpdNeutral
import ExtpiRlsd.ExactTokens
import ExtpiRlsd.LoraInvariants
import ExtpiRlsd.SnapshotResume
import ExtpiRlsd.ShuffledPi
import ExtpiRlsd.RecipientUplift
import ExtpiRlsd.MetricLog
import ExtpiRlsd.SummaryCsv
import ExtpiRlsd.EvalContamination
import ExtpiRlsd.PiShardRuns
import ExtpiRlsd.SftLengths
import ExtpiRlsd.BoxedAnswer
import ExtpiRlsd.EvalSeeds
import ExtpiRlsd.GateWindows
import ExtpiRlsd.TokenMask
import ExtpiRlsd.GroupDiagnostics
import ExtpiRlsd.PromptEncoding
import ExtpiRlsd.SelectTop
import ExtpiRlsd.EvalScores
import ExtpiRlsd.UpliftOrder
import ExtpiRlsd.PaddingGarbage
import ExtpiRlsd.SftBuilders
import ExtpiRlsd.InspectorCounts
import ExtpiRlsd.LogitPositions
import ExtpiRlsd.JsonlFiles
import ExtpiRlsd.SftLoss
import ExtpiRlsd.TrainingRecords
import ExtpiRlsd.GrpoAdvantages
import ExtpiRlsd.BatchBalance
import ExtpiRlsd.EvenGroups
