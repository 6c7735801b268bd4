import FailureResolver.ArgumentDefaults
import FailureResolver.AtomicText
import FailureResolver.AttemptClosure
import FailureResolver.AttemptVerdict
import FailureResolver.BrowsingDiscipline
import FailureResolver.CheckoutLock
import FailureResolver.CommandCorrelation
import FailureResolver.CommandProtocol
import FailureResolver.DurableAcknowledgement
import FailureResolver.DurableWrite
import FailureResolver.EligiblePrompt
import FailureResolver.ExclusiveIngestion
import FailureResolver.ExclusiveMatching
import FailureResolver.FailureNotifications
import FailureResolver.FlowProgress
import FailureResolver.FlowSelection
import FailureResolver.HiddenActions
import FailureResolver.LearningEligibility
import FailureResolver.LeaseCover
import FailureResolver.LosslessEvidence
import FailureResolver.MatchResolution
import FailureResolver.MatchSelection
import FailureResolver.MemoryIndex
import FailureResolver.MemoryIngestion
import FailureResolver.ObserverRuntime
import FailureResolver.PendingRequests
import FailureResolver.PlanAdmission
import FailureResolver.PlanRebinding
import FailureResolver.PromptBudgets
import FailureResolver.PromptProjection
import FailureResolver.ReadableMemories
import FailureResolver.Reconciliation
import FailureResolver.RecordedActions
import FailureResolver.RecoveryReconciliation
import FailureResolver.RetryBudget
import FailureResolver.RobotExclusion
import FailureResolver.SchemaConformance
import FailureResolver.SearchHints
import FailureResolver.SearchRanking
import FailureResolver.SharedBranch
import FailureResolver.SignalDelivery
import FailureResolver.SnippetMatch
import FailureResolver.SuggestedFix
import FailureResolver.UnchangedEpisode
