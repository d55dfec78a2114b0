import PromptForge.CircuitBreakerSafety
import PromptForge.AdmissionFairness
import PromptForge.CapabilityLaws
import PromptForge.Projection
import PromptForge.ToolSchedulingRuns
import PromptForge.RecoveryBounds
import PromptForge.JournalIntegrity
import PromptForge.ContextArtifactLaws
import PromptForge.ReviewSettlement
import PromptForge.CoordinatorLaws
import PromptForge.ActivityStreamLaws
import PromptForge.ContextMemoryLaws
import PromptForge.OperationsLaws
import PromptForge.ProviderConversationLaws
import PromptForge.ProviderSettingsRuns
import PromptForge.FlashApprovalLaws
import PromptForge.DataMigrationRuns
import PromptForge.HarnessRequestRuns
import PromptForge.SessionEventRuns
import PromptForge.ToolPipelineRuns
import PromptForge.BuildOperationRuns
import PromptForge.GenerationRollbackRuns
import PromptForge.ArtifactStoreIntegrity
import PromptForge.BuildCaptureRuns
import PromptForge.SubagentRuns
import PromptForge.RecoveryDraftRoundTrip
import PromptForge.ImportedOptions
import PromptForge.LivePlanEvidence
import PromptForge.UnifiedPatchRoundTrip
import PromptForge.ToolEditLaws
import PromptForge.ApprovalExpiry
import PromptForge.OperationRecords
import PromptForge.Checkpoints
import PromptForge.IdempotentAppends
import PromptForge.JobRequestRuns
import PromptForge.RunBudgetRuns
import PromptForge.NestedBlockRuns
import PromptForge.StreamRecovery
import PromptForge.PlanCallLaws
import PromptForge.ReviewUnitLaws
import PromptForge.PartialSummary
import PromptForge.ObservationContextLaws
import PromptForge.PublicTextLaws
import PromptForge.PagedReading
import PromptForge.FirmwareLayoutLaws
import PromptForge.SerialLinesLaws
import PromptForge.RequirementGroups
import PromptForge.ToolPlanLaws
import PromptForge.GenerationControllerLaws
import PromptForge.QuotedEvidenceLaws
import PromptForge.CollisionRenameLaws
import PromptForge.ChatViewLaws
import PromptForge.ProjectMemoryRuns
import PromptForge.RunStart
import PromptForge.AcceptanceEvidence
import PromptForge.BoundedOutput
import PromptForge.SnapshotHashes
