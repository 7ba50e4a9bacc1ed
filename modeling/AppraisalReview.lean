import AppraisalReview.Dict
import AppraisalReview.JobAgreement
import AppraisalReview.JobBounds
import AppraisalReview.JobCancellation
import AppraisalReview.JobEffects
import AppraisalReview.JobRecovery
import AppraisalReview.JobSubmission
import AppraisalReview.DispatchRaces
import AppraisalReview.OrphanBodies
import AppraisalReview.ReviewOrder
import AppraisalReview.ReviewSoundness
import AppraisalReview.EvidenceGate
import AppraisalReview.ResponseAtomicity
import AppraisalReview.BudgetCaps
import AppraisalReview.LedgerLaws
import AppraisalReview.DispatchSpacing
import AppraisalReview.ExtractionLimits
import AppraisalReview.IngestionRuns
import AppraisalReview.RepositoryIntegrity
import AppraisalReview.ActionDerivation
import AppraisalReview.CompletionSafety
import AppraisalReview.CorrectionFrame
import AppraisalReview.PrivacyRevisions
import AppraisalReview.WorkflowBounds
import AppraisalReview.ApprovalAgreement
import AppraisalReview.ScoreConservation
import AppraisalReview.IntervalPartition
import AppraisalReview.VerificationLaws
import AppraisalReview.PlaceholderInventory
import AppraisalReview.CorrectionScores
import AppraisalReview.FactConfirmation
import AppraisalReview.HandoffCoverage
import AppraisalReview.RuntimeWorker
import AppraisalReview.AttemptAuthority
import AppraisalReview.WorkerSettlement
import AppraisalReview.FieldOccupancy
import AppraisalReview.RefillRelease
import AppraisalReview.PublicationSafety
