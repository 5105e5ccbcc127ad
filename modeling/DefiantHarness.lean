import DefiantHarness.LedgerConservation
import DefiantHarness.LedgerSolvency
import DefiantHarness.ApprovalRace
import DefiantHarness.DispatchSafety
import DefiantHarness.HashAgreement
import DefiantHarness.PayloadBinding
import DefiantHarness.StrictJson
import DefiantHarness.EvidenceChain
import DefiantHarness.WriterReader
import DefiantHarness.GrantSafety
import DefiantHarness.WorkspaceTarget
import DefiantHarness.McpIsolation
import DefiantHarness.ActionJudgement
import DefiantHarness.SettlementPreview
import DefiantHarness.LedgerConflicts
import DefiantHarness.Attribution
import DefiantHarness.EnforcementBases
import DefiantHarness.McpRetry
import DefiantHarness.KnownResults
import DefiantHarness.TrustRuns
import DefiantHarness.LatestRetry
import DefiantHarness.HookTargets
import DefiantHarness.PublicationSeals
import DefiantHarness.SigningCompleteness
import DefiantHarness.VerifierAgreement
import DefiantHarness.PayloadText
import DefiantHarness.HookExecutions
import DefiantHarness.AuthorityBalance
import DefiantHarness.HttpReplies
import DefiantHarness.BundleHashes
import DefiantHarness.LaunchFidelity
import DefiantHarness.SingleCompletion
import DefiantHarness.HookCorrelation
import DefiantHarness.SerializedRecords
import DefiantHarness.ActionRoundTrip
import DefiantHarness.RestoredFingerprints
import DefiantHarness.SingleCharge
import DefiantHarness.ApprovalLifecycle
import DefiantHarness.StateFileAtomicity
import DefiantHarness.EndedReservations
import DefiantHarness.OutcomeEvidence
import DefiantHarness.McpForwarding
import DefiantHarness.EvidenceRetries
import DefiantHarness.DocumentFiles
import DefiantHarness.PublicationContinuity
import DefiantHarness.PublicationFiles
import DefiantHarness.PublicationRatchet
