import Apex.Theory.EngineRuns.Fencing
import Apex.Theory.WorkItemMutations.Dispatch
import Apex.Theory.Launches.Idempotency
import Apex.Theory.CycleDispatch.Ownership
import Apex.Theory.Consumers.Disclosure
import Apex.Theory.Cycles.Authentic
import Apex.Theory.RateLimits.Agreement
import Apex.Theory.Audit.Integrity
import Apex.Theory.TestScope.Binding
import Apex.Theory.Catalog.Sharing
import Apex.Theory.Tenancy.Agreement
import Apex.Theory.Cycles.Followups
import Apex.Theory.EngineArtifacts.Facade
import Apex.Theory.AnalysisLedger.Ledger
import Apex.Theory.OutputReview.Kept
import Apex.Theory.ModelPricing.Splice
import Apex.Theory.JsonWire.Bounds
import Apex.Theory.ApexLoad.Workload
import Apex.Theory.HttpResilience.Breaker
import Apex.Theory.PipelineRead.Pages
import Apex.Theory.GatePreview.Fitting
import Apex.Theory.TextExtraction.Retention
import Apex.Theory.PromptSelections.Aggregate
import Apex.Theory.CycleRows.Serial
import Apex.Theory.JiraAdf.Markers
import Apex.Theory.CredentialGraph
import Apex.Theory.SimEngine.LifeCycle
import Apex.Theory.MigrationLineage
import Apex.Theory.Environments
import Apex.Theory.PublicProjection
import Apex.Theory.Drafts
import Apex.Theory.RemoteIdempotency
import Apex.Theory.ArtifactStore
