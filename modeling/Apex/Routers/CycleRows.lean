import Apex.Persistence.CycleRows
import Apex.Routers.Cycles

/-!
# The Handlers That Write A Row

An operator is shown a cycle with the actions that each version takes, edits and reviews it,
and prepares executions from it. A list of cycles shows progress, and stores it where it is
missing.

## Main definitions

* `versionView`, `view`: What is shown of a version, and of a cycle.
* `CycleRows.createVersion`, `CycleRows.act`: Edits and reviews.
* `CycleRows.prepareExecution`, `CycleRows.archivePreparation`: What is prepared.
* `CycleRows.fillMissingProgress`: What a list does.
* `CycleRows.RowJob`, `CycleRows.handleRow`: A call, and the handler of it.
-/

namespace Apex.Routers

open Auth Domain Persistence

open Domain.CycleExecutions (PrepareExecution ExecutionSnapshot LaunchAuthority ExecutionMode
  Binding prepareSnapshot)

open Apex.Action hiding ask

structure CycleVersionRead where
  version : Version
  approvalCurrent : Bool
  validationIssues : List String
  availableActions : List ReviewAction

variable (env : CyclesEnv) (row : TestCycle) (version : Version)

def versionIssues : List String :=
  contentIssues env version.kind version.content
    ++ if contentIntegrity env version then [] else
      ["Version content does not match its recorded checksum"]

/-- Whether a version in review may be approved. -/
def approveOffered (actor : ConsumerIdentity) : Bool :=
  (versionIssues env version).isEmpty
    && (!row.independentReview || actor.consumerId != version.createdBy)
    && version.dependencies.all (approvalCurrent env row.versions)

/-- The reviews that are offered of a version that is not archived and not replaced. -/
def offeredReviews (actor : ConsumerIdentity) : List ReviewAction :=
  (if version.status == .draft && (versionIssues env version).isEmpty then [.submit] else [])
    ++ if version.status == .inReview then
      .requestRevision :: if approveOffered env row version actor then [.approve] else []
      else []

def availableActions :
    Option ConsumerIdentity → List ReviewAction
  | none => []
  | some actor =>
    if actor.role.atLeast .operator then
      (if version.archived then .restore else .archive)
        :: if !superseded row.versions version.id && !version.archived then
          offeredReviews env row version actor
          else []
    else []

def versionView (actor : Option ConsumerIdentity) : CycleVersionRead where
  version := version
  approvalCurrent := approvalCurrent env row.versions version.id
  validationIssues := versionIssues env version
  availableActions := availableActions env row version actor

structure CycleRead where
  cycle : TestCycle
  progress : CycleProgress
  versions : List CycleVersionRead

def view (actor : Option ConsumerIdentity) : CycleRead where
  cycle := row
  progress := cycleProgress env row.versions
  versions := row.versions.map fun v => versionView env row v actor

namespace CycleRows

abbrev RowHandler (α : Type) := Action RowRequest RowRequest.Answer CycleError α

def askRows (r : RowRequest) : RowHandler r.Answer := Action.ask r

variable (env : CyclesEnv) (identity : ConsumerIdentity)

/-- `require_role(Role.OPERATOR)`. -/
def requireOperator : RowHandler Unit :=
  raiseWhen (!identity.role.atLeast .operator) (.http 403 "Requires role 'operator' or higher")

def find (identity : ConsumerIdentity) (cycleId : String) : RowHandler TestCycle := do
  let row ← askRows (.find identity cycleId)
  settle (someOr (.http 404 "Cycle not found") row)

def saveVersions (env : CyclesEnv) (identity : ConsumerIdentity) (cycleId : String)
    (revision : Nat) (versions : List Version) : RowHandler CycleRead := do
  raiseWhen (decide (2000000 < versionsBytes env versions))
    (.http 413 "Cycle content limit reached; store large evidence as artifacts")
  let answer ← askRows (.saveVersions cycleId revision versions (cycleProgress env versions))
  let row ← settle (writeOutcome "Cycle changed; refresh and review the latest version" answer)
  pure (view env row (some identity))

def createVersion (env : CyclesEnv) (identity : ConsumerIdentity) (cycleId : String)
    (body : VersionCreate) : RowHandler CycleRead := do
  requireOperator identity
  let row ← find identity cycleId
  raiseWhen (row.revision != body.expectedRevision)
    (.http 409 "Cycle changed; refresh before editing")
  raiseWhen (decide (200 ≤ row.versions.length))
    (.http 409 "Cycle version limit reached; create the next cycle")
  let id ← askRows .uuid4
  let createdAt ← askRows .now
  let version ← settle (refusal 409 (fun message => message)
    (addVersion env row.versions body identity.consumerId false id createdAt.text))
  saveVersions env identity row.id body.expectedRevision (row.versions ++ [version])

def act (cycleId : String) (body : CycleAction) :
    RowHandler CycleRead := do
  requireOperator identity
  let row ← find identity cycleId
  raiseWhen (row.revision != body.expectedRevision)
    (.http 409 "Cycle changed; refresh before reviewing")
  let time ← askRows .now
  let versions ← settle (refusal 409 (fun message => message)
    (transition env row.versions body identity.consumerId time.text row.independentReview))
  saveVersions env identity row.id body.expectedRevision versions

structure ExecutionMutationRead where
  id : String
  revision : Nat

def authorityValue : LaunchAuthority → String
  | .pipeline => "pipeline"
  | .nativeSchedule => "native_schedule"

/-- `body.model_dump(exclude={"expected_revision", "idempotency_key"})`. -/
def prepareContent (body : PrepareExecution) : Dict Json :=
  ((((Dict.single "plan_version_id" (Json.str body.planVersionId)).set
    "script_version_id" (.str body.scriptVersionId)).set
    "readiness_version_id" (optionalText body.readinessVersionId)).set
    "connection_id" (optionalText body.connectionId)).set
    "launch_authority" (.str (authorityValue body.launchAuthority))

def executionMode : CycleMode → ExecutionMode
  | .live => .live
  | .simulation => .simulation

def selectedConnection (context : ExecutionContext) (body : PrepareExecution) :
    Option EngineConnection :=
  context.connections.find? fun c => body.connectionId == some c.id

/-- What is prepared, and is refused where its engine is not that of the connection. -/
def prepared (cycle : TestCycle) (body : PrepareExecution)
    (context : ExecutionContext) : Except CycleError ExecutionSnapshot := do
  let connection := selectedConnection context body
  let connectionId := body.connectionId.filter (· != "")
  raiseIf (connectionId.isSome && connection.isNone)
    (.http 422 "Select an available execution connection")
  raiseIf (cycle.mode == .simulation && connectionId.isSome)
    (.http 422 "Simulation preparations must not select a live connection")
  let snapshot ← refusal 422 (fun message => message)
    (prepareSnapshot env body cycle.versions ⟨executionMode cycle.mode, cycle.environmentId,
      context.targetVersion, connection.map EngineConnection.runtimeVersion⟩)
  raiseIf (connection.any fun c => c.provider != snapshot.engine.value.replace "-" "_")
    (.http 422 "Connection provider does not match the approved script")
  pure snapshot

/-- `snapshot.model_copy(update={...})`, where there is a stored source. -/
def withStored (snapshot : ExecutionSnapshot) : Option StoredScript → ExecutionSnapshot
  | none => snapshot
  | some artifact => { snapshot with
      scriptArtifactId := some artifact.id
      scriptArtifactStoredAt := some artifact.storedAt }

def prepareNew (cycle : TestCycle)
    (body : PrepareExecution) : RowHandler ExecutionMutationRead := do
  raiseWhen (cycle.revision != body.expectedRevision)
    (.http 409 "Cycle changed; refresh before preparing execution")
  let count ← askRows (.preparationCount cycle.id)
  raiseWhen (decide (100 ≤ count))
    (.http 409 "Cycle preparation history limit reached, including archived preparations")
  let context ← askRows (.context cycle)
  let snapshot ← settle (prepared env cycle body context)
  let artifact ← askRows (.scriptArtifact cycle.id snapshot)
  let id ← askRows .uuid4
  let answer ← askRows (.savePreparation body.expectedRevision {
    id := id
    cycleId := cycle.id
    idempotencyKey := body.idempotencyKey
    requestFingerprint := versionDigest env (prepareContent body)
    snapshot := withStored snapshot artifact
    createdBy := identity.consumerId
    archivedAt := none
    archivedBy := none })
  let row ← settle (writeOutcome
    "Cycle changed; refresh and review before preparing execution" answer)
  pure ⟨row.id, body.expectedRevision + 1⟩

def prepareExecution (cycleId : String)
    (body : PrepareExecution) : RowHandler ExecutionMutationRead := do
  requireOperator identity
  let cycle ← find identity cycleId
  let existing ← askRows (.preparationOf cycle.id body.idempotencyKey)
  match existing with
  | some row =>
    raiseWhen (row.requestFingerprint != versionDigest env (prepareContent body))
      (.http 409 "Idempotency key already belongs to a different preparation")
    pure ⟨row.id, cycle.revision⟩
  | none => prepareNew env identity cycle body

/-- `archive_preparation`. The revision is left to the write. -/
def archivePreparation (cycleId preparationId : String)
    (expectedRevision : Nat) : RowHandler ExecutionMutationRead := do
  requireOperator identity
  let cycle ← find identity cycleId
  let found ← askRows (.preparation cycle.id preparationId)
  let row ← settle (someOr (.http 404 "Execution preparation not found") found)
  if row.archivedAt.isSome then pure ⟨row.id, cycle.revision⟩ else do
  let active ← askRows (.activeDispatch row.id)
  raiseWhen active (.http 409 ("This preparation has an active or uncertain dispatch; confirm its "
    ++ "run has stopped before archiving"))
  let time ← askRows .now
  let answer ← askRows (.saveArchive expectedRevision
    { row with archivedAt := some time.text, archivedBy := some identity.consumerId })
  let saved ← settle (writeOutcome
    "Cycle changed; refresh and review before preparing execution" answer)
  pure ⟨saved.id, expectedRevision + 1⟩

/-- What is stored of progress, if it is valid. -/
def shownProgress (row : PageRow) : PageRow :=
  { row with progress := row.progress.filter CycleProgress.consistent }

def setProgress (page : List PageRow) (id : String) (progress : CycleProgress) : List PageRow :=
  page.map fun row => if row.id = id then { row with progress := some progress } else row

/-- What is done about the histories of a batch. -/
def fillHistories (batch : List PageRow) :
    List TestCycle → List PageRow → RowHandler (List PageRow)
  | [], page => pure page
  | history :: rest, page =>
    if !batch.any (fun row => row.id == history.id && row.revision == history.revision)
        || decide (200 < history.versions.length) then
      fillHistories batch rest page
    else do
      let progress := cycleProgress env history.versions
      let saved ← askRows (.saveProgress history.id history.revision progress)
      fillHistories batch rest (if saved then setProgress page history.id progress else page)

def fillBatches :
    List (List PageRow) → List PageRow → RowHandler (List PageRow)
  | [], page => pure page
  | batch :: rest, page => do
      let histories ← askRows (.histories identity (batch.map PageRow.id))
      let page ← fillHistories env batch histories page
      fillBatches rest page

/-- Ten rows at a time. -/
def batches (missing : List PageRow) : List (List PageRow) :=
  (List.range ((missing.length + 9) / 10)).map fun k => (missing.drop (10 * k)).take 10

def fillMissingProgress (page : List PageRow) :
    RowHandler (List PageRow) :=
  let shown := page.map shownProgress
  fillBatches env identity (batches (shown.filter fun row => row.progress.isNone)) shown

inductive RowJob where
  | createVersion (cycleId : String) (body : VersionCreate)
  | act (cycleId : String) (body : CycleAction)
  | prepareExecution (cycleId : String) (body : PrepareExecution)
  | archivePreparation (cycleId preparationId : String) (expectedRevision : Nat)
  | fillMissingProgress (page : List PageRow)

inductive RowReply where
  | cycle (read : CycleRead)
  | mutation (read : ExecutionMutationRead)
  | page (rows : List PageRow)

def handleRow : RowJob → RowHandler RowReply
  | .createVersion cycleId body => .cycle <$> createVersion env identity cycleId body
  | .act cycleId body => .cycle <$> act env identity cycleId body
  | .prepareExecution cycleId body => .mutation <$> prepareExecution env identity cycleId body
  | .archivePreparation cycleId preparationId expectedRevision =>
    .mutation <$> archivePreparation identity cycleId preparationId expectedRevision
  | .fillMissingProgress page => .page <$> fillMissingProgress env identity page

end CycleRows

end Apex.Routers
