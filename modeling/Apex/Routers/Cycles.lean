import Apex.Persistence.Cycles

/-!
# The Handlers Of A Cycle

An operator creates a cycle, edits and reviews its documents, captures evidence of
executions into a report and of source pages into a scope, imports a script from a
provider, and starts the next cycle with drafts of this one.

Every handler prepares what it writes from the row it has read and writes it only if
the row is still at that revision. A capture carries a key: the same request with the
same key finds what it wrote before and returns the cycle as it is.

## Main definitions

* `createCycle`, `createVersion`, `act`: A cycle, its versions and their reviews.
* `freezeEvidence`, `captureSource`: The captures.
* `importScript`: A script of a provider.
* `nextCycle`: The next cycle.
* `CycleJob`, `handleCycles`: A call, and the handler of it.
-/

namespace Apex.Routers

open Auth Domain Persistence

open Apex.Action hiding ask

/-- `HTTPException`, or an exception that no handler catches. -/
inductive CycleError where
  | http (status : Nat) (detail : String)
  | failed (name : String)
  deriving DecidableEq

abbrev CycleHandler (α : Type) := Action CycleRequest CycleRequest.Answer CycleError α

def askCycles (r : CycleRequest) : CycleHandler r.Answer := Action.ask r

variable (env : CyclesEnv) (identity : ConsumerIdentity) (versions : List Version)
  (cycleId versionId : String) (body : CaptureSource)

/-- `require_role(Role.OPERATOR)`. -/
def requireOperator : CycleHandler Unit :=
  raiseWhen (!identity.role.atLeast .operator) (.http 403 "Requires role 'operator' or higher")

def findCycle : CycleHandler TestCycle := do
  let row ← askCycles (.find identity cycleId)
  settle (someOr (.http 404 "Cycle not found") row)

/-- What a handler makes of what it is told about its write. -/
def writeOutcome {α : Type} (conflict : String) : WriteAnswer α → Except CycleError α
  | .saved row => .ok row
  | .conflict => .error (.http 409 conflict)
  | .lost => .error (.failed "OperationalError")

/-- A `ValueError` as the refusal of a request. -/
def refusal {α : Type} (status : Nat) (detail : String → String) :
    Except String α → Except CycleError α
  | .ok a => .ok a
  | .error message => .error (.http status (detail message))

/-- `len(json.dumps(versions).encode())`. -/
def versionsBytes : Nat :=
  env.jsonBytes (.list (versions.map Version.toJson))

def saveVersions (env : CyclesEnv) (cycleId : String) (revision : Nat) (versions : List Version) :
    CycleHandler TestCycle := do
  raiseWhen (decide (2000000 < versionsBytes env versions))
    (.http 413 "Cycle content limit reached; store large evidence as artifacts")
  let answer ← askCycles (.saveVersions cycleId revision versions)
  settle (writeOutcome "Cycle changed; refresh and review the latest version" answer)

structure CycleCreate where
  name : String
  projectId : ScopeId
  appId : ScopeId
  environmentId : ScopeId
  mode : CycleMode

def CycleCreate.accepted (body : CycleCreate) : Bool :=
  boundedText 1 255 body.name && !env.credentials (.ofDict
    (((((Dict.single "name" (Json.str body.name)).set "project_id" (.str body.projectId.value)).set
      "app_id" (.str body.appId.value)).set
      "environment_id" (.str body.environmentId.value)).set
      "mode" (.str body.mode.value)))

def newCycle (body : CycleCreate) (id : String) :
    TestCycle where
  id := id
  name := body.name
  projectId := body.projectId.value
  appId := body.appId.value
  environmentId := body.environmentId.value
  mode := body.mode
  owner := identity.consumerId
  revision := 1
  independentReview := env.independentReview
  versions := []
  originCycleId := none
  originRequestKey := none
  originFingerprint := none

def createCycle (body : CycleCreate) :
    CycleHandler TestCycle := do
  requireOperator identity
  raiseWhen (!body.accepted env) (.http 422 "Invalid request value")
  raiseWhen (!identity.allowsApp body.projectId.value (some body.appId.value))
    (.http 403 "project is outside this consumer's scopes")
  let target ← askCycles (.targetActive body.projectId.value body.appId.value
    body.environmentId.value)
  raiseWhen (!target) (.http 422 "Select an active application and its environment in this project")
  let id ← askCycles .uuid4
  let answer ← askCycles (.insert (newCycle env identity body id))
  settle (writeOutcome "Conflict" answer)

def createVersion (body : VersionCreate) : CycleHandler TestCycle := do
  requireOperator identity
  raiseWhen (!body.accepted env) (.http 422 "Invalid request value")
  let row ← findCycle identity cycleId
  raiseWhen (row.revision != body.expectedRevision)
    (.http 409 "Cycle changed; refresh before editing")
  raiseWhen (decide (200 ≤ row.versions.length))
    (.http 409 "Cycle version limit reached; create the next cycle")
  let id ← askCycles .uuid4
  let createdAt ← askCycles .now
  let version ← settle (refusal 409 (fun message => message)
    (addVersion env row.versions body identity.consumerId false id createdAt.text))
  saveVersions env row.id body.expectedRevision (row.versions ++ [version])

def act (body : CycleAction) :
    CycleHandler TestCycle := do
  requireOperator identity
  raiseWhen (!(decide (1 ≤ body.expectedRevision) && boundedText 1 32 body.versionId
      && boundedText 0 2000 body.note && !env.credentials (.str body.note)))
    (.http 422 "Invalid request value")
  let row ← findCycle identity cycleId
  raiseWhen (row.revision != body.expectedRevision)
    (.http 409 "Cycle changed; refresh before reviewing")
  let time ← askCycles .now
  let versions ← settle (refusal 409 (fun message => message)
    (transition env row.versions body identity.consumerId time.text row.independentReview))
  saveVersions env row.id body.expectedRevision versions

/-- The version a capture is stored as: as `add_version` makes it, under the id that the
    evidence names. -/
def capturedVersion (request : VersionCreate)
    (actor id createdAt captureId detail : String) : Except CycleError Version := do
  raiseIf (!request.accepted env) (.http 409 detail)
  let version ← refusal 409 (fun _ => detail)
    (addVersion env versions request actor true id createdAt)
  pure { version with id := captureId }

structure FreezeReportEvidence where
  expectedRevision : Nat
  idempotencyKey : String
  expectedResults : Dict String

/-- Whether a request key is a `RecordId`. -/
def isRecordId (s : String) : Bool := boundedText 1 32 s

def isDigest (s : String) : Bool :=
  decide (s.length = 64) && s.toList.all fun c => ('0' ≤ c && c ≤ '9') || ('a' ≤ c && c ≤ 'f')

def FreezeReportEvidence.accepted (body : FreezeReportEvidence) : Bool :=
  decide (1 ≤ body.expectedRevision) && isRecordId body.idempotencyKey
    && decide (1 ≤ body.expectedResults.length) && decide (body.expectedResults.length ≤ 20)
    && body.expectedResults.items.all fun kv => isRecordId kv.1 && isDigest kv.2

/-- What the digest of a capture of executions is made of. -/
def freezeContent (body : FreezeReportEvidence) : Dict Json :=
  (Dict.single "version_id" (Json.str versionId)).set "results"
    (.ofDict (body.expectedResults.map fun _ checksum => .str checksum))

variable (cycle : TestCycle) (key : String)

/-- Whether evidence was captured into the version that carries it, under a key. -/
def capturedUnder (evidence : Json) : Bool :=
  evidence.isDict && evidence.field "capture_version_id" == .str versionId
    && evidence.field "request_key" == .str key

/-- The first evidence of executions that was captured under a key. -/
def findSnapshot (versions : List Version) : Option Json :=
  versions.findSome? fun v =>
    (some v.snapshot).filter (capturedUnder v.id key)

/-- What a request is answered whose key was used: the cycle as it is, if it is the same
    request. -/
def replayed (fingerprint detail : String) (evidence : Json) :
    Except CycleError TestCycle :=
  if evidence.field "request_fingerprint" = .str fingerprint then .ok cycle
  else .error (.http 409 detail)

/-- The pattern of the end of the title of a report with evidence; `0` stands for a digit. -/
def capturedSuffix : List Char := " (evidence captured 0000-00-00 00:00:00 UTC)".toList

def isCapturedSuffix (cs : List Char) : Bool :=
  decide (cs.length = capturedSuffix.length) && (cs.zip capturedSuffix).all fun pair =>
    if pair.2 = '0' then env.decimalDigit pair.1 else pair.1 == pair.2

/-- The title of a report without that end, which a last line break may follow. -/
def baseTitle (title : String) : String :=
  let cs := title.toList
  let cut (cs : List Char) := cs.take (cs.length - capturedSuffix.length)
  let ends (cs : List Char) := isCapturedSuffix env (cs.drop (cs.length - capturedSuffix.length))
  if ends cs then String.ofList (cut cs)
  else if cs.getLast? == some '\n' && ends cs.dropLast then
    String.ofList (cut cs.dropLast ++ ['\n'])
  else title

def capturedTitle (title capturedAt : String) : String :=
  let suffix := " (evidence captured " ++ env.utcLabel capturedAt ++ ")"
  String.ofList ((baseTitle env title).toList.take (255 - suffix.length)) ++ suffix

/-- The evidence of executions, as it is captured. -/
def snapshotOf (captureId key fingerprint capturedAt actor : String)
    (results : List CycleResult) : Dict Json :=
  ((((((Dict.single "capture_version_id" (Json.str captureId)).set "request_key" (.str key)).set
    "request_fingerprint" (.str fingerprint)).set
    "captured_at" (.str capturedAt)).set
    "captured_by" (.str actor)).set
    "source" (.str "engine_run_history")).set
    "results" (.list (results.map fun r => .ofDict r.dump))

/-- Whether some results are exactly those a request expects. -/
def sameResults (results : List CycleResult) (expected : Dict String) : Bool :=
  (results.all fun r => expected.get? r.id == some r.evidenceChecksum)
    && expected.keys.all fun id => results.any fun r => r.id == id

/-- The answer about a report that cannot take evidence. -/
def reportRefused : String :=
  "Report is superseded, dependencies are stale, or snapshot exceeds limits"

def reportSource :
    Except CycleError Version := do
  let source ← someOr (.http 404 "Active report version not found")
    (versions.find? fun v => v.id == versionId && v.kind == .report)
  raiseIf source.archived (.http 404 "Active report version not found")
  raiseIf (versionDigest env source.content != source.checksum)
    (.http 409 "Report content no longer matches its version checksum")
  pure source

/-- The edit that adds captured evidence of executions to a report. -/
def freezeRequest (source : Version) (versionId : String) (body : FreezeReportEvidence)
    (capturedAt : String) (snapshot : Dict Json) :
    VersionCreate where
  expectedRevision := body.expectedRevision
  kind := .report
  title := capturedTitle env source.title capturedAt
  content := source.content.set executionEvidenceKey (.ofDict snapshot)
  dependencies := source.dependencies
  replaces := some versionId
  changeSummary := "Captured execution summaries; renewed report review required."

/-- `freeze_evidence`, where the key of the request was not used. -/
def freezeNew (versionId : String) (body : FreezeReportEvidence) : CycleHandler TestCycle := do
  raiseWhen (cycle.revision != body.expectedRevision || decide (200 ≤ cycle.versions.length))
    (.http 409 "Cycle changed or version limit reached; refresh before capture")
  let source ← settle (reportSource env cycle.versions versionId)
  let results ← askCycles (.results cycle body.expectedResults.keys)
  raiseWhen (!sameResults results body.expectedResults)
    (.http 409 "Execution evidence changed or became inaccessible; inspect fresh results")
  let captureId ← askCycles .uuid4
  let capturedAt ← askCycles .now
  let id ← askCycles .uuid4
  let createdAt ← askCycles .now
  let snapshot := snapshotOf captureId body.idempotencyKey
    (versionDigest env (freezeContent versionId body)) capturedAt.text identity.consumerId results
  let version ← settle (capturedVersion env cycle.versions
    (freezeRequest env source versionId body capturedAt.text snapshot) identity.consumerId id
    createdAt.text captureId reportRefused)
  saveVersions env cycle.id body.expectedRevision (cycle.versions ++ [version])

def freezeEvidence (body : FreezeReportEvidence) : CycleHandler TestCycle := do
  requireOperator identity
  raiseWhen (!body.accepted) (.http 422 "Invalid request value")
  let cycle ← findCycle identity cycleId
  match findSnapshot body.idempotencyKey cycle.versions with
  | some snapshot => settle (replayed cycle (versionDigest env (freezeContent versionId body))
      "Operation key already used for different report evidence" snapshot)
  | none => freezeNew env identity cycle versionId body

structure CaptureSource where
  expectedRevision : Nat
  idempotencyKey : String
  connectionId : String
  connectionVersion : Timestamp
  ref : DocRef
  expectedChecksum : String
  title : String

def DocRef.accepted (ref : DocRef) : Bool :=
  ref.revision.all (boundedText 1 64) && boundedText 1 255 ref.id && boundedText 1 64 ref.source
    && ref.uri.all (boundedText 0 4096)

def CaptureSource.accepted (body : CaptureSource) : Bool :=
  decide (1 ≤ body.expectedRevision) && isRecordId body.idempotencyKey
    && isRecordId body.connectionId && DocRef.accepted body.ref && isDigest body.expectedChecksum
    && decide (1 ≤ body.title.length) && decide (body.title.length ≤ 500)

/-- `model_dump` of a reference. -/
def docRefJson (ref : DocRef) : Json :=
  .ofDict ((((Dict.single "revision" (optionalText ref.revision)).set "id" (.str ref.id)).set
    "source" (.str ref.source)).set "uri" (optionalText ref.uri))

/-- `model_dump` of a document. -/
def documentJson (document : DocumentContent) : Dict Json :=
  (((Dict.single "title" (optionalText document.title)).set "ref" (docRefJson document.ref)).set
    "media_type" (.str document.mediaType)).set "text" (.str document.text)

/-- What the digest of a capture of a source is made of. -/
def captureContent : Dict Json :=
  (((((Dict.single "connection_id" (Json.str body.connectionId)).set
    "connection_version" (.str body.connectionVersion.text)).set
    "ref" (docRefJson body.ref)).set
    "expected_checksum" (.str body.expectedChecksum)).set
    "title" (.str body.title)).set
    "version_id" (.str versionId)

/-- The records of the sources of a version; what is no list holds none. -/
def sourceRecords (content : Dict Json) : List Json :=
  match content.value sourceEvidenceKey with
  | .list records => records
  | _ => []

/-- The first record of a source that was captured under a key. -/
def findRecord (versions : List Version) : Option Json :=
  versions.findSome? fun v =>
    (sourceRecords v.content).find? (capturedUnder v.id key)

def recordOf (captureId fingerprint capturedAt actor : String) (body : CaptureSource)
    (connection : ConnectionChoice) (document : DocumentContent) : Dict Json :=
  ((((((((((Dict.single "capture_version_id" (Json.str captureId)).set
    "request_key" (.str body.idempotencyKey)).set
    "request_fingerprint" (.str fingerprint)).set
    "label" (.str body.title)).set
    "title" (optionalText document.title)).set
    "connection_id" (.str connection.id)).set
    "connection_version" (.str connection.runtimeVersion.text)).set
    "captured_at" (.str capturedAt)).set
    "captured_by" (.str actor)).set
    "checksum" (.str body.expectedChecksum)).set
    "document" (.ofDict (documentJson document))

/-- Whether a record is of a page of a connection. -/
def ofPage (connectionId pageId : String) (record : Json) : Bool :=
  record.field "connection_id" == .str connectionId
    && ((record.field "document").field "ref").field "id" == .str pageId

/-- The answer about a scope that cannot take evidence. -/
def scopeRefused : String :=
  "Scope is superseded, dependencies are stale, or source exceeds content limits"

def scopeSource : Except CycleError Version :=
  someOr (.http 404 "Active scope version not found")
    (versions.find? fun v => v.id == versionId && v.kind == .scope && !v.archived)

/-- The edit that adds a captured source to a scope, after some records it keeps. -/
def captureRequest (source : Version) (versionId : String) (body : CaptureSource)
    (kept : List Json) (record : Dict Json) : VersionCreate where
  expectedRevision := body.expectedRevision
  kind := .scope
  title := source.title
  content := source.content.set sourceEvidenceKey (.list (kept ++ [.ofDict record]))
  dependencies := source.dependencies
  replaces := some versionId
  changeSummary := "Captured Confluence revision; renew scope and downstream review."

/-- `capture_source`, once the page is read. -/
def captureRead (source : Version) (connection : ConnectionChoice)
    (document : DocumentContent) : CycleHandler TestCycle := do
  raiseWhen (versionDigest env (documentJson document) != body.expectedChecksum)
    (.http 409 "Source content changed; inspect a fresh preview")
  let cycle ← findCycle identity cycleId
  raiseWhen (cycle.revision != body.expectedRevision)
    (.http 409 "Cycle changed; refresh before capture")
  let captureId ← askCycles .uuid4
  let capturedAt ← askCycles .now
  let record := recordOf captureId (versionDigest env (captureContent versionId body))
    capturedAt.text identity.consumerId body connection document
  let kept := (sourceRecords source.content).filter fun r => !ofPage connection.id body.ref.id r
  raiseWhen (decide (32 ≤ kept.length)) (.http 409 "Scope source limit reached")
  let id ← askCycles .uuid4
  let createdAt ← askCycles .now
  let version ← settle (capturedVersion env cycle.versions
    (captureRequest source versionId body kept record) identity.consumerId id createdAt.text
    captureId scopeRefused)
  saveVersions env cycle.id body.expectedRevision (cycle.versions ++ [version])

/-- `capture_source`, where the key of the request was not used. -/
def captureNew (versionId : String) (body : CaptureSource) : CycleHandler TestCycle := do
  raiseWhen (cycle.mode != .live || cycle.revision != body.expectedRevision
      || decide (200 ≤ cycle.versions.length))
    (.http 409 "Use a current live cycle with available version capacity")
  let source ← settle (scopeSource cycle.versions versionId)
  let connections ← askCycles (.sourceConnections cycle.projectId)
  let connection ← settle (someOr (.http 409 "Source connection changed; refresh the preview")
    (connections.find? fun c => c.id == body.connectionId
      && c.runtimeVersion.instant == body.connectionVersion.instant))
  raiseWhen body.ref.revision.isNone (.http 422 "Preview an exact page revision before capture")
  let answer ← askCycles (.readSource cycle.projectId connection body.ref)
  let document ← settle (someOr (.http 503 ("Confluence source unavailable; check connection, "
    ++ "space permissions, revision and supported page content")) answer)
  captureRead env identity cycle.id versionId body source connection document

def captureSource : CycleHandler TestCycle := do
  requireOperator identity
  raiseWhen (!body.accepted) (.http 422 "Invalid request value")
  let cycle ← findCycle identity cycleId
  match findRecord body.idempotencyKey cycle.versions with
  | some record => settle (replayed cycle (versionDigest env (captureContent versionId body))
      "Operation key already used for another source capture" record)
  | none => captureNew env identity cycle versionId body

structure ImportProviderScript where
  expectedRevision : Nat
  idempotencyKey : String
  connectionId : String
  connectionVersion : Timestamp
  remoteScriptId : String
  expectedSourceChecksum : String
  planVersionId : String
  title : String
  parameters : String
  coverage : String

def importContent (body : ImportProviderScript) : Dict Json :=
  (((((((Dict.single "connection_id" (Json.str body.connectionId)).set
    "connection_version" (.str body.connectionVersion.text)).set
    "remote_script_id" (.str body.remoteScriptId)).set
    "expected_source_checksum" (.str body.expectedSourceChecksum)).set
    "plan_version_id" (.str body.planVersionId)).set
    "title" (.str body.title)).set
    "parameters" (.str body.parameters)).set
    "coverage" (.str body.coverage)

def ImportProviderScript.accepted (body : ImportProviderScript) : Bool :=
  decide (1 ≤ body.expectedRevision) && isRecordId body.idempotencyKey
    && isRecordId body.connectionId && boundedText 1 255 body.remoteScriptId
    && isDigest body.expectedSourceChecksum && isRecordId body.planVersionId
    && boundedText 1 255 body.title && boundedText 1 10000 body.parameters
    && boundedText 1 10000 body.coverage && !env.credentials (.ofDict (importContent body))

/-- `_approved`, of a test plan. -/
def approvedPlan : Bool :=
  match versions.find? fun v => v.id == versionId with
  | none => false
  | some v => v.kind == .testPlan && approvalCurrent env versions versionId
      && contentIntegrity env v

def importRequest (body : ImportProviderScript) (exported : ProviderScriptExport) :
    VersionCreate where
  expectedRevision := body.expectedRevision
  kind := .script
  title := body.title
  content := (((((Dict.single "engine" (Json.str "apex-load")).set
    "format" (.str "apex_native_json")).set
    "source" (.str exported.source)).set
    "parameters" (.str body.parameters)).set
    "coverage" (.str body.coverage)).set
    "validation" (.str ("Provider export captured; executable content and "
      ++ "provider validation remain unverified."))
  dependencies := [body.planVersionId]
  changeSummary := "Imported provider export " ++ exported.name ++ " (" ++ exported.id
    ++ ") as a new draft."

/-- The answer about an export that cannot become a version. -/
def importRefused : String :=
  "Export cannot become a bounded, credential-free draft with the selected dependencies"

/-- The version an imported script is stored as. -/
def importedVersion (request : VersionCreate)
    (actor id createdAt : String) : Except CycleError Version := do
  raiseIf (!request.accepted env) (.http 422 importRefused)
  refusal 422 (fun _ => importRefused) (addVersion env versions request actor false id createdAt)

def importRecord (body : ImportProviderScript)
    (exported : ProviderScriptExport) : ProviderScriptImport where
  cycleId := cycleId
  versionId := versionId
  requestKey := body.idempotencyKey
  requestFingerprint := versionDigest env (importContent body)
  connectionId := body.connectionId
  connectionVersion := body.connectionVersion
  remoteScriptId := exported.id
  remoteName := exported.name
  remoteProjectId := exported.projectId
  remoteVersion := exported.version
  sourceChecksum := exported.sourceChecksum
  importedBy := identity.consumerId

/-- `import_script`, once the export is read. -/
def importRead (body : ImportProviderScript) (exported : ProviderScriptExport) :
    CycleHandler ProviderScriptImport := do
  raiseWhen (exported.sourceChecksum != body.expectedSourceChecksum)
    (.http 409 "Provider source changed; inspect a fresh preview before importing")
  let cycle ← findCycle identity cycleId
  raiseWhen (cycle.revision != body.expectedRevision || decide (200 ≤ cycle.versions.length))
    (.http 409 "Cycle changed or reached its version limit; refresh before importing")
  let id ← askCycles .uuid4
  let createdAt ← askCycles .now
  let version ← settle (importedVersion env cycle.versions (importRequest body exported)
    identity.consumerId id createdAt.text)
  raiseWhen (decide (2000000 < versionsBytes env (cycle.versions ++ [version])))
    (.http 413 "Cycle content limit reached")
  let answer ← askCycles (.saveImport body.expectedRevision (cycle.versions ++ [version])
    (importRecord env identity cycle.id version.id body exported))
  settle (writeOutcome "Cycle changed; refresh before importing" answer)

/-- `import_script`, where the key of the request was not used. -/
def importNew (body : ImportProviderScript) : CycleHandler ProviderScriptImport := do
  raiseWhen (cycle.mode != .live) (.http 422 "Simulation cycles do not import from live providers")
  raiseWhen (cycle.revision != body.expectedRevision)
    (.http 409 "Cycle changed; refresh before importing")
  let connections ← askCycles (.scriptConnections cycle.projectId)
  raiseWhen (!connections.any fun c => c.id == body.connectionId
      && c.runtimeVersion.instant == body.connectionVersion.instant)
    (.http 409 "Connection changed; refresh the provider preview")
  raiseWhen (!approvedPlan env cycle.versions body.planVersionId)
    (.http 422 "Select a current approved test plan")
  let answer ← askCycles (.readExport cycle.projectId body.connectionId body.connectionVersion
    body.remoteScriptId)
  let exported ← settle (someOr (.http 503 ("Provider export could not be read safely. Check "
    ++ "connection access, project, source size and redacted data; then refresh.")) answer)
  importRead env identity cycle.id body exported

def importScript (body : ImportProviderScript) : CycleHandler ProviderScriptImport := do
  requireOperator identity
  raiseWhen (!body.accepted env) (.http 422 "Invalid request value")
  let cycle ← findCycle identity cycleId
  let existing ← askCycles (.importOf cycle.id body.idempotencyKey)
  match existing with
  | some record => settle (if record.requestFingerprint = versionDigest env (importContent body)
      then .ok record else .error (.http 409 "Idempotency key belongs to a different import"))
  | none => importNew env identity cycle body

structure NextCycleRequest where
  expectedRevision : Nat
  idempotencyKey : String
  name : String
  versionIds : List String
  carryUnresolvedActions : Bool

/-- What the digest of a next cycle is made of. -/
def nextContent (body : NextCycleRequest) : Dict Json :=
  ((Dict.single "name" (Json.str body.name)).set "version_ids"
    (.list (body.versionIds.map .str))).set
    "carry_unresolved_actions" (.bool body.carryUnresolvedActions)

def NextCycleRequest.accepted (body : NextCycleRequest) : Bool :=
  decide (1 ≤ body.expectedRevision) && isRecordId body.idempotencyKey
    && boundedText 1 255 body.name && decide (body.versionIds.length ≤ 50)
    && body.versionIds.all isRecordId && !env.credentials (.ofDict (nextContent body))
    && decide body.versionIds.Nodup

/-- A new id for each of some selected versions. -/
def drawIds : List String → CycleHandler (List (String × String))
  | [] => pure []
  | selected :: rest => do
      let id ← askCycles .uuid4
      let mapping ← drawIds rest
      pure ((selected, id) :: mapping)

def childCycle (parent : TestCycle) (body : NextCycleRequest) (id : String)
    (versions : List Version) : TestCycle where
  id := id
  name := body.name
  projectId := parent.projectId
  appId := parent.appId
  environmentId := parent.environmentId
  mode := parent.mode
  owner := identity.consumerId
  revision := 1
  independentReview := parent.independentReview || env.independentReview
  versions := versions
  originCycleId := some parent.id
  originRequestKey := some body.idempotencyKey
  originFingerprint := some (versionDigest env (nextContent body))

/-- `next_cycle`, where the key of the request was not used. -/
def nextNew (parent : TestCycle) (body : NextCycleRequest) : CycleHandler TestCycle := do
  let target ← askCycles (.targetActive parent.projectId parent.appId parent.environmentId)
  raiseWhen (!target) (.http 422
    "Original target unavailable; create a cycle with an active application/environment")
  let mapping ← drawIds body.versionIds
  let time ← askCycles .now
  let versions ← settle (refusal 409 (fun message => message)
    (reuseDrafts env parent.versions mapping identity.consumerId time.text parent.id))
  raiseWhen (decide (2000000 < versionsBytes env versions))
    (.http 413 "Carried content exceeds cycle limits")
  let id ← askCycles .uuid4
  let answer ← askCycles (.saveChild parent.id body.expectedRevision
    (childCycle env identity parent body id versions))
  settle (writeOutcome "Cycle changed; refresh before continuing" answer)

def nextCycle (body : NextCycleRequest) : CycleHandler TestCycle := do
  requireOperator identity
  raiseWhen (!body.accepted env) (.http 422 "Invalid request value")
  let parent ← findCycle identity cycleId
  let existing ← askCycles (.childOf parent.id body.idempotencyKey)
  match existing with
  | some childId => do
      let child ← findCycle identity childId
      settle (if child.originFingerprint = some (versionDigest env (nextContent body)) then .ok child
        else .error (.http 409 "Operation key already used for different next-cycle inputs"))
  | none => nextNew env identity parent body

inductive CycleJob where
  | createCycle (body : CycleCreate)
  | createVersion (cycleId : String) (body : VersionCreate)
  | act (cycleId : String) (body : CycleAction)
  | freezeEvidence (cycleId versionId : String) (body : FreezeReportEvidence)
  | captureSource (cycleId versionId : String) (body : CaptureSource)
  | importScript (cycleId : String) (body : ImportProviderScript)
  | nextCycle (cycleId : String) (body : NextCycleRequest)

inductive CycleReply where
  | cycle (row : TestCycle)
  | imported (record : ProviderScriptImport)

def handleCycles : CycleJob → CycleHandler CycleReply
  | .createCycle body => .cycle <$> createCycle env identity body
  | .createVersion cycleId body => .cycle <$> createVersion env identity cycleId body
  | .act cycleId body => .cycle <$> act env identity cycleId body
  | .freezeEvidence cycleId versionId body =>
    .cycle <$> freezeEvidence env identity cycleId versionId body
  | .captureSource cycleId versionId body =>
    .cycle <$> captureSource env identity cycleId versionId body
  | .importScript cycleId body => .imported <$> importScript env identity cycleId body
  | .nextCycle cycleId body => .cycle <$> nextCycle env identity cycleId body

end Apex.Routers
