import Apex.Core.Action
import Apex.Core.Comparison
import Apex.Graphs.Pipeline.Configurable
import Apex.Graphs.Pipeline.State
import Apex.Services.NativeAnalysis
import Mathlib.Data.List.Sort

/-!
# The Analysis Phase

Submission, polling, collection and recovery of the analyses of a report. The ledger of
a reporting attempt holds one row for each selected tool, and each step works on the
first row that has not succeeded. A step returns the ledger as it leaves it, whatever is
raised on the way; only the checkpoint of what it returns makes that last.

What is raised carries the row as it was then and whether a native submission had been
started, which decides what becomes of the row.

## Main definitions

* `LedgerRow`, `AnalysisState`: The ledger, and what the nodes read of a checkpoint.
* `prepareAnalysis`: The first ledger of an attempt.
* `analysisStep`: One step of the first row that has not succeeded.
* `routeAnalysis`: Where a step leads to.
* `analysisRecovery`: What an operator makes of a row that failed.
-/

namespace Apex.Graphs

open Domain Services

open Apex.Action hiding ask

def AnalysisTool.value : AnalysisTool → String
  | lraEngine => "lra_engine"
  | internalRca => "internal_rca"
  | perfreportforge => "perfreportforge"
  | other => "other"

def AnalysisTool.rank : AnalysisTool → Nat
  | lraEngine => 0
  | internalRca => 0
  | perfreportforge => 1
  | other => 2

inductive LedgerStatus where
  | pending
  | queued
  | running
  | collecting
  | succeeded
  | failed
  deriving DecidableEq, Repr

/-- A row of the ledger. A time is the microseconds since the epoch. -/
structure LedgerRow where
  tool : AnalysisTool
  connectionId : String
  inputDigest : String
  attempt : Nat := 1
  idempotencyKey : String
  status : LedgerStatus := .pending
  jobId : Option String := none
  startedAt : Option Int := none
  pollCount : Nat := 0
  error : Option String := none
  providerTerminalFailure : Bool := false
  submissionUncertain : Bool := false
  requestJson : Option String := none
  resultPreview : Option String := none
  resultArtifactId : Option String := none
  resultContentSha256 : Option String := none
  resultSummary : Option String := none
  completedAt : Option Int := none
  deriving DecidableEq

/-- What the nodes read of a checkpoint of a thread: the attempt, the ledger and the other
    fields of the reporting entry, the execution entry, and the handle of the run. -/
structure AnalysisState where
  threadId : String
  attempt : Nat
  ledger : Option (List LedgerRow)
  reporting : Dict Json
  execution : Dict Json
  engineHandle : Json
  runAborted : Bool
  deriving DecidableEq

/-- The configuration of a run, as the nodes of the reporting phase read it. -/
structure ReportingConfig extends PipelineConfigurable where
  testScopeSnapshot : Json := .null
  participants : List String := []
  timeoutS : Nat := 1800

structure AnalysisResult where
  summary : String
  tool : String
  toolVersion : String
  inputDigest : String
  findings : List (Dict Json)
  warnings : List String
  gaps : List String

structure AnalysisCapabilities where
  engines : List String
  evidenceKinds : List String
  available : Bool

/-- What the artifact store says of a stored artifact. -/
structure StoredArtifact where
  key : String
  uri : Option String

structure ArtifactRef where
  id : String
  kind : String
  name : String
  key : String
  uri : Option String
  artifactConnectionId : String
  mediaType : String
  summary : String

inductive AnalysisNode where
  | analysisStep
  | reportAgent
  | openHumanTask
  | finalize
  deriving DecidableEq, Repr

/-- What a node returns: the state it leaves, the artifacts it adds, and where it goes to. -/
structure NodeUpdate where
  state : AnalysisState
  artifacts : List ArtifactRef := []
  goto : Option AnalysisNode := none

/-- What the nodes take from outside: the serializer of the language, the checks of a result
    and of what an operator answers, and how a time is written. -/
structure AnalysisEnv extends NativeAnalysisEnv where
  loads : String → Option Json
  dumpsSorted : Json → String
  dumps : Json → String
  dumpResult : AnalysisResult → String
  resultOk : AnalysisResult → Bool
  gatePayloadError : Json → Option String
  contextEditOk : Json → Bool
  diagnosticText : Json → String
  isoformat : Int → String

inductive PortKind where
  | executionEngine
  | analysis
  | artifactStore
  deriving DecidableEq, Repr

/-- What the nodes ask for. A native submission is two requests: it is called, and returns. -/
inductive AnalysisRequest where
  | now
  | sleep (seconds : Nat)
  /-- `resolve_with_connection_id`. -/
  | resolve (kind : PortKind) (connectionId projectId provider : Option String)
  /-- The transaction of `claim_native_analysis`. -/
  | claim (scope : NativeAnalysisScope)
  /-- `submit_native_analysis` is called with the run and the key of a scope. -/
  | post (scope : NativeAnalysisScope)
  /-- The call returns or raises. -/
  | reply (scope : NativeAnalysisScope)
  /-- The transaction of `record_native_analysis_receipt`. -/
  | record (scope : NativeAnalysisScope) (jobId : String)
  | getNative (runId jobId : String)
  | capabilities
  | submit (request : Dict Json)
  | status (jobId : String)
  | result (jobId : String)
  /-- `persist_artifact_with_intent`. -/
  | persist (connectionId artifactKey threadId : String) (projectId appId : Option String)
      (payload : String)
  /-- What `interrupt` returns in a node, one value after another. -/
  | resumes (state : AnalysisState)
  /-- What a node returned is checkpointed. -/
  | save (update : NodeUpdate)

@[reducible] def AnalysisRequest.Answer : AnalysisRequest → Type
  | .now => Int
  | .sleep _ => Unit
  | .resolve .. => Except AnalysisExc String
  | .claim _ => ClaimAnswer
  | .post _ => Unit
  | .reply _ => Except AnalysisExc (Dict Json)
  | .record .. => ReceiptAnswer
  | .getNative .. => Except AnalysisExc (Dict Json)
  | .capabilities => Except AnalysisExc AnalysisCapabilities
  | .submit _ => Except AnalysisExc AnalysisJob
  | .status _ => Except AnalysisExc AnalysisJob
  | .result _ => Except AnalysisExc AnalysisResult
  | .persist .. => Except AnalysisExc StoredArtifact
  | .resumes _ => List Json
  | .save _ => Unit

/-- What is raised in a step, with the row and whether a native submission had started. -/
structure Failure where
  exc : AnalysisExc
  row : LedgerRow
  submitStarted : Bool

abbrev AnalysisAction (ε α : Type) := Action AnalysisRequest AnalysisRequest.Answer ε α

def askAnalysis {ε : Type} (r : AnalysisRequest) : AnalysisAction ε r.Answer := Action.ask r

variable (env : AnalysisEnv) (cfg : ReportingConfig) (state : AnalysisState) (row : LedgerRow)
  (request : Dict Json)

/-- An outcome, or what it raises with the row as it is. -/
def raisingWith {α : Type} (submitStarted : Bool) (x : Except AnalysisExc α) :
    Except Failure α :=
  x.mapError fun e => ⟨e, row, submitStarted⟩

def orElseJson (a b : Json) : Json := if truthy a then a else b

/-- `_execution_evidence`: inputs that are frozen in the run and in the accepted handoff of the
    execution. An imported execution does not clear the handle of a managed one. -/
def executionEvidence (cfg : ReportingConfig) :
    Except AnalysisExc (Dict Json) := do
  let external := state.execution.value "external" == .bool true
  let handle ← someOr (.other "handle is not a mapping") (Json.dict?
    (if external then .ofDict ∅
      else orElseJson (orElseJson (state.execution.value "engine_handle") state.engineHandle)
        (.ofDict ∅)))
  let verified := state.execution.value "native_source_verified" == .bool true
  let native (key : String) := if verified then state.execution.value key else .null
  pure (((((((Dict.single "test_scope" cfg.testScopeSnapshot).set
    "attribution" (.str "run-level")).set
    "test_summary" (state.execution.value "test_summary")).set
    "source_uri" (state.execution.value "source_uri")).set
    "artifact_ids" ((state.execution.get? "artifact_ids").getD (.list []))).set
    "native_run_id" (orElseJson (handle.value "external_run_id") (native "native_run_id"))).set
    "native_connection_id" (orElseJson (handle.value "connection_id")
      (native "native_connection_id")))

def evidenceDigest (evidence : Dict Json) : String :=
  env.sha256 (env.dumpsSorted (.ofDict evidence))

/-- `_submission_request`: a request that is checkpointed stays readable; others refer to the
    evidence, whose digest is verified before every call. -/
def submissionRequest : Except AnalysisExc (Dict Json) :=
  match row.requestJson.filter (· != "") with
  | some text => someOr (.other "Invalid request") ((env.loads text).bind Json.dict?)
  | none => do
      let evidence ← executionEvidence state cfg
      raiseIf (evidenceDigest env evidence != row.inputDigest)
        (.other "Analysis input evidence changed after preparation")
      pure (((((((((Dict.single "schema_version" (Json.int 1)).set
        "run_id" (.str state.threadId)).set
        "phase" (.str "reporting")).set
        "attempt" (.int state.attempt)).set
        "project_id" (textJson cfg.projectId)).set
        "engine" (.str cfg.engine)).set
        "evidence" (.ofDict evidence)).set
        "input_digest" (.str row.inputDigest)).set
        "idempotency_key" (.str row.idempotencyKey))

def orderedSelections : List AnalysisSelection :=
  (cfg.analysis.getD []).insertionSort fun a b => a.tool.rank ≤ b.tool.rank

/-- The first key of a connection in an attempt. -/
def firstKey (connectionId digest : String) : String :=
  env.sha256 (state.threadId ++ ":reporting:" ++ toString state.attempt ++ ":" ++ connectionId
    ++ ":" ++ digest ++ ":1")

def firstRow (digest : String) (selection : AnalysisSelection) : LedgerRow where
  tool := selection.tool
  connectionId := selection.connectionId
  inputDigest := digest
  idempotencyKey := firstKey env state selection.connectionId digest

def prepareAnalysis :
    Except AnalysisExc AnalysisState :=
  if state.ledger.isSome || (cfg.analysis.getD []).isEmpty then .ok state
  else do
    let evidence ← executionEvidence state cfg
    pure { state with ledger := some ((orderedSelections cfg).map
      (firstRow env state (evidenceDigest env evidence))) }

/-- The job a reply of the native service tells of. -/
def nativeJob (raw : Dict Json) : Except AnalysisExc AnalysisJob :=
  AnalysisJob.modelValidate env.toNativeAnalysisEnv (raw.value "analysis_id")
    (if raw.value "state" == .str "completed" then .str "succeeded" else raw.value "state")
    (raw.value "error")

def requireText (v : Json) : Except AnalysisExc String :=
  match v with
  | .str s => .ok s
  | _ => .error (.other "a text is required")

/-- The checks of a native analysis: its run and its connection are those of the execution. -/
def nativeRunId (row : LedgerRow) : Except AnalysisExc String := do
  let evidence ← someOr (.other "evidence is missing") ((request.value "evidence").dict?)
  raiseIf (!truthy (evidence.value "native_run_id"))
    (.other "Internal RCA requires the native APEX Load run identity")
  raiseIf (evidence.value "native_connection_id" != .str row.connectionId)
    (.other "Internal RCA requires verified execution connection provenance")
  let current ← executionEvidence state cfg
  raiseIf (["native_run_id", "native_connection_id"].any fun field =>
      current.value field != evidence.value field)
    (.other "Internal RCA execution provenance changed after preparation")
  let external := state.execution.value "external" == .bool true
  let handle ← someOr (.other "handle is not a mapping") (Json.dict?
    (if external then .ofDict ∅ else orElseJson state.engineHandle (.ofDict ∅)))
  raiseIf (truthy (handle.value "connection_id")
      && handle.value "connection_id" != .str row.connectionId)
    (.other "Internal RCA must use the execution run's connection")
  requireText (evidence.value "native_run_id")

def nativeScope (row : LedgerRow) (runId : String) :
    Except AnalysisExc NativeAnalysisScope := do
  let threadId ← requireText (request.value "run_id")
  let scope : NativeAnalysisScope := {
    threadId := threadId
    phaseAttempt := state.attempt
    projectId := cfg.trafficProjectId
    connectionId := row.connectionId
    nativeRunId := runId
    inputDigest := row.inputDigest
    idempotencyKey := row.idempotencyKey }
  raiseIf (!scope.accepted env.toNativeAnalysisEnv) (.other "Invalid native analysis scope")
  pure scope

def LedgerRow.queuedAs (jobId : String) : LedgerRow :=
  { row with jobId := some jobId, status := .queued }

/-- The submission of a key that this worker has claimed. Should what it returns not be
    recorded, the validated identity is retained if the graph can checkpoint. -/
def postNative (scope : NativeAnalysisScope) (row : LedgerRow) :
    AnalysisAction Failure (LedgerRow × List ArtifactRef) := do
  askAnalysis (.post scope)
  let reply ← askAnalysis (.reply scope)
  let job ← settle (raisingWith row true (reply >>= nativeJob env))
  let validated ← settle (raisingWith (row.queuedAs job.jobId) true
    (validJob env.toNativeAnalysisEnv job.jobId))
  let answer ← askAnalysis (.record scope validated.jobId)
  settle ((fun _ => (row.queuedAs job.jobId, [])) <$>
    raisingWith (row.queuedAs job.jobId) true (receiptOutcome answer))

/-- A native analysis without a job: its key is claimed, and submitted by the worker whose
    claim it is. -/
def submitNative (scope : NativeAnalysisScope) (row : LedgerRow) :
    AnalysisAction Failure (LedgerRow × List ArtifactRef) := do
  let answer ← askAnalysis (.claim scope)
  let received ← settle (raisingWith row false (claimOutcome env.toNativeAnalysisEnv scope answer))
  match received with
  | some jobId => pure (row.queuedAs jobId, [])
  | none => postNative env scope row

def nativeResult (raw : Dict Json) :
    Except AnalysisExc AnalysisResult := do
  raiseIf (!truthy (raw.value "assessment") || truthy (raw.value "archive_changed"))
    (.other "RCA returned no current assessment")
  let assessment ← someOr (.other "Invalid analysis result") (raw.value "assessment").dict?
  let result : AnalysisResult := {
    summary := "APEX Load RCA assessment"
    tool := "internal_rca"
    toolVersion := "native-v2"
    inputDigest := row.inputDigest
    findings := [assessment]
    warnings := []
    gaps := [] }
  raiseIf (!env.resultOk result) (.other "Invalid analysis result")
  pure result

def checkResult (result : AnalysisResult) :
    Except AnalysisExc Unit := do
  raiseIf (result.tool != row.tool.value) (.other "Analysis results belong to a different tool")
  raiseIf (result.inputDigest != row.inputDigest)
    (.other "Analysis results belong to different input evidence")
  raiseIf (result.findings.any fun finding =>
      finding.value "participant_id" != .null
        && !cfg.participants.any fun id => finding.value "participant_id" == .str id)
    (.other "Analysis finding references a system outside this test")

def textPrefix (limit : Nat) (s : String) : String := String.ofList (s.toList.take limit)

def previewOf (result : AnalysisResult) : String :=
  textPrefix 2000 (env.dumps (.ofDict (((Dict.single "findings"
    (Json.list (result.findings.map Json.ofDict))).set
    "warnings" (.list (result.warnings.map .str))).set "gaps" (.list (result.gaps.map .str)))))

def LedgerRow.succeededWith (env : AnalysisEnv) (result : AnalysisResult)
    (completedAt : Int) : LedgerRow :=
  { row with
    status := .succeeded
    resultPreview := some (previewOf env result)
    resultArtifactId := some ("analysis-" ++ row.idempotencyKey)
    resultContentSha256 := some (env.sha256 (env.dumpResult result))
    resultSummary := some (textPrefix 2000 result.summary)
    completedAt := some completedAt
    error := none }

def collectResult (row : LedgerRow) (result : AnalysisResult) :
    AnalysisAction Failure (LedgerRow × List ArtifactRef) := do
  settle (raisingWith row false (checkResult cfg row result))
  let resolved ← askAnalysis (.resolve .artifactStore (cfg.connections.get? "artifact_store")
    cfg.projectId none)
  let storeId ← settle (raisingWith row false resolved)
  let runId ← settle (raisingWith row false (requireText (request.value "run_id")))
  let persisted ← askAnalysis (.persist storeId
    ("analysis/" ++ runId ++ "/" ++ row.idempotencyKey ++ ".json") runId cfg.projectId cfg.appId
    (env.dumpResult result))
  let stored ← settle (raisingWith row false persisted)
  let completedAt ← askAnalysis .now
  pure (row.succeededWith env result completedAt, [{
    id := "analysis-" ++ row.idempotencyKey
    kind := "analysis"
    name := row.tool.value ++ " analysis"
    key := stored.key
    uri := stored.uri
    artifactConnectionId := storeId
    mediaType := "application/json"
    summary := textPrefix 2000 result.summary }])

/-- The result of a job that succeeded: a native one came with its reply. -/
def askResult (raw : Option (Dict Json)) (jobId : String) :
    AnalysisAction Failure AnalysisResult :=
  match raw with
  | some raw => settle (raisingWith row false (nativeResult env row raw))
  | none => do
      let answer ← askAnalysis (.result jobId)
      settle (raisingWith row false answer)

def afterJob (row : LedgerRow) (raw : Option (Dict Json)) (job : AnalysisJob) :
    AnalysisAction Failure (LedgerRow × List ArtifactRef) := do
  raiseWhen (some job.jobId != row.jobId)
    ⟨.other "Analysis provider returned a different job identity", row, false⟩
  raiseWhen (job.status == .failed || job.status == .cancelled)
    ⟨.other ((job.error.filter (· != "")).getD ("Analysis " ++ job.status.value)),
      { row with providerTerminalFailure := true }, false⟩
  if job.status = .succeeded then do
    let result ← askResult env { row with status := .collecting } raw job.jobId
    collectResult env cfg request { row with status := .collecting } result
  else do
    askAnalysis (.sleep (min (5 * 2 ^ min row.pollCount 3) 30))
    pure ({ row with
      status := if job.status = .running then .running else .queued
      pollCount := row.pollCount + 1 }, [])

def nativeStep (row : LedgerRow) :
    AnalysisAction Failure (LedgerRow × List ArtifactRef) := do
  let runId ← settle (raisingWith row false (nativeRunId cfg state request row))
  match row.jobId with
  | some jobId => do
      let reply ← askAnalysis (.getNative runId jobId)
      let raw ← settle (raisingWith row false reply)
      let job ← settle (raisingWith row false (nativeJob env raw))
      afterJob env cfg request row (some raw) job
  | none => do
      let scope ← settle (raisingWith row false (nativeScope env cfg state request row runId))
      submitNative env scope row

def checkCapabilities (cap : AnalysisCapabilities) :
    Except AnalysisExc Unit := do
  raiseIf (!cap.available || !cap.engines.contains cfg.engine)
    (.other "Analysis connector does not support this engine")
  raiseIf (!cap.evidenceKinds.contains "test_summary")
    (.other "Analysis connector does not accept test summary evidence")

def connectorStep (row : LedgerRow) : AnalysisAction Failure (LedgerRow × List ArtifactRef) :=
  match row.jobId with
  | some jobId => do
      let answer ← askAnalysis (.status jobId)
      let job ← settle (raisingWith row false answer)
      afterJob env cfg request row none job
  | none => do
      let cap ← askAnalysis .capabilities
      settle (raisingWith row false (cap >>= checkCapabilities cfg))
      let answer ← askAnalysis (.submit request)
      settle ((fun job => (row.queuedAs job.jobId, [])) <$> raisingWith row false answer)

def startedStep (row : LedgerRow) (startedAt : Int) :
    AnalysisAction Failure (LedgerRow × List ArtifactRef) := do
  let time ← askAnalysis .now
  raiseWhen (decide ((cfg.timeoutS : Int) * 1000000 < time - startedAt))
    ⟨.other "Analysis deadline expired", row, false⟩
  let native := row.tool == .internalRca
  let resolved ← askAnalysis (.resolve (if native then .executionEngine else .analysis)
    (some row.connectionId) (if native then cfg.trafficProjectId else cfg.projectId)
    (some (if native then "apex_load" else row.tool.value)))
  let _ ← settle (raisingWith row false resolved)
  if native then nativeStep env cfg state request row else connectorStep env cfg request row

def stepRow : AnalysisAction Failure (LedgerRow × List ArtifactRef) := do
  let request ← settle (raisingWith row false (submissionRequest env cfg state row))
  match row.startedAt with
  | none => do
      let time ← askAnalysis .now
      pure ({ row with startedAt := some time }, [])
  | some startedAt => startedStep env cfg state request row startedAt

/-- Whether an exception leaves it open that a native submission took place: deduplication by
    the service excludes jobs that failed, so another must not be created silently. -/
def Failure.uncertain (f : Failure) : Bool :=
  match f.exc with
  | .uncertain _ => true
  | _ => f.submitStarted && f.row.jobId.isNone

def Failure.rowAfter (f : Failure) : LedgerRow :=
  let text := boundedDiagnostic env.rules f.exc.text 4096
  if f.uncertain then
    { f.row with
      submissionUncertain := true
      status := .failed
      error := some (textPrefix 4096 ("Native RCA submission outcome is unconfirmed. A remote job "
        ++ "may exist; retry explicitly starts a new attempt and may create another job. "
        ++ text)) }
  else if f.exc.transient then { f.row with error := some text, pollCount := f.row.pollCount + 1 }
  else { f.row with error := some text, status := .failed }

def afterFailure (f : Failure) :
    AnalysisAction AnalysisExc (LedgerRow × List ArtifactRef) :=
  if !f.uncertain && f.exc.transient then do
    askAnalysis (.sleep (min (5 * 2 ^ min (f.row.pollCount + 1) 3) 30))
    pure (f.rowAfter env, [])
  else pure (f.rowAfter env, [])

def nextRow? (ledger : List LedgerRow) : Option (Nat × LedgerRow) :=
  (ledger.zipIdx.find? fun entry => entry.1.status != .succeeded).map Prod.swap

def analysisStep :
    AnalysisAction AnalysisExc NodeUpdate := do
  let ledger ← settle (someOr (.other "analysis_ledger") state.ledger)
  let next ← settle (someOr (.other "coroutine raised StopIteration") (nextRow? ledger))
  raiseWhen cfg.analysis.isNone (.other "AssertionError")
  let outcome ← (stepRow env cfg state next.2).handling (afterFailure env)
  pure ⟨{ state with ledger := some (ledger.set next.1 outcome.1) }, outcome.2, none⟩

inductive AnalysisRoute where
  | finalize
  | analysisRecovery
  | reportAgent
  | analysisStep
  deriving DecidableEq, Repr

def routeAnalysis : AnalysisRoute :=
  let rows := state.ledger.getD []
  if state.runAborted then .finalize
  else if rows.any fun row => row.status == .failed then .analysisRecovery
  else if rows.all fun row => row.status == .succeeded then .reportAgent
  else .analysisStep

/-- What an operator decided: an action, or why there is none. -/
structure GateDecision where
  action : Option String := none
  note : Option String := none
  error : String := ""

def decisionText (decision : Dict Json) (field : String) : Bool :=
  match decision.value field with
  | .null => true
  | .str _ => true
  | _ => false

def checkEdit (edit : Json) : Except String Unit :=
  if edit = .null then .ok ()
  else match edit.dict? with
    | none => .error "gate decision prompt is invalid"
    | some fields => do
        raiseIf (fields.keys.any fun key =>
            !(["system", "user", "application", "context_edits"].contains key))
          "gate decision prompt is invalid"
        raiseIf (fields.has "context_edits" && !(match fields.value "context_edits" with
            | .list entries => decide (entries.length ≤ 64) && entries.all env.contextEditOk
            | _ => false))
          "Invalid context prompt edits"
        raiseIf (fields.keys.any fun key => key != "context_edits" && !decisionText fields key)
          "gate decision prompt values must be strings"

def checkDecision (decision : Dict Json) : Except String Unit := do
  raiseIf (decision.keys.any fun key =>
      !(["action", "prompt", "instructions", "message", "note"].contains key))
    "gate decision contains unsupported fields"
  raiseIf (!decisionText decision "instructions") "gate decision instructions must be a string"
  raiseIf (!decisionText decision "message") "gate decision message must be a string"
  raiseIf (!decisionText decision "note") "gate decision note must be a string"
  checkEdit env (decision.value "prompt")

def textOf? : Json → Option String
  | .str s => some s
  | _ => none

def decisionOf (allowed : List String) (decision : Dict Json) : GateDecision :=
  match checkDecision env decision with
  | .error error => { error := error }
  | .ok () =>
    match (textOf? (decision.value "action")).filter fun action => allowed.contains action with
    | none => { note := textOf? (decision.value "note"), error := "unknown action; expected one of "
        ++ "[" ++ ", ".intercalate ((allowed.mergeSort).map fun a => "'" ++ a ++ "'") ++ "]" }
    | some action => { action := some action, note := textOf? (decision.value "note") }

def parseGateDecision (decision : Json) (allowed : List String) :
    GateDecision :=
  match env.gatePayloadError decision with
  | some error => { error := error }
  | none =>
    if containsCredentialMaterial env.rules plainScanLimits decision then
      { error := "gate decision must not contain credential material" }
    else match decision with
      | .str action => decisionOf env allowed (Dict.single "action" (.str action))
      | value => match value.dict? with
        | none => { error := "expected a mapping with an 'action' key" }
        | some fields => decisionOf env allowed fields

def recoveryActions : List String := ["retry", "assign_hitl", "abort"]

def failedRow? (ledger : List LedgerRow) : Option (Nat × LedgerRow) :=
  (ledger.zipIdx.find? fun entry => entry.1.status == .failed).map Prod.swap

def recoveryPayload (row : Option LedgerRow) (error : String) : Dict Json :=
  (((((Dict.single "schema_version" (Json.int 1)).set "kind" (.str "analysis_recovery")).set
    "phase" (.str "reporting")).set
    "actions" (.list (recoveryActions.map .str))).set
    "message" (.str (match row with
      | some row => row.tool.value ++ " analysis needs attention"
      | none => "Reporting & Analysis report assembly needs attention"))).set
    "error" (.str error)

def recoveryReason (row : Option LedgerRow) : String :=
  let reason := match row with
    | some row => textJson row.error
    | none => match state.reporting.value "errors" with
      | .list (x :: xs) => (x :: xs).getLast (List.cons_ne_nil x xs)
      | _ => state.reporting.value "reasoning_digest"
  boundedDiagnostic env.rules
    (env.diagnosticText (orElseJson reason (.str "Report assembly failed"))) 4096

inductive RecoveryDecision where
  | reportAgain (reviseCount : Int)
  | decided (action : String) (note : Option String)

/-- The revision that another report assembly has, unless there were too many. -/
def nextRevision? : Option Int :=
  match (state.reporting.get? "revise_count").getD (.int 0) with
  | .int n => if 0 ≤ n ∧ n < 10 then some (n + 1) else none
  | _ => none

/-- The loop of a recovery over what an operator answers, until that is a decision. -/
def recoveryDecision (row : Option LedgerRow) :
    String → List Json → Except AnalysisExc RecoveryDecision
  | error, [] => .error (.interrupted (recoveryPayload row error))
  | _, resume :: rest =>
    let decision := parseGateDecision env resume recoveryActions
    if row.isNone && decision.action == some "retry" then
      match nextRevision? state with
      | some revision => .ok (.reportAgain revision)
      | none => recoveryDecision row "Report retry limit reached; assign HITL or abort"
          rest
    else
      match decision.action with
      | some action => .ok (.decided action decision.note)
      | none => recoveryDecision row decision.error rest

/-- Whether a retry authorizes another submission: a remote job has failed for good, or an
    operator accepts a native submission that is not confirmed. -/
def LedgerRow.flagged : Bool := row.providerTerminalFailure || row.submissionUncertain

def LedgerRow.nextKey : String :=
  env.sha256 (row.idempotencyKey ++ ":" ++ toString (row.attempt + 1))

def rekeyedRequest (key : String) (text : String) :
    Except AnalysisExc String :=
  (fun request => env.dumps (.ofDict (request.set "idempotency_key" (.str key)))) <$>
    someOr (.other "Invalid request") ((env.loads text).bind Json.dict?)

/-- The checkpointed request of a new submission attempt. -/
def LedgerRow.requestAfter :
    Except AnalysisExc (Option String) :=
  match row.requestJson.filter (· != "") with
  | some text => some <$> rekeyedRequest env (row.nextKey env) text
  | none => .ok row.requestJson

def LedgerRow.renewed : Except AnalysisExc LedgerRow := do
  let requestJson ← row.requestAfter env
  pure { row with
    attempt := row.attempt + 1
    idempotencyKey := row.nextKey env
    requestJson := requestJson
    jobId := none
    providerTerminalFailure := false
    submissionUncertain := false }

/-- The row of a retry. A known job is resumed after failures to poll or to collect it. -/
def LedgerRow.retried : Except AnalysisExc LedgerRow :=
  (fun row => { row with status := .pending, startedAt := none, error := none }) <$>
    (if row.flagged then row.renewed env else .ok row)

def handedOver (actor reason : String) (note : Option String) (time : Int) : AnalysisState :=
  let text := strip (note.getD "")
  let override := (((Dict.single "owner" (Json.str "hitl")).set "actor" (.str actor)).set
    "at" (.str (env.isoformat time))).set "reason" (.str (if text = "" then reason else text))
  let reporting := ((state.reporting.set "executor" (.str "hitl")).set
    "report_failure" (.bool false)).set "ownership_override" (.ofDict override)
  { state with reporting := reporting }

/-- The state in which the report is assembled again. -/
def reportingAgain (revision : Int) : AnalysisState :=
  let reporting := ((state.reporting.set "status" (.str "running")).set
    "report_failure" (.bool false)).set "revise_count" (.int revision)
  { state with reporting := reporting }

def carryOut (actor : String) (state : AnalysisState) (row : Option (Nat × LedgerRow))
    (decision : RecoveryDecision) :
    AnalysisAction AnalysisExc NodeUpdate :=
  match decision with
  | .reportAgain revision => pure ⟨reportingAgain state revision, [], some .reportAgent⟩
  | .decided action note =>
    if action = "retry" then do
      let failed ← settle (someOr (.other "AssertionError") row)
      let retried ← settle (failed.2.retried env)
      pure ⟨{ state with ledger := state.ledger.map fun ledger => ledger.set failed.1 retried },
        [], some .analysisStep⟩
    else if action = "assign_hitl" then do
      let time ← askAnalysis .now
      pure ⟨handedOver env state actor (recoveryReason env state (row.map Prod.snd)) note time,
        [], some .openHumanTask⟩
    else if action = "abort" then
      let reporting := state.reporting.set "status" (.str "aborted")
      pure ⟨{ state with runAborted := true, reporting := reporting }, [], some .finalize⟩
    else throw (.other "Unsupported analysis recovery action")

def analysisRecovery (actor : String) (state : AnalysisState) :
    AnalysisAction AnalysisExc NodeUpdate := do
  let row := failedRow? (state.ledger.getD [])
  raiseWhen (row.isNone && (state.reporting.value "report_failure" != .bool true
      || state.reporting.value "status" != .str "running"
      || (state.ledger.getD []).any fun item => item.status != .succeeded))
    (.other "Reporting recovery requires failed report assembly or analysis")
  let resumes ← askAnalysis (.resumes state)
  let decision ← settle (recoveryDecision env state (row.map Prod.snd)
    (recoveryReason env state (row.map Prod.snd)) resumes)
  carryOut env actor state row decision

/-- A node runs, and what it returns is checkpointed. -/
def checkpointed (x : AnalysisAction AnalysisExc NodeUpdate) : AnalysisAction AnalysisExc Unit := do
  let update ← x
  askAnalysis (.save update)

end Apex.Graphs
