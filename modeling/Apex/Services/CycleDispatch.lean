import Apex.Domain.LoadTestSpec
import Apex.Graphs.Pipeline.Configurable
import Apex.Graphs.Pipeline.State
import Apex.Services.EngineRuns
import Apex.Services.PipelineLaunch

/-!
# Cycle Dispatches

A dispatch is the intent to launch one approved preparation of a cycle. Its row
names the environment it owns while it is not finished, and the thread of the
pipeline once that is bound. Readers bring the status of a row up to date from the
engine-run row of the thread, or from the thread itself.

The validation of a preparation against the present target, connections and
scripts is a request with any answer, and so are the engine-run row and the view
of the thread, which others write.

## Main definitions

* `DispatchStatus`, `CycleDispatch`: The rows.
* `syncDispatch`: Bringing a row up to date.
* `loadDispatchBinding`: The check before the first effect of an execution.
-/

namespace Apex.Services

open Domain Graphs

open Apex.Action hiding ask

inductive DispatchStatus where
  | reserved
  | uncertain
  | submitted
  | running
  | cleanupPending
  | completed
  | failed
  | aborted
  deriving DecidableEq, Repr

namespace DispatchStatus

def isTerminal : DispatchStatus → Bool
  | completed => true
  | failed => true
  | aborted => true
  | _ => false

/-- The statuses of an intent that is not acknowledged. -/
def isOpen : DispatchStatus → Bool
  | reserved => true
  | uncertain => true
  | _ => false

theorem not_terminal_of_open {status : DispatchStatus} (h : status.isOpen = true) :
    status.isTerminal = false := by
  cases status <;> first | rfl | exact absurd h Bool.false_ne_true

end DispatchStatus

/-- A row, without its times. -/
structure CycleDispatch where
  id : String
  cycleId : String
  preparationId : String
  requestKey : String
  activeEnvironmentId : Option String
  status : DispatchStatus
  pipelineConfig : Dict Json
  threadId : Option String
  runId : Option String
  createdBy : String
  canceledBy : Option String

structure PreflightCheck where
  key : String
  label : String
  status : String
  detail : String

structure ExecutionSnapshot where
  planTitle : String
  workload : Dict Json
  environmentId : String
  environmentVersion : Int
  connectionId : String
  scriptSourceChecksum : String

structure TestCycle where
  projectId : String
  appId : String
  environmentId : String
  revision : Nat

structure ApprovedTarget where
  baseUrl : String
  version : Int

structure ScriptArtifact where
  connectionId : String
  artifactKey : String

/-- What `dispatch_context` returns. -/
structure DispatchContext where
  cycle : TestCycle
  snapshot : ExecutionSnapshot
  artifact : Option ScriptArtifact
  target : Option ApprovedTarget
  checks : List PreflightCheck

def blocked (checks : List PreflightCheck) : Bool := checks.any (·.status == "blocked")

inductive DispatchError where
  | http (statusCode : Nat) (detail : String)
  | value (message : String)
  | other (typeName : String)
  | cancelled

/-- What the handlers ask: of the database, of the pipeline, and, for the start of the
    pipeline of a dispatch, whatever the launch asks. -/
inductive DispatchRequest where
  | find (cycleId consumerId : String)
  | dispatchContext (consumerId cycleId preparationId : String)
  | rowOfPreparation (cycleId preparationId : String)
  | rowOccupying (environmentId preparationId : String)
  | rowById (id : String)
  | bindingRow (id : String)
  | currentActor (consumerId : String)
  | engineRun (threadId : String)
  | getPipeline (threadId : String)
  | syncStatus (id : String) (before status : DispatchStatus)
  | refresh (id : String)
  | uuid4
  | reserveRevision (cycleId : String) (expected : Nat)
  | insert (row : CycleDispatch)
  | launch (id : String) (r : LaunchRequest)
  | deadline
  | markSubmitted (id threadId runId : String)
  | markUncertain (id : String)
  | cancel (id cycleId preparationId canceledBy : String)
  | readSource (artifact : ScriptArtifact) (checksum : String)

/-- The answer to an insertion: the row, a refusal by a unique constraint, or any other
    exception, after which the row may be there. -/
inductive DispatchInsertAnswer where
  | committed (row : CycleDispatch)
  | integrityError
  | raised (error : DispatchError)

/-- The answer to the update that follows a start: it was committed, its statement failed,
    or its commit failed, after which it may be there. -/
inductive SubmitAnswer where
  | committed
  | statementFailed
  | raised (error : DispatchError)

/-- The answers. The start of the pipeline is under a deadline, and `deadline` tells
    whether a cancellation came from there. -/
@[reducible] def DispatchRequest.Answer : DispatchRequest → Type
  | find _ _ => Except DispatchError Unit
  | dispatchContext _ _ _ => Except DispatchError DispatchContext
  | rowOfPreparation _ _ => Except DispatchError (Option CycleDispatch)
  | rowOccupying _ _ => Except DispatchError (Option CycleDispatch)
  | rowById _ => Except DispatchError (Option CycleDispatch)
  | bindingRow _ => Except DispatchError (Option CycleDispatch)
  | currentActor _ => Except DispatchError Unit
  | engineRun _ => Except DispatchError (Option EngineRun)
  | getPipeline _ => Except DispatchError (Dict Json)
  | syncStatus _ _ _ => Except DispatchError Unit
  | refresh _ => Except DispatchError CycleDispatch
  | uuid4 => String
  | reserveRevision _ _ => Except DispatchError Unit
  | insert _ => DispatchInsertAnswer
  | launch _ r => r.Answer
  | deadline => Bool
  | markSubmitted _ _ _ => SubmitAnswer
  | markUncertain _ => Except DispatchError Unit
  | cancel _ _ _ _ => Except DispatchError Bool
  | readSource _ _ => Except DispatchError String

abbrev DispatchAction (α : Type) := Action DispatchRequest DispatchRequest.Answer DispatchError α

abbrev askDispatch (r : DispatchRequest) : DispatchAction r.Answer := Action.ask r

/-- The status of a row whose engine-run row is finished, under the same name. -/
def DispatchStatus.ofEngine : EngineRunPhase → DispatchStatus
  | .completed => .completed
  | .failed => .failed
  | _ => .aborted

def blankText (text : Option String) : Bool := text.all (· == "")

def engineDispatchStatus (status : DispatchStatus) (engine : EngineRun) : DispatchStatus :=
  if engine.status.isTerminal && (engine.completionKind == some "collection_teardown_v1"
      || engine.completionKind == some "cleanup_teardown_v1") then
    .ofEngine engine.status
  else if (engine.status == .failed || engine.status == .aborted)
      && blankText engine.externalRunId && !truthy (engine.handle.value "external_run_id") then
    .ofEngine engine.status
  else if engine.status == .running then .running
  else if engine.status == .collecting || engine.status.isTerminal then .cleanupPending
  else if engine.status == .ready || engine.status == .provisioning then .submitted
  else status

/-- A dictionary in a dictionary, empty if there is none. -/
def dictAt (d : Dict Json) (key : String) : Option (Dict Json) :=
  match d.get? key with
  | none => some ∅
  | some v => v.dict?

/-- The entry of the execution in the view of a thread. -/
def executionEntry (view : Dict Json) : Option Json := do
  let values ← dictAt view "values"
  let results ← dictAt values "phase_results"
  some ((results.get? "execution").getD (.ofDict ∅))

/-- The status the view of a thread calls for. A view that cannot be read calls for none. -/
def viewDispatchStatus (view : Dict Json) : Option DispatchStatus := do
  let entry ← executionEntry view
  match view.value "thread_status" with
  | .str threadStatus =>
    if threadStatus == "error" || threadStatus == "idle" then do
      let entry ← entry.dict?
      match entry.value "status" with
      | .str "failed" => some .failed
      | .str "aborted" => some .aborted
      | .list _ => none
      | .dict _ => none
      | _ => if threadStatus == "error" then some .failed else none
    else none
  | _ => none

/-- The engine-run row of a thread that is bound. -/
def engineOf (row : CycleDispatch) : DispatchAction (Option EngineRun) :=
  match row.threadId with
  | none => pure none
  | some threadId => do settle (← askDispatch (.engineRun threadId))

/-- The status a row should have. Only what is read for certain changes it. -/
def syncedStatus (row : CycleDispatch) (engine : Option EngineRun) (pipeline : Bool) :
    DispatchAction DispatchStatus :=
  match engine with
  | some engine => pure (engineDispatchStatus row.status engine)
  | none =>
    match row.threadId with
    | none => pure row.status
    | some threadId =>
      if pipeline then do
        match ← askDispatch (.getPipeline threadId) with
        | .ok view => pure ((viewDispatchStatus view).getD row.status)
        | .error .cancelled => throw .cancelled
        | .error _ => pure row.status
      else pure row.status

/-- `sync_dispatch`, with the row as it is left in the session. -/
def syncDispatch (row : CycleDispatch) (pipeline : Bool) :
    DispatchAction (Option EngineRun × CycleDispatch) := do
  let engine ← engineOf row
  if row.status.isTerminal then pure (engine, row)
  else do
    let status ← syncedStatus row engine pipeline
    if status == row.status then pure (engine, row)
    else do
      settle (← askDispatch (.syncStatus row.id row.status status))
      let row ← settle (← askDispatch (.refresh row.id))
      pure (engine, row)

/-- `CycleDispatchRead`, without the times. -/
structure CycleDispatchRead where
  id : String
  preparationId : String
  requestKey : String
  status : DispatchStatus
  createdBy : String
  canceledBy : Option String
  threadId : Option String
  runId : Option String
  engineRunThread : Option String
  externalRunId : Option String
  detail : String

def statusDetail : DispatchStatus → String
  | .reserved =>
    "Launch intent saved. No pipeline acknowledgement has been recorded; resume this same intent."
  | .uncertain =>
    "Pipeline acknowledgement is uncertain. Resume this same intent to reconcile it; "
      ++ "do not create another launch."
  | .submitted =>
    "Pipeline accepted. Provider validation, provisioning and execution continue in the "
      ++ "linked run."
  | .running =>
    "The linked engine execution is active. Use the run's Abort action to request a "
      ++ "confirmed stop."
  | .cleanupPending =>
    "Execution is awaiting result collection or confirmed cleanup. This cycle still owns "
      ++ "the environment; inspect the linked run."
  | .completed =>
    "The engine confirmed completion and cleanup. Inspect the linked result for test "
      ++ "acceptance."
  | .failed =>
    "The linked execution failed. Inspect its recorded reason before preparing a new execution."
  | .aborted => "The linked execution was confirmed aborted."

/-- `dispatch_read`. The engine-run row is named by its thread. -/
def dispatchRead (row : CycleDispatch) (engine : Option EngineRun) : CycleDispatchRead where
  id := row.id
  preparationId := row.preparationId
  requestKey := row.requestKey
  status := row.status
  createdBy := row.createdBy
  canceledBy := row.canceledBy
  threadId := row.threadId
  runId := row.runId
  engineRunThread := engine.map (·.threadId)
  externalRunId := engine.bind (·.externalRunId)
  detail := if row.status == .aborted && row.threadId.isNone then
      "Launch canceled before submission. No execution was started by this operation."
    else statusDetail row.status

/-- `binding_spec`, before it is validated. -/
def bindingSpec (snapshot : ExecutionSnapshot) (target requestKey : String) : Dict Json :=
  let spec := (Dict.single "title" (Json.str snapshot.planTitle)).update snapshot.workload
  ((spec.set "script_refs" (.list [])).set "target_environment" (.str target)).set
    "idempotency_key" (.str requestKey)

def executionIdempotencyKey (threadId : String) (attempt : Int) : String :=
  threadId ++ "-execution-a" ++ toString attempt

/-- Whether a configuration is the one of the binding. -/
def bindingMatches (cfg : PipelineConfigurable) (ctx : DispatchContext) : Bool :=
  cfg.projectId == some ctx.cycle.projectId && cfg.appId == some ctx.cycle.appId
    && cfg.environmentId == some ctx.snapshot.environmentId && cfg.engine == "apex_load"
    && cfg.connections.get? "execution_engine" == some ctx.snapshot.connectionId
    && cfg.environmentTargetVersion == some ctx.snapshot.environmentVersion
    && ctx.target.any (fun target => cfg.environmentTarget == some target.baseUrl)
    && cfg.selectedPhases == [.execution] && cfg.loadTest.length == 0
    && ctx.artifact.any (fun artifact =>
      cfg.connections.get? "artifact_store" == some artifact.connectionId)

/-- What the environment of `load_dispatch_binding` contributes: the validator of a
    specification. -/
structure DispatchEnv where
  launch : LaunchEnv
  validateSpec : Dict Json → Except String LoadTestSpec

def noSecondAttempt : DispatchError :=
  .value ("A cycle dispatch permits exactly one execution attempt; prepare a new reviewed "
    ++ "binding to rerun")

/-- The row does not name the thread, or owns no environment any more. -/
def bindingNotOwned : DispatchError :=
  .value "Cycle dispatch does not own this pipeline or active environment"

def loadDispatchBinding (env : DispatchEnv) (cfg : PipelineConfigurable) (threadId : String)
    (attempt : Int) (readSource : Bool) : DispatchAction (LoadTestSpec × Option String) := do
  match cfg.cycleDispatchId with
  | none => throw noSecondAttempt
  | some id =>
    raiseWhen (id == "" || attempt != 1) noSecondAttempt
    match ← settle (← askDispatch (.bindingRow id)) with
    | none => throw bindingNotOwned
    | some row =>
      raiseWhen (row.threadId != some threadId || row.activeEnvironmentId.isNone) bindingNotOwned
      settle (← askDispatch (.currentActor row.createdBy))
      let ctx ← settle (← askDispatch (.dispatchContext row.createdBy row.cycleId
        row.preparationId))
      raiseWhen (blocked ctx.checks) (.value
        "Cycle dispatch prerequisites changed; review the preparation's current checks")
      raiseWhen (!bindingMatches cfg ctx)
        (.value "Pipeline configuration no longer matches its exact cycle binding")
      match ctx.target, ctx.artifact with
      | some target, some artifact => do
          let spec ← settle ((env.validateSpec (bindingSpec ctx.snapshot target.baseUrl
            (executionIdempotencyKey threadId attempt))).mapError .value)
          if readSource then do
            let source ← settle (← askDispatch (.readSource artifact
              ctx.snapshot.scriptSourceChecksum))
            pure (spec, some source)
          else pure (spec, none)
      | _, _ => throw (.value "Pipeline configuration no longer matches its exact cycle binding")
end Apex.Services
