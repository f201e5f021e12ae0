import Apex.Services.CycleDispatch

/-!
# The Handlers Of A Cycle Dispatch

An operator dispatches a preparation, resumes the same dispatch after an unclear
answer, or cancels it before it is bound to a pipeline; anybody who may read the
cycle reads its workspace. Every handler ends by reading the workspace, and that
brings the rows it reads up to date.

## Main definitions

* `workspace`: What a reader sees.
* `dispatch`, `cancelDispatch`, `readDispatch`: The handlers.
-/

namespace Apex.Routers

open Domain Graphs Services

open Apex.Action hiding ask

structure DispatchCaller where
  consumerId : String
  operator : Bool

structure Workspace where
  revision : Nat
  checks : List PreflightCheck
  canDispatch : Bool
  canResume : Bool
  canCancel : Bool
  attempt : Option CycleDispatchRead

def environmentBusy : PreflightCheck where
  key := "environment_busy"
  label := "Environment execution ownership"
  status := "blocked"
  detail := "Another cycle execution owns this environment. Wait for confirmed completion or "
    ++ "use its run to request a confirmed abort."

/-- The caller may only read. -/
def launchPermission : PreflightCheck where
  key := "launch_permission"
  label := "Launch permission"
  status := "blocked"
  detail := "Operator access to this cycle is required to launch or resume an execution."

variable (caller : DispatchCaller) (cycleId preparationId : String)

/-- The row of a preparation, up to date, with its engine-run row. -/
def currentRow :
    DispatchAction (Option (Option EngineRun × CycleDispatch)) := do
  match ← settle (← askDispatch (.rowOfPreparation cycleId preparationId)) with
  | none => pure none
  | some row => some <$> syncDispatch row true

/-- Whether another dispatch owns an environment, once that one is up to date. -/
def environmentOccupied (environmentId preparationId : String) : DispatchAction Bool := do
  match ← settle (← askDispatch (.rowOccupying environmentId preparationId)) with
  | none => pure false
  | some row => do
      let synced ← syncDispatch row true
      pure synced.2.activeEnvironmentId.isSome

def workspaceOf (ctx : DispatchContext) (current : Option (Option EngineRun × CycleDispatch))
    (occupied : Bool) : Workspace :=
  let checks := ctx.checks ++ (if occupied then [environmentBusy] else [])
    ++ (if caller.operator then [] else [launchPermission])
  let ready := !blocked checks
  { revision := ctx.cycle.revision
    checks := checks
    canDispatch := ready && current.isNone
    canResume := caller.operator && current.any fun found =>
      found.2.status.isOpen && (ready || found.2.threadId.isSome)
    canCancel := caller.operator && current.any fun found =>
      found.2.status.isOpen && found.2.threadId.isNone
    attempt := current.map fun found => dispatchRead found.2 found.1 }

def workspace :
    DispatchAction Workspace := do
  let ctx ← settle (← askDispatch (.dispatchContext caller.consumerId cycleId preparationId))
  let current ← currentRow cycleId preparationId
  let occupied ← environmentOccupied ctx.cycle.environmentId preparationId
  pure (workspaceOf caller ctx current occupied)

def readDispatch :
    DispatchAction Workspace := do
  settle (← askDispatch (.find cycleId caller.consumerId))
  workspace caller cycleId preparationId

/-- `DispatchCycleExecution`. -/
structure DispatchBody where
  expectedRevision : Nat
  idempotencyKey : String

/-- The configuration of the pipeline of a dispatch. -/
def dispatchConfig (identifier : String) (ctx : DispatchContext) (target : ApprovedTarget)
    (artifact : ScriptArtifact) : Dict Json :=
  let connections := (Dict.single "execution_engine" (Json.str ctx.snapshot.connectionId)).set
    "artifact_store" (.str artifact.connectionId)
  let policy := (Dict.single "prompt_review" (Json.str "auto")).set "output_review" (.str "auto")
  ((((((((((Dict.single "cycle_dispatch_id" (Json.str identifier)).set
    "project_id" (.str ctx.cycle.projectId)).set
    "app_id" (.str ctx.cycle.appId)).set
    "environment_id" (.str ctx.cycle.environmentId)).set
    "environment_target" (.str target.baseUrl)).set
    "environment_target_version" (.int target.version)).set
    "engine" (.str "apex_load")).set
    "connections" (.ofDict connections)).set
    "phases" (.list [.str "execution"])).set
    "gates" (.ofDict (Dict.single "execution" (.ofDict policy))))

def reservedRow (identifier : String) (body : DispatchBody) (ctx : DispatchContext)
    (config : Dict Json) : CycleDispatch where
  id := identifier
  cycleId := cycleId
  preparationId := preparationId
  requestKey := body.idempotencyKey
  activeEnvironmentId := some ctx.cycle.environmentId
  status := .reserved
  pipelineConfig := config
  threadId := none
  runId := none
  createdBy := caller.consumerId
  canceledBy := none

def reserveDispatch (body : DispatchBody) : DispatchAction CycleDispatch := do
  let ctx ← settle (← askDispatch (.dispatchContext caller.consumerId cycleId preparationId))
  match ctx.target, ctx.artifact with
  | some target, some artifact => do
      let identifier ← askDispatch .uuid4
      settle (← askDispatch (.reserveRevision cycleId body.expectedRevision))
      match ← askDispatch (.insert (reservedRow caller cycleId preparationId identifier body ctx
          (dispatchConfig identifier ctx target artifact))) with
      | .committed row => settle (← askDispatch (.refresh row.id))
      | .integrityError =>
        throw (.http 409 ("Another launch reserved this preparation, request key or "
          ++ "environment; refresh before continuing"))
      | .raised error => throw error
  | _, _ => throw (.http 409 "Approved environment target or source artifact is unavailable")

def configText (config : Dict Json) (field : String) : Option String :=
  match config.value field with
  | .str text => some text
  | _ => none

/-- What the pipeline of a dispatch is started with. Its hook is named by the dispatch. -/
def dispatchStart (row : CycleDispatch) :
    StartRun where
  title := "Cycle execution " ++ preparationId
  request := "Execute the exact approved cycle preparation without generating or substituting "
    ++ "a workload."
  idempotencyKey := some ("cycle-dispatch:" ++ row.id)
  assistantId := none
  projectId := configText row.pipelineConfig "project_id"
  appId := configText row.pipelineConfig "app_id"
  configurable := some row.pipelineConfig
  phases := some ["execution"]
  gates := (row.pipelineConfig.value "gates").dict?
  agentBackend := none
  modelByPhase := none
  externalResults := none
  contextPackets := none
  principalId := some row.createdBy
  beforeRunStart := some row.id
  prepareConfigurable := false
  reuseExistingThread := row.threadId.isSome
  recoveryOnly := false
  requestIntent := none
  actorId := some caller.consumerId

def startFor (env : DispatchEnv) (id : String) (start : StartRun) :
    DispatchAction (Except LaunchError Launched) :=
  liftM (Program.embed (DispatchRequest.launch id) (PipelineRead.startRun env.launch start).run :
    Program DispatchRequest DispatchRequest.Answer (Except LaunchError Launched))

def recordUncertain (id : String) : DispatchAction Unit := do
  settle (← askDispatch (.markUncertain id))

/-- Start the pipeline of a dispatch and record what became of it. A cancellation that
    comes from the deadline is an exception like others. -/
def launchDispatch (env : DispatchEnv) (caller : DispatchCaller) (preparationId : String)
    (row : CycleDispatch) : DispatchAction Unit := do
  match ← startFor env row.id (dispatchStart caller preparationId row) with
  | .ok launched => do
      match ← askDispatch (.markSubmitted row.id launched.threadId launched.runId) with
      | .committed => pure ()
      | .statementFailed => recordUncertain row.id
      | .raised error => throw error
  | .error .cancelled => do
      if ← askDispatch .deadline then recordUncertain row.id else throw .cancelled
  | .error _ => recordUncertain row.id

/-- The row to launch, or the workspace if nothing is to be launched. -/
def dispatchTarget (body : DispatchBody)
    (current : Workspace) : DispatchAction (Workspace ⊕ CycleDispatch) := do
  match current.attempt with
  | some attempt => do
      raiseWhen (attempt.requestKey != body.idempotencyKey)
        (.http 409 ("This preparation already has a launch intent; refresh and reconcile that "
          ++ "same request"))
      if !attempt.status.isOpen then pure (.inl current)
      else do
        raiseWhen (!current.canResume)
          (.http 409 ("Launch prerequisites changed; inspect current dispatch checks before "
            ++ "resuming"))
        match ← settle (← askDispatch (.rowById attempt.id)) with
        | some row => pure (.inr row)
        | none => throw (.other "AssertionError")
  | none => do
      raiseWhen (!current.canDispatch)
        (.http 409 "Execution is blocked; inspect current dispatch checks")
      .inr <$> reserveDispatch caller cycleId preparationId body

def dispatch (env : DispatchEnv) (caller : DispatchCaller) (cycleId preparationId : String)
    (body : DispatchBody) : DispatchAction Workspace := do
  settle (← askDispatch (.find cycleId caller.consumerId))
  let current ← workspace caller cycleId preparationId
  match ← dispatchTarget caller cycleId preparationId body current with
  | .inl current => pure current
  | .inr row => do
      launchDispatch env caller preparationId row
      workspace caller cycleId preparationId

def cancelDispatch (dispatchId : String) :
    DispatchAction Workspace := do
  settle (← askDispatch (.find cycleId caller.consumerId))
  let cancelled ← settle (← askDispatch (.cancel dispatchId cycleId preparationId
    caller.consumerId))
  raiseWhen (!cancelled) (.http 409 ("Launch already bound to a pipeline or changed; refresh "
    ++ "and use the linked run to stop it"))
  workspace caller cycleId preparationId

inductive DispatchCall where
  | read (caller : DispatchCaller) (cycleId preparationId : String)
  | dispatch (caller : DispatchCaller) (cycleId preparationId : String) (body : DispatchBody)
  | cancel (caller : DispatchCaller) (cycleId preparationId dispatchId : String)
  | load (cfg : PipelineConfigurable) (threadId : String) (attempt : Int) (readSource : Bool)

inductive DispatchResult where
  | workspace (seen : Workspace)
  | binding (spec : LoadTestSpec) (source : Option String)

def DispatchCall.action (env : DispatchEnv) : DispatchCall → DispatchAction DispatchResult
  | read caller cycleId preparationId => .workspace <$> readDispatch caller cycleId preparationId
  | .dispatch caller cycleId preparationId body =>
    .workspace <$> Routers.dispatch env caller cycleId preparationId body
  | cancel caller cycleId preparationId dispatchId =>
    .workspace <$> cancelDispatch caller cycleId preparationId dispatchId
  | load cfg threadId attempt readSource =>
    (fun loaded => .binding loaded.1 loaded.2)
      <$> loadDispatchBinding env cfg threadId attempt readSource

end Apex.Routers
