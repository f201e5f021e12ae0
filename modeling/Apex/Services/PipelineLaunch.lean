import Apex.Core.Action
import Apex.Domain.Pipeline
import Apex.Domain.WorkItems

/-!
# Launching A Pipeline

`start_run` creates a thread of the runtime and starts a run on it. A launch that
carries an idempotency key uses a thread whose id is drawn from the key and its
scope, so that every replica finds the same thread; the thread is stamped with a
digest of the request when it is created, and its first run carries that digest
as a mark. Under the lock of the thread a repeated launch finds the run and
adopts it.

Everything the launch asks of the runtime, of the lock, of the model catalog and
of the hooks of its caller is a request. An exception is an answer; a
cancellation is one that no handler of the launch takes for a failure of the
runtime.

## Main definitions

* `findLaunchRootRun`: The bounded scan of the runs of a thread.
* `createOrGetRun`, `PipelineRead.startRun`: The launch.
-/

namespace Apex.Services

open Domain

open Apex.Action hiding ask

inductive ProviderError where
  | notFound
  | conflict
  | status (code : Nat)
  | other (typeName : String)
  | cancelled

/-- The status code of an exception that has one. -/
def ProviderError.statusCode : ProviderError → Option Nat
  | notFound => some 404
  | conflict => some 409
  | status code => some code
  | _ => none

inductive LaunchError where
  | value (message : String)
  | validation (message : String)
  | readiness (message : String)
  | admission (message : String) (statusCode : Nat)
  | admissionUnavailable (message : String)
  | idempotencyConflict (message : String)
  | provider (message : String)
  | runtime (message : String)
  | other (typeName : String)
  | cancelled
  deriving DecidableEq

structure NativeThread where
  threadId : String
  metadata : Option (Dict Json)

structure NativeRun where
  runId : String
  metadata : Option (Dict Json)

def launchRootFingerprintKey : String := "apex_launch_root_fingerprint"

def launchFingerprintKey : String := "launch_idempotency_fingerprint"

def runtimeActorIdKey : String := "apex_actor_id"

def NativeRun.rootMarker (run : NativeRun) : Option Json :=
  run.metadata.bind fun metadata => metadata.get? launchRootFingerprintKey

/-- What is read of a run that is fetched alone: the configuration it was created with. -/
structure NativeRunDetail where
  threadId : String
  runId : String
  configurable : Option (Dict Json)

/-- What a launch asks: of the lock, of the runtime, of the model catalog, and of the
    two hooks of its caller. -/
inductive LaunchRequest where
  | acquire (scope : String)
  | release (scope : String)
  | getThread (threadId : String)
  | getRunConfig (threadId : String)
  | createThread (threadId : Option String) (metadata : Dict Json)
  | deleteThread (threadId : String)
  | listRuns (threadId : String) (limit offset : Nat)
  | getRun (threadId runId : String)
  | createRun (threadId assistantId : String) (input configurable : Dict Json)
      (recursionLimit : Nat) (marker : Option String)
  | assistantLaunchDefaults (assistantId : String)
  | admitModels (basis : Dict Json) (threadId actorId : String) (resume : Bool)
  | prepareConfigurable (configurable input : Dict Json)
  | beforeRunStart (owner threadId : String)
  | recordPromptUsage (threadId : String)
  | sleep (millis : Nat)

@[reducible] def LaunchRequest.Answer : LaunchRequest → Type
  | acquire _ => Except LaunchError Unit
  | release _ => Unit
  | getThread _ => Except ProviderError NativeThread
  | getRunConfig _ => Except ProviderError (Option (Dict Json))
  | createThread _ _ => Except ProviderError NativeThread
  | deleteThread _ => Except ProviderError Unit
  | listRuns _ _ _ => Except ProviderError (List NativeRun)
  | getRun _ _ => Except ProviderError NativeRunDetail
  | createRun _ _ _ _ _ _ => Except ProviderError String
  | assistantLaunchDefaults _ => Except LaunchError (Dict Json)
  | admitModels _ _ _ _ => Except LaunchError (Dict Json)
  | prepareConfigurable _ _ => Except LaunchError (Dict Json × Dict Json)
  | beforeRunStart _ _ => Except LaunchError (Option (List Json))
  | recordPromptUsage _ => Except LaunchError Unit
  | sleep _ => Except LaunchError Unit

def LaunchRequest.createsRun : LaunchRequest → Bool
  | createRun _ _ _ _ _ _ => true
  | _ => false

abbrev LaunchAction (α : Type) := Action LaunchRequest LaunchRequest.Answer LaunchError α

abbrev askLaunch (r : LaunchRequest) : LaunchAction r.Answer := Action.ask r

/-- `except Exception`: what a failure of the runtime is turned into. A cancellation is
    passed on. -/
def normalized {α : Type} (error : LaunchError) : Except ProviderError α → Except LaunchError α
  | .ok a => .ok a
  | .error .cancelled => .error .cancelled
  | .error _ => .error error

/-- What the launch reads of a validated configuration. -/
structure LaunchConfig where
  snapshot : Dict Json
  hasTestScope : Bool
  recommendedRecursionLimit : Nat

/-- What other modules and the language contribute: the redactor's patterns, SHA-256,
    `uuid5` over the URL namespace, the two JSON texts, the validators of objects,
    configurations, results and context packets, the test of an identifier of the
    runtime, and percent encoding. -/
structure LaunchEnv where
  rules : CredentialRules
  sha256 : String → String
  uuid5 : String → String
  asciiJson : Dict Json → String
  utf8Json : Dict Json → String
  validateJsonObject : String → Dict Json → Option String
  modelValidate : Dict Json → Option LaunchConfig
  validateExternalResults : Dict Json → Option (Dict Json)
  validateContextPackets : List Json → Option (List Json)
  nativeIdentifierOk : String → Bool
  quote : String → String

/-- What `start_run` is called with. A hook that runs before the start is named by
    what it is for. -/
structure StartRun where
  title : String
  request : String
  idempotencyKey : Option String
  assistantId : Option String
  projectId : Option String
  appId : Option String
  configurable : Option (Dict Json)
  phases : Option (List String)
  gates : Option (Dict Json)
  agentBackend : Option String
  modelByPhase : Option (Dict Json)
  externalResults : Option (Dict Json)
  contextPackets : Option (List Json)
  principalId : Option String
  beforeRunStart : Option String
  prepareConfigurable : Bool
  reuseExistingThread : Bool
  recoveryOnly : Bool
  requestIntent : Option String
  actorId : Option String

/-- `_validated_launch_text`. -/
def launchTextOk (maxChars : Nat) (allowEmpty canonical : Bool) (value : String) : Bool :=
  (allowEmpty || value != "") && value.length ≤ maxChars && !hasNul value
    && (!canonical || value == strip value)

/-- `_validated_launch_text`, or the same for a text that may be missing. -/
def checkLaunchText (label : String) (maxChars : Nat) (allowEmpty canonical : Bool)
    (value : Option String) : Except LaunchError Unit :=
  raiseIf (value.any (fun v => !launchTextOk maxChars allowEmpty canonical v))
    (.value (label ++ " is invalid"))

variable (env : LaunchEnv) (launch : Launch) (a : StartRun) (threadId : String)
  (configurable : Dict Json)

/-- `validate_json_object` on an object that may be missing. -/
def checkJsonObject (label : String) (value : Option (Dict Json)) :
    Except LaunchError Unit :=
  match value.bind (env.validateJsonObject label) with
  | some message => .error (.value message)
  | none => .ok ()

/-- The texts `start_run` checks first. -/
def checkLaunchTexts : Except LaunchError Unit := do
  checkLaunchText "pipeline title" 500 false false (some a.title)
  checkLaunchText "pipeline request" maxDescriptionChars true false (some a.request)
  checkLaunchText "pipeline assistant_id" 256 false false a.assistantId
  checkLaunchText "pipeline project_id" 255 false true a.projectId
  checkLaunchText "pipeline app_id" 255 false true a.appId
  checkLaunchText "pipeline idempotency_key" 128 false false a.idempotencyKey
  checkLaunchText "pipeline principal_id" 255 false false a.principalId
  checkLaunchText "pipeline agent_backend" 32 false false a.agentBackend

def checkCallerConfigurable :
    Except LaunchError Unit := do
  checkJsonObject env "pipeline configurable" (some configurable)
  raiseIf (configurable.value "rerun_phases" != .null)
    (.value "rerun_phases is server-owned; use the phase rerun endpoint")
  raiseIf (configurable.value "prompt_manifest" != .null) (.value "prompt_manifest is server-owned")
  raiseIf (configurable.value "aifx_snapshot" != .null) (.value "aifx_snapshot is server-owned")
  raiseIf (configurable.has runtimeActorIdKey) (.value (runtimeActorIdKey ++ " is server-owned"))
  raiseIf (configurable.value "prompt_selections" != .null && !a.prepareConfigurable
      && !a.recoveryOnly)
    (.validation "prompt selections require a prepared manifest")

/-- The phases a call names: its own, or those of its configuration if they are a list. -/
def requestedPhases : Option (List Json) :=
  match a.phases with
  | some phases => some (phases.map .str)
  | none =>
    match configurable.value "phases" with
    | .list phases => some phases
    | _ => none

def autoGates (phases : Option (List Json)) : Dict Json :=
  let policy : Dict Json := (Dict.single "prompt_review" (.str "auto")).set "output_review" (.str "auto")
  let names := match phases with
    | some phases => phases.filterMap fun phase => match phase with
        | .str name => some name
        | _ => none
    | none => phaseNames
  Dict.assignAll (fun _ => .ofDict policy) names ∅

def setSome (field : String) (value : Option Json) : Dict Json :=
  (value.map (configurable.set field)).getD configurable

/-- The configuration of a call, before the target of a legacy launch is recovered. -/
def baseConfigurable : Except LaunchError (Dict Json) := do
  checkLaunchTexts a
  match a.configurable with
  | some configurable => checkCallerConfigurable env a configurable
  | none => .ok ()
  raiseIf (a.phases.any (fun phases => phaseOrder.length < phases.length))
    (.value "pipeline phases are invalid")
  checkJsonObject env "pipeline gates" a.gates
  checkJsonObject env "pipeline model_by_phase" a.modelByPhase
  checkJsonObject env "pipeline external_results" a.externalResults
  let configurable := (a.configurable.getD ∅).set "assistant_id"
    (.str (a.assistantId.getD "pipeline"))
  let requested := requestedPhases a configurable
  raiseIf (requested.any fun phases =>
      !phases.all (fun phase => (phaseNames.map Json.str).contains phase) || !decide phases.Nodup)
    (.value "unknown pipeline phase")
  let configurable := setSome configurable "project_id" (a.projectId.map .str)
  let configurable := setSome configurable "app_id" (a.appId.map .str)
  let configurable := setSome configurable "phases" (a.phases.map fun ps => .list (ps.map .str))
  let configurable := setSome configurable "agent_backend" (a.agentBackend.map .str)
  let configurable := setSome configurable "model_by_phase" (a.modelByPhase.map .ofDict)
  let gates := a.gates.getD (((configurable.value "gates").dict?).getD (autoGates requested))
  .ok (configurable.set "gates" (.ofDict gates))

/-- What the id of the thread of a key is drawn from. -/
def idempotencyScope (key : String) : Dict Json :=
  (((Dict.single "principal_id" (.str (a.principalId.getD "unknown"))).set "project_id"
    (textJson a.projectId)).set "app_id" (textJson a.appId)).set "idempotency_key" (.str key)

def launchThreadId (key : String) : String :=
  env.uuid5 ("apex-launch:" ++ env.asciiJson (idempotencyScope a key))

def launchFingerprint (assistantId : String) (input configurable : Dict Json) :
    String :=
  env.sha256 (env.utf8Json (((Dict.single "assistant_id" (.str assistantId)).set "input"
    (.ofDict input)).set "configurable" (.ofDict configurable)))

structure Launch where
  threadId : Option String
  fingerprint : Option String
  metadata : Dict Json
  assistantId : String
  input : Dict Json
  configurable : Dict Json
  recursionLimit : Nat
  beforeRunStart : Option String
  prepareConfigurable : Bool
  admissionActor : String
  reuseExistingThread : Bool
  recoveryOnly : Bool
  deriving DecidableEq

def maxRecommendedRecursionLimit : Nat := 100064

def launchInput : Except LaunchError (Dict Json) := do
  let input := (Dict.single "title" (.str a.title)).set "request" (.str a.request)
  let input ← match a.externalResults with
    | none => .ok input
    | some results =>
      match env.validateExternalResults results with
      | some validated => .ok (input.set "external_results" (.ofDict validated))
      | none => .error (.value "pipeline external_results are invalid")
  match a.contextPackets with
  | none => .ok input
  | some packets =>
    match env.validateContextPackets packets with
    | none => .error (.value "context packets are invalid")
    | some [] => .ok input
    | some validated => .ok (input.set "context_packets" (.list validated))

/-- The rest of `start_run` before the lock: what the launch amounts to. -/
def assembleLaunch :
    Except LaunchError Launch := do
  match env.modelValidate configurable with
  | none => .error (.value "pipeline configurable is invalid")
  | some config =>
    let recursionLimit :=
      if configurable.has "limits" then config.recommendedRecursionLimit
      else maxRecommendedRecursionLimit
    let configurable :=
      if config.hasTestScope && !a.recoveryOnly then config.snapshot else configurable
    let input ← launchInput env a
    raiseIf (containsCredentialMaterial env.rules plainScanLimits (.ofDict
        ((Dict.single "input" (.ofDict input)).set "configurable" (.ofDict configurable))))
      (.value "pipeline launch must not contain credential material")
    let assistantId := a.assistantId.getD "pipeline"
    let fingerprint := a.idempotencyKey.map fun _ =>
      launchFingerprint env assistantId input configurable
    let metadata := Dict.single "title" (.str a.title)
    let metadata := setSome metadata "launch_request_intent" (a.requestIntent.map .str)
    let metadata := setSome metadata "test_scope"
      (if config.hasTestScope then configurable.get? "test_scope" else none)
    let metadata := setSome metadata launchFingerprintKey (fingerprint.map .str)
    let metadata := setSome metadata "project_id" (a.projectId.map .str)
    let metadata := setSome metadata "app_id" (a.appId.map .str)
    .ok {
      threadId := a.idempotencyKey.map (launchThreadId env a)
      fingerprint := fingerprint
      metadata := metadata
      assistantId := assistantId
      input := input
      configurable := setSome configurable runtimeActorIdKey (a.actorId.map .str)
      recursionLimit := recursionLimit
      beforeRunStart := a.beforeRunStart
      prepareConfigurable := a.prepareConfigurable
      admissionActor := a.principalId.getD "pipeline-facade"
      reuseExistingThread := a.reuseExistingThread
      recoveryOnly := a.recoveryOnly }

def runListPageSize : Nat := 100

def maxLaunchRunReconcileRecords : Nat := 1000

/-- What a page of runs amounts to: the marked run, or the last run seen and whether
    some run had a mark. -/
inductive RunScan where
  | found (run : NativeRun)
  | more (oldest : Option NativeRun) (sawRootMarker : Bool)

def scanRuns (fingerprint : Option String) :
    List NativeRun → Option NativeRun → Bool → RunScan
  | [], oldest, sawRootMarker => .more oldest sawRootMarker
  | run :: rest, _, sawRootMarker =>
    match run.rootMarker with
    | none => scanRuns fingerprint rest (some run) sawRootMarker
    | some marker =>
      if fingerprint.any (fun f => marker == .str f) then .found run
      else scanRuns fingerprint rest (some run) true

/-- The history does not fit the scan: it proves nothing about older runs. -/
def historyTooLong : LaunchError :=
  .idempotencyConflict "launch run history exceeds the bounded reconciliation limit"

def listRunPage (limit offset : Nat) : LaunchAction (List NativeRun) := do
  let page ← settle (normalized (.provider "pipeline launch reconciliation failed")
    (← askLaunch (.listRuns threadId limit offset)))
  raiseWhen (decide (limit < page.length)) (.provider "pipeline launch reconciliation failed")
  pure page

/-- What a scan that has seen the last page returns. -/
def endOfScan (oldest : Option NativeRun) (sawRootMarker : Bool) :
    LaunchAction (Option NativeRun) :=
  if sawRootMarker then
    throw (.idempotencyConflict "launch root fingerprint does not match the idempotent request")
  else pure oldest

/-- The loop of `_find_launch_root_run`, with as much fuel as there are records to scan. -/
def findLaunchRootRunFrom (fingerprint : Option String) :
    Nat → Nat → Option NativeRun → Bool → LaunchAction (Option NativeRun)
  | 0, _, _, _ => throw historyTooLong
  | fuel + 1, offset, oldest, sawRootMarker =>
    if offset < maxLaunchRunReconcileRecords then do
      let limit := min runListPageSize (maxLaunchRunReconcileRecords - offset)
      let page ← listRunPage threadId limit offset
      match scanRuns fingerprint page oldest sawRootMarker with
      | .found run => pure (some run)
      | .more oldest sawRootMarker =>
        if page.length < limit then endOfScan oldest sawRootMarker
        else
          findLaunchRootRunFrom fingerprint fuel (offset + page.length) oldest sawRootMarker
    else throw historyTooLong

def findLaunchRootRun (fingerprint : Option String) :
    LaunchAction (Option NativeRun) :=
  findLaunchRootRunFrom threadId fingerprint maxLaunchRunReconcileRecords 0 none false

/-- What `start_run` returns. -/
structure Launched where
  threadId : String
  runId : String
  streamUrl : String

/-- `validated_native_identifier`. -/
def checkNativeIdentifier (label value : String) : Except LaunchError Unit :=
  raiseIf (!env.nativeIdentifierOk value) (.runtime (label ++ " returned an invalid identifier"))

def launchedRun (runId : String) : Launched where
  threadId := threadId
  runId := runId
  streamUrl := "/threads/" ++ env.quote threadId ++ "/runs/" ++ env.quote runId
    ++ "/stream?stream_mode=custom"

def adoptRun (run : NativeRun) : LaunchAction Launched := do
  settle (checkNativeIdentifier env "pipeline launch reconciliation" run.runId)
  settle (← askLaunch (.recordPromptUsage threadId))
  pure (launchedRun env threadId run.runId)

/-- `_validated_thread_create_fields`. -/
def threadFieldsOk (thread : NativeThread) : Bool :=
  env.nativeIdentifierOk thread.threadId && thread.metadata.all (fun metadata =>
    metadata.length ≤ 64 && metadata.keys.all (fun key => 1 ≤ key.length && key.length ≤ 255))

/-- The message of every failure to get at a thread. -/
def threadFailure : LaunchError := .provider "pipeline runtime thread creation failed"

def createLaunchThread : LaunchAction NativeThread := do
  let thread ← settle (normalized threadFailure
    (← askLaunch (.createThread launch.threadId launch.metadata)))
  raiseWhen (!threadFieldsOk env thread) threadFailure
  pure thread

/-- The thread of a launch, and whether it was asked to be created. -/
def launchThread : LaunchAction (NativeThread × Bool) := do
  match launch.threadId with
  | none => (·, true) <$> createLaunchThread env launch
  | some threadId =>
    if launch.reuseExistingThread || launch.recoveryOnly then
      match ← askLaunch (.getThread threadId) with
      | .ok thread => do
          raiseWhen (!threadFieldsOk env thread) threadFailure
          pure (thread, false)
      | .error .notFound =>
        -- The error raised here for a recovery is caught as any other.
        if launch.recoveryOnly then throw threadFailure
        else (·, true) <$> createLaunchThread env launch
      | .error .cancelled => throw .cancelled
      | .error _ => throw threadFailure
    else (·, true) <$> createLaunchThread env launch

def NativeThread.fingerprint (thread : NativeThread) : Option Json :=
  thread.metadata.bind fun metadata => metadata.get? launchFingerprintKey

/-- The choices an assistant contributes to a sparse launch. -/
def inheritedDefaults : LaunchAction (Option (Dict Json)) := do
  if launch.configurable.value "test_scope" == .null then
    match ← askLaunch (.assistantLaunchDefaults launch.assistantId) with
    | .ok defaults => pure (some defaults)
    | .error (.validation _) => pure none
    | .error error => throw error
  else pure none

/-- `_admit_run_models`, on the fields an assistant may contribute. -/
def admissionBasis (inherited : Option (Dict Json)) : Dict Json :=
  ["model_by_phase", "phase_execution"].foldl (fun basis key =>
    if basis.has key then basis
    else
      match inherited.bind (fun defaults => defaults.get? key) with
      | some value => if value == .null then basis else basis.set key value
      | none => basis) configurable

/-- The hook that runs before the start, with the context packets it generates. -/
def startHook : LaunchAction (List Json) :=
  match launch.beforeRunStart with
  | none => pure []
  | some owner => do
      let packets ← settle (← askLaunch (.beforeRunStart owner threadId))
      pure (packets.getD [])

/-- What happens just before the run is created: the models are admitted, and the hooks
    of the caller run. -/
def prepareRun (createThread : Bool) :
    LaunchAction (Dict Json × Dict Json × List Json) := do
  let inherited ← inheritedDefaults launch
  let resolved ← settle (← askLaunch (.admitModels (admissionBasis launch.configurable inherited)
    threadId launch.admissionActor (!createThread)))
  let configurable := if resolved.length == 0 then launch.configurable
    else launch.configurable.set "model_by_phase" (.ofDict resolved)
  let prepared ← if launch.prepareConfigurable then do
      settle (← askLaunch (.prepareConfigurable configurable launch.input))
    else pure (configurable, launch.input)
  let generated ← startHook launch threadId
  pure (prepared.1, prepared.2, generated)

/-- Whether a refused launch leaves a fresh random thread to remove. -/
def LaunchError.removesThread : LaunchError → Bool
  | .readiness _ => true
  | .admission _ _ => true
  | .admissionUnavailable _ => true
  | _ => false

/-- Remove a fresh random thread, unless that fails. -/
def removeThread : LaunchAction Unit := do
  match ← askLaunch (.deleteThread threadId) with
  | .error .cancelled => throw .cancelled
  | _ => pure ()

def inputWithPackets (input : Dict Json) (generated : List Json) :
    Except LaunchError (Dict Json) :=
  if generated.isEmpty then .ok input
  else
    let existing := match input.value "context_packets" with
      | .list packets => packets
      | _ => []
    match env.validateContextPackets (existing ++ generated) with
    | some packets => .ok (input.set "context_packets" (.list packets))
    | none => .error (.value "context packets are invalid")

/-- `_AMBIGUOUS_RUN_CREATE_CLIENT_STATUSES`. -/
def ambiguousRunCreateStatuses : List Nat := [408, 409, 425, 429]

/-- Whether a failed creation certainly created nothing. -/
def ProviderError.definitive (error : ProviderError) : Bool :=
  error.statusCode.any fun code =>
    400 ≤ code && code < 500 && !ambiguousRunCreateStatuses.contains code

/-- What a launch raises for a run that was not created. -/
def runCreateFailure (error : ProviderError) : LaunchError :=
  if error.statusCode == some 400 || error.statusCode == some 422 then
    .validation "pipeline launch configuration was rejected"
  else .provider "pipeline runtime run creation failed"

/-- The waits between the looks for the run of a concurrent launch. -/
def conflictDelays : List Nat := [0, 20, 50, 100]

/-- Wait briefly for the run of a concurrent launch. -/
def pollForRun (fingerprint : Option String) :
    List Nat → LaunchAction Launched
  | [] =>
    throw (.idempotencyConflict
      "pipeline launch was rejected because the thread already has an active run")
  | delay :: rest => do
      if delay != 0 then settle (← askLaunch (.sleep delay))
      match ← findLaunchRootRun threadId fingerprint with
      | some run => adoptRun env threadId run
      | none => pollForRun fingerprint rest

def submitRun (input configurable : Dict Json) : LaunchAction Launched := do
  match ← askLaunch (.createRun threadId launch.assistantId input configurable
      launch.recursionLimit launch.fingerprint) with
  | .ok runId => do
      raiseWhen (!env.nativeIdentifierOk runId) (.provider "pipeline runtime run creation failed")
      settle (← askLaunch (.recordPromptUsage threadId))
      pure (launchedRun env threadId runId)
  | .error .conflict =>
    pollForRun env threadId launch.fingerprint
      (if launch.fingerprint.isSome then conflictDelays else [])
  | .error .cancelled => throw .cancelled
  | .error error => do
      if error.definitive && launch.threadId.isNone then removeThread threadId
      throw (runCreateFailure error)

/-- The last part of `_create_or_get_run`: prepare and create the run. -/
def prepareAndSubmit (createThread : Bool) : LaunchAction Launched := do
  if launch.recoveryOnly then
    throw (.validation "No submitted legacy run; complete test_scope")
  else
    let prepared ← tryCatch (prepareRun launch threadId createThread) fun error => do
      if error.removesThread && launch.threadId.isNone then removeThread threadId
      throw error
    let input ← settle (inputWithPackets env prepared.2.1 prepared.2.2)
    submitRun env launch threadId input prepared.1

/-- What follows once the thread is known to belong to the request. -/
def adoptOrSubmit (createThread : Bool) : LaunchAction Launched := do
  match launch.fingerprint with
  | none => prepareAndSubmit env launch threadId createThread
  | some fingerprint =>
    match ← findLaunchRootRun threadId (some fingerprint) with
    | some run => adoptRun env threadId run
    | none => prepareAndSubmit env launch threadId createThread

/-- Whether a thread is the one of the request. -/
def threadRefusal (thread : NativeThread) : Option LaunchError :=
  if launch.threadId.any (fun threadId => thread.threadId != threadId) then
    some (.idempotencyConflict
      "the deterministic thread response did not match the idempotency claim")
  else if launch.fingerprint.any (fun f => thread.fingerprint != some (.str f)) then
    some (.idempotencyConflict "idempotency_key was already used for a different request")
  else none

def createOrGetRun : LaunchAction Launched := do
  let thread ← launchThread env launch
  match threadRefusal launch thread.1 with
  | some error => throw error
  | none => adoptOrSubmit env launch thread.1.threadId thread.2

/-- `async with launch_locks.hold(scope)`. -/
def holdingLock {α : Type} (scope : String) (body : LaunchAction α) : LaunchAction α := do
  settle (← askLaunch (.acquire scope))
  let a ← tryCatch body fun error => do
    let _ ← askLaunch (.release scope)
    throw error
  let _ ← askLaunch (.release scope)
  pure a

/-- What a legacy launch was started with, if it did not checkpoint it: the
    configuration of its first run. -/
def recoverRunConfig (thread : NativeThread) :
    LaunchAction (Dict Json) := do
  match thread.fingerprint with
  | some (.str fingerprint) =>
    match ← findLaunchRootRun threadId (some fingerprint) with
    | none => throw (.validation "No submitted legacy run; complete test_scope")
    | some root => do
        settle (checkNativeIdentifier env "legacy recovery" root.runId)
        let stored ← settle (normalized (.other "APIError")
          (← askLaunch (.getRun threadId root.runId)))
        if stored.threadId != threadId || stored.runId != root.runId then
          throw (.idempotencyConflict "Legacy run binding differs")
        else
          match stored.configurable with
          | none => throw (.idempotencyConflict "Legacy run configuration is unavailable")
          | some configurable => pure configurable
  | _ => throw (.idempotencyConflict "Legacy claim fingerprint is unavailable")

/-- The target stamps of the old configuration replace those of the call. -/
def recoveredTarget (old configurable : Dict Json) : Dict Json :=
  ["environment_target", "environment_target_version"].foldl (fun c key =>
    let c := c.filterKeys (· != key)
    match old.get? key with
    | some value => if value == .null then c else c.set key value
    | none => c) configurable

/-- `start_run` on the path that only recovers a launch. -/
def recoverTarget :
    LaunchAction (Dict Json) := do
  match a.idempotencyKey, a.principalId with
  | some key, some _ => do
      let threadId := launchThreadId env a key
      match ← askLaunch (.getThread threadId) with
      | .error .notFound => throw (.validation "No existing legacy launch; complete test_scope")
      | .error .cancelled => throw .cancelled
      | .error _ => throw (.other "APIError")
      | .ok thread =>
        let metadata := thread.metadata.getD ∅
        if metadata.value "test_scope" != .null
            || metadata.value "project_id" != textJson a.projectId
            || metadata.value "app_id" != textJson a.appId then
          throw (.idempotencyConflict "Legacy launch ownership differs")
        else if configurable.value "environment_id" != .null
            && configurable.value "engine" != .str "sim" then do
          let checkpointed ← settle (normalized (.other "APIError")
            (← askLaunch (.getRunConfig threadId)))
          let old ← match checkpointed with
            | some old => pure old
            | none => recoverRunConfig env threadId thread
          if old.value "environment_id" != configurable.value "environment_id"
              || old.value "project_id" != textJson a.projectId
              || old.value "app_id" != textJson a.appId then
            throw (.idempotencyConflict "Legacy target snapshot is unavailable")
          else pure (recoveredTarget old configurable)
        else pure configurable
  | _, _ => throw (.validation "Legacy launch recovery requires an existing claim")

/-- What a call that recovers nothing amounts to. -/
def launchOf : Except LaunchError Launch := do
  assembleLaunch env a (← baseConfigurable env a)

/-- Carry a launch out, under its lock if it has one. -/
def runLaunch : LaunchAction Launched :=
  match launch.threadId with
  | some threadId => holdingLock threadId (createOrGetRun env launch)
  | none => createOrGetRun env launch

def PipelineRead.startRun : LaunchAction Launched := do
  let configurable ← settle (baseConfigurable env a)
  let configurable ← if a.recoveryOnly then recoverTarget env a configurable
    else pure configurable
  runLaunch env (← settle (assembleLaunch env a configurable))

end Apex.Services
