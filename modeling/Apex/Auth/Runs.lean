import Apex.Auth.Handlers
import Apex.Graphs.Pipeline.Validation

/-!
# Admitting A Run

A run is created on a thread by a request that the runtime has already taken apart: an
input, a configuration, a context and metadata. The hook that admits it changes these
in place and returns a filter that the thread must pass.

The request is merged with what the assistant and the thread have configured, checked,
given one tenant on all of its surfaces, bound to an environment or to the participants
of a test scope, and pinned: every application setting is written out, so an assistant
that is edited later has no say.

## Main definitions

* `RunsCreate`: A request.
* `ensureRunControls`: The checks of a request.
* `ensureRunScope`: One tenant for all surfaces.
* `ensureRunEnvironment`: The environment, or the participants.
* `onThreadsCreateRun`: The hook.
-/

namespace Apex.Auth.Handlers

open Domain Graphs

/-- `RunsCreate`. Metadata, the configurable, the metadata of the configuration and the context
    are the mappings in it; one that is missing is empty, except for the context. The ids are
    texts or `None`. -/
structure RunsCreate where
  threadId : Json
  assistantId : Json
  payload : Dict Json
  metadata : Dict Json
  arguments : Dict Json
  input : Option (Dict Json)
  configurable : Dict Json
  configMetadata : Dict Json
  context : Option (Dict Json)

inductive LookupFailure where
  | notFound
  | notApproved

/-- What the hook asks its surroundings: the validation of the fields, the checks of shapes and
    budgets, the catalog, the table of bindings, and the services that prepare a run. -/
structure RunWorld where
  schema : Schema
  digest : Json → String
  checkPersisted : RunsCreate → Handler Unit
  checkRuntime : Dict Json → Handler Unit
  checkInput : String → Dict Json → Handler Unit
  checkCommand : Json → Handler Unit
  nativeDefaults : String → Json → Handler (String × Dict Json × Dict Json)
  application : String → Option CatalogApplication
  contexts : TestScopeV1 → Bool → Handler (Dict Json)
  binding : String → Option Services.TestScope.RunScopeBinding
  participants : String → List Services.TestScope.RunParticipant
  environmentContext : String → Option String → Option String → Except LookupFailure String
  environmentTarget : String → Option String → Option String →
    Except LookupFailure (String × Int × String)
  analysisReady : Dict Json → Handler Unit
  admitModels : Json → Json → Json → Option String → Bool → Handler Json
  aifxSnapshot : Dict Json → Handler (Option Json)
  promptManifest : Dict Json → Dict Json → Handler Json
  checkSize : Dict Json → Handler Unit

def runtimeActorIdKey : String := "apex_actor_id"

def assistantServerOwnedConfig : List String := [
  "prompt_manifest", "aifx_snapshot", "test_scope_snapshot", "environment_target",
  "environment_target_version", "rerun_phases", "cycle_dispatch_id", runtimeActorIdKey,
  "langgraph_auth_user", "langgraph_auth_user_id", "langgraph_auth_permissions"]

def systemAssistantGraphs : List (String × String) := [
  ("024bfc19-7d06-5d5c-92b5-cec6be8620ae", "pipeline"),
  ("673d1bfe-3459-5af1-a85d-9fa5f07ea1d5", "context"),
  ("5c60a533-f2bd-56cc-914b-c4b879db5aae", "playground")]

/-- `_LANGGRAPH_RUN_RUNTIME_KEYS | _LANGGRAPH_TRACE_CONFIG_KEYS | {RUNTIME_ACTOR_ID_KEY}`. -/
def runtimeKeys : List String := [
  "langgraph_auth_user", "langgraph_auth_user_id", "langgraph_auth_permissions",
  "langgraph_request_id", "__langsmith_project__", "__langsmith_example_id__",
  "__request_start_time_ms__", "__after_seconds__", "__otel_traceparent__",
  "__otel_tracestate__", "__dd_trace_headers__", "__pregel_node_finished", "langsmith-trace",
  "langsmith-metadata", "langsmith-tags", "langsmith-project", runtimeActorIdKey]

variable (world : RunWorld) (identity : ConsumerIdentity) (configurable : Dict Json)
  (graph : String) (trustedLoopback : Bool) (value : RunsCreate)

/-- A step that only a request that is made directly goes through. -/
def unlessTrusted (step : RunsCreate → Handler RunsCreate)
    (value : RunsCreate) : Handler RunsCreate :=
  if trustedLoopback then pure value else step value

/-- A `ValueError` of the run controls. -/
def invalidControls (detail : String) : HttpException :=
  ⟨422, "Invalid run controls: " ++ detail⟩

/-- `payload.get(key) or run_args.get(key)`. -/
def control (key : String) : Json :=
  firstTruthy [value.payload.value key, value.arguments.value key]

def webhook (value : RunsCreate) : Json :=
  if value.payload.has "webhook" then value.payload.value "webhook"
  else value.arguments.value "webhook"

def noFeedback : Json → Bool
  | .null => true
  | .list xs => xs.isEmpty
  | _ => false

/-- The controls in one container of a request that is made directly. -/
def checkContainer (controls : Dict Json) : Handler Unit := do
  checkSome (fun v => raiseIf (v != .int 0)
    (invalidControls "after_seconds must be the integer 0 for direct run creation"))
    (controls.get? "after_seconds")
  checkSome (fun v => raiseIf (!noFeedback v)
    (invalidControls "feedback_keys are disabled for direct run creation"))
    (controls.get? "feedback_keys")
  raiseIf (controls.value "checkpoint_during" == .bool false)
    (invalidControls "checkpoint_during cannot be disabled for direct run creation")
  raiseIf (controls.value "interrupt_before" != .null)
    (invalidControls "interrupt_before is server-owned for direct run creation")
  raiseIf (controls.value "interrupt_after" != .null)
    (invalidControls "interrupt_after is server-owned for direct run creation")

/-- A control that is set is set to what the server wants. -/
def normalizeControl (key : String) (v : Json) (controls : Dict Json) : Dict Json :=
  if controls.has key then controls.set key v else controls

def durable : RunsCreate :=
  { value with
    arguments := (value.arguments.set "durability" (.str "sync")).set "checkpoint_during"
      (.bool true) }

/-- The mapping under a key; another value counts as an empty one. -/
def mapping (d : Dict Json) (key : String) : Dict Json := ((d.value key).dict?).getD ∅

/-- The checks of a request that is made directly. -/
def checkDirect : Handler RunsCreate := do
  raiseIf (webhook value != .null)
    (invalidControls "run webhooks are disabled by outbound-network policy")
  raiseIf (control value "action" == .str "interrupt" || control value "action" == .str "rollback")
    (invalidControls ("run action cannot interrupt or roll back an existing run; use " ++
      "/v1/pipelines/\x7bthread_id\x7d/abort"))
  raiseIf (control value "multitask_strategy" != .null
    && control value "multitask_strategy" != .str "reject")
    (invalidControls ("multitask_strategy must be 'reject' for direct run creation; " ++
      "use the validated /v1 pipeline APIs for lifecycle transitions"))
  raiseIf (value.configurable.value "rerun_phases" != .null
    || (value.context.getD ∅).value "rerun_phases" != .null)
    (invalidControls "rerun_phases is server-owned; use the phase rerun endpoint")
  raiseIf (value.configurable.has "cycle_dispatch_id")
    (invalidControls "Cycle dispatch bindings are server-owned")
  raiseIf (value.threadId == .null && value.arguments.value "temporary" != .bool true)
    (invalidControls "stateless direct runs must be temporary; on_completion='keep' is disabled")
  checkContainer value.payload
  checkContainer value.arguments
  let value := { value with
    payload := normalizeControl "checkpoint_during" (.bool true)
      (normalizeControl "durability" (.str "sync") value.payload) }
  let selectors := ["script_refs", "test_id", "test_instance_id"].filter
    (mapping value.configurable "load_test").has
  raiseIf (!selectors.isEmpty)
    (invalidControls ("provider workload selectors are connection/catalog-owned and cannot be " ++
      "overridden per run: " ++ String.intercalate ", " selectors))
  pure (durable value)

/-- `_validate_runtime_run_configurable`, of the identity it is about. -/
def validateRuntimeRunConfigurable (runtime : Dict Json) : Handler Unit := do
  let unknown := runtime.keys.filter fun key => !runtimeKeys.contains key
  raiseIf (!unknown.isEmpty)
    (invalidControls ("config.configurable contains " ++ toString unknown.length ++
      " unsupported field(s)"))
  checkSome (fun actor => do
    raiseIf (!trustedLoopback) (invalidControls (runtimeActorIdKey ++ " is server-owned"))
    raiseIf (actor != .str identity.consumerId)
      (invalidControls (runtimeActorIdKey ++ " does not match the authenticated consumer")))
    (runtime.get? runtimeActorIdKey)
  checkSome (fun user => raiseIf (user != .str identity.consumerId)
    (invalidControls "langgraph_auth_user_id does not match the authenticated consumer"))
    (runtime.get? "langgraph_auth_user_id")
  world.checkRuntime runtime

def nonempty? : Json → Option String
  | .str s => if s.isEmpty then none else some s
  | _ => none

/-- The assistant of a request: of the payload, or else of the arguments. -/
def assistantOf (fallback : String) : String :=
  (nonempty? (firstTruthy [value.assistantId, value.arguments.value "assistant_id"])).getD fallback

def checkCommand (world : RunWorld) (trustedLoopback : Bool) (command : Json) : Handler Unit :=
  if command == .null then pure ()
  else do
    raiseIf (!trustedLoopback)
      (invalidControls "native run commands are server-owned; use the gate resume endpoint")
    world.checkCommand command

def ensureRunControls (validateEffectiveConfig : Bool)
    (value : RunsCreate) : Handler RunsCreate := do
  let value ← unlessTrusted trustedLoopback checkDirect value
  let value := if assistantOf value "" == "pipeline" then durable value else value
  let requested ← projectId value.threadId
  let configured ← projectId (value.configurable.value "thread_id")
  raiseIf (configured.isSome && configured != requested)
    (invalidControls
      "config.configurable.thread_id is server-owned and must match the target thread")
  validateRuntimeRunConfigurable world identity trustedLoopback
    (value.configurable.filterKeys fun key => !isField key)
  raiseIf (validateEffectiveConfig
    && (configurableSnapshot world.schema (applicationConfig value.configurable)).isNone)
    (invalidControls "validation failed")
  world.checkInput (assistantOf value "") (value.input.getD ∅)
  checkCommand world trustedLoopback (value.arguments.value "command")
  pure value

/-- The items of a default that count: a server-owned one that is `None` is absent. -/
def withoutNulls (defaults : Dict Json) : Dict Json :=
  defaults.filterKeys fun key =>
    !assistantServerOwnedConfig.contains key || defaults.value key != .null

/-- `_materialize_native_launch_defaults`: the graph, and the request with the defaults below. -/
def materializeNativeLaunchDefaults : Handler (String × RunsCreate) :=
  let assistant := assistantOf value "pipeline"
  if trustedLoopback then pure ((systemAssistantGraphs.lookup assistant).getD assistant, value)
  else do
    let (graph, assistantDefaults, threadDefaults) ← world.nativeDefaults assistant value.threadId
    raiseIf (assistantServerOwnedConfig.any fun key => assistantDefaults.value key != .null)
      ⟨422, "Assistant contains server-owned configuration"⟩
    let defaults := (withoutNulls assistantDefaults).update (withoutNulls threadDefaults)
    pure (graph, { value with
      configurable := defaults.update value.configurable
      context := value.context.map defaults.update })

/-- The surfaces that carry a tenant, in the order they are read. -/
def RunsCreate.surfaces : List (Dict Json) :=
  [value.input.getD ∅, value.configurable, value.metadata, value.configMetadata]

/-- The distinct identifiers the surfaces give for a field. -/
def explicitIds (field : String) : Handler (List String) := do
  let ids ← value.surfaces.mapM fun surface => projectId (surface.value field)
  pure (ids.filterMap id).eraseDups

def stampRunScope (project : String) (app : Option String) (value : RunsCreate) : RunsCreate :=
  { value with
    input := some (stamp project app (value.input.getD ∅))
    configurable := stamp project app value.configurable
    metadata := stamp project app value.metadata
    configMetadata := stamp project app value.configMetadata }

/-- The only identifier of a list that has at most one. -/
def soleId (field : String) (ids : List String) :
    Handler (Option String) :=
  match ids with
  | [] => pure none
  | [id] => pure (some id)
  | _ => throw (if identity.isUnscoped then
      invalidRequestInput ("conflicting " ++ field ++ " values are not allowed for runs")
    else denied ("Conflicting " ++ field ++ " values are not allowed for scoped runs"))

def runProject (project app : Option String) : Handler String :=
  match project with
  | some project => do
      raiseIf (!identity.allowsProject project)
        (denied ("Project '" ++ project ++ "' is outside this consumer's scopes"))
      pure project
  | none =>
    match identity.scopedProjectIds with
    | [project] => pure project
    | _ => throw (denied (if app.isSome then
        "project_id is required when app_id is provided for scoped runs"
      else "project_id is required for scoped runs"))

/-- The project and the app of a run, from what its surfaces say and its caller may have. -/
def runScope :
    Handler (Option (String × Option String)) := do
  let projects ← explicitIds value "project_id"
  let apps ← explicitIds value "app_id"
  let project ← soleId identity "project_id" projects
  let app ← soleId identity "app_id" apps
  if identity.isUnscoped then
    match project with
    | none => do
        raiseIf app.isSome
          (invalidRequestInput "project_id is required when app_id is provided for runs")
        -- A platform operation without tenant identifiers stays global.
        pure none
    | some project => pure (some (project, app))
  else
    let project ← runProject identity project app
    let app ← requireLanggraphScope identity project app
    pure (some (project, app))

/-- A run with its project and its app on all surfaces, and the condition on its thread. -/
def applyScope (scope : Option (String × Option String)) :
    RunsCreate × Option Condition :=
  match scope with
  | none => (value, none)
  | some (project, app) => (stampRunScope project app value, some (metadataFilter project app))

def ensureRunScope :
    Handler (RunsCreate × Option Condition) := do
  let scope ← runScope identity value
  pure (applyScope value scope)

/-- An environment that was looked up, or the refusal. -/
def lookedUp {α : Type} : Except LookupFailure α → Handler α
  | .ok a => .ok a
  | .error .notApproved => .error ⟨422, "Selected environment has no approved execution target"⟩
  | .error .notFound => .error ⟨404, "Environment target not found"⟩

/-- Whether a reference to a script is a script. -/
def inlineScript : Json → Bool
  | .str ref => (ref.toList.dropWhile isPySpace).head? == some '\x7b'
  | _ => false

def checkLoadTest : Handler Unit := do
  let loadTest := mapping configurable "load_test"
  raiseIf (loadTest.has "target_environment") (denied
    "load_test.target_environment cannot be supplied directly; select environment_id")
  match loadTest.value "script_refs" with
  | .list refs => raiseIf (refs.any inlineScript) (denied
      "inline load_test.script_refs are not allowed; select an approved environment")
  | _ => pure ()

/-- What is written of the target of a test scope. -/
def setExecutionTarget (snapshot configurable : Dict Json) : Dict Json :=
  if truthy (snapshot.value "execution_target") then
    let target := mapping snapshot "execution_target"
    (configurable.set "environment_target" (target.value "base_url")).set
      "environment_target_version" (target.value "version")
  else configurable

def withoutTarget : Dict Json :=
  dropKey "environment_target_version" (dropKey "environment_target" configurable)

/-- The snapshot that is kept, or else the one that was resolved. -/
def keptSnapshot (preserveSnapshot : Bool) (configurable resolved : Dict Json) :
    Handler (Dict Json) :=
  match preserveSnapshot, configurable.value "test_scope_snapshot" with
  | false, _ => pure resolved
  | true, .null => pure resolved
  | true, v => someOr ⟨500, "AttributeError"⟩ v.dict?

/-- The configurable of a run through the participants of a test scope. -/
def bindParticipants (topology : TestScopeV1) (snapshot configurable : Dict Json) : Dict Json :=
  let configurable := (configurable.set "test_scope_snapshot" (.ofDict snapshot)).set
    "environment_id"
    ((topology.trafficEntry.map fun entry => Json.str entry.environmentId.value).getD .null)
  setExecutionTarget snapshot (withoutTarget configurable)

/-- `ensure_run_environment`, for a test scope. -/
def ensureParticipantsOf (preserveSnapshot : Bool)
    (value : RunsCreate) : Handler (RunsCreate × Option Condition) := do
  let topology ← someOr ⟨500, "ValidationError"⟩
    (modelValidate (value.configurable.value "test_scope"))
  let effective ← someOr ⟨500, "ValidationError"⟩ (configurableSnapshot world.schema
    (dropKey "test_scope_snapshot" (applicationConfig value.configurable)))
  let resolved ← resolveTestScope world.contexts identity topology (executesLive effective)
  let snapshot ← keptSnapshot preserveSnapshot value.configurable resolved
  let metadata := value.metadata.set "test_scope" (.ofDict (scopeDict topology.participants
    topology.primaryParticipantId topology.trafficEntryParticipantId))
  let project := topology.primary.projectId.value
  let app := topology.primary.applicationId.value
  pure (stampRunScope project (some app)
      { value with
        configurable := bindParticipants topology snapshot value.configurable
        metadata := metadata },
    some (metadataFilter project (some app)))

/-- The owner of an environment, and its target unless the engine is the simulator. -/
def resolveEnvironment (environmentId : String) (project app : Option String)
    (engine : Json) : Handler (String × Option (String × Int)) :=
  if engine == .str "sim" then do
    let owner ← lookedUp (world.environmentContext environmentId project app)
    pure (owner, none)
  else do
    let (target, version, owner) ← lookedUp (world.environmentTarget environmentId project app)
    pure (owner, some (target, version))

/-- What is written of the target of an environment. -/
def setTarget (target : Option (String × Int)) (configurable : Dict Json) : Dict Json :=
  match target with
  | none => configurable
  | some (target, version) => (configurable.set "environment_target" (.str target)).set
      "environment_target_version" (.int version)

/-- The project and the app of the environment, of which the owner is authoritative. -/
def environmentScope (project app : Option String)
    (owner : String) : Handler (String × String) := do
  match project, ← projectId (.str owner) with
  | some project, some authoritative => do
      raiseIf (app.isSome && app != some authoritative) ⟨404, "Environment target not found"⟩
      let _ ← requireLanggraphScope identity project (some authoritative)
      pure (project, authoritative)
  | _, _ => throw ⟨404, "Environment target not found"⟩

def ensureEnvironmentOf (environmentId : String)
    (value : RunsCreate) : Handler (RunsCreate × Option Condition) := do
  let project ← projectId (value.configurable.value "project_id")
  let app ← projectId (value.configurable.value "app_id")
  let (owner, target) ←
    resolveEnvironment world environmentId project app (value.configurable.value "engine")
  let (project, app) ← environmentScope identity project app owner
  pure (stampRunScope project (some app)
      { value with configurable := setTarget target value.configurable },
    some (metadataFilter project (some app)))

def ensureRunEnvironment (preserveSnapshot : Bool)
    (value : RunsCreate) : Handler (RunsCreate × Option Condition) := do
  checkLoadTest value.configurable
  if truthy (value.configurable.value "test_scope") then
    ensureParticipantsOf world identity preserveSnapshot value
  else
    -- The target is server-owned: what a caller says of it is discarded.
    let value := { value with configurable := withoutTarget value.configurable }
    match ← projectId (value.configurable.value "environment_id") with
    | none => pure (value, none)
    | some environmentId => ensureEnvironmentOf world identity environmentId value

/-- The refusal of a scope that is not that of the thread. -/
def scopeDiffers : HttpException :=
  ⟨409, "Run scope differs from the immutable thread scope; create a new test"⟩

def verifyPersistedTestScope (threadId : String) (scope : TestScopeV1) : Handler Unit := do
  let key ← match Services.TestScope.threadKey threadId with
    | .ok key => pure key
    | .error _ => throw ⟨500, "ValueError"⟩
  raiseIf (!Services.TestScope.allowsTestScope identity scope)
    (denied "Access to every test participant is required")
  let saved ← match Services.TestScope.verifiedBinding world.digest (world.binding key)
      (world.participants key) with
    | .ok saved => pure saved
    | .error _ => throw scopeDiffers
  raiseIf (Services.TestScope.canonicalScope saved != Services.TestScope.canonicalScope scope)
    scopeDiffers

/-- The first part of the hook: what is checked before the tenant is known. -/
def prepareRun : Handler (String × RunsCreate) := do
  ensureOperator identity
  world.checkPersisted value
  rejectUntrustedLaunchMetadata value.metadata trustedLoopback
  let value := { value with metadata := serverMetadata identity value.metadata }
  let value ← ensureRunControls world identity trustedLoopback trustedLoopback value
  let (graph, value) ← materializeNativeLaunchDefaults world trustedLoopback value
  world.checkPersisted value
  let value ← ensureRunControls world identity trustedLoopback true value
  pure (graph, value)

/-- Whether a field is set on the configurable or in the context. -/
def supplied (field : String) : Bool :=
  value.configurable.value field != .null || (value.context.getD ∅).value field != .null

def standalone : Bool := graph == "context" || graph == "playground"

/-- What a request that is made directly may not bring along. -/
def refuseServerOwned : Handler RunsCreate := do
  raiseIf (supplied value "rerun_phases") ⟨422, "rerun_phases is server-owned"⟩
  raiseIf (supplied value "prompt_manifest") ⟨422, "prompt_manifest is server-owned"⟩
  raiseIf (supplied value "aifx_snapshot") ⟨422, "aifx_snapshot is server-owned"⟩
  raiseIf (!standalone graph && value.configurable.value "test_scope" == .null)
    ⟨422, "test_scope is required for new pipeline launches"⟩
  pure value

def verifyThreadScope :
    Handler Unit :=
  if truthy (value.configurable.value "test_scope") then
    match value.threadId with
    | .str thread => do
        raiseIf thread.isEmpty ⟨422, "Create a thread with test_scope before launching"⟩
        let scope ← someOr ⟨500, "ValidationError"⟩
          (modelValidate (value.configurable.value "test_scope"))
        verifyPersistedTestScope world identity thread scope
    | _ => throw ⟨422, "Create a thread with test_scope before launching"⟩
  else pure ()

/-- The environment, unless a trusted caller brings a binding of a cycle along. -/
def bindRun : Handler (RunsCreate × Option Condition) :=
  if trustedLoopback && truthy (value.configurable.value "cycle_dispatch_id") then
    pure (value, none)
  else do
    ensureCatalogAppScope world.application
      [(value.input.getD ∅).value "app_id", value.configurable.value "app_id",
        value.metadata.value "app_id"]
      [(value.input.getD ∅).value "project_id", value.configurable.value "project_id",
        value.metadata.value "project_id"]
    ensureRunEnvironment world identity trustedLoopback value

/-- Every application setting is written out, the absent ones too. -/
def pinConfiguration : Handler RunsCreate := do
  let snapshot ← someOr ⟨500, "ValidationError"⟩
    (configurableSnapshot world.schema (applicationConfig value.configurable))
  let configurable := value.configurable.update snapshot
  pure { value with
    configurable := match nonempty? value.assistantId with
      | some assistant => configurable.set "assistant_id" (.str assistant)
      | none => configurable }

/-- Whether a run continues one that was interrupted. -/
def continuing : Bool :=
  (mapping value.arguments "command").has "resume" && value.input.isNone

/-- The validated configuration, which the services that prepare a run are given. -/
def validated (invalid : HttpException) (value : RunsCreate) :
    Handler (Dict Json) :=
  someOr invalid (configurableSnapshot world.schema (applicationConfig value.configurable))

/-- A field is written to the configurable, and to the context if there is one. -/
def setBoth (key : String) (v : Json) (value : RunsCreate) : RunsCreate :=
  { value with
    configurable := value.configurable.set key v
    context := value.context.map (·.set key v) }

/-- The pinned context of the applications of a new run. -/
def prepareAifx (graph : String) (value : RunsCreate) : Handler RunsCreate :=
  if !trustedLoopback && !continuing value && !standalone graph
      && value.configurable.value "aifx_snapshot" == .null then do
    let config ← validated world ⟨503, "AIFx context could not be pinned; retry later"⟩ value
    match ← world.aifxSnapshot config with
    | some snapshot => pure (setBoth "aifx_snapshot" snapshot value)
    | none => pure { value with context := value.context.map (·.set "aifx_snapshot" .null) }
  else pure value

/-- The prompts a run was asked to use, frozen. -/
def preparePrompts : Handler RunsCreate :=
  if value.configurable.value "prompt_selections" != .null
      && value.configurable.value "prompt_manifest" == .null then do
    let config ← validated world ⟨500, "ValidationError"⟩ value
    let manifest ← world.promptManifest config (value.input.getD ∅)
    pure (setBoth "prompt_manifest" manifest value)
  else pure value

def checkAnalysis : Handler Unit :=
  if !continuing value && value.configurable.value "analysis" != .null then do
    let config ← validated world
      ⟨422, "Analysis configuration is unavailable or incompatible"⟩ value
    world.analysisReady config
  else pure ()

/-- `check_configurable_size`, of a new run of the pipeline. -/
def checkLaunchSize (graph : String) (value : RunsCreate) : Handler Unit :=
  if !trustedLoopback && !continuing value && !standalone graph then
    world.checkSize value.configurable
  else pure ()

def stampActor : RunsCreate :=
  { value with
    configurable := (value.configurable.set "langgraph_auth_user_id"
      (.str identity.consumerId)).set runtimeActorIdKey (.str identity.consumerId) }

/-- The context carries the same settings as the configurable. -/
def alignContext : RunsCreate :=
  { value with
    context := value.context.map fun context =>
      (context.update (applicationConfig value.configurable)).set runtimeActorIdKey
        (.str identity.consumerId) }

/-- The services that prepare a run, once its configuration is settled. -/
def prepareServices (graph : String) (value : RunsCreate) : Handler RunsCreate := do
  checkAnalysis world value
  let models ← world.admitModels (value.configurable.value "model_by_phase")
    (value.configurable.value "phase_execution") (value.configurable.value "rerun_phases")
    (nonempty? value.threadId) (continuing value)
  let value ← prepareAifx world trustedLoopback graph value
  let value ← preparePrompts world value
  checkLaunchSize world trustedLoopback graph value
  pure (alignContext identity (stampActor identity (setBoth "model_by_phase" models value)))

/-- The hook up to the last check of the configuration: the graph, the request, and the condition
    on its thread. -/
def settleRun : Handler (String × RunsCreate × Option Condition) := do
  let (graph, value) ← prepareRun world identity trustedLoopback value
  let (value, ofScope) ← ensureRunScope identity value
  let value ← unlessTrusted trustedLoopback (refuseServerOwned graph) value
  verifyThreadScope world identity value
  let (value, bound) ← bindRun world identity trustedLoopback value
  let value ← ensureRunControls world identity trustedLoopback true value
  pure (graph, value, bound.or ofScope)

/-- `on_threads_create_run`: the request as it is run, and the filter of the thread. -/
def onThreadsCreateRun : Handler (RunsCreate × HandlerResult) := do
  let (graph, value, condition) ← settleRun world identity trustedLoopback value
  let value ← unlessTrusted trustedLoopback (pinConfiguration world) value
  let value ← prepareServices world identity trustedLoopback graph value
  let result := match condition with
    | none => HandlerResult.unrestricted
    | some condition => .filtered ⟨condition, none⟩
  pure (value, if trustedLoopback then result else requireDirectRunsAllowed result)

end Apex.Auth.Handlers
