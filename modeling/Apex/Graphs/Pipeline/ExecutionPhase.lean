import Apex.Core.Program
import Apex.Domain.LoadTestSpec
import Apex.Graphs.Pipeline.Configurable
import Apex.Graphs.Pipeline.State
import Apex.Services.EngineRuns

/-!
# The Execution Spine: Provision and Start

The nodes that create and start a run at an execution provider. Each node reads
the checkpoint it is called with, asks the world a few things and returns a
command: where the graph goes next and what is written to the checkpoint. It may
also raise, which leaves the checkpoint as it was.

A node is a `Program`: it is the code from one request to the next, with the
answer it was given. An exception of a call is an answer as well, and is kept as
the text a diagnostic shows of it. What a provider returns is either the value
its validation accepted or the exception of the same call, except for handles,
which nodes validate themselves.

The reservation and the upsert are requests too; `Services.prepareEngineProvision`
and its siblings are what answers them.

## Main definitions

* `EngineRequest`, `EngineRequest.Answer`: What a node can ask.
* `NodeCall`: What a node is called with.
* `engineProvision`, `engineStart`: The nodes.
-/

namespace Apex.Graphs

open Domain Services

/-- A connection resolved to an adapter. `approvedScripts` says whether the
    adapter takes an approved source. -/
structure ResolvedAdapter where
  connectionId : String
  connectionVersion : Option Instant
  persisted : Bool
  approvedScripts : Bool

structure ValidationReport where
  ok : Bool
  issues : List String

structure EnvironmentTarget where
  baseUrl : String
  version : Int
  appId : String

/-- The answer to a status request: a phase, the definitive answer that the
    provider knows no such run, or another exception. -/
inductive StatusAnswer where
  | status (phase : EngineRunPhase) (sample : Dict Json)
  | notFound
  | failed (error : String)

inductive EngineRequest where
  | resolveTarget (environmentId projectId appId : Option String)
  | loadDispatchBinding (attempt : Int) (readSource : Bool)
  | resolveEngine (connectionId projectId : Option String) (engine : String) (options : Dict Json)
  | validate (spec : LoadTestSpec) (source : Option String)
  | provision (spec : LoadTestSpec) (source : Option String)
  | start (handle : EngineHandle)
  | abort (handle : EngineHandle) (reason : String)
  | getStatus (handle : EngineHandle)
  | teardown (handle : EngineHandle)
  | prepareProvision (a : ReservationArgs)
  | prepareStart (a : ReservationArgs)
  | record (a : RecordArgs)

/-- The answers to a request. A provider may change the handle it is given, so
    `start` and `abort` answer with the handle as they left it. -/
@[reducible] def EngineRequest.Answer : EngineRequest → Type
  | resolveTarget _ _ _ => Except String EnvironmentTarget
  | loadDispatchBinding _ _ => Except String (LoadTestSpec × Option String)
  | resolveEngine _ _ _ _ => Except String ResolvedAdapter
  | validate _ _ => Except String ValidationReport
  | provision _ _ => Except String Json
  | start _ => Option String × Json
  | abort _ _ => Except String Json
  | getStatus _ => StatusAnswer
  | teardown _ => Except String Unit
  | prepareProvision _ => Except ProjectionFailure (Option (Dict Json))
  | prepareStart _ => Except ProjectionFailure (Option (Dict Json))
  | record _ => Except ProjectionFailure Unit

abbrev Steps := Program EngineRequest EngineRequest.Answer

abbrev ask (r : EngineRequest) : Steps r.Answer := Program.request r

/-- The text a diagnostic shows of an exception of the engine-run table. -/
def renderFailure : ProjectionFailure → String
  | .rejected message => s!"EngineRunReservationRejectedError: {message}"
  | .invalid message => s!"ValueError: {message}"
  | .unavailable message => s!"EngineRunProjectionError: {message}"

/-- What the nodes take from other modules and from the language: the parts of
    `ProjectionEnv`, and the ISO form of a moment and what it is read back as,
    with whether it names a time zone. -/
structure ExecutionEnv extends ProjectionEnv where
  isoformat : Instant → String
  fromisoformat : String → Option (Instant × Bool)

/-- The part of the checkpoint the spine reads. -/
structure PipelineState where
  phaseResults : PhaseResults
  engineHandle : Json
  title : Json

structure NodeCall where
  cfg : PipelineConfigurable
  threadId : String
  isLockedDown : Bool
  utcnow : String
  newId : FreshId
  state : PipelineState

def PipelineState.entryOf (state : PipelineState) (phase : Phase) : PhaseEntry :=
  (state.phaseResults.get? phase.value).getD ∅

variable (env : ExecutionEnv) (c : NodeCall) (value : Json) (r : ProvisionRead) (h : EngineHandle)
  (connectionId : String) (resolved : ResolvedAdapter)

def NodeCall.entry : PhaseEntry := c.state.entryOf .execution

inductive Node where
  | engineProvision
  | engineProvisionBlocked
  | engineStart
  | engineStatus
  | engineCleanup
  | finalize
  deriving DecidableEq, Repr

/-- What a node returns: the next node, the update of the execution entry, and
    that of the handle channel. -/
structure Command where
  goto : Node
  entry : PhaseEntry
  engineHandle : Option Json := none

/-- A literal of a dictionary: a later item replaces an earlier one. -/
def dictOf (items : List (String × Json)) : Dict Json :=
  items.foldl (fun d item => d.set item.1 item.2) ∅

def updateOf (attempt : Int) (fields : List (String × Json)) : PhaseEntry :=
  dictOf (("attempt", .int attempt) :: fields)

def checkpointInt (label : String) (default minimum maximum : Int) :
    Except String Int :=
  match value with
  | .null => .ok default
  | .int n =>
    if minimum ≤ n ∧ n ≤ maximum then .ok n
    else .error s!"ValueError: checkpointed {label} is invalid"
  | _ => .error s!"ValueError: checkpointed {label} is invalid"

/-- A count, with the bounds that hold where none are given. -/
def checkpointCount (label : String) : Except String Int :=
  checkpointInt value label 0 0 1000000

def checkpointFlag (entry : PhaseEntry) (field : String) : Except String Bool :=
  match entry.value field with
  | .null => .ok false
  | .bool b => .ok b
  | _ => .error s!"ValueError: checkpointed {field} flag is invalid"

def executionAttempt (entry : PhaseEntry) : Except String Int :=
  checkpointInt (entry.value "attempt") "execution attempt" 1 1 1000000

/-- Whether a text is silent under the default scan. -/
def cleanText (rules : CredentialRules) (s : String) : Bool :=
  !containsCredentialMaterial rules plainScanLimits (.str s)

def threadIdOf (threadId : String) : Except String String := do
  raiseIf (threadId == "" || threadId != strip threadId || 255 < threadId.length
      || hasNul threadId || !cleanText env.rules threadId)
    "ValueError: execution phase requires a safe durable thread_id; stateless execution is not allowed"
  pure threadId

def safeConnectionId (rules : CredentialRules) (s : String) : Bool :=
  1 ≤ s.length && s.length ≤ 256 && s == strip s && !hasNul s && cleanText rules s

def checkpointTimestampOrNow : String :=
  match value with
  | .str s =>
    if 1 ≤ s.length && s.length ≤ 64 && !hasNul s && cleanText env.rules s
        && (env.fromisoformat s).any (fun parsed => parsed.2) then s
    else c.utcnow
  | _ => c.utcnow

def engineOptionFields (engine : String) : List String :=
  if engine = "loadrunner" then ["abortive_stop", "test_id", "test_instance_id"]
  else if engine = "sim" then ["fail_at_pct"]
  else []

def validateEngineOptions (engine : String) (options : Dict Json) :
    Except String Unit :=
  let unsupported := options.keys.filter (fun k => !(engineOptionFields engine).contains k)
  let shown := ", ".intercalate (unsupported.mergeSort (fun a b => decide (a ≤ b)))
  raiseIf (!unsupported.isEmpty)
    s!"ValueError: unsupported load_test engine option(s) for {env.reprText engine}: {shown}"

/-- Whether a value can be an option of an engine. -/
def optionValueOk : Json → Bool
  | .null => true
  | .bool _ => true
  | .int n => bitLength n ≤ 128
  | .float x => x.isFinite
  | .str s => s.length ≤ 2048 && !hasNul s
  | _ => false

def engineOptions (entry : PhaseEntry) (engine : String) :
    Except String (Dict Json) :=
  match (if entry.value "engine_options" = .null then some ∅
    else (entry.value "engine_options").dict?) with
  | none => .error "ValueError: checkpointed engine options are invalid"
  | some options => do
      raiseIf (16 < options.length
          || options.keys.any (fun k => k == "" || 64 < k.length || hasNul k))
        "ValueError: checkpointed engine options are invalid"
      raiseIf (!options.items.all (fun kv => optionValueOk kv.2))
        "ValueError: checkpointed engine options are invalid"
      raiseIf (containsCredentialMaterial env.rules handleScanLimits (.ofDict options))
        "ValueError: checkpointed engine options contain credential material"
      validateEngineOptions env engine options
      pure options

def providerText (maxChars : Nat) : Json → Bool
  | .str s => s.length ≤ maxChars && !hasNul s
  | _ => false

/-- The same for a text that may be `None`. -/
def optionalProviderText (maxChars : Nat) : Json → Bool
  | .null => true
  | v => providerText maxChars v

/-- The structural checks on a handle from outside: its fields are known, `engine`
    is there, and every text is within bounds. -/
def handlePayloadOk (d : Dict Json) : Bool :=
  d.keys.all EngineHandle.fields.contains && d.has "engine" && providerText 64 (d.value "engine")
    && optionalProviderText 256 (d.value "connection_id")
    && optionalProviderText 255 (d.value "external_run_id")
    && providerText 256 ((d.get? "idempotency_key").getD (.str ""))
    && (((d.get? "extras").getD (.ofDict ∅)).dict?).any (fun extras =>
      extras.length ≤ 32 && extras.keys.all (fun k => k != "" && k.length ≤ 64 && !hasNul k)
        && extras.items.all (fun kv => providerText 2048 kv.2))

/-- `EngineHandle.model_construct`: the handle of a payload that passed the
    structural checks, without validation. -/
def modelConstruct (newId : FreshId) (d : Dict Json) : EngineHandle where
  engine := (handleText d "engine").getD ""
  connectionId := handleText d "connection_id"
  externalRunId := handleText d "external_run_id"
  idempotencyKey := (handleText d "idempotency_key").getD newId.text
  extras := (((d.value "extras").dict?).getD ∅).map (fun _ v => textValue v)

/-- `_validated_engine_handle`. A handle with credential material is accepted only
    to compensate the run that was just created under it. -/
def validatedEngineHandle (newId : FreshId) (allowCredentialMaterial : Bool)
    (value : Json) : Except String EngineHandle :=
  match value.dict? with
  | none => .error "ValueError: engine handle is invalid"
  | some d => do
      raiseIf (!handlePayloadOk d) "ValueError: engine handle is invalid"
      -- The scan sees the extras that default to an empty object.
      let payload := d.set "extras" ((d.get? "extras").getD (.ofDict ∅))
      let hasCredentials :=
        containsCredentialMaterial env.rules handleScanLimits (.ofDict payload)
      raiseIf (hasCredentials && !allowCredentialMaterial)
        "ValueError: engine handle must not contain credential material"
      if hasCredentials then pure (modelConstruct newId payload)
      else
        match EngineHandle.modelValidate env.rules newId payload with
        | none => .error "ValueError: engine handle is invalid"
        | some h => pure h

/-- `_validated_started_handle`: what a provider may change of a handle. -/
def validatedStartedHandle (newId : FreshId) (allowCredentialMaterial : Bool) (value : Json)
    (trusted : EngineHandle) : Except String EngineHandle := do
  let candidate ← validatedEngineHandle env newId allowCredentialMaterial value
  pure { candidate with
    engine := trusted.engine, connectionId := trusted.connectionId
    idempotencyKey := trusted.idempotencyKey }

def unsafeHandle : Bool :=
  containsCredentialMaterial env.rules plainScanLimits (.ofDict h.modelDump)

def handleJson : Json := .ofDict h.modelDump

/-- The handle of one channel, if it holds one. -/
def channelHandle (newId : FreshId) (raw : Json) :
    Except String (Option EngineHandle) :=
  if raw = .null then .ok none else some <$> validatedEngineHandle env newId false raw

/-- `_handle_from`: the checkpointed handle. The two channels must agree. -/
def handleFrom : Except String EngineHandle := do
  let topLevel ← channelHandle env c.newId c.state.engineHandle
  let nested ← channelHandle env c.newId (c.entry.value "engine_handle")
  match topLevel, nested with
  | none, none =>
    .error
      "ValueError: execution phase: engine_handle missing from state (engine_start must run first)"
  | some h, none => .ok h
  | none, some h => .ok h
  | some top, some h => do
      raiseIf (top != h) "ValueError: checkpointed execution handles are inconsistent"
      pure h

/-- Whether a text can be the ISO form of a version at all. -/
def versionTextOk (s : String) : Bool :=
  1 ≤ s.length && s.length ≤ 64 && !hasNul s && cleanText env.rules s

/-- The version a checkpoint names, once its connection is known. -/
def checkpointedVersion (persisted : Bool) :
    Json → Except String (Option Instant)
  | .null => do
      raiseIf persisted "RuntimeError: persisted execution affinity has no checkpointed version"
      pure none
  | .str s => do
      raiseIf (!persisted || !versionTextOk env s)
        "RuntimeError: checkpointed execution connection version is inconsistent"
      match env.fromisoformat s with
      | none => .error "RuntimeError: checkpointed execution connection version is malformed"
      | some (version, zoned) => do
          raiseIf (!zoned) "RuntimeError: checkpointed execution connection version has no timezone"
          pure (some version)
  | _ => .error "RuntimeError: checkpointed execution connection version is inconsistent"

/-- Whether a checkpointed connection is the one of a handle. -/
def sameConnection (connectionId : Json) (h : EngineHandle) : Bool :=
  connectionId == textJson h.connectionId

/-- A connection as it stands in the checkpoint: a safe text, or nothing. -/
def connectionIdOk (rules : CredentialRules) : Json → Bool
  | .null => true
  | .str s => safeConnectionId rules s
  | _ => false

/-- `_connection_reservation_affinity`: the connection and the generation a
    checkpointed run is bound to, if its affinity was staged. -/
def connectionReservationAffinity :
    Except String (Option String × Option Instant) :=
  match c.entry.value "engine_connection_affinity_staged" with
  | .bool true => do
      raiseIf (!connectionIdOk env.rules (c.entry.value "engine_connection_id"))
        "RuntimeError: checkpointed execution connection id is invalid"
      raiseIf (!sameConnection (c.entry.value "engine_connection_id") h)
        "RuntimeError: checkpointed execution handle does not match its connection affinity"
      let persisted ← checkpointFlag c.entry "engine_connection_persisted"
      raiseIf (c.isLockedDown && !persisted) "EngineConnectionAffinityMissingError"
      let version ← checkpointedVersion env persisted (c.entry.value "engine_connection_version")
      pure (h.connectionId, version)
  | .bool false => do
      raiseIf c.isLockedDown "EngineConnectionAffinityMissingError"
      pure (none, none)
  | .null => do
      raiseIf c.isLockedDown "EngineConnectionAffinityMissingError"
      pure (none, none)
  | _ => .error "RuntimeError: checkpointed execution affinity flag is invalid"

def executionEngineKind : String := "execution_engine"

/-- The connection the configuration names for execution. -/
def configuredConnection (cfg : PipelineConfigurable) : Option String :=
  cfg.connections.get? executionEngineKind

def resolveEngine (c : NodeCall) (options : Dict Json) (connectionId : Option String) :
    Steps (Except String ResolvedAdapter) :=
  ask (.resolveEngine ((connectionId.filter (· != "")).or (configuredConnection c.cfg))
    c.cfg.trafficProjectId c.cfg.engine options)

/-- What `_resolve_engine_for_runtime_io` checks of a resolved connection. -/
def checkRuntimeResolution (expected : Option String) (version : Option Instant)
    (resolved : ResolvedAdapter) : Except String ResolvedAdapter := do
  raiseIf (expected.any (fun id => !safeConnectionId env.rules id))
    "RuntimeError: checkpointed execution connection id is invalid"
  let staged ← checkpointFlag c.entry "engine_connection_affinity_staged"
  let persisted ← checkpointFlag c.entry "engine_connection_persisted"
  raiseIf (!safeConnectionId env.rules resolved.connectionId)
    "RuntimeError: execution resolver returned an invalid connection id"
  raiseIf (expected.any (fun id => resolved.connectionId != id))
    "RuntimeError: execution resolver did not honor checkpointed connection affinity"
  raiseIf (staged && (resolved.persisted != persisted || resolved.connectionVersion != version))
    "RuntimeError: execution connection changed after its checkpointed affinity reservation"
  pure resolved

/-- `_resolve_engine_for_runtime_io`: resolve the connection a handle is bound to,
    in exactly its checkpointed generation. -/
def resolveEngineForRuntimeIo (options : Dict Json) (h : EngineHandle)
    (connectionId : Option String) (version : Option Instant) :
    Steps (Except String ResolvedAdapter) := do
  let bound := (connectionId.filter (· != "")).or h.connectionId
  let named := h.connectionId.filter (· != "")
  let resolved ← ask (.resolveEngine ((bound.filter (· != "")).or (configuredConnection c.cfg))
    c.cfg.trafficProjectId (if named.isSome then h.engine else c.cfg.engine) options)
  pure (resolved.bind (checkRuntimeResolution env c bound version))

/-- Whether a status answer shows that a provider run has ended. -/
def provesEnded : StatusAnswer → Except Unit Unit
  | .status phase _ => raiseIf (!phase.isTerminal) ()
  | .notFound => .ok ()
  | .failed _ => .error ()

/-- `_compensate_unsafe_provision`: abort a run whose handle may not be stored,
    confirm that it ended and release it. -/
def compensateUnsafeProvision : Steps (Except Unit Unit) := do
  match ← ask (.abort h "provider returned an unsafe durable handle") with
  | .error _ => pure (.error ())
  | .ok _ =>
    match provesEnded (← ask (.getStatus h)) with
    | .error _ => pure (.error ())
    | .ok _ =>
      match ← ask (.teardown h) with
      | .error _ => pure (.error ())
      | .ok _ => pure (.ok ())

/-- What the first lines of `engine_provision` read. -/
structure ProvisionRead where
  attempt : Int
  threadId : String
  spec : LoadTestSpec
  options : Dict Json
  deriving DecidableEq

def provisionRead : Except String ProvisionRead := do
  let attempt ← executionAttempt c.entry
  let threadId ← threadIdOf env c.threadId
  let spec ← validatedCheckpointSpec env.rules (c.entry.value "load_test_spec")
  let options ← engineOptions env c.entry c.cfg.engine
  pure ⟨attempt, threadId, spec, options⟩

def maxEngineProvisionAttempts : Int := 3

/-- What a retry writes over an affinity that cannot be used. -/
def clearedAffinity : List (String × Json) :=
  [("engine_connection_id", .null), ("engine_connection_version", .null),
    ("engine_connection_persisted", .bool false),
    ("engine_connection_affinity_staged", .bool false)]

/-- `_retry_provision`: keep the reservation and try again with the same key, or
    wait for an operator once the budget is used up. -/
def retryProvision (attempt : Int) (error : String)
    (fields : List (String × Json)) : Except String Command := do
  let failures ← checkpointCount (c.entry.value "engine_provision_failures")
    "engine provision failure count"
  let failures := failures + 1
  let detail := boundedDiagnostic env.rules error 2048
  let message := boundedDiagnostic env.rules
    s!"engine provisioning failed ({failures}/{maxEngineProvisionAttempts}): {detail}" 4096
  let blocked : Bool := maxEngineProvisionAttempts ≤ failures
  pure
    { goto := if blocked then .engineProvisionBlocked else .engineProvision
      entry := updateOf attempt
        ([("status", .str PhaseStatus.running.value), ("engine_provision_required", .bool true),
          ("engine_provision_blocked", .bool blocked), ("engine_provision_failures", .int failures),
          ("engine_provision_last_error", .str message)] ++ fields) }

/-- What the checkpoint says about the connection: it cannot be used, it is yet to
    be staged, or it is staged. -/
inductive Affinity where
  | unusable (error : String) (fields : List (String × Json))
  | unstaged (connectionId : Option String)
  | staged (connectionId : String) (version : Option String) (persisted : Bool)
  deriving DecidableEq

/-- The version text of a staged affinity, if it is well formed. -/
def stagedVersion : Json → Option (Option String)
  | .null => some none
  | .str s =>
    if versionTextOk env s && (env.fromisoformat s).any (fun parsed => parsed.2) then
      some (some s)
    else none
  | _ => none

def stagedAffinity :
    Option String → Except String Affinity
  | none =>
    .ok (.unusable "_DefinitiveProvisionError: staged execution connection affinity is missing" [])
  | some connectionId =>
    match stagedVersion env (c.entry.value "engine_connection_version") with
    | none =>
      .ok (.unusable "_DefinitiveProvisionError: staged execution connection version is malformed"
        clearedAffinity)
    | some version => do
        let persisted ← checkpointFlag c.entry "engine_connection_persisted"
        if c.isLockedDown && !persisted then
          pure (.unusable
            "_DefinitiveProvisionError: locked execution affinity has no durable connection generation"
            clearedAffinity)
        else pure (.staged connectionId version persisted)

/-- The affinity the checkpoint holds, before the provider is asked. -/
def checkpointedAffinity : Except String Affinity :=
  if connectionIdOk env.rules (c.entry.value "engine_connection_id") then do
    let connectionId := handleText c.entry "engine_connection_id"
    let staged ← checkpointFlag c.entry "engine_connection_affinity_staged"
    if staged then stagedAffinity env c connectionId else pure (.unstaged connectionId)
  else
    pure (.unusable "_DefinitiveProvisionError: checkpointed execution connection id is malformed"
      clearedAffinity)

/-- What `_stage_connection_affinity` checks of a resolved connection. -/
def checkStaged (connectionId : Option String)
    (resolved : ResolvedAdapter) : Except String ResolvedAdapter := do
  raiseIf (!safeConnectionId env.rules resolved.connectionId)
    "RuntimeError: resolved execution connection has no valid durable id"
  raiseIf (connectionId.any (fun id => resolved.connectionId != id))
    "RuntimeError: execution resolver did not honor checkpointed connection affinity"
  raiseIf (resolved.persisted && resolved.connectionVersion.isNone)
    s!"RuntimeError: persisted execution connection {env.reprText resolved.connectionId} has no version"
  raiseIf (c.isLockedDown && !resolved.persisted)
    "RuntimeError: locked execution requires a durable connection generation"
  pure resolved

/-- Stamp the resolved connection into the checkpoint. No provider is asked in
    this step, so a retry cannot drift to another default. -/
def stageConnectionAffinity (connectionId : Option String) : Steps (Except String Command) := do
  let answer ← resolveEngine c r.options connectionId
  match answer.bind (checkStaged env c connectionId) with
  | .error e => pure (retryProvision env c r.attempt e [])
  | .ok resolved =>
    pure do
      let failures ← checkpointCount (c.entry.value "engine_provision_failures")
        "engine provision failure count"
      pure
        { goto := .engineProvision
          entry := updateOf r.attempt
            [("status", .str PhaseStatus.running.value),
              ("engine_connection_id", .str resolved.connectionId),
              ("engine_connection_version",
                textJson (resolved.connectionVersion.map env.isoformat)),
              ("engine_connection_persisted", .bool resolved.persisted),
              ("engine_connection_affinity_staged", .bool true),
              ("engine_provision_required", .bool true),
              ("engine_provision_blocked", .bool false),
              ("engine_provision_failures", .int failures)] }

/-- The exceptions of `_provision`, by how the node takes them. -/
inductive ProvisionFailure where
  | rejected (error : String)
  | definitive (error : String)
  | ambiguous (error : String)

/-- What `_provision` returns: the issues of a rejected specification, or a handle
    with whether the projection holds it already. -/
inductive Provisioned where
  | issues (issues : List String)
  | handle (h : EngineHandle) (alreadyProjected : Bool)

/-- How the node takes an exception of the engine-run table. -/
def provisionFailure : ProjectionFailure → ProvisionFailure
  | .rejected message => .rejected (renderFailure (.rejected message))
  | failure => .ambiguous (renderFailure failure)

/-- Whether a resolved connection is the staged one. -/
def isStaged (version : Option String) (persisted : Bool) (resolved : ResolvedAdapter) : Bool :=
  safeConnectionId env.rules resolved.connectionId && resolved.connectionId == connectionId
    && resolved.persisted == persisted
    && resolved.connectionVersion.map env.isoformat == version

def provisionReservation (version : Option Instant)
    (artifactNamespace : String) : ReservationArgs where
  threadId := r.threadId
  attempt := r.attempt
  engine := c.cfg.engine
  handle := dictOf [("engine", .str c.cfg.engine), ("connection_id", .str connectionId),
    ("idempotency_key", .str r.spec.idempotencyKey), ("extras", .ofDict ∅)]
  projectId := c.cfg.projectId
  appId := c.cfg.appId
  artifactNamespace := some artifactNamespace
  connectionId := some connectionId
  connectionVersion := version

/-- A provider's handle with the identity the checkpoint fixes. -/
def trustedHandle (h : EngineHandle) :
    EngineHandle :=
  { h with
    engine := c.cfg.engine, connectionId := some connectionId
    idempotencyKey := r.spec.idempotencyKey }

/-- What becomes of a handle a provider created: one that may not be stored is
    compensated. -/
def provisionedHandle (raw : Json) : Steps (Except ProvisionFailure Provisioned) :=
  match validatedEngineHandle env c.newId true raw with
  | .error e => pure (.error (.ambiguous e))
  | .ok h =>
    if unsafeHandle env h then do
      match ← compensateUnsafeProvision (trustedHandle c r connectionId h) with
      | .error _ =>
        pure (.error (.ambiguous
          "RuntimeError: unsafe engine handle compensation could not be confirmed"))
      | .ok _ =>
        pure (.error (.definitive
          "_DefinitiveProvisionError: execution engine returned an unsafe handle; remote run was compensated"))
    else pure (.ok (.handle (trustedHandle c r connectionId h) false))

/-- Ask the provider to validate the specification and to create its run. -/
def validateAndProvision (source : Option String) :
    Steps (Except ProvisionFailure Provisioned) := do
  match ← ask (.validate r.spec source) with
  | .error e => pure (.error (.ambiguous e))
  | .ok report =>
    if report.ok then do
      match ← ask (.provision r.spec source) with
      | .error e => pure (.error (.ambiguous e))
      | .ok raw => provisionedHandle env c r connectionId raw
    else pure (.ok (.issues report.issues))

/-- The provider calls of `_provision`. A run of a cycle first has its contract
    read back. -/
def provisionProvider :
    Steps (Except ProvisionFailure Provisioned) :=
  if c.cfg.cycleDispatchId.isSome then do
    match ← ask (.loadDispatchBinding r.attempt true) with
    | .error e => pure (.error (.ambiguous e))
    | .ok (spec, source) =>
      if spec != r.spec || !resolved.approvedScripts || source.isNone then
        pure (.error (.definitive
          "_DefinitiveProvisionError: Cycle source execution contract is unavailable or changed"))
      else validateAndProvision env c r connectionId source
  else validateAndProvision env c r connectionId none

/-- `_provision` after the resolved connection was compared with the staged one. -/
def reserveAndProvision :
    Steps (Except ProvisionFailure Provisioned) :=
  match engineArtifactNamespace env.toProjectionEnv r.spec.idempotencyKey with
  | .error failure => pure (.error (provisionFailure failure))
  | .ok artifactNamespace => do
      match ← ask (.prepareProvision (provisionReservation c r connectionId
        resolved.connectionVersion artifactNamespace)) with
      | .error failure => pure (.error (provisionFailure failure))
      | .ok (some recovered) =>
        match validatedEngineHandle env c.newId false (.ofDict recovered) with
        | .error e => pure (.error (.ambiguous e))
        | .ok h => pure (.ok (.handle (trustedHandle c r connectionId h) true))
      | .ok none => provisionProvider env c r connectionId resolved

def provision (version : Option String) (persisted : Bool) :
    Steps (Except ProvisionFailure Provisioned) := do
  match ← resolveEngine c r.options (some connectionId) with
  | .error e => pure (.error (.ambiguous e))
  | .ok resolved =>
    if !isStaged env connectionId version persisted resolved then
      pure (.error (.definitive
        "_DefinitiveProvisionError: execution connection changed after its checkpointed affinity reservation"))
    else if resolved.persisted && resolved.connectionVersion.isNone then
      pure (.error (.definitive
        s!"_DefinitiveProvisionError: persisted execution connection {env.reprText connectionId} has no version"))
    else reserveAndProvision env c r connectionId resolved

/-- The write that ends an attempt whose specification was refused. -/
def failedRecord (artifactNamespace : String) : RecordArgs where
  threadId := r.threadId
  attempt := r.attempt
  engine := c.cfg.engine
  handle := ∅
  status := .failed
  projectId := c.cfg.projectId
  appId := c.cfg.appId
  artifactNamespace := some artifactNamespace
  required := true

/-- End the attempt: no provider run was created. -/
def failProvision (issues : List String) :
    Steps (Except String Command) :=
  match engineArtifactNamespace env.toProjectionEnv r.spec.idempotencyKey with
  | .error failure => pure (.error (renderFailure failure))
  | .ok artifactNamespace => do
      match ← ask (.record (failedRecord c r artifactNamespace)) with
      | .error failure => pure (.error (renderFailure failure))
      | .ok _ =>
        let errors := issues.map (fun issue =>
          boundedDiagnostic env.rules
            s!"engine spec validation failed: {boundedDiagnostic env.rules issue 4096}" 4096)
        pure (.ok
          { goto := .finalize
            entry := updateOf r.attempt
              [("status", .str PhaseStatus.failed.value), ("errors", .list (errors.map Json.str)),
                ("engine_provision_required", .bool false),
                ("engine_provision_blocked", .bool false),
                ("engine_provision_last_error", .null)] })

def readyRecord (artifactNamespace : String) :
    RecordArgs where
  threadId := r.threadId
  attempt := r.attempt
  engine := h.engine
  handle := h.modelDump
  status := .ready
  projectId := c.cfg.projectId
  appId := c.cfg.appId
  externalRunId := h.externalRunId
  artifactNamespace := some artifactNamespace
  required := true

def provisionedCommand : Command where
  goto := .engineStart
  entry := updateOf r.attempt
    [("engine", .str h.engine),
      ("provenance", .str (if h.engine = "sim" then "simulator" else "live_provider")),
      ("engine_connection_id", textJson h.connectionId), ("engine_handle", handleJson h),
      ("engine_provision_required", .bool false), ("engine_provision_blocked", .bool false),
      ("engine_provision_failures", .int 0), ("engine_provision_last_error", .null),
      ("engine_provision_completed_at", .str c.utcnow)]
  engineHandle := some (handleJson h)

/-- Project a created run, unless the projection holds it, and checkpoint it. -/
def projectProvisioned (alreadyProjected : Bool) : Steps (Except String Command) :=
  if alreadyProjected then pure (.ok (provisionedCommand c r h))
  else
    match engineArtifactNamespace env.toProjectionEnv h.idempotencyKey with
    | .error failure => pure (retryProvision env c r.attempt (renderFailure failure) [])
    | .ok artifactNamespace => do
        match ← ask (.record (readyRecord c r h artifactNamespace)) with
        | .error (.rejected message) => pure (.error (renderFailure (.rejected message)))
        | .error failure => pure (retryProvision env c r.attempt (renderFailure failure) [])
        | .ok _ => pure (.ok (provisionedCommand c r h))

def engineProvision : Steps (Except String Command) :=
  match provisionRead env c with
  | .error e => pure (.error e)
  | .ok r =>
    match checkpointedAffinity env c with
    | .error e => pure (.error e)
    | .ok (.unusable e fields) => pure (retryProvision env c r.attempt e fields)
    | .ok (.unstaged connectionId) => stageConnectionAffinity env c r connectionId
    | .ok (.staged connectionId version persisted) => do
        match ← provision env c r connectionId version persisted with
        | .error (.rejected e) => pure (.error e)
        | .error (.definitive e) =>
          failProvision env c r [boundedDiagnostic env.rules
            s!"engine provisioning failed: {boundedDiagnostic env.rules e 4096}" 4096]
        | .error (.ambiguous e) => pure (retryProvision env c r.attempt e [])
        | .ok (.issues issues) => failProvision env c r issues
        | .ok (.handle h alreadyProjected) => projectProvisioned env c r h alreadyProjected

/-- What `engine_start` reads of its checkpoint. -/
structure StartRead where
  attempt : Int
  threadId : String
  handle : EngineHandle
  options : Dict Json
  connectionId : Option String
  connectionVersion : Option Instant

def startRead : Except String StartRead := do
  let attempt ← executionAttempt c.entry
  let handle ← handleFrom env c
  let options ← engineOptions env c.entry c.cfg.engine
  let affinity ← connectionReservationAffinity env c handle
  let threadId ← threadIdOf env c.threadId
  pure ⟨attempt, threadId, handle, options, affinity.1, affinity.2⟩

def startReservation (r : StartRead) : ReservationArgs where
  threadId := r.threadId
  attempt := r.attempt
  engine := r.handle.engine
  handle := r.handle.modelDump
  projectId := c.cfg.projectId
  appId := c.cfg.appId
  connectionId := r.connectionId
  connectionVersion := r.connectionVersion

def startedCommand (r : StartRead) (h : EngineHandle) (startedAt : String) : Command where
  goto := .engineStatus
  entry := updateOf r.attempt
    [("engine_handle", handleJson h), ("engine_started_at", .str startedAt)]
  engineHandle := some (handleJson h)

/-- What `_start` returns: its error, the handle, and whether a handle that may not
    be stored was compensated. -/
structure Started where
  error : Option String
  handle : EngineHandle
  compensated : Bool

/-- An error together with the one of the provider call before it. -/
def joinErrors : Option String → String → String
  | none, detail => detail
  | some first, detail => boundedDiagnostic env.rules s!"{first}; {detail}" 4096

/-- What a start that left an invalid handle returns: one that may not be stored is
    compensated first. -/
def invalidStart (r : StartRead) (startError : Option String) (left : Json)
    (e : String) : Steps Started := do
  let detail := boundedDiagnostic env.rules
    s!"provider returned an invalid start handle: {boundedDiagnostic env.rules e 4096}" 4096
  match validatedStartedHandle env c.newId true left r.handle with
  | .error _ => pure ⟨some (joinErrors env startError detail), r.handle, false⟩
  | .ok h =>
    if unsafeHandle env h then do
      match ← compensateUnsafeProvision h with
      | .error _ =>
        let detail := boundedDiagnostic env.rules
          s!"{detail}; unsafe start handle compensation could not be confirmed" 4096
        pure ⟨some (joinErrors env startError detail), r.handle, false⟩
      | .ok _ =>
        let detail := joinErrors env startError detail
        let detail := boundedDiagnostic env.rules
          s!"{detail}; unsafe start handle was compensated" 4096
        pure ⟨some detail, r.handle, true⟩
    else pure ⟨some (joinErrors env startError detail), r.handle, false⟩

def finishStart (r : StartRead) (startError : Option String) (left : Json) : Steps Started :=
  match validatedStartedHandle env c.newId false left r.handle with
  | .ok h => pure ⟨startError, h, false⟩
  | .error e => invalidStart env c r startError left e

/-- The provider call of `_start`. A run of a cycle first has its contract read
    back, and is not started without. -/
def callStart (r : StartRead) : Steps Started :=
  if c.cfg.cycleDispatchId.isSome then do
    match ← ask (.loadDispatchBinding r.attempt true) with
    | .error e =>
      finishStart env c r (some (boundedDiagnostic env.rules e 4096)) (handleJson r.handle)
    | .ok _ => do
        let answer ← ask (.start r.handle)
        finishStart env c r (answer.1.map (fun e => boundedDiagnostic env.rules e 4096)) answer.2
  else do
    let answer ← ask (.start r.handle)
    finishStart env c r (answer.1.map (fun e => boundedDiagnostic env.rules e 4096)) answer.2

/-- `_start`. A connection that cannot be resolved is an error like any other. -/
def startRun (r : StartRead) : Steps Started := do
  match ← resolveEngineForRuntimeIo env c r.options r.handle r.connectionId r.connectionVersion with
  | .error e => pure ⟨some (boundedDiagnostic env.rules e 4096), r.handle, false⟩
  | .ok _ => callStart env c r

/-- The write of a start: the status it ended in, and the provider's run id once
    it runs. -/
def startRecord (r : StartRead) (h : EngineHandle) (status : EngineRunPhase)
    (artifactNamespace : String) : RecordArgs where
  threadId := r.threadId
  attempt := r.attempt
  engine := h.engine
  handle := h.modelDump
  status := status
  projectId := c.cfg.projectId
  appId := c.cfg.appId
  externalRunId := if status = .running then h.externalRunId else none
  artifactNamespace := some artifactNamespace
  connectionId := r.connectionId
  connectionVersion := r.connectionVersion
  required := true

/-- The message of a start whose handle could not be stored. -/
def unsafeStartDetail : String :=
  "execution engine returned an unsafe start handle; remote run was compensated"

/-- Write the projection of a start and go on to a command. A failed write raises. -/
def recordStart (r : StartRead) (h : EngineHandle) (status : EngineRunPhase)
    (command : Command) : Steps (Except String Command) :=
  match engineArtifactNamespace env.toProjectionEnv h.idempotencyKey with
  | .error failure => pure (.error (renderFailure failure))
  | .ok artifactNamespace => do
      match ← ask (.record (startRecord c r h status artifactNamespace)) with
      | .error failure => pure (.error (renderFailure failure))
      | .ok _ => pure (.ok command)

/-- The checkpoint of a start that was compensated. -/
def compensatedCommand (r : StartRead) (h : EngineHandle) : Command where
  goto := .finalize
  entry := updateOf r.attempt
    [("status", .str PhaseStatus.failed.value), ("engine_handle", handleJson h),
      ("engine_cleanup_required", .bool false), ("engine_cleanup_reason", .null),
      ("engine_cleanup_final_error", .null), ("engine_cleanup_failures", .int 0),
      ("errors", .list [.str unsafeStartDetail])]
  engineHandle := some (handleJson h)

/-- The checkpoint of a start that failed: the run is cleaned up. -/
def cleanupCommand (r : StartRead) (h : EngineHandle) (error : String) :
    Command where
  goto := .engineCleanup
  entry := updateOf r.attempt
    [("engine_handle", handleJson h), ("engine_cleanup_required", .bool true),
      ("engine_cleanup_reason", .str (boundedDiagnostic env.rules s!"start failed: {error}" 4096)),
      ("engine_cleanup_final_error",
        .str (boundedDiagnostic env.rules s!"execution engine start failed: {error}" 4096)),
      ("engine_cleanup_failures", .int 0)]
  engineHandle := some (handleJson h)

/-- How `engine_start` goes on after `_start`. -/
def settleStart (r : StartRead) (started : Started) :
    Steps (Except String Command) :=
  -- The handle is validated once more before it is checkpointed.
  match EngineHandle.modelValidate env.rules c.newId started.handle.modelDump with
  | none => pure (.error "ValidationError: engine handle is invalid")
  | some h =>
    if started.compensated then recordStart env c r h .failed (compensatedCommand r h)
    else
      match started.error with
      | some error => pure (.ok (cleanupCommand env r h error))
      | none => recordStart env c r h .running (startedCommand r h c.utcnow)

def engineStart : Steps (Except String Command) :=
  match startRead env c with
  | .error e => pure (.error e)
  | .ok r => do
      match ← ask (.prepareStart (startReservation c r)) with
      | .error failure => pure (.error (renderFailure failure))
      | .ok (some recovered) =>
        match validatedStartedHandle env c.newId false (.ofDict recovered) r.handle with
        | .error e => pure (.error e)
        | .ok h =>
          pure (.ok (startedCommand r h
            (checkpointTimestampOrNow env c (c.entry.value "engine_started_at"))))
      | .ok none => do
          let started ← startRun env c r
          settleStart env c r started

end Apex.Graphs
