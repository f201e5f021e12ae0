import Apex.Domain.EngineHandle

/-!
# The Engine-Run Table

One row for each `(thread, attempt)` records how far an attempt got at its
execution provider. Graph nodes write it through an upsert that refuses to move
a row back, and reserve provider calls through two transactions that insert or
lock the row and check it before the call.

A call is a function from the table to its result and the table after it.
Everything else a call looks at is its `Surroundings`: the connection
registry, the clock, and what became of its database session. A session that
broke before its commit leaves the table alone; one whose acknowledgement was
lost leaves the committed table and raises all the same.

The status of a row is an `EngineRunPhase`, so the check that a status is one
of the known names has nothing left to refuse.

## Main definitions

* `upsert`: The monotonic upsert.
* `recordEngineRun`, `prepareEngineProvision`, `prepareEngineStart`: The calls.
-/

namespace Apex.Services

open Domain Function

inductive EngineRunPhase where
  | provisioning
  | ready
  | running
  | stopping
  | collecting
  | completed
  | failed
  | aborted
  deriving DecidableEq, Repr

namespace EngineRunPhase

def value : EngineRunPhase → String
  | provisioning => "provisioning"
  | ready => "ready"
  | running => "running"
  | stopping => "stopping"
  | collecting => "collecting"
  | completed => "completed"
  | failed => "failed"
  | aborted => "aborted"

def isTerminal : EngineRunPhase → Bool
  | completed => true
  | failed => true
  | aborted => true
  | _ => false

def isStartable : EngineRunPhase → Bool
  | provisioning => true
  | ready => true
  | _ => false

def nonterminalOrder : EngineRunPhase → Option Nat
  | provisioning => some 0
  | ready => some 1
  | running => some 2
  | stopping => some 3
  | collecting => some 4
  | _ => none

def all : List EngineRunPhase :=
  [provisioning, ready, running, stopping, collecting, completed, failed, aborted]

/-- The statuses after a given one that are not terminal. -/
def laterStatuses (order : Nat) : List EngineRunPhase :=
  all.filter (fun status => (status.nonterminalOrder).any (fun other => order < other))

end EngineRunPhase

/-- A moment, in microseconds. -/
abbrev Instant := Int

/-- A row of the table, without its surrogate key and creation time. -/
structure EngineRun where
  threadId : String
  attempt : Int
  projectId : Option String
  appId : Option String
  ownershipKnown : Bool
  scopeOwnershipKnown : Bool
  engine : String
  externalRunId : Option String
  artifactNamespace : Option String
  artifactConnectionId : Option String
  connectionId : Option String
  executionConnectionVersion : Option Instant
  artifactConnectionVersion : Option Instant
  completionKind : Option String
  handle : Dict Json
  status : EngineRunPhase
  endedAt : Option Instant
  summary : Option (Dict Json)
  deriving DecidableEq

abbrev RunKey := String × Int

abbrev EngineRuns := RunKey → Option EngineRun

/-- A row of the connection registry, as far as a reservation reads it. -/
structure Connection where
  kind : String
  provider : String
  projectId : Option String
  enabled : Bool
  runtimeVersion : Instant

/-- What can become of a database session besides a plain commit. -/
inductive Fault where
  | lost
  | unacknowledged

/-- What a call finds around the table. `trafficEntryProject` is the project of
    the thread's traffic entry among the run participants. -/
structure Surroundings where
  isLockedDown : Bool
  connections : String → Option Connection
  trafficEntryProject : String → Option String
  now : Instant
  newId : FreshId
  fault : Option Fault

/-- The functions of other modules and of the language that the calls use: the
    redactor's patterns, SHA-256, `repr` of a text, and the validated form of a
    result summary together with its engine. -/
structure ProjectionEnv where
  rules : CredentialRules
  sha256 : String → String
  reprText : String → String
  testResultSummary : Dict Json → Option (String × Dict Json)

/-- The exceptions of the calls: `EngineRunReservationRejectedError`,
    `ValueError` and `EngineRunProjectionError`. -/
inductive ProjectionFailure where
  | rejected (message : String)
  | invalid (message : String)
  | unavailable (message : String)
  deriving DecidableEq

variable (env : ProjectionEnv) (s : Surroundings) (row : EngineRun) (projectId : Option String)
  (runs : EngineRuns) (a : ReservationArgs) (engine : String) (connectionId : Option String)
  (handle : Dict Json) (operation : String) (ids : NormalizedIds)

/-- Copy the message of a domain or input failure within its bounds. -/
def stableProjectionFailure : ProjectionFailure → ProjectionFailure
  | .rejected message => .rejected (boundedDiagnostic env.rules message 4096)
  | .invalid message => .invalid (boundedDiagnostic env.rules message 4096)
  | .unavailable message => .unavailable message

def validatedProjectionText (label : String) (maxChars : Nat)
    (value : String) : Except ProjectionFailure Unit :=
  raiseIf (value == "" || maxChars < value.length || value != strip value || hasControl value
      || containsCredentialMaterial env.rules plainScanLimits (.str value))
    (.invalid s!"engine-run {label} is invalid or contains credential material")

def validatedOptionalText (label : String) (maxChars : Nat) :
    Option String → Except ProjectionFailure Unit
  | none => .ok ()
  | some value => validatedProjectionText env label maxChars value

def handleScanLimits : ScanLimits :=
  { plainScanLimits with
    maxNodes := 64, maxTotalChars := 32768, maxNodes_pos := by decide,
    maxTotalChars_pos := by decide }

def summaryScanLimits : ScanLimits :=
  { plainScanLimits with
    maxNodes := 256, maxTotalChars := 300000, maxNodes_pos := by decide,
    maxTotalChars_pos := by decide }

def validatedProjectionHandle (newId : FreshId) (handle : Dict Json) (engine : String)
    (allowEmpty : Bool) : Except ProjectionFailure (Dict Json) :=
  if handle.length = 0 ∧ allowEmpty = true then .ok ∅
  else do
    raiseIf (containsCredentialMaterial env.rules handleScanLimits (.ofDict handle))
      (.invalid "engine-run handle is invalid or contains credential material")
    match EngineHandle.modelValidate env.rules newId handle with
    | none => .error (.invalid "engine-run handle is invalid or contains credential material")
    | some validated =>
      raiseIf (validated.engine != engine)
        (.invalid "engine-run handle provider does not match the projection")
      pure validated.modelDump

def validatedProjectionSummary :
    Option (Dict Json) → Except ProjectionFailure (Option (Dict Json))
  | none => .ok none
  | some summary => do
      raiseIf (containsCredentialMaterial env.rules summaryScanLimits (.ofDict summary))
        (.invalid "engine-run summary is invalid or contains credential material")
      match env.testResultSummary summary with
      | none => .error (.invalid "engine-run summary is invalid or contains credential material")
      | some validated =>
        raiseIf (validated.1 != engine)
          (.invalid "engine-run summary provider does not match the projection")
        pure (some validated.2)

def engineArtifactNamespace (idempotencyKey : String) :
    Except ProjectionFailure String := do
  raiseIf (idempotencyKey == "" || 256 < idempotencyKey.length || hasNul idempotencyKey
      || containsCredentialMaterial env.rules plainScanLimits (.str idempotencyKey))
    (.invalid "idempotency key is unsafe for an engine artifact namespace")
  pure s!"engine-runs/{env.sha256 idempotencyKey}"

/-- The arguments `_validate_engine_run_projection_input` checks. -/
structure ProjectionInput where
  threadId : String
  attempt : Int
  engine : String
  handle : Dict Json
  status : EngineRunPhase
  projectId : Option String
  appId : Option String
  externalRunId : Option String := none
  artifactNamespace : Option String := none
  artifactConnectionId : Option String := none
  connectionId : Option String := none
  summary : Option (Dict Json) := none

def handleText (field : String) : Option String :=
  match handle.get? field with
  | some (.str s) => some s
  | _ => none

/-- What a call says about its handle must agree with the handle itself, unless
    that is empty. -/
def validateHandleClaims (a : ProjectionInput) (handle : Dict Json) :
    Except ProjectionFailure Unit :=
  if handle.length = 0 then .ok ()
  else do
    raiseIf (a.externalRunId.isSome && handleText handle "external_run_id" != a.externalRunId)
      (.invalid "engine-run external id does not match the durable handle")
    raiseIf (a.connectionId.isSome && handleText handle "connection_id" != a.connectionId)
      (.invalid "engine-run connection does not match the durable handle")
    let expected ← engineArtifactNamespace env ((handleText handle "idempotency_key").getD "")
    raiseIf (a.artifactNamespace.any (fun given => rstripSlash given != expected))
      (.invalid "engine-run artifact namespace does not match the durable handle")

def validateEngineRunProjectionInput (newId : FreshId) (a : ProjectionInput) :
    Except ProjectionFailure (Dict Json × Option (Dict Json)) := do
  validatedProjectionText env "thread id" 64 a.threadId
  validatedProjectionText env "engine" 64 a.engine
  raiseIf (!(1 ≤ a.attempt && a.attempt ≤ 1000000))
    (.invalid "engine-run attempt must be between 1 and 1000000")
  validatedOptionalText env "project id" 255 a.projectId
  validatedOptionalText env "application id" 255 a.appId
  validatedOptionalText env "external run id" 255 a.externalRunId
  validatedOptionalText env "artifact namespace" 512 a.artifactNamespace
  validatedOptionalText env "artifact connection id" 255 a.artifactConnectionId
  validatedOptionalText env "execution connection id" 255 a.connectionId
  let canonicalHandle ← validatedProjectionHandle env newId a.handle a.engine (a.status == .failed)
  validateHandleClaims env a canonicalHandle
  let canonicalSummary ← validatedProjectionSummary env a.engine a.summary
  pure (canonicalHandle, canonicalSummary)

/-- Whether a text can name one project or application. -/
def isExactScopeComponent : Option String → Bool
  | none => false
  | some value =>
    1 ≤ value.length && value.length ≤ 255 && value == strip value && !hasControl value
      && !containsCredentialMaterial env.rules plainScanLimits (.str value)

/-- `_authoritative_scope`: whether a call asserts its exact ownership. -/
def authoritativeScope (appId : Option String) (required : Bool)
    (operation : String) : Except ProjectionFailure Bool := do
  let complete := isExactScopeComponent env projectId && isExactScopeComponent env appId
  raiseIf (required && !complete)
    (.rejected s!"engine-run {operation} requires exact project and application ownership")
  pure (required && complete)

/-- Whether a connection is one of the synthetic ones of development. -/
def isDevelopmentId (connectionId : String) : Bool :=
  "dev-".toList.isPrefixOf connectionId.toList

/-- The connections of a call, and whether there is nothing durable to write. -/
structure NormalizedIds where
  skipProjection : Bool
  connectionId : Option String
  connectionVersion : Option Instant
  artifactConnectionId : Option String

def normalizeDevelopmentConnectionIds (connectionId : Option String)
    (connectionVersion : Option Instant) (artifactConnectionId : Option String)
    (isLockedDown : Bool) : NormalizedIds :=
  if isLockedDown then ⟨false, connectionId, connectionVersion, artifactConnectionId⟩
  else
    let executionConnectionId :=
      (connectionId.filter (· != "")).or (handleText handle "connection_id")
    let executionIsStatic := executionConnectionId.any isDevelopmentId
    let artifactConnectionId := artifactConnectionId.filter (fun id => !isDevelopmentId id)
    let skip := executionIsStatic && artifactConnectionId.isNone
    if connectionId.any isDevelopmentId then ⟨skip, none, none, artifactConnectionId⟩
    else ⟨skip, connectionId, connectionVersion, artifactConnectionId⟩

def verifyExecutionConnectionReservation (connection : Option Connection) (engine : String)
    (projectId : Option String) : Except ProjectionFailure Connection :=
  match connection with
  | none => .error (.rejected "execution connection reservation is missing or disabled")
  | some row => do
      raiseIf (!row.enabled) (.rejected "execution connection reservation is missing or disabled")
      raiseIf (row.kind != "execution_engine" || row.provider != engine)
        (.rejected "execution connection reservation has a different adapter identity")
      raiseIf (row.projectId.isSome && row.projectId != projectId)
        (.rejected "execution connection reservation has different project ownership")
      pure row

def verifyArtifactConnectionReservation (connection : Option Connection)
    (projectId : Option String) : Except ProjectionFailure Connection :=
  match connection with
  | none =>
    .error (.rejected
      "artifact-store connection reservation is missing, disabled, or has the wrong kind")
  | some row => do
      raiseIf (!row.enabled || row.kind != "artifact_store")
        (.rejected
          "artifact-store connection reservation is missing, disabled, or has the wrong kind")
      raiseIf (row.projectId.isSome && row.projectId != projectId)
        (.rejected "artifact-store connection reservation has different project ownership")
      pure row

/-- Lock the execution connection a call names and compare its generation. A
    connection of another project is admitted for that of the thread's traffic
    entry. -/
def reserveExecutionConnection (threadId engine : String) (projectId connectionId : Option String)
    (connectionVersion : Option Instant) :
    Except ProjectionFailure Unit :=
  match connectionId, connectionVersion with
  | some id, some version => do
      let connection := s.connections id
      let foreign := connection.any (fun row => row.projectId.isSome && row.projectId != projectId)
      let executionProjectId :=
        if foreign then (s.trafficEntryProject threadId).or projectId else projectId
      let row ← verifyExecutionConnectionReservation connection engine executionProjectId
      raiseIf (row.runtimeVersion != version)
        (.rejected s!"execution connection {env.reprText id} changed during reservation")
  | _, _ => .ok ()

/-- Lock the artifact store a call names and compare its generation. -/
def reserveArtifactConnection (artifactConnectionId : Option String)
    (artifactConnectionVersion : Option Instant) : Except ProjectionFailure Unit :=
  match artifactConnectionId with
  | none => .ok ()
  | some id => do
      let row ← verifyArtifactConnectionReservation (s.connections id) projectId
      match artifactConnectionVersion with
      | none => .error (.rejected "artifact-store connection is missing its reservation version")
      | some version =>
        raiseIf (row.runtimeVersion != version)
          (.rejected "artifact-store connection changed during reservation")

/-- The columns of one statement. A column it does not name is `none`. -/
structure EngineRunValues where
  threadId : String
  attempt : Int
  projectId : Option String
  appId : Option String
  engine : String
  handle : Dict Json
  status : EngineRunPhase
  ownershipKnown : Bool
  scopeOwnershipKnown : Bool
  externalRunId : Option String := none
  artifactNamespace : Option String := none
  artifactConnectionId : Option String := none
  connectionId : Option (Option String) := none
  executionConnectionVersion : Option Instant := none
  artifactConnectionVersion : Option Instant := none
  summary : Option (Dict Json) := none
  completionKind : Option String := none
  endedAt : Option (Option Instant) := none

namespace EngineRunValues

variable (values : EngineRunValues)

def key : RunKey := (values.threadId, values.attempt)

/-- Whether the inputs of a statement prove one exact scope. -/
def isAuthoritative (env : ProjectionEnv) (values : EngineRunValues) : Bool :=
  values.ownershipKnown && values.scopeOwnershipKnown
    && isExactScopeComponent env values.projectId && isExactScopeComponent env values.appId

def normalizeScopeProvenance (env : ProjectionEnv) (values : EngineRunValues) : EngineRunValues :=
  if values.isAuthoritative env then values
  else { values with ownershipKnown := false, scopeOwnershipKnown := false }

def newRow : EngineRun where
  threadId := values.threadId
  attempt := values.attempt
  projectId := values.projectId
  appId := values.appId
  ownershipKnown := values.ownershipKnown
  scopeOwnershipKnown := values.scopeOwnershipKnown
  engine := values.engine
  externalRunId := values.externalRunId
  artifactNamespace := values.artifactNamespace
  artifactConnectionId := values.artifactConnectionId
  connectionId := values.connectionId.getD none
  executionConnectionVersion := values.executionConnectionVersion
  artifactConnectionVersion := values.artifactConnectionVersion
  completionKind := values.completionKind
  handle := values.handle
  status := values.status
  endedAt := values.endedAt.getD none
  summary := values.summary

/-- Whether a stored row may be written: its transition is forward, its engine is
    the same, and a known owner is not replaced. -/
def transitionAllowed (row : EngineRun) : Bool :=
  (if values.status.isTerminal then !row.status.isTerminal || row.status == values.status
    else !row.status.isTerminal)
    && row.engine == values.engine
    && (row.projectId == values.projectId || (!row.scopeOwnershipKnown && row.projectId.isNone))
    && (row.appId == values.appId || (!row.scopeOwnershipKnown && row.appId.isNone))

/-- Whether the columns of a stored row are kept: a terminal row keeps its first
    payload, and a row at a later stage keeps that of the later stage. -/
def keepsStored (row : EngineRun) : Bool :=
  match values.status.nonterminalOrder with
  | none => row.status == values.status
  | some order => (EngineRunPhase.laterStatuses order).contains row.status

/-- `case((keep, stored), else_=excluded)` of a column the statement names. -/
def caseColumn {α : Type} (keep : Bool) (stored : α) : Option α → α
  | none => stored
  | some excluded => if keep then stored else excluded

def updatedRow (row : EngineRun) : EngineRun :=
  let keep := values.keepsStored row
  let owned {α : Type} (stored excluded : α) : α :=
    if values.scopeOwnershipKnown then caseColumn keep stored (some excluded) else stored
  { row with
    projectId := owned row.projectId values.projectId
    appId := owned row.appId values.appId
    ownershipKnown := owned row.ownershipKnown values.ownershipKnown
    scopeOwnershipKnown := owned row.scopeOwnershipKnown values.scopeOwnershipKnown
    engine := caseColumn keep row.engine (some values.engine)
    externalRunId := caseColumn keep row.externalRunId (values.externalRunId.map some)
    artifactNamespace := caseColumn keep row.artifactNamespace (values.artifactNamespace.map some)
    artifactConnectionId :=
      caseColumn keep row.artifactConnectionId (values.artifactConnectionId.map some)
    connectionId := caseColumn keep row.connectionId values.connectionId
    executionConnectionVersion :=
      caseColumn keep row.executionConnectionVersion (values.executionConnectionVersion.map some)
    artifactConnectionVersion :=
      caseColumn keep row.artifactConnectionVersion (values.artifactConnectionVersion.map some)
    completionKind := caseColumn keep row.completionKind (values.completionKind.map some)
    handle := caseColumn keep row.handle (some values.handle)
    status := caseColumn keep row.status (some values.status)
    endedAt := caseColumn keep row.endedAt values.endedAt
    summary := caseColumn keep row.summary (values.summary.map some) }

end EngineRunValues

/-- `_upsert_statement` executed: the number of rows it touched, and the table. -/
def upsert (values : EngineRunValues) :
    Nat × EngineRuns :=
  let values := values.normalizeScopeProvenance env
  match runs values.key with
  | none => (1, update runs values.key (some values.newRow))
  | some row =>
    if values.transitionAllowed row then
      (1, update runs values.key (some (values.updatedRow row)))
    else (0, runs)

/-- `_insert_reservation_statement` executed. -/
def insertReservation (values : EngineRunValues) :
    EngineRuns :=
  let values := values.normalizeScopeProvenance env
  match runs values.key with
  | none => update runs values.key (some values.newRow)
  | some _ => runs

/-- `_bind_locked_run_ownership`: the row with the ownership a quarantined one
    may still be given. -/
def bindLockedRunOwnership (appId : Option String)
    (operation : String) : Except ProjectionFailure EngineRun := do
  let _ ← authoritativeScope env projectId appId true operation
  raiseIf (row.projectId != projectId
      && !(!row.scopeOwnershipKnown && row.projectId.isNone && projectId.isSome))
    (.rejected s!"engine-run {operation} reservation has different project ownership")
  raiseIf (row.appId != appId && !(!row.scopeOwnershipKnown && row.appId.isNone && appId.isSome))
    (.rejected s!"engine-run {operation} reservation has different application ownership")
  raiseIf (!row.scopeOwnershipKnown && appId.isNone)
    (.rejected s!"engine-run {operation} reservation has ambiguous application ownership")
  if row.scopeOwnershipKnown then
    pure { row with projectId := projectId, appId := appId }
  else
    pure { row with
      projectId := projectId, appId := appId, ownershipKnown := true, scopeOwnershipKnown := true }

def verifyReservationConnectionGeneration (connectionVersion : Option Instant)
    (operation : String) : Except ProjectionFailure Unit :=
  if connectionId.isNone then .ok ()
  else do
    raiseIf (row.connectionId != connectionId)
      (.rejected s!"engine-run {operation} reservation has different connection affinity")
    raiseIf (connectionVersion.isNone || row.executionConnectionVersion != connectionVersion)
      (.rejected s!"engine-run {operation} reservation has different connection generation")

def verifyReservationHandleIdentity (rowHandle : Dict Json) (engine : String)
    (idempotencyKey : Option String) (connectionId : Option String) (operation : String) :
    Except ProjectionFailure Unit := do
  raiseIf (handleText rowHandle "engine" != some engine)
    (.rejected s!"engine-run {operation} reservation handle has a different provider")
  raiseIf (handleText rowHandle "idempotency_key" != idempotencyKey)
    (.rejected s!"engine-run {operation} reservation has a different idempotency key")
  raiseIf (connectionId.isSome && handleText rowHandle "connection_id" != connectionId)
    (.rejected s!"engine-run {operation} reservation handle has different connection affinity")

def lockedHandle : Except ProjectionFailure (Dict Json) :=
  match validatedProjectionHandle env s.newId row.handle engine false with
  | .ok handle => .ok handle
  | .error _ =>
    .error (.rejected s!"engine-run {operation} reservation has an invalid durable handle")

/-- Run a session, given what it returns and writes when nothing breaks. -/
def session {α : Type} (runs : EngineRuns) (body : Except ProjectionFailure (α × EngineRuns)) :
    Except ProjectionFailure α × EngineRuns :=
  match s.fault with
  | some .lost => (.error (.unavailable s!"engine-run {operation} failed"), runs)
  | some .unacknowledged =>
    match body with
    | .error failure => (.error (stableProjectionFailure env failure), runs)
    | .ok (_, after) => (.error (.unavailable s!"engine-run {operation} failed"), after)
  | none =>
    match body with
    | .error failure => (.error (stableProjectionFailure env failure), runs)
    | .ok (result, after) => (.ok result, after)

/-- The arguments of `record_engine_run`. -/
structure RecordArgs extends ProjectionInput where
  artifactConnectionVersion : Option Instant := none
  connectionVersion : Option Instant := none
  completionKind : Option String := none
  required : Bool := false

def completionKinds : List String := ["collection_teardown_v1", "cleanup_teardown_v1"]

/-- The refusal of a connection without a generation. -/
def missingVersion : ProjectionFailure :=
  let shown := env.reprText (connectionId.getD "")
  .rejected s!"execution connection {shown} is missing its reservation version"

/-- What `record_engine_run` settles before it opens a session: the validated
    payload and the connections, or nothing if nothing is to be written. -/
def recordPrelude (a : RecordArgs) :
    Except ProjectionFailure (Option (Dict Json × Option (Dict Json) × NormalizedIds × Bool)) := do
  let (handle, summary) ← validateEngineRunProjectionInput env s.newId a.toProjectionInput
  let ids := normalizeDevelopmentConnectionIds handle a.connectionId a.connectionVersion
    a.artifactConnectionId s.isLockedDown
  if ids.skipProjection then pure none
  else
    let scopeOwnershipKnown ← authoritativeScope env a.projectId a.appId a.required "record"
    raiseIf (a.required && ids.connectionId.isSome && ids.connectionVersion.isNone)
      (missingVersion env ids.connectionId)
    raiseIf (a.completionKind.any (fun kind => !completionKinds.contains kind
        || !a.status.isTerminal))
      (.invalid "engine completion witness is invalid")
    raiseIf (a.completionKind.isSome && ids.connectionId.isSome && ids.connectionVersion.isNone)
      (.rejected "engine completion witness has no execution generation")
    pure (some (handle, summary, ids, scopeOwnershipKnown))

/-- The namespace a write names: the given one, or that of the handle's key. -/
def recordNamespace (a : RecordArgs) (handle : Dict Json) :
    Except ProjectionFailure (Option String) :=
  match a.artifactNamespace, handleText handle "idempotency_key" with
  | some given, _ => .ok (some given)
  | none, some key => some <$> engineArtifactNamespace env key
  | none, none => .ok none

/-- The columns `record_engine_run` writes. -/
def recordValues (a : RecordArgs) (handle : Dict Json) (summary : Option (Dict Json))
    (ids : NormalizedIds) (scopeOwnershipKnown : Bool) :
    Except ProjectionFailure EngineRunValues := do
  let artifactNamespace ← recordNamespace env a handle
  let bound := ids.connectionId.isSome && ids.connectionVersion.isSome
  pure
    { threadId := a.threadId, attempt := a.attempt, projectId := a.projectId, appId := a.appId
      engine := a.engine, handle := handle, status := a.status
      ownershipKnown := scopeOwnershipKnown, scopeOwnershipKnown := scopeOwnershipKnown
      externalRunId := a.externalRunId
      artifactNamespace := artifactNamespace.map rstripSlash
      artifactConnectionId := ids.artifactConnectionId
      connectionId :=
        if a.status.isTerminal then some none
        else if bound then some ids.connectionId else none
      executionConnectionVersion := if bound then ids.connectionVersion else none
      artifactConnectionVersion :=
        if ids.artifactConnectionId.isSome then a.artifactConnectionVersion else none
      summary := summary
      completionKind := a.completionKind
      endedAt := some (if a.status.isTerminal then some s.now else none) }

def reserveRecordConnections (a : RecordArgs)
    (ids : NormalizedIds) : Except ProjectionFailure Unit :=
  if a.required then do
    reserveExecutionConnection env s a.threadId a.engine a.projectId ids.connectionId
      ids.connectionVersion
    reserveArtifactConnection s a.projectId ids.artifactConnectionId a.artifactConnectionVersion
  else .ok ()

def recordSession (a : RecordArgs) (handle : Dict Json) (summary : Option (Dict Json))
    (ids : NormalizedIds)
    (scopeOwnershipKnown : Bool) : Except ProjectionFailure (Unit × EngineRuns) := do
  reserveRecordConnections env s a ids
  let values ← recordValues env s a handle summary ids scopeOwnershipKnown
  let written := upsert env runs values
  raiseIf (a.required && written.1 != 1)
    (.rejected "required engine-run reservation was rejected by the durable projection")
  pure ((), written.2)

/-- A write, before its failure is reported or swallowed. -/
def recordOutcome (a : RecordArgs) :
    Except ProjectionFailure Unit × EngineRuns :=
  match recordPrelude env s a with
  | .error failure => (.error (stableProjectionFailure env failure), runs)
  | .ok none => (.ok (), runs)
  | .ok (some (handle, summary, ids, scopeOwnershipKnown)) =>
    session env s "record" runs (recordSession env s runs a handle summary ids scopeOwnershipKnown)

/-- `record_engine_run`. A write that is not required never raises. -/
def recordEngineRun (a : RecordArgs) :
    Except ProjectionFailure Unit × EngineRuns :=
  let outcome := recordOutcome env s runs a
  if a.required then outcome else (.ok (), outcome.2)

structure ReservationArgs where
  threadId : String
  attempt : Int
  engine : String
  handle : Dict Json
  projectId : Option String
  appId : Option String
  artifactNamespace : Option String := none
  connectionId : Option String
  connectionVersion : Option Instant

def ReservationArgs.key : RunKey := (a.threadId, a.attempt)

/-- What a reservation settles before it opens a session: the validated handle
    and the connection, or nothing if there is nothing durable to reserve. -/
def reservationPrelude (status : EngineRunPhase) (operation : String) :
    Except ProjectionFailure (Option (Dict Json × NormalizedIds)) := do
  let (handle, _) ← validateEngineRunProjectionInput env s.newId
    { threadId := a.threadId, attempt := a.attempt, engine := a.engine, handle := a.handle
      status := status, projectId := a.projectId, appId := a.appId
      artifactNamespace := a.artifactNamespace, connectionId := a.connectionId }
  let ids := normalizeDevelopmentConnectionIds handle a.connectionId a.connectionVersion none
    s.isLockedDown
  if ids.skipProjection then pure none
  else
    let _ ← authoritativeScope env a.projectId a.appId true operation
    raiseIf (ids.connectionId.isSome && ids.connectionVersion.isNone)
      (missingVersion env ids.connectionId)
    pure (some (handle, ids))

/-- The checks both reservations make of the row they locked: the row with its
    ownership bound, and its handle. -/
def verifyLockedRow (row : EngineRun) (operation : String) :
    Except ProjectionFailure (EngineRun × Dict Json) := do
  raiseIf (row.engine != a.engine)
    (.rejected s!"engine-run {operation} reservation has a different provider")
  let bound ← bindLockedRunOwnership env row a.projectId a.appId operation
  verifyReservationConnectionGeneration bound ids.connectionId ids.connectionVersion operation
  raiseIf (a.artifactNamespace.any (fun given => bound.artifactNamespace != some (rstripSlash given)))
    (.rejected s!"engine-run {operation} reservation has a different artifact namespace")
  let rowHandle ← lockedHandle env s bound a.engine operation
  verifyReservationHandleIdentity rowHandle a.engine (handleText handle "idempotency_key")
    ids.connectionId operation
  raiseIf bound.status.isTerminal
    (.rejected s!"engine-run {operation} reservation is already terminal")
  pure (bound, rowHandle)

/-- What a locked row that passed means to a start: the handle of a run that
    started, or `None` for one that may. -/
def startDecision (rowHandle : Dict Json) :
    Except ProjectionFailure (Option (Dict Json)) :=
  if row.status = .running then .ok (some rowHandle)
  else if row.status.isStartable then .ok none
  else .error (.rejected s!"engine-run status '{row.status.value}' is not startable")

/-- Whether a handle names a run that a provider created. -/
def handleNamesRun (rowHandle : Dict Json) : Bool :=
  (handleText rowHandle "external_run_id").any (· != "")
    || ((rowHandle.value "extras").dict?).any (fun extras => extras.length != 0)

/-- What a locked row that passed means to a provision: the handle of a run that
    was created, or `None` for one that may be. -/
def provisionDecision (rowHandle : Dict Json) :
    Except ProjectionFailure (Option (Dict Json)) :=
  if row.status = .ready ∨ row.status = .running then .ok (some rowHandle)
  else if row.status = .provisioning then
    .ok (if handleNamesRun rowHandle then some rowHandle else none)
  else .error (.rejected s!"engine-run status '{row.status.value}' cannot provision")

/-- The session of `prepare_engine_start`. -/
def startSession :
    Except ProjectionFailure (Option (Dict Json) × EngineRuns) := do
  reserveExecutionConnection env s a.threadId a.engine a.projectId ids.connectionId
    ids.connectionVersion
  match runs a.key with
  | none => .error (.rejected "required engine-run start reservation is missing")
  | some row =>
    let (bound, rowHandle) ← verifyLockedRow env s a handle ids row "start"
    let recovered ← startDecision bound rowHandle
    pure (recovered, update runs a.key (some bound))

/-- `prepare_engine_start`. It takes no artifact namespace. -/
def prepareEngineStart : Except ProjectionFailure (Option (Dict Json)) × EngineRuns :=
  let a := { a with artifactNamespace := none }
  match reservationPrelude env s a .ready "start" with
  | .error failure => (.error (stableProjectionFailure env failure), runs)
  | .ok none => (.ok none, runs)
  | .ok (some (handle, ids)) =>
    session env s "start reservation" runs (startSession env s runs a handle ids)

/-- The row `prepare_engine_provision` inserts if there is none. -/
def provisionValues :
    EngineRunValues :=
  { threadId := a.threadId, attempt := a.attempt, projectId := a.projectId, appId := a.appId
    engine := a.engine, handle := handle, status := .provisioning
    ownershipKnown := true, scopeOwnershipKnown := true
    artifactNamespace := a.artifactNamespace.map rstripSlash
    connectionId := ids.connectionId.map some
    executionConnectionVersion := ids.connectionVersion }

/-- The session of `prepare_engine_provision`. -/
def provisionSession :
    Except ProjectionFailure (Option (Dict Json) × EngineRuns) := do
  reserveExecutionConnection env s a.threadId a.engine a.projectId ids.connectionId
    ids.connectionVersion
  let inserted := insertReservation env runs (provisionValues a handle ids)
  match inserted a.key with
  | none => .error (.rejected "required engine-run provision reservation is missing")
  | some row =>
    let (bound, rowHandle) ← verifyLockedRow env s a handle ids row "provision"
    let recovered ← provisionDecision bound rowHandle
    pure (recovered, update inserted a.key (some bound))

def prepareEngineProvision : Except ProjectionFailure (Option (Dict Json)) × EngineRuns :=
  match reservationPrelude env s a .provisioning "provision" with
  | .error failure => (.error (stableProjectionFailure env failure), runs)
  | .ok none => (.ok none, runs)
  | .ok (some (handle, ids)) =>
    session env s "provision reservation" runs (provisionSession env s runs a handle ids)

end Apex.Services
