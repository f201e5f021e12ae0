import Apex.Core.Action
import Apex.Domain.WorkItems
import Apex.Services.EngineRuns

/-!
# The Table Of Work-Item Mutations

One row for each idempotency key records how far a mutation of the work tracker
got. A worker that wants to act claims the row under a token and a lease of five
minutes, and every later change of the row is a transaction that locks it and
checks the token. Before a call that cannot be repeated the worker stores the
moment of the attempt. Rows that were completed or failed thirty days ago are
retired to tombstones, which keep the key bound for ever.

A transaction is one request to the store: it locks the row, decides, and
commits. What became of it is the answer. A commit that raised may or may not
have happened; the repository then reads the row again and returns it if the
transition it wanted is there.

## Main definitions

* `WorkItemMutation`, `MutationScope`: A row and its unique key.
* `Operation`, `Operation.decide`: The transactions on one row.
* `Mutations.reserve`, `Mutations.claim`, `Mutations.change`: The repository.
* `MutationStore.answers`, `mutationSystem`: The store and the workers it serves.
-/

namespace Apex.Persistence

open Domain Services

open Apex.Action hiding ask

structure MutationScope where
  tenantScope : String
  consumerId : String
  connectionId : String
  operation : String
  idempotencyKey : String
  deriving DecidableEq

inductive MutationStatus where
  | pending
  | running
  | completed
  | failed
  deriving DecidableEq, Repr

/-- Whether a status is one a mutation ends with. -/
def MutationStatus.isTerminal : MutationStatus → Bool
  | completed => true
  | failed => true
  | _ => false

inductive StepStatus where
  | skipped
  | pending
  | completed
  deriving DecidableEq, Repr

inductive Step where
  | fields
  | comment
  deriving DecidableEq, Repr

inductive ErrorKind where
  | rejected
  | notFound
  deriving DecidableEq, Repr

/-- A row, without its creation time. -/
structure WorkItemMutation where
  id : String
  scope : MutationScope
  projectId : Option String
  connectionVersion : Instant
  payloadHash : String
  payload : MutationPayload
  targetKey : Option String
  providerMarker : String
  providerAttemptedAt : Option Instant
  commentAttemptedAt : Option Instant
  status : MutationStatus
  fieldsStatus : StepStatus
  commentStatus : StepStatus
  result : Option WorkItem
  claimToken : Option String
  claimedAt : Option Instant
  nextAttemptAt : Option Instant
  attemptCount : Nat
  lastError : Option String
  terminalError : Option ErrorKind
  updatedAt : Instant
  deriving DecidableEq

structure WorkItemMutationTombstone where
  payloadHash : String
  outcome : MutationStatus

/-- `MUTATION_LEASE`: five minutes. -/
def mutationLease : Int := 300000000

def providerMarkerOf (id : String) : String := "apex-idem-" ++ id

namespace WorkItemMutation

variable (row : WorkItemMutation)

def ownedBy (token : String) : Bool :=
  row.status == .running && row.claimToken == some token

/-- Whether a row is running under a lease that has not expired at a moment. -/
def leased (now : Instant) : Bool :=
  row.status == .running && row.claimedAt.any (fun t => now - mutationLease < t)

def stepStatus : Step → StepStatus
  | .fields => row.fieldsStatus
  | .comment => row.commentStatus

/-- `setattr(row, f"{step}_status", "completed")`. -/
def completeStep : Step → WorkItemMutation
  | .fields => { row with fieldsStatus := .completed }
  | .comment => { row with commentStatus := .completed }

/-- What a flush stores of a changed row: `updated_at` moves if anything else does. -/
def flushed (row' : WorkItemMutation) (now : Instant) : WorkItemMutation :=
  if row' = row then row else { row' with updatedAt := now }

end WorkItemMutation

/-- The exceptions of a mutation. A cancellation knows whether the caller asked for
    it or the heartbeat failed with an exception of some type. -/
inductive MutationError where
  | cancelled (heartbeat : Option String)
  | claimed (message : String)
  | payloadConflict (message : String)
  | retired (message : String)
  | connectionChanged (message : String)
  | rejected (message : String)
  | targetNotFound (message : String)
  | permanent (kind : ErrorKind)
  | ambiguous (mutationId providerMarker operation : String)
  | permission (message : String)
  | value (message : String)
  | key (message : String)
  | runtime (message : String)
  | other (typeName : String)
  deriving DecidableEq

/-- `safe_type_name(exc)`. -/
def MutationError.typeName : MutationError → String
  | .cancelled none => "CancelledError"
  | .cancelled (some heartbeat) => heartbeat
  | .claimed _ => "MutationClaimedError"
  | .payloadConflict _ => "MutationPayloadConflictError"
  | .retired _ => "MutationRetiredError"
  | .connectionChanged _ => "MutationConnectionChangedError"
  | .rejected _ => "WorkTrackingMutationRejectedError"
  | .targetNotFound _ => "WorkTrackingMutationTargetNotFoundError"
  | .permanent _ => "_PermanentMutationFailure"
  | .ambiguous _ _ _ => "WorkItemMutationOutcomeAmbiguousError"
  | .permission _ => "PermissionError"
  | .value _ => "ValueError"
  | .key _ => "KeyError"
  | .runtime _ => "RuntimeError"
  | .other typeName => typeName

/-- The transactions on one row, with what they were given. -/
inductive Operation where
  | claim (token : String) (now : Instant) (ignoreBackoff : Bool)
  | markStep (token : String) (step : Step)
  | markProviderAttempted (token : String) (attemptedAt : Instant)
  | markCommentAttempted (token : String) (attemptedAt : Instant)
  | renew (token : String) (now : Instant)
  | complete (token : String) (result : WorkItem)
  | fail (token : String) (errorKind : ErrorKind) (error : String)
  | release (token : String) (error : String) (retryAt : Instant)
  | deferResolution (now : Instant) (error : String) (retryAt : Instant)

/-- What a transaction does with the row it locked. -/
inductive Decision where
  | refuse (error : MutationError)
  | keep
  | write (row : WorkItemMutation)
  deriving DecidableEq

namespace Operation

/-- The token an operation carries to show that it owns the row. -/
def claimToken : Operation → Option String
  | claim _ _ _ => none
  | markStep token _ => some token
  | markProviderAttempted token _ => some token
  | markCommentAttempted token _ => some token
  | renew token _ => some token
  | complete token _ => some token
  | fail token _ _ => some token
  | release token _ _ => some token
  | deferResolution _ _ _ => none

variable (row : WorkItemMutation)

/-- `mutate(row)`, and the assignments of the two operations without one. -/
def mutate : Operation → WorkItemMutation
  | claim token now _ =>
    { row with
      status := .running, claimToken := some token, claimedAt := some now,
      nextAttemptAt := none, attemptCount := row.attemptCount + 1, lastError := none }
  | markStep _ step => row.completeStep step
  | markProviderAttempted _ attemptedAt => { row with providerAttemptedAt := some attemptedAt }
  | markCommentAttempted _ attemptedAt => { row with commentAttemptedAt := some attemptedAt }
  | renew _ now => { row with claimedAt := some now }
  | complete _ result =>
    { row with
      status := .completed, result := some result, claimToken := none, claimedAt := none,
      nextAttemptAt := none, lastError := none }
  | fail _ errorKind error =>
    { row with
      status := .failed, terminalError := some errorKind, lastError := some error,
      claimToken := none, claimedAt := none, nextAttemptAt := none }
  | release _ error retryAt =>
    { row with
      status := .pending, lastError := some error, claimToken := none, claimedAt := none,
      nextAttemptAt := some retryAt }
  | deferResolution _ error retryAt =>
    { row with
      status := .pending, claimToken := none, claimedAt := none, nextAttemptAt := some retryAt,
      attemptCount := row.attemptCount + 1, lastError := some error }

/-- `resolved(row)`: whether the transition is already there. -/
def resolved : Operation → Bool
  | claim _ _ _ => row.status.isTerminal
  | markStep _ step => row.stepStatus step == .completed
  | markProviderAttempted _ _ => row.providerAttemptedAt.isSome
  | markCommentAttempted _ _ => row.commentAttemptedAt.isSome
  | renew _ _ => false
  | complete _ result => row.status == .completed && row.result == some result
  | fail _ errorKind _ => row.status == .failed && row.terminalError == some errorKind
  | release _ _ _ => row.status != .running
  | deferResolution _ _ _ => row.status.isTerminal

def requireOwnerForResolution : Operation → Bool
  | markStep _ _ => true
  | markProviderAttempted _ _ => true
  | markCommentAttempted _ _ => true
  | _ => false

/-- The checks of `_transition` on the locked row. -/
def transitionDecision (op : Operation) (token : String) (row : WorkItemMutation) : Decision :=
  if op.requireOwnerForResolution && !row.ownedBy token then
    .refuse (.claimed "work-item mutation lease was lost")
  else if op.resolved row then .keep
  else if !row.ownedBy token then .refuse (.claimed "work-item mutation lease was lost")
  else .write (op.mutate row)

/-- What a transaction does with the row it locked. -/
def decide (op : Operation) (row : WorkItemMutation) : Decision :=
  match op with
  | claim _ now ignoreBackoff =>
    if row.status.isTerminal then .keep
    else if row.leased now then .refuse (.claimed "work-item mutation is already in progress")
    else if !ignoreBackoff && row.nextAttemptAt.any (fun t => now < t) then
      .refuse (.claimed "work-item mutation retry is not due yet")
    else .write (op.mutate row)
  | deferResolution now _ _ =>
    if row.status.isTerminal then .keep
    else if row.leased now then .refuse (.claimed "work-item mutation is already in progress")
    else .write (op.mutate row)
  | markStep token _ => op.transitionDecision token row
  | markProviderAttempted token _ => op.transitionDecision token row
  | markCommentAttempted token _ => op.transitionDecision token row
  | renew token _ => op.transitionDecision token row
  | complete token _ => op.transitionDecision token row
  | fail token _ _ => op.transitionDecision token row
  | release token _ _ => op.transitionDecision token row

/-- Whether a row read after a commit that raised shows that the operation is done. -/
def acknowledged (op : Operation) (row : WorkItemMutation) : Bool :=
  match op with
  | claim token _ _ => row.status.isTerminal || row.ownedBy token
  | deferResolution _ _ _ => false
  | markStep token _ => (!op.requireOwnerForResolution || row.ownedBy token) && op.resolved row
  | markProviderAttempted token _ =>
    (!op.requireOwnerForResolution || row.ownedBy token) && op.resolved row
  | markCommentAttempted token _ =>
    (!op.requireOwnerForResolution || row.ownedBy token) && op.resolved row
  | renew token _ => (!op.requireOwnerForResolution || row.ownedBy token) && op.resolved row
  | complete token _ => (!op.requireOwnerForResolution || row.ownedBy token) && op.resolved row
  | fail token _ _ => (!op.requireOwnerForResolution || row.ownedBy token) && op.resolved row
  | release token _ _ => (!op.requireOwnerForResolution || row.ownedBy token) && op.resolved row

def disappeared : Operation → MutationError
  | claim _ _ _ => .runtime "work-item mutation disappeared before it was claimed"
  | deferResolution _ _ _ => .runtime "work-item mutation disappeared while deferring resolution"
  | _ => .runtime "work-item mutation disappeared during state transition"

/-- Whether a commit that raised is followed by another look at the row. -/
def recovers : Operation → Bool
  | deferResolution _ _ _ => false
  | _ => true

end Operation

/-- What became of a transaction on one row. `raised` stands for every exception
    that is passed on, `broken` for one of the commit that is looked into. -/
inductive ChangeAnswer where
  | gone
  | refused (error : MutationError)
  | found (row : WorkItemMutation)
  | committed (row : WorkItemMutation)
  | broken (error : MutationError)
  | raised (error : MutationError)

inductive InsertAnswer where
  | refused (message : String)
  | committed (row : WorkItemMutation)
  | broken (error : MutationError)
  | raised (error : MutationError)

/-- What became of a retirement. The rows it selected are named by their scope
    digest, payload digest and id. -/
inductive RetireAnswer where
  | committed (count : Nat)
  | broken (expected : List (String × String × String)) (error : MutationError)
  | raised (error : MutationError)

/-- What a worker asks: of the clock, of the database, of the connection registry,
    and of the tracker. -/
inductive MutationRequest where
  | now
  | uuid4
  | get (id : String)
  | getByScope (scope : MutationScope)
  | getTombstone (scopeHash : String)
  | readyIds (now : Instant) (limit : Nat)
  | insert (row : WorkItemMutation)
  | change (id : String) (op : Operation)
  | retire (cutoff : Instant) (limit : Nat)
  | resolveAdapter (connectionId : String) (projectId : Option String)
  | findItemByIdempotencyMarker (marker : String)
  | validateCreateItem (draft : WorkItemDraft) (marker : String)
  | createItem (draft : WorkItemDraft) (marker : String)
  | validateUpdateItemFields (fields : Dict Json)
  | updateItemFields (key : String) (fields : Dict Json)
  | hasCommentIdempotencyMarker (key marker : String)
  | addItemComment (key comment marker : String)
  | getItem (key : String)

/-- What is known of an adapter before it is called. -/
structure WorkTrackingAdapter where
  readOnly : Bool
  idempotent : Bool
  validatesCreate : Bool
  validatesFields : Bool

structure ResolvedConnection where
  adapter : WorkTrackingAdapter
  persisted : Bool
  connectionVersion : Option Instant

/-- The answers. A read or a call of the tracker returns or raises. -/
@[reducible] def MutationRequest.Answer : MutationRequest → Type
  | now => Instant
  | uuid4 => String
  | get _ => Except MutationError (Option WorkItemMutation)
  | getByScope _ => Except MutationError (Option WorkItemMutation)
  | getTombstone _ => Except MutationError (Option WorkItemMutationTombstone)
  | readyIds _ _ => Except MutationError (List String)
  | insert _ => InsertAnswer
  | change _ _ => ChangeAnswer
  | retire _ _ => RetireAnswer
  | resolveAdapter _ _ => Except MutationError ResolvedConnection
  | findItemByIdempotencyMarker _ => Except MutationError (Option WorkItem)
  | validateCreateItem _ _ => Except MutationError Unit
  | createItem _ _ => Except MutationError (Option WorkItem)
  | validateUpdateItemFields _ => Except MutationError Unit
  | updateItemFields _ _ => Except MutationError Unit
  | hasCommentIdempotencyMarker _ _ => Except MutationError Bool
  | addItemComment _ _ _ => Except MutationError Unit
  | getItem _ => Except MutationError WorkItem

def MutationRequest.isProviderCall : MutationRequest → Bool
  | findItemByIdempotencyMarker _ => true
  | validateCreateItem _ _ => true
  | createItem _ _ => true
  | validateUpdateItemFields _ => true
  | updateItemFields _ _ => true
  | hasCommentIdempotencyMarker _ _ => true
  | addItemComment _ _ _ => true
  | getItem _ => true
  | _ => false

abbrev MutationAction (α : Type) := Action MutationRequest MutationRequest.Answer MutationError α

abbrev ask (r : MutationRequest) : MutationAction r.Answer := Action.ask r

variable (env : WorkItemEnv)

def mutationTenantScope (projectId : Option String) : String :=
  env.sha256 (env.canonicalJson (.single "project_id" (textJson projectId)))

def MutationScope.names : List String :=
  ["connection_id", "consumer_id", "idempotency_key", "operation", "tenant_scope"]

def MutationScope.json (scope : MutationScope) : Dict Json where
  items := [("connection_id", .str scope.connectionId), ("consumer_id", .str scope.consumerId),
    ("idempotency_key", .str scope.idempotencyKey), ("operation", .str scope.operation),
    ("tenant_scope", .str scope.tenantScope)]
  nodup := (by decide : MutationScope.names.Nodup)

def mutationScopeHash (scope : MutationScope) : String :=
  env.sha256 (env.canonicalJson scope.json)

/-- `canonical_mutation_payload_hash`. -/
def mutationPayloadHash (payload : MutationPayload) : String :=
  env.sha256 (env.canonicalJson payload.json)

/-- `_validate_identifier` for a text. -/
def identifierOk (maximum : Nat) (trimmed : Bool) (value : String) : Bool :=
  1 ≤ value.length && value.length ≤ maximum && !hasNul value && (!trimmed || value == strip value)
    && !containsCredentialMaterial env.rules plainScanLimits (.str value)

/-- The message `_validate_identifier` raises. -/
def identifierMessage (label : String) (maximum : Nat) (allowNone : Bool) : String :=
  label ++ " must be a credential-free 1-" ++ toString maximum ++ " character string"
    ++ (if allowNone then " or null" else "")

/-- The operation a payload is for, if the payload passes its validators. -/
def payloadOperation : MutationPayload → Option String
  | .create draft => if draft.valid env then some "create" else none
  | .enrich key enrichment =>
    if targetKeyOk env key && enrichment.valid env
        && (enrichment.hasFields || enrichment.hasComment) then some "enrich" else none

/-- What `reserve` is called with. -/
structure Reservation where
  scope : MutationScope
  payloadHash : String
  payload : MutationPayload
  targetKey : Option String
  projectId : Option String
  connectionVersion : Instant
  fieldsStatus : StepStatus
  commentStatus : StepStatus
  deriving DecidableEq

def validatedMutationPayload (scope : MutationScope) (payloadHash : String)
    (payload : MutationPayload) (projectId : Option String) : Except MutationError Unit := do
  raiseIf (!identifierOk env 255 false scope.consumerId)
    (.value (identifierMessage "work-item mutation consumer id" 255 false))
  raiseIf (!identifierOk env 32 false scope.connectionId)
    (.value (identifierMessage "work-item mutation connection id" 32 false))
  raiseIf (!identifierOk env 255 true scope.idempotencyKey)
    (.value (identifierMessage "work-item mutation idempotency key" 255 false))
  raiseIf (projectId.any (fun p => !identifierOk env 255 false p))
    (.value (identifierMessage "work-item mutation project id" 255 true))
  raiseIf (scope.tenantScope != mutationTenantScope env projectId)
    (.value "work-item mutation tenant scope does not match its project")
  raiseIf (!env.validateJsonObject payload.json) (.value "work-item mutation payload is invalid")
  raiseIf (payloadHash != mutationPayloadHash env payload)
    (.value "work-item mutation payload hash does not match canonical JSON")
  raiseIf (payloadOperation env payload != some scope.operation)
    (.value "work-item mutation payload is invalid or credential-bearing")

/-- The target and the step states that belong to a payload. -/
def expectedSteps : MutationPayload → Option String × StepStatus × StepStatus
  | .create _ => (none, .skipped, .skipped)
  | .enrich key enrichment =>
    (some key, if enrichment.hasFields then .pending else .skipped,
      if enrichment.hasComment then .pending else .skipped)

def validateMutationReservation (r : Reservation) : Except MutationError Unit := do
  validatedMutationPayload env r.scope r.payloadHash r.payload r.projectId
  raiseIf (r.targetKey != (expectedSteps r.payload).1)
    (.value "work-item mutation target does not match its operation payload")
  raiseIf ((r.fieldsStatus, r.commentStatus) != (expectedSteps r.payload).2)
    (.value "work-item mutation step states do not match its operation payload")

/-- `_validate_payload`, `_validate_project` and `_validate_connection_version`. -/
def validateExisting (row : WorkItemMutation) (payloadHash : String) (payload : MutationPayload)
    (projectId : Option String) (connectionVersion : Instant) : Except MutationError Unit := do
  raiseIf (row.payloadHash != payloadHash || row.payload != payload)
    (.payloadConflict "idempotency key is already bound to a different work-item mutation payload")
  raiseIf (row.projectId != projectId)
    (.connectionChanged "work-item mutation project binding changed")
  raiseIf (row.connectionVersion != connectionVersion)
    (.connectionChanged "work-tracking connection changed after this mutation was reserved")

/-- What `reserve` checks of the locked connection. -/
def connectionRefusal (connection : Option Connection) (projectId : Option String)
    (connectionVersion : Instant) : Option String :=
  match connection with
  | none => some "work-tracking connection is missing or disabled"
  | some c =>
    if !c.enabled || c.kind != "work_tracking" then
      some "work-tracking connection is missing or disabled"
    else if c.projectId.isSome && c.projectId != projectId then
      some "work-tracking connection is outside the mutation project"
    else if projectId.isSome && c.projectId.isNone
        && !(["stub", "fake"].contains (strip c.provider).toLower) then
      some "real work-tracking connection is not bound to the mutation project"
    else if c.runtimeVersion != connectionVersion then
      some "work-tracking connection changed during mutation reservation"
    else none

/-- The row `reserve` inserts. Its `updated_at` is set when it is stored. -/
def Reservation.row (r : Reservation) (id : String) : WorkItemMutation where
  id := id
  scope := r.scope
  projectId := r.projectId
  connectionVersion := r.connectionVersion
  payloadHash := r.payloadHash
  payload := r.payload
  targetKey := r.targetKey
  providerMarker := providerMarkerOf id
  providerAttemptedAt := none
  commentAttemptedAt := none
  status := .pending
  fieldsStatus := r.fieldsStatus
  commentStatus := r.commentStatus
  result := none
  claimToken := none
  claimedAt := none
  nextAttemptAt := none
  attemptCount := 0
  lastError := none
  terminalError := none
  updatedAt := 0

namespace Mutations

def get (id : String) : MutationAction (Option WorkItemMutation) := do
  settle (← ask (.get id))

def getByScope (scope : MutationScope) : MutationAction (Option WorkItemMutation) := do
  settle (← ask (.getByScope scope))

def getTombstone (env : WorkItemEnv) (scope : MutationScope) :
    MutationAction (Option WorkItemMutationTombstone) := do
  settle (← ask (.getTombstone (mutationScopeHash env scope)))

def tombstoneError (tombstone : WorkItemMutationTombstone) (payloadHash : String) :
    MutationError :=
  if tombstone.payloadHash != payloadHash then
    .payloadConflict "idempotency key is already bound to a different retired payload"
  else .retired "idempotency key is retired and cannot safely repeat its provider mutation"

variable (env : WorkItemEnv) (r : Reservation)

/-- A row found under the scope, if it is bound to the same request. -/
def existing (row : WorkItemMutation) : MutationAction WorkItemMutation := do
  settle (validateExisting row r.payloadHash r.payload r.projectId r.connectionVersion)
  pure row

/-- The insertion at the end of `reserve`. -/
def insertReserved : MutationAction WorkItemMutation := do
  let rowId ← ask .uuid4
  match ← ask (.insert (r.row rowId)) with
  | .refused message => throw (.connectionChanged message)
  | .committed row => pure row
  | .raised error => throw error
  | .broken error =>
    -- The insert may have committed, or a concurrent request won the scope.
    match ← getByScope r.scope with
    | none => throw error
    | some row => existing r row

def reserveValidated : MutationAction WorkItemMutation := do
  match ← getByScope r.scope with
  | some row => existing r row
  | none =>
    match ← getTombstone env r.scope with
    | some tombstone => throw (tombstoneError tombstone r.payloadHash)
    | none => insertReserved r

def reserve : MutationAction WorkItemMutation := do
  settle (validateMutationReservation env r)
  reserveValidated env r

def inspect : MutationAction (Option WorkItemMutation) := do
  settle (validatedMutationPayload env r.scope r.payloadHash r.payload r.projectId)
  match ← getByScope r.scope with
  | some row => some <$> existing r row
  | none =>
    match ← getTombstone env r.scope with
    | some tombstone => throw (tombstoneError tombstone r.payloadHash)
    | none => pure none

/-- What every operation makes of the answer to its transaction. -/
def change (id : String) (op : Operation) : MutationAction WorkItemMutation := do
  match ← ask (.change id op) with
  | .gone => throw op.disappeared
  | .refused error => throw error
  | .found row => pure row
  | .committed row => pure row
  | .raised error => throw error
  | .broken error =>
    if op.recovers then
      match ← get id with
      | none => throw error
      | some row => if op.acknowledged row then pure row else throw error
    else throw error

def claim (id : String) (ignoreBackoff : Bool) : MutationAction WorkItemMutation := do
  let token ← ask .uuid4
  let now ← ask .now
  change id (.claim token now ignoreBackoff)

def markStep (id token : String) (step : Step) : MutationAction WorkItemMutation :=
  change id (.markStep token step)

def markProviderAttempted (id token : String) : MutationAction WorkItemMutation := do
  let attemptedAt ← ask .now
  change id (.markProviderAttempted token attemptedAt)

def markCommentAttempted (id token : String) : MutationAction WorkItemMutation := do
  let attemptedAt ← ask .now
  change id (.markCommentAttempted token attemptedAt)

def renew (id token : String) : MutationAction WorkItemMutation := do
  let now ← ask .now
  change id (.renew token now)

def validatedCompletionResult (result : WorkItem) : Except MutationError Unit := do
  raiseIf (env.validatedProviderWorkItem result != some result)
    (.value "work-item mutation result is not in canonical safe form")

def complete (env : WorkItemEnv) (id token : String) (result : WorkItem) :
    MutationAction WorkItemMutation := do
  settle (validatedCompletionResult env result)
  change id (.complete token result)

def safeErrorText (error : String) : String :=
  env.sanitizeDurableText 4096 error

def fail (env : WorkItemEnv) (id token : String) (errorKind : ErrorKind) (error : String) :
    MutationAction WorkItemMutation :=
  change id (.fail token errorKind (safeErrorText env error))

def release (env : WorkItemEnv) (id token error : String) (retryDelay : Int) :
    MutationAction WorkItemMutation := do
  let now ← ask .now
  change id (.release token (safeErrorText env error) (now + retryDelay))

def deferResolution (env : WorkItemEnv) (id error : String) (retryDelay : Int) :
    MutationAction WorkItemMutation := do
  let now ← ask .now
  change id (.deferResolution now (safeErrorText env error) (now + retryDelay))

def retirementMatches : List (String × String × String) → MutationAction Bool
  | [] => pure true
  | (scopeHash, payloadHash, id) :: expected => do
      let tombstone ← settle (← ask (.getTombstone scopeHash))
      let live ← get id
      if tombstone.all (fun t => t.payloadHash != payloadHash) || live.isSome then pure false
      else retirementMatches expected

def retireTerminalBefore (cutoff : Instant) (limit : Nat) : MutationAction Nat := do
  match ← ask (.retire cutoff limit) with
  | .committed count => pure count
  | .raised error => throw error
  | .broken expected error =>
    if ← retirementMatches expected then pure expected.length else throw error

end Mutations

/-- What the workers share: the two tables, the connection registry, the clock, and
    the identifiers drawn so far with who drew them. -/
structure MutationStore (ι : Type) where
  rows : String → Option WorkItemMutation
  tombstones : String → Option WorkItemMutationTombstone
  connections : String → Option Connection
  clock : Instant
  issued : String → Option ι

def WorkItemMutation.ready (row : WorkItemMutation) (now : Instant) : Bool :=
  (row.status == .pending && row.nextAttemptAt.all (fun t => t ≤ now)) ||
    (row.status == .running && row.claimedAt.all (fun t => t ≤ now - mutationLease))

def WorkItemMutation.retirement (row : WorkItemMutation) :
    String × String × String :=
  (mutationScopeHash env row.scope, row.payloadHash, row.id)

namespace MutationStore

variable {ι : Type}

def Vacant (s : MutationStore ι) (scope : MutationScope) : Prop :=
  ∀ id row, s.rows id = some row → row.scope ≠ scope

/-- Insert a row, which the unique keys allow, for a connection as it should be. -/
def Inserts (s : MutationStore ι) (row stored : WorkItemMutation) (s' : MutationStore ι) : Prop :=
  connectionRefusal (s.connections row.scope.connectionId) row.projectId row.connectionVersion
      = none ∧
    s.rows row.id = none ∧ s.Vacant row.scope ∧ stored = { row with updatedAt := s.clock } ∧
    s' = { s with rows := Function.update s.rows row.id (some stored) }

/-- Write what an operation makes of the stored row. -/
def Changes (s : MutationStore ι) (id : String) (op : Operation) (stored : WorkItemMutation)
    (s' : MutationStore ι) : Prop :=
  ∃ row written, s.rows id = some row ∧ op.decide row = .write written ∧
    stored = row.flushed written s.clock ∧
    s' = { s with rows := Function.update s.rows id (some stored) }

/-- The loop of `retire_terminal_before` over the rows it selected. -/
def retireRows (env : WorkItemEnv) : List WorkItemMutation → MutationStore ι →
    Except MutationError (MutationStore ι)
  | [], s => .ok s
  | row :: rest, s =>
    let scopeHash := mutationScopeHash env row.scope
    match s.tombstones scopeHash with
    | none =>
      retireRows env rest
        { s with
          tombstones :=
            Function.update s.tombstones scopeHash (some ⟨row.payloadHash, row.status⟩)
          rows := Function.update s.rows row.id none }
    | some tombstone =>
      if tombstone.payloadHash != row.payloadHash then
        .error (.runtime "work-item mutation tombstone hash collision")
      else retireRows env rest { s with rows := Function.update s.rows row.id none }

/-- The rows a retirement may select: settled ones that were last changed before the
    cutoff. Those another transaction has locked are skipped. -/
def Retirable (s : MutationStore ι) (cutoff : Instant) (limit : Nat)
    (selected : List WorkItemMutation) : Prop :=
  selected.length ≤ limit ∧ (selected.map (·.id)).Nodup ∧
    ∀ row ∈ selected, s.rows row.id = some row ∧ row.status.isTerminal = true ∧
      row.updatedAt < cutoff

def Retires (env : WorkItemEnv) (s : MutationStore ι) (cutoff : Instant) (limit : Nat)
    (selected : List WorkItemMutation) (s' : MutationStore ι) : Prop :=
  s.Retirable cutoff limit selected ∧ retireRows env selected s = .ok s'

/-- Time passes, and the registry changes as it likes. -/
def Elapses (s s' : MutationStore ι) : Prop :=
  s'.rows = s.rows ∧ s'.tombstones = s.tombstones ∧ s'.issued = s.issued ∧ s.clock ≤ s'.clock

/-- How the store answers a worker. A transaction that raised may have committed all
    the same. The tracker answers anything. -/
def answers [DecidableEq ι] (env : WorkItemEnv) (i : ι) (s : MutationStore ι) :
    (r : MutationRequest) → r.Answer → MutationStore ι → Prop
  | .now, t, s' => t = s.clock ∧ s' = s
  | .uuid4, name, s' =>
    s.issued name = none ∧ s' = { s with issued := Function.update s.issued name (some i) }
  | .get id, a, s' => (∀ found, a = .ok found → found = s.rows id) ∧ s' = s
  | .getByScope scope, a, s' =>
    (a = .ok none → s.Vacant scope) ∧
      (∀ row, a = .ok (some row) → s.rows row.id = some row ∧ row.scope = scope) ∧ s' = s
  | .getTombstone scopeHash, a, s' =>
    (∀ found, a = .ok found → found = s.tombstones scopeHash) ∧ s' = s
  | .readyIds now limit, a, s' =>
    (∀ ids, a = .ok ids → ids.length ≤ limit ∧
      ∀ id ∈ ids, ∃ row, s.rows id = some row ∧ row.ready now = true) ∧ s' = s
  | .insert row, .refused message, s' =>
    connectionRefusal (s.connections row.scope.connectionId) row.projectId
      row.connectionVersion = some message ∧ s' = s
  | .insert row, .committed stored, s' => s.Inserts row stored s'
  | .insert row, .broken _, s' => s' = s ∨ ∃ stored, s.Inserts row stored s'
  | .insert row, .raised _, s' => s' = s ∨ ∃ stored, s.Inserts row stored s'
  | .change id _, .gone, s' => s.rows id = none ∧ s' = s
  | .change id op, .refused error, s' =>
    (∃ row, s.rows id = some row ∧ op.decide row = .refuse error) ∧ s' = s
  | .change id op, .found row, s' => s.rows id = some row ∧ op.decide row = .keep ∧ s' = s
  | .change id op, .committed stored, s' => s.Changes id op stored s'
  | .change id op, .broken _, s' => s' = s ∨ ∃ stored, s.Changes id op stored s'
  | .change id op, .raised _, s' => s' = s ∨ ∃ stored, s.Changes id op stored s'
  | .retire cutoff limit, .committed count, s' =>
    ∃ selected, s.Retires env cutoff limit selected s' ∧ count = selected.length
  | .retire cutoff limit, .broken expected _, s' =>
    ∃ selected, s.Retirable cutoff limit selected ∧ expected = selected.map (·.retirement env) ∧
      (s' = s ∨ s.Retires env cutoff limit selected s')
  | .retire cutoff limit, .raised _, s' =>
    s' = s ∨ ∃ selected, s.Retires env cutoff limit selected s'
  | .resolveAdapter _ _, _, s' => s' = s
  | .findItemByIdempotencyMarker _, _, s' => s' = s
  | .validateCreateItem _ _, _, s' => s' = s
  | .createItem _ _, _, s' => s' = s
  | .validateUpdateItemFields _, _, s' => s' = s
  | .updateItemFields _ _, _, s' => s' = s
  | .hasCommentIdempotencyMarker _ _, _, s' => s' = s
  | .addItemComment _ _ _, _, s' => s' = s
  | .getItem _, _, s' => s' = s

end MutationStore

/-- The store, and what each worker was called for and when. -/
structure MutationWorld (ι κ : Type) where
  store : MutationStore ι
  calls : ι → Option (κ × Instant)

/-- Workers that are called to run programs over one store. A worker acts only while
    it is within its lifetime. -/
def mutationSystem {ι κ ρ : Type} [DecidableEq ι]
    (program : κ → Program MutationRequest MutationRequest.Answer ρ)
    (alive : Instant → Instant → Prop) :
    System (MutationWorld ι κ) ι MutationRequest MutationRequest.Answer ρ where
  respond i w r a w' :=
    ∃ call since s, w.calls i = some (call, since) ∧ alive since w.store.clock ∧
      w.store.answers env i r a s ∧ s.Elapses w'.store ∧ w'.calls = w.calls
  start i w p w' :=
    ∃ call, p = program call ∧ w.store.Elapses w'.store ∧
      w'.calls = Function.update w.calls i (some (call, w.store.clock))

def MutationWorld.empty {ι κ : Type} (connections : String → Option Connection)
    (clock : Instant) : MutationWorld ι κ where
  store := ⟨fun _ => none, fun _ => none, connections, clock, fun _ => none⟩
  calls _ := none

end Apex.Persistence
