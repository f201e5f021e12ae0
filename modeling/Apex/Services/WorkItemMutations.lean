import Apex.Persistence.WorkItemMutations

/-!
# Durable Work-Item Mutations

The coordinator of creations and enrichments. A request reserves a row, claims
it, executes the mutation under the lease and completes, fails or releases the
row. The reconciler does the same for rows that were left behind.

While a mutation executes, a heartbeat renews the lease. It is a call of its own
here, made by any worker at any time; when it fails, the execution is
interrupted at whatever it is waiting for, which is one more answer a request
may get.

## Main definitions

* `executeCreate`, `executeEnrich`: The mutations under a lease.
* `runMutation`: Claim, execute, and settle the row.
-/

namespace Apex.Services

open Domain Persistence

open Apex.Action hiding ask

/-- `TERMINAL_REPLAY_RETENTION`: thirty days. -/
def terminalReplayRetention : Int := 2592000000000

def retryDelaySeconds : Nat := 30

def maxRetryDelaySeconds : Nat := 3600

variable (env : WorkItemEnv) (row claimed : WorkItemMutation) (mutationId : String)
  (adapter : WorkTrackingAdapter) (claimToken key : String)

/-- `_retry_delay`: exponential, with a jitter drawn from the digest of the id. -/
def retryDelay (attemptCount : Nat) : Int :=
  let exponent := min (attemptCount - 1) 10
  let unjittered := min (retryDelaySeconds * 2 ^ exponent) maxRetryDelaySeconds
  -- The first two bytes of the digest are its first four hexadecimal digits.
  let digest := env.sha256 (mutationId ++ ":" ++ toString attemptCount)
  let draw := (digest.toList.take 4).foldl (fun n c =>
    16 * n + (if c.toNat < 58 then c.toNat - 48 else c.toNat - 87)) 0
  let micros := unjittered * 750000 + unjittered * draw * 1000000 / 131070
  (min micros (maxRetryDelaySeconds * 1000000) : Nat)

def requireIdempotentAdapter : MutationAction Unit := do
  raiseWhen adapter.readOnly
    (.rejected "work-tracking connection is read-only; author work items in the tracker itself")
  raiseWhen (!adapter.idempotent)
    (.runtime "resolved work-tracking adapter does not implement durable mutation reconciliation")

def storedResult : Except MutationError WorkItem :=
  match row.status, row.result with
  | .completed, some item =>
    match env.validatedProviderWorkItem item with
    | none => .error (.runtime "completed work-item mutation has an invalid durable result")
    | some result =>
      if row.scope.operation == "enrich" && some result.key != row.targetKey then
        .error (.runtime "completed enrichment result does not match its target")
      else .ok result
  | _, _ => .error (.runtime "completed work-item mutation has no durable result")

/-- `_raise_stored_failure`. -/
def storedFailure : MutationError :=
  match row.terminalError with
  | some .notFound => .key "work tracker rejected the previously attempted target"
  | some .rejected => .value "work tracker rejected the previously attempted mutation"
  | none => .runtime "work tracker mutation previously failed"

/-- `WorkItemMutationOutcomeAmbiguousError`. -/
def outcomeAmbiguous (operation : String) :
    MutationError :=
  .ambiguous (env.sanitizeDurableText 255 row.id) (env.sanitizeDurableText 255 row.providerMarker)
    operation

/-- Whether an exception is a `ValueError`. -/
def MutationError.isValueError : MutationError → Bool
  | .rejected _ => true
  | .payloadConflict _ => true
  | .value _ => true
  | _ => false

def validatorError : MutationError → MutationError
  | .targetNotFound _ => .permanent .notFound
  | e => if MutationError.isValueError e then .permanent .rejected else e

/-- The handlers around a call that may name a missing target or be rejected. -/
def targetError : MutationError → MutationError
  | .targetNotFound _ => .permanent .notFound
  | .rejected _ => .permanent .rejected
  | e => e

/-- The handlers around `create_item_idempotent`. -/
def createError (ambiguous : MutationError) : MutationError → MutationError
  | .rejected _ => .permanent .rejected
  | .cancelled heartbeat => .cancelled heartbeat
  | _ => ambiguous

/-- The handlers around `add_item_comment_idempotent`. -/
def commentError (ambiguous : MutationError) : MutationError → MutationError
  | .targetNotFound _ => .permanent .notFound
  | .rejected _ => .permanent .rejected
  | .cancelled heartbeat => .cancelled heartbeat
  | _ => ambiguous

/-- Call a validator that the adapter may not have. -/
def runOptionalValidator (present : Bool) (r : MutationRequest)
    (h : r.Answer = Except MutationError Unit) : MutationAction Unit :=
  if present then do settleWith validatorError (h ▸ (← ask r)) else pure ()

def completeMutation (item : WorkItem) :
    MutationAction WorkItem := do
  match env.validatedProviderWorkItem item with
  | none => throw (.runtime "work-tracking adapter returned an invalid work item")
  | some result =>
    let completed ← Mutations.complete env mutationId claimToken result
    settle (storedResult env completed)

/-- The end of `_execute_create`. -/
def completeCreated :
    Option WorkItem → MutationAction WorkItem
  | none => throw (.runtime "work tracker returned no created item")
  | some item => completeMutation env mutationId claimToken item

/-- The part of `_execute_create` that dispatches the creation. -/
def dispatchCreate (draft : WorkItemDraft) : MutationAction WorkItem := do
  runOptionalValidator adapter.validatesCreate (.validateCreateItem draft row.providerMarker) rfl
  let row ← Mutations.markProviderAttempted row.id claimToken
  let item ← settleWith (createError (outcomeAmbiguous env row "create"))
    (← ask (.createItem draft row.providerMarker))
  completeCreated env row.id claimToken item

def executeCreate : MutationAction WorkItem := do
  match ← settle (← ask (.findItemByIdempotencyMarker row.providerMarker)) with
  | some item => completeMutation env row.id claimToken item
  | none =>
    -- The search of the tracker may lag behind its writes, so a creation that
    -- may have been dispatched is not dispatched again.
    if row.providerAttemptedAt.isSome then throw (outcomeAmbiguous env row "create")
    else
      match row.payload with
      | .create draft =>
        if draft.valid env then dispatchCreate env row adapter claimToken draft
        else throw (.permanent .rejected)
      | .enrich _ _ => throw (.key "draft")

/-- The last part of `_execute_enrich`. -/
def finishEnrich : MutationAction WorkItem := do
  match env.validatedProviderWorkItem (← settle (← ask (.getItem key))) with
  | none => throw (.runtime "work-tracking adapter returned an invalid work item")
  | some item =>
    if item.key != key then
      throw (.runtime "work tracker returned a mismatched enrichment target")
    else completeMutation env mutationId claimToken item

/-- The part of `_execute_enrich` that dispatches the comment. -/
def dispatchComment (comment : String) :
    MutationAction Unit := do
  let row ← Mutations.markCommentAttempted row.id claimToken
  settleWith (commentError (outcomeAmbiguous env row "comment"))
    (← ask (.addItemComment key comment row.providerMarker))

/-- The comment of `_execute_enrich`, unless the tracker has it. -/
def addComment (enrichment : Enrichment) : MutationAction Unit := do
  let hasMarker ← settleWith targetError
    (← ask (.hasCommentIdempotencyMarker key row.providerMarker))
  if hasMarker then pure ()
  else if row.commentAttemptedAt.isSome then throw (outcomeAmbiguous env row "comment")
  else
    match enrichment.comment with
    | none => throw (.runtime "comment step has no durable comment payload")
    | some comment => dispatchComment env row claimToken key comment

/-- The comment step of `_execute_enrich` and what follows. -/
def commentStep (enrichment : Enrichment) : MutationAction WorkItem := do
  if row.commentStatus == .pending then
    addComment env row claimToken key enrichment
    let row ← Mutations.markStep row.id claimToken .comment
    finishEnrich env row.id claimToken key
  else finishEnrich env row.id claimToken key

/-- The field step of `_execute_enrich` and what follows. -/
def fieldsStep (enrichment : Enrichment) : MutationAction WorkItem := do
  if row.fieldsStatus == .pending then
    runOptionalValidator adapter.validatesFields (.validateUpdateItemFields enrichment.fields) rfl
    settleWith targetError (← ask (.updateItemFields key enrichment.fields))
    let row ← Mutations.markStep row.id claimToken .fields
    commentStep env row claimToken key enrichment
  else commentStep env row claimToken key enrichment

def executeEnrich : MutationAction WorkItem := do
  match row.targetKey with
  | none => throw (.runtime "enrichment mutation is missing its target key")
  | some key =>
    if key == "" then throw (.runtime "enrichment mutation is missing its target key")
    else
      match row.payload with
      | .create _ => throw (.key "enrichment")
      | .enrich _ enrichment =>
        if enrichment.valid env then fieldsStep env row adapter claimToken key enrichment
        else throw (.permanent .rejected)

/-- `execute` in `_run`. -/
def executeMutation : MutationAction WorkItem :=
  if claimed.scope.operation == "create" then executeCreate env claimed adapter claimToken
  else if claimed.scope.operation == "enrich" then executeEnrich env claimed adapter claimToken
  else throw (.runtime "unknown work-item mutation operation")

/-- `_release_after_interruption`, and the exception is raised again. A release that
    is cancelled itself ends in a cancellation. -/
def releaseAfterInterruption (error : MutationError) : MutationAction WorkItem := do
  let _ ← tryCatch
    (some <$> Mutations.release env claimed.id claimToken error.typeName
      (retryDelay env claimed.id claimed.attemptCount))
    (fun releaseError => match releaseError with
      | .cancelled heartbeat => throw (.cancelled heartbeat)
      | _ => pure none)
  throw error

/-- What `_run` does with an exception of the execution. -/
def settleInterruption :
    MutationError → MutationAction WorkItem
  | .permanent .notFound => do
      let _ ← Mutations.fail env claimed.id claimToken .notFound
        "WorkTrackingMutationTargetNotFoundError"
      throw (.targetNotFound "work tracker rejected the mutation target")
  | .permanent .rejected => do
      let _ ← Mutations.fail env claimed.id claimToken .rejected "WorkTrackingMutationRejectedError"
      throw (.rejected "work tracker rejected the mutation")
  | error => releaseAfterInterruption env claimed claimToken error

/-- What `_run` does under the lease of the row it claimed. -/
def executeClaimed : MutationAction WorkItem :=
  match claimed.claimToken with
  | none => throw (.runtime "claimed work-item mutation has no lease token")
  | some claimToken =>
    tryCatch (executeMutation env claimed adapter claimToken)
      (settleInterruption env claimed claimToken)

/-- What `_run` does with the row it claimed. -/
def runClaimed :
    MutationAction WorkItem :=
  match claimed.status with
  | .completed => settle (storedResult env claimed)
  | .failed => throw (storedFailure claimed)
  | _ => executeClaimed env claimed adapter

/-- What `_run` does with a row that is not settled. -/
def claimAndRun (foreground : Bool) : MutationAction WorkItem := do
  requireIdempotentAdapter adapter
  let claimed ← Mutations.claim row.id (foreground && row.attemptCount == 0)
  runClaimed env claimed adapter

def runMutation (foreground : Bool) : MutationAction WorkItem :=
  match row.status with
  | .completed => settle (storedResult env row)
  | .failed => throw (storedFailure row)
  | _ => claimAndRun env row adapter foreground

/-- The identity of a caller: its consumer, whether it may operate, whether it may
    act everywhere, and the projects and apps it is restricted to. -/
structure ConsumerIdentity where
  consumerId : String
  isOperator : Bool
  isUnscoped : Bool
  scopes : List (String × Option String)

/-- `_validated_mutation_scope_text`. -/
def mutationScopeTextOk (maxChars : Nat) (value : String) : Bool :=
  1 ≤ value.length && value.length ≤ maxChars && value == strip value && !hasControl value
    && !containsCredentialMaterial env.rules plainScanLimits (.str value)

def mutationScope (identity : ConsumerIdentity) (projectId : Option String)
    (connectionId operation idempotencyKey : String) : Except MutationError MutationScope := do
  raiseIf (!mutationScopeTextOk env 255 idempotencyKey)
    (.value "Idempotency-Key must contain 1-255 canonical characters")
  raiseIf (!mutationScopeTextOk env 32 connectionId)
    (.value "resolved work-tracking connection id must contain 1-32 canonical characters")
  raiseIf (!mutationScopeTextOk env 255 identity.consumerId)
    (.value "consumer id must contain 1-255 canonical characters")
  raiseIf (projectId.any (fun p => !mutationScopeTextOk env 255 p))
    (.value "project id must contain 1-255 canonical characters")
  raiseIf (!(identity.isOperator && (identity.isUnscoped ||
      projectId.any (fun p => identity.scopes.contains (p, none)))))
    (.permission "work-item mutations require project-wide operator scope")
  pure ⟨mutationTenantScope env projectId, identity.consumerId, connectionId, operation,
    idempotencyKey⟩

structure MutationCaller where
  identity : ConsumerIdentity
  projectId : Option String
  connectionId : String
  connectionVersion : Option Instant
  idempotencyKey : String

/-- The reservation of a request on a persisted connection. -/
def MutationCaller.reservation (caller : MutationCaller)
    (payload : MutationPayload) : Except MutationError Reservation := do
  let operation := match payload with
    | .create _ => "create"
    | .enrich _ _ => "enrich"
  let scope ← mutationScope env caller.identity caller.projectId caller.connectionId operation
    caller.idempotencyKey
  match caller.connectionVersion with
  | none =>
    .error (.connectionChanged "persisted work-tracking connection has no immutable version")
  | some connectionVersion =>
    let steps := expectedSteps payload
    .ok ⟨scope, mutationPayloadHash env payload, payload, steps.1, caller.projectId,
      connectionVersion, steps.2.1, steps.2.2⟩

/-- What `create` and `enrich` check of a payload before anything else. -/
def payloadRefusal : MutationPayload → Except MutationError Unit
  | .create draft =>
    raiseIf (!draft.valid env) (.value "work item draft is invalid or contains credential material")
  | .enrich key enrichment => do
      raiseIf (!targetKeyOk env key)
        (.value "work-item key must be a safe identifier of at most 255 characters")
      raiseIf (!enrichment.valid env)
        (.value "work item enrichment is invalid or contains credential material")
      raiseIf (!(enrichment.hasFields || enrichment.hasComment))
        (.value "work-item enrichment must include fields or a comment")

/-- The checks of `create` and `enrich`, which come in another order. -/
def checkRequest :
    MutationPayload → MutationAction Unit
  | .create draft => do
      requireIdempotentAdapter adapter
      settle (payloadRefusal env (.create draft))
  | .enrich key enrichment => do
      settle (payloadRefusal env (.enrich key enrichment))
      requireIdempotentAdapter adapter

/-- `create` and `enrich`, which differ in their payload. -/
def mutate (caller : MutationCaller) (payload : MutationPayload) : MutationAction WorkItem := do
  checkRequest env adapter payload
  let row ← Mutations.reserve env (← settle (caller.reservation env payload))
  runMutation env row adapter true

/-- `replay_create` and `replay_enrich`. -/
def replay (caller : MutationCaller) (payload : MutationPayload) :
    MutationAction (Option WorkItem) := do
  settle (payloadRefusal env payload)
  match ← Mutations.inspect env (← settle (caller.reservation env payload)) with
  | none => pure none
  | some row =>
    match row.status with
    | .completed => some <$> settle (storedResult env row)
    | .failed => throw (storedFailure row)
    | _ => pure none

def resume :
    MutationAction WorkItem := do
  match ← Mutations.get mutationId with
  | none => throw (.runtime "work-item mutation disappeared before reconciliation")
  | some row => runMutation env row adapter false

/-- `defer_resolution` of the service. -/
def deferResolution (env : WorkItemEnv) (mutationId error : String) : MutationAction Unit := do
  match ← Mutations.get mutationId with
  | none => pure ()
  | some row =>
    let _ ← Mutations.deferResolution env mutationId error
      (retryDelay env row.id (row.attemptCount + 1))

def retireTerminal : MutationAction Nat := do
  let now ← ask .now
  Mutations.retireTerminalBefore (now - terminalReplayRetention) 250

/-- The connection of a row, if it is still the one the row was reserved for. -/
def resolveForRow : MutationAction WorkTrackingAdapter := do
  let resolved ← settle (← ask (.resolveAdapter row.scope.connectionId row.projectId))
  raiseWhen (!resolved.persisted)
    (.runtime "durable mutation resolved to a non-persisted connection")
  raiseWhen (resolved.connectionVersion != some row.connectionVersion)
    (.connectionChanged "work-tracking connection version no longer matches the durable mutation")
  pure resolved.adapter

/-- Swallow an exception that is not a cancellation. -/
def passCancellation : MutationError → MutationAction Unit
  | .cancelled heartbeat => throw (.cancelled heartbeat)
  | _ => pure ()

/-- What the reconciler does when it cannot resolve the connection of a row. -/
def deferUnresolved (env : WorkItemEnv) (mutationId : String) (error : MutationError) :
    MutationAction Unit :=
  match error with
  | .cancelled heartbeat => throw (.cancelled heartbeat)
  | .claimed _ => pure ()
  | error => tryCatch (deferResolution env mutationId error.typeName) passCancellation

def reconcileRow (env : WorkItemEnv) (row : WorkItemMutation) : MutationAction Unit := do
  match ← tryCatch (some <$> resolveForRow row)
      (fun error => do deferUnresolved env row.id error; pure none) with
  | none => pure ()
  | some adapter => tryCatch (do let _ ← resume env row.id adapter) passCancellation

def reconcileRows : List String → MutationAction Unit
  | [] => pure ()
  | mutationId :: rest => do
      match ← Mutations.get mutationId with
      | none => reconcileRows rest
      | some row => do
          reconcileRow env row
          reconcileRows rest

def reconcileMutationsOnce : MutationAction Unit := do
  let now ← ask .now
  let ids ← settle (← ask (.readyIds now 25))
  reconcileRows env ids
  tryCatch (do let _ ← retireTerminal) passCancellation

/-- What workers are called for. A heartbeat is one renewal by a task beside an
    execution. -/
inductive MutationCall where
  | mutate (adapter : WorkTrackingAdapter) (caller : MutationCaller) (payload : MutationPayload)
  | replay (caller : MutationCaller) (payload : MutationPayload)
  | reconcile
  | heartbeat (mutationId claimToken : String)

/-- The program of a call. Only the requests return an item. -/
def MutationCall.program : MutationCall →
    Program MutationRequest MutationRequest.Answer (Except MutationError (Option WorkItem))
  | mutate adapter caller payload => (some <$> Services.mutate env adapter caller payload).run
  | replay caller payload => (Services.replay env caller payload).run
  | reconcile => (do reconcileMutationsOnce env; pure none : MutationAction (Option WorkItem)).run
  | heartbeat mutationId claimToken =>
    (do let _ ← Mutations.renew mutationId claimToken
        pure none : MutationAction (Option WorkItem)).run

end Apex.Services
