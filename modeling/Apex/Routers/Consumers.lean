import Apex.Auth.Service

/-!
# The Administration Of Consumers

Admins list, read, create, update, delete and rotate consumers. An admin with
scopes may manage only consumers with scopes that are all inside its own, may hand
out only such scopes, and is told about every other consumer what it would be told
if there were none.

Every handler prepares a row from what it reads and then commits it. The raw key of
a created or rotated consumer is answered once and is not stored.

## Main definitions

* `canManageConsumer`, `grantDenialDetail`: What an admin may manage and hand out.
* `ConsumerRead`: What is shown of a consumer.
* `preparedCreation`, `preparedUpdate`, `preparedDeletion`, `preparedRotation`: The
  handlers up to the commit.
* `handleConsumers`: The handlers.
-/

namespace Apex.Routers

open Auth Persistence

open Services (Instant)

def scopeRefs (consumer : ApiConsumer) : Except ConsumerError (List ScopeRef) :=
  consumer.scopes.mapM fun scope =>
    someOr (.failed "ValidationError") (scopeRef? scope.projectId scope.appId)

def consumerIsUnscopedAdmin (role : Role) (scopes : List ScopeRef) : Bool :=
  role == .admin && scopes.isEmpty

variable (env : ConsumersEnv) (identity : ConsumerIdentity) (now : Instant)
  (scopes : List ScopeRef) (facts : RequestFacts) (id : String) (table : Consumers)

def scopesInsideAdmin : Bool :=
  identity.isUnscoped || (!scopes.isEmpty && scopes.all identity.containsScope)

def canManageConsumer (consumer : ApiConsumer) :
    Except ConsumerError Bool :=
  if identity.isUnscoped then pure true
  else do
    let scopes ← scopeRefs consumer
    pure (!consumerIsUnscopedAdmin consumer.role scopes && scopesInsideAdmin identity scopes)

def grantDenialDetail (role : Role) (scopes : List ScopeRef) :
    Option String :=
  if identity.isUnscoped then none
  else if consumerIsUnscopedAdmin role scopes then some "Scoped admins cannot grant platform admin"
  else if !scopesInsideAdmin identity scopes then
    some "Scoped admins cannot grant out-of-scope access"
  else none

def ensureCanGrant (role : Role) (scopes : List ScopeRef) :
    Except ConsumerError Unit :=
  match grantDenialDetail identity role scopes with
  | none => pure ()
  | some detail => throw (.http 403 detail)

/-- The answer about a consumer that is not there, or not for this admin. -/
def consumerNotFound : ConsumerError := .http 404 "consumer not found"

def consumerNameExists : ConsumerError := .http 409 "consumer name already exists"

/-- `_get_or_404` and `_get_for_update_or_404`, and what an admin may not manage. -/
def manageable (id : String) :
    Except ConsumerError ApiConsumer := do
  let consumer ← someOr consumerNotFound (table.get id)
  raiseIf (!(← canManageConsumer identity consumer)) consumerNotFound
  pure consumer

structure ConsumerRead where
  id : String
  name : String
  consumerType : ConsumerType
  role : Role
  enabled : Bool
  scopes : List ScopeRef
  createdAt : Instant
  lastUsedAt : Option Instant
  expiresAt : Option Instant
  revokedAt : Option Instant
  createdBy : Option String
  updatedBy : Option String
  rotatedAt : Option Instant
  rotationCount : Nat
  deletedAt : Option Instant
  keyFingerprint : String

/-- `_sanitize_consumer_metadata` of a text. -/
def sanitizeConsumerMetadata (env : ConsumerEnv) (maximum : Nat) (value : String) : String :=
  let safe := sanitizeForOutput env value
  if safe.isEmpty || decide (maximum < safe.length) || hasControl safe then redacted else safe

def keyFingerprint (keyHash : String) : String :=
  if keyHash.length = 64 ∧ keyHash.toList.all (fun c => isHexDigit c || ('A' ≤ c && c ≤ 'F')) then
    (keyHash.take 8).toString.toLower
  else "invalid"

def shownScope (env : ConsumerEnv) (scope : ConsumerScope) : Except ConsumerError ScopeRef :=
  someOr (.failed "ValidationError") (scopeRef? (sanitizeConsumerMetadata env 255 scope.projectId)
    (scope.appId.map (sanitizeConsumerMetadata env 255)))

def readModel (env : ConsumerEnv) (answer : ConsumerAnswer) :
    Except ConsumerError ConsumerRead := do
  let scopes ← answer.row.scopes.mapM (shownScope env)
  pure {
    id := sanitizeConsumerMetadata env 32 answer.row.id
    name := sanitizeConsumerMetadata env 255 answer.row.name
    consumerType := answer.row.consumerType
    role := answer.row.role
    enabled := answer.row.enabled
    scopes := scopes
    createdAt := answer.row.createdAt
    lastUsedAt := answer.row.lastUsedAt
    expiresAt := answer.row.expiresAt
    revokedAt := answer.row.revokedAt
    createdBy := answer.row.createdBy.map (sanitizeConsumerMetadata env 255)
    updatedBy := answer.row.updatedBy.map (sanitizeConsumerMetadata env 255)
    rotatedAt := answer.row.rotatedAt
    rotationCount := answer.row.rotationCount
    deletedAt := answer.row.deletedAt
    keyFingerprint := keyFingerprint answer.responseKeyHash }

def readRow (env : ConsumerEnv) (row : ApiConsumer) : Except ConsumerError ConsumerRead :=
  readModel env ⟨row, row.keyHash⟩

structure ConsumerCreateRequest where
  name : String
  consumerType : ConsumerType
  role : Role
  scopes : List ScopeRef
  expiresAt : Option Instant

/-- `ConsumerUpdateRequest`: what is left out is left unchanged. -/
structure ConsumerUpdateRequest where
  name : Option String
  role : Option Role
  enabled : Option Bool
  scopes : Option (List ScopeRef)
  expiresAt : Option (Option Instant)
  revokedAt : Option (Option Instant)

structure RotateConsumerKeyRequest where
  gracePeriodSeconds : Nat
  expiresAt : Option Instant

inductive ConsumerRequest where
  | list (limit offset : Nat)
  | create (body : ConsumerCreateRequest)
  | get (id : String)
  | update (id : String) (body : ConsumerUpdateRequest)
  | delete (id : String)
  | rotate (id : String) (body : RotateConsumerKeyRequest)

/-- What the language and the store contribute to one request: the clocks that are read,
    what is generated, and how the commit ends. -/
structure RequestFacts where
  now : Instant
  storeNow : Instant
  resolveNow : Instant
  newId : String
  parentKeyId : String
  keyId : String
  apiKey : String
  outcome : CommitOutcome

/-- What other modules contribute, with the digest of a raw key. -/
structure ConsumersEnv extends ConsumerEnv where
  hashApiKey : String → Except ConsumerError String

def minSelfRotationGraceSeconds : Nat := 60

/-- `timedelta(seconds=...)`, in microseconds. -/
def seconds (n : Nat) : Instant := 1000000 * n

/-- `_validate_scope_set`, and the bound on the number of scopes. -/
def validateScopeSet : Except ConsumerError Unit := do
  raiseIf (decide (maxChildItems < scopes.length))
    (.http 422 "List should have at most 256 items after validation")
  raiseIf (!decide scopes.Nodup) (.http 422 "scopes must not contain duplicate project/app entries")
  raiseIf (scopes.any fun scope => scope.appId.isSome
      && scopes.any fun wide => wide.appId.isNone && wide.projectId == scope.projectId)
    (.http 422 "app scopes are redundant when the same project is project-wide")

def validateRequestName (env : ConsumerEnv) (name : String) : Except ConsumerError Unit := do
  raiseIf (!(1 ≤ name.length && name.length ≤ 255) || hasNul name)
    (.http 422 "String should have between 1 and 255 characters without U+0000")
  raiseIf (env.isCredentialText name)
    (.http 422 "consumer name must not contain credential material")

def preparedCreation (body : ConsumerCreateRequest)
    (table : Consumers) : Except ConsumerError ApiConsumer := do
  validateRequestName env.toConsumerEnv body.name
  validateScopeSet body.scopes
  raiseIf (overAt facts.now body.expiresAt) (.http 422 "expires_at must be in the future")
  ensureCanGrant identity body.role body.scopes
  raiseIf (table.nameTaken body.name) consumerNameExists
  let keyHash ← env.hashApiKey facts.apiKey
  newConsumer env.toConsumerEnv {
    name := body.name
    consumerType := body.consumerType
    role := body.role
    scopes := body.scopes
    expiresAt := body.expiresAt
    createdBy := some identity.consumerId } facts.newId facts.keyId keyHash facts.storeNow

def given (field : Option (Option Instant)) : Option Instant := field.getD none

/-- A moment at which a consumer would expire before it could read the answer. -/
def expiresTooSoon : Option Instant → Bool
  | none => false
  | some expiresAt => decide (expiresAt < now + seconds minSelfRotationGraceSeconds)

def inFuture : Option Instant → Bool
  | none => false
  | some moment => decide (now < moment)

/-- What an admin may not do to itself, and which lifetimes are possible. -/
def validateUpdate (body : ConsumerUpdateRequest) : Except ConsumerError Unit := do
  let self := id == identity.consumerId
  raiseIf (inFuture now (given body.revokedAt)) (.http 422 "revoked_at must not be in the future")
  raiseIf (self && (given body.revokedAt).isSome) (.http 409 "A consumer cannot revoke itself")
  raiseIf (self && expiresTooSoon now (given body.expiresAt))
    (.http 409 "A consumer cannot expire itself inside the response retry window")
  raiseIf (overAt now (given body.expiresAt)) (.http 422 "expires_at must be in the future")
  raiseIf (body.enabled == some false && self) (.http 409 "A consumer cannot disable itself")
  raiseIf (self && (body.role.isSome || body.scopes.isSome))
    (.http 409 "A consumer cannot change its own role or scopes")

def validateUpdateBody (env : ConsumerEnv) (body : ConsumerUpdateRequest) :
    Except ConsumerError Unit := do
  checkSome (validateRequestName env) body.name
  checkSome validateScopeSet body.scopes

/-- The name of an update is another consumer's. -/
def renameTaken (existing : ApiConsumer) : Option String → Bool
  | none => false
  | some name => name != existing.name && table.nameTaken name

def nextScopes (existing : ApiConsumer) :
    Option (List ScopeRef) → Except ConsumerError (List ScopeRef)
  | none => scopeRefs existing
  | some scopes => pure scopes

def preparedUpdate (body : ConsumerUpdateRequest) (table : Consumers) :
    Except ConsumerError ApiConsumer := do
  validateUpdateBody env.toConsumerEnv body
  validateUpdate identity facts.now id body
  let existing ← manageable identity table id
  raiseIf (renameTaken table existing body.name) consumerNameExists
  let next ← nextScopes existing body.scopes
  ensureCanGrant identity (body.role.getD existing.role) next
  updatedConsumer env.toConsumerEnv existing {
    name := body.name
    role := body.role
    enabled := body.enabled
    scopes := body.scopes
    expiresAt := body.expiresAt
    revokedAt := body.revokedAt
    updatedBy := some identity.consumerId }

def preparedDeletion : Except ConsumerError ApiConsumer := do
  raiseIf (id == identity.consumerId) (.http 409 "A consumer cannot delete itself")
  let existing ← manageable identity table id
  validateOptionalMetadata env.toConsumerEnv "consumer deleted_by" (some identity.consumerId)
  pure (deletedConsumer existing (some identity.consumerId) facts.storeNow)

def graceDeadline (graceSeconds : Nat) : Option Instant :=
  if 0 < graceSeconds then some (now + seconds graceSeconds) else none

def preparedRotation (body : RotateConsumerKeyRequest) (table : Consumers) :
    Except ConsumerError ApiConsumer := do
  raiseIf (decide (604800 < body.gracePeriodSeconds))
    (.http 422 "Input should be less than or equal to 604800")
  let existing ← manageable identity table id
  raiseIf (overAt facts.now body.expiresAt) (.http 422 "expires_at must be in the future")
  raiseIf (id == identity.consumerId
      && decide (body.gracePeriodSeconds < minSelfRotationGraceSeconds))
    (.http 409 "Rotating your own key requires a grace period of at least 60 seconds")
  raiseIf (overAt (facts.now + seconds body.gracePeriodSeconds) body.expiresAt)
    (.http 409 "A new key must remain valid beyond the old key's grace period")
  let keyHash ← env.hashApiKey facts.apiKey
  let rotation : KeyRotation := {
    keyHash := keyHash
    rotatedBy := some identity.consumerId
    graceExpiresAt := graceDeadline facts.now body.gracePeriodSeconds
    expiresAt := body.expiresAt }
  validateRotation env.toConsumerEnv rotation
  rotatedConsumer env.toConsumerEnv existing rotation facts.parentKeyId facts.keyId facts.storeNow

inductive ConsumerReply where
  | listed (consumers : List ConsumerRead)
  | read (consumer : ConsumerRead)
  | created (consumer : ConsumerRead) (apiKey : String)
  | deleted

/-- An insertion under a primary key that is in use is refused. -/
def insertOutcome : CommitOutcome :=
  if (table.find facts.newId).isSome then .integrityError else facts.outcome

/-- A name that turned out to be taken, and a lifetime that cannot be changed. -/
def asConflict : ConsumerError → ConsumerError
  | .duplicateName => consumerNameExists
  | .ambiguousKeyExpiry => .http 409 "consumer key expiry update is ambiguous"
  | error => error

/-- Write a prepared row and answer with what was stored. -/
def written (resolveKeyHash : ApiConsumer → Option String) (outcome : CommitOutcome) (now : Instant)
    (raised : ConsumerError → ConsumerError)
    (reply : ConsumerAnswer → Except ConsumerError ConsumerReply) :
    Except ConsumerError ApiConsumer → Consumers × Except ConsumerError ConsumerReply
  | .error error => (table, .error (raised error))
  | .ok row => (outcome.table table row,
      match commitNameWrite table row (resolveKeyHash row) outcome now with
      | .ok answer => reply answer
      | .error error => .error (raised error))

def createdReply (answer : ConsumerAnswer) :
    Except ConsumerError ConsumerReply := do
  pure (.created (← readModel env.toConsumerEnv answer) facts.apiKey)

def readReply (answer : ConsumerAnswer) :
    Except ConsumerError ConsumerReply := do
  pure (.read (← readModel env.toConsumerEnv answer))

def listedScopes : Option (List ScopeRef) :=
  if identity.isUnscoped then none else some identity.scopes

/-- What is shown of the rows of a list, those left out that may not be managed. -/
def shownRows :
    List ApiConsumer → Except ConsumerError (List ConsumerRead)
  | [] => pure []
  | row :: rows => do
      if ← canManageConsumer identity row then do
        let shown ← readRow env.toConsumerEnv row
        pure (shown :: (← shownRows rows))
      else shownRows rows

def listConsumers (limit offset : Nat)
    (table : Consumers) : Except ConsumerError ConsumerReply := do
  pure (.listed (← shownRows env identity (table.listAll (listedScopes identity) limit offset)))

def getConsumer : Except ConsumerError ConsumerReply := do
  let consumer ← manageable identity table id
  pure (.read (← readRow env.toConsumerEnv consumer))

def requireAdmin : Except ConsumerError Unit :=
  raiseIf (!identity.role.atLeast .admin) (.http 403 "Requires role 'admin' or higher")

def handleConsumers (request : ConsumerRequest) (table : Consumers) :
    Consumers × Except ConsumerError ConsumerReply :=
  match requireAdmin identity with
  | .error error => (table, .error error)
  | .ok _ =>
    match request with
    | .list limit offset => (table, listConsumers env identity limit offset table)
    | .create body => written table (fun row => some row.keyHash) (insertOutcome facts table)
        facts.resolveNow asConflict (createdReply env facts)
        (preparedCreation env identity facts body table)
    | .get id => (table, getConsumer env identity id table)
    | .update id body => written table (fun _ => none) facts.outcome facts.resolveNow asConflict
        (readReply env) (preparedUpdate env identity facts id body table)
    | .delete id => written table (fun _ => none) facts.outcome facts.resolveNow
        (fun error => error) (fun _ => pure .deleted)
        (preparedDeletion env identity facts id table)
    | .rotate id body => written table (fun row => some row.keyHash) facts.outcome
        facts.resolveNow (fun error => error) (createdReply env facts)
        (preparedRotation env identity facts id body table)

end Apex.Routers
