import Apex.Auth.Identity
import Apex.Core.Sql
import Apex.Services.EngineRuns

/-!
# The Consumers

The table of API consumers with their scopes and keys. A row is read and written
as a whole: a change is prepared on the row and then committed, and the commit may
fail, may find that the name is taken, or may take place without being
acknowledged. What is stored is checked before it is written, but a row may be
older than the checks.

## Main definitions

* `ApiConsumer`, `ConsumerKey`, `ConsumerScope`: The rows.
* `Consumers.listAll`: The selection of a list.
* `newConsumer`, `updatedConsumer`, `rotatedConsumer`, `deletedConsumer`: The rows
  that are written.
* `commitNameWrite`, `commitDeletion`: What a commit leaves and answers.
-/

namespace Apex.Persistence

open Auth

open Services (Instant)

structure ConsumerScope where
  projectId : String
  appId : Option String
  deriving DecidableEq

structure ConsumerKey where
  id : String
  keyHash : String
  expiresAt : Option Instant
  expirySource : String
  revokedAt : Option Instant
  lastUsedAt : Option Instant
  rotatedFromId : Option String
  createdBy : Option String
  deriving DecidableEq

/-- A row of the consumers, with its scopes and keys. -/
structure ApiConsumer where
  id : String
  name : String
  keyHash : String
  consumerType : ConsumerType
  role : Role
  enabled : Bool
  createdAt : Instant
  lastUsedAt : Option Instant
  expiresAt : Option Instant
  revokedAt : Option Instant
  createdBy : Option String
  updatedBy : Option String
  rotatedAt : Option Instant
  rotationCount : Nat
  deletedAt : Option Instant
  scopes : List ConsumerScope
  keys : List ConsumerKey
  deriving DecidableEq

/-- The table: every row is stored under its primary key. -/
structure Consumers where
  rows : Dict ApiConsumer
  keyed : ∀ id row, rows.get? id = some row → row.id = id

namespace Consumers

/-- The row of a primary key. -/
def find (table : Consumers) (id : String) : Option ApiConsumer := table.rows.get? id

def put (table : Consumers) (row : ApiConsumer) : Consumers where
  rows := table.rows.set row.id row
  keyed id stored h := by
    rw [Dict.get?_set] at h
    by_cases hid : id = row.id
    · rw [if_pos hid] at h
      rw [← Option.some.inj h, hid]
    · rw [if_neg hid] at h
      exact table.keyed id stored h

theorem find_id {table : Consumers} {id : String} {row : ApiConsumer}
    (h : table.find id = some row) : row.id = id := table.keyed id row h

@[simp] theorem find_put (table : Consumers) (row : ApiConsumer) :
    (table.put row).find row.id = some row := Dict.get?_set_self table.rows row.id row

theorem find_put_ne (table : Consumers) {row : ApiConsumer} {id : String} (h : id ≠ row.id) :
    (table.put row).find id = table.find id := Dict.get?_set_ne table.rows row h

end Consumers

/-- What the store and the language contribute: whether a text holds a credential. -/
structure ConsumerEnv where
  isCredentialText : String → Bool

/-- What a request can raise: an HTTP response, or an error that becomes one. -/
inductive ConsumerError where
  | http (status : Nat) (detail : String)
  | value (message : String)
  | duplicateName
  | ambiguousKeyExpiry
  | failed (name : String)

def maxChildItems : Nat := 256

variable (env : ConsumerEnv) (row : ApiConsumer) (now : Instant) (keyId : String)

/-- `_validate_consumer_metadata` of a text. -/
def validateConsumerMetadata (label value : String) :
    Except ConsumerError Unit := do
  raiseIf (!(1 ≤ value.length && value.length ≤ 255) || hasNul value)
    (.value (label ++ " must be a 1-255 character string without U+0000"))
  raiseIf (env.isCredentialText value) (.value (label ++ " must not contain credential material"))

/-- `_validate_consumer_metadata` of a value that may be absent. -/
def validateOptionalMetadata (label : String) :
    Option String → Except ConsumerError Unit
  | none => pure ()
  | some value => do
      raiseIf (!(1 ≤ value.length && value.length ≤ 255) || hasNul value)
        (.value (label ++ " must be a 1-255 character string or null without U+0000"))
      raiseIf (env.isCredentialText value)
        (.value (label ++ " must not contain credential material"))

/-- A digit of a lowercase hexadecimal digest. -/
def isHexDigit (c : Char) : Bool := ('0' ≤ c && c ≤ '9') || ('a' ≤ c && c ≤ 'f')

def validateKeyHash (value : String) : Except ConsumerError Unit :=
  raiseIf (value.length != 64 || !value.toList.all isHexDigit)
    (.value "consumer key hash must be a 64-character lowercase hexadecimal digest")

def validateScopeId (label optional value : String) :
    Except ConsumerError Unit := do
  raiseIf (!(1 ≤ value.length && value.length ≤ maxScopeIdChars) || value != strip value
      || hasNul value)
    (.value (label ++ " must be a trimmed 1-255 character string" ++ optional ++ " without U+0000"))
  raiseIf (env.isCredentialText value) (.value (label ++ " must not contain credential material"))

def scopeRow (scope : ScopeRef) : ConsumerScope where
  projectId := scope.projectId.value
  appId := scope.appId.map ScopeId.value

def validatedScope (scope : ScopeRef) : Except ConsumerError ConsumerScope := do
  validateScopeId env "consumer scope project_id" "" scope.projectId.value
  checkSome (fun appId : ScopeId =>
    validateScopeId env "consumer scope app_id" " or null" appId.value) scope.appId
  pure (scopeRow scope)

def validatedConsumerScopes (scopes : List ScopeRef) :
    Except ConsumerError (List ConsumerScope) := do
  raiseIf (decide (maxChildItems < scopes.length))
    (.value "consumer scopes must be a list of at most 256 entries")
  let validated ← scopes.mapM (validatedScope env)
  raiseIf (!decide validated.Nodup)
    (.value "consumer scopes must not contain duplicate project/app entries")
  raiseIf (validated.any fun scope => scope.appId.isSome
      && validated.any fun wide => wide.appId.isNone && wide.projectId == scope.projectId)
    (.value "consumer app scopes are redundant when the project is project-wide")
  pure validated

/-- The projects that are granted as a whole, sorted. -/
def projectWide (scopes : List ScopeRef) : List String :=
  ((scopes.filter fun scope => scope.appId.isNone).map fun scope =>
    scope.projectId.value).eraseDups.mergeSort

/-- A clause that selects the scopes of a project. -/
def projectClause (projectId : String) (row : ConsumerScope) : Truth :=
  Truth.same (some row.projectId) (some projectId)

/-- A clause that selects one app of a project. An absent app is told from another one
    before it is compared. -/
def appClause (projectId appId : String) (row : ConsumerScope) : Truth :=
  ((projectClause projectId row).both (Truth.present row.appId)).both
    (Truth.same row.appId (some appId))

/-- The clause of a scope that no project-wide scope covers. -/
def scopeClause? (wide : List String) (scope : ScopeRef) : Option (ConsumerScope → Truth) :=
  match scope.appId with
  | none => none
  | some appId => if wide.contains scope.projectId.value then none
      else some (appClause scope.projectId.value appId.value)

/-- The clauses of `_delegable_scope_predicate`. -/
def delegableClauses (scopes : List ScopeRef) : List (ConsumerScope → Truth) :=
  (projectWide scopes).map projectClause ++ scopes.filterMap (scopeClause? (projectWide scopes))

def delegableScopePredicate (scopes : List ScopeRef) : Option (ConsumerScope → Truth) :=
  if (delegableClauses scopes).isEmpty then none
  else some fun row => Truth.anyOf ((delegableClauses scopes).map fun clause => clause row)

def listCondition (allowedScopes : Option (List ScopeRef)) (row : ApiConsumer) : Truth :=
  let undeleted : Truth := some row.deletedAt.isNone
  match allowedScopes with
  | none => undeleted
  | some scopes =>
    match delegableScopePredicate scopes with
    | none => undeleted.both (some false)
    | some allowed => (undeleted.both (Truth.exists? row.scopes fun _ => some true)).both
        (Truth.exists? row.scopes fun scope => (allowed scope).negate).negate

/-- The order of a list: by creation, then by id. -/
def listedBefore (a b : ApiConsumer) : Bool :=
  decide (a.createdAt < b.createdAt) || (a.createdAt == b.createdAt && decide (a.id ≤ b.id))

def Consumers.listAll (table : Consumers) (allowedScopes : Option (List ScopeRef))
    (limit offset : Nat) : List ApiConsumer :=
  ((((table.rows.items.map Prod.snd).filter fun row =>
    (listCondition allowedScopes row).selects).mergeSort listedBefore).drop offset).take limit

/-- `get` and `get_for_update`: a deleted row is not found. -/
def Consumers.get (table : Consumers) (id : String) : Option ApiConsumer :=
  (table.find id).filter fun row => row.deletedAt.isNone

/-- `get_by_name` finds a row, deleted or not. -/
def Consumers.nameTaken (table : Consumers) (name : String) : Bool :=
  (table.rows.items.map Prod.snd).any fun row => row.name == name

/-- A moment at which a consumer or a key is over. -/
def overAt : Option Instant → Bool
  | none => false
  | some expiresAt => decide (expiresAt ≤ now)

/-- A key is neither revoked nor expired. -/
def ConsumerKey.active (key : ConsumerKey) (now : Instant) : Bool :=
  key.revokedAt.isNone && !overAt now key.expiresAt

/-- What `create` is called with. -/
structure ConsumerDraft where
  name : String
  consumerType : ConsumerType
  role : Role
  scopes : List ScopeRef
  expiresAt : Option Instant
  createdBy : Option String

/-- The row of `create`. -/
def newConsumer (draft : ConsumerDraft) (id keyId keyHash : String)
    (createdAt : Instant) : Except ConsumerError ApiConsumer := do
  validateConsumerMetadata env "consumer name" draft.name
  validateOptionalMetadata env "consumer created_by" draft.createdBy
  validateKeyHash keyHash
  let scopes ← validatedConsumerScopes env draft.scopes
  pure {
    id := id
    name := draft.name
    keyHash := keyHash
    consumerType := draft.consumerType
    role := draft.role
    enabled := true
    createdAt := createdAt
    lastUsedAt := none
    expiresAt := draft.expiresAt
    revokedAt := none
    createdBy := draft.createdBy
    updatedBy := draft.createdBy
    rotatedAt := none
    rotationCount := 0
    deletedAt := none
    scopes := scopes
    keys := [{
      id := keyId
      keyHash := keyHash
      expiresAt := none
      expirySource := "independent"
      revokedAt := none
      lastUsedAt := none
      rotatedFromId := none
      createdBy := draft.createdBy }] }

/-- What `update_existing` is called with. A lifetime is given as a value that may be
    absent, if it is given. -/
structure ConsumerPatch where
  name : Option String
  role : Option Role
  enabled : Option Bool
  scopes : Option (List ScopeRef)
  expiresAt : Option (Option Instant)
  revokedAt : Option (Option Instant)
  updatedBy : Option String

/-- A key that was given the lifetime of its consumer no longer follows it. -/
def independentKey (key : ConsumerKey) : ConsumerKey :=
  { key with expiresAt := none, expirySource := "independent" }

/-- Change the first key a condition holds for. -/
def changeFirst (p : ConsumerKey → Bool) (change : ConsumerKey → ConsumerKey) :
    List ConsumerKey → List ConsumerKey
  | [] => []
  | key :: keys => if p key then change key :: keys else key :: changeFirst p change keys

def expirySourceOf (key : ConsumerKey) : String :=
  if key.expirySource.isEmpty then
    if row.rotationCount = 0 then "inherited" else "legacy_ambiguous"
  else key.expirySource

/-- The keys of a row whose lifetime is about to change. -/
def keysForNewExpiry : Except ConsumerError (List ConsumerKey) :=
  match row.keys.find? fun key => key.keyHash == row.keyHash with
  | none => pure row.keys
  | some key =>
    if row.expiresAt.isSome && key.expiresAt == row.expiresAt then
      let source := expirySourceOf row key
      if source == "inherited" || (source == "legacy_ambiguous" && row.rotationCount == 0) then
        pure (changeFirst (fun key => key.keyHash == row.keyHash) independentKey row.keys)
      else if source == "legacy_ambiguous" then throw .ambiguousKeyExpiry
      else pure row.keys
    else pure row.keys

def patchedScopes :
    Option (List ScopeRef) → Except ConsumerError (List ConsumerScope)
  | none => pure row.scopes
  | some scopes => validatedConsumerScopes env scopes

def patchedKeys (patch : ConsumerPatch) :
    Except ConsumerError (List ConsumerKey) :=
  if patch.expiresAt.isSome then keysForNewExpiry row else pure row.keys

def validatePatchTexts (patch : ConsumerPatch) : Except ConsumerError Unit := do
  checkSome (validateConsumerMetadata env "consumer name") patch.name
  checkSome (validateConsumerMetadata env "consumer updated_by") patch.updatedBy

/-- The row of `update_existing`. -/
def updatedConsumer (patch : ConsumerPatch) :
    Except ConsumerError ApiConsumer := do
  validatePatchTexts env patch
  let scopes ← patchedScopes env row patch.scopes
  let keys ← patchedKeys row patch
  pure { row with
    name := patch.name.getD row.name
    role := patch.role.getD row.role
    enabled := patch.enabled.getD row.enabled
    scopes := scopes
    keys := keys
    expiresAt := patch.expiresAt.getD row.expiresAt
    revokedAt := patch.revokedAt.getD row.revokedAt
    updatedBy := patch.updatedBy.or row.updatedBy }

/-- What `replace_key_hash` is called with. -/
structure KeyRotation where
  keyHash : String
  rotatedBy : Option String
  graceExpiresAt : Option Instant
  expiresAt : Option Instant

/-- The key of a row that is only named by the row itself. -/
def parentKey : ConsumerKey where
  id := keyId
  keyHash := row.keyHash
  expiresAt := none
  expirySource := "independent"
  revokedAt := none
  lastUsedAt := none
  rotatedFromId := none
  createdBy := row.createdBy

/-- The keys before a rotation, with a row for the key the parent names. -/
def explicitKeys :
    Except ConsumerError (List ConsumerKey) :=
  if row.keys.any fun key => key.keyHash == row.keyHash then pure row.keys
  else do
    validateKeyHash row.keyHash
    validateOptionalMetadata env "consumer created_by" row.createdBy
    pure (row.keys ++ [parentKey row keyId])

def retiredKey (graceExpiresAt : Option Instant) (key : ConsumerKey) :
    ConsumerKey :=
  if key.active now then
    match graceExpiresAt with
    | none => { key with revokedAt := some now }
    | some grace =>
      if grace ≤ now then { key with revokedAt := some now }
      else if !overAt grace key.expiresAt then
        { key with expiresAt := some grace, expirySource := "grace" }
      else key
  else key

def rotatedKey (rotation : KeyRotation) (keyId : String) (rotatedFromId : Option String) :
    ConsumerKey where
  id := keyId
  keyHash := rotation.keyHash
  expiresAt := rotation.expiresAt
  expirySource := if rotation.expiresAt.isSome then "explicit" else "independent"
  revokedAt := none
  lastUsedAt := none
  rotatedFromId := rotatedFromId
  createdBy := rotation.rotatedBy

/-- The new key must outlive the grace of the old ones. -/
def graceTooLong (rotation : KeyRotation) : Bool :=
  match rotation.graceExpiresAt, rotation.expiresAt with
  | some grace, some expiresAt => decide (expiresAt ≤ grace)
  | _, _ => false

def validateRotation (rotation : KeyRotation) : Except ConsumerError Unit := do
  validateKeyHash rotation.keyHash
  validateOptionalMetadata env "consumer rotated_by" rotation.rotatedBy
  raiseIf (graceTooLong rotation)
    (.value "consumer key expiry must be later than its old-key grace deadline")

/-- The row of `replace_key_hash`. -/
def rotatedConsumer (rotation : KeyRotation) (parentKeyId keyId : String)
    (now : Instant) : Except ConsumerError ApiConsumer := do
  let keys ← explicitKeys env row parentKeyId
  let active := keys.filter fun key => key.active now
  pure { row with
    keys := keys.map (retiredKey now rotation.graceExpiresAt)
      ++ [rotatedKey rotation keyId (active.head?.map ConsumerKey.id)]
    keyHash := rotation.keyHash
    rotatedAt := some now
    rotationCount := row.rotationCount + 1
    updatedBy := rotation.rotatedBy.or row.updatedBy }

/-- The row of `delete_existing`. -/
def deletedConsumer (deletedBy : Option String) (deletedAt : Instant) :
    ApiConsumer :=
  { row with
    deletedAt := some deletedAt
    revokedAt := row.revokedAt.or (some deletedAt)
    enabled := false
    updatedBy := deletedBy
    keys := row.keys.map fun key => { key with revokedAt := key.revokedAt.or (some deletedAt) } }

/-- How a commit ends: acknowledged; refused because the name is taken, or because of
    another constraint; failed; or committed without an acknowledgement. After a failure
    a fresh session may be able to read, or not. -/
inductive CommitOutcome where
  | acknowledged
  | duplicateName
  | integrityError
  | failed (readable : Bool)
  | lost (readable : Bool)

def CommitOutcome.committed : CommitOutcome → Bool
  | acknowledged | lost _ => true
  | _ => false

def CommitOutcome.table (outcome : CommitOutcome) (table : Consumers) (row : ApiConsumer) :
    Consumers :=
  if outcome.committed then table.put row else table

/-- A consumer is neither disabled, revoked, deleted nor expired. -/
def ApiConsumer.active : Bool :=
  row.enabled && row.revokedAt.isNone && row.deletedAt.isNone && !overAt now row.expiresAt

/-- `_resolve_credential_commit`: the consumer that holds the expected key. -/
def resolveCredentialCommit (table : Consumers) (keyHash id : String) (now : Instant) :
    Option ApiConsumer :=
  (table.find id).filter fun row =>
    (row.keys.any fun key => key.keyHash == keyHash && key.active now) && row.active now

/-- A row that is returned, and the digest its fingerprint is taken from. -/
structure ConsumerAnswer where
  row : ApiConsumer
  responseKeyHash : String

/-- What a fresh session finds after a commit without an acknowledgement. -/
def resolvedAnswer (after : Consumers) (id : String) (resolveKeyHash : Option String)
    (readable : Bool) (now : Instant) : Option ConsumerAnswer :=
  if readable then
    resolveKeyHash.bind fun keyHash =>
      (resolveCredentialCommit after keyHash id now).map fun stored => ⟨stored, keyHash⟩
  else none

/-- An exception of a commit, unless a fresh session resolves it. -/
def resolvedOr (error : ConsumerError) : Option ConsumerAnswer → Except ConsumerError ConsumerAnswer
  | some answer => pure answer
  | none => throw error

/-- `_commit_name_write`: what is returned after a commit. -/
def commitNameWrite (table : Consumers) (row : ApiConsumer) (resolveKeyHash : Option String)
    (outcome : CommitOutcome) (now : Instant) : Except ConsumerError ConsumerAnswer :=
  match outcome with
  | .acknowledged => pure ⟨row, row.keyHash⟩
  | .duplicateName => throw .duplicateName
  | .integrityError => throw (.failed "IntegrityError")
  | .failed readable | .lost readable => resolvedOr (.failed "DBAPIError")
      (resolvedAnswer (outcome.table table row) row.id resolveKeyHash readable now)

end Apex.Persistence
