import Apex.Persistence.Consumers

/-!
# From A Consumer To An Identity

Authentication reads an identity off a stored consumer. A row may be older than
the checks of today, and is not repaired here: whatever is not canonical makes the
whole row unusable, since a repaired scope could be a wider one.

## Main definitions

* `validatePersistedConsumerId`: The id of a stored consumer.
* `identityFromConsumer`: The identity of a stored consumer.
-/

namespace Apex.Auth

open Persistence

inductive AuthError where
  | invalidIdentity (message : String)
  | storeUnavailable
  | runtime (message : String)

def redacted : String := "[REDACTED]"

def validatePersistedConsumerId (env : ConsumerEnv) (value : String) :
    Except AuthError String := do
  raiseIf (value.isEmpty || value != strip value || decide (32 < value.length)
      || hasControl value || env.isCredentialText value)
    (.invalidIdentity "persisted consumer id is invalid")
  pure value

/-- A text that is not stored as a request would store it. -/
def nonCanonical (value : String) : Bool := value.isEmpty || value != strip value

def validatePersistedScope (env : ConsumerEnv) (scope : ConsumerScope) : Except AuthError Unit := do
  raiseIf (nonCanonical scope.projectId || scope.appId.any nonCanonical)
    (.invalidIdentity "persisted consumer scope contains non-canonical identifiers")
  raiseIf (env.isCredentialText scope.projectId || scope.appId.any env.isCredentialText)
    (.invalidIdentity "persisted consumer scope contains invalid identifiers")

/-- `sanitize_credential_text_for_output`. -/
def sanitizeForOutput (env : ConsumerEnv) (value : String) : String :=
  if env.isCredentialText value then redacted else value

def safeName (env : ConsumerEnv) (name : String) : String :=
  let safe := sanitizeForOutput env name
  if safe.isEmpty || decide (255 < safe.length) || hasControl safe then redacted else safe

def identityFromConsumer (env : ConsumerEnv) (consumer : ApiConsumer) :
    Except AuthError ConsumerIdentity := do
  let consumerId ← validatePersistedConsumerId env consumer.id
  let _ ← consumer.scopes.mapM (validatePersistedScope env)
  raiseIf (!decide consumer.scopes.Nodup)
    (.invalidIdentity "persisted consumer has duplicate scopes")
  let scopes ← consumer.scopes.mapM fun scope => someOr
    (.invalidIdentity "persisted consumer identity is invalid")
    (scopeRef? scope.projectId scope.appId)
  raiseIf (decide (maxChildItems < scopes.length))
    (.invalidIdentity "persisted consumer identity is invalid")
  pure {
    consumerId := consumerId
    name := safeName env consumer.name
    consumerType := consumer.consumerType
    role := consumer.role
    scopes := scopes }

end Apex.Auth
