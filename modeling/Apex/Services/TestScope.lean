import Apex.Core.Check
import Apex.Core.Growth
import Apex.Domain.TestScope

/-!
# The Participant Binding Of A Combined Run

The scope of a combined run is bound to its thread once: a header with the document, its
digest and the number of participants, and a row for every participant, in one
transaction. Launches that are repeated bind the same scope again, and race.

Who may see the run is decided by the rows, in a query by counting and in code by
comparing them with the document.

## Main definitions

* `RunScopeBinding`, `RunParticipant`: The rows.
* `verifiedBinding`: The scope a header and its rows say, if they are complete.
* `persistTestScope`: Binding a scope to a thread.
* `participantVisibility`: The condition of a query.
* `accessibleThreadIds`: The threads an identity may access.
-/

namespace Apex.Services.TestScope

open Auth Domain

structure RunScopeBinding where
  threadId : String
  scope : Json
  participantCount : Nat
  scopeDigest : String

structure RunParticipant where
  threadId : String
  participantId : String
  projectId : String
  applicationId : String
  environmentId : String
  layer : String
  isPrimary : Bool
  isTrafficEntry : Bool

def allowsTestScope (identity : Auth.ConsumerIdentity) (scope : TestScopeV1) : Bool :=
  scope.participants.all fun p =>
    identity.allowsApp p.projectId.value (some p.applicationId.value)

/-- The participants in the order of their ids. -/
def inIdOrder (participants : List TestParticipant) : List TestParticipant :=
  participants.insertionSort fun p q => p.id.value ≤ q.id.value

def canonicalScope (scope : TestScopeV1) : Json :=
  .ofDict (scopeDict (inIdOrder scope.participants) scope.primaryParticipantId
    scope.trafficEntryParticipantId)

/-- `_thread_key`, of a text; the text of a UUID is always a key. -/
def threadKey (value : String) : Except String String :=
  if value.isEmpty || decide (255 < value.length) || hasNul value then
    .error "Invalid run identity"
  else .ok value

/-- What is compared of a participant: where it runs, and which part it plays. -/
abbrev Entry := String × String × String × String × Bool × Bool

def expectedRows (scope : TestScopeV1) : List (String × Entry) :=
  scope.participants.map fun p =>
    (p.id.value, p.projectId.value, p.applicationId.value, p.environmentId.value, p.layer.name,
      p.id == scope.primaryParticipantId, some p.id == scope.trafficEntryParticipantId)

def actualRows (rows : List RunParticipant) : List (String × Entry) :=
  rows.map fun p =>
    (p.participantId, p.projectId, p.applicationId, p.environmentId, p.layer, p.isPrimary,
      p.isTrafficEntry)

/-- Two dictionaries that are built from pairs are equal; the last pair of a key counts. -/
def sameEntries (c d : List (String × Entry)) : Bool :=
  (c ++ d).all fun kv => c.reverse.lookup kv.1 == d.reverse.lookup kv.1

variable (digest : Json → String)

/-- `_scope_digest`: the digest of the canonical text. -/
def digestOf (scope : TestScopeV1) : String := digest (canonicalScope scope)

def verifiedBinding (binding : Option RunScopeBinding) (rows : List RunParticipant) :
    Except String TestScopeV1 :=
  match binding with
  | none => .error "Run participant binding is missing"
  | some binding => do
      let scope ← someOr "ValidationError" (modelValidate binding.scope)
      raiseIf (binding.participantCount != scope.participants.length
        || binding.scopeDigest != digestOf digest scope
        || !sameEntries (actualRows rows) (expectedRows scope))
        "Run participant binding is incomplete or corrupt"
      pure scope

inductive CommitOutcome where
  | committed
  | integrityError
  | failed

inductive BindingReq where
  | getBinding (threadId : String)
  | selectParticipants (threadId : String)
  | commit (binding : RunScopeBinding) (rows : List RunParticipant)

def BindingAns : BindingReq → Type
  | .getBinding _ => Option RunScopeBinding
  | .selectParticipants _ => List RunParticipant
  | .commit _ _ => CommitOutcome

/-- A coroutine that may raise `ValueError`. -/
abbrev BindingM := Action BindingReq BindingAns String

def getBinding (threadId : String) : BindingM (Option RunScopeBinding) :=
  Action.ask (BindingReq.getBinding threadId)

def selectParticipants (threadId : String) : BindingM (List RunParticipant) :=
  Action.ask (BindingReq.selectParticipants threadId)

def commit (binding : RunScopeBinding) (rows : List RunParticipant) : BindingM CommitOutcome :=
  Action.ask (BindingReq.commit binding rows)

def bindingOf (threadId : String) (scope : TestScopeV1) : RunScopeBinding where
  threadId := threadId
  scope := canonicalScope scope
  participantCount := scope.participants.length
  scopeDigest := digestOf digest scope

def participantsOf (threadId : String) (scope : TestScopeV1) : List RunParticipant :=
  scope.participants.map fun p => {
    threadId := threadId
    participantId := p.id.value
    projectId := p.projectId.value
    applicationId := p.applicationId.value
    environmentId := p.environmentId.value
    layer := p.layer.name
    isPrimary := p.id == scope.primaryParticipantId
    isTrafficEntry := some p.id == scope.trafficEntryParticipantId }

/-- A scope that is bound already must be the same one. -/
def mustEqual (binding : Option RunScopeBinding) (rows : List RunParticipant)
    (scope : TestScopeV1) : BindingM Unit := do
  let existing ← Action.settle (verifiedBinding digest binding rows)
  Action.raiseWhen (canonicalScope existing != canonicalScope scope)
    "A run's participant scope is immutable"

def persistTestScope (threadId : String) (scope : TestScopeV1) : BindingM Unit := do
  let key ← Action.settle (threadKey threadId)
  let binding ← getBinding key
  let rows ← selectParticipants key
  if binding.isSome || !rows.isEmpty then mustEqual digest binding rows scope
  else
    match ← commit (bindingOf digest key scope) (participantsOf key scope) with
    | .committed => pure ()
    | .failed => throw "DBAPIError"
    | .integrityError =>
      -- A competing launch may have bound the thread; both transactions are whole.
      let binding ← getBinding key
      let rows ← selectParticipants key
      mustEqual digest binding rows scope

structure BindingStore where
  bindings : List RunScopeBinding
  participants : List RunParticipant

def BindingStore.empty : BindingStore := ⟨[], []⟩

def BindingStore.headers (s : BindingStore) (threadId : String) : List RunScopeBinding :=
  s.bindings.filter fun b => b.threadId == threadId

def BindingStore.members (s : BindingStore) (threadId : String) : List RunParticipant :=
  s.participants.filter fun p => p.threadId == threadId

/-- The primary keys of the rows are taken, or two of them are equal. -/
def BindingStore.clashes (s : BindingStore) (binding : RunScopeBinding)
    (rows : List RunParticipant) : Bool :=
  (s.bindings.map RunScopeBinding.threadId).contains binding.threadId
    || !decide (((s.participants ++ rows).map fun p => (p.threadId, p.participantId)).Nodup)

def BindingStore.insert (s : BindingStore) (binding : RunScopeBinding)
    (rows : List RunParticipant) : BindingStore where
  bindings := s.bindings ++ [binding]
  participants := s.participants ++ rows

/-- How the database answers. Rows come in any order; a transaction stores all of its rows or
    none, and a connection that fails leaves open which. -/
def BindingStore.responds (s : BindingStore) : (r : BindingReq) → BindingAns r → BindingStore → Prop
  | .getBinding threadId, answer, s' => s' = s ∧ answer = (s.headers threadId).head?
  | .selectParticipants threadId, answer, s' => s' = s ∧ List.Perm answer (s.members threadId)
  | .commit binding rows, answer, s' =>
    match answer with
    | .committed => s.clashes binding rows = false ∧ s' = s.insert binding rows
    | .integrityError => s.clashes binding rows = true ∧ s' = s
    | .failed => s' = s ∨ s.clashes binding rows = false ∧ s' = s.insert binding rows

def loadPersistedTestScope (threadId : String) : BindingM (Option TestScopeV1) := do
  let key ← Action.settle (threadKey threadId)
  let binding ← getBinding key
  let rows ← selectParticipants key
  if binding.isNone && rows.isEmpty then pure none
  else
    let scope ← Action.settle (verifiedBinding digest binding rows)
    pure (some scope)

/-- The condition on a row, for some scopes. An app of a scope is not empty. -/
def allowedRow (scopes : List ScopeRef) (p : RunParticipant) : Bool :=
  scopes.any fun scope =>
    match scope.appId with
    | some app => p.projectId == scope.projectId.value && p.applicationId == app.value
    | none => p.projectId == scope.projectId.value

/-- `participant_visibility`, about a thread. The columns are never null. -/
def participantVisibility (s : BindingStore) (scopes : Option (List ScopeRef))
    (threadId : String) : Bool :=
  match scopes with
  | none => true
  | some scopes =>
    let completeBinding := (s.headers threadId).any fun b =>
      decide (0 < b.participantCount) && b.participantCount == (s.members b.threadId).length
    !((s.members threadId).any fun p => !allowedRow scopes p)
      && (completeBinding || ((s.headers threadId).isEmpty && (s.members threadId).isEmpty))

/-- The scopes a query is given for an identity. -/
def visibleScopes (identity : Auth.ConsumerIdentity) : Option (List ScopeRef) :=
  if identity.isUnscoped then none else some identity.scopes

/-- What a caller expects of the scope of a thread, where it says so. -/
abbrev Expectation := Option Json

/-- Whether a thread is among the accessible ones, given its header and rows. -/
def accessibleThread (identity : Auth.ConsumerIdentity) (binding : Option RunScopeBinding)
    (members : List RunParticipant) (expected : Expectation) : Bool :=
  if binding.isNone && members.isEmpty then expected.isNone || expected == some .null
  else
    match verifiedBinding digest binding members with
    | .error _ => false
    | .ok scope =>
      let asExpected := match expected with
        | none => true
        | some .null => false
        | some v => (modelValidate v).any fun other => canonicalScope other == canonicalScope scope
      asExpected && allowsTestScope identity scope

def accessibleThreadIds (s : BindingStore) (identity : Auth.ConsumerIdentity)
    (expected : List (String × Expectation)) : List String :=
  if identity.isUnscoped then expected.map Prod.fst
  else
    (expected.filter fun e => accessibleThread digest identity (s.headers e.1).head?
      (s.members e.1) e.2).map Prod.fst

def canAccessThread (s : BindingStore) (identity : Auth.ConsumerIdentity) (threadId : String)
    (expected : Expectation) : Except String Bool := do
  let key ← threadKey threadId
  pure ((accessibleThreadIds digest s identity [(key, expected)]).contains key)

end Apex.Services.TestScope
