import Apex.Domain.Cycles

/-!
# Follow-Up Actions

What is left to do after a cycle is written down as actions. Every write, whether it
creates an action or changes one, is recorded in the history of the action under the key
of the request, with a fingerprint of what was asked. A request that is repeated is
recognised by its key, wherever in the histories it is.

## Main definitions

* `FollowupWrite`, `Followup`: The request and the action.
* `writeFollowup`: A request is carried out.
-/

namespace Apex.Domain

inductive FollowupStatus where
  | opened
  | inProgress
  | done
  | cancelled
  deriving DecidableEq, Repr

def FollowupStatus.value : FollowupStatus → String
  | opened => "open"
  | inProgress => "in_progress"
  | done => "done"
  | cancelled => "cancelled"

structure FollowupWrite where
  expectedRevision : Nat
  idempotencyKey : String
  actionId : Option String := none
  title : String
  owner : String
  status : FollowupStatus := .opened
  note : String := ""

structure FollowupEvent where
  title : String
  owner : String
  status : FollowupStatus
  note : String
  actor : String
  «at» : String
  requestKey : String
  fingerprint : String

structure Followup where
  id : String
  createdBy : String
  createdAt : String
  title : String
  owner : String
  status : FollowupStatus
  note : String
  updatedAt : String
  history : List FollowupEvent

/-- `model_dump` of what a request asks for, without its revision and its key. -/
def FollowupWrite.asked (body : FollowupWrite) : Dict Json :=
  ((((Dict.single "action_id" (optionalText body.actionId)).set "title" (.str body.title)).set
    "owner" (.str body.owner)).set
    "status" (.str body.status.value)).set
    "note" (.str body.note)

def FollowupWrite.fingerprint (env : CyclesEnv) (body : FollowupWrite) : String :=
  versionDigest env body.asked

/-- All writes, in the order the histories are searched in. -/
def followupEvents (actions : List Followup) : List FollowupEvent :=
  actions.flatMap Followup.history

/-- The write of a request that is carried out. -/
def writtenEvent (env : CyclesEnv) (body : FollowupWrite) (actor now : String) : FollowupEvent where
  title := body.title
  owner := body.owner
  status := body.status
  note := body.note
  actor := actor
  «at» := now
  requestKey := body.idempotencyKey
  fingerprint := body.fingerprint env

def recorded (event : FollowupEvent) (action : Followup) : Followup :=
  { action with
    title := event.title
    owner := event.owner
    status := event.status
    note := event.note
    updatedAt := event.at
    history := action.history ++ [event] }

def newFollowup (event : FollowupEvent) (id : String) : Followup where
  id := id
  createdBy := event.actor
  createdAt := event.at
  title := event.title
  owner := event.owner
  status := event.status
  note := event.note
  updatedAt := event.at
  history := []

/-- Whether an action is the one a request names. -/
def FollowupWrite.names (body : FollowupWrite) (action : Followup) : Bool :=
  some action.id == body.actionId

def recordFollowup (actions : List Followup) (body : FollowupWrite) (event : FollowupEvent)
    (id : String) : Except String (List Followup) :=
  match actions.find? body.names with
  | some action => do
      raiseIf (decide (100 ≤ action.history.length)) "Action history limit reached"
      pure (changeFirst body.names (recorded event) actions)
  | none => do
      raiseIf (body.actionId.any (· != "")) "Action not found"
      raiseIf (decide (200 ≤ actions.length)) "Action limit reached"
      pure (actions ++ [recorded event (newFollowup event id)])

/-- `write_followup`, given the id of a new action and the time: the actions, and whether the
    request was a repeated one. -/
def writeFollowup (env : CyclesEnv) (actions : List Followup) (body : FollowupWrite)
    (actor id now : String) : Except String (List Followup × Bool) :=
  match (followupEvents actions).find? fun e => e.requestKey == body.idempotencyKey with
  | some event => do
      raiseIf (event.fingerprint != body.fingerprint env)
        "Operation key was already used for a different action change"
      pure (actions, true)
  | none => do
      let result ← recordFollowup actions body (writtenEvent env body actor now) id
      pure (result, false)

end Apex.Domain
