import Apex.Graphs.Pipeline.ExecutionPhase

/-!
# Gate Contracts

What the review gates share: the records they leave and how a decision is read.

A decision is whatever a client resumes the run with. Reading it never raises:
what is not a decision becomes one without an action that says what is wrong, so
that a gate can ask again. What a gate records of a decision is validated like
any other record of the domain, which may raise.

The payload a gate shows while it waits is left out; nothing is read back from
it. The actor a decision is attributed to is given with the call.

## Main definitions

* `Gates.parseGateDecision`: A resume value, read as a decision.
* `makeApproval`: The record of a decision.
* `dialogueEntry`: One turn of a discussion.
-/

namespace Apex.Graphs

open Domain

/-- What the gates take from other modules: the patterns and the digest of the
    reducers, the budgets of a payload, the validation of an edit of the context
    and whether the deliverable of a phase is blocked. -/
structure GateEnv extends ReducerEnv where
  validateGatePayload : Json → Except String Unit
  contextEditOk : Json → Bool
  deliverableBlocked : Json → Phase → Except String Bool

def maxGateTextChars : Nat := 20000
def maxGateDecisionTextChars : Nat := 50000

def phaseReviewActions : List String := ["approve", "revise", "discuss", "abort"]

variable (env : GateEnv) (phase : Phase) (attempt : Int)

/-- Whether a text is silent under the default scan. -/
def silentText (s : String) : Bool :=
  !containsCredentialMaterial env.rules plainScanLimits (.str s)

/-- `ApprovalRecord(...).model_dump(mode="json")`. -/
def approvalRecord (id gate action actor time : String) (note : Option String) :
    Except String (Dict Json) := do
  raiseIf (!validId id) "ValidationError: id"
  raiseIf (!(["prompt_review", "phase_review", "human_completion"].contains gate))
    "ValidationError: gate"
  raiseIf (hasNul action || action.length < 1 || 32 < action.length) "ValidationError: action"
  raiseIf (hasNul actor || actor.length < 1 || 255 < actor.length || !silentText env actor)
    "ValidationError: actor"
  raiseIf (note.any (fun s => hasNul s || maxGateDecisionTextChars < s.length
      || !silentText env s)) "ValidationError: note"
  pure (dictOf [("id", .str id), ("gate", .str gate), ("action", .str action),
    ("actor", .str actor), ("at", .str time), ("note", (note.map Json.str).getD .null)])

/-- The `id` of the record of a decision. -/
def approvalId (gate action : String) (sequence : Nat) : String :=
  let suffix := if sequence = 0 then "" else "-s" ++ toString sequence
  phase.value ++ "-a" ++ toString attempt ++ "-" ++ gate ++ "-" ++ action ++ suffix

def makeApproval (gate action actor time : String) (note : Option String)
    (sequence : Nat) : Except String (Dict Json) :=
  approvalRecord env (approvalId phase attempt gate action sequence) gate action actor time note

/-- The `id` of one turn of a discussion. -/
def dialogueId (index : Nat) (role : String) : String :=
  phase.value ++ "-a" ++ toString attempt ++ "-d" ++ toString index ++ "-" ++ role

/-- `DialogueEntry(...).model_dump(mode="json")`. -/
def dialogueEntry (index : Nat) (role content time : String) : Except String (Dict Json) := do
  let entryId := dialogueId phase attempt index role
  raiseIf (!validId entryId) "ValidationError: id"
  raiseIf (attempt < 1 || 1000000 < attempt) "ValidationError: attempt"
  raiseIf (!(["operator", "agent"].contains role)) "ValidationError: role"
  raiseIf (hasNul content || maxGateDecisionTextChars < content.length || !silentText env content)
    "ValidationError: content"
  pure (dictOf [("id", .str entryId), ("phase", .str phase.value), ("attempt", .int attempt),
    ("role", .str role), ("content", .str content), ("at", .str time)])

/-- `{"action": None, "error": error}`. -/
def refusedDecision (error : String) : Dict Json :=
  dictOf [("action", .null), ("error", .str error)]

/-- `_safe_gate_validation_error`: only the messages of the budget checks are
    repeated. -/
def safeGateValidationError (message : String) : String :=
  if 1 ≤ message.length && message.length ≤ 512 && message.startsWith "gate payload " then message
  else "gate decision is invalid"

/-- What is wrong with the prompt of a decision, if anything is. -/
def promptEditError (edit : Json) : Option String :=
  match edit with
  | .null => none
  | v =>
    match v.dict? with
    | none => some "gate decision prompt is invalid"
    | some edit =>
      if edit.keys.any (fun k =>
          !(["system", "user", "application", "context_edits"].contains k)) then
        some "gate decision prompt is invalid"
      else if (edit.get? "context_edits").any (fun entries =>
          match entries with
          | .list xs => 64 < xs.length || !xs.all env.contextEditOk
          | _ => true) then
        some "Invalid context prompt edits"
      else if edit.items.any (fun kv => kv.1 != "context_edits" && kv.2 != .null
          && !isStrOf (fun _ => true) kv.2) then
        some "gate decision prompt values must be strings"
      else none

def reprActions (actions : List String) : String :=
  "[" ++ ", ".intercalate (actions.map (fun a => "'" ++ a ++ "'")) ++ "]"

/-- A decision whose action is none of those allowed. -/
def unknownAction (decision : Dict Json) (allowed : List String) : Dict Json :=
  let expected := reprActions (allowed.mergeSort (fun a b => decide (a ≤ b)))
  ((decision.filterKeys (· != "action")).set "action" .null).set "error"
    (.str ("unknown action; expected one of " ++ expected))

/-- A decision as an object: a bare text is its action. -/
def decisionObject : Json → Option (Dict Json)
  | .str action => some (.single "action" (.str action))
  | raw => raw.dict?

def Gates.parseGateDecision (raw : Json) (allowed : List String) : Dict Json :=
  match env.validateGatePayload raw with
  | .error message => refusedDecision (safeGateValidationError message)
  | .ok () =>
    if containsCredentialMaterial env.rules plainScanLimits raw then
      refusedDecision "gate decision must not contain credential material"
    else
      match decisionObject raw with
      | none => refusedDecision "expected a mapping with an 'action' key"
      | some decision =>
        if decision.keys.any (fun k =>
            !(["action", "prompt", "instructions", "message", "note"].contains k)) then
          refusedDecision "gate decision contains unsupported fields"
        else
          match ["instructions", "message", "note"].find? (fun field =>
              decision.value field != .null && !isStrOf (fun _ => true) (decision.value field)) with
          | some field => refusedDecision s!"gate decision {field} must be a string"
          | none =>
            match promptEditError env (decision.value "prompt") with
            | some error => refusedDecision error
            | none =>
              if isStrOf allowed.contains (decision.value "action") then decision
              else unknownAction decision allowed

/-- `decision.get(field) or ""`. -/
def fieldText (decision : Dict Json) (field : String) : String :=
  match decision.value field with
  | .str s => s
  | _ => ""

end Apex.Graphs
