import Apex.Graphs.Pipeline.Gates

/-!
# The Output Gate

Where a phase waits for the review of its result. The gate reads the entry of
its phase and the dialogue of the attempt, and asks until it has a decision it
can act on: approval and abort end the phase, a revision sends it back to work,
and a discussion is written to the checkpoint before the gate is opened again.
A number of decisions in a row that lead nowhere fails the phase.

The node is run from its start whenever it is resumed, with the answers of its
earlier interrupts, so it is a function of the checkpoint and of the list of the
answers so far.

Beside the gate there is what decides which attempt a phase is in: the seeds the
plan of a new run writes.

## Main definitions

* `ReviewState`: The part of the checkpoint a review reads and writes.
* `GateUpdate`, `GateOutcome`: What the gate returns.
* `checkpointPhaseDialogue`: The dialogue of one attempt.
* `outputGate`: The node.
-/

namespace Apex.Graphs

open Domain

structure ReviewState where
  cfg : PipelineConfigurable
  phaseResults : PhaseResults
  dialogue : List StableEntry
  artifacts : Json

def maxGateLoops : Nat := 10

variable (env : GateEnv) (s : ReviewState) (phase : Phase) (entry : PhaseEntry) (c : GateCall)
  (attempt : Int)

def ReviewState.entryOf : PhaseEntry :=
  (s.phaseResults.get? phase.value).getD ∅

def entryAttempt : Except String Int :=
  match entry.value "attempt" with
  | .null => .ok 1
  | .int n =>
    if 1 ≤ n ∧ n ≤ 1000000 then .ok n
    else .error "ValueError: checkpointed phase attempt is invalid"
  | _ => .error "ValueError: checkpointed phase attempt is invalid"

def checkpointReviewText (value : Json) (label : String) (limit : Nat) :
    Except String (Option String) :=
  match value with
  | .null => .ok none
  | .str s =>
    if limit < s.length || hasNul s || !silentText env s then
      .error s!"ValueError: checkpointed {label} is invalid"
    else .ok (some s)
  | _ => .error s!"ValueError: checkpointed {label} is invalid"

def checkpointDiagnostic (field : String) (value : Json) : Except String String := do
  let validated ← checkpointReviewText env value s!"phase {field}" 4096
  someOr s!"ValueError: checkpointed phase {field} are invalid" validated

def checkpointDiagnostics (field : String) :
    Except String (List String) :=
  match entry.value field with
  | .null => .ok []
  | .list raw => do
      raiseIf (maxDurablePhaseDiagnostics < raw.length)
        s!"ValueError: checkpointed phase {field} are invalid"
      raw.mapM (checkpointDiagnostic env field)
  | _ => .error s!"ValueError: checkpointed phase {field} are invalid"

/-- Whether a value is a text of a length within bounds, without a NUL. -/
def boundedText (maxChars : Nat) : Json → Bool
  | .str s => 1 ≤ s.length && s.length ≤ maxChars && !hasNul s
  | _ => false

/-- What a review shows of an artifact, or nothing for one of another phase. -/
def artifactPreview (ids : List Json) (artifact : Json) :
    Except String (Option (Dict Json)) :=
  match artifact.dict? with
  | none => .error "ValueError: checkpointed artifact is invalid"
  | some d => do
      raiseIf (!isStrOf (fun _ => true) (d.value "id"))
        "ValueError: checkpointed artifact is invalid"
      if d.value "id" ∉ ids then pure none
      else do
        let preview := dictOf [("id", d.value "id"), ("kind", d.value "kind"),
          ("name", d.value "name")]
        raiseIf (!boundedText 64 (d.value "kind") || !boundedText 512 (d.value "name")
            || containsCredentialMaterial env.rules plainScanLimits (.ofDict preview))
          "ValueError: checkpointed artifact is invalid"
        pure (some preview)

def checkpointList (value : Json) (limit : Nat) (error : String) : Except String (List Json) :=
  match value with
  | .null => .ok []
  | .list xs => if limit < xs.length then .error error else .ok xs
  | _ => .error error

def checkpointArtifactPreviews (artifacts : Json) (entry : PhaseEntry) :
    Except String (List (Dict Json)) := do
  let ids ← checkpointList (entry.value "artifact_ids") maxDurableArtifacts
    "ValueError: checkpointed phase artifact ids are invalid"
  raiseIf (!ids.all (fun v => boundedText 128 v
      && !containsCredentialMaterial env.rules plainScanLimits v))
    "ValueError: checkpointed phase artifact ids are invalid"
  let raw ← checkpointList artifacts maxDurableArtifacts
    "ValueError: checkpointed artifacts are invalid"
  let previews ← raw.mapM (artifactPreview env ids)
  pure (previews.filterMap (fun preview => preview))

def namedAttempt (d : Dict Json) : Json := (d.get? "attempt").getD (.int 1)

/-- Whether an entry of the dialogue is well formed. -/
def dialogueEntryOk (d : Dict Json) : Bool :=
  d.keys.all (["id", "phase", "attempt", "role", "content", "at"].contains ·)
    && isStrOf (fun s => !hasNul s) (d.value "phase")
    && isAttempt (namedAttempt d)
    && boundedText 256 (d.value "id")
    && isStrOf (["operator", "agent"].contains ·) (d.value "role")
    && isStrOf (fun s => s.length ≤ maxGateDecisionTextChars && !hasNul s) (d.value "content")
    && boundedText 64 (d.value "at")
    && !containsCredentialMaterial env.rules plainScanLimits (.ofDict d)

/-- One entry of the dialogue, if it belongs to an attempt. -/
def attemptDialogue (raw : Json) :
    Except String (Option (Dict Json)) :=
  match raw.dict? with
  | none => .error "ValueError: checkpointed dialogue entry is invalid"
  | some d => do
      raiseIf (!dialogueEntryOk env d) "ValueError: checkpointed dialogue entry is invalid"
      pure (if d.value "phase" = .str phase.value ∧ namedAttempt d = .int attempt then some d
        else none)

def checkpointPhaseDialogue (dialogue : Json) (phase : Phase) (attempt : Int) :
    Except String (List (Dict Json)) := do
  let raw ← checkpointList dialogue maxDurableDialogueEntries
    "ValueError: checkpointed dialogue is invalid"
  let entries ← raw.mapM (attemptDialogue env phase attempt)
  pure (entries.filterMap (fun entry => entry))

def reviseCount : Except String Nat :=
  match entry.value "revise_count" with
  | .null => .ok 0
  | .int n =>
    if 0 ≤ n ∧ n ≤ 10 then .ok n.toNat
    else .error "ValueError: checkpointed phase revision count is invalid"
  | _ => .error "ValueError: checkpointed phase revision count is invalid"

def meaningful (s : String) : Bool := strip s != ""

/-- `_phase_review_has_visible_evidence`. -/
def hasVisibleEvidence (summary reasoningDigest : Option String) (artifacts : List (Dict Json))
    (warnings : List String) (dialogue : List (Dict Json)) : Bool :=
  summary.any meaningful || reasoningDigest.any meaningful
    || artifacts.any (fun a =>
        ["id", "kind", "name"].all (fun field => isStrOf meaningful (a.value field)))
    || warnings.any meaningful
    || dialogue.any (fun entry => isStrOf meaningful (entry.value "content"))

inductive GateTarget where
  | agent
  | openOutputGate
  | finalize
  deriving DecidableEq, Repr

/-- What the gate writes: the update of the entry of its phase, the dialogue
    entries of an accepted discussion, and whether the run is aborted. -/
structure GateUpdate where
  entry : Option PhaseEntry := none
  dialogue : Option (List Json) := none
  runAborted : Bool := false

/-- What a run of the gate comes to: an interrupt that shows an error, or a
    command. -/
inductive GateOutcome where
  | interrupt (error : Option String)
  | command (goto : GateTarget) (update : GateUpdate)

/-- What the gate is called with beside the checkpoint: its phase, the actor of
    the run, and the times of the records it writes. -/
structure GateCall where
  phase : Phase
  actor : String
  approvalAt : String
  operatorAt : String
  agentAt : String

structure GateRead where
  entry : PhaseEntry
  attempt : Int
  revisions : Nat
  summary : Option String
  dialogue : List (Dict Json)
  limits : Limits

/-- An update of the entry of a phase with the record of a decision. -/
def recordedUpdate (action : String) (note : Option String) (sequence : Nat)
    (fields : List (String × Json)) :
    Except String PhaseEntry := do
  let approval ← makeApproval env c.phase attempt "phase_review" action c.actor c.approvalAt note
    sequence
  pure (updateOf attempt (fields ++ [("approvals", .list [.ofDict approval])]))

/-- Whether the deliverable of an entry stands in the way of its approval. -/
def approvalBlocked : Except String Bool :=
  if entry.value "status" = .str PhaseStatus.failed.value then .ok true
  else if entry.value "deliverable_json" = .null then .ok false
  else env.deliverableBlocked (entry.value "deliverable_json") phase

/-- What the entry of an execution says after a revision of its report: the load
    run itself is not repeated. -/
def executionRevision (summary : Option String) (instructions : String) :
    List (String × Json) :=
  let shown := if instructions = "" then "(no instructions supplied)" else instructions
  let prior := match summary with
    | some s => if s = "" then "Execution results" else s
    | none => "Execution results"
  [("summary", .str (boundedDiagnostic env.rules
      (prior ++ " | analysis revised per: " ++ shown) maxGateTextChars)),
    ("reasoning_digest",
      .str "Execution analysis revision only; the external load run was not restarted.")]

def acceptRevision (r : GateRead) (instructions : String) :
    Except String GateOutcome := do
  let execution := c.phase = .execution
  let update ← recordedUpdate env c r.attempt "revise" (some instructions) (r.revisions + 1)
    ([("status", .str PhaseStatus.running.value), ("revise_instructions", .str instructions),
      ("revise_count", .int (r.revisions + 1))]
      ++ if execution then executionRevision env r.summary instructions else [])
  pure (.command (if execution then .openOutputGate else .agent) { entry := some update })

def stubReply (message : String) : String :=
  boundedDiagnostic env.rules ("[" ++ phase.value ++ " agent stub] acknowledged: " ++ message)
    maxGateDecisionTextChars

def operatorTurns (dialogue : List (Dict Json)) : Nat :=
  dialogue.countP (fun entry => entry.value "role" = .str "operator")

def acceptDiscussion (r : GateRead) (message : String) :
    Except String GateOutcome := do
  let index := r.dialogue.length
  let operator ← dialogueEntry env c.phase r.attempt index "operator" message c.operatorAt
  let agent ← dialogueEntry env c.phase r.attempt (index + 1) "agent"
    (stubReply env c.phase message) c.agentAt
  let update ← recordedUpdate env c r.attempt "discuss" (some message)
    (operatorTurns r.dialogue + 1) []
  pure (.command .openOutputGate
    { entry := some update, dialogue := some [.ofDict operator, .ofDict agent] })

/-- What the gate makes of one decision: the error it asks again with, or its
    outcome. No discussion of the same run of the node is pending here, since an
    accepted one ends it. -/
def actOnDecision (r : GateRead) (decision : Dict Json) :
    Except String (String ⊕ GateOutcome) :=
  match decision.value "action" with
  | .str "approve" => do
      let blocked ← approvalBlocked env c.phase r.entry
      if blocked then
        pure (.inl "This deliverable has blockers. Revise the inputs/output or abort.")
      else do
        let update ← recordedUpdate env c r.attempt "approve" none 0 []
        pure (.inr (.command .finalize { entry := some update }))
  | .str "revise" =>
    if r.limits.maxReviseLoops ≤ r.revisions then
      .ok (.inl s!"max_revise_loops ({r.limits.maxReviseLoops}) reached; choose approve or abort explicitly")
    else .inr <$> acceptRevision env c r (fieldText decision "instructions")
  | .str "discuss" =>
    if r.limits.maxDialogueTurns ≤ operatorTurns r.dialogue then
      .ok (.inl s!"max_dialogue_turns ({r.limits.maxDialogueTurns}) reached; choose another action")
    else .inr <$> acceptDiscussion env c r (fieldText decision "message")
  | .str "abort" => do
      let update ← recordedUpdate env c r.attempt "abort" none 0
        [("status", .str PhaseStatus.aborted.value)]
      pure (.inr (.command .finalize { entry := some update, runAborted := true }))
  | _ =>
    let error := fieldText decision "error"
    .ok (.inl (if error = "" then "unsupported action" else error))

def failReview (error : String) : GateOutcome :=
  .command .finalize { entry := some (updateOf attempt
    [("status", .str PhaseStatus.failed.value), ("errors", .list [.str error])]) }

/-- The loop of the gate over the answers so far. -/
def reviewLoop (r : GateRead) :
    Nat → Option String → List Json → Except String GateOutcome
  | 0, _, _ =>
    .ok (failReview r.attempt "phase review loop cap reached without an explicit terminal decision")
  | _ + 1, error, [] => .ok (.interrupt error)
  | loops + 1, _, resume :: rest => do
      let next ← actOnDecision env c r (Gates.parseGateDecision env resume phaseReviewActions)
      match next with
      | .inl error => reviewLoop r loops (some error) rest
      | .inr outcome => pure outcome

def outputGate (resumes : List Json) :
    Except String GateOutcome :=
  if (s.cfg.gates c.phase).outputReview ≠ .gated then .ok (.command .finalize {})
  else do
    let entry := s.entryOf c.phase
    let attempt ← entryAttempt entry
    let revisions ← reviseCount entry
    let summary ← checkpointReviewText env (entry.value "summary") "phase summary" maxGateTextChars
    let reasoningDigest ← checkpointReviewText env (entry.value "reasoning_digest")
      "phase reasoning digest" maxGateTextChars
    let warnings ← checkpointDiagnostics env entry "warnings"
    let artifacts ← checkpointArtifactPreviews env s.artifacts entry
    let dialogue ← checkpointPhaseDialogue env (channelJson s.dialogue) c.phase attempt
    if !hasVisibleEvidence summary reasoningDigest artifacts warnings dialogue then
      pure (failReview attempt "phase review requires visible result evidence")
    else
      reviewLoop env c ⟨entry, attempt, revisions, summary, dialogue, s.cfg.limits⟩
        (s.cfg.limits.maxDialogueTurns + maxGateLoops) none resumes

def checkpointAttempt (value : Json) (default : Int) : Except String Int :=
  match value with
  | .null => .ok default
  | .int n =>
    if 0 ≤ n ∧ n ≤ 1000000 then .ok n
    else .error "ValueError: checkpointed phase attempt is invalid"
  | _ => .error "ValueError: checkpointed phase attempt is invalid"

/-- The attempt a selected phase is seeded with: the next one after a terminal
    result, and the same one after any other. -/
def seedAttempt (current : Option PhaseEntry) : Except String Int :=
  match current with
  | none => .ok 1
  | some entry => do
      let status := entry.value "status"
      raiseIf (status != .null && !isStrOf (· ∈ phaseStatusValues) status)
        "ValueError: checkpointed phase status is invalid"
      if isStrOf (· ∈ terminalPhaseStatusValues) status then do
        let attempt ← checkpointAttempt (entry.value "attempt") 0
        pure (attempt + 1)
      else if 0 < entry.length then checkpointAttempt (entry.value "attempt") 1
      else pure 1

/-- `PhaseResult(...).as_state()` of a result with nothing in it but a status and
    a summary. -/
def phaseResult (status : PhaseStatus) (attempt : Int) (summary : Json) :
    Except String PhaseEntry := do
  raiseIf (attempt < 1 || 1000000 < attempt) "ValidationError: attempt"
  pure (dictOf [("phase", .str phase.value), ("status", .str status.value),
    ("attempt", .int attempt), ("started_at", .null), ("ended_at", .null), ("duration_s", .null),
    ("summary", summary), ("reasoning_digest", .null), ("transcript_ref", .null),
    ("artifact_ids", .list []), ("warnings", .list []), ("errors", .list []),
    ("approvals", .list []), ("tool_calls", .list []), ("resolved_prompt_source", .null)])

/-- What results from outside add to the entry of an execution. -/
structure ExternalSeed where
  summary : String
  testSummary : Json
  explicitOutcome : Bool
  sourceUri : Json

/-- `_external_seed`: the entry of an execution with results from outside. -/
def externalSeed (external : ExternalSeed) (attempt : Int) : Except String PhaseEntry := do
  let entry ← phaseResult .execution .succeeded attempt (.str external.summary)
  pure (entry.update (dictOf [("test_summary", external.testSummary), ("external", .bool true),
    ("provenance", .str "imported"), ("source_outcome_explicit", .bool external.explicitOutcome),
    ("source_uri", external.sourceUri)]))

/-- The entry of an execution that was not selected, if results are supplied. -/
def seedExternal (selected : List Phase) (external : Option ExternalSeed) :
    Except String (List (Phase × PhaseEntry)) :=
  match external with
  | none => .ok []
  | some external =>
    if .execution ∈ selected then .ok []
    else do
      let attempt ← checkpointAttempt ((s.entryOf .execution).value "attempt") 0
      let entry ← externalSeed external (max 1 (attempt + 1))
      pure [(.execution, entry)]

def seedPhase : Except String (Phase × PhaseEntry) := do
  let attempt ← seedAttempt (s.phaseResults.get? phase.value)
  let entry ← phaseResult phase .pending attempt .null
  pure (phase, entry)

/-- `plan_resolver`: the entries a new plan is seeded with. -/
def seedPlan (selected : List Phase) (external : Option ExternalSeed) :
    Except String (List (Phase × PhaseEntry)) := do
  let imported ← seedExternal s selected external
  let seeded ← selected.mapM (seedPhase s)
  pure (imported ++ seeded)

end Apex.Graphs
