import Apex.Core.Greedy
import Apex.Core.Text
import Apex.Domain.Diagnostics
import Apex.Domain.InputLimits
import Apex.Domain.Pipeline

/-!
# The Preview of a Phase Review

What a review gate shows is a payload with a budget of its own. The summary, the
artifacts and the diagnostics of a phase each have independent limits, so together they
can be too much. Then the payload is emptied and filled again piece by piece, and each
piece stays if the payload is still within the budget.

The order matters: the summary first, then the warnings, the artifacts and the end of the
discussion, then the rest of the preview. If the summary has nothing to read, one text of
the preview is put in before the lists. Warnings, artifacts and messages without anything
to read are passed over.

A message longer than a public text is cut before anything else, and the payload says so.

## Main definitions

* `PhaseReview`: The payload, without what is the same for every gate.
* `PhaseReview.toJson`: The payload as it is measured.
* `fitPhaseReviewPreview`: What of it is shown.
-/

namespace Apex.Graphs

open Domain Domain.InputLimits

/-- What the preview takes from other modules: the patterns of the redactor, and how a
    double is written. -/
structure PreviewEnv where
  rules : CredentialRules
  floatText : PyFloat → List Char

def maxPublicGateBytes : Nat := 256000
def maxPublicGateNodes : Nat := 4096

/-- The payload of a phase review. The warnings are not known to be texts. -/
structure PhaseReview where
  phase : Phase
  summary : Json
  resultPreview : Dict Json
  artifacts : List (Dict Json)
  warnings : List Json
  dialogueTail : List (Dict Json)
  error : Option String
  projectionTruncated : Bool

namespace PhaseReview

/-- The payload as a JSON object. A mark that is not set is not there. -/
def toJson (payload : PhaseReview) : Json :=
  .dict ([("schema_version", .int 1), ("kind", .str "phase_review"),
      ("phase", .str payload.phase.value), ("summary", payload.summary),
      ("result_preview", .ofDict payload.resultPreview),
      ("artifacts", .list (payload.artifacts.map .ofDict)),
      ("warnings", .list payload.warnings),
      ("dialogue_tail", .list (payload.dialogueTail.map .ofDict)),
      ("actions", .list [.str "approve", .str "revise", .str "discuss", .str "abort"])]
    ++ (match payload.error with
      | some error => [("error", .str error)]
      | none => [])
    ++ (if payload.projectionTruncated then [("projection_truncated", .bool true)] else []))

/-- `payload["result_preview"].get(field)`. -/
def preview (payload : PhaseReview) (field : String) : Json := payload.resultPreview.value field

/-- `payload["result_preview"][field] = value`. -/
def setPreview (payload : PhaseReview) (field : String) (value : Json) : PhaseReview :=
  { payload with resultPreview := payload.resultPreview.set field value }

end PhaseReview

def previewLimits : JsonLimits where
  maxBytes := maxPublicGateBytes - 2048
  maxNodes := maxPublicGateNodes - 8
  maxDepth := 24

/-- Whether a payload is within the budget of a preview. -/
def fitsPhaseReviewPreview (env : PreviewEnv) (payload : PhaseReview) : Bool :=
  (validateJsonObject previewLimits "phase review preview" env.floatText payload.toJson).toBool

/-- `type(value) is str and value.strip()`. -/
def isVisible : Json → Bool
  | .str s => strip s != ""
  | _ => false

def isVisibleArtifact (artifact : Dict Json) : Bool :=
  ["id", "kind", "name"].all fun key => isVisible (artifact.value key)

def isVisibleMessage (entry : Dict Json) : Bool := isVisible (entry.value "content")

/-- Whether a message is longer than a public text. -/
def isLong (entry : Dict Json) : Bool :=
  match entry.get? "content" with
  | some (.str content) => decide (20000 < content.length)
  | _ => false

/-- Cut a message that is too long, and mark where. -/
def shorten (env : PreviewEnv) (entry : Dict Json) : Dict Json :=
  match entry.get? "content" with
  | some (.str content) =>
    if 20000 < content.length then
      entry.set "content" (.str (boundedDiagnostic env.rules content 19999 ++ "…"))
    else entry
  | _ => entry

def shortenMessages (env : PreviewEnv) (payload : PhaseReview) : PhaseReview :=
  { payload with
    dialogueTail := payload.dialogueTail.map (shorten env)
    projectionTruncated := payload.projectionTruncated || payload.dialogueTail.any isLong }

/-- The payload with everything optional taken out. -/
def bare (payload : PhaseReview) : PhaseReview :=
  { payload with
    summary := .null
    resultPreview := ⟨[("summary", .null), ("reasoning_digest", .null)], by decide⟩
    artifacts := []
    warnings := []
    dialogueTail := []
    projectionTruncated := true }

section

variable (env : PreviewEnv) (payload : PhaseReview)

variable (result : PhaseReview)

def keepSummary : PhaseReview :=
  if payload.summary ≠ .null then
    if fitsPhaseReviewPreview env { result with summary := payload.summary } then
      { result with summary := payload.summary }
    else { result with summary := .null }
  else result

/-- Put back the first text of the preview that can be read and fits. -/
def reservePreview : List String → PhaseReview → PhaseReview
  | [], result => result
  | field :: fields, result =>
    let value := payload.preview field
    if isVisible value then
      if fitsPhaseReviewPreview env (result.setPreview field value) then
        result.setPreview field value
      else reservePreview fields (result.setPreview field .null)
    else reservePreview fields result

def keepWarnings : PhaseReview :=
  greedy (fitsPhaseReviewPreview env) isVisible
    (fun result entry => { result with warnings := result.warnings ++ [entry] })
    payload.warnings result

def keepArtifacts : PhaseReview :=
  greedy (fitsPhaseReviewPreview env) isVisibleArtifact
    (fun result entry => { result with artifacts := result.artifacts ++ [entry] })
    payload.artifacts result

/-- The last messages are put back first, each in front of those that are there. -/
def keepDialogue : PhaseReview :=
  greedy (fitsPhaseReviewPreview env) isVisibleMessage
    (fun result entry => { result with dialogueTail := entry :: result.dialogueTail })
    payload.dialogueTail.reverse result

/-- Put back one text of the preview, if it is there and fits. -/
def fillField (field : String) : PhaseReview :=
  let value := payload.preview field
  if value ≠ .null then
    if fitsPhaseReviewPreview env (result.setPreview field value) then
      result.setPreview field value
    else result.setPreview field .null
  else result

/-- The texts of a preview, in the order in which they are put back. -/
def previewFields : List String := ["reasoning_digest", "summary"]

def refill : PhaseReview :=
  let result := keepSummary env payload (bare payload)
  let result :=
    if isVisible payload.summary then result
    else reservePreview env payload previewFields result
  let result := keepWarnings env payload result
  let result := keepArtifacts env payload result
  let result := keepDialogue env payload result
  previewFields.foldl (fillField env payload) result

/-- Keep legal generated results reviewable within the budget of the gate. -/
def fitPhaseReviewPreview : PhaseReview :=
  let payload := shortenMessages env payload
  if fitsPhaseReviewPreview env payload then payload
  else refill env payload

end

end Apex.Graphs
