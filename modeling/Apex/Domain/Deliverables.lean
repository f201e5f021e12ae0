import Apex.Core.Number
import Apex.Core.Text

/-!
# Deliverables

The engineering documents of a test cycle and the fields each kind has. A document
may be incomplete while it is a draft; `contentIssues` is what stands between it and
a review.

Beside its fields a report may carry what was captured of the executions it is about,
and a scope what was captured of the sources it was taken from. These two are not
fields: an operator does not write them.

## Main definitions

* `Kind`: The kinds of documents.
* `DeliverableField`, `deliverableFields`: Their fields.
* `CyclesEnv`: What other modules and the standard library contribute.
* `contentIssues`: What is missing or wrong in a document.
-/

namespace Apex.Domain

inductive Kind where
  | scope
  | testPlan
  | readiness
  | script
  | report
  | postmortem
  deriving DecidableEq, Repr

def Kind.value : Kind → String
  | scope => "scope"
  | testPlan => "test_plan"
  | readiness => "readiness"
  | script => "script"
  | report => "report"
  | postmortem => "postmortem"

def executionEvidenceKey : String := "_execution_evidence"

def sourceEvidenceKey : String := "_source_evidence"

structure CyclesEnv where
  /-- `hashlib.sha256(...).hexdigest()`. -/
  sha256 : String → String
  /-- `json.dumps` with sorted keys and no blanks. -/
  canonicalJson : Dict Json → String
  /-- `json.loads`; nothing is returned where it raises. -/
  loads : String → Option Json
  /-- The number of bytes of `json.dumps`. -/
  jsonBytes : Json → Nat
  /-- `validate_json_object` within a number of bytes and of nodes. -/
  jsonObjectOk : (content : Dict Json) → (maxBytes maxNodes : Nat) → Bool
  /-- `contains_credential_material`. -/
  credentials : Json → Bool
  /-- The digits that `\d` matches. -/
  decimalDigit : Char → Bool
  /-- A time of the format of `isoformat` in whole seconds, with its zone. -/
  utcLabel : String → String
  /-- The setting `cycles_independent_review`. -/
  independentReview : Bool

structure Bound where
  value : Int
  text : String

inductive FieldControl where
  | text
  | multiline
  | number (minimum maximum : Bound) (integer : Bool)
  | select (options : List String)

structure DeliverableField where
  key : String
  label : String
  control : FieldControl := .multiline
  required : Bool := true

def scopeFields : List DeliverableField := [
  { key := "requirements", label := "Requirements and risks" },
  { key := "source_manifest", label := "Frozen source references" },
  { key := "included", label := "Included journeys" },
  { key := "excluded", label := "Excluded scope", required := false }]

def testPlanFields : List DeliverableField := [ { key := "objectives", label := "Objectives" },
  { key := "journeys", label := "User journeys and requirement coverage" },
  { key := "workload_mix", label := "Workload mix" },
  { key := "vusers", label := "Concurrent users"
    control := .number ⟨1, "1"⟩ ⟨1000000, "1e+06"⟩ true },
  { key := "arrival_rate", label := "Arrival rate (requests per second)"
    control := .number ⟨0, "0"⟩ ⟨1000000, "1e+06"⟩ false, required := false },
  { key := "ramp_s", label := "Ramp (seconds)"
    control := .number ⟨0, "0"⟩ ⟨86400, "86400"⟩ false },
  { key := "duration_s", label := "Steady-state duration (seconds)"
    control := .number ⟨1, "1"⟩ ⟨86400, "86400"⟩ false },
  { key := "test_data", label := "Test data and parameterization" },
  { key := "thresholds", label := "Transaction thresholds" },
  { key := "p95_ms_threshold", label := "Overall p95 latency limit (ms)"
    control := .number ⟨0, "0"⟩ ⟨1000000000000, "1e+12"⟩ false, required := false },
  { key := "error_rate_threshold", label := "Overall error-rate limit (fraction 0–1)"
    control := .number ⟨0, "0"⟩ ⟨1, "1"⟩ false, required := false },
  { key := "observability", label := "Observability and evidence collection" },
  { key := "entry_criteria", label := "Entry criteria" },
  { key := "exit_criteria", label := "Exit criteria" }]

def readinessFields : List DeliverableField := [
  { key := "expected", label := "Expected environment configuration" },
  { key := "observed", label := "Observed inventory and telemetry" },
  { key := "evidence", label := "Evidence references and observation times" },
  { key := "status", label := "Readiness assessment"
    control := .select ["not_checked", "blocked", "warning", "ready"] },
  { key := "inventory_snapshot_id", label := "Inventory snapshot ID"
    control := .text, required := false },
  { key := "target_version", label := "Approved target version"
    control := .number ⟨0, "0"⟩ ⟨2147483647, "2.14748e+09"⟩ true, required := false },
  { key := "remediation", label := "Blockers, owners and remediation notes", required := false }]

def scriptFields : List DeliverableField := [
  { key := "engine", label := "Execution platform"
    control := .select ["apex-load", "loadrunner"] },
  { key := "format", label := "Script format"
    control := .select ["apex_native_json", "web_http_html", "other_import"] },
  { key := "source", label := "Script source or immutable import reference" },
  { key := "parameters", label := "Parameter files and dependencies" },
  { key := "coverage", label := "Requirement and journey coverage" },
  { key := "validation", label := "Inspection and validation evidence" }]

def reportFields : List DeliverableField := [
  { key := "executive_summary", label := "Executive summary" },
  { key := "technical_analysis", label := "Technical analysis" },
  { key := "evidence", label := "Execution evidence and versions" },
  { key := "findings", label := "Findings and baseline differences" },
  { key := "exclusions", label := "Exclusions and limitations" },
  { key := "accepted_risks", label := "Accepted risks", required := false },
  { key := "recommendation", label := "Recommendation" }]

def postmortemFields : List DeliverableField := [ { key := "findings", label := "Findings" },
  { key := "factors", label := "Contributing factors" },
  { key := "lessons", label := "Lessons learned" },
  { key := "actions", label := "Follow-up actions, owners and status" }]

def deliverableFields : Kind → List DeliverableField
  | .scope => scopeFields
  | .testPlan => testPlanFields
  | .readiness => readinessFields
  | .script => scriptFields
  | .report => reportFields
  | .postmortem => postmortemFields

/-- What a document of a kind may carry beside its fields. -/
def evidenceKeys : Kind → List String
  | .report => [executionEvidenceKey]
  | .scope => [sourceEvidenceKey]
  | _ => []

/-- Whether a number is outside two bounds. A truth value is no number here. -/
def outsideBounds (minimum maximum : Bound) : Json → Bool
  | .int n => decide (n < minimum.value) || decide (maximum.value < n)
  | .float x => !x.isFinite || decide (x.scaled < minimum.value * unitScale)
      || decide (maximum.value * unitScale < x.scaled)
  | _ => true

/-- `value.is_integer()` of a float. -/
def fractional : Json → Bool
  | .float x => x.scaled % unitScale != 0
  | _ => false

/-- What is wrong with the text of a field, if anything. -/
def textIssue (label : String) (options : Option (List String)) : Json → List String
  | .str s =>
    if (strip s).isEmpty || decide (50000 < s.length) then
      [label ++ " must be non-empty text under 50,000 characters"]
    else if options.any fun options => !options.contains s then
      ["Choose a supported value for " ++ label]
    else []
  | _ => [label ++ " must be non-empty text under 50,000 characters"]

def fieldIssue (content : Dict Json) (spec : DeliverableField) : List String :=
  let value := content.value spec.key
  if value = .null ∨ value = .str "" then
    if spec.required then [spec.label ++ " is required"] else []
  else
    match spec.control with
    | .number minimum maximum integer =>
      if outsideBounds minimum maximum value then
        [spec.label ++ " must be between " ++ minimum.text ++ " and " ++ maximum.text]
      else if integer && fractional value then [spec.label ++ " must be a whole number"]
      else []
    | .select options => textIssue spec.label (some options) value
    | _ => textIssue spec.label none value

def scriptIssues (env : CyclesEnv) (content : Dict Json) : List String :=
  let engine := content.value "engine"
  let formatName := content.value "format"
  let mismatch := (engine = .str "apex-load" ∧ formatName = .str "web_http_html")
    ∨ (engine = .str "loadrunner" ∧ formatName = .str "apex_native_json")
  (if mismatch then ["The script format does not match the execution platform"] else [])
    ++ match formatName, content.value "source" with
      | .str "apex_native_json", .str source =>
        match env.loads source with
        | some (.dict (_ :: _)) => []
        | _ => ["APEX native script source must be a non-empty JSON object"]
      | _, _ => []

def contentIssues (env : CyclesEnv) (kind : Kind) (content : Dict Json) : List String :=
  let fields := deliverableFields kind
  let unsupported := content.keys.any fun key =>
    !(fields.map DeliverableField.key).contains key && !(evidenceKeys kind).contains key
  (if unsupported then ["Remove unsupported fields before review"] else [])
    ++ fields.flatMap (fieldIssue content)
    ++ (if kind = .script then scriptIssues env content else [])

end Apex.Domain
