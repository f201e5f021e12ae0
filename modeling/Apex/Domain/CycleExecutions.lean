import Apex.Domain.Cycles
import Apex.Domain.LoadTestSpec
import Apex.Graphs.Pipeline.State

/-!
# Preparing An Execution

An execution is prepared from an approved plan and an approved script of a cycle, and a
readiness review if one is selected. The preparation freezes which versions these were and
what they said; before each use the prerequisites are checked again, against the history
as it is then and what is known of the environment.

## Main definitions

* `ExecutionSnapshot`: What a preparation freezes.
* `prepareSnapshot`: The preparation.
* `executionChecks`: The checks of a preparation.
-/

namespace Apex.Domain.CycleExecutions

open Graphs

inductive LaunchAuthority where
  | pipeline
  | nativeSchedule
  deriving DecidableEq, Repr

inductive ExecutionMode where
  | live
  | simulation
  deriving DecidableEq, Repr

/-- The engines an execution may be prepared for. -/
inductive Engine where
  | apexLoad
  | loadrunner
  deriving DecidableEq, Repr

def Engine.value : Engine → String
  | apexLoad => "apex-load"
  | loadrunner => "loadrunner"

def Engine.read (v : Json) : Option Engine :=
  if v = .str "apex-load" then some apexLoad
  else if v = .str "loadrunner" then some loadrunner else none

structure PrepareExecution where
  expectedRevision : Nat
  idempotencyKey : String
  planVersionId : String
  scriptVersionId : String
  readinessVersionId : Option String := none
  connectionId : Option String := none
  launchAuthority : LaunchAuthority := .pipeline

structure ExecutionSnapshot where
  planVersionId : String
  planTitle : String
  planChecksum : String
  scriptVersionId : String
  scriptTitle : String
  scriptChecksum : String
  scriptSourceChecksum : String
  scriptFormat : String
  readinessVersionId : Option String
  readinessChecksum : Option String
  engine : Engine
  mode : ExecutionMode
  environmentId : String
  environmentVersion : Option Int
  connectionId : Option String
  connectionVersion : Option String
  launchAuthority : LaunchAuthority
  scriptArtifactId : Option String := none
  scriptArtifactStoredAt : Option String := none
  workload : Dict Json

def kindLabel (kind : Kind) : String := kind.value.replace "_" " "

def approved (env : CyclesEnv) (versions : List Version) (id : String) (kind : Kind) :
    Except String Version := do
  let refusal := "Select a current approved " ++ kindLabel kind ++ " version"
  let version ← someOr refusal (versions.find? fun v => v.id == id)
  raiseIf (version.kind != kind || !approvalCurrent env versions id) refusal
  raiseIf (versionDigest env version.content != version.checksum)
    "Deliverable content no longer matches its approved checksum"
  pure version

/-- `if request.readiness_version_id`: an empty id selects nothing. -/
def PrepareExecution.readiness (r : PrepareExecution) : Option String :=
  r.readinessVersionId.filter (· != "")

variable (env : CyclesEnv) (s : ExecutionSnapshot) (versions : List Version)

def selectedReadiness (plan : Version) :
    Option String → Except String (Option Version)
  | none => .ok none
  | some id => do
      let readiness ← approved env versions id .readiness
      raiseIf (!readiness.dependencies.contains plan.id)
        "Readiness must reference the selected approved test-plan version"
      pure (some readiness)

def requireText (refusal : String) : Json → Except String String
  | .str s => .ok s
  | _ => .error refusal

/-- `value not in (None, "")`. -/
def given (v : Json) : Bool := v != .null && v != .str ""

def withGiven (plan : Version) (field name : String) (d : Dict Json) : Dict Json :=
  if given (plan.content.value field) then d.set name (plan.content.value field) else d

def workloadOf (plan : Version) : Dict Json :=
  let slas := withGiven plan "error_rate_threshold" "error_rate"
    (withGiven plan "p95_ms_threshold" "p95_ms" ∅)
  withGiven plan "arrival_rate" "arrival_rate"
    ((((Dict.single "vusers" (plan.content.value "vusers")).set
      "ramp_s" (plan.content.value "ramp_s")).set
      "duration_s" (plan.content.value "duration_s")).set "slas" (.ofDict slas))

/-- What is known of where an execution is to run. -/
structure Binding where
  mode : ExecutionMode
  environmentId : String
  environmentVersion : Option Int
  connectionVersion : Option String

def prepareSnapshot (r : PrepareExecution) (versions : List Version)
    (binding : Binding) : Except String ExecutionSnapshot := do
  let plan ← approved env versions r.planVersionId .testPlan
  let script ← approved env versions r.scriptVersionId .script
  raiseIf (!script.dependencies.contains plan.id)
    "The script must reference the selected approved test-plan version"
  let readiness ← selectedReadiness env versions plan r.readiness
  let engineValue ← someOr "KeyError: engine" (script.content.get? "engine")
  raiseIf (r.launchAuthority == .nativeSchedule && engineValue != .str "apex-load")
    "Native schedule ownership is supported only for APEX Load"
  let sourceValue ← someOr "KeyError: source" (script.content.get? "source")
  let source ← requireText "AttributeError: encode" sourceValue
  let formatValue ← someOr "KeyError: format" (script.content.get? "format")
  let format ← requireText "ValidationError: script_format" formatValue
  let engine ← someOr "ValidationError: engine" (Engine.read engineValue)
  pure {
    planVersionId := plan.id
    planTitle := plan.title
    planChecksum := plan.checksum
    scriptVersionId := script.id
    scriptTitle := script.title
    scriptChecksum := script.checksum
    scriptSourceChecksum := env.sha256 source
    scriptFormat := format
    readinessVersionId := readiness.map Version.id
    readinessChecksum := readiness.map Version.checksum
    engine := engine
    mode := binding.mode
    environmentId := binding.environmentId
    environmentVersion := binding.environmentVersion
    connectionId := r.connectionId
    connectionVersion := binding.connectionVersion
    launchAuthority := r.launchAuthority
    workload := workloadOf plan }

inductive CheckStatus where
  | ready
  | blocked
  | notChecked
  deriving DecidableEq, Repr

structure PreflightCheck where
  key : String
  label : String
  status : CheckStatus
  detail : String

/-- What is known when a preparation is checked. Times are in microseconds. -/
structure Conditions where
  targetVersion : Option Int
  targetValid : Bool
  connectionValid : Bool
  connectionVersion : Option String
  inventoryId : Option String
  inventoryAt : Option Int
  now : Int

def check (key label : String) (valid : Bool) (good bad : String) : PreflightCheck :=
  ⟨key, label, if valid then .ready else .blocked, if valid then good else bad⟩

/-- The three kinds of versions that are frozen. -/
inductive Frozen where
  | plan
  | script
  | readiness
  deriving DecidableEq, Repr

def Frozen.value : Frozen → String
  | plan => "plan"
  | script => "script"
  | readiness => "readiness"

/-- How a frozen kind is written in capitals. -/
def Frozen.capitalized : Frozen → String
  | plan => "Plan"
  | script => "Script"
  | readiness => "Readiness"

/-- `getattr(snapshot, f"{kind}_version_id")`. -/
def ExecutionSnapshot.versionId : Frozen → Option String
  | .plan => some s.planVersionId
  | .script => some s.scriptVersionId
  | .readiness => s.readinessVersionId

/-- `getattr(snapshot, f"{kind}_checksum")`. -/
def ExecutionSnapshot.checksum : Frozen → Option String
  | .plan => some s.planChecksum
  | .script => some s.scriptChecksum
  | .readiness => s.readinessChecksum

def versionOf (id : Option String) : Option Version :=
  versions.find? fun v => some v.id == id

/-- Whether exact approved content of a kind is still current. -/
def frozenCurrent (kind : Frozen) : Bool :=
  (versionOf versions (s.versionId kind)).any fun v =>
    approvalCurrent env versions v.id && s.checksum kind == some v.checksum
      && versionDigest env v.content == v.checksum

def approvalCheck (kind : Frozen) : PreflightCheck :=
  check kind.value (kind.capitalized ++ " approval") (frozenCurrent env s versions kind)
    "Exact approved content is still current."
    ("Select a current approved " ++ kind.value ++ " and prepare a new execution binding.")

def optionalInt : Option Int → Json
  | some n => .int n
  | none => .null

def inventoryLimit : Int := 24 * 60 * 60 * 1000000

/-- Whether the readiness review is of the latest inventory and of the target. -/
def readinessCurrent (content : Dict Json) (c : Conditions) : Bool :=
  let fresh := c.inventoryAt.any fun at' =>
    decide (0 ≤ c.now - at') && decide (c.now - at' ≤ inventoryLimit)
  content.value "status" == .str "ready"
    && content.value "inventory_snapshot_id" == optionalText c.inventoryId
    && c.inventoryId.isSome && fresh
    && Json.pyEq (content.value "target_version") (optionalInt c.targetVersion)

/-- The fields `LoadTestSpec` is asked with: a request key is made up where none is given. -/
def workloadSpec (workload : Dict Json) : Dict Json :=
  let spec := (Dict.single "title" (Json.str "Prepared execution")).update
    (workload.filterKeys (· != "arrival_rate"))
  if spec.has "idempotency_key" then spec
  else spec.set "idempotency_key" (.str "00000000000000000000000000000000")

/-- Whether `LoadTestSpec` accepts a workload. -/
def workloadOk (workload : Dict Json) : Bool :=
  ((readSpec (workloadSpec workload)).bind (finishSpec (workloadSpec workload))).isSome

def surroundingChecks (c : Conditions) :
    List PreflightCheck :=
  let content := ((versionOf versions s.readinessVersionId).map Version.content).getD ∅
  let simulated := s.mode == .simulation
  [check "target" "Approved environment target"
      (c.targetValid && c.targetVersion == s.environmentVersion)
      "The approved target version matches this binding."
      ("Approve the environment target or prepare a new binding after its configuration "
        ++ "changes."),
    check "connection" "Execution connection configuration"
      (simulated || (c.connectionValid && c.connectionVersion == s.connectionVersion))
      (if simulated then "Simulation selected; no live connection will be used."
        else "Connection is enabled, project-scoped and matches the recorded runtime version.")
      ("Select an enabled connection for this project and engine, then prepare a new "
        ++ "binding."),
    check "readiness_evidence" "Environment readiness evidence" (readinessCurrent content c)
      ("Approved readiness references the latest inventory scan, under "
        ++ "24 hours old, and target version.")
      ("Rescan the environment and approve readiness with the latest "
        ++ "snapshot ID, target version and Ready assessment."),
    check "workload" "Engine workload limits" (workloadOk s.workload)
      "Concurrency, ramp and duration fit the current execution contract."
      ("Revise the plan: execution supports 1–10,000 integer concurrent "
        ++ "users and at most 24 hours ramp/duration."),
    check "thresholds" "Machine-readable thresholds" (truthy (s.workload.value "slas"))
      "Threshold values are frozen with the workload."
      ("Add numeric latency or error-rate thresholds to the approved "
        ++ "plan; prose is not execution configuration.")]

/-- The check of an arrival rate, which is not supported. -/
def arrivalChecks : List PreflightCheck :=
  if s.workload.has "arrival_rate" then
    [⟨"arrival_rate", "Arrival-rate scheduling", .blocked,
      "The pipeline execution contract does not support arrival-rate "
        ++ "scheduling. Revise the workload; arrival rate will not be silently ignored."⟩]
  else []

def providerChecks : List PreflightCheck :=
  [⟨"provider_access", "Provider readiness and capacity", .notChecked,
      if s.mode = .live then "Provider capacity and launch bindings have not been verified. "
        ++ "Source validation is recorded separately."
      else "This is a simulation preparation; it does not verify live "
        ++ "provider access or capacity."⟩,
    check "script_storage" "Approved source stored in APEX" s.scriptArtifactId.isSome
      ("A checksum-verified source snapshot was stored when this preparation was created. "
        ++ "Availability must be rechecked before launch.")
      "Store this approved script in the script library, then prepare a new execution.",
    ⟨"script_binding", "Immutable provider script binding", .notChecked,
      "Approved content is frozen in APEX. Dispatch checks re-read the stored source "
        ++ "and verify the exact provider copy before launching."⟩,
    ⟨"launch_authority", "Launch ownership",
      if s.launchAuthority = .nativeSchedule then .blocked else .notChecked,
      if s.launchAuthority = .nativeSchedule then
        "The native APEX Load schedule owns launching. Reconcile its "
          ++ "runs; do not launch a duplicate pipeline execution."
      else "Use this preparation's Dispatch checks to launch its exact approved source. "
        ++ "Creating a preparation alone does not launch a pipeline."⟩]

def executionChecks (c : Conditions) : List PreflightCheck :=
  [Frozen.plan, .script, .readiness].map (approvalCheck env s versions)
    ++ surroundingChecks s versions c ++ arrivalChecks s ++ providerChecks s

end Apex.Domain.CycleExecutions
