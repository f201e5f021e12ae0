import Apex.Core.Number
import Apex.Domain.EngineHandle

/-!
# Load-Test Specifications

What an execution engine is asked to run. A specification is stored as a JSON
object in the checkpoint and read back field by field before each use.

## Main definitions

* `LoadTestSpec`: The fields.
* `LoadTestSpec.modelDump`: The object a specification is stored as.
* `validatedCheckpointSpec`: The specification a stored object stands for.
-/

namespace Apex.Domain

/-- A load test, independent of the engine that runs it. -/
structure LoadTestSpec where
  idempotencyKey : String
  title : String
  scriptRefs : List String
  vusers : Int
  rampS : PyFloat
  durationS : PyFloat
  slas : Dict PyFloat
  targetEnvironment : Option String
  releaseId : Option String
  mappingRevision : Option String
  deriving DecidableEq

namespace LoadTestSpec

def fields : List String :=
  ["idempotency_key", "title", "script_refs", "vusers", "ramp_s", "duration_s", "slas",
    "target_environment", "release_id", "mapping_revision"]

def modelDump (spec : LoadTestSpec) : Dict Json where
  items := [("idempotency_key", .str spec.idempotencyKey), ("title", .str spec.title),
    ("script_refs", .list (spec.scriptRefs.map Json.str)), ("vusers", .int spec.vusers),
    ("ramp_s", .float spec.rampS), ("duration_s", .float spec.durationS),
    ("slas", .ofDict (spec.slas.map (fun _ x => .float x))),
    ("target_environment", textJson spec.targetEnvironment),
    ("release_id", textJson spec.releaseId),
    ("mapping_revision", textJson spec.mappingRevision)]
  nodup := (by decide : fields.Nodup)

end LoadTestSpec

/-- A text within bounds that may also be `None`. -/
def optionalBoundedText (lo hi : Nat) : Json → Option (Option String)
  | .null => some none
  | v => (textField lo hi v).map some

/-- A reference to a script: a text that is not blank. -/
def scriptRef (v : Json) : Option String :=
  (textField 1 2048 v).filter (fun s => strip s != "")

/-- A number at most `hi` that is not negative, or that is positive. -/
def boundedNumber (positive : Bool) (hi : Int) (v : Json) : Option PyFloat := do
  let x ← v.number?
  if (if positive then 0 < x else 0 ≤ x) ∧ x ≤ hi * unitScale then some v.toFloat else none

def slaNameOk (name : String) : Bool :=
  1 ≤ name.length && name.length ≤ 64 && strip name != "" && !hasNul name

def slaThreshold (name : String) (v : Json) : Except Unit PyFloat :=
  if slaNameOk name then
    match boundedNumber false 1000000000000 v with
    | some x => .ok x
    | none => .error ()
  else .error ()

def readSlas (v : Json) : Option (Dict PyFloat) := do
  let d ← v.dict?
  if d.length ≤ 32 then (d.traverse slaThreshold).toOption else none

def readScriptRefs : Json → Option (List String)
  | .list xs => if xs.length ≤ 100 then xs.mapM scriptRef else none
  | _ => none

def readVusers : Json → Option Int
  | .int n => if 1 ≤ n ∧ n ≤ 10000 then some n else none
  | _ => none

/-- The fields that are checked before the scan for credentials. -/
def readSpec (d : Dict Json) : Option LoadTestSpec := do
  let title ← textField 1 1000 (d.value "title")
  let idempotencyKey ← textField 1 256 (d.value "idempotency_key")
  let scriptRefs ← readScriptRefs ((d.get? "script_refs").getD (.list []))
  let vusers ← readVusers ((d.get? "vusers").getD (.int 10))
  let rampS ← boundedNumber false 86400 ((d.get? "ramp_s").getD (.int 5))
  let durationS ← boundedNumber true 86400 ((d.get? "duration_s").getD (.int 2))
  let slas ← readSlas ((d.get? "slas").getD (.ofDict ∅))
  let targetEnvironment ← optionalBoundedText 0 2048 (d.value "target_environment")
  if d.length ≤ LoadTestSpec.fields.length ∧ d.keys.all (LoadTestSpec.fields.contains ·) = true then
    some ⟨idempotencyKey, title, scriptRefs, vusers, rampS, durationS, slas, targetEnvironment,
      none, none⟩
  else none

/-- What the model checks on top: the two provenance texts, and that an error
    rate is a fraction. -/
def finishSpec (d : Dict Json) (spec : LoadTestSpec) : Option LoadTestSpec := do
  let releaseId ← optionalBoundedText 1 255 (d.value "release_id")
  let mappingRevision ← optionalBoundedText 1 255 (d.value "mapping_revision")
  if (spec.slas.get? "error_rate").all (fun x => x.scaled ≤ unitScale) then
    some { spec with releaseId := releaseId, mappingRevision := mappingRevision }
  else none

def specScanLimits : ScanLimits :=
  { plainScanLimits with
    maxNodes := 256, maxTotalChars := 300000, maxNodes_pos := Nat.succ_pos 255,
    maxTotalChars_pos := Nat.succ_pos 299999 }

def validatedCheckpointSpec (rules : CredentialRules) (value : Json) :
    Except String LoadTestSpec :=
  match value.dict? with
  | none => .error "ValueError: checkpointed load-test spec is invalid"
  | some d =>
    match readSpec d with
    | none => .error "ValueError: checkpointed load-test spec is invalid"
    | some spec => do
        raiseIf (containsCredentialMaterial rules specScanLimits value)
          "ValueError: checkpointed load-test spec contains credential material"
        match finishSpec d spec with
        | none => .error "ValueError: checkpointed load-test spec is invalid"
        | some spec => pure spec

end Apex.Domain
