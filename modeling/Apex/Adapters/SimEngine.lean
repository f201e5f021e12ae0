import Apex.Adapters.ApexLoad
import Apex.Core.FloatText
import Apex.Domain.EngineHandle

/-!
# The Simulated Engine

The simulated engine has no server: all that a run is stands in the texts of its handle. A
handle is provisioned with the time, the duration and the failure to inject, printed to six
places, and every later call reads these texts back, with strict bounds, and computes from the
clock where the run is. Aborting writes two more texts.

Numbers are exact. A number of a specification comes with the text `str` gives it, which is
read back as the number; what is printed to places is rounded to them. A call reads the clock
once when it parses the handle and once more for the time that has passed.

## Main definitions

* `Instant`, `PyNumber`, `LoadTestSpec`, `ConnectionOptions`: What a run is made from.
* `boundedFloat`, `boundedInt`: Numbers within bounds.
* `validate`, `provision`: A handle is made.
* `getStatus`, `abort`, `fetchSummary`: The calls on it.
-/

namespace Apex.Adapters.SimEngine

open Decimal Domain

def maxDurationS : ℚ := 86400
def maxVusers : Int := 10000
def maxNumericChars : Nat := 64
def maxClockSkewS : ℚ := 300

def floatText (text : String) : Option Reading := readFloat ApexLoad.decimalDigit? text.toList

/-- A reading of the clock, in seconds since the epoch. -/
structure Instant where
  seconds : ℚ
  since_epoch : 0 ≤ seconds
  representable : seconds < 10 ^ 12

/-- A number and what `str` makes of it. -/
structure PyNumber where
  value : ℚ
  text : String
  float_text : floatText text = some (.finite value)
  strip_text : strip text = text
  length_text : text.length ≤ maxNumericChars
  hasNul_text : hasNul text = false

/-- What an option, or a text of a handle, may be. -/
inductive OptionValue
  | bool (b : Bool)
  | int (n : Int)
  | float (x : Reading)
  | text (s : String)
  | other

/-- The largest integer that a double is not too small for, and one. -/
def floatOverflow : Nat := 2 ^ 1024 - 2 ^ 970

/-- The number an option stands for, as far as it can be read. -/
def OptionValue.reading : OptionValue → Option Reading
  | .bool _ => none
  | .int n => if n.natAbs < floatOverflow then some (.finite n) else none
  | .float x => some x
  | .text s =>
    let text := strip s
    if text = "" ∨ maxNumericChars < text.length ∨ hasNul text then none else floatText text
  | .other => none

def general (q : ℚ) : String := String.ofList (formatG 6 q)

def boundedFloat (value : OptionValue) (label : String) (minimum maximum : ℚ)
    (minimumInclusive : Bool) : Except String ℚ :=
  let outside := label ++ " must be " ++ (if minimumInclusive then ">=" else ">") ++ " "
    ++ general minimum ++ " and <= " ++ general maximum
  match value.reading with
  | none => .error (label ++ " must be a finite number")
  | some (.finite parsed) =>
    if (if minimumInclusive then minimum ≤ parsed else minimum < parsed) ∧ parsed ≤ maximum then
      .ok parsed
    else .error outside
  | some _ => .error outside

/-- `int(text)` of a text of decimal digits of ASCII. -/
def intText? (text : List Char) : Option Int :=
  match spanDigits asciiDigit? text with
  | (d :: ds, []) => some (Nat.ofDigits 10 (d :: ds).reverse : Nat)
  | _ => none

def intText (n : Int) : String :=
  let digits := digitChars (Nat.digits 10 n.natAbs).reverse
  String.ofList ((if n < 0 then ['-'] else []) ++ (if n = 0 then ['0'] else digits))

def boundedInt (value : OptionValue) (label : String) (minimum maximum : Int) :
    Except String Int :=
  let parsed :=
    match value with
    | .int n => some n
    | .text s =>
      let text := strip s
      if maxNumericChars < text.length then none else intText? text.toList
    | _ => none
  match parsed with
  | none => .error (label ++ " must be an integer")
  | some parsed =>
    if parsed < minimum ∨ maximum < parsed then
      .error (label ++ " must be between " ++ intText minimum ++ " and " ++ intText maximum)
    else .ok parsed

structure LoadTestSpec where
  idempotencyKey : String
  vusers : Int
  rampS : PyNumber
  durationS : PyNumber
  slas : List (String × ℚ)

/-- The options of a connection that the engine reads; `none` where one is `None`. -/
structure ConnectionOptions where
  durationS : Option OptionValue
  failAtPct : Option OptionValue

structure Engine where
  connectionId : Option String
  durationOverride : Option ℚ
  failAtPct : Option ℚ

/-- The first sixteen characters of a hexadecimal digest. -/
structure ShortDigest where
  hex : List Char
  length_hex : hex.length = 16
  hex_digits : hex.all (fun c => ('0' ≤ c && c ≤ '9') || ('a' ≤ c && c ≤ 'f')) = true

/-- What the engine is run with: the digest, the encoder and the decoder of JSON, and the rules
    a handle is checked by. -/
structure SimEnv where
  digest : String → ShortDigest
  dumps : List (String × ℚ) → String
  loads : String → Option (List (String × ℚ))
  rules : CredentialRules

/-- A value that may be `None`, within bounds where it is not. -/
def optionalFloat (value : Option OptionValue) (label : String) (minimum maximum : ℚ)
    (minimumInclusive : Bool) : Except String (Option ℚ) :=
  match value with
  | none => .ok none
  | some value => (boundedFloat value label minimum maximum minimumInclusive).map some

/-- `SimExecutionEngine(conn)`. -/
def construct (connectionId : Option String) (options : ConnectionOptions) :
    Except String Engine := do
  let durationOverride ← optionalFloat options.durationS "duration_s option" 0 maxDurationS false
  let failAtPct ← optionalFloat options.failAtPct "fail_at_pct option" 0 100 true
  pure ⟨connectionId, durationOverride, failAtPct⟩

def simMetrics : List String := ["p95_ms", "error_rate", "tps_avg"]

/-- The checks of a specification on its thresholds. -/
def slaOk (sla : String × ℚ) : Bool :=
  strip sla.1 != "" && sla.1.length ≤ 64 && !hasNul sla.1 && decide (0 ≤ sla.2)
    && decide (sla.2 ≤ 1000000000000) && (sla.1 != "error_rate" || decide (sla.2 ≤ 1))

def validatedSlas (slas : List (String × ℚ)) : Except String (List (String × ℚ)) :=
  if 32 < slas.length || !slas.all slaOk then .error "invalid load test spec"
  else if slas.all (fun sla => simMetrics.contains sla.1) then .ok slas
  else .error "sim acceptance supports only p95_ms, error_rate and tps_avg"

def issueOf {α : Type} (issue : String) : Except String α → List String
  | .ok _ => []
  | .error _ => [issue]

/-- `validate`: the issues of a specification. -/
def validate (spec : LoadTestSpec) : List String :=
  issueOf "vusers must be >= 1" (boundedInt (.int spec.vusers) "vusers" 1 maxVusers)
    ++ issueOf "duration_s must be > 0"
      (boundedFloat (.float (.finite spec.durationS.value)) "duration_s" 0 maxDurationS false)
    ++ issueOf "ramp_s must be >= 0"
      (boundedFloat (.float (.finite spec.rampS.value)) "ramp_s" 0 maxDurationS true)
    ++ issueOf "sim acceptance supports only valid p95_ms, error_rate and tps_avg thresholds"
      (validatedSlas spec.slas)

/-- `json.dumps(slas, sort_keys=True)` writes the thresholds in this order. -/
def sortKeys (slas : List (String × ℚ)) : List (String × ℚ) :=
  slas.mergeSort fun a b => a.1 ≤ b.1

def sixPlaces (q : ℚ) : String := String.ofList (formatF 6 q)

variable (env : SimEnv) (handle : EngineHandle) (now : Instant)

def deriveRunId (idempotencyKey : String) : String :=
  "sim-" ++ String.ofList (env.digest idempotencyKey).hex

def Engine.duration (engine : Engine) (spec : LoadTestSpec) : ℚ :=
  engine.durationOverride.getD spec.durationS.value

def provisionedExtras (engine : Engine) (spec : LoadTestSpec) (now : Instant) :
    Dict String :=
  let extras := ((((((∅ : Dict String).set "started_at" (sixPlaces now.seconds)).set
    "duration_s" (sixPlaces (engine.duration spec))).set "vusers" (intText spec.vusers)).set
    "slas" (env.dumps spec.slas)).set "ramp_s" spec.rampS.text).set
    "workload_duration_s" spec.durationS.text
  match engine.failAtPct with
  | none => extras
  | some failAtPct => extras.set "fail_at_pct" (sixPlaces failAtPct)

def provision (engine : Engine) (spec : LoadTestSpec) (now : Instant) :
    Except String EngineHandle :=
  let issues := validate spec
  let handle : EngineHandle :=
    { engine := "sim"
      connectionId := engine.connectionId
      externalRunId := some (deriveRunId env spec.idempotencyKey)
      idempotencyKey := spec.idempotencyKey
      extras := provisionedExtras env engine spec now }
  if issues ≠ [] then
    .error ("invalid sim load-test spec: " ++ String.intercalate "; " issues)
  else if handle.ok env.rules then .ok handle
  else .error "invalid engine handle"

/-- `_SIM_RUN_ID.fullmatch`. -/
def isSimRunId (runId : String) : Bool :=
  match runId.toList with
  | 's' :: 'i' :: 'm' :: '-' :: hex =>
    hex.length == 16 && hex.all (fun c => ('0' ≤ c && c ≤ '9') || ('a' ≤ c && c ≤ 'f'))
  | _ => false

def runIdOf : Except String String :=
  match handle.externalRunId with
  | some runId =>
    if isSimRunId runId then .ok runId
    else .error "sim handle has an invalid external_run_id; call provision() first"
  | none => .error "sim handle has an invalid external_run_id; call provision() first"

/-- A text of the handle, which has to be there. -/
def requiredExtra (key : String) : Except String String :=
  someOr ("handle was not provisioned by the sim engine (missing extras['" ++ key
    ++ "']); call provision() first") (handle.extras.get? key)

/-- What `_parse_extras` returns. -/
structure Parsed where
  startedAt : ℚ
  durationS : ℚ
  vusers : Int
  failAtPct : Option ℚ

def parseExtras : Except String Parsed := do
  let _ ← runIdOf handle
  let startedRaw ← requiredExtra handle "started_at"
  let startedAt ← boundedFloat (.text startedRaw) "handle started_at" 0
    (now.seconds + maxClockSkewS) true
  let durationRaw ← requiredExtra handle "duration_s"
  let durationS ← boundedFloat (.text durationRaw) "handle duration_s" 0 maxDurationS false
  let vusersRaw ← requiredExtra handle "vusers"
  let vusers ← boundedInt (.text vusersRaw) "handle vusers" 1 maxVusers
  let failAtPct ← optionalFloat ((handle.extras.get? "fail_at_pct").map .text)
    "handle fail_at_pct" 0 100 true
  pure ⟨startedAt, durationS, vusers, failAtPct⟩

/-- A text of the handle that may be missing, as an argument of `_bounded_float`. -/
def extraValue (key : String) : OptionValue :=
  match handle.extras.get? key with
  | some text => .text text
  | none => .other

def rampRatio (progressPct : ℚ) : Except String ℚ :=
  if !handle.extras.has "ramp_s" && !handle.extras.has "workload_duration_s" then
    .ok (min 1 (progressPct / (1 / 5 * 100)))
  else do
    let rampS ← boundedFloat (extraValue handle "ramp_s") "handle ramp_s" 0 maxDurationS true
    let requestedDuration ← boundedFloat (extraValue handle "workload_duration_s")
      "handle workload_duration_s" 0 maxDurationS false
    pure (if rampS = 0 then 1 else min 1 (progressPct / 100 * requestedDuration / rampS))

inductive EngineRunPhase
  | running
  | completed
  | failed
  | aborted
  deriving DecidableEq

def EngineRunPhase.terminal : EngineRunPhase → Bool
  | .running => false
  | _ => true

structure LiveStats where
  vusers : ℚ
  tps : ℚ
  errorRate : ℚ
  p95Ms : ℚ

structure EngineRunStatus where
  phase : EngineRunPhase
  progressPct : ℚ
  liveStats : Option LiveStats
  message : String

def baseErrorRate : ℚ := 1 / 250
def tpsPerVuser : ℚ := 12 / 5

def liveStatsAt (progressPct vusersPeak rampRatio : ℚ) : LiveStats :=
  let active := vusersPeak * rampRatio
  { vusers := fixed 1 active
    tps := fixed 1 (active * tpsPerVuser)
    errorRate := baseErrorRate
    p95Ms := fixed 1 (180 + 3 / 5 * progressPct) }

def LiveStats.ok (stats : LiveStats) : Bool :=
  decide (0 ≤ stats.vusers ∧ stats.vusers ≤ 1000000000) &&
    decide (0 ≤ stats.tps ∧ stats.tps ≤ 1000000000000) &&
    decide (0 ≤ stats.errorRate ∧ stats.errorRate ≤ 1) &&
    decide (0 ≤ stats.p95Ms ∧ stats.p95Ms ≤ 1000000000000)

/-- A status is built; its numbers are checked. -/
def engineRunStatus (status : EngineRunStatus) : Except String EngineRunStatus :=
  if decide (0 ≤ status.progressPct ∧ status.progressPct ≤ 100) &&
      (status.liveStats.map LiveStats.ok).getD true then .ok status
  else .error "invalid engine run status"

/-- The progress of a run, in percent. -/
def progressAt (startedAt durationS : ℚ) (now : Instant) : ℚ :=
  if durationS ≤ 0 then 100
  else min 100 (max 0 (now.seconds - startedAt) / durationS * 100)

def start : Except String Unit :=
  (parseExtras handle now).map fun _ => ()

def abortedStatus : Except String EngineRunStatus := do
  let progress ← boundedFloat (.text ((handle.extras.get? "aborted_progress_pct").getD "0"))
    "handle aborted_progress_pct" 0 100 true
  engineRunStatus ⟨.aborted, progress, none, "simulated run aborted"⟩

def runningStatus (vusers : Int) (pct : ℚ) :
    Except String EngineRunStatus := do
  let ratio ← rampRatio handle pct
  engineRunStatus ⟨.running, fixed 1 pct, some (liveStatsAt pct vusers ratio),
    "simulated load at " ++ String.ofList (formatF 0 pct) ++ "%"⟩

def clockStatus (parsed : Parsed) (pct : ℚ) :
    Except String EngineRunStatus :=
  match parsed.failAtPct.filter (fun failAtPct => failAtPct ≤ pct) with
  | some failAtPct =>
    engineRunStatus ⟨.failed, fixed 1 failAtPct, none,
      "injected failure at " ++ general failAtPct ++ "% (fail_at_pct option)"⟩
  | none =>
    if 100 ≤ pct then engineRunStatus ⟨.completed, 100, none, "simulated run complete"⟩
    else runningStatus handle parsed.vusers pct

def getStatus (later : Instant) : Except String EngineRunStatus := do
  let parsed ← parseExtras handle now
  if handle.extras.get? "aborted" = some "true" then abortedStatus handle
  else clockStatus handle parsed (progressAt parsed.startedAt parsed.durationS later)

def abortedHandle (progress : ℚ) : EngineHandle :=
  { handle with
    extras := ((handle.extras.set "aborted" "true").set "aborted_progress_pct"
      (String.ofList (formatF 1 progress))).set "abort_reason_recorded" "true" }

def abort (later : Instant) : Except String EngineHandle := do
  let _ ← runIdOf handle
  let parsed ← parseExtras handle now
  pure (abortedHandle handle (progressAt parsed.startedAt parsed.durationS later))

structure TestResultSummary where
  passed : Bool
  kpis : List (String × ℚ)
  slaBreaches : List String
  notes : String

/-- A summary is built; its numbers are checked. -/
def testResultSummary (summary : TestResultSummary) : Except String TestResultSummary :=
  if summary.kpis.all (fun kpi => decide (|kpi.2| ≤ 1000000000000)) then .ok summary
  else .error "invalid test result summary"

def floatExtra (key : String) : Except String ℚ :=
  match ((handle.extras.get? key).map strip).bind floatText with
  | some (.finite q) => .ok q
  | _ => .error "could not convert string to float"

/-- The average number of users, for a linear ramp. -/
def averageVusers (vusers : Int) (peakVusers : ℚ) : Except String ℚ :=
  if handle.extras.has "ramp_s" then do
    let rampS ← floatExtra handle "ramp_s"
    let requestedDuration ← floatExtra handle "workload_duration_s"
    pure (if rampS ≤ requestedDuration then vusers * (1 - rampS / requestedDuration / 2)
      else peakVusers / 2)
  else pure peakVusers

def kpisOf (averageVusers peakVusers : ℚ) : List (String × ℚ) :=
  [("tps_avg", fixed 1 (averageVusers * tpsPerVuser)), ("p95_ms", 212),
    ("error_rate", baseErrorRate), ("vusers_peak", peakVusers)]

def meets (metric : String) (kpi threshold : ℚ) : Bool :=
  if metric = "tps_avg" then decide (threshold ≤ kpi) else decide (kpi ≤ threshold)

/-- The breach of a threshold, where it is not met. -/
def breachOf (kpis : List (String × ℚ)) (sla : String × ℚ) : Except String (Option String) :=
  match kpis.lookup sla.1 with
  | none => .error sla.1
  | some kpi =>
    .ok (if meets sla.1 kpi sla.2 then none
      else some (sla.1 ++ " " ++ general kpi ++ " did not meet "
        ++ (if sla.1 = "tps_avg" then "minimum" else "maximum") ++ " " ++ general sla.2))

/-- The thresholds a handle carries; handles of old carry none. -/
def slasOf : Except String (List (String × ℚ)) :=
  match handle.extras.get? "slas" with
  | none => .ok []
  | some raw =>
    match env.loads raw with
    | none => .error "invalid load test spec"
    | some slas => validatedSlas slas

/-- The summary of a run without an injected failure. -/
def judgedSummary (kpis : List (String × ℚ)) :
    Except String TestResultSummary := do
  let slas ← slasOf env handle
  let breaches ← slas.mapM (breachOf kpis)
  testResultSummary ⟨(breaches.filterMap id).isEmpty, kpis, breaches.filterMap id,
    "simulated run; KPIs are synthetic"⟩

def fetchSummary :
    Except String TestResultSummary := do
  let parsed ← parseExtras handle now
  let ratio ← rampRatio handle 100
  let peakVusers : ℚ := parsed.vusers * ratio
  let average ← averageVusers handle parsed.vusers peakVusers
  let kpis := kpisOf average peakVusers
  match parsed.failAtPct with
  | some failAtPct =>
    testResultSummary ⟨false, kpis, ["run failed before completion (injected failure)"],
      "failure injected at " ++ general failAtPct ++ "%"⟩
  | none => judgedSummary env handle kpis

inductive Call
  | start
  | getStatus
  | abort (reason : String)
  | fetchSummary

inductive Answer
  | started
  | status (status : EngineRunStatus)
  | aborted
  | summary (summary : TestResultSummary)

/-- A call, and the two readings of the clock it takes. -/
structure TimedCall where
  call : Call
  now : Instant
  later : Instant
  now_le : now.seconds ≤ later.seconds

/-- A call on a handle: what it returns, and the handle after it. -/
def perform (timed : TimedCall) :
    Except String (Answer × EngineHandle) :=
  match timed.call with
  | .start => (start handle timed.now).map fun _ => (.started, handle)
  | .getStatus => (getStatus handle timed.now timed.later).map fun s => (.status s, handle)
  | .abort _ => (abort handle timed.now timed.later).map fun after => (.aborted, after)
  | .fetchSummary => (fetchSummary env handle timed.now).map fun s => (.summary s, handle)

/-- What each call of a sequence returned. A call that fails leaves the handle as it was. -/
def runCalls (env : SimEnv) (handle : EngineHandle) : List TimedCall → List (Except String Answer)
  | [] => []
  | timed :: rest =>
    match perform env handle timed with
    | .ok (answer, after) => .ok answer :: runCalls env after rest
    | .error message => .error message :: runCalls env handle rest

end Apex.Adapters.SimEngine
