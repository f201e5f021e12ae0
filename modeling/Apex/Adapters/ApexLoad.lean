import Apex.Core.Check
import Apex.Core.Decimal
import Apex.Core.Text

/-!
# APEX Load Requests

The adapter asks the provider for a load test: its duration, and a group of virtual users
for each script. Durations go out as texts of another language's format and come back as
texts, which are read and compared with the approved workload before anything is started.
All numbers are exact here.

## Main definitions

* `ExactJson`: JSON values whose numbers are exact.
* `parseGoDurationS`, `formatGoDuration`: Durations.
* `testRequestBody`: The request.
* `requireApprovedTest`: The comparison.
-/

namespace Apex.Adapters.ApexLoad

inductive ExactJson where
  | null
  | bool (b : Bool)
  | int (n : Int)
  | float (q : ℚ)
  | str (s : String)
  | list (xs : List ExactJson)
  | dict (items : List (String × ExactJson))

abbrev Items := List (String × ExactJson)

def Items.get (items : Items) (key : String) : ExactJson := (items.lookup key).getD .null

namespace ExactJson

def truthy : ExactJson → Bool
  | .null => false
  | .bool b => b
  | .int n => n != 0
  | .float q => q != 0
  | .str s => s != ""
  | .list xs => !xs.isEmpty
  | .dict items => !items.isEmpty

def orElse (value default : ExactJson) : ExactJson := if value.truthy then value else default

def number? : ExactJson → Option ℚ
  | .int n => some n
  | .float q => some q
  | _ => none

def isText (text : String) : ExactJson → Bool
  | .str s => s == text
  | _ => false

/-- `value in (None, False)`. -/
def noneOrFalse : ExactJson → Bool
  | .null => true
  | .bool b => !b
  | .int n => n == 0
  | .float q => q == 0
  | _ => false

end ExactJson

/-- The first of ten decimal digits, for each script that has them. -/
def decimalZeros : List Nat :=
  [0x30, 0x660, 0x6F0, 0x7C0, 0x966, 0x9E6, 0xA66, 0xAE6, 0xB66, 0xBE6, 0xC66, 0xCE6, 0xD66, 0xDE6,
    0xE50, 0xED0, 0xF20, 0x1040, 0x1090, 0x17E0, 0x1810, 0x1946, 0x19D0, 0x1A80, 0x1A90, 0x1B50,
    0x1BB0, 0x1C40, 0x1C50, 0xA620, 0xA8D0, 0xA900, 0xA9D0, 0xA9F0, 0xAA50, 0xABF0, 0xFF10, 0x104A0,
    0x10D30, 0x11066, 0x110F0, 0x11136, 0x111D0, 0x112F0, 0x11450, 0x114D0, 0x11650, 0x116C0,
    0x11730, 0x118E0, 0x11950, 0x11C50, 0x11D50, 0x11DA0, 0x11F50, 0x16A60, 0x16AC0, 0x16B50,
    0x1D7CE, 0x1D7D8, 0x1D7E2, 0x1D7EC, 0x1D7F6, 0x1E140, 0x1E2F0, 0x1E4F0, 0x1E950, 0x1FBF0]

/-- The value of a character that `\d` matches. -/
def decimalDigit? (c : Char) : Option Nat :=
  (decimalZeros.find? (fun first => first ≤ c.toNat && c.toNat < first + 10)).map (c.toNat - ·)

/-- `_GO_UNIT_S`, in the order in which the token's pattern tries the units. -/
def goUnitS : List (List Char × ℚ) :=
  [(['n', 's'], 1 / 1000000000), (['u', 's'], 1 / 1000000), (['µ', 's'], 1 / 1000000),
    (['m', 's'], 1 / 1000), (['s'], 1), (['m'], 60), (['h'], 3600)]

def maxProviderDurationS : ℚ := 366 * 24 * 60 * 60

/-- `_GO_DURATION_TOKEN` at the beginning of a text: its seconds and what follows it. The
    pattern cannot give back digits, since no unit begins with a digit or a point. -/
def goDurationToken (cs : List Char) : Option (ℚ × List Char) :=
  match Decimal.numeral? decimalDigit? cs with
  | none => none
  | some (whole, part, rest) =>
    (goUnitS.find? (fun unit => unit.1.isPrefixOf rest)).map fun unit =>
      (Decimal.numeralValue whole part * unit.2, rest.drop unit.1.length)

/-- `finditer`: the seconds and the characters of the tokens in a text. -/
def goDurationTokens : Nat → List Char → List (ℚ × List Char)
  | 0, _ => []
  | _ + 1, [] => []
  | fuel + 1, c :: cs =>
    match goDurationToken (c :: cs) with
    | some (seconds, rest) =>
      (seconds, (c :: cs).take ((c :: cs).length - rest.length)) :: goDurationTokens fuel rest
    | none => goDurationTokens fuel cs

def parseGoDurationS : ExactJson → Option ℚ
  | .str value =>
    if 128 < value.length then none
    else
      let text := (strip value).toList
      let tokens := goDurationTokens text.length text
      if tokens = [] ∨ tokens.flatMap Prod.snd ≠ text then none
      else
        let duration := (tokens.map Prod.fst).sum
        if 0 ≤ duration ∧ duration ≤ maxProviderDurationS then some duration else none
  | _ => none

def formatGoDuration (seconds : ℚ) : Except String String :=
  if 0 ≤ seconds ∧ seconds ≤ maxProviderDurationS then
    .ok (String.ofList (Decimal.formatG 6 seconds ++ ['s']))
  else .error "duration seconds must be a finite non-negative number"

/-- The fields of a valid specification that a request reads. -/
structure LoadTestSpec where
  vusers : Int
  rampS : ℚ
  durationS : ℚ
  slas : Dict ℚ
  vusers_bounds : 1 ≤ vusers ∧ vusers ≤ 10000
  rampS_bounds : 0 ≤ rampS ∧ rampS ≤ 86400
  durationS_bounds : 0 < durationS ∧ durationS ≤ 86400
  slas_length : slas.length ≤ 32
  slas_names : ∀ name ∈ slas.keys, strip name ≠ "" ∧ name.length ≤ 64 ∧ hasNul name = false
  slas_values : ∀ name value, slas.get? name = some value → 0 ≤ value ∧ value ≤ 1000000000000
  error_rate : ∀ value, slas.get? "error_rate" = some value → value ≤ 1

def goalConfigFromSlas (slas : Dict ℚ) : List (String × ℚ) :=
  ((slas.get? "tps_avg").map fun x => ("target_average_tps", x)).toList
    ++ ((slas.get? "p95_ms").map fun x => ("p95_latency_ms", x)).toList
    ++ ((slas.get? "error_rate").map fun x => ("max_error_pct", x * 100)).toList

/-- What `_approved_workload` returns. -/
structure ApprovedWorkload where
  vusers : Int
  rampS : ℚ
  durationS : ℚ
  goalConfig : List (String × ℚ)

def approvedWorkload (spec : LoadTestSpec) : ApprovedWorkload where
  vusers := spec.vusers
  rampS := spec.rampS
  durationS := spec.durationS
  goalConfig := goalConfigFromSlas spec.slas

def goalJson (goals : List (String × ℚ)) : ExactJson :=
  .dict (goals.map fun goal => (goal.1, .float goal.2))

structure Group where
  name : String
  scriptId : String
  vusers : Int
  rampUp : String

def Group.json (group : Group) : ExactJson :=
  .dict [("name", .str group.name), ("script_id", .str group.scriptId),
    ("vusers", .int group.vusers), ("ramp_up", .str group.rampUp)]

structure RequestBody where
  name : String
  duration : String
  groups : List Group
  goalConfig : List (String × ℚ)

def RequestBody.items (body : RequestBody) : Items :=
  [("name", .str body.name), ("duration", .str body.duration),
    ("groups", .list (body.groups.map Group.json))]
    ++ (if body.goalConfig.isEmpty then [] else [("goal_config", goalJson body.goalConfig)])

/-- The list that `_split_vusers` returns. -/
def evenSplit (total : Int) (groupCount : Nat) : List Int :=
  (List.range groupCount).map fun index : Nat =>
    total / groupCount + if (index : Int) < total % groupCount then 1 else 0

def splitVusers (total : Int) (groupCount : Nat) : Except String (List Int) :=
  if groupCount < 1 then .error "APEX Load requires at least one script group"
  else if total < groupCount then
    .error (s!"vusers ({total}) must be >= script group count ({groupCount}); "
      ++ "refusing to amplify the requested load")
  else
    .ok (evenSplit total groupCount)

def testRequestBody (name : String) (spec : LoadTestSpec) (scriptIds : List String) :
    Except String RequestBody := do
  let ramp ← formatGoDuration spec.rampS
  let split ← splitVusers spec.vusers scriptIds.length
  let groups := (scriptIds.zip split).zipIdx.map fun entry =>
    { name := s!"group-{entry.2 + 1}", scriptId := entry.1.1, vusers := entry.1.2, rampUp := ramp }
  let duration ← formatGoDuration spec.durationS
  pure { name, duration, groups, goalConfig := goalConfigFromSlas spec.slas }

inductive PathStep where
  | key (name : String)
  | index (i : Nat)
  deriving DecidableEq

/-- `path[-2:] == ("think_time", "mean_ms")`. -/
def isMeanThinkTime (path : List PathStep) : Bool :=
  path.drop (path.length - 2) == [.key "think_time", .key "mean_ms"]

mutual

def emptySerializedField : ExactJson → List PathStep → Bool
  | .null, _ => true
  | .str s, _ => s == ""
  | .list xs, _ => xs.isEmpty
  | .dict items, path => emptySerializedItems items path
  | .int n, path => isMeanThinkTime path && n == 0
  | .float q, path => isMeanThinkTime path && q == 0
  | .bool _, _ => false

def emptySerializedItems : List (String × ExactJson) → List PathStep → Bool
  | [], _ => true
  | (k, v) :: items, path =>
    emptySerializedField v (path ++ [.key k]) && emptySerializedItems items path

end

mutual

def approvedContentMatches : ExactJson → ExactJson → List PathStep → Bool
  | .dict expected, .dict actual, path =>
    matchesItems expected actual path && actual.all fun item =>
      expected.any (·.1 == item.1) || emptySerializedField item.2 (path ++ [.key item.1])
  | .list expected, .list actual, path =>
    expected.length == actual.length && matchesList expected actual 0 path
  | .int n, actual, _ => actual.number? == some (n : ℚ)
  | .float q, actual, _ => actual.number? == some q
  | .str s, .str t, _ => s == t
  | .bool b, .bool c, _ => b == c
  | .null, .null, _ => true
  | _, _, _ => false

def matchesItems : List (String × ExactJson) → List (String × ExactJson) → List PathStep → Bool
  | [], _, _ => true
  | (k, v) :: expected, actual, path =>
    (match actual.lookup k with
      | some w => approvedContentMatches v w (path ++ [.key k])
      | none => false) && matchesItems expected actual path

def matchesList : List ExactJson → List ExactJson → Nat → List PathStep → Bool
  | v :: expected, w :: actual, i, path =>
    approvedContentMatches v w (path ++ [.index i]) && matchesList expected actual (i + 1) path
  | _, _, _, _ => true

end

/-- What may not be set on a test or on its group. -/
def runtimeOverrides : List String :=
  ["runtime_settings", "stages", "iterations", "traffic_profile", "data_pools", "assignment",
    "scheduled_start_at", "timeslot_id"]

/-- The duration of a field that may be missing. -/
def optionalDuration (items : Items) (key : String) : Option ℚ :=
  parseGoDurationS ((items.get key).orElse (.str "0s"))

/-- Whether the script, the load or the goals differ. -/
def workloadDiffers (test group : Items) (scriptId : String) (workload : ApprovedWorkload) : Bool :=
  !(group.get "script_id").isText scriptId
    || !(match group.get "vusers" with | .int n => n == workload.vusers | _ => false)
    || parseGoDurationS (test.get "duration") != some workload.durationS
    || optionalDuration group "ramp_up" != some workload.rampS
    || !approvedContentMatches (goalJson workload.goalConfig)
        ((test.get "goal_config").orElse (.dict [])) []
    || !(match test.get "termination_mode" with
        | .null => true | v => v.isText "" || v.isText "duration")
    || !(match test.get "scenario_mode" with
        | .null => true | v => v.isText "" || v.isText "vuser_driven")

/-- Whether a test or its group has a setting of its own. -/
def overridesRuntime (items : Items) : Bool :=
  runtimeOverrides.any fun key => !emptySerializedField (items.get key) []

def launchDiffers (test : Items) : Bool :=
  optionalDuration test "start_delay" != some 0
    || !(test.get "script_shakeout").noneOrFalse
    || !(test.get "resource_baseline").noneOrFalse

/-- Whether a group starts or ends at another time. -/
def timingDiffers (group : Items) (workload : ApprovedWorkload) : Bool :=
  (["start_offset", "ramp_down"].any fun key => optionalDuration group key != some 0)
    || ((group.get "target_duration").truthy
      && parseGoDurationS (group.get "target_duration") != some workload.durationS)

def requireApprovedTest (test : Items) (scriptId : String) (workload : ApprovedWorkload) :
    Except String Unit :=
  match test.get "groups" with
  | .list [.dict group] => do
      raiseIf (workloadDiffers test group scriptId workload)
        "Provider execution no longer matches its approved workload"
      raiseIf (overridesRuntime test || overridesRuntime group)
        "Provider execution contains unapproved runtime overrides"
      raiseIf (launchDiffers test) "Provider execution contains unapproved launch settings"
      raiseIf (timingDiffers group workload)
        "Provider execution timing differs from its approved workload"
  | _ => .error "Approved execution requires exactly one verified script group"

end Apex.Adapters.ApexLoad
