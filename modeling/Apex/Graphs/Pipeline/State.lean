import Apex.Core.Walk
import Apex.Core.Window
import Apex.Domain.Diagnostics
import Apex.Domain.Pipeline

/-!
# Pipeline State

The reducers of the pipeline graph: how an update to `phase_results`,
`artifacts` or `dialogue` is merged into the channel a checkpoint holds. Each
reducer validates what it is given, since the inherited side may come from an
older or damaged checkpoint, and raises where it cannot.

Lists of records are de-duplicated on an `id`; a record without one is given
the digest of its contents. Lists of strings are de-duplicated on the string.
Both are cut to a recent window. A phase entry is merged field by field while
its attempt stays the same and replaced when the attempt advances by one.

An argument of a reducer is any JSON value. The result is typed: an entry is a
`PhaseEntry`, and a record is a `StableEntry`, which carries the proof that it
has a usable identifier. `toJson` turns a result back into what the next
superstep is given.

## Main definitions

* `validateReducerJson`: The bounds on any stored value.
* `validatePhaseEntry`: The bounds on a phase entry.
* `mergeListsById`, `mergeUnique`: De-duplicating concatenation.
* `mergePhaseResults`, `mergeArtifacts`, `mergeDialogue`: The reducers.
-/

namespace Apex.Graphs

open Domain

/-- What the reducers take from outside: the credential patterns, and the digest
    of a record without its `id`, serialized with sorted keys. -/
structure ReducerEnv where
  rules : CredentialRules
  digest : Dict Json → Digest

/-- An entry of `phase_results`. -/
abbrev PhaseEntry := Dict Json

def byIdFields : List String := ["approvals", "tool_calls"]

def plainListFields : List String := ["warnings", "errors", "artifact_ids"]

def listFields : List String := byIdFields ++ plainListFields

def maxDurableArtifacts : Nat := 256
def maxDurableDialogueEntries : Nat := 256
def maxDurablePhaseDiagnostics : Nat := 128
def maxDurableApprovals : Nat := 256
def maxReducerJsonNodes : Nat := 4096

/-- A list, or nothing for `None`. -/
def exactList (value : Json) (label : String) : Except String (List Json) :=
  match value with
  | .null => .ok []
  | .list xs => .ok xs
  | _ => .error s!"checkpointed {label} must be a list"

/-- The last `limit` values of a list. -/
def boundedExactList (value : Json) (label : String) (limit : Nat) :
    Except String (List Json) := do
  let raw ← exactList value label
  pure (if raw.length ≤ limit then raw else raw.rtake limit)

variable (env : ReducerEnv) (entry : PhaseEntry) (field : String)

def phaseListLimit : Nat :=
  if field = "tool_calls" then maxToolCallRecords
  else if field = "approvals" then maxDurableApprovals
  else if field = "warnings" ∨ field = "errors" then maxDurablePhaseDiagnostics
  else maxDurableArtifacts

/-- A field of an entry as the checks see it: a list field cut to its cap. -/
def scanField (value : Json) : Except String Json :=
  if field ∈ listFields then
    Json.list <$> boundedExactList value s!"phase {field}" (phaseListLimit field)
  else .ok value

/-- `entry["resolved_prompt"]["system_locked"]`, if there is such an object. -/
def systemLocked (entry : Dict Json) : Option Json :=
  (entry.value "resolved_prompt").dict?.map (fun prompt => prompt.value "system_locked")

/-- `bool(value)`. -/
def truthy : Json → Bool
  | .null => false
  | .bool b => b
  | .int n => n != 0
  | .float x => x.bits.extractLsb' 0 63 != 0
  | .str s => s != ""
  | .list xs => !xs.isEmpty
  | .dict items => !items.isEmpty

/-- Judge one value at its depth and name what is below it. The list fields of
    a phase entry are cut to their caps first. -/
def visitReducerJson (phaseEntry manifestPrompt : Bool) (depth : Nat) (current : Json) :
    Except String (List Json) :=
  if depth > 8 then .error "checkpointed reducer entry is too large"
  else
    match current with
    | .dict items =>
      if items.length > 128 then .error "checkpointed reducer entry is invalid"
      else if phaseEntry && depth == 0 then
        List.map Prod.snd <$> Dict.traverseItems scanField items
      else .ok (items.map Prod.snd)
    | .list xs =>
      if xs.length > 256 then .error "checkpointed reducer entry is too large" else .ok xs
    | .str s =>
      if s.length > (if manifestPrompt then 500000 else 50000) || hasNul s then
        .error "checkpointed reducer entry is invalid"
      else .ok []
    | .null => .ok []
    | .bool _ => .ok []
    | .int n =>
      if bitLength n > 256 then .error "checkpointed reducer integer is too large" else .ok []
    | .float x => if x.isFinite then .ok [] else .error "checkpointed reducer number is invalid"

/-- `_validate_reducer_json` of a value that is not a phase entry. -/
def validateReducerJson (value : Json) : Except String Unit :=
  walk "checkpointed reducer entry is too large" (visitReducerJson false false)
    maxReducerJsonNodes [(value, 0)]

/-- `_validate_phase_entry_json`. A manifest prompt is allowed longer texts. -/
def validatePhaseEntryJson : Except String Unit :=
  let manifestPrompt := systemLocked entry == some (.bool true)
  walk "checkpointed reducer entry is too large" (visitReducerJson true manifestPrompt)
    maxReducerJsonNodes [(Json.ofDict entry, 0)]

/-- Whether a value is a string of a given kind. -/
def isStrOf (p : String → Bool) : Json → Bool
  | .str s => p s
  | _ => false

def isAttempt : Json → Bool
  | .int n => 1 ≤ n && n ≤ 1000000
  | _ => false

def phaseScanLimits : ScanLimits :=
  if (systemLocked entry).any truthy then
    { plainScanLimits with
      maxNodes := maxReducerJsonNodes, maxStringChars := 500000, maxTotalChars := 1200000,
      maxNodes_pos := by decide, maxStringChars_pos := by decide, maxTotalChars_pos := by decide }
  else
    { plainScanLimits with
      maxNodes := maxReducerJsonNodes, maxTotalChars := 200000, maxNodes_pos := by decide,
      maxTotalChars_pos := by decide }

def validatePhaseEntry : Except String Unit := do
  validatePhaseEntryJson entry
  let phase := entry.value "phase"
  raiseIf (phase != .null && !isStrOf (· ∈ phaseNames) phase)
    "checkpointed phase entry has an invalid phase"
  let status := entry.value "status"
  raiseIf (status != .null && !isStrOf (· ∈ phaseStatusValues) status)
    "checkpointed phase entry has an invalid status"
  let attempt := entry.value "attempt"
  raiseIf (attempt != .null && !isAttempt attempt) "checkpointed phase entry has an invalid attempt"
  let scanEntry ← entry.traverse scanField
  raiseIf (containsCredentialMaterial env.rules (phaseScanLimits entry) (Json.ofDict scanEntry))
    "checkpointed phase entry contains credential material"

def validId (id : String) : Bool := 1 ≤ id.length && id.length ≤ 256 && !hasNul id

/-- A record whose `id` is a usable identifier. -/
structure StableEntry where
  entry : Dict Json
  id : String
  id_eq : entry.get? "id" = some (.str id)
  id_valid : validId id = true
  deriving DecidableEq

def StableEntry.toJson (s : StableEntry) : Json := Json.ofDict s.entry

/-- A record without its `id`. -/
def idlessEntry (entry : Dict Json) : Dict Json := entry.filterKeys (· != "id")

theorem validId_derivedId (d : Digest) : validId (derivedId d) = true := by
  rw [validId, length_derivedId, hasNul_derivedId]
  rfl

/-- A record without an `id`, identified by the digest of its contents. -/
def derivedEntry (entry : Dict Json) : StableEntry where
  entry := (idlessEntry entry).set "id" (.str (derivedId (env.digest (idlessEntry entry))))
  id := derivedId (env.digest (idlessEntry entry))
  id_eq := Dict.get?_set_self _ _ _
  id_valid := validId_derivedId _

def recordScanLimits : ScanLimits :=
  { plainScanLimits with
    maxNodes := 512, maxTotalChars := 200000, maxNodes_pos := by decide,
    maxTotalChars_pos := by decide }

/-- The limits a pair of lists of strings is scanned under. -/
def unionScanLimits : ScanLimits :=
  { plainScanLimits with maxNodes := 512, maxNodes_pos := by decide }

/-- An object with its identifier. A missing `id` and an explicit `None` are the
    same legacy form, and both get the derived one. -/
def identifiedEntry (entry : Dict Json) : Except String StableEntry :=
  match h : entry.get? "id" with
  | none => .ok (derivedEntry env entry)
  | some .null => .ok (derivedEntry env entry)
  | some (.str id) =>
    if hid : validId id = true then .ok ⟨entry, id, h, hid⟩
    else .error "checkpointed reducer entry id is invalid"
  | some _ => .error "checkpointed reducer entry id is invalid"

/-- `stable_entry`: a record, validated, with its identifier. -/
def stableEntry (raw : Json) : Except String StableEntry :=
  match raw.dict? with
  | none => .error "checkpointed reducer entry must be an object"
  | some entry => do
      validateReducerJson raw
      raiseIf (containsCredentialMaterial env.rules recordScanLimits raw)
        "checkpointed reducer entry contains credential material"
      identifiedEntry env entry

/-- Concatenate two lists of records, keeping the first with each identifier.
    The inherited side is validated as well. -/
def mergeListsById (current incoming : List Json) :
    Except String (List StableEntry) := do
  let current ← current.mapM (stableEntry env)
  let incoming ← incoming.mapM (stableEntry env)
  pure (appendNew StableEntry.id (appendNew StableEntry.id [] current) incoming)

/-- Concatenate two lists of strings, adding only those not yet there. -/
def mergeUnique (current incoming : List Json) : Except String (List Json) := do
  raiseIf (!(current ++ incoming).all (isStrOf (fun _ => true)))
    "checkpointed phase list values must be strings"
  raiseIf (containsCredentialMaterial env.rules unionScanLimits (.list (current ++ incoming)))
    "checkpointed phase list contains credential material"
  pure (appendNew (fun item => item) current incoming)

def capPlainPhaseList (values : List Json) : List Json :=
  values.rtake (if field = "warnings" ∨ field = "errors" then maxDurablePhaseDiagnostics
    else maxDurableArtifacts)

def byIdLimit : Nat :=
  if field = "tool_calls" then maxToolCallRecords else maxDurableApprovals

def plainLimit : Nat :=
  if field = "warnings" ∨ field = "errors" then maxDurablePhaseDiagnostics
  else maxDurableArtifacts

/-- A field of records that is taken over as it is, if present. -/
def boundedById :
    Option Json → Except String (Option Json)
  | none => .ok none
  | some value => do
      let values ← boundedExactList value s!"phase {field}" (byIdLimit field)
      let merged ← mergeListsById env [] values
      pure (some (.list (merged.map StableEntry.toJson)))

/-- A field of strings that is taken over as it is, if present. -/
def boundedPlain :
    Option Json → Except String (Option Json)
  | none => .ok none
  | some value => do
      let limit := plainLimit field
      let values ← boundedExactList value s!"phase {field}" limit
      raiseIf (!values.all (isStrOf (fun _ => true)))
        s!"checkpointed phase {field} values must be strings"
      raiseIf (containsCredentialMaterial env.rules
          { plainScanLimits with maxNodes := limit + 1, maxNodes_pos := Nat.succ_pos limit }
          (.list values))
        s!"checkpointed phase {field} contains credential material"
      pure (some (.list (capPlainPhaseList field values)))

/-- An entry that is taken over as it is: validated, with its lists cut to their
    caps and its records identified. -/
def boundedPhaseEntry : Except String PhaseEntry := do
  validatePhaseEntry env entry
  let bounded ← Dict.assignEach (boundedById env) byIdFields entry
  Dict.assignEach (boundedPlain env) plainListFields bounded

def mergedById (current incoming : PhaseEntry) (field : String) :
    Except String Json := do
  let limit := byIdLimit field
  let current ← boundedExactList (current.value field) s!"phase {field}" limit
  let incoming ← boundedExactList (incoming.value field) s!"phase {field}" limit
  let merged ← mergeListsById env current incoming
  pure (.list ((merged.rtake limit).map StableEntry.toJson))

def mergedPlain (current incoming : PhaseEntry) (field : String) :
    Except String Json := do
  let limit := plainLimit field
  let currentValues ← boundedExactList (current.value field) s!"phase {field}" limit
  let incomingValues ← boundedExactList (incoming.value field) s!"phase {field}" limit
  let merged ← mergeUnique env currentValues incomingValues
  pure (.list (capPlainPhaseList field merged))

/-- Whether an attempt is anything but the one after the recorded one. -/
def notMonotonic (currentAttempt incomingAttempt : Json) : Bool :=
  match currentAttempt, incomingAttempt with
  | .null, _ => false
  | .int n, .int m => m != n + 1
  | _, _ => true

/-- An entry merged with an update. The next attempt replaces the entry; within
    one attempt a scalar is overwritten, a list is extended and a terminal
    status stays. -/
def mergePhaseEntry (current incoming : PhaseEntry) :
    Except String PhaseEntry := do
  validatePhaseEntryJson current
  validatePhaseEntryJson incoming
  let currentAttempt := current.value "attempt"
  let incomingAttempt := incoming.value "attempt"
  raiseIf (currentAttempt != .null && !isAttempt currentAttempt)
    "checkpointed phase attempt is invalid"
  raiseIf (incomingAttempt != .null && !isAttempt incomingAttempt)
    "checkpointed phase attempt is invalid"
  if incomingAttempt ≠ currentAttempt then do
    raiseIf (notMonotonic currentAttempt incomingAttempt)
      "checkpointed phase attempt is not monotonic"
    boundedPhaseEntry env incoming
  else do
    let currentStatus := current.value "status"
    let incomingStatus := (incoming.get? "status").getD currentStatus
    raiseIf (isStrOf (· ∈ terminalPhaseStatusValues) currentStatus
        && incomingStatus != currentStatus)
      "checkpointed terminal phase status is immutable"
    let merged := current.update incoming
    let merged ← Dict.assignEach (fun field _ => some <$> mergedById env current incoming field)
      byIdFields merged
    let merged ← Dict.assignEach (fun field _ => some <$> mergedPlain env current incoming field)
      plainListFields merged
    validatePhaseEntry env merged
    pure merged

/-- The contents of the `phase_results` channel. -/
abbrev PhaseResults := Dict PhaseEntry

/-- The channel as the value the next superstep is given. -/
def PhaseResults.toJson (m : PhaseResults) : Json :=
  Json.ofDict (m.map (fun _ entry => Json.ofDict entry))

/-- An argument of `merge_phase_results`: an object, or nothing. -/
def phaseResultsArg (source : Json) : Except String (Option (Dict Json)) :=
  if source = .null then .ok none
  else
    match source.dict? with
    | none => .error "checkpointed phase results must be an object"
    | some d => .ok (some d)

/-- Whether the keys of an argument are phase names. -/
def phaseNamesOk : Option (Dict Json) → Bool
  | none => true
  | some source => source.length ≤ phaseNames.length && source.keys.all (· ∈ phaseNames)

/-- Whether an entry names another phase than the one it is stored under. -/
def boundElsewhere (phase : String) (entry : PhaseEntry) : Bool :=
  entry.value "phase" != .null && entry.value "phase" != .str phase

/-- One entry of an argument, validated on its own. -/
def validatedEntry (phase : String) (raw : Json) :
    Except String PhaseEntry :=
  match raw.dict? with
  | none => .error "checkpointed phase result is invalid"
  | some entry => do
      let bounded ← boundedPhaseEntry env entry
      raiseIf (boundElsewhere phase bounded) "checkpointed phase result is bound to another phase"
      pure bounded

/-- Every entry of an argument, validated on its own. -/
def validatedSource (source : Dict Json) : Except String PhaseResults :=
  source.traverse (validatedEntry env)

/-- One inherited entry, merged with the update of its phase if there is one. -/
def mergedInherited (safeRight : PhaseResults) (phase : String) (raw : Json) :
    Except String PhaseEntry :=
  match raw.dict? with
  | none => .error "checkpointed phase result is invalid"
  | some current => do
      raiseIf (boundElsewhere phase current) "checkpointed phase result is bound to another phase"
      match safeRight.get? phase with
      | none => boundedPhaseEntry env current
      | some incoming => mergePhaseEntry env current incoming

def mergePhaseResults (left right : Json) : Except String PhaseResults := do
  let left ← phaseResultsArg left
  let right ← phaseResultsArg right
  raiseIf (!phaseNamesOk left) "checkpointed phase name is invalid"
  raiseIf (!phaseNamesOk right) "checkpointed phase name is invalid"
  let safeRight ← validatedSource env (right.getD ∅)
  if (left.getD ∅).length = 0 then pure safeRight
  else if safeRight.length = 0 then validatedSource env (left.getD ∅)
  else do
    let merged ← (left.getD ∅).traverse (mergedInherited env safeRight)
    pure (merged.extend safeRight)

def appendUniqueById (left right : Json) :
    Except String (List StableEntry) := do
  let left ← boundedExactList left "state channel" maxDurableArtifacts
  let right ← boundedExactList right "state channel" maxDurableArtifacts
  mergeListsById env left right

/-- A list channel as the value the next superstep is given. -/
def channelJson (entries : List StableEntry) : Json := .list (entries.map StableEntry.toJson)

/-- `merge_artifacts`: a bounded recent window. -/
def mergeArtifacts (left right : Json) : Except String (List StableEntry) := do
  let merged ← appendUniqueById env left right
  pure (merged.rtake maxDurableArtifacts)

/-- The attempt a dialogue entry belongs to; `1` if it does not say. -/
def dialogueAttempt (s : StableEntry) : Except String Int :=
  match (s.entry.get? "attempt").getD (.int 1) with
  | .int n =>
    if 1 ≤ n ∧ n ≤ 1000000 then .ok n else .error "checkpointed dialogue attempt is invalid"
  | _ => .error "checkpointed dialogue attempt is invalid"

def dialoguePhase (s : StableEntry) : Except String String :=
  match s.entry.value "phase" with
  | .str phase => .ok phase
  | _ => .error "checkpointed dialogue phase is invalid"

/-- A dialogue entry with the phase and the attempt it belongs to. -/
def dialogueKey (s : StableEntry) : Except String (String × Int × StableEntry) := do
  let phase ← dialoguePhase s
  let attempt ← dialogueAttempt s
  pure (phase, attempt, s)

/-- `latest_by_phase`: the latest attempt that occurs for each phase. -/
def latestByPhase (keyed : List (String × Int × StableEntry)) : Dict Int :=
  keyed.foldl (fun latest e => latest.set e.1 (max ((latest.get? e.1).getD 1) e.2.1)) ∅

/-- `merge_dialogue`: each phase's latest attempt, and a bounded recent window. -/
def mergeDialogue (left right : Json) : Except String (List StableEntry) := do
  let merged ← appendUniqueById env left right
  let keyed ← merged.mapM dialogueKey
  let latest := latestByPhase keyed
  let current := keyed.filter (fun e => e.2.1 == (latest.get? e.1).getD 1)
  pure ((current.map (fun e => e.2.2)).rtake maxDurableDialogueEntries)

end Apex.Graphs
