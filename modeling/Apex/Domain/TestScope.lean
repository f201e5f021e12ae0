import Apex.Auth.Identity
import Mathlib.Data.List.Sort
import Mathlib.Data.String.Basic

/-!
# The Participants Of A Combined Test

A combined test runs through several applications at once. Each participant is one
application in one environment, at one layer. One of them is the primary one, and traffic
may enter at one of them.

A scope is a value that passed its validation, so the fields of the structure say what
the validation checks. It is stored as a document and validated again when it is read.

## Main definitions

* `TestParticipant`, `TestScopeV1`: The data.
* `participantDict`, `scopeDict`: The documents.
* `participant?`, `modelValidate`: The scope a document denotes.

## Theorems

* `participant?_dict`, `modelValidate_scopeDict`: A document denotes what it is of.
-/

namespace Apex.Domain

open List Option
open Auth

/-- A text that is accepted as it is: not empty, within a limit and without NUL. -/
structure BoundedId (limit : Nat) where
  value : String
  nonempty : 1 ≤ value.length
  bounded : value.length ≤ limit
  plain : hasNul value = false
  deriving DecidableEq

abbrev ResourceId := BoundedId 255

abbrev RecordId := BoundedId 32

def boundedId? (limit : Nat) (value : String) : Option (BoundedId limit) :=
  if h : 1 ≤ value.length ∧ value.length ≤ limit ∧ hasNul value = false then
    some ⟨value, h.1, h.2.1, h.2.2⟩
  else none

theorem boundedId?_value {limit : Nat} (id : BoundedId limit) :
    boundedId? limit id.value = some id := by
  rcases id with ⟨value, hnonempty, hbounded, hplain⟩
  simp only [boundedId?, hnonempty, hbounded, hplain, and_self, dite_true]

theorem BoundedId.value_injective {limit : Nat} :
    Function.Injective (BoundedId.value : BoundedId limit → String) := by
  rintro ⟨a, ha⟩ ⟨b, hb⟩ h
  cases h
  rfl

inductive Layer where
  | frontend
  | middle
  | backend
  deriving DecidableEq

def Layer.name : Layer → String
  | frontend => "frontend"
  | middle => "middle"
  | backend => "backend"

def layer? : String → Option Layer
  | "frontend" => some .frontend
  | "middle" => some .middle
  | "backend" => some .backend
  | _ => none

structure TestParticipant where
  id : ResourceId
  projectId : ScopeId
  applicationId : ScopeId
  environmentId : RecordId
  layer : Layer
  deriving DecidableEq

/-- What `validate_topology` and the bounds of the fields check. -/
structure Topology (participants : List TestParticipant) (primary : ResourceId)
    (entry : Option ResourceId) : Prop where
  nonempty : 1 ≤ participants.length
  few : participants.length ≤ 32
  ids : (participants.map TestParticipant.id).Nodup
  pairs : (participants.map fun p => (p.applicationId, p.environmentId)).Nodup
  frontend : participants.countP (fun p => p.layer == .frontend) ≤ 1
  backend : participants.countP (fun p => p.layer == .backend) = 1
  primary : primary ∈ participants.map TestParticipant.id
  entry : ∀ id, entry = some id → id ∈ participants.map TestParticipant.id

structure TestScopeV1 where
  participants : List TestParticipant
  primaryParticipantId : ResourceId
  trafficEntryParticipantId : Option ResourceId
  topology : Topology participants primaryParticipantId trafficEntryParticipantId

namespace TestScopeV1

theorem primary_found (scope : TestScopeV1) :
    (scope.participants.find? fun p => p.id == scope.primaryParticipantId).isSome = true := by
  rcases List.mem_map.mp scope.topology.primary with ⟨p, hp, hid⟩
  exact find?_isSome.mpr ⟨p, hp, beq_iff_eq.mpr hid⟩

def primary (scope : TestScopeV1) : TestParticipant :=
  (scope.participants.find? fun p => p.id == scope.primaryParticipantId).get scope.primary_found

def trafficEntry (scope : TestScopeV1) : Option TestParticipant :=
  scope.participants.find? fun p => some p.id == scope.trafficEntryParticipantId

theorem primary_mem (scope : TestScopeV1) : scope.primary ∈ scope.participants :=
  mem_of_find?_eq_some (some_get scope.primary_found).symm

end TestScopeV1

/-- `model_dump(mode="json")` of a participant. -/
def participantDict (p : TestParticipant) : Dict Json where
  items := [ ("id", .str p.id.value), ("project_id", .str p.projectId.value),
    ("application_id", .str p.applicationId.value),
    ("environment_id", .str p.environmentId.value),
    ("layer", .str p.layer.name)]
  nodup := by
    simp only [List.map_cons, List.map_nil]
    decide

/-- `model_dump(mode="json")` of a scope. -/
def scopeDict (participants : List TestParticipant) (primary : ResourceId)
    (entry : Option ResourceId) : Dict Json where
  items := [ ("schema_version", .int 1),
    ("participants", .list (participants.map fun p => .ofDict (participantDict p))),
    ("primary_participant_id", .str primary.value),
    ("traffic_entry_participant_id", (entry.map fun id => Json.str id.value).getD .null)]
  nodup := by
    simp only [List.map_cons, List.map_nil]
    decide

def textUnder (d : Dict Json) (key : String) : Option String :=
  match d.get? key with
  | some (.str s) => some s
  | _ => none

def forbidExtra (known : List String) (d : Dict Json) : Bool :=
  d.keys.all fun key => known.contains key

/-- `TestParticipant.model_validate`. -/
def participant? (v : Json) : Option TestParticipant := do
  let d ← v.dict?
  if !forbidExtra ["id", "project_id", "application_id", "environment_id", "layer"] d then none
  else
    pure {
      id := ← (← textUnder d "id") |> boundedId? 255
      projectId := ← (← textUnder d "project_id") |> scopeId?
      applicationId := ← (← textUnder d "application_id") |> scopeId?
      environmentId := ← (← textUnder d "environment_id") |> boundedId? 32
      layer := ← (← textUnder d "layer") |> layer? }

instance (participants : List TestParticipant) (primary : ResourceId)
    (entry : Option ResourceId) : Decidable (Topology participants primary entry) :=
  decidable_of_iff
    (1 ≤ participants.length ∧ participants.length ≤ 32
      ∧ (participants.map TestParticipant.id).Nodup
      ∧ (participants.map fun p => (p.applicationId, p.environmentId)).Nodup
      ∧ participants.countP (fun p => p.layer == .frontend) ≤ 1
      ∧ participants.countP (fun p => p.layer == .backend) = 1
      ∧ primary ∈ participants.map TestParticipant.id
      ∧ ∀ id ∈ entry, id ∈ participants.map TestParticipant.id)
    ⟨fun ⟨h₁, h₂, h₃, h₄, h₅, h₆, h₇, h₈⟩ =>
        ⟨h₁, h₂, h₃, h₄, h₅, h₆, h₇, fun id hid => h₈ id hid⟩,
      fun h => ⟨h.nonempty, h.few, h.ids, h.pairs, h.frontend, h.backend, h.primary, h.entry⟩⟩

/-- The entry under its key, which may be missing or `None`. -/
def entryField (d : Dict Json) : Option (Option ResourceId) :=
  match d.value "traffic_entry_participant_id" with
  | .null => some none
  | .str s => (boundedId? 255 s).map some
  | _ => none

/-- Whether the version, if there is one, is the known one. -/
def versionFits (d : Dict Json) : Bool :=
  match d.get? "schema_version" with
  | none => true
  | some (.int n) => n == 1
  | some _ => false

def modelValidate (v : Json) : Option TestScopeV1 := do
  let d ← v.dict?
  if !forbidExtra ["schema_version", "participants", "primary_participant_id",
      "traffic_entry_participant_id"] d || !versionFits d then none
  else
    match d.value "participants" with
    | .list values =>
      let participants ← values.mapM participant?
      let primary ← (← textUnder d "primary_participant_id") |> boundedId? 255
      let entry ← entryField d
      if h : Topology participants primary entry then pure ⟨participants, primary, entry, h⟩
      else none
    | _ => none

theorem layer?_name (layer : Layer) : layer? layer.name = some layer := by
  cases layer with
  | frontend => rfl
  | middle => rfl
  | backend => rfl

theorem participant?_dict (p : TestParticipant) :
    participant? (.ofDict (participantDict p)) = some p := by
  have hknown : forbidExtra ["id", "project_id", "application_id", "environment_id", "layer"]
      (participantDict p) = true := by
    simp only [forbidExtra, Dict.keys, participantDict, map_cons, map_nil]
    decide
  have hid : textUnder (participantDict p) "id" = some p.id.value := rfl
  have hproject : textUnder (participantDict p) "project_id" = some p.projectId.value := rfl
  have happlication : textUnder (participantDict p) "application_id" =
    some p.applicationId.value := rfl
  have henvironment : textUnder (participantDict p) "environment_id" =
    some p.environmentId.value := rfl
  have hlayer : textUnder (participantDict p) "layer" = some p.layer.name := rfl
  simp only [participant?, Json.dict?_ofDict, bind_eq_bind, bind_some, hknown, hid,
    hproject, happlication, henvironment, hlayer, boundedId?_value, scopeId?_value, layer?_name,
    Bool.not_true, Bool.false_eq_true, if_false, Option.pure_def]

theorem mapM_participant? : ∀ (participants : List TestParticipant),
    (participants.map fun p => Json.ofDict (participantDict p)).mapM participant? =
      some participants
  | [] => rfl
  | p :: ps => by
    rw [map_cons, mapM_cons, participant?_dict, mapM_participant? ps]
    rfl

theorem modelValidate_scopeDict {participants : List TestParticipant} {primary : ResourceId}
    {entry : Option ResourceId} (h : Topology participants primary entry) :
    modelValidate (.ofDict (scopeDict participants primary entry)) =
      some ⟨participants, primary, entry, h⟩ := by
  have hknown : forbidExtra ["schema_version", "participants", "primary_participant_id",
      "traffic_entry_participant_id"] (scopeDict participants primary entry) = true := by
    simp only [forbidExtra, Dict.keys, scopeDict, map_cons, map_nil]
    decide
  have hversion : versionFits (scopeDict participants primary entry) = true := rfl
  have hvalues : (scopeDict participants primary entry).value "participants" =
    .list (participants.map fun p => .ofDict (participantDict p)) := rfl
  have hprimary : textUnder (scopeDict participants primary entry) "primary_participant_id" =
    some primary.value := rfl
  have hentry : entryField (scopeDict participants primary entry) = some entry := by
    cases entry with
    | none => rfl
    | some id => exact congrArg (Option.map some) (boundedId?_value id)
  simp only [modelValidate, Json.dict?_ofDict, bind_eq_bind, bind_some, hknown,
    hversion, hvalues, hprimary, hentry, mapM_participant?, boundedId?_value, Bool.not_true,
    Bool.or_self, Bool.false_eq_true, if_false, dif_pos h, Option.pure_def]

end Apex.Domain
