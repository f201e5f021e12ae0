import Apex.Domain.Pipeline
import Apex.Domain.TestScope

/-!
# Validating A Run Configuration

A configuration arrives as a document and is validated field by field: no field but
the known ones, a default for every missing one, then checks across the fields. What
was validated is dumped again, so a snapshot always holds every field.

The scope fields are validated here as they are in the source: a test scope decides
the project, the app and the environment of a run. What the annotations of the other
fields accept, and the checks across those, are parameters.

## Main definitions

* `modelFields`: The fields with their defaults.
* `configurableSnapshot`: A document, validated and dumped.

## Theorems

* `snapshot_keys`: A snapshot holds exactly the fields.
-/

namespace Apex.Graphs

open List Option
open Auth Domain

/-- The double `5.0`. -/
def pollIntervalDefault : PyFloat := ⟨0x4014000000000000#64⟩

/-- The double `4 * 3600.0`. -/
def pollTimeoutDefault : PyFloat := ⟨0x40CC200000000000#64⟩

/-- `PipelineConfigurable.model_fields`, with the dump of each default. -/
def modelFields : List (String × Json) := [ ("test_scope", .null), ("test_scope_snapshot", .null),
  ("assistant_id", .str "pipeline"),
  ("project_id", .null),
  ("app_id", .null),
  ("environment_id", .null),
  ("environment_target", .null),
  ("environment_target_version", .null),
  ("cycle_dispatch_id", .null),
  ("engine", .str "sim"),
  ("connections", .dict []),
  ("phases", .null),
  ("rerun_phases", .null),
  ("phase_execution", .null),
  ("analysis", .null),
  ("start_phase", .null),
  ("stop_after", .null),
  ("gates", .dict []),
  ("prompt_overrides", .dict []),
  ("prompt_selections", .null),
  ("prompt_manifest", .null),
  ("aifx_snapshot", .null),
  ("pre_execution_context", .list []),
  ("model_by_phase", .dict []),
  ("load_test", .dict []),
  ("agent_backend", .str "stub"),
  ("limits", .dict [ ("max_revise_loops", .int 3), ("max_dialogue_turns", .int 20),
    ("poll_interval_s", .float pollIntervalDefault),
    ("poll_timeout_s", .float pollTimeoutDefault)])]

def fieldNames : List String := modelFields.map Prod.fst

def isField (key : String) : Bool := fieldNames.contains key

theorem nodup_fieldNames : fieldNames.Nodup := by decide

/-- What the fields that are not about scope accept, and the checks across fields before and
    after the one on the test scope. -/
structure Schema where
  field : String → Json → Option Json
  validatePhaseExecution : Dict Json → Bool
  validateRest : Dict Json → Bool

/-- `ScopeId`, dumped. -/
def scopeIdField : Json → Option Json
  | .str s => (scopeId? s).map fun id => .str id.value
  | _ => none

/-- `TestScopeV1`, dumped. -/
def testScopeField (v : Json) : Option Json :=
  (modelValidate v).map fun scope =>
    .ofDict (scopeDict scope.participants scope.primaryParticipantId
      scope.trafficEntryParticipantId)

variable (schema : Schema) (values : Dict Json)

/-- What a field validates to. A field whose default is `None` also accepts `None`. -/
def validateField (field : String × Json) (v : Json) : Option Json :=
  if field.2 = .null ∧ v = .null then some .null
  else if field.1 = "project_id" ∨ field.1 = "app_id" then scopeIdField v
  else if field.1 = "test_scope" then testScopeField v
  else if field.1 = "test_scope_snapshot" then v.dict?.map .ofDict
  else schema.field field.1 v

/-- What a document has in a field, or the default. -/
def fieldValue (config : Dict Json) (field : String × Json) : Option Json :=
  match config.get? field.1 with
  | none => some field.2
  | some v => validateField schema field v

def fieldsDict (value : String × Json → Json) : Dict Json where
  items := modelFields.map fun field => (field.1, value field)
  nodup := by
    rw [List.map_map]
    exact nodup_fieldNames

def snapshotScope (snapshot : Dict Json) : Option TestScopeV1 :=
  match (snapshot.get? "participants").getD (.list []) with
  | .list values => do
      let participants ← values.mapM fun v => v.dict?.map fun item => Json.dict
        (["id", "project_id", "application_id", "environment_id", "layer"].map fun key =>
          (key, item.value key))
      modelValidate (.dict [ ("schema_version", snapshot.value "schema_version"),
        ("primary_participant_id", snapshot.value "primary_participant_id"),
        ("traffic_entry_participant_id", snapshot.value "traffic_entry_participant_id"),
        ("participants", .list participants)])
  | _ => none

/-- A snapshot, if there is one, is of the scope. -/
def snapshotFits (snapshot : Json) (scope : TestScopeV1) : Bool :=
  match snapshot with
  | .null => true
  | v => (v.dict?.bind snapshotScope).any fun resolved =>
    resolved.primaryParticipantId == scope.primaryParticipantId
      && resolved.trafficEntryParticipantId == scope.trafficEntryParticipantId
      && resolved.participants.all scope.participants.contains
      && scope.participants.all resolved.participants.contains

/-- `validate_test_scope`: the scope decides the project, the app and the environment. -/
def validateTestScope : Option (Dict Json) :=
  match values.value "test_scope" with
  | .null => some values
  | v => do
      let scope ← modelValidate v
      let project := Json.str scope.primary.projectId.value
      let app := Json.str scope.primary.applicationId.value
      if snapshotFits (values.value "test_scope_snapshot") scope
          && (values.value "project_id" == .null || values.value "project_id" == project)
          && (values.value "app_id" == .null || values.value "app_id" == app) then
        some (((values.set "project_id" project).set "app_id" app).set "environment_id"
          ((scope.trafficEntry.map fun entry => Json.str entry.environmentId.value).getD .null))
      else none

/-- `PipelineConfigurable.model_validate(config).snapshot()`. -/
def configurableSnapshot (config : Dict Json) : Option (Dict Json) :=
  if config.keys.all isField
      && modelFields.all fun field => (fieldValue schema config field).isSome then
    let values := fieldsDict fun field => (fieldValue schema config field).getD .null
    if schema.validatePhaseExecution values then
      (validateTestScope values).filter schema.validateRest
    else none
  else none

/-- The fields of a document that the configuration knows. -/
def applicationConfig (config : Dict Json) : Dict Json := config.filterKeys isField

def phasePosition (v : Json) (default : Nat) : Nat :=
  match v with
  | .str name => phaseNames.idxOf name
  | _ => default

/-- `planned_phases`, of a snapshot. -/
def plannedNames : List String :=
  match values.value "rerun_phases", values.value "phase_execution", values.value "phases" with
  | .list phases, _, _ => phaseNames.filter fun name => phases.contains (.str name)
  | _, .dict _, _ => phaseNames
  | _, _, .list requested => phaseNames.filter fun name => requested.contains (.str name)
  | _, _, _ =>
    let start := phasePosition (values.value "start_phase") 0
    let stop := phasePosition (values.value "stop_after") (phaseNames.length - 1)
    if stop < start then [] else (phaseNames.take (stop + 1)).drop start

/-- `executor`, of a snapshot. -/
def executorName (phase : String) : Json :=
  match (values.value "phase_execution").dict? with
  | none => .str "langgraph"
  | some execution => ((execution.value "owners").dict?.map (·.value phase)).getD .null

/-- Whether a configuration sends traffic: an agent executes, on an engine that is not the
    simulator. -/
def executesLive : Bool :=
  values.value "engine" != .str "sim" && (plannedNames values).contains "execution"
    && executorName values "execution" == .str "langgraph"

@[simp] theorem validateField_null (name : String) :
    validateField schema (name, .null) .null = some .null := if_pos ⟨rfl, rfl⟩

variable {v : Json} {schema : Schema} {field : String × Json} {key : String}
  {snapshot config : Dict Json}

theorem validateField_id {name : String} (hname : name = "project_id" ∨ name = "app_id")
    (hv : v ≠ .null) :
    validateField schema (name, .null) v = scopeIdField v :=
  (if_neg fun h => hv h.2).trans (if_pos hname)

theorem validateField_testScope (hv : v ≠ .null) :
    validateField schema ("test_scope", .null) v = testScopeField v :=
  (if_neg fun h => hv h.2).trans ((if_neg (by decide)).trans (if_pos rfl))

theorem get?_fieldsDict {value : String × Json → Json}
    (hfield : field ∈ modelFields) : (fieldsDict value).get? field.1 = some (value field) :=
  Dict.get?_of_mem (List.mem_map.mpr ⟨field, hfield, rfl⟩)

theorem keys_fieldsDict (value : String × Json → Json) : (fieldsDict value).keys = fieldNames := by
  rw [Dict.keys, fieldsDict, List.map_map]
  rfl

theorem isField_iff : isField key = true ↔ key ∈ fieldNames := by
  rw [isField, contains_iff_mem]

def scopeFields : List String := ["project_id", "app_id", "environment_id"]

theorem validateTestScope_cases {values : Dict Json}
    (h : validateTestScope values = some snapshot) :
    (values.value "test_scope" = .null ∧ snapshot = values) ∨
    ∃ scope, modelValidate (values.value "test_scope") = some scope ∧
      (values.value "project_id" = .null ∨
        values.value "project_id" = .str scope.primary.projectId.value) ∧
      (values.value "app_id" = .null ∨
        values.value "app_id" = .str scope.primary.applicationId.value) ∧
      snapshot = ((values.set "project_id" (.str scope.primary.projectId.value)).set "app_id"
          (.str scope.primary.applicationId.value)).set "environment_id"
        ((scope.trafficEntry.map fun entry => Json.str entry.environmentId.value).getD .null) := by
  simp only [validateTestScope] at h
  split at h
  · rename_i hnull
    exact .inl ⟨hnull, (some.inj h).symm⟩
  · rcases bind_eq_some_iff.mp h with ⟨scope, hscope, h⟩
    split at h
    · rename_i hfits
      simp only [Bool.and_eq_true, Bool.or_eq_true, beq_iff_eq] at hfits
      exact .inr ⟨scope, hscope, hfits.1.2, hfits.2, (some.inj h).symm⟩
    · exact absurd h.symm (some_ne_none snapshot)

theorem configurableSnapshot_values (h : configurableSnapshot schema config = some snapshot) :
    ∃ values : Dict Json, values.keys = fieldNames ∧
      (∀ field ∈ modelFields, ∃ v, fieldValue schema config field = some v ∧
        values.get? field.1 = some v) ∧
      validateTestScope values = some snapshot := by
  simp only [configurableSnapshot] at h
  split at h
  · rename_i hvalid
    rw [Bool.and_eq_true, List.all_eq_true, List.all_eq_true] at hvalid
    split at h
    · refine ⟨_, keys_fieldsDict _, fun field hfield => ?_, (filter_eq_some_iff.mp h).1⟩
      rcases isSome_iff_exists.mp (hvalid.2 field hfield) with ⟨v, hv⟩
      refine ⟨v, hv, ?_⟩
      rw [get?_fieldsDict hfield, hv]
      rfl
    · exact absurd h.symm (some_ne_none snapshot)
  · exact absurd h.symm (some_ne_none snapshot)

theorem keys_set_field {d : Dict Json} (hkeys : d.keys = fieldNames) (hkey : key ∈ fieldNames)
    (v : Json) : (d.set key v).keys = fieldNames := by
  cases hget : d.get? key with
  | none => exact absurd (hkeys ▸ hkey) (Dict.get?_eq_none_iff.mp hget)
  | some w => rw [Dict.keys_set_of_mem v hget, hkeys]

theorem scopeFields_fields (h : key ∈ scopeFields) : key ∈ fieldNames := by
  simp only [scopeFields, mem_cons, not_mem_nil, or_false] at h
  rcases h with rfl | rfl | rfl
  · decide
  · decide
  · decide

theorem snapshot_keys
    (h : configurableSnapshot schema config = some snapshot) : snapshot.keys = fieldNames := by
  rcases configurableSnapshot_values h with ⟨values, hkeys, _, hscope⟩
  rcases validateTestScope_cases hscope with ⟨_, rfl⟩ | ⟨scope, _, _, _, rfl⟩
  · exact hkeys
  · have hproject := keys_set_field hkeys (scopeFields_fields (by decide : "project_id" ∈ scopeFields))
      (.str scope.primary.projectId.value)
    have happ := keys_set_field hproject (scopeFields_fields (by decide : "app_id" ∈ scopeFields))
      (.str scope.primary.applicationId.value)
    exact keys_set_field happ (scopeFields_fields (by decide)) _

theorem isField_name (h : field ∈ modelFields) :
    isField field.1 = true := isField_iff.mpr (List.mem_map.mpr ⟨field, h, rfl⟩)

theorem get?_applicationConfig (h : isField key = true) :
    (applicationConfig config).get? key = config.get? key := by
  rw [applicationConfig, Dict.get?_filterKeys, if_pos h]

end Apex.Graphs
