import Apex.Auth.Runs
import Apex.Theory.Tenancy.Scopes

/-!
# One Tenant On All Surfaces

A run carries its tenant on four surfaces: the input, the configurable, the metadata and
the metadata of the configuration. The hook stamps all of them together, at most twice,
and everything it does between and after the stamps leaves the two keys alone.

The one exception is the pinned configuration, which writes the two keys again; the
validation of a configuration takes the tenant of its test scope, which is the one that
was stamped.

## Main definitions

* `Carries`: The surfaces of a run carry one tenant.
* `tenantFilter`: The filter of a tenant.

## Theorems

* `snapshot_tenant`: Pinning a configuration leaves the tenant.
* `settleRun_tenant`: The tenant of a run once it is settled.
-/

namespace Apex.Auth.Handlers

open List Option
open Domain Graphs

/-- The surfaces of a run carry one tenant, or none of them carries any. -/
def Carries (tenant : Option ScopeRef) (value : RunsCreate) : Prop :=
  ∀ surface ∈ value.surfaces, tenantOf surface = tenantJson tenant

variable {tenant : Option ScopeRef} {value value' : RunsCreate} {v : Json} {scope : TestScopeV1}
  {config : Dict Json} {schema : Schema} {trusted : Bool} {identity : ConsumerIdentity}
  {world : RunWorld} {ids : List String} {field graph : String} {condition : Option Condition}

theorem carries_iff :
    Carries tenant value ↔ tenantOf (value.input.getD ∅) = tenantJson tenant ∧
      tenantOf value.configurable = tenantJson tenant ∧
      tenantOf value.metadata = tenantJson tenant ∧
      tenantOf value.configMetadata = tenantJson tenant := by
  simp only [Carries, RunsCreate.surfaces, forall_mem_cons, not_mem_nil, false_implies,
    implies_true, and_true]

def stampTenant (tenant : ScopeRef) (value : RunsCreate) : RunsCreate :=
  stampRunScope tenant.projectId.value (tenant.appId.map ScopeId.value) value

theorem carries_stamp (tenant : ScopeRef) (value : RunsCreate) :
    Carries (some tenant) (stampTenant tenant value) := by
  rw [carries_iff]
  exact ⟨tenantOf_stamp _ _ _, tenantOf_stamp _ _ _, tenantOf_stamp _ _ _, tenantOf_stamp _ _ _⟩

def tenantCondition (tenant : ScopeRef) : Condition :=
  metadataFilter tenant.projectId.value (tenant.appId.map ScopeId.value)

theorem truthy_of_modelValidate (h : modelValidate v = some scope) :
    truthy v = true := by
  cases v with
  | dict items =>
    cases items with
    | nil => exact absurd h.symm (some_ne_none scope)
    | cons kv items => rfl
  | null => exact absurd h.symm (some_ne_none scope)
  | bool b => exact absurd h.symm (some_ne_none scope)
  | int n => exact absurd h.symm (some_ne_none scope)
  | float x => exact absurd h.symm (some_ne_none scope)
  | str s => exact absurd h.symm (some_ne_none scope)
  | list xs => exact absurd h.symm (some_ne_none scope)

theorem ne_null_of_modelValidate (h : modelValidate v = some scope) : v ≠ .null := by
  rintro rfl
  exact Bool.noConfusion (truthy_of_modelValidate h)

theorem truthy_of_field (hfield : fieldValue schema config ("test_scope", .null) = some v)
    (hscope : modelValidate v = some scope) : truthy (config.value "test_scope") = true := by
  have hnull := ne_null_of_modelValidate hscope
  rw [Dict.value]
  simp only [fieldValue] at hfield
  cases hget : config.get? "test_scope" with
  | none =>
    rw [hget] at hfield
    exact absurd (some.inj hfield).symm hnull
  | some w =>
    rw [hget] at hfield
    have hw : w ≠ .null := by
      rintro rfl
      exact hnull (some.inj hfield).symm
    simp only [validateField_testScope hw] at hfield
    rcases map_eq_some_iff.mp hfield with ⟨given, hgiven, _⟩
    exact truthy_of_modelValidate hgiven

theorem idField_value {name : String} (hname : name = "project_id" ∨ name = "app_id")
    {id : Option ScopeId} (hconfig : config.value name = appJson (id.map ScopeId.value))
    (hfield : fieldValue schema config (name, .null) = some v) :
    v = appJson (id.map ScopeId.value) := by
  simp only [fieldValue] at hfield
  rw [Dict.value] at hconfig
  cases hget : config.get? name with
  | none =>
    rw [hget] at hfield hconfig
    exact (some.inj hfield).symm.trans hconfig
  | some w =>
    rw [hget] at hfield hconfig
    cases id with
    | none =>
      have hw : w = .null := hconfig
      simp only [hw, validateField_null] at hfield
      exact (some.inj hfield).symm
    | some id =>
      have hw : w = .str id.value := hconfig
      have hne : Json.str id.value ≠ .null := fun h => Json.noConfusion h
      simp only [hw, validateField_id hname hne, scopeIdField, scopeId?_value, map_some] at hfield
      exact (some.inj hfield).symm

theorem tenantJson_eq (tenant : Option ScopeRef) :
    tenantJson tenant = (appJson ((tenant.map ScopeRef.projectId).map ScopeId.value),
      appJson ((tenant.bind ScopeRef.appId).map ScopeId.value)) := by
  cases tenant with
  | none => rfl
  | some tenant => rfl

theorem snapshot_tenant {snapshot : Dict Json}
    (h : configurableSnapshot schema (applicationConfig config) = some snapshot)
    (htenant : tenantOf config = tenantJson tenant)
    (hscope : truthy (config.value "test_scope") = true → (tenant.bind ScopeRef.appId).isSome) :
    tenantOf (config.update snapshot) = tenantJson tenant := by
  have hkey : ∀ key ∈ Graphs.scopeFields, (config.update snapshot).value key = snapshot.value key := by
    intro key hkey
    rw [Dict.value, Dict.get?_update]
    cases hget : snapshot.get? key with
    | none =>
      rw [Dict.get?_eq_none_iff, snapshot_keys h] at hget
      exact absurd (scopeFields_fields hkey) hget
    | some v => rw [Dict.value, hget, some_or]
  rcases configurableSnapshot_values h with ⟨values, _, hvalues, htest⟩
  rw [tenantJson_eq] at htenant ⊢
  have hconfig : ∀ name, isField name = true →
      (applicationConfig config).value name = config.value name := by
    intro name hname
    rw [Dict.value, Dict.value, get?_applicationConfig hname]
  have hid : ∀ name, (name = "project_id" ∨ name = "app_id") → ∀ id : Option ScopeId,
      config.value name = appJson (id.map ScopeId.value) →
      values.value name = appJson (id.map ScopeId.value) := by
    intro name hname id hvalue
    have hmem : (name, Json.null) ∈ modelFields := by
      rcases hname with rfl | rfl
      · simp only [modelFields, mem_cons, true_or, or_true]
      · simp only [modelFields, mem_cons, true_or, or_true]
    rcases hvalues _ hmem with ⟨v, hv, hget⟩
    rw [Dict.value, hget, getD_some]
    exact idField_value hname ((hconfig name (isField_name hmem)).trans hvalue) hv
  have hproject := hid _ (.inl rfl) _ (congrArg Prod.fst htenant)
  have happ := hid _ (.inr rfl) _ (congrArg Prod.snd htenant)
  rw [tenantOf, hkey _ (by decide), hkey _ (by decide)]
  rcases validateTestScope_cases htest with ⟨_, rfl⟩ | ⟨scope, hmodel, hp, ha, rfl⟩
  · rw [hproject, happ]
  · -- The tenant has an app, so it is the one of the test scope.
    rcases hvalues ("test_scope", .null) mem_cons_self with ⟨v, hv, hget⟩
    rw [Dict.value, hget, getD_some] at hmodel
    have hsome := hscope (by rw [← hconfig _ (by decide)]; exact truthy_of_field hv hmodel)
    rw [hproject] at hp
    rw [happ] at ha
    rw [value_set, value_set, value_set, value_set, value_set, value_set]
    cases tenant with
    | none => exact Bool.noConfusion hsome
    | some tenant =>
      rcases tenant with ⟨project, _ | app⟩
      · exact Bool.noConfusion hsome
      · have hpe := hp.resolve_left fun h => Json.noConfusion h
        have hae := ha.resolve_left fun h => Json.noConfusion h
        rw [hpe, hae]
        rfl

/-- Only the controls of a request differ: its payload and its arguments. -/
def Reworded (value value' : RunsCreate) : Prop :=
  ∃ payload arguments, value' = { value with payload := payload, arguments := arguments }

theorem Reworded.refl (value : RunsCreate) : Reworded value value :=
  ⟨value.payload, value.arguments, rfl⟩

theorem Reworded.trans {a b c : RunsCreate} (hab : Reworded a b) (hbc : Reworded b c) :
    Reworded a c := by
  rcases hab with ⟨p, q, rfl⟩
  rcases hbc with ⟨p', q', rfl⟩
  exact ⟨p', q', rfl⟩

theorem Reworded.surfaces (h : Reworded value value') :
    value'.surfaces = value.surfaces := by
  rcases h with ⟨p, q, rfl⟩
  rfl

theorem Reworded.configurable (h : Reworded value value') :
    value'.configurable = value.configurable := by
  rcases h with ⟨p, q, rfl⟩
  rfl

theorem reworded_durable (value : RunsCreate) : Reworded value (durable value) := ⟨_, _, rfl⟩

theorem checkDirect_reworded (h : checkDirect value = .ok value') :
    Reworded value value' := by
  rcases bind_ok.mp h with ⟨_, _, h⟩
  rcases bind_ok.mp h with ⟨_, _, h⟩
  rcases bind_ok.mp h with ⟨_, _, h⟩
  rcases bind_ok.mp h with ⟨_, _, h⟩
  rcases bind_ok.mp h with ⟨_, _, h⟩
  rcases bind_ok.mp h with ⟨_, _, h⟩
  rcases bind_ok.mp h with ⟨_, _, h⟩
  rcases bind_ok.mp h with ⟨_, _, h⟩
  rcases bind_ok.mp h with ⟨_, _, h⟩
  cases h
  exact ⟨_, _, rfl⟩

theorem ensureRunControls_reworded {validate : Bool}
    (h : ensureRunControls world identity trusted validate value = .ok value') :
    Reworded value value' := by
  rcases bind_ok.mp h with ⟨direct, hdirect, h⟩
  have hfirst : Reworded value direct := by
    cases trusted with
    | true =>
      cases hdirect
      exact .refl _
    | false => exact checkDirect_reworded hdirect
  rcases bind_ok.mp h with ⟨_, _, h⟩
  rcases bind_ok.mp h with ⟨_, _, h⟩
  rcases bind_ok.mp h with ⟨_, _, h⟩
  rcases bind_ok.mp h with ⟨_, _, h⟩
  rcases bind_ok.mp h with ⟨_, _, h⟩
  rcases bind_ok.mp h with ⟨_, _, h⟩
  rcases bind_ok.mp h with ⟨_, _, h⟩
  cases h
  refine hfirst.trans ?_
  split
  · exact reworded_durable direct
  · exact .refl _

theorem mapM_apply {α β : Type} {R : α → β → Prop} {xs : List α} {ys : List β}
    (h : Forall₂ R xs ys) {x : α} (hx : x ∈ xs) : ∃ y ∈ ys, R x y := by
  induction h with
  | nil => exact absurd hx not_mem_nil
  | cons hxy _ ih =>
    rcases mem_cons.mp hx with rfl | hx
    · exact ⟨_, mem_cons_self, hxy⟩
    · rcases ih hx with ⟨y, hy, hr⟩
      exact ⟨y, mem_cons_of_mem _ hy, hr⟩

theorem explicitIds_ok (h : explicitIds value field = .ok ids) :
    (∀ s ∈ ids, ∃ id : ScopeId, id.value = s) ∧
    (ids = [] → ∀ surface ∈ value.surfaces, surface.value field = .null) := by
  rcases bind_ok.mp h with ⟨found, hfound, h⟩
  cases h
  have hall := mapM_ok.mp hfound
  constructor
  · intro s hs
    rw [mem_eraseDups, mem_filterMap] at hs
    rcases hs with ⟨o, ho, hos⟩
    rcases mapM_mem hfound ho with ⟨surface, _, hsurface⟩
    exact projectId_id hsurface s hos
  · intro hnil surface hsurface
    rcases mapM_apply hall hsurface with ⟨o, ho, hok⟩
    rcases projectId_ok hok with ⟨hnull, _⟩ | ⟨sid, _, hsome⟩
    · exact hnull
    · have hmem : sid.value ∈ (found.filterMap id).eraseDups := by
        rw [mem_eraseDups, mem_filterMap]
        exact ⟨o, ho, hsome⟩
      rw [hnil] at hmem
      exact absurd hmem not_mem_nil

theorem soleId_ok {o : Option String} (h : soleId identity field ids = .ok o) :
    (o = none ∧ ids = []) ∨ ∃ s, o = some s ∧ ids = [s] := by
  simp only [soleId] at h
  split at h
  · cases h
    exact .inl ⟨rfl, rfl⟩
  · cases h
    exact .inr ⟨_, rfl, rfl⟩
  · cases h

theorem sole_id {o : Option String} (hids : explicitIds value field = .ok ids)
    (h : soleId identity field ids = .ok o) (s : String) (ho : o = some s) :
    ∃ id : ScopeId, id.value = s := by
  rcases soleId_ok h with ⟨hnone, _⟩ | ⟨t, ht, hone⟩
  · exact absurd (ho.symm.trans hnone) (some_ne_none s)
  · refine (explicitIds_ok hids).1 s ?_
    rw [hone, some.inj (ho.symm.trans ht)]
    exact mem_cons_self

theorem runProject_id {project app : Option String} {p : String}
    (hproject : ∀ s, project = some s → ∃ id : ScopeId, id.value = s)
    (h : runProject identity project app = .ok p) : ∃ id : ScopeId, id.value = p := by
  cases project with
  | some s =>
    rcases bind_ok.mp h with ⟨_, _, h⟩
    cases h
    exact hproject _ rfl
  | none =>
    simp only [runProject] at h
    split at h
    · rename_i hsole
      cases h
      exact soleProject_mem hsole
    · cases h

theorem runScope_tenant {scope : Option (String × Option String)}
    (h : runScope identity value = .ok scope) :
    (∃ tenant : ScopeRef, covers identity tenant = true ∧
      scope = some (tenant.projectId.value, tenant.appId.map ScopeId.value)) ∨
    (identity.isUnscoped = true ∧ scope = none ∧ Carries none value) := by
  rcases bind_ok.mp h with ⟨projects, hprojects, h⟩
  rcases bind_ok.mp h with ⟨apps, happs, h⟩
  rcases bind_ok.mp h with ⟨project, hproject, h⟩
  rcases bind_ok.mp h with ⟨app, happ, h⟩
  have hpid := sole_id hprojects hproject
  have haid := sole_id happs happ
  by_cases hu : identity.isUnscoped = true
  · rw [if_pos hu] at h
    cases project with
    | none =>
      rcases bind_ok.mp h with ⟨_, hnone, h⟩
      cases h
      rw [raiseIf_ok, isSome_eq_false_iff, isNone_iff_eq_none] at hnone
      have hp : projects = [] := by
        rcases soleId_ok hproject with ⟨_, hnil⟩ | ⟨s, hs, _⟩
        · exact hnil
        · exact absurd hs.symm (some_ne_none s)
      have ha : apps = [] := by
        rcases soleId_ok happ with ⟨_, hnil⟩ | ⟨s, hs, _⟩
        · exact hnil
        · exact absurd (hs.symm.trans hnone) (some_ne_none s)
      refine .inr ⟨hu, rfl, fun surface hsurface => ?_⟩
      rw [tenantOf, (explicitIds_ok hprojects).2 hp surface hsurface,
        (explicitIds_ok happs).2 ha surface hsurface]
      rfl
    | some p =>
      cases h
      rcases hpid p rfl with ⟨pid, rfl⟩
      have hcovers : ∀ a, covers identity ⟨pid, a⟩ = true := fun _ =>
        covers_iff.mpr (.inl hu)
      cases app with
      | none => exact .inl ⟨⟨pid, none⟩, hcovers _, rfl⟩
      | some a =>
        rcases haid a rfl with ⟨aid, rfl⟩
        exact .inl ⟨⟨pid, some aid⟩, hcovers _, rfl⟩
  · rw [if_neg hu] at h
    rcases bind_ok.mp h with ⟨p, hp, h⟩
    rcases bind_ok.mp h with ⟨a, ha, h⟩
    cases h
    rcases runProject_id hpid hp with ⟨pid, rfl⟩
    rcases foundApp_covers haid ha with ⟨tenant, rfl, rfl, hcovers⟩
    exact .inl ⟨tenant, hcovers, rfl⟩

/-- What the first stamp does: it writes a covered tenant, unless a platform administrator names
    none. -/
theorem ensureRunScope_tenant (h : ensureRunScope identity value = .ok (value', condition)) :
    (∃ tenant, covers identity tenant = true ∧ value' = stampTenant tenant value ∧
      condition = some (tenantCondition tenant)) ∨
    (identity.isUnscoped = true ∧ value' = value ∧ condition = none ∧ Carries none value) := by
  rcases bind_ok.mp h with ⟨scope, hscope, h⟩
  rcases runScope_tenant hscope with ⟨tenant, hcovers, rfl⟩ | ⟨hu, rfl, hnone⟩
  · cases h
    exact .inl ⟨tenant, hcovers, rfl, rfl⟩
  · cases h
    exact .inr ⟨hu, rfl, rfl, hnone⟩

theorem covers_primary (h : Services.TestScope.allowsTestScope identity scope = true) :
    covers identity ⟨scope.primary.projectId, some scope.primary.applicationId⟩ = true :=
  List.all_eq_true.mp h _ scope.primary_mem

theorem tenantOf_withoutTarget (configurable : Dict Json) :
    tenantOf (withoutTarget configurable) = tenantOf configurable := by
  rw [withoutTarget, tenantOf_dropKey (by decide) (by decide),
    tenantOf_dropKey (by decide) (by decide)]

theorem ensureParticipantsOf_tenant {preserve : Bool}
    (h : ensureParticipantsOf world identity preserve value = .ok (value', condition)) :
    ∃ tenant, covers identity tenant = true ∧ tenant.appId.isSome = true ∧
      Carries (some tenant) value' ∧ condition = some (tenantCondition tenant) := by
  rcases bind_ok.mp h with ⟨topology, _, h⟩
  rcases bind_ok.mp h with ⟨_, _, h⟩
  rcases bind_ok.mp h with ⟨_, hresolved, h⟩
  rcases bind_ok.mp h with ⟨_, _, h⟩
  rcases bind_ok.mp hresolved with ⟨_, hallowed, _⟩
  rw [raiseIf_ok, Bool.not_eq_false'] at hallowed
  cases h
  exact ⟨_, covers_primary hallowed, rfl, carries_stamp
    ⟨topology.primary.projectId, some topology.primary.applicationId⟩ _, rfl⟩

theorem environmentScope_covers {project app : Option String} {owner p a : String}
    (hproject : ∀ s, project = some s → ∃ id : ScopeId, id.value = s)
    (h : environmentScope identity project app owner = .ok (p, a)) :
    ∃ pid aid : ScopeId, pid.value = p ∧ aid.value = a ∧
      covers identity ⟨pid, some aid⟩ = true := by
  rcases bind_ok.mp h with ⟨authoritative, hauthoritative, h⟩
  cases project with
  | none => cases h
  | some project =>
    rcases hproject project rfl with ⟨pid, rfl⟩
    rcases projectId_ok hauthoritative with ⟨_, rfl⟩ | ⟨aid, _, rfl⟩
    · cases h
    · rcases bind_ok.mp h with ⟨_, _, h⟩
      rcases bind_ok.mp h with ⟨_, hrequired, h⟩
      cases h
      rcases bind_ok.mp hrequired with ⟨_, hallowed, _⟩
      rw [raiseIf_ok, Bool.not_eq_false'] at hallowed
      exact ⟨pid, aid, rfl, rfl, hallowed⟩

theorem ensureEnvironmentOf_tenant {environmentId : String}
    (h : ensureEnvironmentOf world identity environmentId value = .ok (value', condition)) :
    ∃ tenant, covers identity tenant = true ∧ tenant.appId.isSome = true ∧
      Carries (some tenant) value' ∧ condition = some (tenantCondition tenant) := by
  rcases bind_ok.mp h with ⟨project, hproject, h⟩
  rcases bind_ok.mp h with ⟨app, _, h⟩
  rcases bind_ok.mp h with ⟨⟨owner, target⟩, _, h⟩
  rcases bind_ok.mp h with ⟨⟨p, a⟩, hscope, h⟩
  cases h
  rcases environmentScope_covers (projectId_id hproject) hscope with ⟨pid, aid, rfl, rfl, hcovers⟩
  exact ⟨⟨pid, some aid⟩, hcovers, rfl, carries_stamp ⟨pid, some aid⟩ _, rfl⟩

/-- What the second stamp does: it writes a covered tenant with an app, or there is neither a test
    scope nor an environment. -/
theorem ensureRunEnvironment_tenant {preserve : Bool}
    (h : ensureRunEnvironment world identity preserve value = .ok (value', condition)) :
    (∃ tenant, covers identity tenant = true ∧ tenant.appId.isSome = true ∧
      Carries (some tenant) value' ∧ condition = some (tenantCondition tenant)) ∨
    (truthy (value'.configurable.value "test_scope") = false ∧ condition = none ∧
      ∀ tenant, Carries tenant value → Carries tenant value') := by
  rcases bind_ok.mp h with ⟨_, _, h⟩
  split at h
  · exact .inl (ensureParticipantsOf_tenant h)
  · rename_i hscope
    rcases bind_ok.mp h with ⟨environmentId, _, h⟩
    cases environmentId with
    | some environmentId => exact .inl (ensureEnvironmentOf_tenant h)
    | none =>
      cases h
      refine .inr ⟨?_, rfl, fun tenant hcarries => ?_⟩
      · simp only [withoutTarget, value_dropKey]
        rw [if_neg (by decide), if_neg (by decide)]
        exact Bool.not_eq_true _ ▸ hscope
      · rw [carries_iff] at hcarries ⊢
        exact ⟨hcarries.1, (tenantOf_withoutTarget _).trans hcarries.2.1, hcarries.2.2⟩

theorem bindRun_tenant (h : bindRun world identity trusted value = .ok (value', condition)) :
    (∃ tenant, covers identity tenant = true ∧ tenant.appId.isSome = true ∧
      Carries (some tenant) value' ∧ condition = some (tenantCondition tenant)) ∨
    ((trusted = false → truthy (value'.configurable.value "test_scope") = false) ∧
      condition = none ∧ ∀ tenant, Carries tenant value → Carries tenant value') := by
  simp only [bindRun] at h
  split at h
  · rename_i hbound
    cases h
    rw [Bool.and_eq_true] at hbound
    refine .inr ⟨fun ht => ?_, rfl, fun _ => id⟩
    rw [ht] at hbound
    exact Bool.noConfusion hbound.1
  · rcases bind_ok.mp h with ⟨_, _, h⟩
    rcases ensureRunEnvironment_tenant h with hbound | ⟨hscope, hnone, hkeep⟩
    · exact .inl hbound
    · exact .inr ⟨fun _ => hscope, hnone, hkeep⟩

theorem pinConfiguration_tenant (h : pinConfiguration world value = .ok value')
    (hcarries : Carries tenant value)
    (hscope : truthy (value.configurable.value "test_scope") = true →
      (tenant.bind ScopeRef.appId).isSome = true) : Carries tenant value' := by
  rcases bind_ok.mp h with ⟨snapshot, hsnapshot, h⟩
  cases h
  rw [carries_iff] at hcarries ⊢
  have hpinned := snapshot_tenant (someOr_ok.mp hsnapshot) hcarries.2.1 hscope
  refine ⟨hcarries.1, ?_, hcarries.2.2⟩
  simp only
  split
  · exact (tenantOf_set (by decide) (by decide) _ _).trans hpinned
  · exact hpinned

theorem carries_setBoth {key : String} (hproject : "project_id" ≠ key) (happ : "app_id" ≠ key)
    (h : Carries tenant value) :
    Carries tenant (setBoth key v value) := by
  rw [carries_iff] at h ⊢
  exact ⟨h.1, (tenantOf_set hproject happ v _).trans h.2.1, h.2.2⟩

theorem prepareAifx_tenant (h : prepareAifx world trusted graph value = .ok value')
    (hcarries : Carries tenant value) : Carries tenant value' := by
  simp only [prepareAifx] at h
  split at h
  · rcases bind_ok.mp h with ⟨_, _, h⟩
    rcases bind_ok.mp h with ⟨snapshot, _, h⟩
    cases snapshot with
    | some snapshot =>
      cases h
      exact carries_setBoth (by decide) (by decide) hcarries
    | none =>
      cases h
      exact hcarries
  · cases h
    exact hcarries

theorem preparePrompts_tenant (h : preparePrompts world value = .ok value')
    (hcarries : Carries tenant value) : Carries tenant value' := by
  simp only [preparePrompts] at h
  split at h
  · rcases bind_ok.mp h with ⟨_, _, h⟩
    rcases bind_ok.mp h with ⟨_, _, h⟩
    cases h
    exact carries_setBoth (by decide) (by decide) hcarries
  · cases h
    exact hcarries

theorem carries_stampActor (h : Carries tenant value) :
    Carries tenant (stampActor identity value) := by
  rw [carries_iff] at h ⊢
  refine ⟨h.1, ?_, h.2.2⟩
  rw [stampActor, tenantOf_set (by decide) (by decide), tenantOf_set (by decide) (by decide)]
  exact h.2.1

theorem prepareServices_tenant (h : prepareServices world identity trusted graph value = .ok value')
    (hcarries : Carries tenant value) : Carries tenant value' := by
  rcases bind_ok.mp h with ⟨_, _, h⟩
  rcases bind_ok.mp h with ⟨models, _, h⟩
  rcases bind_ok.mp h with ⟨_, haifx, h⟩
  rcases bind_ok.mp h with ⟨_, hprompts, h⟩
  rcases bind_ok.mp h with ⟨_, _, h⟩
  cases h
  have hprepared := preparePrompts_tenant hprompts (prepareAifx_tenant haifx hcarries)
  exact carries_stampActor (carries_setBoth (by decide) (by decide) hprepared)

/-- The filter of a run with a tenant, or without one. -/
def tenantFilter (trusted : Bool) (tenant : Option ScopeRef) : HandlerResult :=
  let result := match tenant with
    | none => HandlerResult.unrestricted
    | some tenant => .filtered ⟨tenantCondition tenant, none⟩
  if trusted then result else requireDirectRunsAllowed result

theorem refuseServerOwned_same
    (h : unlessTrusted trusted (refuseServerOwned graph) value = .ok value') : value' = value := by
  cases trusted with
  | true =>
    cases h
    rfl
  | false =>
    rcases bind_ok.mp h with ⟨_, _, h⟩
    rcases bind_ok.mp h with ⟨_, _, h⟩
    rcases bind_ok.mp h with ⟨_, _, h⟩
    rcases bind_ok.mp h with ⟨_, _, h⟩
    cases h
    rfl

/-- **The tenant of a settled run.** All surfaces carry it, it is covered, and the condition is its
    own. Without a tenant the caller is a platform administrator. A test scope has an app. -/
theorem settleRun_tenant {settled : RunsCreate}
    (h : settleRun world identity trusted value = .ok (graph, settled, condition)) :
    ∃ tenant : Option ScopeRef, Carries tenant settled ∧ condition = tenant.map tenantCondition ∧
      (∀ t, tenant = some t → covers identity t = true) ∧
      (tenant = none → identity.isUnscoped = true) ∧
      (trusted = false → truthy (settled.configurable.value "test_scope") = true →
        (tenant.bind ScopeRef.appId).isSome = true) := by
  rcases bind_ok.mp h with ⟨⟨graph, prepared⟩, _, h⟩
  rcases bind_ok.mp h with ⟨⟨stamped, ofScope⟩, hstamp, h⟩
  rcases bind_ok.mp h with ⟨checked, hrefuse, h⟩
  rcases bind_ok.mp h with ⟨_, _, h⟩
  rcases bind_ok.mp h with ⟨⟨bound, ofBinding⟩, hbind, h⟩
  rcases bind_ok.mp h with ⟨controlled, hcontrols, h⟩
  cases h
  cases refuseServerOwned_same hrefuse
  have hreworded := ensureRunControls_reworded hcontrols
  have hsettled : ∀ tenant, Carries tenant bound → Carries tenant settled := by
    intro tenant hcarries
    rw [Carries, hreworded.surfaces]
    exact hcarries
  rw [hreworded.configurable]
  rcases bindRun_tenant hbind with ⟨tenant, hcovers, happ, hcarries, rfl⟩ | ⟨hscope, rfl, hkeep⟩
  · refine ⟨some tenant, hsettled _ hcarries, rfl, fun t ht => ?_,
      fun ht => absurd ht (some_ne_none tenant), fun _ _ => happ⟩
    cases ht
    exact hcovers
  · -- Nothing was bound, so the run keeps its first stamp, and has no test scope.
    have hnever : ∀ tenant : Option ScopeRef, trusted = false →
        truthy (bound.configurable.value "test_scope") = true →
        (tenant.bind ScopeRef.appId).isSome = true := by
      intro tenant htrusted htruthy
      exact absurd htruthy (by rw [hscope htrusted]; exact Bool.false_ne_true)
    rcases ensureRunScope_tenant hstamp with
      ⟨tenant, hcovers, rfl, rfl⟩ | ⟨hunscoped, rfl, rfl, hnone⟩
    · refine ⟨some tenant, hsettled _ (hkeep _ (carries_stamp tenant _)), rfl, fun t ht => ?_,
        fun ht => absurd ht (some_ne_none tenant), hnever _⟩
      cases ht
      exact hcovers
    · exact ⟨none, hsettled _ (hkeep _ hnone), rfl,
        fun t ht => absurd ht.symm (some_ne_none t), fun _ => hunscoped, hnever _⟩

/-- **The tenant of an admitted run.** All surfaces carry it, it is covered, and the filter is its
    own. A run without a tenant is one of a platform administrator. -/
theorem onThreadsCreateRun_tenant {result : HandlerResult}
    (h : onThreadsCreateRun world identity trusted value = .ok (value', result)) :
    ∃ tenant : Option ScopeRef, Carries tenant value' ∧ result = tenantFilter trusted tenant ∧
      (∀ t, tenant = some t → covers identity t = true) ∧
      (tenant = none → identity.isUnscoped = true) := by
  rcases bind_ok.mp h with ⟨⟨graph, settled, condition⟩, hsettle, h⟩
  rcases bind_ok.mp h with ⟨pinned, hpin, h⟩
  rcases bind_ok.mp h with ⟨final, hservices, h⟩
  cases h
  rcases settleRun_tenant hsettle with ⟨tenant, hcarries, rfl, hcovers, hnone, hscope⟩
  have hpinned : Carries tenant pinned := by
    cases trusted with
    | true =>
      cases hpin
      exact hcarries
    | false => exact pinConfiguration_tenant hpin hcarries (hscope rfl)
  refine ⟨tenant, prepareServices_tenant hservices hpinned, ?_, hcovers, hnone⟩
  cases tenant with
  | none => rfl
  | some tenant => rfl

end Apex.Auth.Handlers
