import Apex.Auth.Handlers

/-!
# Stamps And Filters

A tenant is a project and perhaps an app of it. A document carries a tenant under two
keys, and a document without one has neither, or `None` there.

What is stamped lies inside the scopes of the identity that asked for it, whichever of
the ways to find a project and an app was taken. What a filter lets through is what the
scopes of an identity cover, so the two agree.

## Main definitions

* `tenantOf`: What a document has under the two keys.
* `covers`: Whether the scopes of an identity cover a tenant.

## Theorems

* `tenantOf_stamp`: A stamp is read back.
* `requireLanggraphScope_covers`: An app that is found is covered.
* `ensureThreadScope_tenant`: The tenant of a thread.
* `scopeFilter_matches`: What a filter lets through.
-/

namespace Apex.Auth.Handlers

open List Option

variable {s k app : String} {o : Option String} {tenant : ScopeRef}

theorem isScopeId_of_projectId
    (h : (s.isEmpty || s != strip s || decide (maxLanggraphIdentifierChars < s.length)
      || hasNul s) = false) : IsScopeId s := by
  simp only [Bool.or_eq_false_iff, bne_eq_false_iff_eq, decide_eq_false_iff_not, not_lt] at h
  rcases h with ⟨⟨⟨hempty, htrimmed⟩, hbounded⟩, hplain⟩
  refine ⟨htrimmed.symm, ?_, hbounded, hplain⟩
  have hne : s ≠ "" := by
    intro hs
    rw [hs] at hempty
    exact Bool.noConfusion hempty
  exact Nat.one_le_iff_ne_zero.mpr fun hlen => hne (String.length_eq_zero_iff.mp hlen)

variable {v : Json} {identity : ConsumerIdentity} {project key : String} {metadata : Dict Json}
  {condition : Condition}

theorem projectId_ok (h : projectId v = .ok o) :
    (v = .null ∧ o = none) ∨ ∃ id : ScopeId, v = .str id.value ∧ o = some id.value := by
  cases v with
  | null =>
    cases h
    exact .inl ⟨rfl, rfl⟩
  | str s =>
    simp only [projectId] at h
    split at h
    · cases h
    · rename_i hs
      cases h
      exact .inr ⟨⟨s, isScopeId_of_projectId (Bool.not_eq_true _ ▸ hs)⟩, rfl, rfl⟩
  | bool b => cases h
  | int n => cases h
  | float x => cases h
  | list xs => cases h
  | dict items => cases h

theorem projectId_id (h : projectId v = .ok o) (s : String)
    (ho : o = some s) : ∃ id : ScopeId, id.value = s := by
  rcases projectId_ok h with ⟨_, hnone⟩ | ⟨id, _, hid⟩
  · exact absurd (ho.symm.trans hnone) (some_ne_none s)
  · exact ⟨id, (some.inj (ho.symm.trans hid)).symm⟩

theorem scopedProjectIds_mem (h : project ∈ identity.scopedProjectIds) :
    ∃ scope ∈ identity.scopes, scope.projectId.value = project := by
  rw [ConsumerIdentity.scopedProjectIds, mem_eraseDups] at h
  exact List.mem_map.mp h

def appJson (app : Option String) : Json := (app.map Json.str).getD .null

def tenantOf (d : Dict Json) : Json × Json := (d.value "project_id", d.value "app_id")

def tenantJson (tenant : Option ScopeRef) : Json × Json :=
  match tenant with
  | none => (.null, .null)
  | some tenant => (.str tenant.projectId.value, appJson (tenant.appId.map ScopeId.value))

theorem get?_dropKey (key : String) (d : Dict Json) (k : String) :
    (dropKey key d).get? k = if k = key then none else d.get? k := by
  rw [dropKey, Dict.get?_filterKeys]
  by_cases hk : k = key
  · rw [if_pos hk, hk, bne_self_eq_false, if_neg Bool.false_ne_true]
  · rw [if_neg hk, bne_iff_ne.mpr hk, if_pos rfl]

theorem value_set (d : Dict Json) (k : String) (v : Json) (k' : String) :
    (d.set k v).value k' = if k' = k then v else d.value k' := by
  rw [Dict.value, Dict.get?_set]
  split
  · rfl
  · rfl

theorem value_dropKey (key : String) (d : Dict Json) (k : String) :
    (dropKey key d).value k = if k = key then .null else d.value k := by
  rw [Dict.value, get?_dropKey]
  split
  · rfl
  · rfl

theorem tenantOf_set (hproject : "project_id" ≠ k) (happ : "app_id" ≠ k) (v : Json)
    (d : Dict Json) : tenantOf (d.set k v) = tenantOf d := by
  rw [tenantOf, value_set, value_set, if_neg hproject, if_neg happ]
  rfl

theorem tenantOf_dropKey (hproject : "project_id" ≠ k) (happ : "app_id" ≠ k)
    (d : Dict Json) : tenantOf (dropKey k d) = tenantOf d := by
  rw [tenantOf, value_dropKey, value_dropKey, if_neg hproject, if_neg happ]
  rfl

theorem tenantOf_stamp (project : String) (app : Option String) (d : Dict Json) :
    tenantOf (stamp project app d) = (.str project, appJson app) := by
  cases app with
  | none =>
    rw [stamp, tenantOf, value_dropKey, value_dropKey, if_neg (by decide), if_pos rfl, value_set,
      if_pos rfl]
    rfl
  | some app =>
    rw [stamp, tenantOf, value_set, value_set, if_neg (by decide), if_pos rfl, value_set,
      if_pos rfl]
    rfl

theorem get?_stamp (hproject : key ≠ "project_id") (happ : key ≠ "app_id") (project : String)
    (app : Option String) (d : Dict Json) :
    (stamp project app d).get? key = d.get? key := by
  cases app with
  | none => rw [stamp, get?_dropKey, if_neg happ, Dict.get?_set_ne _ _ hproject]
  | some app => rw [stamp, Dict.get?_set_ne _ _ happ, Dict.get?_set_ne _ _ hproject]

def covers (identity : ConsumerIdentity) (tenant : ScopeRef) : Bool :=
  allowsLanggraphScope identity tenant.projectId.value (tenant.appId.map ScopeId.value)

theorem hasProjectWideScope_iff :
    hasProjectWideScope identity project = true ↔
      ∃ scope ∈ identity.scopes, scope.projectId.value = project ∧ scope.appId = none := by
  simp only [hasProjectWideScope, List.any_eq_true, Bool.and_eq_true, beq_iff_eq,
    isNone_iff_eq_none]

theorem mem_appIdsForProject :
    app ∈ appIdsForProject identity project ↔
      ∃ scope ∈ identity.scopes, scope.projectId.value = project ∧
        scope.appId.map ScopeId.value = some app := by
  simp only [appIdsForProject, mem_eraseDups, mem_filterMap]
  refine exists_congr fun scope => and_congr_right fun _ => ?_
  by_cases hproject : scope.projectId.value = project
  · rw [if_pos (beq_iff_eq.mpr hproject)]
    exact ⟨fun h => ⟨hproject, h⟩, And.right⟩
  · rw [if_neg (by rwa [beq_iff_eq])]
    exact ⟨fun h => absurd h.symm (some_ne_none app), fun h => absurd h.1 hproject⟩

/-- A tenant is covered by an unscoped identity, by a scope of its whole project, or by a scope
    of its app. -/
theorem covers_iff :
    covers identity tenant = true ↔ identity.isUnscoped = true ∨
      (∃ scope ∈ identity.scopes, scope.projectId = tenant.projectId ∧ scope.appId = none) ∨
      (tenant.appId.isSome = true ∧ tenant ∈ identity.scopes) := by
  rcases tenant with ⟨project, _ | app⟩
  · simp only [covers, allowsLanggraphScope, map_none, Bool.or_eq_true,
      hasProjectWideScope_iff, isSome_none, Bool.false_eq_true, false_and, or_false,
      ScopeId.value_injective.eq_iff]
  · simp only [covers, allowsLanggraphScope, map_some, Bool.or_eq_true, List.any_eq_true,
      Bool.and_eq_true, beq_iff_eq, isNone_iff_eq_none, isSome_some, true_and,
      ScopeId.value_injective.eq_iff]
    refine or_congr_right ?_
    constructor
    · rintro ⟨⟨p, a⟩, hscope, hproject, happ⟩
      rcases happ with happ | happ
      · exact .inl ⟨_, hscope, hproject, happ⟩
      · rcases map_eq_some_iff.mp happ with ⟨b, hb, hvalue⟩
        refine .inr ?_
        have hbapp : b = app := ScopeId.value_injective hvalue
        simp only at hproject hb
        rwa [hproject, hb, hbapp] at hscope
    · rintro (⟨scope, hscope, hproject, happ⟩ | hscope)
      · exact ⟨scope, hscope, hproject, .inl happ⟩
      · exact ⟨_, hscope, rfl, .inr rfl⟩

theorem sole_mem {α : Type} {a : α} {l : List α} (h : l = [a]) : a ∈ l := by
  rw [h]
  exact mem_cons_self

theorem soleApp_covers {project : ScopeId} (h : appIdsForProject identity project.value = [app]) :
    ∃ id : ScopeId, id.value = app ∧ covers identity ⟨project, some id⟩ = true := by
  rcases mem_appIdsForProject.mp (sole_mem h) with ⟨scope, hscope, hproject, happ⟩
  rcases map_eq_some_iff.mp happ with ⟨id, hid, hvalue⟩
  refine ⟨id, hvalue, covers_iff.mpr (.inr (.inr ⟨rfl, ?_⟩))⟩
  have heq : scope = ⟨project, some id⟩ := by
    rcases scope with ⟨p, a⟩
    simp only at hproject hid
    rw [ScopeId.value_injective hproject, hid]
  rwa [heq] at hscope

theorem foundApp_covers {refusal : HttpException} {project : ScopeId} {app found : Option String}
    (happ : ∀ a, app = some a → ∃ id : ScopeId, id.value = a)
    (h : foundApp refusal identity project.value app = .ok found) :
    ∃ tenant : ScopeRef, tenant.projectId = project ∧
      tenant.appId.map ScopeId.value = found ∧ covers identity tenant = true := by
  cases app with
  | some a =>
    rcases happ a rfl with ⟨id, rfl⟩
    rcases bind_ok.mp h with ⟨_, hallowed, hfound⟩
    cases hfound
    rw [raiseIf_ok, Bool.not_eq_false'] at hallowed
    exact ⟨⟨project, some id⟩, rfl, rfl, hallowed⟩
  | none =>
    simp only [foundApp] at h
    split at h
    · rename_i hwide
      cases h
      refine ⟨⟨project, none⟩, rfl, rfl, ?_⟩
      rw [covers, map_none, allowsLanggraphScope, hwide, Bool.or_true]
    · split at h
      · rename_i app hsole
        cases h
        rcases soleApp_covers hsole with ⟨id, rfl, hcovers⟩
        exact ⟨_, rfl, rfl, hcovers⟩
      · cases h

theorem soleProject_mem
    (h : identity.scopedProjectIds = [project]) : ∃ id : ScopeId, id.value = project := by
  rcases scopedProjectIds_mem (sole_mem h) with ⟨scope, _, hscope⟩
  exact ⟨scope.projectId, hscope⟩

theorem ensureThreadScope_tenant {metadata' : Dict Json}
    (h : ensureThreadScope identity metadata = .ok metadata') :
    (identity.isUnscoped = true ∧ metadata' = metadata ∧
      (∃ project, projectId (metadata.value "project_id") = .ok project) ∧
      ∃ app, projectId (metadata.value "app_id") = .ok app) ∨
    ∃ tenant, metadata' = stamp tenant.projectId.value (tenant.appId.map ScopeId.value) metadata ∧
      covers identity tenant = true := by
  simp only [ensureThreadScope] at h
  rcases bind_ok.mp h with ⟨_, _, h⟩
  rcases bind_ok.mp h with ⟨project, hproject, h⟩
  rcases bind_ok.mp h with ⟨app, happ, h⟩
  by_cases hu : identity.isUnscoped = true
  · rw [if_pos hu] at h
    cases h
    exact .inl ⟨hu, rfl, ⟨project, hproject⟩, ⟨app, happ⟩⟩
  · rw [if_neg hu] at h
    rcases bind_ok.mp h with ⟨p, hp, h⟩
    rcases bind_ok.mp h with ⟨_, _, h⟩
    rcases bind_ok.mp h with ⟨a, ha, h⟩
    cases h
    have hpid : ∃ id : ScopeId, id.value = p := by
      cases project with
      | some q =>
        cases hp
        exact projectId_id hproject _ rfl
      | none =>
        simp only [threadProject] at hp
        split at hp
        · rename_i hsole
          cases hp
          exact soleProject_mem hsole
        · cases hp
    rcases hpid with ⟨id, rfl⟩
    rcases foundApp_covers (projectId_id happ) ha with ⟨tenant, rfl, rfl, hcovers⟩
    exact .inr ⟨tenant, rfl, hcovers⟩

theorem conditionHolds_iff :
    conditionHolds condition metadata = true ↔
      ∀ key v, condition.get? key = some v → metadata.get? key = some v := by
  rw [conditionHolds, List.all_eq_true]
  constructor
  · intro h key v hv
    exact beq_iff_eq.mp (h (key, v) (Dict.get?_mem hv))
  · intro h kv hkv
    exact beq_iff_eq.mpr (h kv.1 kv.2 (Dict.get?_of_mem hkv))

theorem value_str {d : Dict Json} :
    d.value key = .str s ↔ d.get? key = some (.str s) := by
  rw [Dict.value]
  cases hget : d.get? key with
  | none => exact ⟨fun h => Json.noConfusion h, fun h => absurd h.symm (some_ne_none _)⟩
  | some v => exact some_inj.symm

theorem conditionHolds_single :
    conditionHolds (Dict.single key v) metadata = true ↔ metadata.get? key = some v := by
  rw [conditionHolds_iff]
  constructor
  · intro h
    refine h key v ?_
    rw [Dict.get?_single, if_pos rfl]
  · intro h key' v' hkey'
    rw [Dict.get?_single] at hkey'
    split at hkey'
    · rename_i heq
      rw [heq, h, hkey']
    · exact absurd hkey'.symm (some_ne_none v')

theorem conditionHolds_set (hkey : condition.get? key = none) :
    conditionHolds (condition.set key v) metadata = true ↔
      conditionHolds condition metadata = true ∧ metadata.get? key = some v := by
  simp only [conditionHolds_iff, Dict.get?_set]
  constructor
  · intro h
    refine ⟨fun key' v' hget => ?_, h key v (if_pos rfl)⟩
    refine h key' v' (Eq.trans (if_neg fun heq => ?_) hget)
    rw [heq, hkey] at hget
    exact some_ne_none v' hget.symm
  · rintro ⟨h, hmeta⟩ key' v' hget
    split at hget
    · rename_i heq
      rw [heq, hmeta, hget]
    · exact h key' v' hget

theorem metadataFilter_holds {app : Option String} :
    conditionHolds (metadataFilter project app) metadata = true ↔
      metadata.value "project_id" = .str project ∧
        ∀ a, app = some a → metadata.value "app_id" = .str a := by
  cases app with
  | none =>
    rw [metadataFilter, conditionHolds_single, value_str]
    exact ⟨fun h => ⟨h, fun a ha => absurd ha.symm (some_ne_none a)⟩, And.left⟩
  | some app =>
    have hkey : (Dict.single "project_id" (Json.str project)).get? "app_id" = none := by
      rw [Dict.get?_single, if_neg (by decide)]
    rw [metadataFilter, conditionHolds_set hkey, conditionHolds_single, value_str]
    refine and_congr_right fun _ => ⟨fun h a ha => ?_, fun h => value_str.mp (h app rfl)⟩
    cases ha
    exact value_str.mpr h

theorem wide_iff :
    project ∈ (identity.scopes.filterMap fun scope =>
        if scope.appId.isNone then some scope.projectId.value else none).eraseDups ↔
      hasProjectWideScope identity project = true := by
  simp only [mem_eraseDups, mem_filterMap, hasProjectWideScope_iff]
  refine exists_congr fun scope => and_congr_right fun _ => ?_
  rcases scope with ⟨p, _ | app⟩
  · exact ⟨fun h => ⟨some.inj h, rfl⟩, fun h => congrArg some h.1⟩
  · exact ⟨fun h => absurd h.symm (some_ne_none _), fun h => absurd h.2 (some_ne_none app)⟩

/-- The conditions of an identity are those of its scopes, without the apps of a project that it
    has as a whole. -/
theorem mem_scopeFilters :
    condition ∈ scopeFilters identity ↔
      ∃ scope ∈ identity.scopes,
        metadataFilter scope.projectId.value (scope.appId.map ScopeId.value) = condition ∧
        (scope.appId.isSome = true →
          hasProjectWideScope identity scope.projectId.value = false) := by
  simp only [scopeFilters, mem_append, List.mem_map, wide_iff, hasProjectWideScope_iff]
  constructor
  · rintro (⟨project, ⟨scope, hscope, rfl, happ⟩, rfl⟩ | ⟨pair, hpair, rfl⟩)
    · refine ⟨scope, hscope, ?_, ?_⟩
      · rw [happ, map_none]
      · rw [happ]
        exact fun h => Bool.noConfusion h
    · rw [mem_eraseDups, mem_filterMap] at hpair
      rcases hpair with ⟨scope, hscope, hpair⟩
      split at hpair
      · exact absurd hpair.symm (some_ne_none pair)
      · rename_i hwide
        rcases map_eq_some_iff.mp hpair with ⟨app, happ, rfl⟩
        refine ⟨scope, hscope, ?_, fun _ => ?_⟩
        · rw [happ, map_some]
        · rwa [contains_iff_mem, wide_iff, Bool.not_eq_true] at hwide
  · rintro ⟨scope, hscope, rfl, hnarrow⟩
    cases happ : scope.appId with
    | none => exact .inl ⟨scope.projectId.value, ⟨scope, hscope, rfl, happ⟩, rfl⟩
    | some app =>
      refine .inr ⟨(scope.projectId.value, app.value), ?_, rfl⟩
      rw [mem_eraseDups, mem_filterMap]
      refine ⟨scope, hscope, ?_⟩
      have hwide := hnarrow (by rw [happ, isSome_some])
      rw [if_neg (by rw [contains_iff_mem, wide_iff, hwide]; exact Bool.false_ne_true), happ,
        map_some]

theorem scopeFilter_any (hu : identity.isUnscoped = false) :
    (scopeFilter identity).matches metadata =
      (scopeFilters identity).any (conditionHolds · metadata) := by
  simp only [scopeFilter, hu, Bool.false_eq_true, if_false]
  split
  · rename_i hnil
    rw [hnil]
    rfl
  · rename_i condition hone
    rw [hone, any_cons, any_nil, Bool.or_false, HandlerResult.matches, Filter.matches,
      all_none, Bool.and_true]
  · rw [HandlerResult.matches, Filter.matches, all_some]
    rfl

/-- **What an identity may read.** A thread with a tenant is let through exactly when the tenant is
    covered. -/
theorem scopeFilter_matches (htenant : tenantOf metadata = tenantJson (some tenant)) :
    (scopeFilter identity).matches metadata = true ↔ covers identity tenant = true := by
  have hproject : metadata.value "project_id" = .str tenant.projectId.value :=
    congrArg Prod.fst htenant
  have happ : metadata.value "app_id" = appJson (tenant.appId.map ScopeId.value) :=
    congrArg Prod.snd htenant
  cases hu : identity.isUnscoped with
  | true =>
    rw [scopeFilter, if_pos hu, covers_iff]
    exact iff_of_true rfl (.inl hu)
  | false =>
    simp only [scopeFilter_any hu, List.any_eq_true, mem_scopeFilters, covers_iff, hu,
      Bool.false_eq_true, false_or]
    constructor
    · rintro ⟨_, ⟨scope, hscope, rfl, _⟩, hholds⟩
      rcases metadataFilter_holds.mp hholds with ⟨hp, ha⟩
      have hsame : scope.projectId = tenant.projectId :=
        ScopeId.value_injective (Json.str.inj (hp.symm.trans hproject))
      cases hnone : scope.appId with
      | none => exact .inl ⟨scope, hscope, hsame, hnone⟩
      | some app =>
        have hvalue := ha app.value (by rw [hnone, map_some])
        rw [happ] at hvalue
        rcases tenant with ⟨project, _ | own⟩
        · exact Json.noConfusion hvalue
        · have hown : app = own := ScopeId.value_injective (Json.str.inj hvalue).symm
          refine .inr ⟨rfl, ?_⟩
          rcases scope with ⟨p, a⟩
          simp only at hsame hnone
          rwa [hsame, hnone, hown] at hscope
    · -- A scope of the whole project stands in for the scopes of its apps.
      have hwhole : ∀ scope ∈ identity.scopes, scope.projectId = tenant.projectId →
          scope.appId = none →
          ∃ condition, (∃ scope ∈ identity.scopes,
            metadataFilter scope.projectId.value (scope.appId.map ScopeId.value) = condition ∧
            (scope.appId.isSome = true →
              hasProjectWideScope identity scope.projectId.value = false)) ∧
            conditionHolds condition metadata = true := by
        intro scope hscope hp ha
        refine ⟨_, ⟨scope, hscope, rfl, fun h => ?_⟩, metadataFilter_holds.mpr ⟨?_, fun a h => ?_⟩⟩
        · rw [ha] at h
          exact Bool.noConfusion h
        · rw [hproject, hp]
        · rw [ha] at h
          exact absurd h.symm (some_ne_none a)
      rintro (⟨scope, hscope, hp, ha⟩ | ⟨hsome, hmem⟩)
      · exact hwhole scope hscope hp ha
      · cases hwide : hasProjectWideScope identity tenant.projectId.value with
        | true =>
          rcases hasProjectWideScope_iff.mp hwide with ⟨scope, hscope, hp, ha⟩
          exact hwhole scope hscope (ScopeId.value_injective hp) ha
        | false =>
          refine ⟨_, ⟨tenant, hmem, rfl, fun _ => hwide⟩, metadataFilter_holds.mpr
            ⟨hproject, fun a ha => ?_⟩⟩
          rw [happ, ha]
          rfl

end Apex.Auth.Handlers
