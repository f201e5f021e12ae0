import Mathlib.Data.Set.Lattice
import Apex.Routers.Consumers

/-!
# What A Consumer Reaches

The reach of an identity is everything it may access, and platform administration
if it has that. Access is defined by wildcards while delegation is decided on
scopes, so the two are connected here once: scopes that an admin may hand out
reach nothing the admin does not, and what a query selects is what the admin may
manage.

## Main definitions

* `Access`, `reach`: What there is to access, and what an identity accesses.
* `consumerReach`: The reach of a stored consumer.

## Theorems

* `reach_of_inside`: Scopes that may be handed out reach no further.
* `manageable_reach`: What may be managed reaches no further.
* `selected_iff`: A query selects what may be managed.
-/

namespace Apex.Routers

open List Option
open Auth Persistence
open ConsumerIdentity (isUnscoped allowsApp allowsProject scopedProjectIds containsScope)
open Bool (and_eq_true or_eq_true false_eq_true not_eq_true')
open Truth (present same both_known selects_some)

/-- What there is to access: a resource of a project or of an app, and the administration
    of the platform. -/
inductive Access where
  | platform
  | resource (projectId : String) (appId : Option String)

def reaches (identity : ConsumerIdentity) : Access → Bool
  | .platform => identity.isUnscoped
  | .resource projectId appId => identity.allowsApp projectId appId

def reach (identity : ConsumerIdentity) : Set Access := {a | reaches identity a = true}

/-- A stored consumer, with the scopes its row denotes. -/
def storedIdentity (row : ApiConsumer) (scopes : List ScopeRef) : ConsumerIdentity where
  consumerId := row.id
  name := row.name
  consumerType := row.consumerType
  role := row.role
  scopes := scopes

/-- Everything a stored consumer has access to. -/
def consumerReach (row : ApiConsumer) : Set Access :=
  {a | ∃ scopes, scopeRefs row = .ok scopes ∧ a ∈ reach (storedIdentity row scopes)}

variable {i j : ConsumerIdentity} {row : ApiConsumer} {scopes : List ScopeRef}

theorem reaches_congr (hrole : i.role = j.role) (hscopes : i.scopes = j.scopes)
    (a : Access) : reaches i a = reaches j a := by
  cases a with
  | platform => simp only [reaches, isUnscoped, hrole, hscopes]
  | resource projectId appId =>
    cases appId with
    | none => simp only [reaches, allowsApp, allowsProject,
        scopedProjectIds, isUnscoped, hrole, hscopes]
    | some appId => simp only [reaches, allowsApp, isUnscoped,
        hrole, hscopes]

theorem reach_congr (hrole : i.role = j.role) (hscopes : i.scopes = j.scopes) : reach i = reach j :=
  Set.ext fun a => by simp only [reach, Set.mem_ofPred_eq, reaches_congr hrole hscopes a]

theorem consumerReach_congr {row' : ApiConsumer} (hrole : row'.role = row.role)
    (hscopes : row'.scopes = row.scopes) : consumerReach row' = consumerReach row := by
  have hrefs : scopeRefs row' = scopeRefs row := by simp only [scopeRefs, hscopes]
  have hreach : ∀ scopes, reach (storedIdentity row' scopes) = reach (storedIdentity row scopes) :=
    fun _ => reach_congr hrole rfl
  simp only [consumerReach, hrefs, hreach]

section Access

variable {identity : ConsumerIdentity}

theorem reaches_of_unscoped (h : identity.isUnscoped = true) (a : Access) :
    reaches identity a = true := by
  cases a with
  | platform => exact h
  | resource projectId appId =>
    cases appId with
    | none => simp only [reaches, allowsApp, h, Bool.true_or]
    | some appId => simp only [reaches, allowsApp, h, Bool.true_or]

variable {projectId : String}

theorem reaches_project (h : identity.isUnscoped = false) :
    reaches identity (.resource projectId none) = true ↔
      ∃ scope ∈ identity.scopes, scope.projectId.value = projectId := by
  simp only [reaches, allowsApp, allowsProject, h,
    Bool.false_or, scopedProjectIds, contains_iff_mem, mem_eraseDups,
    List.mem_map]

theorem reaches_app (h : identity.isUnscoped = false) {appId : String} :
    reaches identity (.resource projectId (some appId)) = true ↔
      ∃ scope ∈ identity.scopes, scope.projectId.value = projectId ∧
        (scope.appId = none ∨ scope.appId.map ScopeId.value = some appId) := by
  simp only [reaches, allowsApp, h, Bool.false_or, List.any_eq_true,
    and_eq_true, or_eq_true, beq_iff_eq, isNone_iff_eq_none]

theorem containsScope_iff (h : identity.isUnscoped = false) {scope : ScopeRef} :
    identity.containsScope scope = true ↔
      ∃ own ∈ identity.scopes, own.projectId = scope.projectId ∧
        (own.appId = none ∨ scope.appId.isSome = true ∧ own.appId = scope.appId) := by
  rcases scope with ⟨projectId, _ | appId⟩
  · simp only [containsScope, h, Bool.false_or, List.any_eq_true,
      and_eq_true, beq_iff_eq, isNone_iff_eq_none, isSome_none,
      false_eq_true, false_and, or_false]
  · simp only [containsScope, h, Bool.false_or, List.any_eq_true,
      and_eq_true, or_eq_true, beq_iff_eq, isNone_iff_eq_none,
      isSome_some, true_and]

end Access

variable {identity : ConsumerIdentity}

theorem reach_of_inside (who : ConsumerIdentity)
    (hadmin : consumerIsUnscopedAdmin who.role who.scopes = false)
    (hinside : scopesInsideAdmin identity who.scopes = true) : reach who ⊆ reach identity := by
  cases hunscoped : identity.isUnscoped with
  | true => exact fun a _ => reaches_of_unscoped hunscoped a
  | false =>
    simp only [scopesInsideAdmin, hunscoped, Bool.false_or, and_eq_true,
      List.all_eq_true] at hinside
    have hwho : who.isUnscoped = false := hadmin
    intro a ha
    change reaches who a = true at ha
    change reaches identity a = true
    cases a with
    | platform => exact absurd (hwho.symm.trans ha) Bool.false_ne_true
    | resource projectId appId =>
      cases appId with
      | none =>
        rcases (reaches_project hwho).mp ha with ⟨scope, hscope, rfl⟩
        rcases (containsScope_iff hunscoped).mp (hinside.2 scope hscope)
          with ⟨own, hown, hproject, _⟩
        exact (reaches_project hunscoped).mpr ⟨own, hown, congrArg ScopeId.value hproject⟩
      | some appId =>
        rcases (reaches_app hwho).mp ha with ⟨scope, hscope, rfl, happ⟩
        rcases (containsScope_iff hunscoped).mp (hinside.2 scope hscope)
          with ⟨own, hown, hproject, hwide⟩
        refine (reaches_app hunscoped).mpr ⟨own, hown, congrArg ScopeId.value hproject, ?_⟩
        rcases hwide with hwide | ⟨hsome, hsame⟩
        · exact Or.inl hwide
        · rcases happ with hnone | happ
          · rw [hnone] at hsome
            exact absurd hsome Bool.false_ne_true
          · exact Or.inr (hsame ▸ happ)

theorem reach_of_canManage
    (h : canManageConsumer identity row = .ok true) : consumerReach row ⊆ reach identity := by
  rintro a ⟨scopes, hscopes, ha⟩
  cases hunscoped : identity.isUnscoped with
  | true => exact reaches_of_unscoped hunscoped a
  | false =>
    simp only [canManageConsumer, hunscoped, false_eq_true, if_false] at h
    rcases bind_ok.mp h with ⟨scopes', hscopes', hcan⟩
    rw [hscopes] at hscopes'
    rw [pure_ok, ← Except.ok.inj hscopes', and_eq_true, not_eq_true'] at hcan
    exact reach_of_inside (storedIdentity row scopes) hcan.1 hcan.2 ha

theorem reach_of_grant (who : ConsumerIdentity)
    (h : ensureCanGrant identity who.role who.scopes = .ok ()) : reach who ⊆ reach identity := by
  cases hunscoped : identity.isUnscoped with
  | true => exact fun a _ => reaches_of_unscoped hunscoped a
  | false =>
    simp only [ensureCanGrant, grantDenialDetail, hunscoped, false_eq_true, if_false] at h
    cases hadmin : consumerIsUnscopedAdmin who.role who.scopes with
    | true =>
      rw [hadmin, if_pos rfl] at h
      exact nomatch h
    | false =>
      cases hinside : scopesInsideAdmin identity who.scopes with
      | true => exact reach_of_inside who hadmin hinside
      | false =>
        rw [hadmin, hinside, if_neg Bool.false_ne_true, Bool.not_false, if_pos rfl] at h
        exact nomatch h

/-- A stored scope is covered by one of some scopes, its texts taken as they are. -/
def inGrant (scopes : List ScopeRef) (row : ConsumerScope) : Bool :=
  scopes.any fun own => own.projectId.value == row.projectId
    && (own.appId.isNone || (row.appId.isSome && own.appId.map ScopeId.value == row.appId))

theorem projectClause_known (projectId : String) (row : ConsumerScope) :
    projectClause projectId row = some (decide (row.projectId = projectId)) := rfl

theorem appClause_known (projectId appId : String) (row : ConsumerScope) :
    appClause projectId appId row
      = some (decide (row.projectId = projectId ∧ row.appId = some appId)) := by
  rcases row with ⟨project, _ | app⟩
  · simp only [appClause, projectClause_known, present, isSome_none,
      Truth.both_false, reduceCtorEq, and_false, decide_false]
    rfl
  · simp only [appClause, projectClause_known, present, isSome_some, same,
      both_known, Bool.and_true, some.injEq, Bool.decide_and]

theorem mem_projectWide {projectId : String} :
    projectId ∈ projectWide scopes ↔
      ∃ scope ∈ scopes, scope.appId = none ∧ scope.projectId.value = projectId := by
  simp only [projectWide, mem_mergeSort, mem_eraseDups, List.mem_map, mem_filter,
    isNone_iff_eq_none, and_assoc]

theorem mem_delegableClauses {clause : ConsumerScope → Truth} :
    clause ∈ delegableClauses scopes ↔
      (∃ projectId ∈ projectWide scopes, projectClause projectId = clause) ∨
      ∃ scope ∈ scopes, ∃ appId, scope.appId = some appId ∧
        scope.projectId.value ∉ projectWide scopes ∧
        appClause scope.projectId.value appId.value = clause := by
  simp only [delegableClauses, mem_append, List.mem_map, mem_filterMap]
  refine or_congr Iff.rfl (exists_congr fun scope => and_congr_right fun _ => ?_)
  rcases scope with ⟨project, _ | app⟩
  · simp only [scopeClause?, reduceCtorEq, false_and, exists_false]
  · simp only [scopeClause?, contains_iff_mem, some.injEq, exists_eq_left']
    by_cases h : project.value ∈ projectWide scopes
    · simp only [h, if_true, reduceCtorEq, not_true_eq_false, false_and]
    · simp only [h, if_false, some.injEq, not_false_eq_true, true_and]

/-- Every clause is known, and some clause holds of a stored scope exactly if one of the
    scopes covers it. -/
theorem anyOf_clauses (scopes : List ScopeRef) (row : ConsumerScope) :
    Truth.anyOf ((delegableClauses scopes).map fun clause => clause row)
      = some (inGrant scopes row) := by
  have hknown : ∀ clause ∈ delegableClauses scopes, clause row = some ((clause row).selects) := by
    intro clause hclause
    rcases mem_delegableClauses.mp hclause with ⟨_, _, rfl⟩ | ⟨_, _, _, _, _, rfl⟩
    · rw [projectClause_known, selects_some]
    · rw [appClause_known, selects_some]
  have hmap : (delegableClauses scopes).map (fun clause => clause row)
      = ((delegableClauses scopes).map fun clause => (clause row).selects).map some := by
    rw [List.map_map]
    exact map_congr_left hknown
  rw [hmap, Truth.anyOf_known, some.injEq, Bool.eq_iff_iff, List.any_map,
    List.any_eq_true, inGrant, List.any_eq_true]
  simp only [Function.comp_apply, id_eq, and_eq_true, or_eq_true, beq_iff_eq,
    isNone_iff_eq_none]
  constructor
  · rintro ⟨clause, hclause, hholds⟩
    rcases mem_delegableClauses.mp hclause
      with ⟨projectId, hwide, rfl⟩ | ⟨scope, hscope, appId, happ, _, rfl⟩
    · rw [projectClause_known, selects_some, decide_eq_true_eq] at hholds
      rcases mem_projectWide.mp hwide with ⟨own, hown, hnone, hproject⟩
      exact ⟨own, hown, hproject.trans hholds.symm, Or.inl hnone⟩
    · rw [appClause_known, selects_some, decide_eq_true_eq] at hholds
      refine ⟨scope, hscope, hholds.1.symm, Or.inr ⟨?_, ?_⟩⟩
      · rw [hholds.2, isSome_some]
      · rw [happ, hholds.2, map_some]
  · rintro ⟨own, hown, hproject, hcover⟩
    by_cases hwide : row.projectId ∈ projectWide scopes
    · refine ⟨_, mem_delegableClauses.mpr (Or.inl ⟨_, hwide, rfl⟩), ?_⟩
      rw [projectClause_known, selects_some, decide_eq_true_eq]
    · -- The scope is not project-wide, since its project is not.
      rcases hcover with hnone | ⟨hsome, hsame⟩
      · exact absurd (mem_projectWide.mpr ⟨own, hown, hnone, hproject⟩) hwide
      · rcases happ : own.appId with _ | appId
        · rw [happ, map_none] at hsame
          rw [← hsame] at hsome
          exact absurd hsome Bool.false_ne_true
        · refine ⟨_, mem_delegableClauses.mpr
            (Or.inr ⟨own, hown, appId, happ, hproject ▸ hwide, rfl⟩), ?_⟩
          rw [appClause_known, selects_some, decide_eq_true_eq]
          exact ⟨hproject.symm, by rw [← hsame, happ, map_some]⟩

theorem listCondition_selects (scopes : List ScopeRef) (row : ApiConsumer) :
    (listCondition (some scopes) row).selects = true ↔
      row.deletedAt = none ∧ row.scopes ≠ [] ∧
        ∀ scope ∈ row.scopes, inGrant scopes scope = true := by
  cases hclauses : (delegableClauses scopes).isEmpty with
  | true =>
    -- Without a clause there is no scope to be covered by.
    have hnone : ∀ scope, inGrant scopes scope = false := by
      intro scope
      have h := anyOf_clauses scopes scope
      rw [List.isEmpty_iff.mp hclauses] at h
      exact (some.inj h).symm
    simp only [listCondition, delegableScopePredicate, hclauses, if_true, both_known,
      Bool.and_false, selects_some, false_eq_true, hnone, false_iff, not_and]
    intro _ hne hall
    rcases exists_mem_of_ne_nil _ hne with ⟨scope, hscope⟩
    exact hall scope hscope
  | false =>
    have hscopes : (row.scopes.any fun _ => true) = true ↔ row.scopes ≠ [] := by
      cases row.scopes with
      | nil => exact ⟨fun h => absurd h Bool.false_ne_true, fun h => absurd rfl h⟩
      | cons scope rest => exact ⟨fun _ => cons_ne_nil _ _, fun _ => rfl⟩
    simp only [listCondition, delegableScopePredicate, hclauses, false_eq_true, if_false,
      Truth.exists?, anyOf_clauses, Truth.negate, both_known, selects_some,
      and_eq_true, isNone_iff_eq_none, not_eq_true', List.any_eq_false,
      Bool.not_eq_false, and_assoc, hscopes]

/-- A row whose scopes are stored as the checks of today would store them. -/
def CanonicalScopes (row : ApiConsumer) : Prop :=
  ∃ refs : List ScopeRef, row.scopes = refs.map scopeRow

theorem scopeRefs_canonical {refs : List ScopeRef}
    (h : row.scopes = refs.map scopeRow) : scopeRefs row = .ok refs := by
  rw [scopeRefs, h, mapM_ok, forall₂_map_left_iff, forall₂_same]
  intro ref _
  exact someOr_ok.mpr (scopeRef?_values ref)

theorem inGrant_scopeRow (h : identity.isUnscoped = false) (ref : ScopeRef) :
    inGrant identity.scopes (scopeRow ref) = true ↔ identity.containsScope ref = true := by
  rw [containsScope_iff h, inGrant, List.any_eq_true]
  refine exists_congr fun own => and_congr_right fun _ => ?_
  rw [and_eq_true, or_eq_true, and_eq_true, beq_iff_eq, beq_iff_eq,
    isNone_iff_eq_none]
  refine and_congr ScopeId.value_injective.eq_iff (or_congr Iff.rfl (and_congr ?_ ?_))
  · rw [scopeRow, isSome_map]
  · exact (map_injective ScopeId.value_injective).eq_iff

theorem selected_iff (hrow : CanonicalScopes row) :
    (listCondition (listedScopes identity) row).selects = true ↔
      row.deletedAt = none ∧ canManageConsumer identity row = .ok true := by
  rcases hrow with ⟨refs, hrefs⟩
  have hscopes := scopeRefs_canonical hrefs
  cases hunscoped : identity.isUnscoped with
  | true =>
    simp only [listedScopes, canManageConsumer, hunscoped, if_true, listCondition,
      selects_some, isNone_iff_eq_none, pure_ok, and_true]
  | false =>
    simp only [listedScopes, canManageConsumer, hunscoped, false_eq_true, if_false,
      listCondition_selects, hscopes]
    refine and_congr_right fun _ => ?_
    have hcan : (Except.ok refs >>= fun scopes => (pure (!consumerIsUnscopedAdmin row.role scopes
        && scopesInsideAdmin identity scopes) : Except ConsumerError Bool)) = .ok true ↔
        refs ≠ [] ∧ ∀ ref ∈ refs, identity.containsScope ref = true := by
      rw [bind_ok]
      simp only [Except.ok.injEq, exists_eq_left', pure_ok, scopesInsideAdmin, hunscoped,
        Bool.false_or, and_eq_true, not_eq_true', consumerIsUnscopedAdmin,
        Bool.and_eq_false_iff, isEmpty_eq_false_iff, List.all_eq_true]
      exact ⟨fun h => h.2, fun h => ⟨Or.inr h.1, h⟩⟩
    rw [hcan, hrefs]
    simp only [ne_eq, map_eq_nil_iff, List.forall_mem_map, inGrant_scopeRow hunscoped]

theorem containsScope_of_inGrant {row : ConsumerScope} {ref : ScopeRef}
    (h : identity.isUnscoped = false) (hgrant : inGrant identity.scopes row = true)
    (href : scopeRef? row.projectId row.appId = some ref) : identity.containsScope ref = true := by
  rcases row with ⟨project, app⟩
  rw [inGrant, List.any_eq_true] at hgrant
  rcases hgrant with ⟨own, hown, hcover⟩
  simp only [and_eq_true, or_eq_true, beq_iff_eq, isNone_iff_eq_none] at hcover
  rcases hcover with ⟨rfl, hcover⟩
  refine (containsScope_iff h).mpr ⟨own, hown, ?_, ?_⟩
  · cases app with
    | none =>
      simp only [scopeRef?, scopeId?_value, map_some, some.injEq] at href
      rw [← href]
    | some app =>
      simp only [scopeRef?, scopeId?_value, bind_some, map_eq_some_iff] at href
      rcases href with ⟨_, _, rfl⟩
      rfl
  · rcases hcover with hnone | ⟨_, hsame⟩
    · exact Or.inl hnone
    · rcases happ : own.appId with _ | appId
      · exact Or.inl rfl
      · rw [← hsame, happ, map_some] at href
        simp only [scopeRef?, scopeId?_value, bind_some, map_some, some.injEq] at href
        rw [← href]
        exact Or.inr ⟨rfl, rfl⟩

theorem selected_not_refused (h : (listCondition (listedScopes identity) row).selects = true) :
    row.deletedAt = none ∧ canManageConsumer identity row ≠ .ok false := by
  cases hunscoped : identity.isUnscoped with
  | true =>
    simp only [listedScopes, hunscoped, if_true, listCondition, selects_some,
      isNone_iff_eq_none] at h
    refine ⟨h, ?_⟩
    rw [canManageConsumer, hunscoped, if_pos rfl, ne_eq, pure_ok]
    exact fun h => absurd h.symm Bool.false_ne_true
  | false =>
    simp only [listedScopes, hunscoped, false_eq_true, if_false, listCondition_selects] at h
    refine ⟨h.1, fun hcan => ?_⟩
    simp only [canManageConsumer, hunscoped, false_eq_true, if_false] at hcan
    rcases bind_ok.mp hcan with ⟨refs, hrefs, hrefused⟩
    have hne : refs ≠ [] := by
      rintro rfl
      exact h.2.1 (forall₂_nil_right_iff.mp (mapM_ok.mp hrefs))
    have hinside : ∀ ref ∈ refs, identity.containsScope ref = true := by
      intro ref href
      rcases mapM_mem hrefs href with ⟨scope, hscope, hparsed⟩
      exact containsScope_of_inGrant hunscoped (h.2.2 scope hscope) (someOr_ok.mp hparsed)
    have hcan : (!consumerIsUnscopedAdmin row.role refs && scopesInsideAdmin identity refs)
        = true := by
      simp only [consumerIsUnscopedAdmin, scopesInsideAdmin, hunscoped, Bool.false_or,
        and_eq_true, not_eq_true', Bool.and_eq_false_iff, isEmpty_eq_false_iff,
        List.all_eq_true]
      exact ⟨Or.inr hne, hne, hinside⟩
    rw [pure_ok, hcan] at hrefused
    exact Bool.false_ne_true hrefused.symm

end Apex.Routers
