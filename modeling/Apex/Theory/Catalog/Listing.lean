import Apex.Theory.Catalog.Links

/-!
# Listing What May Be Accessed

The condition of the query and the check of the code select the same applications. Pages
are parts of one list, since the names that order it are unique, so that one page after
the other gives every application once.

## Main definitions

* `loaded`: An application as it is in the tables.

## Theorems

* `applicationScopeFilter_eq`: The query and the code agree.
* `flatten_pages`: The pages of a list, one after the other.
* `pages_listed`: The pages of the listing.
-/

namespace Apex.Routers.Catalog

open List Option
open Auth Persistence.Catalog

def loaded (s : CatalogStore) (app : Application) : LoadedApplication := ⟨app, s.projectIds app.id⟩

section Filter

variable {s : CatalogStore} {identity : ConsumerIdentity} {app : Application}

theorem linkedTo_iff {projectIds : List String} :
    s.linkedTo projectIds app = true ↔ ∃ p ∈ projectIds, s.linked app.id p = true := by
  rw [CatalogStore.linkedTo, List.any_eq_true]
  constructor
  · rintro ⟨link, hlink, hfits⟩
    rcases Bool.and_eq_true_iff.mp hfits with ⟨hid, hproject⟩
    refine ⟨link.projectId, contains_iff_mem.mp hproject, linked_iff.mpr ?_⟩
    rw [← beq_iff_eq.mp hid]
    exact hlink
  · rintro ⟨p, hp, hlinked⟩
    exact ⟨_, linked_iff.mp hlinked,
      Bool.and_eq_true_iff.mpr ⟨beq_self_eq_true _, contains_iff_mem.mpr hp⟩⟩

theorem mem_projectWide {scopes : List ScopeRef} {p : String} :
    p ∈ projectWide scopes ↔ ∃ scope ∈ scopes, scope.appId = none ∧ scope.projectId.value = p := by
  rw [projectWide, List.mem_map]
  constructor
  · rintro ⟨scope, hscope, rfl⟩
    rcases mem_filter.mp hscope with ⟨hmem, hnone⟩
    exact ⟨scope, hmem, isNone_iff_eq_none.mp hnone, rfl⟩
  · rintro ⟨scope, hmem, hnone, rfl⟩
    exact ⟨scope, mem_filter.mpr ⟨hmem, isNone_iff_eq_none.mpr hnone⟩, rfl⟩

/-- A scope reaches an application of a project. -/
def Reaches (scope : ScopeRef) (projectId id : String) : Prop :=
  scope.projectId.value = projectId ∧ ∀ app, scope.appId = some app → app.value = id

theorem canAccess_iff (hscoped : identity.isUnscoped = false) :
    canAccessApplication identity (loaded s app) = true ↔
      ∃ scope ∈ identity.scopes, ∃ p, s.linked app.id p = true ∧ Reaches scope p app.id := by
  rw [canAccessApplication, List.any_eq_true]
  constructor
  · rintro ⟨p, hp, hallowed⟩
    rw [ConsumerIdentity.allowsApp, hscoped, Bool.false_or, List.any_eq_true] at hallowed
    rcases hallowed with ⟨scope, hscope, hfits⟩
    rcases Bool.and_eq_true_iff.mp hfits with ⟨hproject, happ⟩
    refine ⟨scope, hscope, p, mem_projectIds.mp hp, beq_iff_eq.mp hproject, fun a ha => ?_⟩
    rw [ha, isNone_some, Bool.false_or, map_some, beq_iff_eq] at happ
    exact some.inj happ
  · rintro ⟨scope, hscope, p, hlinked, hproject, happ⟩
    refine ⟨p, mem_projectIds.mpr hlinked, ?_⟩
    rw [ConsumerIdentity.allowsApp, hscoped, Bool.false_or, List.any_eq_true]
    refine ⟨scope, hscope, Bool.and_eq_true_iff.mpr ⟨beq_iff_eq.mpr hproject, ?_⟩⟩
    cases hnarrow : scope.appId with
    | none => rfl
    | some a =>
      rw [isNone_some, Bool.false_or, map_some, happ a hnarrow]
      exact beq_self_eq_true _

def scopeClause (s : CatalogStore) (wide : List String) (app : Application) (scope : ScopeRef) :
    Prop :=
  ∃ a, scope.appId = some a ∧ scope.projectId.value ∉ wide ∧ app.id = a.value ∧
    s.linked app.id scope.projectId.value = true

theorem applicationScopeFilter_iff {scopes : List ScopeRef} :
    s.applicationScopeFilter scopes app = true ↔
      (∃ p ∈ projectWide scopes, s.linked app.id p = true) ∨
        ∃ scope ∈ scopes, scopeClause s (projectWide scopes) app scope := by
  rw [CatalogStore.applicationScopeFilter, Bool.or_eq_true, Bool.and_eq_true, linkedTo_iff,
    List.any_eq_true]
  refine or_congr ⟨fun h => h.2, fun h => ⟨?_, h⟩⟩ (exists_congr fun scope =>
    and_congr_right fun _ => ?_)
  · rcases h with ⟨p, hp, _⟩
    rw [Bool.not_eq_true', isEmpty_eq_false_iff_exists_mem]
    exact ⟨p, hp⟩
  · rw [scopeClause]
    cases scope.appId with
    | none => simp
    | some a =>
      rw [Bool.and_eq_true, Bool.and_eq_true, linkedTo_iff, Bool.not_eq_true',
        contains_eq_mem, decide_eq_false_iff_not, beq_iff_eq]
      simp

theorem applicationScopeFilter_eq (hscoped : identity.isUnscoped = false) :
    s.applicationScopeFilter identity.scopes app =
      canAccessApplication identity (loaded s app) := by
  rw [Bool.eq_iff_iff, applicationScopeFilter_iff, canAccess_iff hscoped]
  constructor
  · rintro (⟨p, hp, hlinked⟩ | ⟨scope, hscope, a, happ, _, hid, hlinked⟩)
    · rcases mem_projectWide.mp hp with ⟨scope, hscope, hwide, rfl⟩
      refine ⟨scope, hscope, _, hlinked, rfl, fun a ha => ?_⟩
      rw [hwide] at ha
      exact nomatch ha
    · refine ⟨scope, hscope, _, hlinked, rfl, fun b hb => ?_⟩
      rw [happ] at hb
      rw [← some.inj hb, hid]
  · rintro ⟨scope, hscope, p, hlinked, hproject, happ⟩
    by_cases hwide : p ∈ projectWide identity.scopes
    · exact Or.inl ⟨p, hwide, hlinked⟩
    · right
      subst hproject
      cases hnarrow : scope.appId with
      | none => exact absurd (mem_projectWide.mpr ⟨scope, hscope, hnarrow, rfl⟩) hwide
      | some a => exact ⟨scope, hscope, a, hnarrow, hwide, (happ a hnarrow).symm, hlinked⟩

theorem canAccess_unscoped (hunscoped : identity.isUnscoped = true) :
    canAccessApplication identity (loaded s app) = !(s.projectIds app.id).isEmpty := by
  rw [canAccessApplication, loaded]
  have hall : ∀ p, identity.allowsApp p (some app.id) = true := fun p => by
    rw [ConsumerIdentity.allowsApp, hunscoped, Bool.true_or]
  cases s.projectIds app.id with
  | nil => rfl
  | cons p ps => rw [any_cons, hall p, Bool.true_or, isEmpty_cons, Bool.not_false]

theorem visible_of_canAccess (hscoped : identity.isUnscoped = false)
    (h : canAccessApplication identity (loaded s app) = true) :
    s.linkedTo identity.scopedProjectIds app = true := by
  rcases (canAccess_iff hscoped).mp h with ⟨scope, hscope, p, hlinked, hproject, _⟩
  refine linkedTo_iff.mpr ⟨p, ?_, hlinked⟩
  rw [ConsumerIdentity.scopedProjectIds, mem_eraseDups]
  exact List.mem_map.mpr ⟨scope, hscope, hproject⟩

end Filter

theorem flatten_pages {α : Type} (rows : List α) (limit : Nat) : ∀ n : Nat,
    ((range n).map fun k => (rows.drop (k * limit)).take limit).flatten =
      rows.take (n * limit)
  | 0 => by simp
  | n + 1 => by
    rw [range_succ, map_append, flatten_append, flatten_pages rows limit n,
      map_singleton, flatten_singleton, Nat.succ_mul, take_add]

theorem ordered_unique {order : LinearOrder String} {selected rows others : List Application}
    (hnames : (selected.map Application.name).Nodup) (hrows : rows.Perm selected)
    (hothers : others.Perm selected) (h : rows.Pairwise fun a b => order.le a.name b.name)
    (h' : others.Pairwise fun a b => order.le a.name b.name) : rows = others := by
  refine Perm.eq_of_pairwise (fun a b ha hb hle hle' => ?_) h h' (hrows.trans hothers.symm)
  have hname : a.name = b.name := order.le_antisymm _ _ hle hle'
  exact inj_on_of_nodup_map hnames (hrows.mem_iff.mp ha) (hothers.mem_iff.mp hb) hname

section Pages

variable {s : CatalogStore} {identity : ConsumerIdentity}

def Listed (s : CatalogStore) (identity : ConsumerIdentity) (project : Option String)
    (includeArchived : Bool) (app : Application) : Prop :=
  app ∈ s.applications ∧ canAccessApplication identity (loaded s app) = true ∧
    (∀ p, project = some p → s.linked app.id p = true) ∧
    (includeArchived = true ∨ app.archivedAt = none)

theorem selects_iff {project : Option String} {includeArchived : Bool} {app : Application} :
    (s.selects (listQuery identity project includeArchived) app = true ∧
      canAccessApplication identity (loaded s app) = true) ↔
      canAccessApplication identity (loaded s app) = true ∧
        (∀ p, project = some p → s.linked app.id p = true) ∧
        (includeArchived = true ∨ app.archivedAt = none) := by
  rw [and_comm]
  refine and_congr_right fun haccess => ?_
  have hproject : (project.all fun p => s.linkedTo [p] app) = true ↔
      ∀ p, project = some p → s.linked app.id p = true := by
    cases project with
    | none => simp
    | some p =>
      rw [all_some, linkedTo_iff]
      simp
  have harchived : (includeArchived || app.archivedAt.isNone) = true ↔
      (includeArchived = true ∨ app.archivedAt = none) := by
    rw [Bool.or_eq_true, isNone_iff_eq_none]
  rw [CatalogStore.selects, Bool.and_eq_true, Bool.and_eq_true, Bool.and_eq_true]
  simp only [listQuery]
  rw [hproject, harchived]
  cases hunscoped : identity.isUnscoped with
  | true => simp
  | false =>
    simp only [Bool.false_eq_true, if_false, all_some]
    rw [applicationScopeFilter_eq hunscoped, haccess, visible_of_canAccess hunscoped haccess]
    simp

theorem pages_listed (hkeyed : Keyed s) (order : LinearOrder String) (project : Option String)
    (includeArchived : Bool) {limit n : Nat} (hn : s.applications.length ≤ n * limit)
    {pages : Nat → List Application}
    (hpages : ∀ k, s.IsPage order (listQuery identity project includeArchived) limit (k * limit)
      (pages k)) :
    let listed := ((range n).map pages).flatten.filter fun app =>
      canAccessApplication identity (loaded s app)
    listed.Nodup ∧ ∀ app, app ∈ listed ↔ Listed s identity project includeArchived app := by
  have hnames : ((s.applications.filter
      (s.selects (listQuery identity project includeArchived))).map Application.name).Nodup :=
    hkeyed.names.sublist (filter_sublist.map _)
  rcases hpages 0 with ⟨rows, hrows, hordered, _⟩
  have hsame : ∀ k, pages k = (rows.drop (k * limit)).take limit := by
    intro k
    rcases hpages k with ⟨others, hothers, hordered', hpage⟩
    rw [hpage, ordered_unique hnames hothers hrows hordered' hordered]
  have hall : ((range n).map pages).flatten = rows := by
    rw [show pages = fun k => (rows.drop (k * limit)).take limit from funext hsame, flatten_pages]
    refine take_of_length_le ?_
    rw [hrows.length_eq]
    exact (length_filter_le _ _).trans hn
  simp only []
  rw [hall]
  refine ⟨?_, fun app => ?_⟩
  · have happs : s.applications.Nodup := Nodup.of_map _ hkeyed.ids
    exact (hrows.nodup_iff.mpr (happs.filter _)).filter _
  · rw [mem_filter, hrows.mem_iff, mem_filter, and_assoc, selects_iff]
    exact Iff.rfl

end Pages

end Apex.Routers.Catalog
