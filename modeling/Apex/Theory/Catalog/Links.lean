import Apex.Routers.Catalog

/-!
# What A Transaction Does To The Links

Every transaction keeps the keys of the tables: ids, names and links are unique, and a link
belongs to an application. A write of links against the links that were loaded leaves exactly the
wanted ones, provided that they are the ones that are there.

## Main definitions

* `Keyed`: The keys are unique.
* `LinksAre`: The projects an application is linked to.

## Theorems

* `commits_cases`: A transaction is made or not.
* `inserted_spec`, `updated_spec`, `archived_spec`, `deleted_spec`: What the transactions do.
-/

namespace Apex.Persistence.Catalog

open List Option Function

open Services (Instant)
open CatalogStore (projectIds find relinked inserted updated archived deleted)

structure Keyed (s : CatalogStore) : Prop where
  ids : (s.applications.map Application.id).Nodup
  names : (s.applications.map Application.name).Nodup
  links : s.links.Nodup
  owned : ∀ link ∈ s.links, ∃ app ∈ s.applications, app.id = link.applicationId

variable {s s' : CatalogStore} {id : String} {f : Application → Application}
  {projectIds loaded wanted : List String} {app : LoadedApplication}

theorem linked_iff {projectId : String} :
    s.linked id projectId = true ↔ (⟨projectId, id⟩ : ProjectApplication) ∈ s.links :=
  contains_iff_mem

theorem mem_projectIds {projectId : String} :
    projectId ∈ s.projectIds id ↔ s.linked id projectId = true := by
  rw [linked_iff, projectIds, mem_insertionSort, List.mem_map]
  constructor
  · rintro ⟨link, hlink, rfl⟩
    rcases mem_filter.mp hlink with ⟨hmem, hid⟩
    rw [← beq_iff_eq.mp hid]
    exact hmem
  · intro hmem
    exact ⟨_, mem_filter.mpr ⟨hmem, beq_self_eq_true id⟩, rfl⟩

theorem Keyed.projectIds_nodup (h : Keyed s) (id : String) :
    (s.projectIds id).Nodup := by
  refine (perm_insertionSort _ _).nodup_iff.mpr ?_
  refine (h.links.filter _).map_on fun a ha b hb hsame => ?_
  have ha' := beq_iff_eq.mp (mem_filter.mp ha).2
  have hb' := beq_iff_eq.mp (mem_filter.mp hb).2
  rcases a with ⟨pa, ia⟩
  rcases b with ⟨pb, ib⟩
  exact congr (congrArg ProjectApplication.mk hsame) (ha'.trans hb'.symm)

theorem find_isSome :
    (s.find id).isSome = true ↔ ∃ app ∈ s.applications, app.id = id := by
  rw [find, find?_isSome]
  exact exists_congr fun app => and_congr_right fun _ => beq_iff_eq

theorem Keyed.find_mem (h : Keyed s) {app : Application}
    (hmem : app ∈ s.applications) : s.find app.id = some app := by
  have hsome : (s.find app.id).isSome = true := find_isSome.mpr ⟨app, hmem, rfl⟩
  rcases isSome_iff_exists.mp hsome with ⟨found, hfound⟩
  have hid : found.id = app.id := by
    rw [find] at hfound
    have hfits := find?_some hfound
    exact beq_iff_eq.mp hfits
  have hsame := inj_on_of_nodup_map h.ids (mem_of_find?_eq_some hfound) hmem hid
  rw [hfound, hsame]

theorem Keyed.not_linked (h : Keyed s) (hnone : (s.find id).isSome ≠ true)
    (projectId : String) : s.linked id projectId = false := by
  rw [Bool.eq_false_iff]
  intro hlinked
  rcases h.owned _ (linked_iff.mp hlinked) with ⟨app, happ, hid⟩
  exact hnone (find_isSome.mpr ⟨app, happ, hid⟩)

theorem commits_cases {result : Except WriteError CatalogStore} {answer : Except WriteError Unit}
    (h : commits s result answer s') :
    s' = s ∨ result = .ok s' := by
  rcases h with ⟨_, hok⟩ | ⟨_, _, _, hsame⟩ | ⟨_, hsame | hok⟩
  · exact Or.inr hok
  · exact Or.inl hsame
  · exact Or.inl hsame
  · exact Or.inr hok

theorem rewritten_ids (hf : ∀ app, (f app).id = app.id) (applications : List Application)
    (id : String) :
    (rewritten applications id f).map Application.id = applications.map Application.id := by
  rw [rewritten, List.map_map]
  refine map_congr_left fun app _ => ?_
  rw [comp_apply]
  split
  · exact hf app
  · rfl

theorem find_rewritten (hf : ∀ app, (f app).id = app.id) (s : CatalogStore)
    (links : List ProjectApplication) (id other : String) :
    (CatalogStore.mk (rewritten s.applications id f) links).find other =
      (s.find other).map fun app => if app.id == id then f app else app := by
  rw [find, find, rewritten, find?_map]
  refine congrArg (Option.map _) (congrArg (fun p => find? p s.applications) ?_)
  funext app
  rw [comp_apply]
  split
  · rw [hf]
  · rfl

theorem owned_rewritten (hf : ∀ app, (f app).id = app.id) (id : String) {applicationId : String}
    (h : ∃ app ∈ s.applications, app.id = applicationId) :
    ∃ app ∈ rewritten s.applications id f, app.id = applicationId := by
  have hmem : applicationId ∈ s.applications.map Application.id := List.mem_map.mpr h
  rw [← rewritten_ids hf s.applications id] at hmem
  exact List.mem_map.mp hmem

/-- After a step, an application is linked to some projects, and the links of the others are the
    same. -/
structure LinksAre (s s' : CatalogStore) (id : String) (wanted : List String) : Prop where
  wanted : ∀ projectId, s'.linked id projectId = true ↔ projectId ∈ wanted
  others : ∀ other projectId, other ≠ id → s'.linked other projectId = s.linked other projectId

theorem mem_linksTo {link : ProjectApplication} :
    link ∈ linksTo id projectIds ↔ link.applicationId = id ∧ link.projectId ∈ projectIds := by
  rw [linksTo, List.mem_map]
  constructor
  · rintro ⟨projectId, hmem, rfl⟩
    exact ⟨rfl, hmem⟩
  · rintro ⟨rfl, hmem⟩
    exact ⟨link.projectId, hmem, rfl⟩

theorem nodup_linksTo (h : projectIds.Nodup) :
    (linksTo id projectIds).Nodup :=
  h.map fun _ _ hsame => congrArg ProjectApplication.projectId hsame

theorem mem_added {p : String} :
    p ∈ added loaded wanted ↔ p ∈ wanted ∧ p ∉ loaded := by
  rw [added, mem_filter, Bool.not_eq_true', contains_eq_mem, decide_eq_false_iff_not]

theorem mem_removed {p : String} :
    p ∈ removed loaded wanted ↔ p ∈ loaded ∧ p ∉ wanted := by
  rw [removed, mem_filter, Bool.not_eq_true', contains_eq_mem, decide_eq_false_iff_not]

theorem relinked_mem {links : List ProjectApplication} (h : s.relinked id loaded wanted = .ok links)
    (link : ProjectApplication) :
    link ∈ links ↔ (link ∈ s.links ∧ ¬ (link.applicationId = id ∧
      link.projectId ∈ removed loaded wanted)) ∨
        (link.applicationId = id ∧ link.projectId ∈ added loaded wanted) := by
  rw [relinked, ite_error_ok] at h
  rw [← Except.ok.inj h.2, mem_append, mem_linksTo, mem_filter, Bool.not_eq_true',
    Bool.and_eq_false_iff, not_and_or, contains_eq_mem, beq_eq_false_iff_ne,
    decide_eq_false_iff_not]

theorem relinked_nodup {links : List ProjectApplication}
    (h : s.relinked id loaded wanted = .ok links) (hlinks : s.links.Nodup)
    (hwanted : wanted.Nodup) : links.Nodup := by
  rw [relinked, ite_error_ok] at h
  rw [← Except.ok.inj h.2]
  refine (hlinks.filter _).append (nodup_linksTo (hwanted.filter _)) ?_
  intro link hold hnew
  rcases mem_linksTo.mp hnew with ⟨rfl, hadded⟩
  refine h.1 (List.any_eq_true.mpr ⟨link.projectId, hadded, linked_iff.mpr ?_⟩)
  exact (mem_filter.mp hold).1

theorem relinked_linksAre
    (h : s.relinked id (s.projectIds id) wanted = .ok s'.links) : LinksAre s s' id wanted := by
  constructor
  · intro projectId
    rw [linked_iff, relinked_mem h, mem_removed, mem_added, mem_projectIds, linked_iff]
    by_cases hlinked : (⟨projectId, id⟩ : ProjectApplication) ∈ s.links
    · simp [hlinked]
    · simp [hlinked]
  · intro other projectId hother
    rw [Bool.eq_iff_iff, linked_iff, linked_iff, relinked_mem h]
    simp [hother]

theorem inserted_spec {app : Application} (hkeyed : Keyed s) (hnodup : projectIds.Nodup)
    (h : s.inserted app projectIds = .ok s') :
    Keyed s' ∧ LinksAre s s' app.id projectIds ∧ (s.find app.id).isSome ≠ true ∧
      s'.applications = s.applications ++ [app] := by
  rw [inserted, ite_error_ok, ite_error_ok] at h
  rcases h with ⟨hnew, hname, hs'⟩
  have hs' := (Except.ok.inj hs').symm
  subst hs'
  have hunlinked : ∀ link ∈ s.links, link.applicationId ≠ app.id := by
    intro link hlink hid
    rcases hkeyed.owned link hlink with ⟨other, hother, hsame⟩
    exact hnew (find_isSome.mpr ⟨other, hother, hsame.trans hid⟩)
  refine ⟨⟨?_, ?_, ?_, ?_⟩, ⟨?_, ?_⟩, hnew, rfl⟩
  · rw [map_append, nodup_append]
    refine ⟨hkeyed.ids, nodup_singleton _, fun id hid other hother heq => hnew ?_⟩
    rcases List.mem_map.mp hid with ⟨old, hold, rfl⟩
    exact find_isSome.mpr ⟨old, hold, heq.trans (mem_singleton.mp hother)⟩
  · rw [map_append, nodup_append]
    refine ⟨hkeyed.names, nodup_singleton _, fun name hname' other hother heq => hname ?_⟩
    rcases List.mem_map.mp hname' with ⟨old, hold, rfl⟩
    exact List.any_eq_true.mpr ⟨old, hold, beq_iff_eq.mpr (heq.trans (mem_singleton.mp hother))⟩
  · refine hkeyed.links.append (nodup_linksTo hnodup) fun link hold hadded => ?_
    exact hunlinked link hold (mem_linksTo.mp hadded).1
  · intro link hlink
    rcases mem_append.mp hlink with hold | hadded
    · rcases hkeyed.owned link hold with ⟨other, hother, hsame⟩
      exact ⟨other, mem_append_left _ hother, hsame⟩
    · exact ⟨app, mem_append_right _ (mem_singleton_self app), (mem_linksTo.mp hadded).1.symm⟩
  · intro projectId
    rw [linked_iff, mem_append, mem_linksTo]
    constructor
    · rintro (hold | hadded)
      · exact absurd rfl (hunlinked _ hold)
      · exact hadded.2
    · exact fun hwanted => Or.inr ⟨rfl, hwanted⟩
  · intro other projectId hother
    rw [Bool.eq_iff_iff, linked_iff, linked_iff, mem_append, mem_linksTo]
    exact or_iff_left fun hadded => hother hadded.1

theorem write_id (fields : ApplicationFields) (loaded row : Application) :
    (fields.write loaded row).id = row.id := rfl

theorem updated_spec {fields : ApplicationFields} {wanted : Option (List String)} (hkeyed : Keyed s)
    (hnodup : ∀ projectIds, wanted = some projectIds → projectIds.Nodup)
    (h : s.updated app fields wanted = .ok s') :
    Keyed s' ∧ (s.find app.row.id).isSome = true ∧
      s'.applications = rewritten s.applications app.row.id (fields.write app.row) ∧
        (wanted = none → s'.links = s.links) ∧
          ∀ projectIds, wanted = some projectIds →
            s.relinked app.row.id app.projectIds projectIds = .ok s'.links := by
  simp only [updated, ite_error_ok] at h
  rcases h with ⟨hfound, hnames, hwrite⟩
  have hfound : (s.find app.row.id).isSome = true := by
    cases hfind : s.find app.row.id with
    | none => exact absurd (by rw [hfind]; rfl) hfound
    | some _ => rfl
  have hnames : ((rewritten s.applications app.row.id (fields.write app.row)).map
      Application.name).Nodup := by
    simpa using hnames
  have hids := rewritten_ids (write_id fields app.row) s.applications app.row.id
  cases wanted with
  | none =>
    rw [← Except.ok.inj hwrite]
    exact ⟨⟨hids ▸ hkeyed.ids, hnames, hkeyed.links, fun link hlink =>
      owned_rewritten (write_id fields app.row) _ (hkeyed.owned link hlink)⟩, hfound, rfl,
      fun _ => rfl, fun _ hsome => nomatch hsome⟩
  | some wanted =>
    rcases bind_ok.mp hwrite with ⟨links, hlinks, hs'⟩
    rw [← Except.ok.inj hs']
    refine ⟨⟨hids ▸ hkeyed.ids, hnames, relinked_nodup hlinks hkeyed.links (hnodup wanted rfl),
      fun link hlink => ?_⟩, hfound, rfl, (fun hnone => nomatch hnone),
      fun projectIds hsome => some.inj hsome ▸ hlinks⟩
    refine owned_rewritten (write_id fields app.row) _ ?_
    rcases (relinked_mem hlinks link).mp hlink with hold | hadded
    · exact hkeyed.owned link hold.1
    · rcases find_isSome.mp hfound with ⟨row, hrow, hid⟩
      exact ⟨row, hrow, hid.trans hadded.1.symm⟩

theorem archivedRow_id (loaded : Application) (archivedAt : Option Instant) (row : Application) :
    (archivedRow loaded archivedAt row).id = row.id := rfl

theorem rewritten_names (hf : ∀ app, (f app).name = app.name) (applications : List Application)
    (id : String) :
    (rewritten applications id f).map Application.name = applications.map Application.name := by
  rw [rewritten, List.map_map]
  refine map_congr_left fun app _ => ?_
  rw [comp_apply]
  split
  · exact hf app
  · rfl

theorem archived_spec {archivedAt : Option Instant} (hkeyed : Keyed s)
    (h : s.archived app archivedAt = .ok s') :
    Keyed s' ∧ s'.links = s.links ∧
      s'.applications = rewritten s.applications app.row.id (archivedRow app.row archivedAt) := by
  rw [archived, ite_error_ok] at h
  rw [← Except.ok.inj h.2]
  refine ⟨⟨?_, ?_, hkeyed.links, fun link hlink =>
    owned_rewritten (archivedRow_id app.row archivedAt) _ (hkeyed.owned link hlink)⟩, rfl, rfl⟩
  · rw [rewritten_ids (archivedRow_id app.row archivedAt)]
    exact hkeyed.ids
  · rw [rewritten_names (f := archivedRow app.row archivedAt) fun _ => rfl]
    exact hkeyed.names

theorem deleted_spec (hkeyed : Keyed s) :
    Keyed (s.deleted app) ∧
      ∀ other projectId, other ≠ app.row.id →
        (s.deleted app).linked other projectId = s.linked other projectId := by
  refine ⟨⟨hkeyed.ids.sublist (filter_sublist.map _),
    hkeyed.names.sublist (filter_sublist.map _), hkeyed.links.filter _, ?_⟩, ?_⟩
  · intro link hlink
    rcases mem_filter.mp hlink with ⟨hmem, hid⟩
    rcases hkeyed.owned link hmem with ⟨row, hrow, hsame⟩
    exact ⟨row, mem_filter.mpr ⟨hrow, hsame ▸ hid⟩, hsame⟩
  · intro other projectId hother
    rw [Bool.eq_iff_iff, linked_iff, linked_iff, deleted, mem_filter]
    exact and_iff_left (bne_iff_ne.mpr hother)

end Apex.Persistence.Catalog
