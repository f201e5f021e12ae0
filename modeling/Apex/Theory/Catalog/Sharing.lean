import Apex.Core.Growth
import Apex.Core.Talk
import Apex.Theory.Catalog.Listing

/-!
# Sharing Applications Among Projects

Requests of any identities read an application and then write what differs from what they
read. A transaction does not look at the links again, so two requests that each unlink
what the other keeps leave an application without any.

As long as every write of links, and every archiving and deletion, is made on the links
that were read, an application keeps between one and sixty-four of them, whoever changed
one had the whole project, and whoever archived or deleted had access through all.

## Main definitions

* `permits`: What the transactions of an identity's requests are.
* `Current`: A transaction is made on the links that were read.

## Theorems

* `handleCatalog_uses`: The requests of a handler.
* `responds_shared`: What one answer does.
-/

namespace Apex.Routers.Catalog

open List Option
open Auth Persistence.Catalog

open Services (Instant)

structure Linkable (projectIds : List String) : Prop where
  nodup : projectIds.Nodup
  nonempty : 1 ≤ projectIds.length
  few : projectIds.length ≤ 64

def Trimmed (projectId : String) : Prop := strip projectId = projectId

def Wide (identity : ConsumerIdentity) (projectId : String) : Prop :=
  projectWideScope identity projectId = .ok true

/-- The identity has access through some projects. -/
def Everywhere (identity : ConsumerIdentity) (id : String) (projectIds : List String) : Prop :=
  ∀ p ∈ projectIds, identity.allowsApp p (some id) = true

/-- The requests that may be made for an identity. -/
def permits (identity : ConsumerIdentity) : CatalogReq → Prop
  | .insert _ projectIds => Linkable projectIds ∧
      ∀ p ∈ projectIds, Wide identity p ∧ Trimmed p
  | .update _ _ none => True
  | .update app _ (some wanted) => Linkable wanted ∧
      (∀ p, p ∈ added app.projectIds wanted ∨ p ∈ removed app.projectIds wanted →
        Wide identity p) ∧ ∀ p ∈ added app.projectIds wanted, Trimmed p
  | .setArchived app _ => Everywhere identity app.row.id app.projectIds
  | .delete app => Everywhere identity app.row.id app.projectIds
  | _ => True

section Requests

variable {env : CatalogEnv} {identity : ConsumerIdentity}

theorem allProjectWide_ok : ∀ {projectIds : List String}, allProjectWide identity projectIds = .ok true →
    ∀ p ∈ projectIds, Wide identity p
  | [], _, p, hp => absurd hp not_mem_nil
  | q :: qs, h, p, hp => by
    rw [allProjectWide, bind_ok] at h
    rcases h with ⟨wide, hq, hrest⟩
    cases wide with
    | false => exact nomatch hrest
    | true =>
      rcases mem_cons.mp hp with rfl | hmem
      · exact hq
      · exact allProjectWide_ok hrest p hmem

theorem requireProjectWide_uses {α : Type} {projectIds : List String} {action : String}
    {f : Unit → CatalogM α}
    (hf : (∀ p ∈ projectIds, Wide identity p) → (f ()).run.uses (permits identity)) :
    (requireProjectWide identity projectIds action >>= f).run.uses (permits identity) := by
  rw [requireProjectWide]
  cases hwide : allProjectWide identity projectIds with
  | error e => exact trivial
  | ok wide =>
    cases wide with
    | false => exact trivial
    | true => exact hf (allProjectWide_ok hwide)

theorem raiseWhen_then_uses {α : Type} {bad : Bool} {e : CatalogError} {f : Unit → CatalogM α}
    (hf : bad = false → (f ()).run.uses (permits identity)) :
    (Action.raiseWhen bad e >>= f).run.uses (permits identity) := by
  cases bad with
  | true => exact trivial
  | false => exact hf rfl

theorem settle_then_uses {α β : Type} {x : Except CatalogError α} {f : α → CatalogM β}
    (hf : ∀ a, x = .ok a → (f a).run.uses (permits identity)) :
    (Action.settle x >>= f).run.uses (permits identity) := by
  cases x with
  | error e => exact trivial
  | ok a => exact hf a rfl

variable {id p : String}

theorem getApplication_uses {α : Type} {f : Option LoadedApplication → CatalogM α}
    (hf : ∀ app, (f app).run.uses (permits identity)) :
    (getApplication id >>= f).run.uses (permits identity) := by
  refine Action.bind_uses (Action.ask_uses trivial fun row => ?_) hf
  cases row with
  | none => exact trivial
  | some row => exact Action.ask_uses trivial fun _ => trivial

theorem accessibleApplication_uses {α : Type} {f : LoadedApplication → CatalogM α}
    (hf : ∀ app, (f app).run.uses (permits identity)) :
    (accessibleApplication identity id >>= f).run.uses (permits identity) := by
  refine Action.bind_uses (getApplication_uses fun app => ?_) hf
  cases app with
  | none => exact trivial
  | some app => exact raiseWhen_then_uses fun _ => trivial

theorem refreshed_uses {answer : Except WriteError Unit} :
    (refreshed identity id answer).run.uses (permits identity) := by
  rcases answer with (_ | _ | _ | _) | _
  · exact trivial
  · exact trivial
  · exact trivial
  · exact trivial
  · refine getApplication_uses fun app => ?_
    cases app with
    | none => exact trivial
    | some app => exact trivial

theorem mem_sortedSet {values : List String} : p ∈ sortedSet values ↔ p ∈ values := by
  rw [sortedSet, mem_insertionSort, mem_dedup]

theorem sortedSet_nodup (values : List String) : (sortedSet values).Nodup :=
  (perm_insertionSort _ _).nodup_iff.mpr (nodup_dedup values)

theorem validProjectIds_linkable {values projects : List String}
    (h : validProjectIds env values = .ok projects) :
    Linkable projects ∧ ∀ p, p ∈ projects ↔ p ∈ values := by
  rw [validProjectIds, bind_ok] at h
  rcases h with ⟨_, hsize, hrest⟩
  rw [bind_ok] at hrest
  rcases hrest with ⟨_, _, hprojects⟩
  rw [raiseIf_ok, Bool.or_eq_false_iff, decide_eq_false_iff_not] at hsize
  rw [← Except.ok.inj hprojects]
  refine ⟨⟨sortedSet_nodup values, ?_, ?_⟩, fun p => mem_sortedSet⟩
  · rcases isEmpty_eq_false_iff_exists_mem.mp hsize.1 with ⟨p, hp⟩
    exact length_pos_of_mem (mem_sortedSet.mpr hp)
  · have hle : (sortedSet values).length ≤ values.length := by
      rw [sortedSet, length_insertionSort]
      exact (dedup_sublist values).length_le
    omega

theorem trimmed_value {projectIds : List ScopeId}
    (hp : p ∈ projectIds.map ScopeId.value) : Trimmed p := by
  rcases List.mem_map.mp hp with ⟨id, _, rfl⟩
  exact id.canonical.trimmed

theorem named_of_wanted {app : LoadedApplication} {named : List String}
    (hp : p ∈ wantedProjects identity app named) (hnew : p ∉ app.projectIds) : p ∈ named := by
  rw [wantedProjects] at hp
  split at hp
  · exact hp
  · rcases mem_append.mp (mem_sortedSet.mp hp) with hnamed | hhidden
    · exact hnamed
    · exact absurd (mem_filter.mp hhidden).1 hnew

theorem preparedLinks_uses {app : LoadedApplication} {fields : ApplicationFields}
    {projectIds : Option (List ScopeId)} :
    (preparedLinks env identity app projectIds >>= fun wanted =>
      askUpdate app fields wanted >>= refreshed identity id).run.uses (permits identity) := by
  cases projectIds with
  | none => exact ⟨trivial, fun answer => refreshed_uses⟩
  | some projectIds =>
    -- Everything before the transaction is settled without asking.
    simp only [preparedLinks, requireProjectWide]
    generalize hwanted : wantedProjects identity app (projectIds.map ScopeId.value) = wanted
    cases hwide : allProjectWide identity (changedProjects app wanted) with
    | error e => exact trivial
    | ok wide =>
      cases wide with
      | false => exact trivial
      | true =>
        cases hvalid : validProjectIds env wanted with
        | error e => exact trivial
        | ok projects =>
          rcases validProjectIds_linkable hvalid with ⟨hlinkable, hmem⟩
          refine ⟨⟨hlinkable, fun p hp => allProjectWide_ok hwide p ?_, fun p hp => ?_⟩,
            fun answer => refreshed_uses⟩
          · rw [mem_added, mem_removed, hmem] at hp
            rwa [changedProjects, mem_sortedSet, mem_append, mem_added, mem_removed]
          · rcases mem_added.mp hp with ⟨hwanted', hnew⟩
            rw [hmem, ← hwanted] at hwanted'
            exact trimmed_value (named_of_wanted hwanted' hnew)

theorem archivingTime_uses {α : Type} {archived : Bool} {f : Option Instant → CatalogM α}
    (hf : ∀ archivedAt, (f archivedAt).run.uses (permits identity)) :
    (archivingTime archived >>= f).run.uses (permits identity) := by
  cases archived with
  | false => exact hf none
  | true => exact ⟨trivial, fun now => hf (some now)⟩

theorem setApplicationArchived_uses (id : String) (archived : Bool) :
    (setApplicationArchived identity id archived).run.uses (permits identity) := by
  refine raiseWhen_then_uses fun _ => accessibleApplication_uses fun app => ?_
  refine raiseWhen_then_uses fun heverywhere => archivingTime_uses fun archivedAt => ?_
  rw [Bool.not_eq_false'] at heverywhere
  exact ⟨List.all_eq_true.mp heverywhere, fun answer => refreshed_uses⟩

theorem handleCatalog_uses (request : CatalogRequest) :
    (handleCatalog env identity request).run.uses (permits identity) := by
  cases request with
  | create body =>
    refine raiseWhen_then_uses fun _ => raiseWhen_then_uses fun _ => ?_
    refine requireProjectWide_uses fun hwide => settle_then_uses fun projects hvalid => ?_
    rcases validProjectIds_linkable hvalid with ⟨hlinkable, hmem⟩
    exact ⟨trivial, fun id => ⟨⟨hlinkable, fun p hp =>
      ⟨hwide p ((hmem p).mp hp), trimmed_value ((hmem p).mp hp)⟩⟩,
      fun answer => refreshed_uses⟩⟩
  | update id body =>
    refine raiseWhen_then_uses fun _ => raiseWhen_then_uses fun _ => ?_
    exact accessibleApplication_uses fun app => preparedLinks_uses
  | archive id => exact setApplicationArchived_uses id true
  | unarchive id => exact setApplicationArchived_uses id false
  | delete id =>
    refine raiseWhen_then_uses fun _ => accessibleApplication_uses fun app => ?_
    refine raiseWhen_then_uses fun heverywhere => ?_
    rw [Bool.not_eq_false'] at heverywhere
    refine ⟨List.all_eq_true.mp heverywhere, fun answer => ?_⟩
    rcases answer with (_ | _ | _ | _) | _
    · exact trivial
    · exact trivial
    · exact trivial
    · exact trivial
    · exact trivial

end Requests

def Current (s : CatalogStore) : CatalogReq → Prop
  | .update app _ (some _) => s.projectIds app.row.id = app.projectIds
  | .setArchived app _ => s.projectIds app.row.id = app.projectIds
  | .delete app => s.projectIds app.row.id = app.projectIds
  | _ => True

/-- The application that is archived, unarchived or deleted. -/
def ActsOn : CatalogReq → LoadedApplication → Prop
  | .setArchived app _, other => other = app
  | .delete app, other => other = app
  | _, _ => False

/-- The tables as they are kept: every application has its links. -/
structure Sound (s : CatalogStore) : Prop where
  keyed : Keyed s
  trimmed : ∀ id p, s.linked id p = true → Trimmed p
  shared : ∀ app ∈ s.applications,
    1 ≤ (s.projectIds app.id).length ∧ (s.projectIds app.id).length ≤ 64

/-- What a step does is authorised.

    * `links`: A link of an application that is there was changed by who has the whole project.
    * `hidden`: A link the caller cannot see is as it was.
    * `changed`: What was archived, unarchived or deleted was accessible through every project. -/
structure Authorised (identity : ConsumerIdentity) (s s' : CatalogStore) : Prop where
  links : ∀ id p, (s'.find id).isSome = true → s'.linked id p ≠ s.linked id p → Wide identity p
  hidden : ∀ id p, (s'.find id).isSome = true → identity.isUnscoped = false →
    p ∉ identity.scopedProjectIds → s'.linked id p = s.linked id p
  changed : ∀ app ∈ s.applications,
    (s'.find app.id).map Application.archivedAt ≠ some app.archivedAt →
      Everywhere identity app.id (s.projectIds app.id)

section Steps

variable {identity : ConsumerIdentity} {s s' : CatalogStore}

theorem Wide.visible {p : String} (h : Wide identity p) (htrimmed : Trimmed p)
    (hscoped : identity.isUnscoped = false) : p ∈ identity.scopedProjectIds := by
  rw [Wide, projectWideScope, bind_ok] at h
  rcases h with ⟨scope, hscope, hcontains⟩
  have hproject : scope.projectId.value = p ∧ scope.appId = none := by
    simp only [scopeRef?, scopeId?] at hscope
    split at hscope
    · rw [← Except.ok.inj hscope]
      exact ⟨htrimmed, rfl⟩
    · cases hscope
  have hown := Except.ok.inj hcontains
  simp only [ConsumerIdentity.containsScope, hscoped, Bool.false_or, hproject.2] at hown
  rcases List.any_eq_true.mp hown with ⟨own, hmem, hfits⟩
  rw [ConsumerIdentity.scopedProjectIds, mem_eraseDups]
  refine List.mem_map.mpr ⟨own, hmem, ?_⟩
  rw [← hproject.1, beq_iff_eq.mp (Bool.and_eq_true_iff.mp hfits).1]

variable {id : String}

theorem length_projectIds (hkeyed : Keyed s) (hkeyed' : Keyed s')
    (h : ∀ p, s'.linked id p = s.linked id p) :
    (s'.projectIds id).length = (s.projectIds id).length := by
  refine ((perm_ext_iff_of_nodup (hkeyed'.projectIds_nodup id)
    (hkeyed.projectIds_nodup id)).mpr fun p => ?_).length_eq
  rw [mem_projectIds, mem_projectIds, h]

theorem length_wanted {wanted : List String} (hkeyed' : Keyed s') (hnodup : wanted.Nodup)
    (h : LinksAre s s' id wanted) :
    (s'.projectIds id).length = wanted.length := by
  refine ((perm_ext_iff_of_nodup (hkeyed'.projectIds_nodup id) hnodup).mpr fun p => ?_).length_eq
  rw [mem_projectIds, h.wanted]

theorem authorised_of_links
    (hwide : ∀ id p, (s'.find id).isSome = true → s'.linked id p ≠ s.linked id p →
      Wide identity p ∧ Trimmed p)
    (hchanged : ∀ app ∈ s.applications,
      (s'.find app.id).map Application.archivedAt ≠ some app.archivedAt →
        Everywhere identity app.id (s.projectIds app.id)) :
    Authorised identity s s' := by
  refine ⟨fun id p hsome hne => (hwide id p hsome hne).1, fun id p hsome hscoped hhidden => ?_,
    hchanged⟩
  by_contra hne
  rcases hwide id p hsome hne with ⟨hp, htrimmed⟩
  exact hhidden (hp.visible htrimmed hscoped)

theorem sound_of_linksAre {wanted : List String} (hsound : Sound s) (hkeyed' : Keyed s')
    (hlinkable : Linkable wanted) (h : LinksAre s s' id wanted) (htrimmed : ∀ p ∈ wanted, Trimmed p)
    (hids : ∀ app ∈ s'.applications, app.id ≠ id → ∃ old ∈ s.applications, old.id = app.id) :
    Sound s' := by
  refine ⟨hkeyed', fun other p hlinked => ?_, fun app happ => ?_⟩
  · by_cases hsame : other = id
    · rw [hsame, h.wanted] at hlinked
      exact htrimmed p hlinked
    · rw [h.others other p hsame] at hlinked
      exact hsound.trimmed other p hlinked
  · by_cases hsame : app.id = id
    · rw [hsame, length_wanted hkeyed' hlinkable.nodup h]
      exact ⟨hlinkable.nonempty, hlinkable.few⟩
    · rw [length_projectIds hsound.keyed hkeyed' fun p => h.others app.id p hsame]
      rcases hids app happ hsame with ⟨old, hold, heq⟩
      rw [← heq]
      exact hsound.shared old hold

theorem sound_of_linked (hsound : Sound s) (hkeyed' : Keyed s')
    (h : ∀ app ∈ s'.applications, (∃ old ∈ s.applications, old.id = app.id) ∧
      ∀ p, s'.linked app.id p = s.linked app.id p) : Sound s' := by
  refine ⟨hkeyed', fun id p hlinked => ?_, fun app happ => ?_⟩
  · rcases hkeyed'.owned _ (linked_iff.mp hlinked) with ⟨app, happ, hid⟩
    have hid : app.id = id := hid
    rw [← hid, (h app happ).2 p] at hlinked
    exact hsound.trimmed app.id p hlinked
  · rcases h app happ with ⟨⟨old, hold, heq⟩, hsame⟩
    rw [length_projectIds hsound.keyed hkeyed' hsame, ← heq]
    exact hsound.shared old hold

theorem authorised_refl (hsound : Sound s) : Authorised identity s s := by
  refine authorised_of_links (fun id p _ hne => absurd rfl hne) fun app happ hne => ?_
  rw [hsound.keyed.find_mem happ] at hne
  exact absurd rfl hne

theorem inserted_shared {app : Application} {projectIds : List String} (hsound : Sound s)
    (hpermits : permits identity (.insert app projectIds))
    (h : s.inserted app projectIds = .ok s') : Sound s' ∧ Authorised identity s s' := by
  rcases hpermits with ⟨hlinkable, hwide⟩
  rcases inserted_spec hsound.keyed hlinkable.nodup h with ⟨hkeyed', hlinks, hnew, happs⟩
  refine ⟨sound_of_linksAre hsound hkeyed' hlinkable hlinks (fun p hp => (hwide p hp).2) ?_,
    authorised_of_links (fun id p _ hne => ?_) fun old hold hne => ?_⟩
  · intro other hother hne
    rw [happs] at hother
    rcases mem_append.mp hother with hold | hadded
    · exact ⟨other, hold, rfl⟩
    · exact absurd (congrArg Application.id (mem_singleton.mp hadded)) hne
  · by_cases hsame : id = app.id
    · rw [hsame, hsound.keyed.not_linked hnew, Bool.ne_false_iff, hlinks.wanted] at hne
      exact hwide p hne
    · exact absurd (hlinks.others id p hsame) hne
  · have hmem : old ∈ s'.applications := happs ▸ mem_append_left _ hold
    rw [hkeyed'.find_mem hmem] at hne
    exact absurd rfl hne

theorem find_of_rewritten {f : Application → Application} (hf : ∀ app, (f app).id = app.id)
    (happs : s'.applications = rewritten s.applications id f) (other : String) :
    s'.find other = (s.find other).map fun app => if app.id == id then f app else app := by
  rw [← find_rewritten hf s s'.links id other, ← happs]

theorem mem_of_rewritten {f : Application → Application} (hf : ∀ app, (f app).id = app.id)
    {id : String} (happs : s'.applications = rewritten s.applications id f) {app : Application}
    (happ : app ∈ s'.applications) : ∃ old ∈ s.applications, old.id = app.id := by
  have hid : app.id ∈ s'.applications.map Application.id := List.mem_map_of_mem happ
  rw [happs, rewritten_ids hf] at hid
  exact List.mem_map.mp hid

variable {app : LoadedApplication}

theorem updated_shared {fields : ApplicationFields} {wanted : Option (List String)}
    (hsound : Sound s) (hpermits : permits identity (.update app fields wanted))
    (hcurrent : Current s (.update app fields wanted))
    (h : s.updated app fields wanted = .ok s') : Sound s' ∧ Authorised identity s s' := by
  have hnodup : ∀ projectIds, wanted = some projectIds → projectIds.Nodup := by
    intro projectIds hwanted
    subst hwanted
    exact hpermits.1.nodup
  rcases updated_spec hsound.keyed hnodup h with ⟨hkeyed', _, happs, hnone, hsome⟩
  have hids := fun other => @mem_of_rewritten s s' _ (write_id fields app.row) _ happs other
  have hchanged : ∀ old ∈ s.applications,
      (s'.find old.id).map Application.archivedAt ≠ some old.archivedAt →
        Everywhere identity old.id (s.projectIds old.id) := by
    intro old hold hne
    rw [find_of_rewritten (write_id fields app.row) happs, hsound.keyed.find_mem hold,
      map_some, map_some] at hne
    split at hne
    · exact absurd rfl hne
    · exact absurd rfl hne
  cases wanted with
  | none =>
    have hsame : ∀ id p, s'.linked id p = s.linked id p := fun id p => by
      rw [CatalogStore.linked, CatalogStore.linked, hnone rfl]
    exact ⟨sound_of_linked hsound hkeyed' fun row hrow => ⟨hids row hrow, hsame row.id⟩,
      authorised_of_links (fun id p _ hne => absurd (hsame id p) hne) hchanged⟩
  | some wanted =>
    have hloaded : s.projectIds app.row.id = app.projectIds := hcurrent
    rcases hpermits with ⟨hlinkable, hwide, htrimmed⟩
    have hrelinked := hsome wanted rfl
    rw [← hloaded] at hrelinked hwide htrimmed
    have hlinks := relinked_linksAre hrelinked
    have htrimmedLoaded : ∀ p ∈ s.projectIds app.row.id, Trimmed p := fun p hp =>
      hsound.trimmed app.row.id p (mem_projectIds.mp hp)
    refine ⟨sound_of_linksAre hsound hkeyed' hlinkable hlinks (fun p hp => ?_)
      fun row hrow _ => hids row hrow, authorised_of_links (fun id p _ hne => ?_) hchanged⟩
    · by_cases hold : p ∈ s.projectIds app.row.id
      · exact htrimmedLoaded p hold
      · exact htrimmed p (mem_added.mpr ⟨hp, hold⟩)
    · by_cases hsame : id = app.row.id
      · rw [hsame] at hne
        by_cases hold : p ∈ s.projectIds app.row.id
        · refine ⟨hwide p (Or.inr (mem_removed.mpr ⟨hold, fun hp => hne ?_⟩)),
            htrimmedLoaded p hold⟩
          rw [(hlinks.wanted p).mpr hp, mem_projectIds.mp hold]
        · have hlinked : s.linked app.row.id p = false := by
            rw [Bool.eq_false_iff]
            exact fun hlinked => hold (mem_projectIds.mpr hlinked)
          rw [hlinked, Bool.ne_false_iff, hlinks.wanted] at hne
          have hadded := mem_added.mpr ⟨hne, hold⟩
          exact ⟨hwide p (Or.inl hadded), htrimmed p hadded⟩
      · exact absurd (hlinks.others id p hsame) hne

theorem archived_shared {archivedAt : Option Instant} (hsound : Sound s)
    (heverywhere : Everywhere identity app.row.id (s.projectIds app.row.id))
    (h : s.archived app archivedAt = .ok s') : Sound s' ∧ Authorised identity s s' := by
  rcases archived_spec hsound.keyed h with ⟨hkeyed', hlinks, happs⟩
  have hids := fun other => @mem_of_rewritten s s' _ (archivedRow_id app.row archivedAt) _ happs other
  have hsame : ∀ id p, s'.linked id p = s.linked id p := fun id p => by
    rw [CatalogStore.linked, CatalogStore.linked, hlinks]
  refine ⟨sound_of_linked hsound hkeyed' fun row hrow => ⟨hids row hrow, hsame row.id⟩,
    authorised_of_links (fun id p _ hne => absurd (hsame id p) hne) fun old hold hne => ?_⟩
  by_cases hid : old.id = app.row.id
  · rw [hid]
    exact heverywhere
  · rw [find_of_rewritten (archivedRow_id app.row archivedAt) happs, hsound.keyed.find_mem hold,
      map_some, if_neg (mt beq_iff_eq.mp hid)] at hne
    exact absurd rfl hne

theorem deleted_shared (hsound : Sound s)
    (heverywhere : Everywhere identity app.row.id (s.projectIds app.row.id)) :
    Sound (s.deleted app) ∧ Authorised identity s (s.deleted app) := by
  rcases @deleted_spec s app hsound.keyed with ⟨hkeyed', hothers⟩
  have hkept : ∀ row ∈ (s.deleted app).applications, row ∈ s.applications ∧ row.id ≠ app.row.id :=
    fun row hrow => (mem_filter.mp hrow).imp_right bne_iff_ne.mp
  refine ⟨sound_of_linked hsound hkeyed' fun row hrow => ⟨⟨row, (hkept row hrow).1, rfl⟩,
    fun p => hothers row.id p (hkept row hrow).2⟩,
    authorised_of_links (fun id p hsome hne => ?_) fun old hold hne => ?_⟩
  · rcases find_isSome.mp hsome with ⟨row, hrow, rfl⟩
    exact absurd (hothers row.id p (hkept row hrow).2) hne
  · by_cases hid : old.id = app.row.id
    · rw [hid]
      exact heverywhere
    · have hmem : old ∈ (s.deleted app).applications :=
        mem_filter.mpr ⟨hold, bne_iff_ne.mpr hid⟩
      rw [hkeyed'.find_mem hmem] at hne
      exact absurd rfl hne

theorem everywhere_of_current {r : CatalogReq} (hpermits : permits identity r)
    (hcurrent : Current s r) (hacts : ActsOn r app) :
    Everywhere identity app.row.id (s.projectIds app.row.id) := by
  cases r with
  | setArchived other archivedAt =>
    rw [show app = other from hacts, show s.projectIds other.row.id = _ from hcurrent]
    exact hpermits
  | delete other =>
    rw [show app = other from hacts, show s.projectIds other.row.id = _ from hcurrent]
    exact hpermits
  | _ => exact hacts.elim

theorem responds_shared {r : CatalogReq} {a : CatalogAns r} (hsound : Sound s)
    (hpermits : permits identity r) (hcurrent : Current s r) (h : s.responds r a s') :
    Sound s' ∧ Authorised identity s s' := by
  have hsame : s' = s → Sound s' ∧ Authorised identity s s' := by
    rintro rfl
    exact ⟨hsound, authorised_refl hsound⟩
  cases r with
  | row id => exact hsame h.1
  | links id => exact hsame h.1
  | newId => exact hsame h
  | now => exact hsame h
  | insert app projectIds => exact (commits_cases h).elim hsame (inserted_shared hsound hpermits)
  | update app fields wanted =>
    exact (commits_cases h).elim hsame (updated_shared hsound hpermits hcurrent)
  | setArchived app archivedAt =>
    exact (commits_cases h).elim hsame
      (archived_shared hsound (everywhere_of_current hpermits hcurrent rfl))
  | delete app =>
    rcases h with hcommits | ⟨_, _, heq⟩
    · refine (commits_cases hcommits).elim hsame fun hok => ?_
      rw [← Except.ok.inj hok]
      exact deleted_shared hsound (everywhere_of_current hpermits hcurrent rfl)
    · exact hsame heq

end Steps

structure CatalogCall where
  identity : ConsumerIdentity
  request : CatalogRequest

/-- Any number of requests, each of which may be made again. -/
def catalogSystem (env : CatalogEnv) {ι : Type} (calls : ι → CatalogCall) :
    System CatalogStore ι CatalogReq CatalogAns (Except CatalogError LoadedApplication) where
  respond _ s r a s' := s.responds r a s'
  start i s p s' := s' = s ∧ p = (handleCatalog env (calls i).identity (calls i).request).run

/-- What holds of a run.

    * `linked`, `reachable`: An application keeps its links, and who may act everywhere can access
      it.
    * `authorised`, `everywhere`: Every step is authorised; who archives, unarchives or deletes has
      access through every project linked at that time.
    * `filtered`, `paged`: The query and the code agree, and the pages of the listing are exactly
      what may be accessed, each once. -/
structure Shared {ι : Type} (calls : ι → CatalogCall)
    (events : List (System.Event CatalogStore ι CatalogReq CatalogAns)) (s : CatalogStore) :
    Prop where
  linked : ∀ app ∈ s.applications,
    1 ≤ (s.projectIds app.id).length ∧ (s.projectIds app.id).length ≤ 64
  reachable : ∀ identity : ConsumerIdentity, identity.isUnscoped = true → ∀ app ∈ s.applications,
    canAccessApplication identity (loaded s app) = true
  authorised : ∀ e ∈ events, Authorised (calls e.worker).identity e.before e.after
  everywhere : ∀ e ∈ events, ∀ app, ActsOn e.request app →
    Everywhere (calls e.worker).identity app.row.id (e.before.projectIds app.row.id)
  filtered : ∀ (identity : ConsumerIdentity) (app : Application), identity.isUnscoped = false →
    s.applicationScopeFilter identity.scopes app = canAccessApplication identity (loaded s app)
  paged : ∀ (identity : ConsumerIdentity) (order : LinearOrder String) (project : Option String)
    (includeArchived : Bool) (limit n : Nat) (pages : Nat → List Application),
    s.applications.length ≤ n * limit →
    (∀ k, s.IsPage order (listQuery identity project includeArchived) limit (k * limit) (pages k)) →
    let listed := ((List.range n).map pages).flatten.filter fun app =>
      canAccessApplication identity (loaded s app)
    listed.Nodup ∧ ∀ app, app ∈ listed ↔ Listed s identity project includeArchived app

def kept : Growth CatalogStore where
  sound := Sound
  later _ _ := True
  refl _ := trivial
  trans _ _ := trivial

theorem sound_empty : Sound .empty :=
  ⟨⟨nodup_nil, nodup_nil, nodup_nil, fun _ h => absurd h not_mem_nil⟩,
    (fun _ _ h => nomatch h), fun _ h => absurd h not_mem_nil⟩

variable {ι : Type} [DecidableEq ι]

/-- In every run whose transactions are all made on the links that were read, applications are
    shared as they should be. -/
theorem catalog_shared (env : CatalogEnv) (calls : ι → CatalogCall)
    (events : List (System.Event CatalogStore ι CatalogReq CatalogAns))
    (t : Team CatalogStore ι CatalogReq CatalogAns (Except CatalogError LoadedApplication))
    (hrun : ((catalogSystem env calls).restrict fun e => Current e.before e.request).Run
      .empty events t) : Shared calls events t.state := by
  have hassured := @System.Run.assured _ _ _ _ _ _ kept
    ((catalogSystem env calls).restrict fun e => Current e.before e.request)
    (fun i => permits (calls i).identity) (fun _ _ _ => True) _ sound_empty
    (fun _ _ _ _ _ _ => trivial)
    (fun i s p s' _ hstart => ⟨hstart.1, Program.assures_of_uses
      (hstart.2 ▸ handleCatalog_uses (calls i).request) (fun _ _ => trivial) s⟩)
    (fun i s r a s' hsound hpermits h => ⟨(responds_shared hsound hpermits h.2 h.1).1, trivial⟩)
    events t hrun
  rcases hassured with ⟨hsound, hevents, -⟩
  have hsound : Sound t.state := hsound
  refine ⟨hsound.shared, fun identity hunscoped app happ => ?_, fun e he => ?_,
    fun e he app hacts => ?_, fun identity app hscoped => applicationScopeFilter_eq hscoped,
    fun identity order project includeArchived limit n pages hn hpages =>
      pages_listed hsound.keyed order project includeArchived hn hpages⟩
  · rw [canAccess_unscoped hunscoped, Bool.not_eq_true', isEmpty_eq_false_iff, ← length_pos_iff]
    exact (hsound.shared app happ).1
  · have h := hevents e he
    exact (responds_shared h.sound h.fits h.answered.2 h.answered.1).2
  · have h := hevents e he
    exact everywhere_of_current h.fits h.answered.2 hacts

def someAdmin : ConsumerIdentity := ⟨"a1", "admin", .dashboard, .admin, []⟩

def projectA : ScopeId := ⟨"a", by decide, by decide, by decide, by decide⟩

def projectB : ScopeId := ⟨"b", by decide, by decide, by decide, by decide⟩

def plainEnv : CatalogEnv := ⟨fun _ => false⟩

inductive Racer where
  | creates
  | keepsA
  | keepsB
  deriving DecidableEq

/-- The application is created with both projects, and then two requests each keep one. -/
def racingCalls : Racer → CatalogCall
  | .creates => ⟨someAdmin, .create ⟨[projectA, projectB], "shop", none⟩⟩
  | .keepsA => ⟨someAdmin, .update "app" ⟨none, none, some [projectA]⟩⟩
  | .keepsB => ⟨someAdmin, .update "app" ⟨none, none, some [projectB]⟩⟩

def shopRow : Application := ⟨"app", "shop", none, none⟩

def shop : LoadedApplication := ⟨shopRow, ["a", "b"]⟩

/-- The tables with the application linked to some projects. -/
def shopTables (projectIds : List String) : CatalogStore := ⟨[shopRow], linksTo "app" projectIds⟩

def creationTalk : List ((r : CatalogReq) × CatalogAns r) := [ ⟨.newId, ("app" : String)⟩,
  ⟨.insert shopRow ["a", "b"], (.ok () : Except WriteError Unit)⟩]

def readingTalk : List ((r : CatalogReq) × CatalogAns r) := [ ⟨.row "app", some shopRow⟩,
  ⟨.links "app", (["a", "b"] : List String)⟩]

/-- The transaction of an update that keeps one project. -/
def keepingTalk (projectId : String) : List ((r : CatalogReq) × CatalogAns r) := [
  ⟨.update shop ⟨none, none⟩ (some [projectId]), (.ok () : Except WriteError Unit)⟩]

theorem requireProjectWide_converses {α : Type} {identity : ConsumerIdentity}
    {projectIds : List String} {action : String} {f : Unit → CatalogM α}
    {talk : List ((r : CatalogReq) × CatalogAns r)}
    {q : Program CatalogReq CatalogAns (Except CatalogError α)}
    (hwide : allProjectWide identity projectIds = .ok true)
    (h : (f ()).run.converses talk q) :
    (requireProjectWide identity projectIds action >>= f).run.converses talk q := by
  rw [requireProjectWide, hwide]
  exact h

theorem creation_converses : (handleCatalog plainEnv (racingCalls .creates).identity
    (racingCalls .creates).request).run.converses creationTalk
      (refreshed someAdmin "app" (.ok ())).run := by
  have hwide : allProjectWide someAdmin ["a", "b"] = .ok true := by decide +kernel
  have hvalid : validProjectIds plainEnv ["a", "b"] = .ok ["a", "b"] := by decide +kernel
  refine Action.raiseWhen_converses (by decide) (Action.raiseWhen_converses (by decide +kernel) ?_)
  exact requireProjectWide_converses hwide (Action.settle_converses hvalid
    (Action.ask_converses ⟨_, rfl, rfl⟩))

theorem reading_converses {projectId : ScopeId}
    (hwide : allProjectWide someAdmin (changedProjects shop [projectId.value]) = .ok true)
    (hvalid : validProjectIds plainEnv [projectId.value] = .ok [projectId.value]) :
    (updateApplication plainEnv someAdmin "app" ⟨none, none, some [projectId]⟩).run.converses
      readingTalk (askUpdate shop ⟨none, none⟩ (some [projectId.value]) >>=
        refreshed someAdmin "app").run := by
  refine Action.raiseWhen_converses rfl (Action.raiseWhen_converses rfl ?_)
  refine Action.ask_converses (Action.ask_converses ?_)
  have hprepared : preparedLinks plainEnv someAdmin shop (some [projectId]) =
      pure (some [projectId.value]) := by
    have hwanted : wantedProjects someAdmin shop [projectId.value] = [projectId.value] := rfl
    simp only [preparedLinks, map_cons, map_nil, hwanted, requireProjectWide, hwide, hvalid]
    rfl
  change (preparedLinks plainEnv someAdmin shop (some [projectId]) >>= fun wanted =>
    askUpdate shop ⟨none, none⟩ wanted >>= refreshed someAdmin "app").run.converses [] _
  rw [hprepared]
  rfl

/-- Two updates that each unlink the project the other one keeps: the application is there and has
    no links, and nobody can access it. -/
theorem catalog_orphaned : ∃ events t,
    (catalogSystem plainEnv racingCalls).Run .empty events t ∧
      shopRow ∈ t.state.applications ∧ t.state.projectIds "app" = [] ∧
      canAccessApplication someAdmin (loaded t.state shopRow) = false := by
  have hbegun : ∀ (s : CatalogStore) (i : Racer), (catalogSystem plainEnv racingCalls).start i s
      (handleCatalog plainEnv (racingCalls i).identity (racingCalls i).request).run s :=
    fun _ _ => ⟨rfl, rfl⟩
  have hkeepA := @reading_converses projectA (by decide +kernel) (by decide +kernel)
  have hkeepB := @reading_converses projectB (by decide +kernel) (by decide +kernel)
  have hrow : (shopTables ["a", "b"]).find "app" = some shopRow := by decide +kernel
  have hlinks : (shopTables ["a", "b"]).projectIds "app" = ["a", "b"] := by decide +kernel
  have hcreates : (catalogSystem plainEnv racingCalls).Hears .creates .empty creationTalk
      (shopTables ["a", "b"]) :=
    ⟨.empty, rfl, shopTables ["a", "b"], Or.inl ⟨rfl, by decide +kernel⟩, rfl⟩
  have hreads : ∀ i, (catalogSystem plainEnv racingCalls).Hears i (shopTables ["a", "b"])
      readingTalk (shopTables ["a", "b"]) := fun i =>
    ⟨shopTables ["a", "b"], ⟨rfl, hrow.symm⟩, shopTables ["a", "b"], ⟨rfl, hlinks.symm⟩, rfl⟩
  have hwritesA : (catalogSystem plainEnv racingCalls).Hears .keepsA (shopTables ["a", "b"])
      (keepingTalk "a") (shopTables ["a"]) :=
    ⟨shopTables ["a"], Or.inl ⟨rfl, by decide +kernel⟩, rfl⟩
  have hwritesB : (catalogSystem plainEnv racingCalls).Hears .keepsB (shopTables ["a"])
      (keepingTalk "b") (shopTables []) :=
    ⟨shopTables [], Or.inl ⟨rfl, by decide +kernel⟩, rfl⟩
  have hwrite : ∀ projectId, (askUpdate shop ⟨none, none⟩ (some [projectId]) >>=
      refreshed someAdmin "app").run.converses (keepingTalk projectId)
        (refreshed someAdmin "app" (.ok ())).run := fun _ => ⟨_, rfl, rfl⟩
  rcases System.Run.idle.begun (hbegun _ .creates) creation_converses hcreates with ⟨_, hcreated⟩
  rcases hcreated.begun (hbegun _ .keepsA) hkeepA (hreads .keepsA) with ⟨_, hreadA⟩
  rcases hreadA.begun (hbegun _ .keepsB) hkeepB (hreads .keepsB) with ⟨_, hreadB⟩
  rcases hreadB.resumed (i := .keepsA) rfl (hwrite "a") hwritesA with ⟨_, hwrittenA⟩
  rcases hwrittenA.resumed (i := .keepsB) rfl (hwrite "b") hwritesB with ⟨_, hwrittenB⟩
  exact ⟨_, _, hwrittenB, by decide, by decide +kernel, by decide +kernel⟩

/-- An update alone is made on the links that it read. -/
theorem catalog_kept : ∃ events t,
    ((catalogSystem plainEnv racingCalls).restrict fun e => Current e.before e.request).Run
        .empty events t ∧
      t.state.projectIds "app" = ["a"] ∧ Shared racingCalls events t.state := by
  have hkeepA := @reading_converses projectA (by decide +kernel) (by decide +kernel)
  have hrow : (shopTables ["a", "b"]).find "app" = some shopRow := by decide +kernel
  have hlinks : (shopTables ["a", "b"]).projectIds "app" = ["a", "b"] := by decide +kernel
  let sys := (catalogSystem plainEnv racingCalls).restrict fun e => Current e.before e.request
  have hcreates : sys.Hears .creates .empty creationTalk (shopTables ["a", "b"]) :=
    ⟨.empty, ⟨rfl, trivial⟩, shopTables ["a", "b"], ⟨Or.inl ⟨rfl, by decide +kernel⟩, trivial⟩, rfl⟩
  have hreads : sys.Hears .keepsA (shopTables ["a", "b"]) readingTalk (shopTables ["a", "b"]) :=
    ⟨shopTables ["a", "b"], ⟨⟨rfl, hrow.symm⟩, trivial⟩, shopTables ["a", "b"],
      ⟨⟨rfl, hlinks.symm⟩, trivial⟩, rfl⟩
  have hwrites : sys.Hears .keepsA (shopTables ["a", "b"]) (keepingTalk "a") (shopTables ["a"]) :=
    ⟨shopTables ["a"], ⟨Or.inl ⟨rfl, by decide +kernel⟩, hlinks⟩, rfl⟩
  have hwrite : (askUpdate shop ⟨none, none⟩ (some ["a"]) >>= refreshed someAdmin "app").run.converses
      (keepingTalk "a") (refreshed someAdmin "app" (.ok ())).run := ⟨_, rfl, rfl⟩
  have hbegun : ∀ (s : CatalogStore) (i : Racer), sys.start i s
      (handleCatalog plainEnv (racingCalls i).identity (racingCalls i).request).run s :=
    fun _ _ => ⟨rfl, rfl⟩
  rcases System.Run.idle.begun (hbegun _ .creates) creation_converses hcreates with ⟨_, hcreated⟩
  rcases hcreated.begun (hbegun _ .keepsA) hkeepA hreads with ⟨_, hread⟩
  rcases hread.resumed (i := .keepsA) rfl hwrite hwrites with ⟨_, hwritten⟩
  exact ⟨_, _, hwritten, by decide +kernel, catalog_shared _ _ _ _ hwritten⟩

end Apex.Routers.Catalog
