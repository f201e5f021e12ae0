import Apex.Theory.Cycles.Evolution

/-!
# How Approvals Become Stale

Whether an approval stands is asked anew of the whole history each time. So every
operation could change the answer for every version. It does not: a history is sound, so
nothing approved rests on what is not approved, and an operation touches one version.
What no longer stands is what rests on a version that was archived or replaced, and
nothing else ever changes.

## Main definitions

* `standing`: The ids whose approval stands.
* `restingOn`: The ids that rest on an id.

## Theorems

* `standing_submit`, `standing_approve`, `standing_archive`, `standing_add`: What an operation
  changes.
* `standing_restored`: What is archived and restored stands as before.
* `standing_frame`: What does not rest on the version of a review is not touched by it.
-/

namespace Apex.Domain

open List Option

variable {env : CyclesEnv} {versions versions' : List Version}

def standing (env : CyclesEnv) (versions : List Version) : Set String :=
  { id | approvalCurrent env versions id = true }

/-- An id, and the ids that rest on it, directly or not. -/
def restingOn (versions : List Version) (id : String) : Set String :=
  { key | Relation.ReflTransGen (DependsOn versions) key id }

theorem mem_standing {id : String} : id ∈ standing env versions ↔
    Search.Holds (Approvable env versions) (dependenciesOf versions) id :=
  approvalCurrent_eq_true_iff id

theorem mem_restingOn {id key : String} : key ∈ restingOn versions id ↔
    Relation.ReflTransGen (Search.Child (dependenciesOf versions)) key id := by
  rw [child_dependenciesOf]
  rfl

theorem approvable_iff (hids : (versions.map Version.id).Nodup) {v : Version}
    (hv : v ∈ versions) : Approvable env versions v.id ↔ v.status = .approved ∧
      v.archived = false ∧ superseded versions v.id = false ∧
      contentIntegrity env v = true ∧ contentIssues env v.kind v.content = [] := by
  rw [superseded_eq_false, contentIntegrity, beq_iff_eq]
  constructor
  · rintro ⟨w, hw, hstands⟩
    have heq : v = w := some.inj (((byId_iff hids).mpr ⟨hv, rfl⟩).symm.trans hw)
    exact heq ▸ hstands
  · intro hstands
    exact ⟨v, (byId_iff hids).mpr ⟨hv, rfl⟩, hstands⟩

theorem superseded_evolved (h : Forall₂ Evolved versions versions') (id : String) :
    superseded versions' id = superseded versions id := by
  induction h with
  | nil => rfl
  | cons hvw _ ih =>
    simp only [superseded] at ih
    rw [superseded, superseded, any_cons, any_cons, ih, hvw.replaces]

theorem dependenciesOf_evolved (hids : (versions.map Version.id).Nodup)
    (h : Forall₂ Evolved versions versions') :
    dependenciesOf versions' = dependenciesOf versions := by
  have hids' : (versions'.map Version.id).Nodup := evolved_ids h ▸ hids
  funext id
  cases hby : byId versions id with
  | some v =>
    rcases (byId_iff hids).mp hby with ⟨hv, hid⟩
    rcases forall₂_mem h hv with ⟨w, hw, hvw⟩
    have hby' := (byId_iff hids').mpr ⟨hw, hvw.id.trans hid⟩
    rw [dependenciesOf, dependenciesOf, hby, hby', map_some, map_some, hvw.dependencies]
  | none =>
    cases hby' : byId versions' id with
    | none => rw [dependenciesOf, dependenciesOf, hby, hby']
    | some w =>
      rcases (byId_iff hids').mp hby' with ⟨hw, hid⟩
      rcases forall₂_of_mem h hw with ⟨v, hv, hvw⟩
      rw [(byId_iff hids).mpr ⟨hv, hvw.id.symm.trans hid⟩] at hby
      cases hby

theorem notMem_around {before after : List Version} {target : Version}
    (hids : ((before ++ target :: after).map Version.id).Nodup) :
    target ∉ before ∧ target ∉ after := by
  have hversions := hids.of_map
  rw [nodup_middle, nodup_cons, mem_append, not_or] at hversions
  exact hversions.1

/-- A review of a version: the history before and after, the version before and after. -/
structure Reviewing (versions versions' : List Version) (target target' : Version) : Prop where
  ids : (versions.map Version.id).Nodup
  place : ∃ before after, versions = before ++ target :: after ∧
    versions' = before ++ target' :: after
  evolved : Evolved target target'

namespace Reviewing

variable {target target' : Version}

section

variable (h : Reviewing versions versions' target target')

include h

theorem pointwise :
    Forall₂ Evolved versions versions' := by
  rcases h.place with ⟨before, after, rfl, rfl⟩
  exact forall₂_change before after h.evolved

theorem ids' :
    (versions'.map Version.id).Nodup :=
  evolved_ids h.pointwise ▸ h.ids

theorem mem : target ∈ versions := by
  rcases h.place with ⟨before, after, rfl, _⟩
  exact mem_append_right _ mem_cons_self

theorem mem' : target' ∈ versions' := by
  rcases h.place with ⟨before, after, _, rfl⟩
  exact mem_append_right _ mem_cons_self

theorem children :
    dependenciesOf versions' = dependenciesOf versions :=
  dependenciesOf_evolved h.ids h.pointwise

theorem byId_other {id : String}
    (hne : id ≠ target.id) : byId versions' id = byId versions id := by
  have hids := h.ids
  have hids' := h.ids'
  have hid' := h.evolved.id
  rcases h.place with ⟨before, after, rfl, rfl⟩
  refine Option.ext fun v => ?_
  rw [byId_iff hids', byId_iff hids, mem_append, mem_append, mem_cons, mem_cons]
  constructor
  · rintro ⟨hbefore | rfl | hafter, hid⟩
    · exact ⟨Or.inl hbefore, hid⟩
    · exact absurd (hid.symm.trans hid') hne
    · exact ⟨Or.inr (Or.inr hafter), hid⟩
  · rintro ⟨hbefore | rfl | hafter, hid⟩
    · exact ⟨Or.inl hbefore, hid⟩
    · exact absurd hid.symm hne
    · exact ⟨Or.inr (Or.inr hafter), hid⟩

theorem trans {versions'' : List Version} {target'' : Version}
    (h' : Reviewing versions' versions'' target' target'') :
    Reviewing versions versions'' target target'' := by
  refine ⟨h.ids, ?_, h.evolved.trans h'.evolved⟩
  rcases h.place with ⟨before, after, hplace, hplace'⟩
  rcases h'.place with ⟨front, back, hfront, hback⟩
  -- The version is in one place only, so both reviews split the history there.
  rcases notMem_around (hplace' ▸ h'.ids) with ⟨hbefore, hafter⟩
  rcases (append_cons_inj_of_notMem hbefore hafter).mp (hplace'.symm.trans hfront) with
    ⟨hfirst, _, hrest⟩
  exact ⟨before, after, hplace, by rw [hback, hfirst, hrest]⟩

theorem approvable_other {id : String}
    (hne : id ≠ target.id) : Approvable env versions' id ↔ Approvable env versions id := by
  rw [Approvable, Approvable, h.byId_other hne, ← superseded_eq_false, ← superseded_eq_false,
    superseded_evolved h.pointwise]

theorem approvable_target :
    Approvable env versions' target.id ↔ target'.status = .approved ∧
      target'.archived = false ∧ superseded versions target.id = false ∧
      contentIntegrity env target = true ∧ contentIssues env target.kind target.content = [] := by
  have hintact : contentIntegrity env target' = contentIntegrity env target := by
    rw [contentIntegrity, contentIntegrity, h.evolved.content, h.evolved.checksum]
  rw [← h.evolved.id, approvable_iff h.ids' h.mem', superseded_evolved h.pointwise, hintact,
    h.evolved.kind, h.evolved.content, h.evolved.id]

theorem frame {id : String}
    (hid : id ∉ restingOn versions target.id) :
    id ∈ standing env versions' ↔ id ∈ standing env versions := by
  rw [mem_restingOn] at hid
  rw [mem_standing, mem_standing, h.children]
  constructor
  · intro hholds
    exact hholds.frame (fun k hk hne => (h.approvable_other hne).mp hk) (fun _ _ => rfl) hid
  · intro hholds
    exact hholds.frame (fun k hk hne => (h.approvable_other hne).mpr hk) (fun _ _ => rfl) hid

theorem standing_eq
    (hsame : Approvable env versions' target.id ↔ Approvable env versions target.id) :
    standing env versions' = standing env versions := by
  refine Set.ext fun id => ?_
  rw [mem_standing, mem_standing, h.children]
  refine Search.holds_congr (fun k => ?_) (fun _ _ => rfl) id
  by_cases hk : k = target.id
  · rw [hk]
    exact hsame
  · exact h.approvable_other hk

theorem standing_lost
    (hlost : ¬ Approvable env versions' target.id) :
    standing env versions' = standing env versions \ restingOn versions target.id := by
  refine Set.ext fun id => ?_
  rw [Set.mem_sdiff, mem_standing, mem_standing, mem_restingOn, h.children]
  refine Search.holds_without (fun k => ?_) (fun _ _ => rfl) id
  by_cases hk : k = target.id
  · rw [hk]
    exact ⟨fun hgood => absurd hgood hlost, fun hgood => absurd rfl hgood.2⟩
  · rw [h.approvable_other hk]
    exact (and_iff_left hk).symm

theorem standing_gained
    (hbefore : ¬ Approvable env versions target.id) (hafter : Approvable env versions' target.id)
    (hunused : ∀ id, Approvable env versions id → target.id ∉ dependenciesOf versions id)
    (hrests : ∀ d ∈ target.dependencies, approvalCurrent env versions d = true) :
    standing env versions' = insert target.id (standing env versions) := by
  refine Set.ext fun id => ?_
  rw [Set.mem_insert_iff, or_comm, mem_standing, mem_standing, h.children]
  refine Search.holds_with (fun k => ?_) hbefore rfl hunused (fun d hd => ?_) id
  · by_cases hk : k = target.id
    · rw [hk]
      exact iff_of_true hafter (Or.inr rfl)
    · rw [h.approvable_other hk]
      exact (or_iff_left hk).symm
  · rw [dependenciesOf, (byId_iff h.ids).mpr ⟨h.mem, rfl⟩] at hd
    exact (approvalCurrent_eq_true_iff d).mp (hrests d hd)

end

end Reviewing

theorem SoundHistory.reviewing (h : SoundHistory env versions) {a : CycleAction}
    {actor time : String} {independentReview : Bool}
    (hok : transition env versions a actor time independentReview = .ok versions') :
    ∃ target, Reviewing versions versions' target (reviewed a actor time target) ∧
      target.id = a.versionId ∧
      checkTransition env versions a actor independentReview target = .ok () := by
  rcases transition_split hok with ⟨before, target, after, hbefore, hid, hcheck, hafter⟩
  exact ⟨target, ⟨h.ids, ⟨before, after, hbefore, hafter⟩, evolved_reviewed hcheck⟩, hid, hcheck⟩

section Reviews

variable {a : CycleAction} {actor time : String} {independentReview : Bool}

theorem reviewed_status (h : ¬ (a.action = .archive ∨ a.action = .restore)) (actor time : String)
    (target : Version) :
    (reviewed a actor time target).status = a.action.result ∧
      (reviewed a actor time target).archived = target.archived := by
  rw [reviewed, if_neg h]
  exact ⟨rfl, rfl⟩

theorem reviewed_archived (h : a.action = .archive ∨ a.action = .restore) (target : Version) :
    (reviewed a actor time target).status = target.status ∧
      (reviewed a actor time target).archived = decide (a.action = .archive) := by
  rw [reviewed, if_pos h]
  exact ⟨rfl, rfl⟩

section

variable (h : SoundHistory env versions)
  (hok : transition env versions a actor time independentReview = .ok versions')

include h hok

theorem SoundHistory.standing_submit
    (haction : a.action = .submit ∨ a.action = .requestRevision) :
    standing env versions' = standing env versions := by
  rcases h.reviewing hok with ⟨target, hr, _, hcheck⟩
  have hreview : ¬ (a.action = .archive ∨ a.action = .restore) := by
    rcases haction with haction | haction
    · rw [haction]
      decide
    · rw [haction]
      decide
  rw [checkTransition, if_neg hreview, checkReview_ok_iff] at hcheck
  refine hr.standing_eq (iff_of_false ?_ ?_)
  · rw [hr.approvable_target, (reviewed_status hreview actor time target).1]
    rcases haction with haction | haction
    · rw [haction]
      exact fun hstands => VersionStatus.noConfusion hstands.1
    · rw [haction]
      exact fun hstands => VersionStatus.noConfusion hstands.1
  · rw [approvable_iff hr.ids hr.mem, hcheck.status]
    rcases haction with haction | haction
    · rw [haction]
      exact fun hstands => VersionStatus.noConfusion hstands.1
    · rw [haction]
      exact fun hstands => VersionStatus.noConfusion hstands.1

theorem SoundHistory.standing_approve
    (haction : a.action = .approve) : a.versionId ∉ standing env versions ∧
      standing env versions' = insert a.versionId (standing env versions) := by
  rcases h.reviewing hok with ⟨target, hr, hid, hcheck⟩
  have hreview : ¬ (a.action = .archive ∨ a.action = .restore) := by
    rw [haction]
    decide
  rw [checkTransition, if_neg hreview, checkReview_ok_iff] at hcheck
  have hstatus : target.status = .inReview := by
    rw [hcheck.status, haction]
    rfl
  have hbefore : ¬ Approvable env versions target.id := by
    rw [approvable_iff hr.ids hr.mem, hstatus]
    exact fun hstands => VersionStatus.noConfusion hstands.1
  rw [← hid]
  refine ⟨fun hstands => hbefore (mem_standing.mp hstands).holds_good,
    hr.standing_gained hbefore ?_ ?_ ?_⟩
  · rw [hr.approvable_target, (reviewed_status hreview actor time target).1,
      (reviewed_status hreview actor time target).2, haction]
    exact ⟨rfl, hcheck.active, hcheck.latest, hcheck.intact (Or.inr haction)⟩
  · rintro id ⟨v, hv, hvstatus, _⟩ hmem
    rw [dependenciesOf, hv] at hmem
    rcases h.approved v (byId_mem hv).1 hvstatus target.id hmem with ⟨w, hw, hwid, hwstatus⟩
    rw [eq_of_id h.ids hw hr.mem hwid, hstatus] at hwstatus
    cases hwstatus
  · exact fun d hd => upstreamStale_false (hcheck.upstream haction d hd)

theorem SoundHistory.standing_archive
    (haction : a.action = .archive) :
    standing env versions' = standing env versions \ restingOn versions a.versionId := by
  rcases h.reviewing hok with ⟨target, hr, hid, _⟩
  rw [← hid]
  refine hr.standing_lost fun hstands => ?_
  have harchived := (hr.approvable_target.mp hstands).2.1
  rw [(reviewed_archived (Or.inl haction) target).2, haction] at harchived
  exact Bool.noConfusion harchived

theorem SoundHistory.standing_frame {id : String}
    (hrests : id ∉ restingOn versions a.versionId) :
    id ∈ standing env versions' ↔ id ∈ standing env versions := by
  rcases h.reviewing hok with ⟨target, hr, hid, _⟩
  exact hr.frame (hid ▸ hrests)

end

end Reviews

theorem SoundHistory.standing_restored (h : SoundHistory env versions)
    {versions'' : List Version} {a b : CycleAction} {actor actor' time time' : String}
    {independentReview independentReview' : Bool} (ha : a.action = .archive)
    (hb : b.action = .restore) (hsame : b.versionId = a.versionId)
    (hactive : ∀ v ∈ versions, v.id = a.versionId → v.archived = false)
    (hok : transition env versions a actor time independentReview = .ok versions')
    (hok' : transition env versions' b actor' time' independentReview' = .ok versions'') :
    standing env versions'' = standing env versions := by
  rcases h.reviewing hok with ⟨target, hr, hid, _⟩
  rcases (h.review hok).reviewing hok' with ⟨middle, hr', hid', _⟩
  -- What was archived is what is restored.
  have hmiddle : middle = reviewed a actor time target :=
    eq_of_id hr'.ids hr'.mem hr.mem' (hid'.trans (hsame.trans (hid.symm.trans hr.evolved.id.symm)))
  subst hmiddle
  have hmerged := hr.trans hr'
  refine hmerged.standing_eq ?_
  rw [hmerged.approvable_target, approvable_iff h.ids hr.mem, hactive target hr.mem hid,
    (reviewed_archived (Or.inr hb) _).1, (reviewed_archived (Or.inl ha) target).1,
    (reviewed_archived (Or.inr hb) _).2, hb]
  rfl

section Edits

variable {r : VersionCreate} {actor id createdAt : String} {trusted : Bool} {v : Version}

theorem byId_append (versions : List Version) (v : Version) (key : String) :
    byId (versions ++ [v]) key = if v.id = key then some v else byId versions key := by
  rw [byId, reverse_append, reverse_singleton, singleton_append, find?_cons]
  by_cases hkey : v.id = key
  · rw [if_pos hkey, beq_iff_eq.mpr hkey]
  · rw [if_neg hkey, beq_eq_false_iff_ne.mpr hkey]
    rfl

theorem superseded_append (versions : List Version) (v : Version) (key : String) :
    superseded (versions ++ [v]) key = (superseded versions key || v.replaces == some key) := by
  rw [superseded, any_append, any_cons, any_nil, Bool.or_false]
  rfl

theorem SoundHistory.approvable_add (h : SoundHistory env versions)
    (hok : addVersion env versions r actor trusted id createdAt = .ok v)
    (hfresh : ∀ w ∈ versions, w.id ≠ id) (key : String) :
    Approvable env (versions ++ [v]) key ↔ Approvable env versions key ∧ r.replaced ≠ some key := by
  rcases addVersion_checked hok with ⟨rfl, _⟩
  have hold : ∀ {w}, byId versions key = some w →
      byId (versions ++ [draftVersion env r actor id createdAt]) key = some w := by
    intro w hw
    rw [byId_append, if_neg (fun hkey => hfresh w (byId_mem hw).1 ((byId_mem hw).2.trans hkey.symm))]
    exact hw
  have hreplaced : key ≠ "" →
      (superseded (versions ++ [draftVersion env r actor id createdAt]) key = false ↔
        superseded versions key = false ∧ r.replaced ≠ some key) := by
    intro hne
    rw [superseded_append, Bool.or_eq_false_iff, beq_eq_false_iff_ne, VersionCreate.replaced, ne_eq,
      ne_eq, filter_eq_some_iff, and_iff_left (bne_iff_ne.mpr hne)]
    rfl
  constructor
  · rintro ⟨w, hw, hstatus, harchived, hlatest, hintact, hissues⟩
    rw [byId_append] at hw
    split at hw
    · cases hw
      cases hstatus
    · rw [← superseded_eq_false, hreplaced ((byId_mem hw).2 ▸ h.named w (byId_mem hw).1)] at hlatest
      exact ⟨⟨w, hw, hstatus, harchived, superseded_eq_false.mp hlatest.1, hintact, hissues⟩,
        hlatest.2⟩
  · rintro ⟨⟨w, hw, hstatus, harchived, hlatest, hintact, hissues⟩, hne⟩
    refine ⟨w, hold hw, hstatus, harchived, ?_, hintact, hissues⟩
    rw [← superseded_eq_false, hreplaced ((byId_mem hw).2 ▸ h.named w (byId_mem hw).1)]
    exact ⟨superseded_eq_false.mpr hlatest, hne⟩

theorem dependenciesOf_append (hfresh : ∀ w ∈ versions, w.id ≠ v.id) {key : String}
    (h : Approvable env versions key) :
    dependenciesOf (versions ++ [v]) key = dependenciesOf versions key := by
  rcases h with ⟨w, hw, _⟩
  rw [dependenciesOf, byId_append,
    if_neg (fun hkey => hfresh w (byId_mem hw).1 ((byId_mem hw).2.trans hkey.symm))]
  rfl

section

variable (h : SoundHistory env versions)
  (hok : addVersion env versions r actor trusted id createdAt = .ok v)
  (hfresh : ∀ w ∈ versions, w.id ≠ id)

include h hok hfresh

theorem SoundHistory.standing_add (hnone : r.replaced = none) :
    standing env (versions ++ [v]) = standing env versions := by
  have hfresh' : ∀ w ∈ versions, w.id ≠ v.id := by
    rw [(addVersion_checked hok).1]
    exact hfresh
  refine Set.ext fun key => ?_
  rw [mem_standing, mem_standing]
  refine Search.holds_congr (fun k => ?_) (fun k hk => dependenciesOf_append hfresh' hk) key
  rw [h.approvable_add hok hfresh, hnone]
  exact and_iff_left (some_ne_none k).symm

theorem SoundHistory.standing_replace {x : String} (hsome : r.replaced = some x) :
    standing env (versions ++ [v]) = standing env versions \ restingOn versions x := by
  have hfresh' : ∀ w ∈ versions, w.id ≠ v.id := by
    rw [(addVersion_checked hok).1]
    exact hfresh
  refine Set.ext fun key => ?_
  rw [Set.mem_sdiff, mem_standing, mem_standing, mem_restingOn]
  refine Search.holds_without (fun k => ?_) (fun k hk => dependenciesOf_append hfresh' hk) key
  rw [h.approvable_add hok hfresh, hsome, ne_eq, some_inj, eq_comm]

end

end Edits

/-- In every history that is built from nothing, what an operation does to the approvals that
    stand is exact: an approval adds its version; to submit, to return for revision and an edit
    that replaces nothing change nothing; an archiving and an edit that replaces a version take
    along what rests on the version; and what is archived while it was active, and restored at
    once, stands as before. -/
theorem staleness_exact (env : CyclesEnv) {versions : List Version}
    (hbuilt : HistoryRun env [] versions) :
    (∀ (a : CycleAction) (actor time : String) (independentReview : Bool) (after : List Version),
      transition env versions a actor time independentReview = .ok after →
        (a.action = .approve → a.versionId ∉ standing env versions ∧
          standing env after = insert a.versionId (standing env versions)) ∧
        (a.action = .submit ∨ a.action = .requestRevision →
          standing env after = standing env versions) ∧
        (a.action = .archive →
          standing env after = standing env versions \ restingOn versions a.versionId) ∧
        (a.action = .archive → (∀ v ∈ versions, v.id = a.versionId → v.archived = false) →
          ∀ (b : CycleAction) (actor' time' : String) (independentReview' : Bool)
            (restored : List Version), b.action = .restore → b.versionId = a.versionId →
            transition env after b actor' time' independentReview' = .ok restored →
              standing env restored = standing env versions)) ∧
    ∀ (r : VersionCreate) (actor id createdAt : String) (trusted : Bool) (v : Version),
      addVersion env versions r actor trusted id createdAt = .ok v →
      (∀ w ∈ versions, w.id ≠ id) → id ≠ "" →
        (r.replaced = none → standing env (versions ++ [v]) = standing env versions) ∧
        ∀ x, r.replaced = some x →
          standing env (versions ++ [v]) = standing env versions \ restingOn versions x := by
  have hsound := HistoryRun.built hbuilt
  constructor
  · intro a actor time independentReview after hok
    refine ⟨hsound.standing_approve hok, hsound.standing_submit hok, hsound.standing_archive hok,
      fun haction hactive b actor' time' independentReview' restored hb hsame hok' => ?_⟩
    exact hsound.standing_restored haction hb hsame hactive hok hok'
  · intro r actor id createdAt trusted v hok hfresh _
    exact ⟨hsound.standing_add hok hfresh, fun x hx => hsound.standing_replace hok hfresh hx⟩

/-- The plan is added after the scope was approved, and the scope archived. -/
theorem staleness_exact_plan :
    standing sampleEnv [scopeApproved, planDraft] = standing sampleEnv [scopeApproved] ∧
      standing sampleEnv [reviewed (onScope .archive) "ann" "2026-01-01T00:04:00" scopeApproved] =
        standing sampleEnv [scopeApproved] \ restingOn [scopeApproved] "s1" := by
  have h := staleness_exact sampleEnv scopeApproved_built
  constructor
  · exact (h.2 samplePlan "ann" "p1" "2026-01-01T00:03:00" false planDraft (by decide +kernel)
      (by decide +kernel) (by decide)).1 rfl
  · exact (h.1 (onScope .archive) "ann" "2026-01-01T00:04:00" true _ (by decide +kernel)).2.2.1 rfl

end Apex.Domain
