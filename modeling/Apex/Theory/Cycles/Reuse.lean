import Apex.Theory.Cycles.Staleness

/-!
# Drafts That Are Taken Over

The drafts of the next cycle are those of the selected versions, under new ids, and they
rest on one another as the versions did. Only the validation note of a script is written
anew. What a version rests on was complete when it was approved, so a draft is never held
up by what it rests on: whatever is complete can be approved, in any order in which
nothing comes before what it rests on.

## Main definitions

* `SourceHistory`: A history, which may itself have been started from drafts.
* `approveInOrder`: They are submitted and approved.

## Theorems

* `contentIssues_reused`: The validation note brings no issue.
* `SourceHistory.sound`: What is told of a history is told of one that starts from drafts.
* `approvalOrder_exists`: There is such an order of all drafts without issues.
* `approveInOrder_stands`: In every such order every approval succeeds, and stands at the end.
-/

namespace Apex.Domain

open List Option

variable {env : CyclesEnv} {source drafts versions versions' : List Version}
  {mapping : List (String × String)} {actor time sourceCycle : String}

/-- What a draft is taken from, and what was checked of it. -/
structure ReusedFrom (env : CyclesEnv) (source : List Version) (mapping : List (String × String))
    (selected : String × String) (v draft : Version) : Prop where
  found : byId source selected.1 = some v
  intact : contentIntegrity env v = true
  covered : ∀ d ∈ v.dependencies, (mapping.lookup d).isSome = true
  taken : ∃ actor time sourceCycle,
    draft = reusedDraft env mapping v selected actor time sourceCycle

variable {selected : String × String} {draft v : Version} {independentReview : Bool}
  {reviewer : String}

theorem reuseDraft_from
    (h : reuseDraft env source mapping actor time sourceCycle selected = .ok draft) :
    ∃ v, ReusedFrom env source mapping selected v draft ∧
      draft = reusedDraft env mapping v selected actor time sourceCycle := by
  rcases bind_ok.mp h with ⟨v, hv, h⟩
  rcases bind_ok.mp h with ⟨_, hreusable, h⟩
  rcases bind_ok.mp h with ⟨_, hcovered, h⟩
  rw [someOr_ok] at hv
  rw [raiseIf_ok] at hreusable hcovered
  rw [Bool.not_eq_false', List.all_eq_true] at hcovered
  rw [notReusable, Bool.or_eq_false_iff, Bool.not_eq_false'] at hreusable
  have htaken := (pure_ok.mp h).symm
  exact ⟨v, ⟨hv, hreusable.2, hcovered, actor, time, sourceCycle, htaken⟩, htaken⟩

theorem reuseDrafts_from (h : reuseDrafts env source mapping actor time sourceCycle = .ok drafts) :
    Forall₂ (fun selected draft => ∃ v, ReusedFrom env source mapping selected v draft ∧
      draft = reusedDraft env mapping v selected actor time sourceCycle) mapping drafts :=
  (mapM_ok.mp h).imp fun _ _ hdraft => reuseDraft_from hdraft

section

variable (h : ReusedFrom env source mapping selected v draft)

include h

theorem ReusedFrom.id : draft.id = selected.2 := by
  rcases h.taken with ⟨_, _, _, rfl⟩
  rfl

theorem ReusedFrom.mem_dependencies
    {x : String} :
    x ∈ draft.dependencies ↔ ∃ d ∈ v.dependencies, mapping.lookup d = some x := by
  rcases h.taken with ⟨_, _, _, rfl⟩
  exact mem_filterMap

theorem ReusedFrom.fresh :
    draft.status = .draft ∧ draft.archived = false ∧ draft.replaces = none := by
  rcases h.taken with ⟨_, _, _, rfl⟩
  exact ⟨rfl, rfl, rfl⟩

theorem ReusedFrom.contentIntegrity :
    contentIntegrity env draft = true := by
  rcases h.taken with ⟨_, _, _, rfl⟩
  by_cases hkind : v.kind = .script
  · rw [Domain.contentIntegrity, reusedDraft, if_pos hkind, if_pos hkind, beq_self_eq_true]
  · rw [Domain.contentIntegrity, reusedDraft, if_neg hkind, if_neg hkind]
    exact h.intact

end

theorem contentIssues_reused {content : Dict Json} {note : String} (hblank : (strip note).isEmpty = false)
    (hlength : note.length ≤ 50000) (hissues : contentIssues env .script content = []) :
    contentIssues env .script (content.set "validation" (.str note)) = [] := by
  rw [contentIssues, if_pos rfl, append_eq_nil_iff, append_eq_nil_iff] at hissues ⊢
  rcases hissues with ⟨⟨hkeys, hfields⟩, hscript⟩
  have hvalue : ∀ key, key ≠ "validation" →
      (content.set "validation" (.str note)).value key = content.value key := by
    intro key hne
    rw [Dict.value, Dict.value, Dict.get?_set_ne _ _ hne]
  refine ⟨⟨?_, ?_⟩, ?_⟩
  · -- The note is under a field of a script.
    rw [ite_eq_right_iff] at hkeys ⊢
    intro hunsupported
    rcases List.any_eq_true.mp hunsupported with ⟨key, hkey, hbad⟩
    by_cases hne : key = "validation"
    · subst hne
      exact absurd hbad (by decide)
    · rw [← Dict.has_iff_mem, Dict.has_set _ _ _ hne, Dict.has_iff_mem] at hkey
      exact hkeys (List.any_eq_true.mpr ⟨key, hkey, hbad⟩)
  · rw [flatMap_eq_nil_iff] at hfields ⊢
    intro spec hspec
    by_cases hne : spec.key = "validation"
    · have hlast : spec = { key := "validation", label := "Inspection and validation evidence" } := by
        rcases mem_cons.mp hspec with rfl | hspec
        · exact absurd hne (by decide)
        rcases mem_cons.mp hspec with rfl | hspec
        · exact absurd hne (by decide)
        rcases mem_cons.mp hspec with rfl | hspec
        · exact absurd hne (by decide)
        rcases mem_cons.mp hspec with rfl | hspec
        · exact absurd hne (by decide)
        rcases mem_cons.mp hspec with rfl | hspec
        · exact absurd hne (by decide)
        · exact mem_singleton.mp hspec
      have hnote : (content.set "validation" (.str note)).value "validation" = .str note := by
        rw [Dict.value, Dict.get?_set_self, getD_some]
      have hne' : note ≠ "" := by
        rintro rfl
        exact absurd hblank (by decide +kernel)
      rw [hlast, fieldIssue]
      simp only [hnote, reduceCtorEq, false_or, Json.str.injEq, if_neg hne', textIssue, hblank,
        Bool.false_or, decide_eq_true_eq, if_neg (Nat.not_lt.mpr hlength), any_none,
        Bool.false_eq_true, if_false]
    · rw [fieldIssue, hvalue _ hne]
      exact hfields spec hspec
  · rw [scriptIssues, hvalue "engine" (by decide), hvalue "format" (by decide),
      hvalue "source" (by decide)]
    exact hscript

theorem ReusedFrom.contentIssues (h : ReusedFrom env source mapping selected v draft)
    (hissues : contentIssues env v.kind v.content = []) :
    contentIssues env draft.kind draft.content = [] := by
  rcases h.taken with ⟨_, _, _, rfl⟩
  by_cases hkind : v.kind = .script
  · rw [reusedDraft, if_pos hkind]
    rw [hkind] at hissues ⊢
    exact contentIssues_reused (by decide +kernel) (by decide +kernel) hissues
  · rw [reusedDraft, if_neg hkind]
    exact hissues

/-- Drafts of distinct selected versions, under distinct ids. -/
structure Taken (env : CyclesEnv) (source : List Version) (mapping : List (String × String))
    (drafts : List Version) : Prop where
  selected : (mapping.map Prod.fst).Nodup
  distinct : (mapping.map Prod.snd).Nodup
  named : ∀ pair ∈ mapping, pair.2 ≠ ""
  each : List.Forall₂ (fun pair draft => ∃ v, ReusedFrom env source mapping pair v draft)
    mapping drafts

namespace Taken

theorem ids (h : Taken env source mapping drafts) :
    drafts.map Version.id = mapping.map Prod.snd := by
  have heq : Forall₂ (fun a b => a = b) (mapping.map Prod.snd) (drafts.map Version.id) := by
    rw [forall₂_map_left_iff, forall₂_map_right_iff]
    refine h.each.imp fun pair draft hdraft => ?_
    rcases hdraft with ⟨_, hfrom⟩
    exact hfrom.id.symm
  rw [forall₂_eq_eq_eq] at heq
  exact heq.symm

theorem nodup (h : Taken env source mapping drafts) : (drafts.map Version.id).Nodup :=
  h.ids ▸ h.distinct

theorem of_mem (h : Taken env source mapping drafts) {draft : Version} (hdraft : draft ∈ drafts) :
    ∃ pair ∈ mapping, ∃ v, ReusedFrom env source mapping pair v draft := by
  rcases mem_iff_getElem.mp hdraft with ⟨i, hi, rfl⟩
  have hlen := h.each.length_eq
  exact ⟨mapping[i], getElem_mem _, h.each.get (hlen ▸ hi) hi⟩

variable {pair : String × String}

section

variable (h : Taken env source mapping drafts)

include h

theorem mem
    (hpair : pair ∈ mapping) : ∃ draft ∈ drafts, ∃ v, ReusedFrom env source mapping pair v draft := by
  rcases mem_iff_getElem.mp hpair with ⟨i, hi, rfl⟩
  have hlen := h.each.length_eq
  exact ⟨drafts[i], getElem_mem _, h.each.get hi (hlen ▸ hi)⟩

theorem lookup_iff {d x : String} :
    mapping.lookup d = some x ↔ (d, x) ∈ mapping :=
  Dict.mem_items_iff (d := ⟨mapping, h.selected⟩) |>.symm

theorem depends_iff {pair' : String × String}
    (hpair : pair ∈ mapping) (hpair' : pair' ∈ mapping) :
    DependsOn drafts pair.2 pair'.2 ↔ DependsOn source pair.1 pair'.1 := by
  rcases h.mem hpair with ⟨draft, hdraft, v, hfrom⟩
  have hfound : byId drafts pair.2 = some draft := (byId_iff h.nodup).mpr ⟨hdraft, hfrom.id⟩
  constructor
  · rintro ⟨w, hw, hmem⟩
    cases hfound.symm.trans hw
    rcases hfrom.mem_dependencies.mp hmem with ⟨d, hd, hlookup⟩
    rw [h.lookup_iff] at hlookup
    -- The new ids are distinct, so only one version was given this one.
    have heq : (d, pair'.2) = pair' := inj_on_of_nodup_map h.distinct hlookup hpair' rfl
    exact ⟨v, hfrom.found, heq ▸ hd⟩
  · rintro ⟨w, hw, hmem⟩
    cases hfrom.found.symm.trans hw
    exact ⟨draft, hfound, hfrom.mem_dependencies.mpr ⟨pair'.1, hmem, h.lookup_iff.mpr hpair'⟩⟩

theorem present {draft : Version} (hdraft : draft ∈ drafts)
    {x : String} (hx : x ∈ draft.dependencies) :
    ∃ pair' ∈ mapping, pair'.2 = x ∧ ∃ v, (∃ pair, ReusedFrom env source mapping pair v draft) ∧
      pair'.1 ∈ v.dependencies := by
  rcases h.of_mem hdraft with ⟨pair, _, v, hfrom⟩
  rcases hfrom.mem_dependencies.mp hx with ⟨d, hd, hlookup⟩
  exact ⟨(d, x), h.lookup_iff.mp hlookup, rfl, v, ⟨pair, hfrom⟩, hd⟩

theorem superseded_eq_false (id : String) :
    superseded drafts id = false := by
  rw [Domain.superseded_eq_false]
  intro draft hdraft hreplaces
  rcases h.of_mem hdraft with ⟨_, _, _, hfrom⟩
  rw [hfrom.fresh.2.2] at hreplaces
  exact some_ne_none id hreplaces.symm

end

/-- The id of the version that was given a new id. -/
def oldId (mapping : List (String × String)) (x : String) : String :=
  ((mapping.find? fun pair => pair.2 == x).map Prod.fst).getD ""

theorem oldId_eq (h : Taken env source mapping drafts)
    (hpair : pair ∈ mapping) : oldId mapping pair.2 = pair.1 := by
  cases hfind : mapping.find? fun other => other.2 == pair.2 with
  | none =>
    rw [find?_eq_none] at hfind
    exact absurd (beq_self_eq_true pair.2) (hfind pair hpair)
  | some other =>
    have htest := find?_some hfind
    have heq : other = pair := inj_on_of_nodup_map h.distinct
      (mem_of_find?_eq_some hfind) hpair (beq_iff_eq.mp htest)
    rw [oldId, hfind, heq, map_some, getD_some]

theorem sound (h : Taken env source mapping drafts) (hsource : SoundHistory env source) :
    SoundHistory env drafts where
  ids := h.nodup
  named draft hdraft := by
    rcases h.of_mem hdraft with ⟨pair, hpair, _, hfrom⟩
    rw [hfrom.id]
    exact h.named pair hpair
  replaced draft hdraft x hx := by
    rcases h.of_mem hdraft with ⟨_, _, _, hfrom⟩
    rw [hfrom.fresh.2.2] at hx
    cases hx
  once draft hdraft _ _ x _ hx := by
    rcases h.of_mem hdraft with ⟨_, _, _, hfrom⟩
    rw [hfrom.fresh.2.2] at hx
    cases hx
  complete draft hdraft x hx := by
    rcases h.present hdraft hx with ⟨pair', hpair', rfl, v, ⟨pair, hfrom⟩, hd⟩
    rcases hsource.complete v (byId_mem hfrom.found).1 pair'.1 hd with ⟨u, hu, huid, hissues⟩
    rcases h.mem hpair' with ⟨draft', hdraft', w, hfrom'⟩
    have huw : u = w := eq_of_id hsource.ids hu (byId_mem hfrom'.found).1
      (huid.trans (byId_mem hfrom'.found).2.symm)
    exact ⟨draft', hdraft', hfrom'.id, hfrom'.contentIssues (huw ▸ hissues)⟩
  approved draft hdraft hstatus := by
    rcases h.of_mem hdraft with ⟨_, _, _, hfrom⟩
    rw [hfrom.fresh.1] at hstatus
    cases hstatus
  ranked := by
    rcases hsource.ranked with ⟨rank, hrank⟩
    refine ⟨fun x => rank (oldId mapping x), fun draft hdraft x hx => ?_⟩
    rcases h.of_mem hdraft with ⟨pair, hpair, v, hfrom⟩
    rcases hfrom.mem_dependencies.mp hx with ⟨d, hd, hlookup⟩
    have hrank' := hrank v (byId_mem hfrom.found).1 d hd
    rw [(byId_mem hfrom.found).2] at hrank'
    simp only [hfrom.id, h.oldId_eq hpair, h.oldId_eq (h.lookup_iff.mp hlookup)]
    exact hrank'

end Taken

/-- A history: it was started from nothing or from drafts of another, and operations followed. -/
inductive SourceHistory (env : CyclesEnv) : List Version → Prop
  | empty : SourceHistory env []
  | reused {source drafts : List Version} {mapping : List (String × String)}
      (hsource : SourceHistory env source) (htaken : Taken env source mapping drafts) :
      SourceHistory env drafts
  | step {versions versions' : List Version} (h : SourceHistory env versions)
      (hstep : HistoryStep env versions versions') : SourceHistory env versions'

theorem SourceHistory.sound (h : SourceHistory env versions) : SoundHistory env versions := by
  induction h with
  | empty => exact soundHistory_nil env
  | reused _ htaken ih => exact htaken.sound ih
  | step _ hstep ih => exact ih.step hstep

theorem SourceHistory.run (h : SourceHistory env versions)
    (hrun : HistoryRun env versions versions') : SourceHistory env versions' := by
  induction hrun with
  | refl => exact h
  | tail _ hstep ih => exact ih.step hstep

theorem reuseDrafts_taken (hselected : (mapping.map Prod.fst).Nodup)
    (hdistinct : (mapping.map Prod.snd).Nodup) (hnamed : ∀ pair ∈ mapping, pair.2 ≠ "")
    (h : reuseDrafts env source mapping actor time sourceCycle = .ok drafts) :
    Taken env source mapping drafts := by
  refine ⟨hselected, hdistinct, hnamed, (reuseDrafts_from h).imp fun pair draft hdraft => ?_⟩
  rcases hdraft with ⟨v, hfrom, _⟩
  exact ⟨v, hfrom⟩

/-- An order in which drafts may be approved: each is complete, and what it rests on comes
    before it. -/
def ApprovalOrder (env : CyclesEnv) (drafts : List Version) : List String → List String → Prop
  | _, [] => True
  | done, id :: rest =>
    (∃ d ∈ drafts, d.id = id ∧ contentIssues env d.kind d.content = [] ∧ id ∉ done ∧
      ∀ x ∈ d.dependencies, x ∈ done) ∧ ApprovalOrder env drafts (id :: done) rest

/-- Ids in order of a rank may be approved in that order. -/
theorem approvalOrder_of_ranked {rank : String → Nat} : ∀ {rest done : List String},
    rest.Nodup → (∀ id ∈ rest, id ∉ done) → rest.Pairwise (fun a b => rank a ≤ rank b) →
      (∀ id ∈ rest, ∃ d ∈ drafts, d.id = id ∧ contentIssues env d.kind d.content = [] ∧
        ∀ x ∈ d.dependencies, rank x < rank id ∧ (x ∈ done ∨ x ∈ rest)) →
      ApprovalOrder env drafts done rest
  | [], _, _, _, _, _ => trivial
  | id :: rest, done, hnodup, hdone, hranked, hall => by
    rw [nodup_cons] at hnodup
    rw [pairwise_cons] at hranked
    refine ⟨?_, approvalOrder_of_ranked hnodup.2 ?_ hranked.2 ?_⟩
    · rcases hall id mem_cons_self with ⟨d, hd, hid, hissues, hrests⟩
      refine ⟨d, hd, hid, hissues, hdone id mem_cons_self, fun x hx => ?_⟩
      rcases hrests x hx with ⟨hrank, hbefore | hafter⟩
      · exact hbefore
      · -- What comes later has a higher rank.
        rcases mem_cons.mp hafter with rfl | hlater
        · exact absurd hrank (Nat.lt_irrefl _)
        · exact absurd hrank (Nat.not_lt.mpr (hranked.1 x hlater))
    · intro other hother hmem
      rcases mem_cons.mp hmem with rfl | hmem
      · exact hnodup.1 hother
      · exact hdone other (mem_cons_of_mem _ hother) hmem
    · intro other hother
      rcases hall other (mem_cons_of_mem _ hother) with ⟨d, hd, hid, hissues, hrests⟩
      refine ⟨d, hd, hid, hissues, fun x hx => ⟨(hrests x hx).1, ?_⟩⟩
      rcases (hrests x hx).2 with hbefore | hafter
      · exact Or.inl (mem_cons_of_mem _ hbefore)
      · rcases mem_cons.mp hafter with rfl | hlater
        · exact Or.inl mem_cons_self
        · exact Or.inr hlater

theorem approvalOrder_exists (h : SoundHistory env drafts) : ∃ order,
    ApprovalOrder env drafts [] order ∧
      ∀ d ∈ drafts, contentIssues env d.kind d.content = [] → d.id ∈ order := by
  rcases h.ranked with ⟨rank, hrank⟩
  let complete := drafts.filter fun d => (contentIssues env d.kind d.content).isEmpty
  let order := (complete.map Version.id).insertionSort fun a b => rank a ≤ rank b
  have hmem : ∀ {x}, x ∈ order ↔ ∃ d ∈ drafts, d.id = x ∧
      contentIssues env d.kind d.content = [] := by
    intro x
    rw [mem_insertionSort, List.mem_map]
    constructor
    · rintro ⟨d, hd, hid⟩
      rw [mem_filter, List.isEmpty_iff] at hd
      exact ⟨d, hd.1, hid, hd.2⟩
    · rintro ⟨d, hd, hid, hissues⟩
      exact ⟨d, mem_filter.mpr ⟨hd, List.isEmpty_iff.mpr hissues⟩, hid⟩
  have hnodup : order.Nodup := by
    rw [(perm_insertionSort _ _).nodup_iff]
    exact h.ids.sublist (filter_sublist.map Version.id)
  have hranked : order.Pairwise fun a b => rank a ≤ rank b := by
    have : Std.Total fun a b : String => rank a ≤ rank b := ⟨fun a b => Nat.le_total _ _⟩
    have : IsTrans String fun a b => rank a ≤ rank b := ⟨fun _ _ _ => Nat.le_trans⟩
    exact pairwise_insertionSort _ _
  refine ⟨order, approvalOrder_of_ranked hnodup (fun _ _ => not_mem_nil) hranked ?_,
    fun d hd hissues => hmem.mpr ⟨d, hd, rfl, hissues⟩⟩
  intro x hx
  rcases hmem.mp hx with ⟨d, hd, rfl, hissues⟩
  refine ⟨d, hd, rfl, hissues, fun y hy => ⟨hrank d hd y hy, Or.inr (hmem.mpr ?_)⟩⟩
  exact h.complete d hd y hy

def approveDraft (env : CyclesEnv) (submitter reviewer time : String) (independentReview : Bool)
    (versions : List Version) (id : String) : Except String (List Version) := do
  let submitted ← transition env versions ⟨1, .submit, id, ""⟩ submitter time independentReview
  transition env submitted ⟨1, .approve, id, ""⟩ reviewer time independentReview

/-- Drafts are submitted and approved, one after the other. -/
def approveInOrder (env : CyclesEnv) (submitter reviewer time : String) (independentReview : Bool)
    (versions : List Version) (order : List String) : Except String (List Version) :=
  order.foldlM (approveDraft env submitter reviewer time independentReview) versions

theorem transition_exists (time : String) (hids : (versions.map Version.id).Nodup) {a : CycleAction}
    {target : Version} (htarget : target ∈ versions) (hid : target.id = a.versionId)
    (hcheck : checkTransition env versions a reviewer independentReview target = .ok ()) :
    ∃ versions', transition env versions a reviewer time independentReview = .ok versions' := by
  have hfind : versions.find? (fun v => v.id == a.versionId) = some target :=
    (find?_eq_byId hids a.versionId).trans ((byId_iff hids).mpr ⟨htarget, hid⟩)
  exact ⟨_, bind_ok.mpr ⟨target, someOr_ok.mpr hfind, bind_ok.mpr ⟨(), hcheck, rfl⟩⟩⟩

theorem upstreamStale_of_current (hids : (versions.map Version.id).Nodup) {d : String}
    (h : approvalCurrent env versions d = true) : upstreamStale env versions d = false := by
  rcases approvalCurrent_approvable h with ⟨u, hu, _, harchived, hlatest, _⟩
  rw [upstreamStale, (find?_eq_byId hids d).trans hu]
  simp only [h, harchived, superseded_eq_false.mpr hlatest, Bool.not_true, Bool.or_false]

theorem Reviewing.mem_cases {target target' : Version}
    (h : Reviewing versions versions' target target') (hv : v ∈ versions') :
    v = target' ∨ v ∈ versions := by
  rcases h.place with ⟨before, after, rfl, rfl⟩
  rcases mem_append.mp hv with hbefore | hrest
  · exact Or.inr (mem_append_left _ hbefore)
  · rcases mem_cons.mp hrest with rfl | hafter
    · exact Or.inl rfl
    · exact Or.inr (mem_append_right _ (mem_cons_of_mem _ hafter))

/-- While drafts are approved in order: what is done stands, what is not is a draft still. -/
structure Approving (env : CyclesEnv) (drafts : List Version) (done : List String)
    (versions : List Version) : Prop where
  sound : SoundHistory env versions
  evolved : List.Forall₂ Evolved drafts versions
  stands : ∀ id ∈ done, id ∈ standing env versions
  active : ∀ v ∈ versions, v.archived = false
  waiting : ∀ v ∈ versions, v.id ∉ done → v.status = .draft

/-- What is told of each draft when it is taken over. -/
structure ReadyDraft (env : CyclesEnv) (drafts : List Version) (actor : String) (d : Version) :
    Prop where
  latest : superseded drafts d.id = false
  intact : contentIntegrity env d = true
  creator : d.createdBy = actor

theorem contentIntegrity_evolved {w : Version} (h : Evolved v w) :
    contentIntegrity env w = contentIntegrity env v := by
  rw [contentIntegrity, contentIntegrity, h.content, h.checksum]

theorem Approving.next (submitter time : String) {done : List String}
    (h : Approving env drafts done versions)
    (hreviewer : independentReview = true → reviewer ≠ actor) {d : Version} (hd : d ∈ drafts)
    (hready : ReadyDraft env drafts actor d) (hissues : contentIssues env d.kind d.content = [])
    (hnew : d.id ∉ done) (hrests : ∀ x ∈ d.dependencies, x ∈ done) :
    ∃ versions', approveDraft env submitter reviewer time independentReview versions d.id =
      .ok versions' ∧ Approving env drafts (d.id :: done) versions' := by
  have hsubmits : ¬ (ReviewAction.submit = .archive ∨ ReviewAction.submit = .restore) := by decide
  have happroves : ¬ (ReviewAction.approve = .archive ∨ ReviewAction.approve = .restore) := by decide
  have hne : ReviewAction.submit ≠ .approve := by decide
  rcases forall₂_mem h.evolved hd with ⟨target, htarget, hevolved⟩
  -- The draft is submitted.
  have hsubmit : checkTransition env versions ⟨1, .submit, d.id, ""⟩ submitter independentReview
      target = .ok () := by
    rw [checkTransition, if_neg hsubmits, checkReview_ok_iff]
    refine ⟨h.active target htarget, ?_, h.waiting target htarget (hevolved.id ▸ hnew),
      fun _ => ⟨(contentIntegrity_evolved hevolved).trans hready.intact, ?_⟩,
      fun haction => absurd haction hne, fun haction => absurd haction hne⟩
    · rw [superseded_evolved h.evolved, hevolved.id]
      exact hready.latest
    · rw [hevolved.kind, hevolved.content]
      exact hissues
  rcases transition_exists time h.sound.ids htarget hevolved.id hsubmit with
    ⟨submitted, hsubmitted⟩
  rcases h.sound.reviewing hsubmitted with ⟨target₁, hr₁, hid₁, _⟩
  have heq₁ : target₁ = target :=
    eq_of_id h.sound.ids hr₁.mem htarget (hid₁.trans hevolved.id.symm)
  subst heq₁
  have hsound₁ := h.sound.review hsubmitted
  have hstands₁ := h.sound.standing_submit hsubmitted (Or.inl rfl)
  have hevolved₁ := hevolved.trans hr₁.evolved
  have hstatus₁ := reviewed_status (a := ⟨1, .submit, d.id, ""⟩) hsubmits submitter time target₁
  -- It is approved.
  have happrove : checkTransition env submitted ⟨1, .approve, d.id, ""⟩ reviewer independentReview
      (reviewed ⟨1, .submit, d.id, ""⟩ submitter time target₁) = .ok () := by
    rw [checkTransition, if_neg happroves, checkReview_ok_iff]
    refine ⟨hstatus₁.2.trans (h.active target₁ htarget), ?_, hstatus₁.1,
      fun _ => ⟨(contentIntegrity_evolved hevolved₁).trans hready.intact, ?_⟩, fun _ hi => ?_,
      fun _ x hx => ?_⟩
    · rw [superseded_evolved (forall₂_trans h.evolved hr₁.pointwise), hevolved₁.id]
      exact hready.latest
    · rw [hevolved₁.kind, hevolved₁.content]
      exact hissues
    · rw [hevolved₁.createdBy, hready.creator]
      exact hreviewer hi
    · have hstands : x ∈ standing env submitted := by
        rw [hstands₁]
        exact h.stands x (hrests x (hevolved₁.dependencies ▸ hx))
      exact upstreamStale_of_current hsound₁.ids hstands
  rcases transition_exists time hsound₁.ids hr₁.mem' hevolved₁.id happrove with
    ⟨versions', happroved⟩
  rcases hsound₁.reviewing happroved with ⟨target₂, hr₂, hid₂, _⟩
  have heq₂ : target₂ = reviewed ⟨1, .submit, d.id, ""⟩ submitter time target₁ :=
    eq_of_id hsound₁.ids hr₂.mem hr₁.mem' (hid₂.trans hevolved₁.id.symm)
  subst heq₂
  have hstands₂ := (hsound₁.standing_approve happroved rfl).2
  have hstatus₂ := reviewed_status (a := ⟨1, .approve, d.id, ""⟩) happroves reviewer time
    (reviewed ⟨1, .submit, d.id, ""⟩ submitter time target₁)
  refine ⟨versions', bind_ok.mpr ⟨submitted, hsubmitted, happroved⟩, hsound₁.review happroved,
    forall₂_trans h.evolved (forall₂_trans hr₁.pointwise hr₂.pointwise), fun id hid => ?_,
    fun v hv => ?_, fun v hv hdone => ?_⟩
  · rw [hstands₂, hstands₁]
    rcases mem_cons.mp hid with rfl | hid
    · exact Set.mem_insert _ _
    · exact Set.mem_insert_of_mem _ (h.stands id hid)
  · rcases hr₂.mem_cases hv with rfl | hv
    · exact hstatus₂.2.trans (hstatus₁.2.trans (h.active target₁ htarget))
    · rcases hr₁.mem_cases hv with rfl | hv
      · exact hstatus₁.2.trans (h.active target₁ htarget)
      · exact h.active v hv
  · rw [mem_cons, not_or] at hdone
    rcases hr₂.mem_cases hv with rfl | hv
    · exact absurd (hr₂.evolved.id.trans hevolved₁.id) hdone.1
    · rcases hr₁.mem_cases hv with rfl | hv
      · exact absurd hevolved₁.id hdone.1
      · exact h.waiting v hv hdone.2

theorem approveInOrder_stands (submitter time : String)
    (hreviewer : independentReview = true → reviewer ≠ actor)
    (hready : ∀ d ∈ drafts, ReadyDraft env drafts actor d) :
    ∀ {order done versions}, Approving env drafts done versions →
      ApprovalOrder env drafts done order → ∃ after,
        approveInOrder env submitter reviewer time independentReview versions order = .ok after ∧
          ∀ id, id ∈ done ∨ id ∈ order → approvalCurrent env after id = true
  | [], _, versions, h, _ => ⟨versions, rfl, fun id hid =>
    h.stands id (hid.resolve_right not_mem_nil)⟩
  | id :: rest, done, versions, h, horder => by
    rcases horder with ⟨⟨d, hd, rfl, hissues, hnew, hrests⟩, hrest⟩
    rcases h.next submitter time hreviewer hd (hready d hd) hissues hnew
      hrests with ⟨versions', hok, hnext⟩
    rcases approveInOrder_stands submitter time hreviewer hready hnext hrest with ⟨after, hafter, hall⟩
    refine ⟨after, ?_, fun x hx => hall x ?_⟩
    · rw [approveInOrder, foldlM_cons]
      exact bind_ok.mpr ⟨versions', hok, hafter⟩
    · rcases hx with hdone | horder
      · exact Or.inl (mem_cons_of_mem _ hdone)
      · rcases mem_cons.mp horder with rfl | hrest
        · exact Or.inl mem_cons_self
        · exact Or.inr hrest

/-- The drafts of the next cycle are the selected versions again. They are in bijection with the
    selection and rest on one another as the versions do; nothing they rest on is missing, none
    was reviewed, archived or replaced, and all are intact. In a history that starts with them
    there is an order of all drafts without issues in which nothing comes before what it rests
    on; and in every such order all can be submitted and approved, by anyone but their creator
    where reviews are independent, and stand at the end. -/
theorem reuse_isomorphism (env : CyclesEnv) {source drafts : List Version}
    (hsource : SourceHistory env source) {mapping : List (String × String)}
    {actor time sourceCycle : String} (hselected : (mapping.map Prod.fst).Nodup)
    (hdistinct : (mapping.map Prod.snd).Nodup) (hnamed : ∀ pair ∈ mapping, pair.2 ≠ "")
    (hok : reuseDrafts env source mapping actor time sourceCycle = .ok drafts) :
    (drafts.map Version.id = mapping.map Prod.snd ∧ (drafts.map Version.id).Nodup ∧
      Forall₂ (fun pair draft => ∃ v, byId source pair.1 = some v ∧
        draft = reusedDraft env mapping v pair actor time sourceCycle) mapping drafts) ∧
    (∀ pair ∈ mapping, ∀ pair' ∈ mapping,
      DependsOn drafts pair.2 pair'.2 ↔ DependsOn source pair.1 pair'.1) ∧
    (∀ d ∈ drafts, ∀ x ∈ d.dependencies, ∃ e ∈ drafts, e.id = x) ∧
    (∀ d ∈ drafts, d.status = .draft ∧ d.archived = false ∧ superseded drafts d.id = false ∧
      contentIntegrity env d = true) ∧
    (∃ order, ApprovalOrder env drafts [] order ∧
      ∀ d ∈ drafts, contentIssues env d.kind d.content = [] → d.id ∈ order) ∧
    ∀ order, ApprovalOrder env drafts [] order →
      ∀ submitter reviewer time' independentReview, (independentReview = true → reviewer ≠ actor) →
        ∃ after, approveInOrder env submitter reviewer time' independentReview drafts order =
          .ok after ∧ ∀ id ∈ order, approvalCurrent env after id = true := by
  have htaken := reuseDrafts_taken hselected hdistinct hnamed hok
  have hsound := htaken.sound hsource.sound
  have hdrafts : ∀ d ∈ drafts, d.status = .draft ∧ d.archived = false ∧
      ReadyDraft env drafts actor d := by
    intro d hd
    rcases mapM_mem hok hd with ⟨pair, _, hdraft⟩
    rcases reuseDraft_from hdraft with ⟨v, hfrom, heq⟩
    exact ⟨hfrom.fresh.1, hfrom.fresh.2.1, htaken.superseded_eq_false d.id, hfrom.contentIntegrity,
      congrArg Version.createdBy heq⟩
  refine ⟨⟨htaken.ids, htaken.nodup, (reuseDrafts_from hok).imp fun pair draft hdraft => ?_⟩,
    fun pair hpair pair' hpair' => htaken.depends_iff hpair hpair', fun d hd x hx => ?_,
    fun d hd => ?_, approvalOrder_exists hsound,
    fun order horder submitter reviewer time' independentReview hreviewer => ?_⟩
  · rcases hdraft with ⟨v, hfrom, heq⟩
    exact ⟨v, hfrom.found, heq⟩
  · rcases hsound.complete d hd x hx with ⟨e, he, hid, _⟩
    exact ⟨e, he, hid⟩
  · rcases hdrafts d hd with ⟨hstatus, harchived, hready⟩
    exact ⟨hstatus, harchived, hready.latest, hready.intact⟩
  · have hstart : Approving env drafts [] drafts := by
      refine ⟨hsound, forall₂_self drafts, fun id hid => absurd hid not_mem_nil,
        fun v hv => (hdrafts v hv).2.1, fun v hv _ => (hdrafts v hv).1⟩
    rcases approveInOrder_stands submitter time' hreviewer
      (fun d hd => (hdrafts d hd).2.2) hstart horder with ⟨after, hafter, hall⟩
    exact ⟨after, hafter, fun id hid => hall id (Or.inr hid)⟩

/-- The approved scope is taken over. -/
theorem reuse_isomorphism_scope : ∃ drafts,
    reuseDrafts sampleEnv [scopeApproved] [("s1", "n1")] "ann" "2026-02-01T00:00:00" "c1" =
      .ok drafts ∧ ∃ order, ApprovalOrder sampleEnv drafts [] order ∧
        ∀ d ∈ drafts, contentIssues sampleEnv d.kind d.content = [] → d.id ∈ order := by
  have hok : (reuseDrafts sampleEnv [scopeApproved] [("s1", "n1")] "ann" "2026-02-01T00:00:00"
      "c1").isOk = true := by decide +kernel
  have hsource := SourceHistory.empty.run scopeApproved_built
  cases hdrafts : reuseDrafts sampleEnv [scopeApproved] [("s1", "n1")] "ann"
      "2026-02-01T00:00:00" "c1" with
  | error e =>
    rw [hdrafts] at hok
    exact Bool.noConfusion hok
  | ok drafts =>
    have h := reuse_isomorphism sampleEnv hsource (by decide) (by decide) (by decide) hdrafts
    exact ⟨drafts, rfl, h.2.2.2.2.1⟩

end Apex.Domain
