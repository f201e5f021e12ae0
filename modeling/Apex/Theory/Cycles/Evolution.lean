import Mathlib.Algebra.Order.BigOperators.Group.List
import Mathlib.Algebra.Order.Group.Nat
import Apex.Core.Extension
import Apex.Theory.Cycles.Approvals

/-!
# How A History Evolves

A history is built from nothing by edits and reviews. Whatever happens to it, a version
that is there stays what it was: a review adds to its reviews, moves its status and sets
its archive mark, and never takes an approval back. So what was checked when a version
was created, that everything it rests on is approved, is true of it ever after.

Histories are also started from drafts that were taken over. What is told of a history
by `SoundHistory` is told of those as well.

## Main definitions

* `HistoryStep`, `HistoryRun`: Successful edits and reviews.
* `Evolved`: What a version keeps.

## Theorems

* `addVersion_checked`, `transition_split`, `checkReview_passed`: What an operation has checked.
* `HistoryRun.evolved`: Every version that was there is there and has evolved.
* `SoundHistory.run`: What operations keep.
-/

namespace Apex.Domain

open List Option

variable {env : CyclesEnv} {versions versions' : List Version}

/-- One successful operation: an edit that is appended under a fresh id, or a review. -/
inductive HistoryStep (env : CyclesEnv) : List Version → List Version → Prop
  | added {versions : List Version} (r : VersionCreate) (actor id createdAt : String)
      (trustedEvidence : Bool) (v : Version)
      (hok : addVersion env versions r actor trustedEvidence id createdAt = .ok v)
      (hfresh : ∀ w ∈ versions, w.id ≠ id) (hid : id ≠ "") :
      HistoryStep env versions (versions ++ [v])
  | reviewed {versions versions' : List Version} (a : CycleAction) (actor time : String)
      (independentReview : Bool)
      (hok : transition env versions a actor time independentReview = .ok versions') :
      HistoryStep env versions versions'

abbrev HistoryRun (env : CyclesEnv) : List Version → List Version → Prop :=
  Relation.ReflTransGen (HistoryStep env)

variable {id actor time : String} {v : Version} {independentReview : Bool} {a : CycleAction}

theorem find?_id (h : versions.find? (fun v => v.id == id) = some v) :
    v ∈ versions ∧ v.id = id := by
  have hid := find?_some h
  exact ⟨mem_of_find?_eq_some h, beq_iff_eq.mp hid⟩

theorem eq_of_id (hids : (versions.map Version.id).Nodup) {w : Version} (hv : v ∈ versions)
    (hw : w ∈ versions) (h : v.id = w.id) : v = w :=
  inj_on_of_nodup_map hids hv hw h

theorem byId_iff (hids : (versions.map Version.id).Nodup) :
    byId versions id = some v ↔ v ∈ versions ∧ v.id = id := by
  refine ⟨byId_mem, fun ⟨hv, hid⟩ => ?_⟩
  cases hby : byId versions id with
  | none =>
    rw [byId, find?_eq_none] at hby
    exact absurd (beq_iff_eq.mpr hid) (hby v (mem_reverse.mpr hv))
  | some w =>
    rcases byId_mem hby with ⟨hw, hwid⟩
    rw [eq_of_id hids hv hw (hid.trans hwid.symm)]

theorem find?_eq_byId (hids : (versions.map Version.id).Nodup) (id : String) :
    versions.find? (fun v => v.id == id) = byId versions id := by
  cases hfind : versions.find? fun v => v.id == id with
  | none =>
    symm
    rw [byId, find?_eq_none]
    intro v hv
    exact find?_eq_none.mp hfind v (mem_reverse.mp hv)
  | some v =>
    symm
    exact (byId_iff hids).mpr (find?_id hfind)

theorem checkDependencies_ok : ∀ {dependencies : List String},
    checkDependencies env versions dependencies = .ok () →
      ∀ d ∈ dependencies, approvalCurrent env versions d = true ∧ superseded versions d = false
  | [], _, _, hd => absurd hd not_mem_nil
  | dependency :: rest, h, d, hd => by
    rcases bind_ok.mp h with ⟨_, hcurrent, h⟩
    rcases bind_ok.mp h with ⟨_, hsuperseded, h⟩
    rw [raiseIf_ok] at hcurrent hsuperseded
    rw [Bool.or_eq_false_iff, Bool.not_eq_false'] at hcurrent
    rcases mem_cons.mp hd with rfl | hrest
    · exact ⟨hcurrent.2, hsuperseded⟩
    · exact checkDependencies_ok h d hrest

/-- What an edit has checked, and what it is stored as. -/
structure Added (env : CyclesEnv) (versions : List Version) (r : VersionCreate) (v : Version) :
    Prop where
  stored : ∃ actor id createdAt, v = draftVersion env r actor id createdAt
  replaced : ∀ x, r.replaced = some x → ∃ p, byId versions x = some p ∧ p.kind = r.kind ∧
    superseded versions x = false
  dependencies : ∀ d ∈ r.dependencies, approvalCurrent env versions d = true ∧
    superseded versions d = false

theorem addVersion_checked {r : VersionCreate} {createdAt : String} {trusted : Bool}
    (h : addVersion env versions r actor trusted id createdAt = .ok v) :
    v = draftVersion env r actor id createdAt ∧ Added env versions r v := by
  rcases bind_ok.mp h with ⟨_, hreplaced, h⟩
  rcases bind_ok.mp h with ⟨_, _, h⟩
  rcases bind_ok.mp h with ⟨_, hdependencies, h⟩
  have hstored := (pure_ok.mp h).symm
  refine ⟨hstored, ⟨actor, id, createdAt, hstored⟩, fun x hx => ?_,
    checkDependencies_ok hdependencies⟩
  rw [hx] at hreplaced
  rcases bind_ok.mp hreplaced with ⟨p, hp, hreplaced⟩
  rcases bind_ok.mp hreplaced with ⟨_, hkind, hreplaced⟩
  rcases bind_ok.mp hreplaced with ⟨_, _, hsuperseded⟩
  rw [someOr_ok] at hp
  rw [raiseIf_ok] at hkind hsuperseded
  exact ⟨p, hp, bne_eq_false_iff_eq.mp hkind, hsuperseded⟩

theorem approvalCurrent_approvable (h : approvalCurrent env versions id = true) :
    Approvable env versions id :=
  ((approvalCurrent_eq_true_iff id).mp h).holds_good

/-- A change of the first element that passes a test, at the place of that element. -/
theorem changeFirst_split {α : Type} {test : α → Bool} (change : α → α) :
    ∀ {xs : List α} {x : α}, xs.find? test = some x → ∃ before after,
      xs = before ++ x :: after ∧ changeFirst test change xs = before ++ change x :: after
  | [], _, h => absurd h.symm (some_ne_none _)
  | y :: ys, x, h => by
    rw [find?_cons] at h
    rw [changeFirst]
    cases hy : test y with
    | true =>
      rw [hy] at h
      cases h
      exact ⟨[], ys, rfl, by rw [if_pos rfl, nil_append]⟩
    | false =>
      rw [hy] at h
      rcases changeFirst_split change h with ⟨before, after, hsplit, hchanged⟩
      refine ⟨y :: before, after, congrArg (y :: ·) hsplit, ?_⟩
      rw [if_neg Bool.false_ne_true, hchanged, cons_append]

theorem transition_split
    (h : transition env versions a actor time independentReview = .ok versions') :
    ∃ before target after, versions = before ++ target :: after ∧ target.id = a.versionId ∧
      checkTransition env versions a actor independentReview target = .ok () ∧
      versions' = before ++ reviewed a actor time target :: after := by
  rcases bind_ok.mp h with ⟨target, htarget, h⟩
  rcases bind_ok.mp h with ⟨_, hcheck, h⟩
  rw [someOr_ok] at htarget
  rcases changeFirst_split (reviewed a actor time) htarget with
    ⟨before, after, hsplit, hchanged⟩
  refine ⟨before, target, after, hsplit, (find?_id htarget).2, hcheck, ?_⟩
  exact (pure_ok.mp h).symm.trans hchanged

/-- What a review that is no archiving has checked. -/
structure ReviewPassed (env : CyclesEnv) (versions : List Version) (a : CycleAction)
    (actor : String) (independentReview : Bool) (target : Version) : Prop where
  active : target.archived = false
  latest : superseded versions target.id = false
  status : target.status = a.action.expected
  intact : a.action = .submit ∨ a.action = .approve → contentIntegrity env target = true ∧
    contentIssues env target.kind target.content = []
  distinct : a.action = .approve → independentReview = true → actor ≠ target.createdBy
  upstream : a.action = .approve → ∀ d ∈ target.dependencies, upstreamStale env versions d = false

theorem checkReview_ok_iff
    {target : Version} : checkReview env versions a actor independentReview target = .ok () ↔
      ReviewPassed env versions a actor independentReview target := by
  have hsubmit : (a.action == .submit || a.action == .approve) = true ↔
      a.action = .submit ∨ a.action = .approve := by
    rw [Bool.or_eq_true, beq_iff_eq, beq_iff_eq]
  simp only [checkReview, bind_ok, raiseIf_ok, exists_const]
  constructor
  · rintro ⟨hactive, hstatus, hintact, hissues, hdistinct, hupstream⟩
    rw [Bool.or_eq_false_iff] at hactive
    refine ⟨hactive.1, hactive.2, bne_eq_false_iff_eq.mp hstatus, fun hs => ?_, fun hs hi heq => ?_,
      fun hs d hd => ?_⟩
    · rw [hsubmit.mpr hs, Bool.true_and, Bool.not_eq_false'] at hintact hissues
      exact ⟨hintact, List.isEmpty_iff.mp hissues⟩
    · rw [hs, hi, heq, beq_self_eq_true, beq_self_eq_true] at hdistinct
      exact Bool.noConfusion hdistinct
    · rw [hs, beq_self_eq_true, Bool.true_and, List.any_eq_false] at hupstream
      exact Bool.eq_false_iff.mpr (hupstream d hd)
  · rintro ⟨hactive, hlatest, hstatus, hintact, hdistinct, hupstream⟩
    refine ⟨?_, bne_eq_false_iff_eq.mpr hstatus, ?_, ?_, ?_, ?_⟩
    · rw [hactive, hlatest]
      rfl
    · cases hs : (a.action == .submit || a.action == .approve) with
      | false => rfl
      | true => rw [(hintact (hsubmit.mp hs)).1]; rfl
    · cases hs : (a.action == .submit || a.action == .approve) with
      | false => rfl
      | true => rw [(hintact (hsubmit.mp hs)).2]; rfl
    · rw [Bool.and_assoc, Bool.and_eq_false_iff, Bool.and_eq_false_iff]
      by_cases hs : a.action = .approve
      · cases hi : independentReview with
        | false => exact Or.inr (Or.inl rfl)
        | true => exact Or.inr (Or.inr (beq_eq_false_iff_ne.mpr (hdistinct hs hi)))
      · exact Or.inl (beq_eq_false_iff_ne.mpr hs)
    · rw [Bool.and_eq_false_iff]
      by_cases hs : a.action = .approve
      · refine Or.inr (List.any_eq_false.mpr fun d hd => ?_)
        rw [hupstream hs d hd]
        exact Bool.false_ne_true
      · exact Or.inl (beq_eq_false_iff_ne.mpr hs)

theorem upstreamStale_false {d : String} (h : upstreamStale env versions d = false) :
    approvalCurrent env versions d = true := by
  rw [upstreamStale] at h
  split at h
  · exact Bool.noConfusion h
  · rw [Bool.or_eq_false_iff, Bool.or_eq_false_iff, Bool.not_eq_false'] at h
    exact h.1.1

/-- A version after reviews: its record is as it was, its reviews have only grown and an
    approval is not taken back. -/
structure Evolved (v w : Version) : Prop where
  id : w.id = v.id
  kind : w.kind = v.kind
  content : w.content = v.content
  checksum : w.checksum = v.checksum
  dependencies : w.dependencies = v.dependencies
  replaces : w.replaces = v.replaces
  createdBy : w.createdBy = v.createdBy
  reviews : v.reviews <+: w.reviews
  approved : v.status = .approved → w.status = .approved

theorem Evolved.refl (v : Version) : Evolved v v :=
  ⟨rfl, rfl, rfl, rfl, rfl, rfl, rfl, prefix_rfl, fun h => h⟩

theorem Evolved.trans {u w : Version} (huv : Evolved u v) (hvw : Evolved v w) : Evolved u w where
  id := hvw.id.trans huv.id
  kind := hvw.kind.trans huv.kind
  content := hvw.content.trans huv.content
  checksum := hvw.checksum.trans huv.checksum
  dependencies := hvw.dependencies.trans huv.dependencies
  replaces := hvw.replaces.trans huv.replaces
  createdBy := hvw.createdBy.trans huv.createdBy
  reviews := huv.reviews.trans hvw.reviews
  approved h := hvw.approved (huv.approved h)

instance : Std.Refl Evolved := ⟨Evolved.refl⟩

instance : IsTrans Version Evolved := ⟨fun _ _ _ => Evolved.trans⟩

theorem evolved_reviewed {target : Version}
    (h : checkTransition env versions a actor independentReview target = .ok ()) :
    Evolved target (reviewed a actor time target) := by
  unfold reviewed
  split
  · exact ⟨rfl, rfl, rfl, rfl, rfl, rfl, rfl, prefix_append _ _, fun h => h⟩
  next hreview =>
    rw [checkTransition, if_neg hreview, checkReview_ok_iff] at h
    refine ⟨rfl, rfl, rfl, rfl, rfl, rfl, rfl, prefix_append _ _, fun happroved => ?_⟩
    have hexpected := h.status.symm.trans happroved
    cases haction : a.action with
    | submit =>
      rw [haction] at hexpected
      cases hexpected
    | _ =>
      rw [haction] at hexpected
      cases hexpected

/-- Every version is still there, in its place, and has evolved; later versions follow. -/
abbrev Grown : List Version → List Version → Prop := Extends Evolved

theorem HistoryStep.grown (h : HistoryStep env versions versions') : Grown versions versions' := by
  cases h with
  | added r actor id createdAt trusted v hok hfresh hid => exact Extends.append versions [v]
  | reviewed a actor time independentReview hok =>
    rcases transition_split hok with ⟨before, target, after, rfl, _, hcheck, rfl⟩
    exact Extends.change before after (evolved_reviewed hcheck)

theorem HistoryRun.grown (h : HistoryRun env versions versions') : Grown versions versions' := by
  induction h with
  | refl => exact Extends.refl versions
  | tail _ hstep ih => exact ih.trans hstep.grown

/-- What is told of a history: ids are distinct, what is replaced is there, of the same kind and
    replaced once, and what a version rests on is there, complete, of a lower rank, and approved
    where the version is. -/
structure SoundHistory (env : CyclesEnv) (versions : List Version) : Prop where
  ids : (versions.map Version.id).Nodup
  named : ∀ v ∈ versions, v.id ≠ ""
  replaced : ∀ v ∈ versions, ∀ x, v.replaces = some x → x ≠ "" →
    ∃ p ∈ versions, p.id = x ∧ p.kind = v.kind
  once : ∀ v ∈ versions, ∀ w ∈ versions, ∀ x, x ≠ "" → v.replaces = some x →
    w.replaces = some x → v.id = w.id
  complete : ∀ v ∈ versions, ∀ d ∈ v.dependencies,
    ∃ w ∈ versions, w.id = d ∧ contentIssues env w.kind w.content = []
  approved : ∀ v ∈ versions, v.status = .approved → ∀ d ∈ v.dependencies,
    ∃ w ∈ versions, w.id = d ∧ w.status = .approved
  ranked : ∃ rank : String → Nat, ∀ v ∈ versions, ∀ d ∈ v.dependencies, rank d < rank v.id

theorem soundHistory_nil (env : CyclesEnv) : SoundHistory env [] where
  ids := nodup_nil
  named _ h := absurd h not_mem_nil
  replaced _ h := absurd h not_mem_nil
  once _ h := absurd h not_mem_nil
  complete _ h := absurd h not_mem_nil
  approved _ h := absurd h not_mem_nil
  ranked := ⟨fun _ => 0, fun _ h => absurd h not_mem_nil⟩

theorem evolved_ids (h : Forall₂ Evolved versions versions') :
    versions'.map Version.id = versions.map Version.id := by
  induction h with
  | nil => rfl
  | cons hvw _ ih => rw [map_cons, map_cons, hvw.id, ih]

section

variable (h : SoundHistory env versions)

include h

/-- A sound history stays sound while its versions evolve, if what is approved then rests on
    what is approved. -/
theorem SoundHistory.evolve
    (hevolved : Forall₂ Evolved versions versions')
    (happroved : ∀ v ∈ versions', v.status = .approved → ∀ d ∈ v.dependencies,
      ∃ w ∈ versions', w.id = d ∧ w.status = .approved) : SoundHistory env versions' where
  ids := evolved_ids hevolved ▸ h.ids
  named w hw := by
    rcases forall₂_of_mem hevolved hw with ⟨v, hv, hvw⟩
    rw [hvw.id]
    exact h.named v hv
  replaced w hw x hx hne := by
    rcases forall₂_of_mem hevolved hw with ⟨v, hv, hvw⟩
    rcases h.replaced v hv x (hvw.replaces ▸ hx) hne with ⟨p, hp, hid, hkind⟩
    rcases forall₂_mem hevolved hp with ⟨p', hp', hpp'⟩
    exact ⟨p', hp', hpp'.id.trans hid, hpp'.kind.trans (hkind.trans hvw.kind.symm)⟩
  once v' hv' w' hw' x hne hx hy := by
    rcases forall₂_of_mem hevolved hv' with ⟨v, hv, hvv'⟩
    rcases forall₂_of_mem hevolved hw' with ⟨w, hw, hww'⟩
    rw [hvv'.id, hww'.id]
    exact h.once v hv w hw x hne (hvv'.replaces ▸ hx) (hww'.replaces ▸ hy)
  complete w hw d hd := by
    rcases forall₂_of_mem hevolved hw with ⟨v, hv, hvw⟩
    rcases h.complete v hv d (hvw.dependencies ▸ hd) with ⟨u, hu, hid, hissues⟩
    rcases forall₂_mem hevolved hu with ⟨u', hu', huu'⟩
    refine ⟨u', hu', huu'.id.trans hid, ?_⟩
    rw [huu'.kind, huu'.content]
    exact hissues
  approved := happroved
  ranked := by
    rcases h.ranked with ⟨rank, hrank⟩
    refine ⟨rank, fun w hw d hd => ?_⟩
    rcases forall₂_of_mem hevolved hw with ⟨v, hv, hvw⟩
    rw [hvw.id]
    exact hrank v hv d (hvw.dependencies ▸ hd)

theorem SoundHistory.review
    (hok : transition env versions a actor time independentReview = .ok versions') :
    SoundHistory env versions' := by
  rcases transition_split hok with ⟨before, target, after, rfl, _, hcheck, rfl⟩
  have hevolved : Forall₂ Evolved (before ++ target :: after)
      (before ++ reviewed a actor time target :: after) :=
    forall₂_change before after (evolved_reviewed hcheck)
  -- What was approved among what a version rests on still is.
  have hkeeps : ∀ d w, w ∈ before ++ target :: after → w.id = d → w.status = .approved →
      ∃ w' ∈ before ++ reviewed a actor time target :: after, w'.id = d ∧ w'.status = .approved := by
    intro d w hw hid hstatus
    rcases forall₂_mem hevolved hw with ⟨w', hw', hww'⟩
    exact ⟨w', hw', hww'.id.trans hid, hww'.approved hstatus⟩
  refine h.evolve hevolved fun v hv hstatus d hd => ?_
  have hold : ∀ v₀ ∈ before ++ target :: after, v₀.status = .approved → d ∈ v₀.dependencies →
      ∃ w' ∈ before ++ reviewed a actor time target :: after,
        w'.id = d ∧ w'.status = .approved := by
    intro v₀ hv₀ hstatus₀ hd₀
    rcases h.approved v₀ hv₀ hstatus₀ d hd₀ with ⟨w, hw, hid, hwstatus⟩
    exact hkeeps d w hw hid hwstatus
  rcases mem_append.mp hv with hbefore | hrest
  · exact hold v (mem_append_left _ hbefore) hstatus hd
  rcases mem_cons.mp hrest with rfl | hafter
  · unfold reviewed at hstatus hd
    split at hstatus
    next hmark =>
      rw [if_pos hmark] at hd
      exact hold target (mem_append_right _ mem_cons_self) hstatus hd
    next hmark =>
      rw [if_neg hmark] at hd
      rw [checkTransition, if_neg hmark, checkReview_ok_iff] at hcheck
      have hstatus' : a.action.result = .approved := hstatus
      have haction : a.action = .approve := by
        cases haction : a.action with
        | approve => rfl
        | _ =>
          rw [haction] at hstatus'
          cases hstatus'
      rcases approvalCurrent_approvable (upstreamStale_false (hcheck.upstream haction d hd)) with
        ⟨w, hw, hwstatus, _⟩
      exact hkeeps d w (byId_mem hw).1 (byId_mem hw).2 hwstatus
  · exact hold v (mem_append_right _ (mem_cons_of_mem _ hafter)) hstatus hd

theorem SoundHistory.add {r : VersionCreate} {createdAt : String}
    {trusted : Bool} (hok : addVersion env versions r actor trusted id createdAt = .ok v)
    (hfresh : ∀ w ∈ versions, w.id ≠ id) (hid : id ≠ "") : SoundHistory env (versions ++ [v]) := by
  rcases addVersion_checked hok with ⟨rfl, hadded⟩
  have hold : ∀ {w}, w ∈ versions ++ [draftVersion env r actor id createdAt] →
      w ∈ versions ∨ w = draftVersion env r actor id createdAt :=
    fun hw => (mem_append.mp hw).imp_right mem_singleton.mp
  have hreplaced : ∀ {x}, r.replaces = some x → x ≠ "" → r.replaced = some x :=
    fun hx hne => filter_eq_some_iff.mpr ⟨hx, bne_iff_ne.mpr hne⟩
  have hfirst : ∀ w ∈ versions, ∀ x, x ≠ "" → w.replaces = some x → r.replaces ≠ some x := by
    intro w hw x hne hwx hx
    rcases hadded.replaced x (hreplaced hx hne) with ⟨_, _, _, hsuperseded⟩
    exact superseded_eq_false.mp hsuperseded w hw hwx
  constructor
  · rw [map_append, nodup_append]
    refine ⟨h.ids, nodup_singleton _, fun x hx y hy => ?_⟩
    rcases List.mem_map.mp hx with ⟨w, hw, rfl⟩
    rw [map_singleton, mem_singleton] at hy
    exact hy ▸ hfresh w hw
  · intro w hw
    rcases hold hw with hw | rfl
    · exact h.named w hw
    · exact hid
  · intro w hw x hx hne
    rcases hold hw with hw | rfl
    · rcases h.replaced w hw x hx hne with ⟨p, hp, hpid⟩
      exact ⟨p, mem_append_left _ hp, hpid⟩
    · rcases hadded.replaced x (hreplaced hx hne) with ⟨p, hp, hkind, _⟩
      exact ⟨p, mem_append_left _ (byId_mem hp).1, (byId_mem hp).2, hkind⟩
  · intro u hu w hw x hne hux hwx
    rcases hold hu with hu | rfl
    · rcases hold hw with hw | rfl
      · exact h.once u hu w hw x hne hux hwx
      · exact absurd hwx (hfirst u hu x hne hux)
    · rcases hold hw with hw | rfl
      · exact absurd hux (hfirst w hw x hne hwx)
      · rfl
  · intro w hw d hd
    rcases hold hw with hw | rfl
    · rcases h.complete w hw d hd with ⟨u, hu, huid⟩
      exact ⟨u, mem_append_left _ hu, huid⟩
    · rcases approvalCurrent_approvable (hadded.dependencies d hd).1 with
        ⟨u, hu, _, _, _, _, hissues⟩
      exact ⟨u, mem_append_left _ (byId_mem hu).1, (byId_mem hu).2, hissues⟩
  · intro w hw hstatus d hd
    rcases hold hw with hw | rfl
    · rcases h.approved w hw hstatus d hd with ⟨u, hu, huid⟩
      exact ⟨u, mem_append_left _ hu, huid⟩
    · cases hstatus
  · rcases h.ranked with ⟨rank, hrank⟩
    have htop : ∀ w ∈ versions, rank w.id < (versions.map fun w => rank w.id).sum + 1 :=
      fun w hw => Nat.lt_succ_of_le
        (single_le_sum (fun _ _ => Nat.zero_le _) _ (List.mem_map_of_mem hw))
    have hbelow : ∀ w ∈ versions ++ [draftVersion env r actor id createdAt],
        ∀ d ∈ w.dependencies, ∃ u ∈ versions, u.id = d := by
      intro w hw d hd
      rcases hold hw with hw | rfl
      · rcases h.complete w hw d hd with ⟨u, hu, huid, _⟩
        exact ⟨u, hu, huid⟩
      · rcases approvalCurrent_approvable (hadded.dependencies d hd).1 with ⟨u, hu, _⟩
        exact ⟨u, (byId_mem hu).1, (byId_mem hu).2⟩
    refine ⟨fun x => if x = id then (versions.map fun w => rank w.id).sum + 1 else rank x,
      fun w hw d hd => ?_⟩
    rcases hbelow w hw d hd with ⟨u, hu, rfl⟩
    simp only [if_neg (hfresh u hu)]
    rcases hold hw with hw | rfl
    · rw [if_neg (hfresh w hw)]
      exact hrank w hw u.id hd
    · rw [if_pos (show (draftVersion env r actor id createdAt).id = id from rfl)]
      exact htop u hu

theorem SoundHistory.step
    (hstep : HistoryStep env versions versions') : SoundHistory env versions' := by
  cases hstep with
  | added r actor id createdAt trusted v hok hfresh hid => exact h.add hok hfresh hid
  | reviewed a actor time independentReview hok => exact h.review hok

theorem SoundHistory.run
    (hrun : HistoryRun env versions versions') : SoundHistory env versions' := by
  induction hrun with
  | refl => exact h
  | tail _ hstep ih => exact ih.step hstep

end

theorem HistoryRun.built (hrun : HistoryRun env [] versions) : SoundHistory env versions :=
  (soundHistory_nil env).run hrun

/-- The moment a version was created: what was there then is there now, in its place, and
    whatever the version rests on stood. -/
structure CreatedAt (env : CyclesEnv) (start versions before : List Version) (v : Version)
    (earlier : List Version) (created : Version) : Prop where
  reached : HistoryRun env start earlier
  appended : HistoryStep env earlier (earlier ++ [created])
  later : HistoryRun env (earlier ++ [created]) versions
  before : List.Forall₂ Evolved earlier before
  evolved : Evolved created v
  rested : ∀ d ∈ v.dependencies, approvalCurrent env earlier d = true

theorem HistoryRun.created {start : List Version} (hrun : HistoryRun env start versions) :
    ∀ {before after : List Version} {v : Version}, versions = before ++ v :: after →
      start.length ≤ before.length →
        ∃ earlier created, CreatedAt env start versions before v earlier created := by
  induction hrun with
  | refl =>
    intro before after v hsplit hlen
    rw [hsplit, length_append, length_cons] at hlen
    omega
  | @tail mid versions' hrun hstep ih =>
    intro before after v hsplit hlen
    have hextend : ∀ {before₀ : List Version} {v₀ : Version},
        Forall₂ Evolved before₀ before → Evolved v₀ v →
        (∃ earlier created, CreatedAt env start mid before₀ v₀ earlier created) →
        ∃ earlier created, CreatedAt env start versions' before v earlier created := by
      rintro before₀ v₀ hbefore hv ⟨earlier, created, hc⟩
      exact ⟨earlier, created, hc.reached, hc.appended, hc.later.tail hstep,
        forall₂_trans hc.before hbefore, hc.evolved.trans hv,
        fun d hd => hc.rested d (hv.dependencies ▸ hd)⟩
    cases hstep with
    | added r actor id createdAt trusted w hok hfresh hid =>
      rcases eq_nil_or_concat after with rfl | ⟨after₀, last, rfl⟩
      · rcases append_inj' hsplit rfl with ⟨rfl, hlast⟩
        cases hlast
        rcases addVersion_checked hok with ⟨rfl, hadded⟩
        exact ⟨mid, _, hrun, .added r actor id createdAt trusted _ hok hfresh hid,
          Relation.ReflTransGen.refl, forall₂_self mid, Evolved.refl _,
          fun d hd => (hadded.dependencies d hd).1⟩
      · rw [concat_eq_append, ← cons_append, ← append_assoc] at hsplit
        rcases append_inj' hsplit rfl with ⟨hmid, _⟩
        exact hextend (forall₂_self before) (Evolved.refl v) (ih hmid hlen)
    | reviewed a actor time independentReview hok =>
      rcases transition_split hok with ⟨front, target, back, hmid, _, hcheck, hback⟩
      have hevolved : Forall₂ Evolved mid versions' := by
        rw [hmid, hback]
        exact forall₂_change front back (evolved_reviewed hcheck)
      rw [hsplit] at hevolved
      rcases forall₂_at hevolved with ⟨before₀, v₀, after₀, hmid₀, hbefore, hv⟩
      exact hextend hbefore hv (ih hmid₀ (hbefore.length_eq ▸ hlen))

/-- The invariant of a history that is built from nothing, between any two of its states: ids
    stay distinct and every version keeps its record, adds to its reviews and keeps an approval;
    a version is replaced by one version at most, of its kind; what a version rests on is before
    it, and was approved when it was created; and what an approved version rests on is
    approved. -/
theorem history_invariant (env : CyclesEnv) {earlier later : List Version}
    (hbuilt : HistoryRun env [] earlier) (hrun : HistoryRun env earlier later) :
    Grown earlier later ∧ (later.map Version.id).Nodup ∧
      (∀ v ∈ later, ∀ w ∈ later, ∀ w' ∈ later, w.replaces = some v.id →
        w'.replaces = some v.id → w = w' ∧ w.kind = v.kind) ∧
      (∀ before v after, later = before ++ v :: after → ∃ past created,
        CreatedAt env [] later before v past created ∧
        (∀ d ∈ v.dependencies, ∃ w ∈ past, w.id = d ∧ w.status = .approved) ∧
        ∀ d ∈ v.dependencies, ∃ w ∈ before, w.id = d) ∧
      ∀ v ∈ later, v.status = .approved → ∀ d ∈ v.dependencies,
        ∃ w ∈ later, w.id = d ∧ w.status = .approved := by
  have hall : HistoryRun env [] later := Relation.ReflTransGen.trans hbuilt hrun
  have hsound := HistoryRun.built hall
  refine ⟨HistoryRun.grown hrun, hsound.ids, ?_, ?_, hsound.approved⟩
  · intro v hv w hw w' hw' hreplaces hreplaces'
    have hne := hsound.named v hv
    have heq := hsound.once w hw w' hw' v.id hne hreplaces hreplaces'
    rcases hsound.replaced w hw v.id hreplaces hne with ⟨p, hp, hid, hkind⟩
    refine ⟨eq_of_id hsound.ids hw hw' heq, ?_⟩
    rw [← hkind, eq_of_id hsound.ids hp hv hid]
  · intro before v after hsplit
    rcases HistoryRun.created hall hsplit (Nat.zero_le _) with ⟨past, created, hc⟩
    have happroved : ∀ d ∈ v.dependencies, ∃ w ∈ past, w.id = d ∧ w.status = .approved := by
      intro d hd
      rcases approvalCurrent_approvable (hc.rested d hd) with ⟨w, hw, hstatus, _⟩
      exact ⟨w, (byId_mem hw).1, (byId_mem hw).2, hstatus⟩
    refine ⟨past, created, hc, happroved, fun d hd => ?_⟩
    rcases happroved d hd with ⟨w, hw, hid, _⟩
    rcases forall₂_mem hc.before hw with ⟨w', hw', hww'⟩
    exact ⟨w', hw', hww'.id.trans hid⟩

def sampleContent : Dict Json :=
  ((Dict.single "requirements" (.str "Two seconds")).set "source_manifest"
    (.str "Wiki page 7")).set "included" (.str "Checkout")

/-- The text of that scope, of an empty document and of their digests. -/
def sampleEnv : CyclesEnv where
  sha256 text :=
    if text = "\x7b\x7d" then "44136fa355b3678a1146ad16f7e8649e94fb4fc21fe77e8310c060f61caaff8a"
    else "9bcac5617e2b2f62679fdf91457412fcb9cc02a9d51aec40f44f8923f85d1daa"
  canonicalJson d :=
    if d = sampleContent then
      "\x7b\"included\":\"Checkout\",\"requirements\":\"Two seconds\"," ++
        "\"source_manifest\":\"Wiki page 7\"\x7d"
    else "\x7b\x7d"
  loads _ := none
  jsonBytes v := v.nodes
  jsonObjectOk _ _ _ := true
  credentials _ := false
  decimalDigit c := c.isDigit
  utcLabel _ := "2026-01-01 00:00:00 UTC"
  independentReview := true

def sampleScope : VersionCreate where
  expectedRevision := 1
  kind := .scope
  title := "Scope"
  content := sampleContent
  changeSummary := "First draft"

/-- A request for a plan that rests on the scope. -/
def samplePlan : VersionCreate where
  expectedRevision := 4
  kind := .testPlan
  title := "Plan"
  content := ∅
  dependencies := ["s1"]
  changeSummary := "First draft"

def onScope (action : ReviewAction) : CycleAction := ⟨2, action, "s1", ""⟩

/-- The scope as a draft, submitted and approved. -/
def scopeDraft : Version := draftVersion sampleEnv sampleScope "ann" "s1" "2026-01-01T00:00:00"

def scopeSubmitted : Version := reviewed (onScope .submit) "ann" "2026-01-01T00:01:00" scopeDraft

def scopeApproved : Version := reviewed (onScope .approve) "bob" "2026-01-01T00:02:00" scopeSubmitted

def planDraft : Version := draftVersion sampleEnv samplePlan "ann" "p1" "2026-01-01T00:03:00"

theorem scopeApproved_built : HistoryRun sampleEnv [] [scopeApproved] := by
  have hadd : HistoryStep sampleEnv [] [scopeDraft] :=
    .added sampleScope "ann" "s1" "2026-01-01T00:00:00" false scopeDraft (by decide +kernel)
      (fun _ h => absurd h not_mem_nil) (by decide)
  have hsubmit : HistoryStep sampleEnv [scopeDraft] [scopeSubmitted] :=
    .reviewed (onScope .submit) "ann" "2026-01-01T00:01:00" true (by decide +kernel)
  have happrove : HistoryStep sampleEnv [scopeSubmitted] [scopeApproved] :=
    .reviewed (onScope .approve) "bob" "2026-01-01T00:02:00" true (by decide +kernel)
  exact ((Relation.ReflTransGen.single hadd).tail hsubmit).tail happrove

theorem planDraft_added : HistoryStep sampleEnv [scopeApproved] [scopeApproved, planDraft] :=
  .added samplePlan "ann" "p1" "2026-01-01T00:03:00" false planDraft (by decide +kernel)
    (by decide +kernel) (by decide)

theorem history_invariant_plan : Grown [scopeApproved] [scopeApproved, planDraft] ∧
    (∀ d ∈ planDraft.dependencies, ∃ w ∈ [scopeApproved], w.id = d) := by
  have h := history_invariant sampleEnv scopeApproved_built
    (Relation.ReflTransGen.single planDraft_added)
  refine ⟨h.1, ?_⟩
  rcases h.2.2.2.1 [scopeApproved] planDraft [] rfl with ⟨_, _, _, _, hbefore⟩
  exact hbefore

end Apex.Domain
