import Apex.Domain.CycleExecutions
import Apex.Theory.Cycles.Staleness

/-!
# Preparations And Their Checks

A preparation asks whether versions are approved and freezes what they said; its checks ask
again later and compare. They take different ways through the history, which goes on in
between. The two agree, because a version keeps its record: all a check can find changed is
whether the approval still stands, and that changes with a version that the frozen one
rests on, or not at all.

## Main definitions

* `statusOf`: What the checks say of a frozen version.
* `FrozenAt`: A version is frozen as it is in a history.

## Theorems

* `prepareSnapshot_frozen`: What a preparation has checked.
* `FrozenAt.statusOf_iff`: A check passes where the approval stands.
-/

namespace Apex.Domain.CycleExecutions

open List Option

variable {env : CyclesEnv} {versions later : List Version} {s : ExecutionSnapshot}

def statusOf (checks : List PreflightCheck) (kind : Frozen) : Option CheckStatus :=
  (checks.find? fun c => c.key == kind.value).map PreflightCheck.status

theorem statusOf_executionChecks (c : Conditions) (kind : Frozen) :
    statusOf (executionChecks env s versions c) kind =
      some (if frozenCurrent env s versions kind then .ready else .blocked) := by
  cases kind with
  | plan => rfl
  | script => rfl
  | readiness => rfl

theorem statusOf_ready (c : Conditions) (kind : Frozen) :
    statusOf (executionChecks env s versions c) kind = some .ready ↔
      frozenCurrent env s versions kind = true := by
  rw [statusOf_executionChecks, some_inj]
  cases frozenCurrent env s versions kind with
  | true => exact iff_of_true rfl rfl
  | false => exact iff_of_false CheckStatus.noConfusion Bool.noConfusion

structure FrozenAt (s : ExecutionSnapshot) (versions : List Version) (kind : Frozen)
    (id : String) : Prop where
  named : s.versionId kind = some id
  kept : ∃ v ∈ versions, v.id = id ∧ s.checksum kind = some v.checksum

variable {kind : Frozen} {id actor : String} {after : List Version} {v : Version}

section

variable (h : FrozenAt s versions kind id)

include h

theorem FrozenAt.grown
    (hgrown : Grown versions later) : FrozenAt s later kind id := by
  rcases h.kept with ⟨v, hv, hid, hchecksum⟩
  rcases hgrown with ⟨kept, added, rfl, hkept⟩
  rcases forall₂_mem hkept hv with ⟨w, hw, hvw⟩
  refine ⟨h.named, w, mem_append_left _ hw, hvw.id.trans hid, ?_⟩
  rw [hvw.checksum]
  exact hchecksum

theorem FrozenAt.current_iff
    (hids : (versions.map Version.id).Nodup) :
    frozenCurrent env s versions kind = true ↔ approvalCurrent env versions id = true := by
  rcases h.kept with ⟨v, hv, hid, hchecksum⟩
  have hfind : versionOf versions (s.versionId kind) = some v := by
    have hby := (find?_eq_byId hids id).trans ((byId_iff hids).mpr ⟨hv, hid⟩)
    rw [versionOf, h.named]
    exact hby
  rw [frozenCurrent, hfind, any_some, Bool.and_eq_true, Bool.and_eq_true, hid, hchecksum]
  refine ⟨fun hcurrent => hcurrent.1.1, fun hcurrent => ⟨⟨hcurrent, beq_self_eq_true _⟩, ?_⟩⟩
  rcases approvalCurrent_approvable hcurrent with ⟨w, hw, _, _, _, hintact, _⟩
  rw [eq_of_id hids hv (byId_mem hw).1 (hid.trans (byId_mem hw).2.symm)]
  exact beq_iff_eq.mpr hintact

theorem FrozenAt.statusOf_iff
    (hids : (versions.map Version.id).Nodup) (c : Conditions) :
    statusOf (executionChecks env s versions c) kind = some .ready ↔
      approvalCurrent env versions id = true := by
  rw [statusOf_ready, h.current_iff hids]

theorem FrozenAt.status_changed (h' : FrozenAt s after kind id)
    (hids : (versions.map Version.id).Nodup) (hids' : (after.map Version.id).Nodup)
    {c c' : Conditions} (hne : statusOf (executionChecks env s after c') kind ≠
      statusOf (executionChecks env s versions c) kind) :
    ¬ (id ∈ standing env after ↔ id ∈ standing env versions) := by
  intro hsame
  have hcurrent : frozenCurrent env s after kind = frozenCurrent env s versions kind := by
    rw [Bool.eq_iff_iff, h.current_iff hids, h'.current_iff hids']
    exact hsame
  rw [statusOf_executionChecks, statusOf_executionChecks, hcurrent] at hne
  exact hne rfl

end

theorem approved_ok {kind : Kind} (h : approved env versions id kind = .ok v) :
    v ∈ versions ∧ v.id = id ∧ approvalCurrent env versions id = true := by
  rcases bind_ok.mp h with ⟨w, hw, h⟩
  rcases bind_ok.mp h with ⟨_, hcurrent, h⟩
  rcases bind_ok.mp h with ⟨_, _, h⟩
  rw [someOr_ok] at hw
  rw [raiseIf_ok, Bool.or_eq_false_iff, Bool.not_eq_false'] at hcurrent
  rw [← pure_ok.mp h]
  exact ⟨(find?_id hw).1, (find?_id hw).2, hcurrent.2⟩

theorem selectedReadiness_ok {plan : Version} {id : Option String} {readiness : Option Version}
    (h : selectedReadiness env versions plan id = .ok readiness) :
    readiness.map Version.id = id ∧ ∀ v, readiness = some v →
      v ∈ versions ∧ approvalCurrent env versions v.id = true := by
  cases id with
  | none =>
    cases h
    exact ⟨rfl, fun v hv => absurd hv.symm (some_ne_none v)⟩
  | some id =>
    rcases bind_ok.mp h with ⟨v, hv, h⟩
    rcases bind_ok.mp h with ⟨_, _, h⟩
    rcases approved_ok hv with ⟨hmem, hid, hcurrent⟩
    rw [← pure_ok.mp h, map_some, hid]
    refine ⟨rfl, fun w hw => ?_⟩
    cases hw
    exact ⟨hmem, hid ▸ hcurrent⟩

theorem prepareSnapshot_frozen {r : PrepareExecution} {binding : Binding}
    (h : prepareSnapshot env r versions binding = .ok s) :
    s.versionId .plan = some r.planVersionId ∧ s.versionId .script = some r.scriptVersionId ∧
      s.versionId .readiness = r.readiness ∧ ∀ kind id, s.versionId kind = some id →
        FrozenAt s versions kind id ∧ approvalCurrent env versions id = true := by
  rcases bind_ok.mp h with ⟨plan, hplan, h⟩
  rcases bind_ok.mp h with ⟨script, hscript, h⟩
  rcases bind_ok.mp h with ⟨_, _, h⟩
  rcases bind_ok.mp h with ⟨readiness, hreadiness, h⟩
  rcases bind_ok.mp h with ⟨_, _, h⟩
  rcases bind_ok.mp h with ⟨_, _, h⟩
  rcases bind_ok.mp h with ⟨_, _, h⟩
  rcases bind_ok.mp h with ⟨_, _, h⟩
  rcases bind_ok.mp h with ⟨_, _, h⟩
  rcases bind_ok.mp h with ⟨_, _, h⟩
  rcases bind_ok.mp h with ⟨_, _, h⟩
  have hs := (pure_ok.mp h).symm
  rcases approved_ok hplan with ⟨hplanMem, hplanId, hplanCurrent⟩
  rcases approved_ok hscript with ⟨hscriptMem, hscriptId, hscriptCurrent⟩
  rcases selectedReadiness_ok hreadiness with ⟨hreadinessId, hreadinessCurrent⟩
  subst hs
  refine ⟨congrArg some hplanId, congrArg some hscriptId, hreadinessId, fun kind id hid => ?_⟩
  cases kind with
  | plan =>
    cases hid
    exact ⟨⟨rfl, plan, hplanMem, rfl, rfl⟩, hplanId ▸ hplanCurrent⟩
  | script =>
    cases hid
    exact ⟨⟨rfl, script, hscriptMem, rfl, rfl⟩, hscriptId ▸ hscriptCurrent⟩
  | readiness =>
    have hsome : readiness.map Version.id = some id := hid
    rcases map_eq_some_iff.mp hsome with ⟨v, hv, rfl⟩
    rcases hreadinessCurrent v hv with ⟨hmem, hcurrent⟩
    exact ⟨⟨hid, v, hmem, rfl, congrArg (Option.map Version.checksum) hv⟩, hcurrent⟩

/-- What stands or not changes with the archive mark of a version it rests on, or by the
    approval of the version itself. -/
theorem standing_changed_review (hsound : SoundHistory env versions) {a : CycleAction}
    {time : String} {independentReview : Bool}
    (hok : transition env versions a actor time independentReview = .ok after)
    (hchanged : ¬ (id ∈ standing env after ↔ id ∈ standing env versions)) :
    ((a.action = .archive ∨ a.action = .restore) ∧ id ∈ restingOn versions a.versionId) ∨
      (a.action = .approve ∧ id = a.versionId) := by
  have hrests : id ∈ restingOn versions a.versionId := by
    by_contra hrests
    exact hchanged (hsound.standing_frame hok hrests)
  cases haction : a.action with
  | archive => exact Or.inl ⟨Or.inl rfl, hrests⟩
  | restore => exact Or.inl ⟨Or.inr rfl, hrests⟩
  | submit =>
    rw [hsound.standing_submit hok (Or.inl haction)] at hchanged
    exact absurd Iff.rfl hchanged
  | requestRevision =>
    rw [hsound.standing_submit hok (Or.inr haction)] at hchanged
    exact absurd Iff.rfl hchanged
  | approve =>
    refine Or.inr ⟨rfl, ?_⟩
    by_contra hne
    rw [(hsound.standing_approve hok haction).2, Set.mem_insert_iff] at hchanged
    exact hchanged (or_iff_right hne)

theorem standing_changed_edit (hsound : SoundHistory env versions) {r : VersionCreate}
    {createdAt : String} {trusted : Bool} {key : String}
    (hok : addVersion env versions r actor trusted id createdAt = .ok v)
    (hfresh : ∀ w ∈ versions, w.id ≠ id)
    (hchanged : ¬ (key ∈ standing env (versions ++ [v]) ↔ key ∈ standing env versions)) :
    ∃ x, r.replaced = some x ∧ key ∈ restingOn versions x := by
  cases hx : r.replaced with
  | none =>
    rw [hsound.standing_add hok hfresh hx] at hchanged
    exact absurd Iff.rfl hchanged
  | some x =>
    refine ⟨x, rfl, ?_⟩
    by_contra hrests
    rw [hsound.standing_replace hok hfresh hx, Set.mem_sdiff] at hchanged
    exact hchanged (and_iff_left hrests)

theorem not_approved_again (hsound : SoundHistory env versions) {a : CycleAction} {time : String}
    {independentReview : Bool}
    (hok : transition env versions a actor time independentReview = .ok after)
    (haction : a.action = .approve) (hv : v ∈ versions) (hid : v.id = a.versionId) :
    v.status ≠ .approved := by
  rcases hsound.reviewing hok with ⟨target, hr, htarget, hcheck⟩
  rw [checkTransition, if_neg (by rw [haction]; decide), checkReview_ok_iff] at hcheck
  rw [eq_of_id hsound.ids hv hr.mem (hid.trans htarget.symm), hcheck.status, haction]
  exact VersionStatus.noConfusion

/-- Preparation and checks agree. What a preparation freezes is ready in the history it was
    prepared from; after any further operations it is ready exactly where its approval stands;
    and an operation changes that only if it archives, restores or replaces a version that the
    frozen one is or rests on. -/
theorem preparation_agrees (env : CyclesEnv) {versions : List Version}
    (hbuilt : HistoryRun env [] versions) {r : PrepareExecution} {binding : Binding}
    {s : ExecutionSnapshot} (hprepared : prepareSnapshot env r versions binding = .ok s) :
    s.versionId .plan = some r.planVersionId ∧ s.versionId .script = some r.scriptVersionId ∧
      s.versionId .readiness = r.readiness ∧
      ∀ kind id, s.versionId kind = some id →
        (∀ c, statusOf (executionChecks env s versions c) kind = some .ready) ∧
        ∀ later, HistoryRun env versions later →
          (∀ c, statusOf (executionChecks env s later c) kind = some .ready ↔
            approvalCurrent env later id = true) ∧
          (∀ (a : CycleAction) (actor time : String) (independentReview : Bool)
            (after : List Version),
            transition env later a actor time independentReview = .ok after → ∀ c c',
              statusOf (executionChecks env s after c') kind ≠
                statusOf (executionChecks env s later c) kind →
              (a.action = .archive ∨ a.action = .restore) ∧ id ∈ restingOn later a.versionId) ∧
          (∀ (edit : VersionCreate) (actor fresh createdAt : String) (trusted : Bool)
            (v : Version), addVersion env later edit actor trusted fresh createdAt = .ok v →
              (∀ w ∈ later, w.id ≠ fresh) → fresh ≠ "" → ∀ c c',
                statusOf (executionChecks env s (later ++ [v]) c') kind ≠
                  statusOf (executionChecks env s later c) kind →
                ∃ x, edit.replaced = some x ∧ id ∈ restingOn later x) := by
  rcases prepareSnapshot_frozen hprepared with ⟨hplan, hscript, hreadiness, hfrozen⟩
  refine ⟨hplan, hscript, hreadiness, fun kind id hid => ?_⟩
  rcases hfrozen kind id hid with ⟨hfrozen, hcurrent⟩
  have hsound := HistoryRun.built hbuilt
  refine ⟨fun c => (hfrozen.statusOf_iff hsound.ids c).mpr hcurrent, fun later hrun => ?_⟩
  have hlater := hsound.run hrun
  have hkept := hfrozen.grown (HistoryRun.grown hrun)
  refine ⟨hkept.statusOf_iff hlater.ids, ?_, ?_⟩
  · intro a actor time independentReview after hok c c' hne
    have hstep : HistoryStep env later after := .reviewed a actor time independentReview hok
    have hchanged := hkept.status_changed (hkept.grown hstep.grown) hlater.ids
      (hlater.step hstep).ids hne
    rcases standing_changed_review hlater hok hchanged with hmark | ⟨haction, rfl⟩
    · exact hmark
    · -- What was frozen is approved, and still is.
      rcases approvalCurrent_approvable hcurrent with ⟨v, hv, hstatus, _⟩
      rcases HistoryRun.grown hrun with ⟨kept, added, rfl, hall⟩
      rcases forall₂_mem hall (byId_mem hv).1 with ⟨w, hw, hvw⟩
      exact absurd (hvw.approved hstatus) (not_approved_again hlater hok haction
        (mem_append_left _ hw) (hvw.id.trans (byId_mem hv).2))
  · intro edit actor fresh createdAt trusted v hok hfresh hne c c' hstatus
    have hstep : HistoryStep env later (later ++ [v]) :=
      .added edit actor fresh createdAt trusted v hok hfresh hne
    exact standing_changed_edit hlater hok hfresh (hkept.status_changed (hkept.grown hstep.grown)
      hlater.ids (hlater.step hstep).ids hstatus)

def planContent : Dict Json :=
  (((((((((((Dict.single "objectives" (Json.str "Two seconds")).set
    "journeys" (.str "Checkout")).set
    "workload_mix" (.str "All checkout")).set
    "vusers" (.int 20)).set
    "ramp_s" (.int 60)).set
    "duration_s" (.int 600)).set
    "test_data" (.str "Ten carts")).set
    "thresholds" (.str "p95 below two seconds")).set
    "p95_ms_threshold" (.int 2000)).set
    "observability" (.str "Traces")).set
    "entry_criteria" (.str "Deployed")).set
    "exit_criteria" (.str "Measured")

def scriptContent : Dict Json :=
  (((((Dict.single "engine" (Json.str "apex-load")).set "format" (.str "other_import")).set
    "source" (.str "import 7")).set
    "parameters" (.str "none")).set
    "coverage" (.str "Checkout")).set
    "validation" (.str "Inspected")

def planText : String :=
  "\x7b\"duration_s\":600,\"entry_criteria\":\"Deployed\",\"exit_criteria\":\"Measured\"," ++
    "\"journeys\":\"Checkout\",\"objectives\":\"Two seconds\",\"observability\":\"Traces\"," ++
    "\"p95_ms_threshold\":2000,\"ramp_s\":60,\"test_data\":\"Ten carts\"," ++
    "\"thresholds\":\"p95 below two seconds\",\"vusers\":20," ++
    "\"workload_mix\":\"All checkout\"\x7d"

def scriptText : String :=
  "\x7b\"coverage\":\"Checkout\",\"engine\":\"apex-load\",\"format\":\"other_import\"," ++
    "\"parameters\":\"none\",\"source\":\"import 7\",\"validation\":\"Inspected\"\x7d"

/-- The texts of the two documents, and the digests of those and of the source. -/
def executionEnv : CyclesEnv :=
  { sampleEnv with
    sha256 := fun text =>
      if text = planText then "7901526545ceb40187aad6dff17389fe2e32a6a7db8bc5440fe90e37e13d8970"
      else if text = scriptText then
        "265bb79236eabfc1de91158dfa84c91c530e8f3ea86093471b1cb03760e0b56b"
      else "76d7fe40d1922745fbef51bfbadb84b8349bd4beb333355fea993d78feae6c8c"
    canonicalJson := fun d => if d = planContent then planText else scriptText }

def planRequest : VersionCreate where
  expectedRevision := 1
  kind := .testPlan
  title := "Plan"
  content := planContent
  changeSummary := "First draft"

def scriptRequest : VersionCreate where
  expectedRevision := 4
  kind := .script
  title := "Script"
  content := scriptContent
  dependencies := ["p1"]
  changeSummary := "First draft"

def actionOn (action : ReviewAction) (versionId : String) : CycleAction := ⟨2, action, versionId, ""⟩

def approvedVersion (v : Version) : Version :=
  reviewed (actionOn .approve v.id) "bob" "2026-01-01T00:02:00"
    (reviewed (actionOn .submit v.id) "ann" "2026-01-01T00:01:00" v)

def samplePlanDraft : Version :=
  draftVersion executionEnv planRequest "ann" "p1" "2026-01-01T00:00:00"

def sampleScriptDraft : Version :=
  draftVersion executionEnv scriptRequest "ann" "t1" "2026-01-01T00:00:00"

def preparedVersions : List Version :=
  [approvedVersion samplePlanDraft, approvedVersion sampleScriptDraft]

theorem reviewStep {before : List Version} (action : ReviewAction) (id actor time : String)
    (h : transition executionEnv before (actionOn action id) actor time true = .ok after) :
    HistoryStep executionEnv before after :=
  .reviewed (actionOn action id) actor time true h

theorem preparedVersions_built : HistoryRun executionEnv [] preparedVersions := by
  have hplan : HistoryStep executionEnv [] [samplePlanDraft] :=
    .added planRequest "ann" "p1" "2026-01-01T00:00:00" false _ (by decide +kernel)
      (fun _ h => absurd h not_mem_nil) (by decide)
  have hsubmit : HistoryStep executionEnv [samplePlanDraft]
      [reviewed (actionOn .submit "p1") "ann" "2026-01-01T00:01:00" samplePlanDraft] :=
    reviewStep .submit "p1" "ann" "2026-01-01T00:01:00" (by decide +kernel)
  have happrove : HistoryStep executionEnv
      [reviewed (actionOn .submit "p1") "ann" "2026-01-01T00:01:00" samplePlanDraft]
      [approvedVersion samplePlanDraft] :=
    reviewStep .approve "p1" "bob" "2026-01-01T00:02:00" (by decide +kernel)
  have hscript : HistoryStep executionEnv [approvedVersion samplePlanDraft]
      ([approvedVersion samplePlanDraft] ++ [sampleScriptDraft]) :=
    .added scriptRequest "ann" "t1" "2026-01-01T00:00:00" false _ (by decide +kernel)
      (by decide +kernel) (by decide)
  have hsubmit' : HistoryStep executionEnv [approvedVersion samplePlanDraft, sampleScriptDraft]
      [approvedVersion samplePlanDraft,
        reviewed (actionOn .submit "t1") "ann" "2026-01-01T00:01:00" sampleScriptDraft] :=
    reviewStep .submit "t1" "ann" "2026-01-01T00:01:00" (by decide +kernel)
  have happrove' : HistoryStep executionEnv [approvedVersion samplePlanDraft,
        reviewed (actionOn .submit "t1") "ann" "2026-01-01T00:01:00" sampleScriptDraft]
      preparedVersions :=
    reviewStep .approve "t1" "bob" "2026-01-01T00:02:00" (by decide +kernel)
  exact (((((Relation.ReflTransGen.single hplan).tail hsubmit).tail happrove).tail hscript).tail
    hsubmit').tail happrove'

def sampleRequest : PrepareExecution where
  expectedRevision := 7
  idempotencyKey := "prepare"
  planVersionId := "p1"
  scriptVersionId := "t1"

def sampleBinding : Binding := ⟨.simulation, "test", some 3, none⟩

def sampleConditions : Conditions := ⟨some 3, true, false, none, none, none, 0⟩

def sampleSnapshot : Except String ExecutionSnapshot :=
  prepareSnapshot executionEnv sampleRequest preparedVersions sampleBinding

theorem preparation_agrees_script : ∃ s, sampleSnapshot = .ok s ∧
    statusOf (executionChecks executionEnv s preparedVersions sampleConditions) .script =
      some .ready := by
  have hok : sampleSnapshot.isOk = true := by decide +kernel
  cases hs : sampleSnapshot with
  | error e =>
    rw [hs] at hok
    exact Bool.noConfusion hok
  | ok s =>
    have h := preparation_agrees executionEnv preparedVersions_built hs
    exact ⟨s, rfl, (h.2.2.2 .script "t1" h.2.1).1 sampleConditions⟩

end Apex.Domain.CycleExecutions
