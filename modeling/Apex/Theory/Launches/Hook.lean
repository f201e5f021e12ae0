import Apex.Services.PipelineLaunch

/-!
# No Run Before The Hook

A launch that has a hook creates a run only after the hook has returned in the same
call. Most of a launch creates no run at all, so it is enough to follow the few
parts on the way from the hook to the request for the run.

## Main definitions

* `hookDiscipline`: Whether the hook has returned.

## Theorems

* `startRun_hooked`: A launch with a hook creates a run only after it.
-/

namespace Apex.Services

open Program

open Apex.Action hiding ask

/-- What a coroutine asks without creating a run. -/
abbrev Quiet {α : Type} (x : LaunchAction α) : Prop := x.run.uses fun r => r.createsRun = false

variable {threadId : String} {fingerprint : Option String}

variable {offset : Nat} {saw : Bool} {oldest : Option NativeRun} {env : LaunchEnv} {launch : Launch}

theorem listRunPage_quiet {limit : Nat} :
    Quiet (listRunPage threadId limit offset) :=
  ask_uses rfl fun _ => bind_uses settle_uses fun _ => bind_uses raiseWhen_uses fun _ => trivial

theorem endOfScan_quiet : Quiet (endOfScan oldest saw) := by
  cases saw with
  | true => exact trivial
  | false => exact trivial

theorem findLaunchRootRunFrom_quiet {fuel : Nat} :
    Quiet (findLaunchRootRunFrom threadId fingerprint fuel offset oldest saw) := by
  induction fuel generalizing offset oldest saw with
  | zero => exact trivial
  | succ fuel ih =>
    rw [findLaunchRootRunFrom]
    by_cases hmore : offset < maxLaunchRunReconcileRecords
    · rw [if_pos hmore]
      refine bind_uses listRunPage_quiet fun page => ?_
      cases scanRuns fingerprint page oldest saw with
      | found run => exact trivial
      | more oldest' saw' => exact ite_uses endOfScan_quiet ih
    · rw [if_neg hmore]
      exact trivial

theorem findLaunchRootRun_quiet :
    Quiet (findLaunchRootRun threadId fingerprint) := findLaunchRootRunFrom_quiet

theorem adoptRun_quiet {run : NativeRun} :
    Quiet (adoptRun env threadId run) :=
  bind_uses settle_uses fun _ => ask_uses rfl fun _ => bind_uses settle_uses fun _ => trivial

theorem pollForRun_quiet
    {delays : List Nat} : Quiet (pollForRun env threadId fingerprint delays) := by
  induction delays with
  | nil => exact trivial
  | cons delay rest ih =>
    rw [pollForRun]
    by_cases hdelay : (delay != 0) = true
    · rw [if_pos hdelay]
      refine ask_uses rfl fun _ => bind_uses settle_uses fun _ =>
        bind_uses findLaunchRootRun_quiet fun found => ?_
      cases found with
      | none => exact ih
      | some run => exact adoptRun_quiet
    · rw [if_neg hdelay]
      refine bind_uses findLaunchRootRun_quiet fun found => ?_
      cases found with
      | none => exact ih
      | some run => exact adoptRun_quiet

theorem removeThread_quiet : Quiet (removeThread threadId) := by
  refine ask_uses rfl fun a => ?_
  cases a with
  | ok u => exact trivial
  | error e => cases e <;> exact trivial

theorem createLaunchThread_quiet :
    Quiet (createLaunchThread env launch) :=
  ask_uses rfl fun _ => bind_uses settle_uses fun _ => bind_uses raiseWhen_uses fun _ => trivial

theorem launchThread_quiet :
    Quiet (launchThread env launch) := by
  unfold launchThread
  cases launch.threadId with
  | none => exact map_uses createLaunchThread_quiet
  | some threadId =>
    refine ite_uses (ask_uses rfl fun a => ?_) (map_uses createLaunchThread_quiet)
    cases a with
    | ok thread => exact bind_uses raiseWhen_uses fun _ => trivial
    | error e =>
      cases e with
      | notFound => exact ite_uses trivial (map_uses createLaunchThread_quiet)
      | _ => exact trivial

theorem inheritedDefaults_quiet : Quiet (inheritedDefaults launch) := by
  refine ite_uses (ask_uses rfl fun a => ?_) trivial
  cases a with
  | ok defaults => exact trivial
  | error e => cases e <;> exact trivial

theorem recoverRunConfig_quiet {thread : NativeThread} :
    Quiet (recoverRunConfig env threadId thread) := by
  unfold recoverRunConfig
  cases thread.fingerprint with
  | none => exact trivial
  | some stamp =>
    cases stamp with
    | str f =>
      refine bind_uses findLaunchRootRun_quiet fun found => ?_
      cases found with
      | none => exact trivial
      | some root =>
        refine bind_uses settle_uses fun _ => ask_uses rfl fun _ =>
          bind_uses settle_uses fun stored => ite_uses trivial ?_
        cases stored.configurable <;> exact trivial
    | _ => exact trivial

theorem recoverTarget_quiet {a : StartRun} {configurable : Dict Json} :
    Quiet (recoverTarget env a configurable) := by
  unfold recoverTarget
  cases a.idempotencyKey with
  | none => exact trivial
  | some key =>
    cases a.principalId with
    | none => exact trivial
    | some principal =>
      refine ask_uses rfl fun answer => ?_
      cases answer with
      | error e => cases e <;> exact trivial
      | ok thread =>
        refine ite_uses trivial (ite_uses (ask_uses rfl fun _ =>
          bind_uses settle_uses fun checkpointed => ?_) trivial)
        cases checkpointed with
        | some old => exact ite_uses trivial trivial
        | none => exact bind_uses recoverRunConfig_quiet fun _ => ite_uses trivial trivial

/-- Whether the hook has returned: only then a run may be created. -/
def hookDiscipline : Discipline LaunchRequest LaunchRequest.Answer Bool where
  allowed hooked r := r.createsRun = true → hooked = true
  possible _ _ _ := True
  move hooked
    | .beforeRunStart _ _, .ok _ => true
    | _, _ => hooked

theorem hook_move (hooked : Bool) (r : LaunchRequest) (a : r.Answer) (h : hooked = true) :
    hookDiscipline.move hooked r a = true := by
  cases r
  case beforeRunStart owner threadId => cases a <;> first | rfl | exact h
  all_goals exact h

theorem quiet_follows {α : Type} {x : LaunchAction α} (hx : Quiet x) (hooked : Bool) :
    x.run.follows hookDiscipline (either (fun hooked' _ => hooked = true → hooked' = true)
      fun _ _ => True) hooked := by
  have hfollows : x.run.follows hookDiscipline (fun hooked' _ => hooked = true → hooked' = true)
      hooked :=
    follows_of_uses (R := fun l₁ l₂ => l₁ = true → l₂ = true) hx
      (fun _ r hr hcreates => absurd (hr.symm.trans hcreates) Bool.false_ne_true)
      (fun _ h => h) (fun h12 h23 h => h23 (h12 h)) fun l r a _ h => hook_move l r a h
  refine follows_mono hfollows fun l result h => ?_
  cases result with
  | ok a => exact h
  | error e => exact trivial

section Hooked

variable {env : LaunchEnv} {launch : Launch}

abbrev Anyhow {α : Type} : Bool → Except LaunchError α → Prop :=
  either (fun _ _ => True) fun _ _ => True

theorem quiet_anyhow {α : Type} {x : LaunchAction α} (hx : Quiet x) (hooked : Bool) :
    x.run.follows hookDiscipline Anyhow hooked :=
  mono_either (quiet_follows hx hooked) (fun _ _ _ => trivial) fun _ _ _ => trivial

variable {hooked createThread : Bool} {threadId : String}

theorem startHook_hooked (hhook : launch.beforeRunStart.isSome = true) :
    (startHook launch threadId).run.follows hookDiscipline
      (either (fun hooked' _ => hooked' = true) fun _ _ => True) hooked := by
  unfold startHook
  cases hbefore : launch.beforeRunStart with
  | none =>
    rw [hbefore] at hhook
    exact absurd hhook Bool.false_ne_true
  | some owner =>
    refine ask_bind_follows (fun h => absurd h Bool.false_ne_true) fun a _ => ?_
    cases a with
    | ok packets => exact rfl
    | error e => exact trivial

theorem prepareRun_hooked (hhook : launch.beforeRunStart.isSome = true) :
    (prepareRun launch threadId createThread).run.follows hookDiscipline
      (either (fun hooked' _ => hooked' = true) fun _ _ => True) hooked := by
  refine bind_either (quiet_anyhow inheritedDefaults_quiet hooked) fun l inherited _ => ?_
  refine ask_bind_follows (fun h => absurd h Bool.false_ne_true) fun a _ => ?_
  refine bind_either (quiet_anyhow settle_uses _) fun l resolved _ => ?_
  have hlast : ∀ (l : Bool) (prepared : Dict Json × Dict Json),
      (startHook launch threadId >>= fun generated =>
        pure (prepared.1, prepared.2, generated)).run.follows hookDiscipline
        (either (fun hooked' _ => hooked' = true) fun _ _ => True) l :=
    fun l prepared => bind_either (startHook_hooked hhook) fun _ _ h => h
  by_cases hprepare : launch.prepareConfigurable = true
  · simp only [hprepare, if_true]
    refine ask_bind_follows (fun h => absurd h Bool.false_ne_true) fun a _ => ?_
    exact bind_either (quiet_anyhow settle_uses _) fun l prepared _ => hlast l prepared
  · simp only [hprepare]
    exact bind_either (m := fun _ _ => True) (pure_either trivial) fun l prepared _ =>
      hlast l prepared

variable {configurable : Dict Json} {a : StartRun}

theorem submitRun_hooked {input : Dict Json} (hooked_true : hooked = true) :
    (submitRun env launch threadId input configurable).run.follows hookDiscipline Anyhow hooked := by
  unfold submitRun
  refine ask_bind_follows (fun _ => hooked_true) fun a _ => ?_
  have hfails : ∀ (error : ProviderError) (l : Bool), (do
      if error.definitive && launch.threadId.isNone then removeThread threadId
      throw (runCreateFailure error) : LaunchAction Launched).run.follows hookDiscipline Anyhow l := by
    intro error l
    by_cases hremoves : (error.definitive && launch.threadId.isNone) = true
    · rw [if_pos hremoves]
      exact bind_either (quiet_anyhow removeThread_quiet l) fun _ _ _ => trivial
    · rw [if_neg hremoves]
      exact trivial
  cases a with
  | ok runId =>
    refine quiet_anyhow (bind_uses raiseWhen_uses fun _ => ask_uses rfl fun _ =>
      bind_uses settle_uses fun _ => ?_) _
    exact trivial
  | error error =>
    cases error with
    | conflict => exact quiet_anyhow pollForRun_quiet _
    | cancelled => exact trivial
    | notFound => exact hfails _ _
    | status code => exact hfails _ _
    | other typeName => exact hfails _ _

section

variable (hhook : launch.beforeRunStart.isSome = true)

include hhook

theorem prepareAndSubmit_hooked :
    (prepareAndSubmit env launch threadId createThread).run.follows hookDiscipline Anyhow
      hooked := by
  unfold prepareAndSubmit
  by_cases hrecovery : launch.recoveryOnly = true
  · rw [if_pos hrecovery]
    exact trivial
  · rw [if_neg hrecovery]
    refine bind_either (tryCatch_either (prepareRun_hooked hhook) fun l e _ => ?_)
      fun l prepared hprepared => ?_
    · by_cases hremoves : (e.removesThread && launch.threadId.isNone) = true
      · rw [if_pos hremoves]
        exact bind_either (quiet_anyhow removeThread_quiet l) fun _ _ _ => trivial
      · rw [if_neg hremoves]
        exact trivial
    · exact bind_either (quiet_follows settle_uses l) fun l input h =>
        submitRun_hooked (h hprepared)

theorem adoptOrSubmit_hooked :
    (adoptOrSubmit env launch threadId createThread).run.follows hookDiscipline Anyhow hooked := by
  unfold adoptOrSubmit
  cases launch.fingerprint with
  | none => exact prepareAndSubmit_hooked hhook
  | some f =>
    refine bind_either (quiet_anyhow findLaunchRootRun_quiet hooked) fun l found _ => ?_
    cases found with
    | none => exact prepareAndSubmit_hooked hhook
    | some run => exact quiet_anyhow adoptRun_quiet l

theorem createOrGetRun_hooked :
    (createOrGetRun env launch).run.follows hookDiscipline Anyhow hooked := by
  refine bind_either (quiet_anyhow launchThread_quiet hooked) fun l thread _ => ?_
  cases threadRefusal launch thread.1 with
  | some error => exact trivial
  | none => exact adoptOrSubmit_hooked hhook

theorem runLaunch_hooked :
    (runLaunch env launch).run.follows hookDiscipline Anyhow hooked := by
  unfold runLaunch
  cases launch.threadId with
  | none => exact createOrGetRun_hooked hhook
  | some threadId =>
    refine ask_bind_follows (fun h => absurd h Bool.false_ne_true) fun a _ => ?_
    refine bind_either (quiet_anyhow settle_uses _) fun l u _ => ?_
    refine bind_either (tryCatch_either (createOrGetRun_hooked hhook) fun l e _ => ?_)
      fun l launched _ => ?_
    · exact ask_bind_follows (fun h => absurd h Bool.false_ne_true) fun _ _ => trivial
    · exact ask_bind_follows (fun h => absurd h Bool.false_ne_true) fun _ _ => trivial

end

theorem assembleLaunch_hook (h : assembleLaunch env a configurable = .ok launch) :
    launch.beforeRunStart = a.beforeRunStart := by
  unfold assembleLaunch at h
  cases hvalid : env.modelValidate configurable with
  | none =>
    rw [hvalid] at h
    exact nomatch h
  | some config =>
    rw [hvalid] at h
    simp only [bind_ok] at h
    rcases h with ⟨input, _, _, _, h⟩
    rw [← Except.ok.inj h]

theorem startRun_hooked (hhook : a.beforeRunStart.isSome = true) :
    (PipelineRead.startRun env a).run.follows hookDiscipline Anyhow false := by
  have hrun : ∀ (l : Bool) (configurable : Dict Json),
      (settle (assembleLaunch env a configurable) >>= runLaunch env).run.follows hookDiscipline
        Anyhow l := by
    intro l configurable
    refine bind_either (m := fun _ launch => assembleLaunch env a configurable = .ok launch)
      (settle_either (fun launch h => h) fun _ _ => trivial) fun l launch hlaunch => ?_
    refine runLaunch_hooked ?_
    rw [assembleLaunch_hook hlaunch]
    exact hhook
  refine bind_either (quiet_anyhow settle_uses false) fun l base _ => ?_
  by_cases hrecovery : a.recoveryOnly = true
  · rw [if_pos hrecovery]
    exact bind_either (quiet_anyhow recoverTarget_quiet l) fun l c _ => hrun l c
  · rw [if_neg hrecovery]
    exact hrun l base

end Hooked

end Apex.Services
