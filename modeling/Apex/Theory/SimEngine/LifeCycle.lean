import Apex.Theory.SimEngine.Handles

/-!
# The Life Cycle Of A Simulated Run

What the calls on a handle report is to be the life of one run: no call fails, progress does
not go back, a run that has ended stays as it ended, an aborted run is over, and a run passes
only if it was completed.

The engine keeps this as long as two of its methods are not led astray. `abort` does not look
at whether the run has ended already, and writes over its end; and `fetch_summary` does not
look at whether the run was aborted. A duration so short that it is printed as zero is another
matter: no call reads its handle back.

## Main definitions

* `LifeCycle`: What the answers of a sequence of calls are to be like.
* `Nondecreasing`: The clock does not go back.
* `Orderly`: No run is aborted after its end, and no summary of an aborted run would pass.

## Theorems

* `answers_follow`: What a run reports from some time on.
* `terminal_phase_changes`: Others are not.
-/

namespace Apex.Adapters.SimEngine

open List Option
open Decimal Domain

/-- What an answer is to be like after another. -/
structure Honours (spec : LoadTestSpec) (before after : Except String Answer) : Prop where
  progress : ∀ s t, before = .ok (.status s) → after = .ok (.status t) →
    s.progressPct ≤ t.progressPct
  settled : ∀ s t, before = .ok (.status s) → after = .ok (.status t) →
    s.phase.terminal = true → t.phase = s.phase
  aborted : ∀ t, before = .ok .aborted → after = .ok (.status t) → t.phase.terminal = true
  judged : ∀ s r, before = .ok (.status s) → after = .ok (.summary r) →
    s.phase.terminal = true → r.passed = true →
    s.phase = .completed ∧ MeetsAll spec.slas r.kpis

structure LifeCycle (spec : LoadTestSpec) (answers : List (Except String Answer)) : Prop where
  answered : ∀ answer ∈ answers, ∃ a, answer = .ok a
  ordered : answers.Pairwise (Honours spec)

def Nondecreasing (since : Instant) : List TimedCall → Prop
  | [] => True
  | timed :: rest => since.seconds ≤ timed.now.seconds ∧ Nondecreasing timed.later rest

/-- A run has neither come to its end nor to where it fails. -/
def UnderWay (startedAt durationS : ℚ) (failAtPct : Option ℚ) (now : Instant) : Prop :=
  progressAt startedAt durationS now < 100 ∧ ∀ f ∈ failAtPct, progressAt startedAt durationS now < f

/-- A run is first aborted while it is under way, and no summary of an aborted run passes. -/
def OrderlyCall (underWay : Instant → Prop) (passes : Prop) (aborted : Bool) (timed : TimedCall) :
    Prop :=
  match timed.call with
  | .abort _ => aborted = true ∨ underWay timed.later
  | .fetchSummary => aborted = true → ¬ passes
  | _ => True

def abortedBy (aborted : Bool) (timed : TimedCall) : Bool :=
  match timed.call with
  | .abort _ => true
  | _ => aborted

def Orderly (underWay : Instant → Prop) (passes : Prop) (aborted : Bool) : List TimedCall → Prop
  | [] => True
  | timed :: rest => OrderlyCall underWay passes aborted timed ∧
      Orderly underWay passes (abortedBy aborted timed) rest

def Leads (before after : EngineRunPhase × ℚ) : Prop :=
  before.2 ≤ after.2 ∧ (before.1.terminal = true → after.1 = before.1)

theorem leads_trans {a b c : EngineRunPhase × ℚ} (hab : Leads a b) (hbc : Leads b c) :
    Leads a c := by
  refine ⟨hab.1.trans hbc.1, fun ht => ?_⟩
  have hb := hab.2 ht
  rw [hbc.2 (hb ▸ ht), hb]

/-- What was written when the run was aborted is no more than its progress. -/
def Written (aborted : Option ℚ) (pct : ℚ) : Prop := ∀ p, aborted = some p → p ≤ fixed 1 pct

section

variable {run : SimRun} {aborted : Option ℚ} {pct pct' : ℚ}

theorem written_mono (h : Written aborted pct) (hle : pct ≤ pct') : Written aborted pct' :=
  fun p hp => (h p hp).trans (fixed_mono hle)

theorem report_leads (hle : pct ≤ pct') (h100 : pct' ≤ 100) :
    Leads (run.report aborted pct) (run.report aborted pct') := by
  cases aborted with
  | some p => exact ⟨le_rfl, fun _ => rfl⟩
  | none =>
    have hmono : fixed 1 pct ≤ fixed 1 pct' := fixed_mono hle
    have hend : fixed 1 pct' ≤ 100 := by
      exact_mod_cast fixed_le (n := 100) (by exact_mod_cast h100)
    simp only [SimRun.report]
    cases hf : run.failAtPct with
    | none =>
      simp only [filter_none]
      by_cases hdone : 100 ≤ pct
      · rw [if_pos hdone, if_pos (hdone.trans hle)]
        exact ⟨le_rfl, fun _ => rfl⟩
      · rw [if_neg hdone]
        refine ⟨?_, fun ht => by cases ht⟩
        split_ifs
        · exact hmono.trans hend
        · exact hmono
    | some f =>
      have hf100 := (run.failAt f hf).2
      by_cases hfail : f ≤ pct
      · have hfail' : f ≤ pct' := hfail.trans hle
        simp only [filter_some, decide_eq_true hfail, decide_eq_true hfail', if_true]
        exact ⟨le_rfl, fun _ => rfl⟩
      · have hlt : pct < f := not_le.mp hfail
        simp only [filter_some, decide_eq_false hfail, Bool.false_eq_true, if_false]
        rw [if_neg (not_le.mpr (hlt.trans_le hf100))]
        refine ⟨?_, fun ht => by cases ht⟩
        by_cases hfail' : f ≤ pct'
        · simp only [decide_eq_true hfail', if_true]
          exact fixed_mono (le_of_lt hlt)
        · simp only [decide_eq_false hfail', Bool.false_eq_true, if_false]
          split_ifs
          · exact hmono.trans hend
          · exact hmono

theorem report_underWay (hpct : pct < 100) (hfail : ∀ f ∈ run.failAtPct, pct < f) :
    run.report none pct = (.running, fixed 1 pct) := by
  simp only [SimRun.report]
  cases hf : run.failAtPct with
  | none => rw [filter_none, if_neg (not_le.mpr hpct)]
  | some f =>
    have hlt := hfail f hf
    simp only [filter_some, decide_eq_false (not_le.mpr hlt), Bool.false_eq_true,
      if_false, if_neg (not_le.mpr hpct)]

theorem report_leads_abort (hwritten : Written aborted pct)
    (h : aborted.isSome = true ∨ pct < 100 ∧ ∀ f ∈ run.failAtPct, pct < f) :
    Leads (run.report aborted pct) (run.report (some (fixed 1 pct)) pct) := by
  cases aborted with
  | some p => exact ⟨hwritten p rfl, fun _ => rfl⟩
  | none =>
    rcases h with h | ⟨hpct, hfail⟩
    · cases h
    · rw [report_underWay hpct hfail]
      exact ⟨le_rfl, fun ht => by cases ht⟩

theorem completed_of_terminal (hfail : run.failAtPct = none)
    (h : (run.report none pct).1.terminal = true) : (run.report none pct).1 = .completed := by
  simp only [SimRun.report, hfail, filter_none] at h ⊢
  split_ifs at h ⊢
  · rfl
  · cases h

end

section

variable {env : SimEnv} {run : SimRun} {aborted : Option ℚ} {h : EngineHandle}

def abortedAfter (run : SimRun) (aborted : Option ℚ) (timed : TimedCall) : Option ℚ :=
  match timed.call with
  | .abort _ => some (fixed 1 (run.progress timed.later))
  | _ => aborted

def Describes (run : SimRun) (aborted : Option ℚ) (timed : TimedCall) (answer : Answer) : Prop :=
  match timed.call with
  | .start => answer = .started
  | .getStatus => ∃ s, answer = .status s ∧
      (s.phase, s.progressPct) = run.report aborted (run.progress timed.later)
  | .abort _ => answer = .aborted
  | .fetchSummary => ∃ s, answer = .summary s ∧ s.kpis = run.kpis ∧ (s.passed = true ↔ run.Passes)

theorem perform_spec (hh : Holds env run aborted h) (timed : TimedCall)
    (hclock : run.startedAt ≤ timed.now.seconds + maxClockSkewS) :
    ∃ answer after, perform env h timed = .ok (answer, after) ∧
      Holds env run (abortedAfter run aborted timed) after ∧
      Describes run aborted timed answer := by
  unfold perform abortedAfter Describes
  cases timed.call with
  | start =>
    refine ⟨.started, h, ?_, hh, rfl⟩
    simp only [start, parseExtras_eq hh hclock, Except.map]
  | getStatus =>
    rcases getStatus_spec hh hclock timed.later with ⟨s, hs, hreport⟩
    exact ⟨.status s, h, by simp only [hs, Except.map], hh, s, rfl, hreport⟩
  | abort reason =>
    rcases abort_spec hh hclock timed.later with ⟨after, hafter, hholds⟩
    exact ⟨.aborted, after, by simp only [hafter, Except.map], hholds, rfl⟩
  | fetchSummary =>
    rcases fetchSummary_spec hh hclock with ⟨s, hs, hsummary⟩
    exact ⟨.summary s, h, by simp only [hs, Except.map], hh, s, rfl, hsummary⟩

/-- What an answer is to be like, after a run was aborted or not and reported something. -/
structure Follows (run : SimRun) (aborted : Bool) (report : EngineRunPhase × ℚ)
    (answer : Except String Answer) : Prop where
  answered : ∃ a, answer = .ok a
  status : ∀ s, answer = .ok (.status s) →
    Leads report (s.phase, s.progressPct) ∧ (aborted = true → s.phase.terminal = true)
  summary : ∀ r, answer = .ok (.summary r) → report.1.terminal = true → r.passed = true →
    report.1 = .completed ∧ MeetsAll run.slas r.kpis

theorem Follows.trans {before after : EngineRunPhase × ℚ} {was is : Bool}
    {answer : Except String Answer} (hlead : Leads before after) (hbool : was = true → is = true)
    (hf : Follows run is after answer) : Follows run was before answer := by
  refine ⟨hf.answered, fun s hs => ?_, fun r hr ht hp => ?_⟩
  · rcases hf.status s hs with ⟨hleads, hterminal⟩
    exact ⟨leads_trans hlead hleads, fun hw => hterminal (hbool hw)⟩
  · have hsame := hlead.2 ht
    rcases hf.summary r hr (hsame ▸ ht) hp with ⟨hcompleted, hmeets⟩
    exact ⟨hsame ▸ hcompleted, hmeets⟩

theorem isSome_abortedAfter (timed : TimedCall) :
    (abortedAfter run aborted timed).isSome = abortedBy aborted.isSome timed := by
  unfold abortedAfter abortedBy
  cases timed.call with
  | abort reason => rfl
  | start => rfl
  | getStatus => rfl
  | fetchSummary => rfl

theorem abortedBy_true (timed : TimedCall) : abortedBy true timed = true := by
  unfold abortedBy
  cases timed.call with
  | abort reason => rfl
  | start => rfl
  | getStatus => rfl
  | fetchSummary => rfl

/-- The run, as the conditions on the calls see it. -/
abbrev OrderlyRun (run : SimRun) (aborted : Bool) (calls : List TimedCall) : Prop :=
  Orderly (UnderWay run.startedAt run.durationS run.failAtPct) run.Passes aborted calls

variable {timed : TimedCall}

theorem orderly_rest {rest : List TimedCall} (h : OrderlyRun run aborted.isSome (timed :: rest)) :
    OrderlyRun run (abortedAfter run aborted timed).isSome rest := by
  rw [isSome_abortedAfter]
  exact h.2

theorem leads_abortedAfter
    (horder : OrderlyCall (UnderWay run.startedAt run.durationS run.failAtPct) run.Passes
      aborted.isSome timed) (hwritten : Written aborted (run.progress timed.later)) :
    Leads (run.report aborted (run.progress timed.later))
      (run.report (abortedAfter run aborted timed) (run.progress timed.later)) := by
  revert horder
  unfold OrderlyCall abortedAfter
  cases timed.call with
  | abort reason => exact fun h => report_leads_abort hwritten h
  | start => exact fun _ => ⟨le_rfl, fun _ => rfl⟩
  | getStatus => exact fun _ => ⟨le_rfl, fun _ => rfl⟩
  | fetchSummary => exact fun _ => ⟨le_rfl, fun _ => rfl⟩

theorem written_abortedAfter (hwritten : Written aborted (run.progress timed.later)) :
    Written (abortedAfter run aborted timed) (run.progress timed.later) := by
  unfold abortedAfter
  cases timed.call with
  | abort reason => exact fun p hp => (some.inj hp).ge
  | start => exact hwritten
  | getStatus => exact hwritten
  | fetchSummary => exact hwritten

theorem follows_of_describes {answer : Answer}
    (horder : OrderlyCall (UnderWay run.startedAt run.durationS run.failAtPct) run.Passes
      aborted.isSome timed) (hdescribes : Describes run aborted timed answer) :
    Follows run aborted.isSome (run.report aborted (run.progress timed.later)) (.ok answer) := by
  revert horder hdescribes
  unfold OrderlyCall Describes
  cases timed.call with
  | start =>
    rintro _ rfl
    exact ⟨⟨_, rfl⟩, fun s hs => (by cases hs), fun r hr => by cases hr⟩
  | abort reason =>
    rintro _ rfl
    exact ⟨⟨_, rfl⟩, fun s hs => (by cases hs), fun r hr => by cases hr⟩
  | getStatus =>
    rintro _ ⟨s, rfl, hreport⟩
    refine ⟨⟨_, rfl⟩, fun t ht => ?_, fun r hr => by cases hr⟩
    cases ht
    rw [hreport]
    refine ⟨⟨le_rfl, fun _ => rfl⟩, fun hsome => ?_⟩
    rcases isSome_iff_exists.mp hsome with ⟨p, rfl⟩
    have hphase : s.phase = .aborted := congrArg Prod.fst hreport
    rw [hphase]
    rfl
  | fetchSummary =>
    rintro hnot ⟨s, rfl, hkpis, hpasses⟩
    refine ⟨⟨_, rfl⟩, fun t ht => (by cases ht), fun r hr hterminal hpassed => ?_⟩
    cases hr
    have hpass := hpasses.mp hpassed
    cases aborted with
    | some p => exact absurd hpass (hnot rfl)
    | none => exact ⟨completed_of_terminal hpass.1 hterminal, hkpis ▸ hpass.2⟩

theorem answers_follow : ∀ (calls : List TimedCall) (aborted : Option ℚ) (h : EngineHandle)
    (since : Instant), Holds env run aborted h → Written aborted (run.progress since) →
    run.startedAt ≤ since.seconds + maxClockSkewS → Nondecreasing since calls →
    OrderlyRun run aborted.isSome calls → ∀ answer ∈ runCalls env h calls,
      Follows run aborted.isSome (run.report aborted (run.progress since)) answer
  | [], _, _, _, _, _, _, _, _ => fun answer hmem => absurd hmem not_mem_nil
  | timed :: rest, aborted, h, since, hh, hwritten, hclock, htime, horder => by
    have hle : since.seconds ≤ timed.later.seconds := htime.1.trans timed.now_le
    have hprogress := run.progress_mono hle
    have hlead : Leads (run.report aborted (run.progress since))
        (run.report aborted (run.progress timed.later)) :=
      report_leads hprogress (run.progress_bounds timed.later).2
    have hwritten' := written_mono hwritten hprogress
    rcases perform_spec hh timed (by linarith [htime.1]) with
      ⟨answer, after, hperform, hholds, hdescribes⟩
    have hrest := answers_follow rest _ after timed.later hholds
      (written_abortedAfter hwritten') (by linarith) htime.2 (orderly_rest horder)
    intro a ha
    rw [runCalls, hperform] at ha
    rcases mem_cons.mp ha with rfl | ha
    · exact (follows_of_describes horder.1 hdescribes).trans hlead id
    · exact (hrest a ha).trans (leads_trans hlead (leads_abortedAfter horder.1 hwritten'))
        (fun hsome => by rw [isSome_abortedAfter, hsome, abortedBy_true])

theorem answers_ordered {spec : LoadTestSpec} (hslas : run.slas = spec.slas) :
    ∀ (calls : List TimedCall) (aborted : Option ℚ) (h : EngineHandle)
    (since : Instant), Holds env run aborted h → Written aborted (run.progress since) →
    run.startedAt ≤ since.seconds + maxClockSkewS → Nondecreasing since calls →
    OrderlyRun run aborted.isSome calls → (runCalls env h calls).Pairwise (Honours spec)
  | [], _, _, _, _, _, _, _, _ => Pairwise.nil
  | timed :: rest, aborted, h, since, hh, hwritten, hclock, htime, horder => by
    have hle : since.seconds ≤ timed.later.seconds := htime.1.trans timed.now_le
    have hwritten' := written_mono hwritten (run.progress_mono hle)
    rcases perform_spec hh timed (by linarith [htime.1]) with
      ⟨answer, after, hperform, hholds, hdescribes⟩
    have hlater := written_abortedAfter hwritten'
    have hfollow := answers_follow rest _ after timed.later hholds hlater (by linarith) htime.2
      (orderly_rest horder)
    have hrest := answers_ordered hslas rest _ after timed.later hholds hlater (by linarith)
      htime.2 (orderly_rest horder)
    rw [runCalls, hperform]
    refine Pairwise.cons (fun b hb => ?_) hrest
    have hb := hfollow b hb
    revert hb hdescribes
    unfold Describes abortedAfter
    cases timed.call with
    | start =>
      rintro rfl _
      exact ⟨fun s t hs => (by cases hs), fun s t hs => (by cases hs),
        fun t hs => (by cases hs), fun s r hs => (by cases hs)⟩
    | fetchSummary =>
      rintro ⟨s, rfl, _⟩ _
      exact ⟨fun s t hs => (by cases hs), fun s t hs => (by cases hs),
        fun t hs => (by cases hs), fun s r hs => (by cases hs)⟩
    | abort reason =>
      rintro rfl hb
      refine ⟨fun s t hs => (by cases hs), fun s t hs => (by cases hs), fun t _ ht => ?_,
        fun s r hs => (by cases hs)⟩
      exact (hb.status t ht).2 rfl
    | getStatus =>
      rintro ⟨s, rfl, hreport⟩ hb
      rw [← hreport] at hb
      refine ⟨fun s' t hs ht => ?_, fun s' t hs ht hterminal => ?_, fun t hs => (by cases hs),
        fun s' r hs hr hterminal hpassed => ?_⟩
      · cases hs
        exact (hb.status t ht).1.1
      · cases hs
        exact (hb.status t ht).1.2 hterminal
      · cases hs
        rw [← hslas]
        exact hb.summary r hr hterminal hpassed

end

def plannedPeak (spec : LoadTestSpec) : ℚ :=
  spec.vusers * (if spec.rampS.value = 0 then 1
    else min 1 (100 / 100 * spec.durationS.value / spec.rampS.value))

/-- The average number of users of a specified run. -/
def plannedAverage (spec : LoadTestSpec) : ℚ :=
  if spec.rampS.value ≤ spec.durationS.value then
    spec.vusers * (1 - spec.rampS.value / spec.durationS.value / 2)
  else plannedPeak spec / 2

def plannedKpis (spec : LoadTestSpec) : List (String × ℚ) :=
  kpisOf (plannedAverage spec) (plannedPeak spec)

theorem kpis_eq_planned {run : SimRun} {spec : LoadTestSpec} (husers : run.vusers = spec.vusers)
    (hramp : run.rampS = spec.rampS.value) (hrequested : run.requestedS = spec.durationS.value) :
    run.kpis = plannedKpis spec := by
  simp only [SimRun.kpis, SimRun.average, SimRun.ratio, plannedKpis, plannedAverage, plannedPeak,
    husers, hramp, hrequested]

/-- Calls on a provisioned handle are answered as they are to be, if the duration is printed as
    a positive number, the run is first aborted while it is under way, and the summary of an
    aborted run is fetched only where it does not pass. -/
theorem sim_life_cycle {env : SimEnv} {connectionId : Option String} {options : ConnectionOptions}
    {engine : Engine} {spec : LoadTestSpec} {began : Instant} {handle : EngineHandle}
    {calls : List TimedCall}
    (hengine : construct connectionId options = .ok engine)
    (hprovision : provision env engine spec began = .ok handle)
    (hjson : env.loads (env.dumps spec.slas) = some (sortKeys spec.slas))
    (hclock : Nondecreasing began calls)
    (hduration : 1 / 2000000 < engine.duration spec)
    (horder : Orderly
      (UnderWay (fixed 6 began.seconds) (fixed 6 (engine.duration spec))
        (engine.failAtPct.map (fixed 6)))
      (engine.failAtPct = none ∧ MeetsAll spec.slas (plannedKpis spec)) false calls) :
    LifeCycle spec (runCalls env handle calls) := by
  rcases holds_provision hengine hprovision hjson hduration with
    ⟨run, hh, hstarted, hlasts, husers, hfail, hramp, hrequested, hslas⟩
  have hkpis := kpis_eq_planned husers hramp hrequested
  have hpasses : run.Passes ↔ engine.failAtPct = none ∧ MeetsAll spec.slas (plannedKpis spec) := by
    rw [SimRun.Passes, hfail, hslas, hkpis, map_eq_none_iff]
  have hstart : run.startedAt ≤ began.seconds + maxClockSkewS := by
    have hround := fixed_le_add 6 began.seconds
    rw [hstarted, maxClockSkewS]
    linarith
  have hwritten : Written none (run.progress began) := fun p hp => by cases hp
  rw [← hstarted, ← hlasts, ← hfail, ← propext hpasses] at horder
  have hfollow := answers_follow calls none handle began hh hwritten hstart hclock horder
  exact ⟨fun answer hmem => (hfollow answer hmem).answered,
    answers_ordered hslas calls none handle began hh hwritten hstart hclock horder⟩

def sampleEnv : SimEnv where
  digest _ := ⟨List.replicate 16 '0', by decide, by decide⟩
  dumps _ := "{}"
  loads _ := some []
  rules := sampleRules

def sampleSpec : LoadTestSpec where
  idempotencyKey := "key-1"
  vusers := 10
  rampS := ⟨5, "5", by decide +kernel, by decide +kernel, by decide, by decide⟩
  durationS := ⟨2, "2", by decide +kernel, by decide +kernel, by decide, by decide⟩
  slas := []

def sampleEngine : Engine := ⟨none, none, none⟩

def second (n : Nat) (h : (n : ℚ) < 10 ^ 12) : Instant := ⟨n, Nat.cast_nonneg n, h⟩

def began : Instant := second 100 (by norm_num)

/-- The handle of a run that begins at second 100 and takes two seconds. -/
def sampleHandle : EngineHandle where
  engine := "sim"
  connectionId := none
  externalRunId := some "sim-0000000000000000"
  idempotencyKey := "key-1"
  extras := ⟨[("started_at", "100.000000"), ("duration_s", "2.000000"), ("vusers", "10"),
    ("slas", "{}"), ("ramp_s", "5"), ("workload_duration_s", "2")], by decide⟩

theorem provision_sample :
    provision sampleEnv sampleEngine sampleSpec began = .ok sampleHandle := by
  have h : (provision sampleEnv sampleEngine sampleSpec began).toOption = some sampleHandle := by
    decide +kernel
  cases hp : provision sampleEnv sampleEngine sampleSpec began with
  | error message =>
    rw [hp] at h
    cases h
  | ok handle =>
    rw [hp] at h
    rw [some.inj h]

/-- The status is asked for after the end, the run is aborted, and both are asked for again. -/
def lateCalls : List TimedCall :=
  [⟨.getStatus, second 103 (by norm_num), second 103 (by norm_num), le_rfl⟩,
    ⟨.abort "late", second 104 (by norm_num), second 104 (by norm_num), le_rfl⟩,
    ⟨.getStatus, second 105 (by norm_num), second 105 (by norm_num), le_rfl⟩,
    ⟨.fetchSummary, second 106 (by norm_num), second 106 (by norm_num), le_rfl⟩]

def phaseOf : Except String Answer → Option EngineRunPhase
  | .ok (.status s) => some s.phase
  | _ => none

theorem status_of_phaseOf {answer : Except String Answer} {p : EngineRunPhase}
    (h : phaseOf answer = some p) : ∃ s, answer = .ok (.status s) ∧ s.phase = p := by
  cases answer with
  | error message => cases h
  | ok answer =>
    cases answer with
    | status s => exact ⟨s, rfl, some.inj h⟩
    | started => cases h
    | aborted => cases h
    | summary s => cases h

theorem phases_settled {spec : LoadTestSpec} {answers : List (Except String Answer)}
    (h : LifeCycle spec answers) : (answers.map phaseOf).Pairwise fun before after =>
      ∀ p q, before = some p → after = some q → p.terminal = true → q = p := by
  refine pairwise_map.mpr (h.ordered.imp fun {a b} hab p q hp hq => ?_)
  rcases status_of_phaseOf hp with ⟨s, hs, rfl⟩
  rcases status_of_phaseOf hq with ⟨t, ht, rfl⟩
  exact hab.settled s t hs ht

/-- A completed run that is aborted reports that it was aborted. -/
theorem terminal_phase_changes :
    construct none ⟨none, none⟩ = .ok sampleEngine ∧
      provision sampleEnv sampleEngine sampleSpec began = .ok sampleHandle ∧
      sampleEnv.loads (sampleEnv.dumps sampleSpec.slas) = some (sortKeys sampleSpec.slas) ∧
      Nondecreasing began lateCalls ∧
      ¬ LifeCycle sampleSpec (runCalls sampleEnv sampleHandle lateCalls) := by
  refine ⟨rfl, provision_sample, ?_, ?_, fun h => ?_⟩
  · rw [show sampleSpec.slas = [] from rfl, sortKeys, mergeSort_nil]
    rfl
  · simp only [Nondecreasing, lateCalls, began, second, and_true]
    norm_num
  · have hphases : (runCalls sampleEnv sampleHandle lateCalls).map phaseOf =
        [some .completed, none, some .aborted, none] := by
      decide +kernel
    have hsettled := phases_settled h
    rw [hphases, pairwise_cons] at hsettled
    have hsame := hsettled.1 (some .aborted) (by decide) _ _ rfl rfl rfl
    cases hsame

/-- A run that is aborted while it is under way. -/
def orderlyCalls : List TimedCall :=
  [⟨.getStatus, second 101 (by norm_num), second 101 (by norm_num), le_rfl⟩,
    ⟨.abort "stop", second 101 (by norm_num), second 101 (by norm_num), le_rfl⟩,
    ⟨.getStatus, second 105 (by norm_num), second 105 (by norm_num), le_rfl⟩]

theorem sim_life_cycle_orderly :
    LifeCycle sampleSpec (runCalls sampleEnv sampleHandle orderlyCalls) := by
  refine sim_life_cycle (show construct none ⟨none, none⟩ = .ok sampleEngine from rfl)
    provision_sample ?_ ?_ ?_ ?_
  · rw [show sampleSpec.slas = [] from rfl, sortKeys, mergeSort_nil]
    rfl
  · simp only [Nondecreasing, orderlyCalls, began, second, and_true]
    norm_num
  · decide +kernel
  · refine ⟨trivial, Or.inr ⟨by decide +kernel, fun f hf => by cases hf⟩, trivial, trivial⟩

end Apex.Adapters.SimEngine
