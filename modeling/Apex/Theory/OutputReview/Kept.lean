import Apex.Theory.OutputReview.Discussion

/-!
# What Is Kept of a Review

An attempt begins with a plan that moves its phase on. From there it is reviewed
while no other phase discusses anything, and whatever is said and decided is kept:
two turns for each discussion, one record for each decision, under identifiers of
their own and within the limits of the plan. What happens later takes none of the
records away as long as the attempt is the current one. Its turns stay as long as
they and the later ones fit into the window of the dialogue.

## Main definitions

* `newThread`: A thread on which nothing has happened.
* `ReviewKept`: What is kept of a review.

## Theorems

* `output_review_kept`: This is kept of every review.
* `turns_evicted`, `retries_counted`: More is not.
-/

namespace Apex.Graphs

open List Option
open Domain

variable {env : GateEnv} {p : Phase} {n : Int}

def newThread : ReviewState where
  cfg := {}
  phaseResults := ∅
  dialogue := []
  artifacts := .null

theorem sound_newThread : Sound env newThread where
  limits := rfl
  entries p e h := by
    rw [newThread, Dict.get?_empty] at h
    cases h
  nodup := nodup_nil
  length := Nat.zero_le _
  turns d hd := absurd hd not_mem_nil

def inAttempt (p : Phase) (n : Int) (s : ReviewState) : Prop :=
  ∃ e, s.phaseResults.get? p.value = some e ∧ e.value "attempt" = .int n

variable {s t : ReviewState}

theorem unreviewed_of_plan {cfg : PipelineConfigurable} {seeds : List (Phase × PhaseEntry)}
    (hs : Sound env s) (hstep : ReviewStep env s (.plan cfg seeds) t) (hold : ¬ inAttempt p n s)
    (hnew : inAttempt p n t) : ∃ e, Unreviewed env p n t e ∧ reviseCount e = .ok 0 := by
  rcases hnew with ⟨m, hm, hn⟩
  have hmove := entryMove_of_store hstep.entries p
  rw [hm] at hmove
  have hother : ∀ {e₀ : PhaseEntry}, s.phaseResults.get? p.value = some e₀ →
      m.value "attempt" ≠ e₀.value "attempt" :=
    fun he heq => hold ⟨_, he, heq.symm.trans hn⟩
  cases hmove with
  | kept he _ hattempt _ _ => exact absurd hattempt (hother he)
  | merged he _ hattempt _ _ _ => exact absurd hattempt (hother he)
  | @replaced u _ hu hattempt hnext hcount hrecords =>
    have hblank : ∃ k, UpdateBlank env u k := by
      cases hstep.occurs with
      | plan _ hseeds => exact updateBlank_seed hseeds (mem_of_updateFor hu)
    rcases hblank with ⟨k, hblank⟩
    refine ⟨m, ⟨hm, hn, ?_, ?_⟩, ?_⟩
    · -- A turn of the attempt would be of an attempt that was there before.
      rw [attemptTurns, filter_eq_nil_iff]
      intro d hd hb
      have hd' : d ∈ s.dialogue := by
        rcases storeDialogue_ok hs hstep.dialogue with ⟨hnone, _⟩ | ⟨entries, hentries, hshown⟩
        · cases hnone
        · cases hentries
          rw [hshown, turnsIn_nil] at hd
          exact (shown_sublist _).subset hd
      rcases belongs_iff.mp hb with ⟨hphase, hattempt'⟩
      rcases hs.turns d hd' with ⟨q, i, j, role, hread, e₀, k', he₀, hk', hle⟩
      have hq : q = p := Phase.value_injective (hread.phase.symm.trans hphase)
      subst hq
      have hadv := (hnext e₀ he₀).2
      rw [hk', ← hattempt, hn] at hadv
      simp only [notMonotonic, bne_eq_false_iff_eq] at hadv
      have := hread.attempt
      omega
    · intro r hr
      rw [hrecords, hblank.records] at hr
      exact absurd hr not_mem_nil
    · exact reviseCount_null (by rw [hcount, Dict.value, hblank.count]; rfl)

def firstSeeds (ps : List Phase) : List (Phase × PhaseEntry) :=
  ps.map (fun p => (p, resultEntry p 1 .pending .null []))

theorem seedPlan_newThread (ps : List Phase) :
    seedPlan newThread ps none = .ok (firstSeeds ps) := by
  have hseeds : ps.mapM (seedPhase newThread) = .ok (firstSeeds ps) := by
    rw [mapM_ok, firstSeeds, forall₂_map_right_iff, forall₂_same]
    exact fun p _ => rfl
  simp only [seedPlan, seedExternal, bind_ok, pure_ok]
  exact ⟨[], rfl, _, hseeds, rfl⟩

theorem shortEntry_pending (p : Phase) :
    ShortEntry env p 1 .pending .null [] (resultEntry p 1 .pending .null []) :=
  ⟨rfl, Int.le_refl _, by decide, small_null (Nat.le_refl _), recordsFit_nil⟩

theorem updateFor_firstSeeds {ps : List Phase} {q : Phase} :
    updateFor (firstSeeds ps) q = if q ∈ ps then some (resultEntry q 1 .pending .null []) else none := by
  rw [updateFor, firstSeeds, ← map_reverse]
  have hlookup : ∀ qs : List Phase, (qs.map (fun p => (p, resultEntry p 1 .pending .null []))).lookup q =
      if q ∈ qs then some (resultEntry q 1 .pending .null []) else none := by
    intro qs
    induction qs with
    | nil => rfl
    | cons p qs ih =>
      rw [map_cons, lookup_cons, ih]
      by_cases hp : q = p
      · subst hp
        rw [beq_self_eq_true, if_pos mem_cons_self]
      · rw [beq_eq_false_iff_ne.mpr hp]
        simp only [mem_cons, hp, false_or]
  rw [hlookup]
  simp only [mem_reverse]

theorem plan_pending (hr : Plain env.rules) (cfg : PipelineConfigurable)
    (hlimits : cfg.limits.reviewsOk = true) (hplan : cfg.plannedPhases ≠ []) :
    ∃ t, ReviewStep env newThread (.plan cfg (firstSeeds cfg.plannedPhases)) t ∧ t.dialogue = [] ∧
      ∀ p ∈ cfg.plannedPhases, PhaseAt env t p 1 .pending .null [] := by
  have hfresh : ∀ p : Phase, StoredAt env.toReducerEnv p.value none
      (some (.ofDict (resultEntry p 1 .pending .null [])))
      (some (resultEntry p 1 .pending .null [])) :=
    fun p => .fresh ((shortEntry_pending p).validated hr)
  have hget : ∀ p : Phase, entryAt (updatesJson (firstSeeds cfg.plannedPhases)) p.value =
      if p ∈ cfg.plannedPhases then some (.ofDict (resultEntry p 1 .pending .null [])) else none := by
    intro p
    rw [entryAt_updatesJson, updateFor_firstSeeds]
    split <;> rfl
  have hother : ∀ k, (∀ p : Phase, k ≠ p.value) →
      entryAt (updatesJson (firstSeeds cfg.plannedPhases)) k = none := by
    intro k hk
    have hnames := (argOk_updatesJson (firstSeeds cfg.plannedPhases)).names
    rw [updatesJson, Json.dict?_ofDict, phaseNamesOk, Bool.and_eq_true, List.all_eq_true] at hnames
    rw [entryAt, updatesJson, Json.dict?_ofDict, bind_some, Dict.get?_eq_none_iff]
    intro hmem
    have hname := of_decide_eq_true (hnames.2 k hmem)
    rw [phaseNames, List.mem_map] at hname
    rcases hname with ⟨p, _, rfl⟩
    exact hk p rfl
  have hstored : ∀ k, ∃ o, StoredAt env.toReducerEnv k (entryAt newThread.phaseResults.toJson k)
      (entryAt (updatesJson (firstSeeds cfg.plannedPhases)) k) o := by
    intro k
    have hnone : entryAt newThread.phaseResults.toJson k = none := by
      rw [entryAt_toJson]
      rfl
    rw [hnone]
    by_cases hk : ∃ p : Phase, k = p.value
    · rcases hk with ⟨p, rfl⟩
      rw [hget]
      split
      · exact ⟨_, hfresh p⟩
      · exact ⟨_, .absent⟩
    · rw [hother k (fun p hp => hk ⟨p, hp⟩)]
      exact ⟨_, .absent⟩
  have hempty : ArgOk newThread.phaseResults.toJson :=
    argOk_of_keys (fun k hk => absurd hk not_mem_nil)
  rcases mergePhaseResults_exists hempty (argOk_updatesJson _) hstored with ⟨m, hm⟩
  have hat := (mergePhaseResults_stored hm).2
  have hentry : ∀ p : Phase, m.get? p.value =
      if p ∈ cfg.plannedPhases then some (resultEntry p 1 .pending .null []) else none := by
    intro p
    have hp := hat p.value
    rw [hget, entryAt_toJson] at hp
    by_cases hmem : p ∈ cfg.plannedPhases
    · rw [if_pos hmem] at hp ⊢
      exact hp.unique (hfresh p)
    · rw [if_neg hmem] at hp ⊢
      exact hp.unique .absent
  have hthread : ShortThread env { cfg, phaseResults := m, dialogue := [], artifacts := .null } := by
    refine ⟨fun k e he => ?_, fun _ hd => absurd hd not_mem_nil, Nat.zero_le _, nodup_nil, rfl⟩
    by_cases hk : ∃ p : Phase, k = p.value
    · rcases hk with ⟨p, rfl⟩
      have he' := (hentry p).symm.trans he
      by_cases hmem : p ∈ cfg.plannedPhases
      · rw [if_pos hmem, some.injEq] at he'
        exact ⟨p, 1, .pending, .null, [], rfl, he' ▸ shortEntry_pending p⟩
      · rw [if_neg hmem] at he'
        cases he'
    · have hp := hat k
      rw [hother k (fun p hp => hk ⟨p, hp⟩), entryAt_toJson, he] at hp
      cases hp
  have hstore : storeEntries env newThread (firstSeeds cfg.plannedPhases) = .ok m := by
    rw [storeEntries, if_neg]
    · exact hm
    · rw [firstSeeds, List.isEmpty_iff, map_eq_nil_iff]
      exact hplan
  refine ⟨{ cfg, phaseResults := m, dialogue := [], artifacts := .null },
    ⟨.plan hlimits (seedPlan_newThread _), rfl, hstore, rfl⟩, rfl, fun p hp => ⟨hthread, _, ?_,
      shortEntry_pending p⟩⟩
  rw [hentry, if_pos hp]

theorem length_turns {e : ReviewEvent} (h : Occurs env s e)
    (htalk : e.discusses p = true) : (e.turns p).length = 2 := by
  cases h with
  | plan _ _ => cases htalk
  | node _ => cases htalk
  | retryReport _ _ => cases htalk
  | review hgate =>
    rw [ReviewEvent.discusses, Bool.and_eq_true, decide_eq_true_eq] at htalk
    cases outputGate_command hgate with
    | silent => cases htalk.2
    | failed _ => cases htalk.2
    | final _ _ _ => cases htalk.2
    | revised _ _ _ _ => cases htalk.2
    | discussed _ _ _ _ _ _ =>
      rw [ReviewEvent.turns, if_pos htalk.1]
      rfl

theorem ReviewRun.forall_occurs {es : List ReviewEvent}
    (h : ReviewRun env s es t) : ∀ e ∈ es, ∃ u, Occurs env u e := by
  induction h with
  | nil => exact fun e he => absurd he not_mem_nil
  | snoc _ hstep ih =>
    rw [forall_mem_append, forall_mem_singleton]
    exact ⟨ih, _, hstep.occurs⟩

/-- What is kept of a review: of what the gate wrote while it was going on, and of
    what is there as long as the attempt is the current one. -/
structure ReviewKept (env : GateEnv) (p : Phase) (n : Int) (limits : Limits)
    (es : List ReviewEvent) (t : ReviewState) (e : PhaseEntry) : Prop where
  entry : t.phaseResults.get? p.value = some e
  pairs : ∀ ev ∈ es, ev.discusses p = true → (ev.turns p).length = 2
  turns : (attemptTurns p n t).map StableEntry.toJson = es.flatMap (·.turns p)
  distinctTurns : ((attemptTurns p n t).map StableEntry.id).Nodup
  operator : operatorTurns ((attemptTurns p n t).map StableEntry.entry) = discussions p es
  turnsMax : discussions p es ≤ limits.maxDialogueTurns
  records : ∀ v ∈ es.flatMap (·.decisions p), ∃ r ∈ approvalsIn env e, r.toJson = v
  distinctRecords : ((approvalsIn env e).map StableEntry.id).Nodup
  count : reviseCount e = .ok (revisions p es + reportRetries p es)
  countMax : revisions p es ≤ limits.maxReviseLoops ∧ revisions p es + reportRetries p es ≤ 10
  recordsLater : ∀ later u e', ReviewRun env t later u → u.phaseResults.get? p.value = some e' →
    e'.value "attempt" = .int n → approvalsIn env e ⊆ approvalsIn env e'
  turnsLater : ∀ later u, ReviewRun env t later u → inAttempt p n u →
    (attemptTurns p n t).length + (written later).length ≤ maxDurableDialogueEntries →
      attemptTurns p n t ⊆ u.dialogue

theorem ReviewRun.trans {u : ReviewState} {es es' : List ReviewEvent} (h : ReviewRun env s es t)
    (h' : ReviewRun env t es' u) : ReviewRun env s (es ++ es') u := by
  induction h' with
  | nil =>
    rw [append_nil]
    exact h
  | snoc _ hstep ih =>
    rw [← append_assoc]
    exact ih.snoc hstep

theorem PhaseAt.open (hr : Plain env.rules) {text : String}
    (h : PhaseAt env s p n .pending .null []) (htext : ShortText text) :
    ∃ es t, ReviewRun env s es t ∧ (∀ e ∈ es, Quiet p e) ∧ discussions p es = 0 ∧
      PhaseAt env t p n .awaitingOutputReview (.str text) [] ∧
      (∀ k, k ≠ p.value → t.phaseResults.get? k = s.phaseResults.get? k) ∧
      t.dialogue = s.dialogue := by
  rcases h.setStatus hr .running (some text) (fun _ h => mem_some.mp h ▸ htext)
    (fun h => by cases h) with ⟨u, hstep, hu, hother, hsame⟩
  rcases hu.setStatus hr .awaitingOutputReview none (fun _ h => absurd h (not_mem_none _))
    (fun h => by cases h) with ⟨t, hstep', ht, hother', hsame'⟩
  refine ⟨_, t, (ReviewRun.nil.snoc hstep).snoc hstep', fun e he => ?_, rfl, ht,
    fun k hk => (hother' k hk).trans (hother k hk), hsame'.trans hsame⟩
  rcases mem_append.mp he with he | he
  · rw [mem_singleton.mp he]
    trivial
  · rw [mem_singleton.mp he]
    trivial

/-- A phase about which nothing has been said can be discussed until the limit is
    reached. -/
theorem PhaseAt.review (hr : Plain env.rules) {c : GateCall} {text message : String} {resume : Json}
    (h : PhaseAt env s c.phase n .pending .null []) (hs : Sound env s)
    (hsilent : attemptTurns c.phase n s = []) (htext : ShortText text)
    (hmeaning : meaningful text = true) (hgated : (s.cfg.gates c.phase).outputReview = .gated)
    (htalk : ShortTalk env c resume message) {k : Nat} (hk : k ≤ s.cfg.limits.maxDialogueTurns) :
    ∃ es t ss, ReviewRun env s es t ∧ (∀ e ∈ es, Quiet c.phase e) ∧
      PhaseAt env t c.phase n .awaitingOutputReview (.str text) ss ∧
      (∀ k, k ≠ c.phase.value → t.phaseResults.get? k = s.phaseResults.get? k) ∧
      (∀ d ∈ t.dialogue, d ∈ s.dialogue ∨ belongs c.phase n d = true) ∧
      (attemptTurns c.phase n t).length = 2 * k := by
  rcases h.open hr htext with ⟨es, u, hrun, hquiet, _, hu, hother, hsame⟩
  have hcfg := cfg_quiet_run hrun hquiet
  have hsu := hs.run hrun
  have hsilent' : attemptTurns c.phase n u = [] := by
    rw [attemptTurns, hsame]
    exact hsilent
  rcases hu.unreviewed hsilent' with ⟨e₀, hun⟩
  rcases hu.discuss_many hr hsu hun htext hmeaning (hcfg ▸ hgated) htalk k (hcfg ▸ hk) with
    ⟨es', t, ss, hrun', hquiet', hcount, ht, hother', hnew⟩
  rcases hsu.entries c.phase e₀ hun.entry with ⟨_, hsound⟩
  rcases hsound.count with ⟨start, hstart, _⟩
  rcases Reviewed.run hsu hun hstart hrun' hquiet' with ⟨m, hm⟩
  refine ⟨es ++ es', t, ss, hrun.trans hrun', forall_mem_append.mpr ⟨hquiet, hquiet'⟩, ht,
    fun k hk => (hother' k hk).trans (hother k hk), fun d hd => hsame ▸ hnew d hd, ?_⟩
  rw [hm.length, hcount]

theorem length_attemptTurns_le {xs ys : List StableEntry} {q : Phase} {m : Int} (ht : Sound env t)
    (hpq : p ≠ q) (hxs : xs.Nodup) (hys : ys.Nodup) (hx : ∀ d ∈ xs, belongs p n d = true)
    (hy : ∀ d ∈ ys, belongs q m d = true) (hxt : xs ⊆ t.dialogue) (hyt : ys ⊆ t.dialogue) :
    xs.length + ys.length ≤ maxDurableDialogueEntries := by
  have hdisjoint : xs.Disjoint ys := fun d hdx hdy =>
    hpq (Phase.value_injective ((belongs_iff.mp (hx d hdx)).1.symm.trans
      (belongs_iff.mp (hy d hdy)).1))
  have hsub : xs ++ ys ⊆ t.dialogue := append_subset.mpr ⟨hxt, hyt⟩
  have hle := ((hxs.append hys hdisjoint).subperm hsub).length_le
  rw [length_append] at hle
  exact hle.trans ht.length

/-- An environment to evaluate statements about gates in. -/
def sampleGateEnv : GateEnv where
  toReducerEnv := sampleEnv
  validateGatePayload _ := .ok ()
  contextEditOk _ := false
  deliverableBlocked _ _ := .ok false

theorem plain_sample : Plain sampleGateEnv.rules := ⟨fun _ => rfl, by decide⟩

/-- Two phases, and as many discussions as can be configured. -/
def sampleReviewConfig : PipelineConfigurable where
  phases := some [.storyAnalysis, .testPlanning]
  limits := { maxDialogueTurns := 100 }

def sampleCall (p : Phase) : GateCall := ⟨p, "ann", "12:00", "12:00", "12:01"⟩

def sampleQuestion : Json := .ofDict (dictOf [("action", .str "discuss"), ("message", .str "why?")])

theorem shortText_sample : ∀ s ∈ ["ann", "12:00", "12:01", "why?", "done"], ShortText s := by
  unfold ShortText
  decide

theorem shortTalk_sample (p : Phase) :
    ShortTalk sampleGateEnv (sampleCall p) sampleQuestion "why?" where
  action := by decide +kernel
  text := by decide +kernel
  short := shortText_sample _ (by decide)
  reply := by
    unfold ShortText
    cases p <;> decide +kernel
  actor := shortText_sample "ann" (by decide)
  approvalAt := shortText_sample "12:00" (by decide)
  operatorAt := shortText_sample "12:00" (by decide)
  agentAt := shortText_sample "12:01" (by decide)

def sampleApproval : Json := .ofDict (dictOf [("action", .str "approve")])

theorem approves_sample : (Gates.parseGateDecision sampleGateEnv sampleApproval
    phaseReviewActions).value "action" = .str "approve" := by decide +kernel

theorem not_inAttempt_newThread : ¬ inAttempt p n newThread := by
  rintro ⟨e, he, _⟩
  rw [newThread, Dict.get?_empty] at he
  cases he

theorem PhaseAt.inAttempt {status : PhaseStatus} {summary : Json} {ss : List StableEntry}
    (h : PhaseAt env s p n status summary ss) : inAttempt p n s := by
  rcases h.entry with ⟨e, he, hshort⟩
  exact ⟨e, he, by rw [hshort.entry, Dict.value, get_attempt, getD_some]⟩

/-- The dialogue is one window for all phases: turns of an attempt that is still
    the current one can be gone after the discussions of another phase. -/
theorem turns_evicted : ¬ ∀ (env : GateEnv) (before later : List ReviewEvent)
    (s t : ReviewState) (p : Phase) (n : Int), ReviewRun env newThread before s →
      ReviewRun env s later t → inAttempt p n s → inAttempt p n t →
        attemptTurns p n s ⊆ t.dialogue := by
  intro hkept
  rcases plan_pending plain_sample sampleReviewConfig (by decide) (by decide) with
    ⟨s, hplan, hdialogue, hpending⟩
  have hs : Sound sampleGateEnv s := sound_newThread.step hplan
  have hcfg : s.cfg = sampleReviewConfig := hplan.cfg
  have hdone := shortText_sample "done" (by decide)
  have htests := hpending .testPlanning (by decide)
  -- The first phase is discussed a hundred times, which takes 200 of 256 places.
  rcases (hpending .storyAnalysis (by decide)).review plain_sample
    (c := sampleCall .storyAnalysis) hs (by rw [attemptTurns, hdialogue]; rfl) hdone (by decide)
    (by rw [hcfg]; rfl) (shortTalk_sample _) (show 100 ≤ _ by rw [hcfg]; decide) with
    ⟨es, t, _, hrun, hquiet, hstory, hother, hturns, hlength⟩
  have hcfg' : t.cfg = sampleReviewConfig := (cfg_quiet_run hrun hquiet).trans hcfg
  -- It is approved and finished.
  rcases hstory.approve plain_sample (c := sampleCall .storyAnalysis) hdone (by decide)
    (by rw [hcfg']; rfl) (by decide) approves_sample
    (shortText_sample "ann" (by decide)) (shortText_sample "12:00" (by decide)) with
    ⟨u, t₁, _, happrove, _, hstory₁, hother₁, hsame₁⟩
  rcases hstory₁.setStatus plain_sample .succeeded none (fun _ h => absurd h (not_mem_none _))
    (fun h => by cases h) with ⟨t₂, hfinish, hstory₂, hother₂, hsame₂⟩
  have hrun₂ := (hrun.snoc happrove).snoc hfinish
  have hs₂ := hs.run hrun₂
  have hcfg₂ : t₂.cfg = sampleReviewConfig := by
    rw [hfinish.cfg, happrove.cfg]
    exact hcfg'
  have htests₂ : PhaseAt sampleGateEnv t₂ .testPlanning 1 .pending .null [] :=
    htests.other hstory₂.thread (p := .storyAnalysis) (by decide) (fun k hk =>
      (hother₂ k hk).trans ((hother₁ k hk).trans (hother k hk)))
  have hsilent : attemptTurns .testPlanning 1 t₂ = [] := by
    rw [attemptTurns, filter_eq_nil_iff, hsame₂, hsame₁]
    intro d hd hb
    rcases hturns d hd with hd | hd
    · rw [hdialogue] at hd
      exact absurd hd not_mem_nil
    · have heq := (belongs_iff.mp hd).1.symm.trans (belongs_iff.mp hb).1
      revert heq
      decide
  -- The discussions of the second phase take 58 places.
  rcases htests₂.review plain_sample (c := sampleCall .testPlanning) hs₂ hsilent hdone (by decide)
    (by rw [hcfg₂]; rfl) (shortTalk_sample _) (show 29 ≤ _ by rw [hcfg₂]; decide) with
    ⟨later, v, _, hlater, _, htests₃, hother₃, _, hlength₃⟩
  have hstory₃ : PhaseAt sampleGateEnv v .storyAnalysis 1 _ _ _ :=
    hstory₂.other htests₃.thread (p := .testPlanning) (by decide) hother₃
  have hbefore := (ReviewRun.nil.snoc hplan).trans hrun₂
  have hsub := hkept sampleGateEnv _ later t₂ v .storyAnalysis 1 hbefore hlater hstory₂.inAttempt
    hstory₃.inAttempt
  have hv := hs₂.run hlater
  have hle := length_attemptTurns_le (p := .storyAnalysis) (q := .testPlanning) (m := 1) hv (by decide)
    ((Nodup.of_map _ hs₂.nodup).filter _) ((Nodup.of_map _ hv.nodup).filter _)
    (fun d hd => of_mem_filter hd) (fun d hd => of_mem_filter hd) hsub
    (fun _ hd => mem_of_mem_filter hd)
  have hkeep : attemptTurns .storyAnalysis 1 t₂ = attemptTurns .storyAnalysis 1 t := by
    rw [attemptTurns, attemptTurns, hsame₂, hsame₁]
  change (attemptTurns .storyAnalysis 1 t₂).length + (attemptTurns .testPlanning 1 v).length ≤ 256
    at hle
  have h200 : (attemptTurns .storyAnalysis 1 t).length = 200 := hlength
  have h58 : (attemptTurns .testPlanning 1 v).length = 58 := hlength₃
  rw [hkeep, h200, h58] at hle
  exact absurd hle (by decide)

def reportConfig : PipelineConfigurable where
  phases := some [.reporting]
  limits := { maxReviseLoops := 0 }

/-- What is stored when the assembly of the report fails, and when it is retried. -/
def reportFailed : PhaseEntry :=
  updateOf 1 [("status", .str PhaseStatus.running.value), ("report_failure", .bool true)]

def reportRetried : PhaseEntry :=
  updateOf 1 [("status", .str PhaseStatus.running.value), ("report_failure", .bool false),
    ("revise_count", .int 1)]

/-- The thread after entries of the report have been stored one after the other. -/
def reportThread (es : List PhaseEntry) : ReviewState where
  cfg := reportConfig
  phaseResults := es.foldl (fun m e => ((mergePhaseResults sampleEnv m.toJson
    (updatesJson [(.reporting, e)])).toOption).getD m) ∅
  dialogue := []
  artifacts := .null

theorem retries_counted : ¬ ∀ (env : GateEnv) (es : List ReviewEvent) (t : ReviewState) (p : Phase)
    (e : PhaseEntry) (k : Nat), ReviewRun env newThread es t → t.phaseResults.get? p.value = some e →
      reviseCount e = .ok k → k ≤ t.cfg.limits.maxReviseLoops := by
  intro hle
  let pending : PhaseEntry := resultEntry .reporting 1 .pending .null []
  let planned := reportThread [pending]
  let failed := reportThread [pending, reportFailed]
  let retried := reportThread [pending, reportFailed, reportRetried]
  have hplan : ReviewStep sampleGateEnv newThread (.plan reportConfig (firstSeeds [.reporting]))
      planned := ⟨.plan (by decide) (seedPlan_newThread _), rfl, by decide +kernel, rfl⟩
  have hfail : ReviewStep sampleGateEnv planned (.node .reporting reportFailed) failed :=
    ⟨.node ⟨⟨1, by decide +kernel, by decide +kernel, .inl (by decide +kernel)⟩,
      by decide +kernel⟩, rfl, by decide +kernel, rfl⟩
  have hretry : ReviewStep sampleGateEnv failed (.retryReport reportRetried) retried :=
    ⟨.retryReport (k := 1) (by decide +kernel) (by decide +kernel), rfl, by decide +kernel, rfl⟩
  have hrun := ((ReviewRun.nil.snoc hplan).snoc hfail).snoc hretry
  have hcount : (retried.phaseResults.get? Phase.reporting.value).map reviseCount =
      some (.ok 1) := by decide +kernel
  rcases map_eq_some_iff.mp hcount with ⟨e, he, hone⟩
  exact absurd (hle sampleGateEnv _ retried .reporting e 1 hrun he hone) (by decide)

end Apex.Graphs
