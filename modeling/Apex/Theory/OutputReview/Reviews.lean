import Apex.Theory.OutputReview.Retention

/-!
# Reviews

The review of an attempt as a run: it begins before the attempt has been reviewed
and goes on while no plan is made and no other phase discusses anything. Its turns
and its decisions are then all there, in order and under identifiers of their own,
and the limits of the run bound them.

Afterwards anything may happen. The records of the attempt stay while it is the
current one, and its turns stay as long as they and what is discussed later fit
into the window of the dialogue.

## Main definitions

* `Reviewed`: What holds in the course of a review.
* `Remains`: What is left of it later.

## Theorems

* `Reviewed.run`: What holds at the end of a review.
* `remains_run`: What is left of it after any run.
-/

namespace Apex.Graphs

open List Option
open Domain

variable {env : GateEnv} {p : Phase} {n : Int}

def discussions (p : Phase) (es : List ReviewEvent) : Nat := es.countP (·.discusses p)

def revisions (p : Phase) (es : List ReviewEvent) : Nat := es.countP (·.revises p)

def reportRetries (p : Phase) (es : List ReviewEvent) : Nat := es.countP (·.retries p)

/-- An attempt before its first review: it is the current one, and there is neither
    a turn of it nor the record of a discussion or a revision. -/
structure Unreviewed (env : GateEnv) (p : Phase) (n : Int) (s : ReviewState) (e : PhaseEntry) :
    Prop where
  entry : s.phaseResults.get? p.value = some e
  attempt : e.value "attempt" = .int n
  silent : attemptTurns p n s = []
  unrecorded : ∀ r ∈ approvalsIn env e, ∀ action ∈ ["discuss", "revise"], ∀ j,
    r.id ≠ approvalId p n "phase_review" action j

structure Reviewed (env : GateEnv) (p : Phase) (n : Int) (start : Nat) (es : List ReviewEvent)
    (t : ReviewState) (e : PhaseEntry) : Prop where
  entry : t.phaseResults.get? p.value = some e
  attempt : e.value "attempt" = .int n
  turns : (attemptTurns p n t).map StableEntry.toJson = es.flatMap (·.turns p)
  tail : ∃ before, t.dialogue = before ++ attemptTurns p n t
  indexed : ∀ d ∈ attemptTurns p n t, ∃ i role, TurnRead p n i role d ∧
    i < (attemptTurns p n t).length
  length : (attemptTurns p n t).length = 2 * discussions p es
  operator : operatorTurns ((attemptTurns p n t).map StableEntry.entry) = discussions p es
  turnsMax : discussions p es ≤ t.cfg.limits.maxDialogueTurns
  discussed : ∀ r ∈ approvalsIn env e, ∀ j, r.id = approvalId p n "phase_review" "discuss" j →
    j ≤ discussions p es
  revised : ∀ r ∈ approvalsIn env e, ∀ j, r.id = approvalId p n "phase_review" "revise" j →
    j ≤ start + revisions p es + reportRetries p es
  count : reviseCount e = .ok (start + revisions p es + reportRetries p es)
  revisionsMax : revisions p es ≤ t.cfg.limits.maxReviseLoops
  records : ∀ v ∈ es.flatMap (·.decisions p), ∃ r ∈ approvalsIn env e, r.toJson = v

variable {start : Nat} {s t : ReviewState} {e₀ m : PhaseEntry} {e : ReviewEvent}
  {es : List ReviewEvent}

theorem Unreviewed.reviewed {e : PhaseEntry} (h : Unreviewed env p n s e)
    (hstart : reviseCount e = .ok start) :
    Reviewed env p n start [] s e where
  entry := h.entry
  attempt := h.attempt
  turns := by rw [h.silent]; rfl
  tail := ⟨s.dialogue, by rw [h.silent, append_nil]⟩
  indexed d hd := by
    rw [h.silent] at hd
    exact absurd hd not_mem_nil
  length := by rw [h.silent]; rfl
  operator := by rw [h.silent]; rfl
  turnsMax := Nat.zero_le _
  discussed r hr j hid := absurd hid (h.unrecorded r hr "discuss" (by decide) j)
  revised r hr j hid := absurd hid (h.unrecorded r hr "revise" (by decide) j)
  count := hstart
  revisionsMax := Nat.zero_le _
  records v hv := absurd hv not_mem_nil

theorem attempt_quiet (h : ReviewStep env s e t) (he₀ : s.phaseResults.get? p.value = some e₀)
    (hn : e₀.value "attempt" = .int n)
    (hu : ∀ u, updateFor e.updates p = some u → u.value "attempt" = .int n) :
    ∃ m, t.phaseResults.get? p.value = some m ∧ m.value "attempt" = .int n := by
  rcases entry_present h (.inl (by rw [he₀]; rfl)) with ⟨m, hm⟩
  refine ⟨m, hm, ?_⟩
  have hmove := entryMove_of_store h.entries p
  rw [he₀, hm] at hmove
  cases hmove with
  | kept he _ hattempt _ _ =>
    cases he
    exact hattempt.trans hn
  | merged he _ hattempt _ _ _ =>
    cases he
    exact hattempt.trans hn
  | replaced hfor hattempt _ _ _ => exact hattempt.trans (hu _ hfor)

theorem attempt_update (h : Occurs env s e) (hq : Quiet p e)
    (he₀ : s.phaseResults.get? p.value = some e₀) (hn : e₀.value "attempt" = .int n)
    {u : PhaseEntry} (hu : updateFor e.updates p = some u) :
    u.value "attempt" = .int n := by
  have hread : ∀ {k : Int}, entryAttempt (s.entryOf p) = .ok k → k = n :=
    fun hk => entryAttempt_int (entryOf_some he₀ ▸ hn) hk
  have hmem := mem_of_updateFor hu
  cases h with
  | plan _ _ => exact absurd hq id
  | node hother =>
    rw [ReviewEvent.updates, mem_singleton, Prod.mk.injEq] at hmem
    rcases hmem with ⟨rfl, rfl⟩
    rcases hother.attempt with ⟨k, hk, hattempt, _⟩
    exact hread hk ▸ hattempt
  | retryReport hk _ =>
    rw [ReviewEvent.updates, mem_singleton, Prod.mk.injEq] at hmem
    rcases hmem with ⟨rfl, rfl⟩
    rw [Dict.value, get?_updateOf, hread hk]
    rfl
  | review hgate =>
    rw [ReviewEvent.updates, mem_toList, map_eq_some_iff] at hmem
    rcases hmem with ⟨x, hx, heq⟩
    rw [Prod.mk.injEq] at heq
    rcases heq with ⟨rfl, rfl⟩
    cases outputGate_command hgate with
    | silent => cases hx
    | failed hk =>
      cases hx
      rw [Dict.value, get?_updateOf, hread hk]
      rfl
    | final hk _ hrec =>
      cases hx
      exact hread hk ▸ hrec.attempt
    | revised hk _ _ hrec =>
      cases hx
      exact hread hk ▸ hrec.attempt
    | discussed hk _ _ _ _ hrec =>
      cases hx
      exact hread hk ▸ hrec.attempt

theorem cfg_quiet (h : ReviewStep env s e t) (hq : Quiet p e) : t.cfg = s.cfg := by
  rw [h.cfg]
  cases e with
  | plan _ _ => exact absurd hq id
  | node _ _ => rfl
  | retryReport _ => rfl
  | review _ _ => rfl

theorem cfg_quiet_run (h : ReviewRun env s es t) (hq : ∀ e ∈ es, Quiet p e) : t.cfg = s.cfg := by
  induction h with
  | nil => rfl
  | snoc _ hstep ih =>
    rw [forall_mem_append, forall_mem_singleton] at hq
    exact (cfg_quiet hstep hq.2).trans (ih hq.1)

theorem discussions_snoc (p : Phase) (es : List ReviewEvent) (e : ReviewEvent) :
    discussions p (es ++ [e]) = discussions p es + if e.discusses p then 1 else 0 := by
  rw [discussions, countP_append, countP_singleton]
  rfl

theorem revisions_snoc (p : Phase) (es : List ReviewEvent) (e : ReviewEvent) :
    revisions p (es ++ [e]) = revisions p es + if e.revises p then 1 else 0 := by
  rw [revisions, countP_append, countP_singleton]
  rfl

theorem reportRetries_snoc (p : Phase) (es : List ReviewEvent) (e : ReviewEvent) :
    reportRetries p (es ++ [e]) = reportRetries p es + if e.retries p then 1 else 0 := by
  rw [reportRetries, countP_append, countP_singleton]
  rfl

theorem attemptTurns_same (h : ReviewStep env s e t)
    (hdialogue : e.dialogue = none) : t.dialogue = s.dialogue := by
  have hstore := h.dialogue
  rw [hdialogue, storeDialogue, Except.ok.injEq] at hstore
  exact hstore.symm

theorem turns_nil (h : e.discusses p = false) : e.turns p = [] := by
  cases e with
  | review q u =>
    rw [ReviewEvent.turns]
    split
    · rename_i hq
      rw [ReviewEvent.discusses, decide_eq_true hq, Bool.true_and] at h
      rw [isSome_eq_false_iff, isNone_iff_eq_none] at h
      rw [h]
      rfl
    · rfl
  | plan _ _ => rfl
  | node _ _ => rfl
  | retryReport _ => rfl

theorem decisions_nil (h : e.discusses p = false) (h' : e.revises p = false) :
    e.decisions p = [] := by
  unfold ReviewEvent.decisions
  split
  · rw [h, h']
    rfl
  · rfl

section

variable (hs : Sound env s) (h : ReviewStep env s e t) (he₀ : s.phaseResults.get? p.value = some e₀)
  (hn : e₀.value "attempt" = .int n) (hm : t.phaseResults.get? p.value = some m)
  (hsame : m.value "attempt" = .int n)

include hs h he₀ hn hm hsame

theorem mem_records_step
    {r : StableEntry} (hr : r ∈ approvalsIn env m) :
    r ∈ approvalsIn env e₀ ∨ ∃ u, updateFor e.updates p = some u ∧ r ∈ approvalsIn env u := by
  rcases entry_step hs h he₀ hn hm hsame with ⟨_, hrecords, _⟩ | ⟨u, hu, hrecords, _⟩
  · exact .inl (hrecords ▸ hr)
  · rw [hrecords] at hr
    exact (appendNew_mem StableEntry.id hr).imp_right (fun hr => ⟨u, hu, hr⟩)

theorem count_step :
    ((∀ u, updateFor e.updates p = some u → u.get? "revise_count" = none) →
      reviseCount m = reviseCount e₀) ∧
    ∀ u (k : Nat), updateFor e.updates p = some u → u.get? "revise_count" = some (.int k) →
      k ≤ 10 → reviseCount m = .ok k := by
  rcases entry_step hs h he₀ hn hm hsame with ⟨hnone, _, hcount⟩ | ⟨u, hu, _, hcount⟩
  · refine ⟨fun _ => hcount, fun u k hu => ?_⟩
    rw [hnone] at hu
    cases hu
  · refine ⟨fun hkeep => ?_, fun u' k hu' hk hle => ?_⟩
    · rw [hkeep u hu, none_or] at hcount
      exact reviseCount_congr hcount
    · cases hu.symm.trans hu'
      rw [hk, some_or, getD_some] at hcount
      exact reviseCount_int hcount hle

theorem record_step
    {u : PhaseEntry} (hu : updateFor e.updates p = some u) {r : StableEntry}
    (hr : approvalsIn env u = [r])
    (hnew : r.id ∉ (approvalsIn env e₀).map StableEntry.id) : r ∈ approvalsIn env m := by
  rcases entry_step hs h he₀ hn hm hsame with ⟨hnone, _, _⟩ | ⟨u', hu', hrecords, _⟩
  · rw [hnone] at hu
    cases hu
  · cases hu.symm.trans hu'
    rw [hrecords, hr, appendNew_cons_new _ _ _ _ hnew, appendNew_nil]
    exact mem_append_right _ mem_cons_self

end

theorem Reviewed.undiscussed (h : Reviewed env p n start es s e₀) (hstep : ReviewStep env s e t)
    (hq : Quiet p e) (hdialogue : e.dialogue = none) (htalk : e.discusses p = false)
    (hm : t.phaseResults.get? p.value = some m) (hattempt : m.value "attempt" = .int n)
    (hdiscussed : ∀ r ∈ approvalsIn env m, ∀ j, r.id = approvalId p n "phase_review" "discuss" j →
      j ≤ discussions p es)
    (hrevised : ∀ r ∈ approvalsIn env m, ∀ j, r.id = approvalId p n "phase_review" "revise" j →
      j ≤ start + revisions p (es ++ [e]) + reportRetries p (es ++ [e]))
    (hcount : reviseCount m = .ok (start + revisions p (es ++ [e]) + reportRetries p (es ++ [e])))
    (hmax : revisions p (es ++ [e]) ≤ s.cfg.limits.maxReviseLoops)
    (hrecords : ∀ v ∈ (es ++ [e]).flatMap (·.decisions p), ∃ r ∈ approvalsIn env m, r.toJson = v) :
    Reviewed env p n start (es ++ [e]) t m := by
  have hturns : attemptTurns p n t = attemptTurns p n s := by
    rw [attemptTurns, attemptTurns_same hstep hdialogue]
    rfl
  have hdisc : discussions p (es ++ [e]) = discussions p es := by
    rw [discussions_snoc, htalk]
    rfl
  refine ⟨hm, hattempt, ?_, ?_, ?_, ?_, ?_, ?_, ?_, hrevised, hcount, ?_, hrecords⟩
  · rw [hturns, flatMap_append, flatMap_singleton, turns_nil htalk, append_nil]
    exact h.turns
  · rw [hturns, attemptTurns_same hstep hdialogue]
    exact h.tail
  · rw [hturns]
    exact h.indexed
  · rw [hturns, hdisc]
    exact h.length
  · rw [hturns, hdisc]
    exact h.operator
  · rw [hdisc, cfg_quiet hstep hq]
    exact h.turnsMax
  · rw [hdisc]
    exact hdiscussed
  · rw [cfg_quiet hstep hq]
    exact hmax

theorem undashed_review : ∀ action ∈ ["discuss", "revise"], Undashed "phase_review" action := by
  decide

theorem review_inj (hn : 1 ≤ n) {action action' : String} (ha : action ∈ ["discuss", "revise"])
    (ha' : action' ∈ ["discuss", "revise"]) {i j : Nat}
    (h : approvalId p n "phase_review" action i = approvalId p n "phase_review" action' j) :
    action = action' ∧ i = j :=
  (approvalId_inj hn hn (undashed_review _ ha) (undashed_review _ ha') h).2.2

theorem Reviewed.step (hs : Sound env s) (h : Reviewed env p n start es s e₀)
    (hstep : ReviewStep env s e t) (hq : Quiet p e) :
    ∃ m, Reviewed env p n start (es ++ [e]) t m := by
  rcases attempt_quiet hstep h.entry h.attempt
    (fun u hu => attempt_update hstep.occurs hq h.entry h.attempt hu) with ⟨m, hm, hattempt⟩
  refine ⟨m, ?_⟩
  have hmem := fun {r} => mem_records_step (r := r) hs hstep h.entry h.attempt hm hattempt
  have hcount := count_step hs hstep h.entry h.attempt hm hattempt
  have hsub := records_subset hs hstep h.entry h.attempt hm hattempt
  have hpos : 1 ≤ n := by
    rcases hs.entries p e₀ h.entry with ⟨k, hsound⟩
    have heq := hsound.attempt.symm.trans h.attempt
    rw [Json.int.injEq] at heq
    exact heq ▸ hsound.positive
  have hread : ∀ {k}, reviseCount (s.entryOf p) = .ok k →
      k = start + revisions p es + reportRetries p es := by
    intro k hk
    rw [entryOf_some h.entry, h.count, Except.ok.injEq] at hk
    exact hk.symm
  have hold : ∀ v ∈ es.flatMap (·.decisions p), ∃ r ∈ approvalsIn env m, r.toJson = v := by
    intro v hv
    rcases h.records v hv with ⟨r, hr, hrv⟩
    exact ⟨r, hsub hr, hrv⟩
  cases quietView hstep.occurs hq h.entry h.attempt with
  | aside hdialogue htalk hrevise hretry hu =>
    have hrev : revisions p (es ++ [e]) = revisions p es := by
      rw [revisions_snoc, hrevise]
      rfl
    have hret : reportRetries p (es ++ [e]) = reportRetries p es := by
      rw [reportRetries_snoc, hretry]
      rfl
    refine h.undiscussed hstep hq hdialogue htalk hm hattempt ?_ ?_ ?_ ?_ ?_
    · intro r hr j hid
      rcases hmem hr with hr | ⟨u, hfor, hr⟩
      · exact h.discussed r hr j hid
      · exact absurd hid ((hu u hfor).2 r hr "discuss" (by decide) j)
    · intro r hr j hid
      rw [hrev, hret]
      rcases hmem hr with hr | ⟨u, hfor, hr⟩
      · exact h.revised r hr j hid
      · exact absurd hid ((hu u hfor).2 r hr "revise" (by decide) j)
    · rw [hrev, hret, hcount.1 (fun u hfor => (hu u hfor).1)]
      exact h.count
    · rw [hrev]
      exact h.revisionsMax
    · rw [flatMap_append, flatMap_singleton, decisions_nil htalk hrevise, append_nil]
      exact hold
  | @retried k u hdialogue htalk hrevise hretry hu hk hlt hget hnone =>
    have hrev : revisions p (es ++ [e]) = revisions p es := by
      rw [revisions_snoc, hrevise]
      rfl
    have hret : reportRetries p (es ++ [e]) = reportRetries p es + 1 := by
      rw [reportRetries_snoc, hretry]
      rfl
    have hnew : ∀ {r}, r ∈ approvalsIn env m → r ∈ approvalsIn env e₀ := by
      intro r hr
      rcases hmem hr with hr | ⟨u', hfor, hr⟩
      · exact hr
      · cases hu.symm.trans hfor
        rw [hnone] at hr
        exact absurd hr not_mem_nil
    refine h.undiscussed hstep hq hdialogue htalk hm hattempt ?_ ?_ ?_ ?_ ?_
    · exact fun r hr => h.discussed r (hnew hr)
    · intro r hr j hid
      have := h.revised r (hnew hr) j hid
      omega
    · have hkeq := hread hk
      have hnext : start + revisions p es + (reportRetries p es + 1) = k + 1 := by omega
      rw [hrev, hret, hnext]
      exact hcount.2 u (k + 1) hu hget (by omega)
    · rw [hrev]
      exact h.revisionsMax
    · rw [flatMap_append, flatMap_singleton, decisions_nil htalk hrevise, append_nil]
      exact hold
  | @revised k u hdialogue htalk hrevise hretry hu hk hlt hrec hdecided =>
    have hrev : revisions p (es ++ [e]) = revisions p es + 1 := by
      rw [revisions_snoc, hrevise]
      rfl
    have hret : reportRetries p (es ++ [e]) = reportRetries p es := by
      rw [reportRetries_snoc, hretry]
      rfl
    have hkeq := hread hk
    have hlimits := hs.limits
    rw [Limits.reviewsOk, Bool.and_eq_true, decide_eq_true_eq, decide_eq_true_eq] at hlimits
    rcases hrec.record with ⟨v, hv, hget⟩
    rcases approvalsIn_made hv hget with ⟨r₀, hsingle, hid₀, hjson⟩
    have hnew : ∀ {r}, r ∈ approvalsIn env m → r ∈ approvalsIn env e₀ ∨ r = r₀ := by
      intro r hr
      rcases hmem hr with hr | ⟨u', hfor, hr⟩
      · exact .inl hr
      · cases hu.symm.trans hfor
        rw [hsingle, mem_singleton] at hr
        exact .inr hr
    have hkept : r₀ ∈ approvalsIn env m := by
      refine record_step hs hstep h.entry h.attempt hm hattempt hu hsingle (fun htaken => ?_)
      rcases List.mem_map.mp htaken with ⟨r, hr, hrid⟩
      have := h.revised r hr (k + 1) (hrid.trans hid₀)
      omega
    refine h.undiscussed hstep hq hdialogue htalk hm hattempt ?_ ?_ ?_ ?_ ?_
    · intro r hr j hid
      rcases hnew hr with hr | rfl
      · exact h.discussed r hr j hid
      · exact absurd (review_inj hpos (by decide) (by decide) (hid₀.symm.trans hid)).1 (by decide)
    · intro r hr j hid
      rcases hnew hr with hr | rfl
      · have := h.revised r hr j hid
        omega
      · have := (review_inj hpos (by decide) (by decide) (hid₀.symm.trans hid)).2
        omega
    · have hnext : start + (revisions p es + 1) + reportRetries p es = k + 1 := by omega
      rw [hrev, hret, hnext]
      exact hcount.2 u (k + 1) hu hrec.count (by omega)
    · rw [hrev]
      omega
    · rw [flatMap_append, flatMap_singleton, hdecided, Dict.value, hget,
        getD_some, forall_mem_append]
      refine ⟨hold, fun w hw => ⟨r₀, hkept, ?_⟩⟩
      rw [asList, mem_singleton] at hw
      rw [hw, hjson]
  | @discussed ds u operator agent hdialogue htalk hrevise hretry hturns hu hd hlt hoperator
      hagent hrec hdecided =>
      have hdisc : discussions p (es ++ [e]) = discussions p es + 1 := by
        rw [discussions_snoc, htalk]
        rfl
      have hrev : revisions p (es ++ [e]) = revisions p es := by
        rw [revisions_snoc, hrevise]
        rfl
      have hret : reportRetries p (es ++ [e]) = reportRetries p es := by
        rw [reportRetries_snoc, hretry]
        rfl
      have hlimits := hs.limits
      rw [Limits.reviewsOk, Bool.and_eq_true, decide_eq_true_eq, decide_eq_true_eq] at hlimits
      -- The gate reads the turns of the attempt.
      have hds : ds = (attemptTurns p n s).map StableEntry.entry := checkpointPhaseDialogue_ok hd
      have hlen : ds.length = (attemptTurns p n s).length := by rw [hds, List.length_map]
      have hturn : operatorTurns ds = discussions p es := by rw [hds, h.operator]
      have htwo := h.length
      rw [hlen] at hoperator hagent
      rw [hturn] at hlt hrec
      rcases turnsIn_discussion hoperator hagent with ⟨x, y, heq, hx, hy, hxj, hyj⟩
      have hshown : t.dialogue = shown (appendNew StableEntry.id s.dialogue [x, y]) := by
        rcases storeDialogue_ok hs hstep.dialogue with ⟨hnone, _⟩ | ⟨entries, hentries, hshown⟩
        · rw [hdialogue] at hnone
          cases hnone
        · cases hdialogue.symm.trans hentries
          rw [hshown, heq]
      rcases h.tail with ⟨before, htail⟩
      rcases discussion_dialogue hs h.entry h.attempt htail h.indexed (by
        rw [htwo]
        change 2 * discussions p es + 2 ≤ 256
        omega) hx hy hshown with ⟨hnew, before', htail'⟩
      rcases hrec.record with ⟨v, hv, hget⟩
      rcases approvalsIn_made hv hget with ⟨r₀, hsingle, hid₀, hjson⟩
      have hmem' : ∀ {r}, r ∈ approvalsIn env m → r ∈ approvalsIn env e₀ ∨ r = r₀ := by
        intro r hr
        rcases hmem hr with hr | ⟨u', hfor, hr⟩
        · exact .inl hr
        · cases hu.symm.trans hfor
          rw [hsingle, mem_singleton] at hr
          exact .inr hr
      have hkept : r₀ ∈ approvalsIn env m := by
        refine record_step hs hstep h.entry h.attempt hm hattempt hu hsingle (fun htaken => ?_)
        rcases List.mem_map.mp htaken with ⟨r, hr, hrid⟩
        have := h.discussed r hr _ (hrid.trans hid₀)
        omega
      refine ⟨hm, hattempt, ?_, ⟨before', htail'⟩, ?_, ?_, ?_, ?_, ?_, ?_, ?_, ?_, ?_⟩
      · rw [hnew, map_append, h.turns, flatMap_append, flatMap_singleton, hturns,
          map_cons, map_singleton, hxj, hyj]
      · intro d hd'
        rw [hnew, length_append]
        rw [hnew, mem_append, mem_cons, mem_singleton] at hd'
        rcases hd' with hd' | rfl | rfl
        · rcases h.indexed d hd' with ⟨i, role, hread', hlt'⟩
          exact ⟨i, role, hread', Nat.lt_add_right _ hlt'⟩
        · exact ⟨_, _, hx, Nat.lt_add_of_pos_right (Nat.succ_pos 1)⟩
        · exact ⟨_, _, hy, Nat.add_lt_add_left (Nat.lt_succ_self 1) _⟩
      · rw [hnew, length_append, htwo, hdisc]
        rfl
      · have hcountP : operatorTurns ((attemptTurns p n t).map StableEntry.entry) =
            operatorTurns ((attemptTurns p n s).map StableEntry.entry) + 1 := by
          rw [hnew, map_append, operatorTurns, countP_append, map_cons,
            map_singleton, countP_cons, countP_singleton, hx.role, hy.role]
          rfl
        rw [hcountP, h.operator, hdisc]
      · rw [hdisc, cfg_quiet hstep hq]
        exact hlt
      · intro r hr j hid
        rw [hdisc]
        rcases hmem' hr with hr | rfl
        · exact Nat.le_succ_of_le (h.discussed r hr j hid)
        · exact Nat.le_of_eq (review_inj hpos (by decide) (by decide) (hid₀.symm.trans hid)).2.symm
      · intro r hr j hid
        rw [hrev, hret]
        rcases hmem' hr with hr | rfl
        · exact h.revised r hr j hid
        · exact absurd (review_inj hpos (by decide) (by decide) (hid₀.symm.trans hid)).1 (by decide)
      · rw [hrev, hret, hcount.1 (fun u' hfor => by
          cases hu.symm.trans hfor
          exact hrec.count)]
        exact h.count
      · rw [hrev, cfg_quiet hstep hq]
        exact h.revisionsMax
      · rw [flatMap_append, flatMap_singleton, hdecided, Dict.value, hget,
          getD_some, forall_mem_append]
        refine ⟨hold, fun w hw => ⟨r₀, hkept, ?_⟩⟩
        rw [asList, mem_singleton] at hw
        rw [hw, hjson]

theorem Reviewed.run (hs : Sound env s) (h : Unreviewed env p n s e₀)
    (hstart : reviseCount e₀ = .ok start) (hrun : ReviewRun env s es t) (hq : ∀ e ∈ es, Quiet p e) :
    ∃ m, Reviewed env p n start es t m := by
  induction hrun with
  | nil => exact ⟨e₀, h.reviewed hstart⟩
  | @snoc es t u e hrun hstep ih =>
    rw [forall_mem_append, forall_mem_singleton] at hq
    rcases ih hq.1 with ⟨m, hm⟩
    exact hm.step (hs.run hrun) hstep hq.2

def written (es : List ReviewEvent) : List Json := es.flatMap (fun e => e.dialogue.getD [])

/-- What is left of an attempt that is still the current one: all its records, and
    its turns among the last of the dialogue. -/
structure Remains (env : GateEnv) (p : Phase) (n : Int) (s : ReviewState) (e₀ : PhaseEntry)
    (es : List ReviewEvent) (t : ReviewState) (e : PhaseEntry) : Prop where
  entry : t.phaseResults.get? p.value = some e
  records : approvalsIn env e₀ ⊆ approvalsIn env e
  tail : (attemptTurns p n s).length + (written es).length ≤ maxDurableDialogueEntries →
    ∃ before rest, t.dialogue = before ++ rest ∧ (attemptTurns p n s).Sublist rest ∧
      rest.length ≤ (attemptTurns p n s).length + (written es).length

theorem attempt_le (hs : Sound env s) (h : ReviewStep env s e t) {k : Int}
    (he₀ : s.phaseResults.get? p.value = some e₀) (hk : e₀.value "attempt" = .int k) :
    ∃ m k', t.phaseResults.get? p.value = some m ∧ m.value "attempt" = .int k' ∧ k ≤ k' := by
  rcases entry_present h (.inl (by rw [he₀]; rfl)) with ⟨m, hm⟩
  rcases entry_after hs h hm with ⟨k', hsound, hge, _⟩
  exact ⟨m, k', hm, hsound.attempt, hge e₀ k he₀ hk⟩

theorem attempt_le_run (hs : Sound env s) (h : ReviewRun env s es t) {k : Int}
    (he₀ : s.phaseResults.get? p.value = some e₀) (hk : e₀.value "attempt" = .int k) :
    ∃ m k', t.phaseResults.get? p.value = some m ∧ m.value "attempt" = .int k' ∧ k ≤ k' := by
  induction h with
  | nil => exact ⟨e₀, k, he₀, hk, Int.le_refl _⟩
  | snoc hrun hstep ih =>
    rcases ih with ⟨m, k', hm, hk', hle⟩
    rcases attempt_le (hs.run hrun) hstep hm hk' with ⟨m', k'', hm', hk'', hle'⟩
    exact ⟨m', k'', hm', hk'', Int.le_trans hle hle'⟩

/-- The window of the dialogue after a superstep holds what was among its last
    turns, if there is room for what is added. -/
theorem tail_step (hs : Sound env s) (h : ReviewStep env s e t)
    (he₀ : s.phaseResults.get? p.value = some e₀) (hn : e₀.value "attempt" = .int n)
    (hm : t.phaseResults.get? p.value = some m) (hsame : m.value "attempt" = .int n)
    {mine before rest : List StableEntry} (hmine : ∀ d ∈ mine, belongs p n d = true)
    (htail : s.dialogue = before ++ rest) (hsub : mine.Sublist rest)
    (hroom : rest.length + (e.dialogue.getD []).length ≤ maxDurableDialogueEntries) :
    ∃ before' rest', t.dialogue = before' ++ rest' ∧ mine.Sublist rest' ∧
      rest'.length ≤ rest.length + (e.dialogue.getD []).length := by
  rcases storeDialogue_ok hs h.dialogue with ⟨_, hdialogue⟩ | ⟨entries, hentries, hshown⟩
  · exact ⟨before, rest, hdialogue.trans htail, hsub, Nat.le_add_right _ _⟩
  · rw [hentries, getD_some] at hroom ⊢
    have hcurrent : ∀ d ∈ mine,
        isCurrent (appendNew StableEntry.id s.dialogue (turnsIn env entries)) d = true := by
      intro d hd
      refine isCurrent_attempt hs he₀ hn (Int.le_refl _) (fun d' hd' hphase => ?_) (hmine d hd)
      rcases turns_of_occurs h.occurs hentries hd' with ⟨q, k, i, role, u, hread, hfor, hk⟩
      have hq : q = p := Phase.value_injective (hread.phase.symm.trans hphase)
      subst hq
      rcases entry_after hs h hm with ⟨k', hsound, _, hupdate⟩
      have hkn := hsound.attempt.symm.trans hsame
      rw [Json.int.injEq] at hkn
      rw [hread.attempt, hupdate u k hfor hk, hkn]
    rcases appendNew_new_keys StableEntry.id s.dialogue (turnsIn env entries) with
      ⟨new, hlog, hnewsub, _⟩
    have hnew : new.length ≤ entries.length := by
      refine Nat.le_trans hnewsub.length_le (Nat.le_trans (length_distinctRecords_le _ _) ?_)
      rw [recent, asList, rtake, length_drop]
      exact Nat.sub_le _ _
    rw [hlog, htail, append_assoc] at hshown hcurrent
    have hle : ((rest ++ new).filter (isCurrent (before ++ (rest ++ new)))).length ≤
        rest.length + entries.length := by
      refine Nat.le_trans (length_filter_le _ _) ?_
      rw [length_append]
      exact Nat.add_le_add_left hnew _
    rcases shown_append _ _ (Nat.le_trans hle hroom) with ⟨before', heq, _⟩
    refine ⟨before', _, hshown.trans heq, ?_, hle⟩
    have hself : mine.filter (isCurrent (before ++ (rest ++ new))) = mine :=
      filter_eq_self.mpr hcurrent
    rw [← hself]
    exact (hsub.trans (sublist_append_left _ _)).filter _

theorem remains_run (hs : Sound env s) (h : ReviewRun env s es t)
    (he₀ : s.phaseResults.get? p.value = some e₀) (hn : e₀.value "attempt" = .int n)
    (htail : ∃ before, s.dialogue = before ++ attemptTurns p n s) {e : PhaseEntry}
    (he : t.phaseResults.get? p.value = some e)
    (hsame : e.value "attempt" = .int n) : Remains env p n s e₀ es t e := by
  induction h generalizing e with
  | nil =>
    cases he₀.symm.trans he
    rcases htail with ⟨before, htail⟩
    exact ⟨he, Subset.refl _, fun _ => ⟨before, _, htail, Sublist.refl _, Nat.le_add_right _ _⟩⟩
  | @snoc es t u ev hrun hstep ih =>
    have ht := hs.run hrun
    rcases attempt_le_run hs hrun he₀ hn with ⟨m, k, hm, hk, hle⟩
    -- The attempt is the same all along.
    have hkn : k = n := by
      rcases attempt_le ht hstep hm hk with ⟨m', k', hm', hk', hle'⟩
      cases he.symm.trans hm'
      rw [hsame, Json.int.injEq] at hk'
      omega
    subst hkn
    have hprior := ih hm hk
    have hwritten : (written (es ++ [ev])).length =
        (written es).length + (ev.dialogue.getD []).length := by
      rw [written, flatMap_append, flatMap_singleton, length_append]
      rfl
    refine ⟨he, fun r hr => records_subset ht hstep hm hk he hsame (hprior.records hr), ?_⟩
    intro hroom
    rw [hwritten] at hroom ⊢
    rcases hprior.tail (by omega) with ⟨before, rest, heq, hsub, hlen⟩
    rcases tail_step ht hstep hm hk he hsame
      (fun d hd => (mem_filter.mp hd).2) heq hsub (by omega) with
      ⟨before', rest', heq', hsub', hlen'⟩
    exact ⟨before', rest', heq', hsub', by omega⟩

end Apex.Graphs
