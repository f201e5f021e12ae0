import Apex.Theory.OutputReview.Thread

/-!
# Threads Stay Sound

Whatever happens on a thread, the entries keep an attempt that does not go back
and records of the forms the gates make, and the dialogue holds turns of the
current and of earlier attempts only.

## Theorems

* `updateSound_of_occurs`: Every update a node writes is sound.
* `Sound.step`, `Sound.run`: A thread stays sound.
-/

namespace Apex.Graphs

open List Option
open Domain

variable {env : GateEnv}

variable {p : Phase} {u : PhaseEntry} {s t : ReviewState} {n : Int} {e : ReviewEvent}

theorem updateSound_other (h : OtherUpdate env s p u) : ∃ n, UpdateSound env p u n := by
  rcases h.attempt with ⟨n, hn, hattempt, hrecords⟩
  refine ⟨n, hattempt, entryAttempt_pos hn, ?_, .inl h.count⟩
  intro r hr
  rcases hrecords with hnone | ⟨d, hd, v, hv, hu⟩
  · rw [approvalsIn_none (.inl hnone)] at hr
    exact absurd hr not_mem_nil
  · rcases approvalsIn_made hv hu with ⟨r', hsingle, hid, _⟩
    rw [hsingle, mem_singleton] at hr
    subst hr
    rw [hid]
    simp only [approvalIds, mem_append, List.mem_map]
    exact .inl (.inl (.inl ⟨d, hd, rfl⟩))

theorem updateSound_recorded {action : String} {sequence : Nat} {count : Option Json} (hn : 1 ≤ n)
    (hu : RecordedUpdate env p n action sequence count u)
    (hid : approvalId p n "phase_review" action sequence ∈ approvalIds p n)
    (hcount : count = none ∨ ∃ k : Nat, count = some (.int k) ∧ k ≤ 10) :
    UpdateSound env p u n := by
  refine ⟨hu.attempt, hn, ?_, by rw [hu.count]; exact hcount⟩
  rcases hu.record with ⟨v, hv, hget⟩
  rcases approvalsIn_made hv hget with ⟨r, hsingle, hrid, _⟩
  intro r' hr'
  rw [hsingle, mem_singleton] at hr'
  rw [hr', hrid]
  exact hid

theorem updateSound_review (hlimits : s.cfg.limits.reviewsOk = true) {g : GateUpdate}
    (h : GateStep env s p g) (hu : g.entry = some u) :
    ∃ n, UpdateSound env p u n := by
  rw [Limits.reviewsOk, Bool.and_eq_true, decide_eq_true_eq, decide_eq_true_eq] at hlimits
  cases h with
  | silent => cases hu
  | @failed n _ hn =>
    cases hu
    refine ⟨n, ?_, entryAttempt_pos hn, ?_, .inl (by rw [get?_updateOf]; rfl)⟩
    · rw [Dict.value, get?_updateOf]
      rfl
    · rw [approvalsIn_none (.inl (by rw [get?_updateOf]; rfl))]
      exact fun r hr => absurd hr not_mem_nil
  | @final n action _ _ hn haction hrec =>
    cases hu
    refine ⟨n, updateSound_recorded (entryAttempt_pos hn) hrec ?_ (.inl rfl)⟩
    simp only [approvalIds, mem_append, List.mem_map]
    exact .inl (.inl (.inr ⟨action, haction, rfl⟩))
  | @revised n k _ hn _ hlt hrec =>
    cases hu
    refine ⟨n, updateSound_recorded (entryAttempt_pos hn) hrec ?_ (.inr ⟨k + 1, rfl, by omega⟩)⟩
    simp only [approvalIds, mem_append, List.mem_map, mem_range]
    exact .inl (.inr ⟨k, by omega, rfl⟩)
  | @discussed n d _ _ _ hn _ hlt _ _ hrec =>
    cases hu
    refine ⟨n, updateSound_recorded (entryAttempt_pos hn) hrec ?_ (.inl rfl)⟩
    simp only [approvalIds, mem_append, List.mem_map, mem_range]
    exact .inr ⟨operatorTurns d, by omega, rfl⟩

/-- An update that starts an attempt: no records and no revision count yet. -/
structure UpdateBlank (env : GateEnv) (u : PhaseEntry) (n : Int) : Prop where
  attempt : u.value "attempt" = .int n
  positive : 1 ≤ n
  records : approvalsIn env u = []
  count : u.get? "revise_count" = none

theorem UpdateBlank.sound (h : UpdateBlank env u n) :
    UpdateSound env p u n := by
  refine ⟨h.attempt, h.positive, ?_, .inl h.count⟩
  rw [h.records]
  exact fun r hr => absurd hr not_mem_nil

theorem updateBlank_phaseResult {status : PhaseStatus} {summary : Json} {e : PhaseEntry}
    (h : phaseResult p status n summary = .ok e) : UpdateBlank env e n := by
  simp only [phaseResult, bind_ok, raiseIf_ok, pure_ok, exists_const, Bool.or_eq_false_iff,
    decide_eq_false_iff_not] at h
  rcases h with ⟨⟨hn, _⟩, rfl⟩
  refine ⟨?_, by omega, approvalsIn_none (.inr (by rw [get?_dictOf]; rfl)),
    by rw [get?_dictOf]; rfl⟩
  rw [Dict.value, get?_dictOf]
  rfl

/-- The fields an entry of imported results has beside those of a result are not
    those of a review. -/
theorem updateBlank_external {external : ExternalSeed} {e : PhaseEntry}
    (h : externalSeed external n = .ok e) : UpdateBlank env e n := by
  simp only [externalSeed, bind_ok, pure_ok] at h
  rcases h with ⟨r, hr, rfl⟩
  have hblank : UpdateBlank env r n := updateBlank_phaseResult hr
  have hget : ∀ k ∈ ["attempt", "approvals", "revise_count"], (r.update (dictOf
      [("test_summary", external.testSummary), ("external", .bool true),
        ("provenance", .str "imported"),
        ("source_outcome_explicit", .bool external.explicitOutcome),
        ("source_uri", external.sourceUri)])).get? k = r.get? k := by
    intro k hk
    rw [Dict.get?_update, get?_dictOf]
    simp only [mem_cons, not_mem_nil, or_false] at hk
    rcases hk with rfl | rfl | rfl <;> rfl
  have hrecords : ∀ d : PhaseEntry, d.get? "approvals" = r.get? "approvals" →
      approvalsIn env d = approvalsIn env r := by
    intro d hd
    rw [approvalsIn, approvalsIn, Dict.value, Dict.value, hd]
  refine ⟨?_, hblank.positive, ?_, ?_⟩
  · rw [Dict.value, hget _ (by decide)]
    exact hblank.attempt
  · rw [hrecords _ (hget _ (by decide))]
    exact hblank.records
  · rw [hget _ (by decide)]
    exact hblank.count

theorem updateBlank_seed {selected : List Phase} {external : Option ExternalSeed}
    {seeds : List (Phase × PhaseEntry)} (h : seedPlan s selected external = .ok seeds)
    (hu : (p, u) ∈ seeds) : ∃ n, UpdateBlank env u n := by
  simp only [seedPlan, bind_ok, pure_ok] at h
  rcases h with ⟨imported, himported, seeded, hseeded, rfl⟩
  rcases mem_append.mp hu with hu | hu
  · unfold seedExternal at himported
    split at himported
    · rw [Except.ok.injEq] at himported
      exact absurd (himported ▸ hu) not_mem_nil
    · split at himported
      · rw [Except.ok.injEq] at himported
        exact absurd (himported ▸ hu) not_mem_nil
      · simp only [bind_ok, pure_ok] at himported
        rcases himported with ⟨n, _, e, he, rfl⟩
        rw [mem_singleton, Prod.mk.injEq] at hu
        rcases hu with ⟨rfl, rfl⟩
        exact ⟨_, updateBlank_external he⟩
  · rcases mapM_mem hseeded hu with ⟨q, _, hq⟩
    simp only [seedPhase, bind_ok, pure_ok] at hq
    rcases hq with ⟨n, _, e, he, heq⟩
    rw [Prod.mk.injEq] at heq
    rcases heq with ⟨rfl, rfl⟩
    exact ⟨n, updateBlank_phaseResult he⟩

theorem updateSound_of_occurs (hlimits : s.cfg.limits.reviewsOk = true) (h : Occurs env s e)
    (hu : (p, u) ∈ e.updates) :
    ∃ n, UpdateSound env p u n := by
  cases h with
  | plan _ hseeds =>
    rcases updateBlank_seed hseeds hu with ⟨n, hblank⟩
    exact ⟨n, hblank.sound⟩
  | node hother =>
    rw [ReviewEvent.updates, mem_singleton, Prod.mk.injEq] at hu
    rcases hu with ⟨rfl, rfl⟩
    exact updateSound_other hother
  | @retryReport n k hn hk =>
    rw [ReviewEvent.updates, mem_singleton, Prod.mk.injEq] at hu
    rcases hu with ⟨rfl, rfl⟩
    rcases retryCount_some hk with ⟨j, _, rfl, hj⟩
    refine ⟨n, ?_, entryAttempt_pos hn, ?_, .inr ⟨j + 1, by rw [get?_updateOf]; rfl, by omega⟩⟩
    · rw [Dict.value, get?_updateOf]
      rfl
    · rw [approvalsIn_none (.inl (by rw [get?_updateOf]; rfl))]
      exact fun r hr => absurd hr not_mem_nil
  | @review c _ _ g hgate =>
    rw [ReviewEvent.updates, mem_toList, map_eq_some_iff] at hu
    rcases hu with ⟨u', hu', heq⟩
    rw [Prod.mk.injEq] at heq
    rcases heq with ⟨rfl, rfl⟩
    exact updateSound_review hlimits (outputGate_command hgate) hu'

/-- The records a list of values becomes in the dialogue. -/
def turnsIn (env : GateEnv) (entries : List Json) : List StableEntry :=
  channelRecords env.toReducerEnv (.list entries)

theorem turnsIn_nil : turnsIn env [] = [] := by
  rw [turnsIn, channelRecords, recent_list (Nat.zero_le _)]
  rfl

theorem storeDialogue_ok (hs : Sound env s) {o : Option (List Json)} {m : List StableEntry}
    (h : storeDialogue env s o = .ok m) :
    (o = none ∧ m = s.dialogue) ∨
      ∃ entries, o = some entries ∧
        m = shown (appendNew StableEntry.id s.dialogue (turnsIn env entries)) := by
  cases o with
  | none =>
    rw [storeDialogue, Except.ok.injEq] at h
    exact .inl ⟨rfl, h.symm⟩
  | some entries =>
    rw [storeDialogue, mergeDialogue_ok] at h
    refine .inr ⟨entries, rfl, ?_⟩
    rw [← h.2, channelLog, channelRecords_channelJson hs.length hs.nodup]
    rfl

theorem turnsIn_discussion {i : Nat} {operator agent : Json}
    (ho : MadeTurn env p n i "operator" operator) (ha : MadeTurn env p n (i + 1) "agent" agent) :
    ∃ x y, turnsIn env [operator, agent] = [x, y] ∧ TurnRead p n i "operator" x ∧
      TurnRead p n (i + 1) "agent" y ∧ x.toJson = operator ∧ y.toJson = agent := by
  rcases ho.identified with ⟨x, hx, hxr, hxj⟩
  rcases ha.identified with ⟨y, hy, hyr, hyj⟩
  refine ⟨x, y, ?_, hxr, hyr, hxj, hyj⟩
  have hne : y.id ∉ [x].map StableEntry.id := by
    rw [map_singleton, mem_singleton, hxr.id, hyr.id]
    intro h
    have hindex := (dialogueId_inj hxr.positive hxr.positive h).2.2.1
    omega
  rw [turnsIn, channelRecords, recent_list (show 2 ≤ maxDurableArtifacts by decide),
    distinctRecords, records, filterMap_cons, hx, filterMap_cons, hy, filterMap_nil]
  have hempty : x.id ∉ ([] : List StableEntry).map StableEntry.id := not_mem_nil
  simp only
  rw [appendNew_cons_new _ _ _ _ hempty, nil_append, appendNew_cons_new _ _ _ _ hne]
  rfl

theorem shown_sublist (log : List StableEntry) : (shown log).Sublist log :=
  (drop_sublist _ _).trans filter_sublist

theorem turns_of_occurs (h : Occurs env s e) {entries : List Json} (he : e.dialogue = some entries)
    {d : StableEntry} (hd : d ∈ turnsIn env entries) : ∃ q n i role u, TurnRead q n i role d ∧
      updateFor e.updates q = some u ∧ u.value "attempt" = .int n := by
  cases h with
  | plan _ _ =>
    cases he
    rw [turnsIn_nil] at hd
    exact absurd hd not_mem_nil
  | node _ => cases he
  | retryReport _ _ => cases he
  | review hgate =>
    rw [ReviewEvent.dialogue] at he
    cases outputGate_command hgate with
    | silent => cases he
    | failed _ => cases he
    | final _ _ _ => cases he
    | revised _ _ _ _ => cases he
    | discussed hn _ _ hoperator hagent hrec =>
      cases he
      rcases turnsIn_discussion hoperator hagent with ⟨x, y, heq, hx, hy, _, _⟩
      rw [heq, mem_cons, mem_singleton] at hd
      have hfor : ∀ (p : Phase) (u : PhaseEntry),
          updateFor (((some u).map (fun e => (p, e))).toList) p = some u := by
        intro p u
        exact List.lookup_cons_self
      rcases hd with rfl | rfl
      · exact ⟨_, _, _, _, _, hx, hfor _ _, hrec.attempt⟩
      · exact ⟨_, _, _, _, _, hy, hfor _ _, hrec.attempt⟩

theorem entry_after (hs : Sound env s) (h : ReviewStep env s e t) {m : PhaseEntry}
    (hm : t.phaseResults.get? p.value = some m) : ∃ n, EntrySound env p m n ∧
      (∀ e₀ k, s.phaseResults.get? p.value = some e₀ → e₀.value "attempt" = .int k → k ≤ n) ∧
      (∀ u₀ k, updateFor e.updates p = some u₀ → u₀.value "attempt" = .int k → k = n) := by
  have hmove := entryMove_of_store h.entries p
  rw [hm] at hmove
  exact hmove.sound (hs.entries p)
    (fun u₀ hu => updateSound_of_occurs hs.limits h.occurs (mem_of_updateFor hu))

theorem entry_present (h : ReviewStep env s e t)
    (hp : (s.phaseResults.get? p.value).isSome ∨ (updateFor e.updates p).isSome) :
    ∃ m, t.phaseResults.get? p.value = some m := by
  have hmove := entryMove_of_store h.entries p
  cases hget : t.phaseResults.get? p.value with
  | some m => exact ⟨m, rfl⟩
  | none =>
    rw [hget] at hmove
    cases hmove with
    | absent he hu =>
      rw [he, hu] at hp
      exact absurd hp (by decide)

theorem Sound.step (hs : Sound env s) (h : ReviewStep env s e t) : Sound env t := by
  -- The entry of a phase is there once it was, at no earlier attempt.
  have hold : ∀ d ∈ s.dialogue, ∃ q n i role, TurnRead q n i role d ∧
      ∃ e m, t.phaseResults.get? q.value = some e ∧ e.value "attempt" = .int m ∧ n ≤ m := by
    intro d hd
    rcases hs.turns d hd with ⟨q, n, i, role, hread, e₀, k, he₀, hk, hle⟩
    rcases entry_present h (.inl (by rw [he₀]; rfl)) with ⟨m, hm⟩
    rcases entry_after hs h hm with ⟨n', hsound, hge, _⟩
    exact ⟨q, n, i, role, hread, m, n', hm, hsound.attempt, Int.le_trans hle (hge e₀ k he₀ hk)⟩
  have hlimits : t.cfg.limits.reviewsOk = true := by
    rw [h.cfg]
    cases h.occurs with
    | plan hl _ => exact hl
    | node _ => exact hs.limits
    | retryReport _ _ => exact hs.limits
    | review _ => exact hs.limits
  have hdialogue : (t.dialogue.map StableEntry.id).Nodup ∧
      t.dialogue.length ≤ maxDurableDialogueEntries ∧
      ∀ d ∈ t.dialogue, d ∈ s.dialogue ∨ ∃ entries, e.dialogue = some entries ∧
        d ∈ turnsIn env entries := by
    rcases storeDialogue_ok hs h.dialogue with ⟨_, hsame⟩ | ⟨entries, hentries, hshown⟩
    · rw [hsame]
      exact ⟨hs.nodup, hs.length, fun d hd => .inl hd⟩
    · rw [hshown]
      refine ⟨?_, length_rtake_le _ _, fun d hd => ?_⟩
      · exact ((shown_sublist _).map _).nodup (appendNew_nodup StableEntry.id _ _ hs.nodup)
      · rcases appendNew_mem StableEntry.id ((shown_sublist _).subset hd) with hd | hd
        · exact .inl hd
        · exact .inr ⟨entries, hentries, hd⟩
  refine ⟨hlimits, fun p m hm => ?_, hdialogue.1, hdialogue.2.1, fun d hd => ?_⟩
  · rcases entry_after hs h hm with ⟨n, hsound, _⟩
    exact ⟨n, hsound⟩
  · rcases hdialogue.2.2 d hd with hd | ⟨entries, hentries, hd⟩
    · exact hold d hd
    · rcases turns_of_occurs h.occurs hentries hd with ⟨q, n, i, role, u, hread, hfor, hattempt⟩
      rcases entry_present h (.inr (by rw [hfor]; rfl)) with ⟨m, hm⟩
      rcases entry_after hs h hm with ⟨n', hsound, _, hsame⟩
      exact ⟨q, n, i, role, hread, m, n', hm, hsound.attempt,
        Int.le_of_eq (hsame u n hfor hattempt)⟩

theorem Sound.run {es : List ReviewEvent} (hs : Sound env s)
    (h : ReviewRun env s es t) : Sound env t := by
  induction h with
  | nil => exact hs
  | snoc _ hstep ih => exact ih.step hstep

end Apex.Graphs
