import Apex.Theory.OutputReview.Sound

/-!
# What a Review Leaves

While a phase is reviewed its discussions accumulate: each one adds two turns
with identifiers of their own at the end of the dialogue, and nothing the attempt
has said or decided is lost. The number of identifiers an attempt can use is
bounded, which is why the window of its records never closes on them, and the
turns of one attempt fit into the window of the dialogue.

The window of the dialogue is shared by all phases. Once the attempt is over,
what other phases discuss pushes its turns towards the end of the window, and out
of it when there are 256 later ones.

## Main definitions

* `attemptTurns`: The turns of an attempt in the dialogue.
* `Quiet`: An event that leaves the dialogue to one phase.
* `QuietView`: Such an event as one phase sees it.

## Theorems

* `shown_append`: What the window drops is at its front.
-/

namespace Apex.Graphs

open List Option
open Domain

variable {env : GateEnv} {p : Phase} {n : Int}

theorem length_approvalIds (p : Phase) (n : Int) : (approvalIds p n).length = 117 := by
  simp only [approvalIds, length_append, List.length_map, length_range, otherDecisions,
    length_cons, length_nil]

theorem length_records_le {ss : List StableEntry} (hnd : (ss.map StableEntry.id).Nodup)
    (hids : ∀ s ∈ ss, s.id ∈ approvalIds p n) : ss.length ≤ maxDurableApprovals := by
  have hsub : ss.map StableEntry.id ⊆ approvalIds p n := by
    intro id hid
    rcases List.mem_map.mp hid with ⟨s, hs, rfl⟩
    exact hids s hs
  have hle := (hnd.subperm hsub).length_le
  rw [List.length_map, length_approvalIds] at hle
  exact Nat.le_trans hle (by decide)

theorem nodup_approvalsIn (e : PhaseEntry) : ((approvalsIn env e).map StableEntry.id).Nodup :=
  nodup_fieldRecords _ _ _

variable {e e₀ : PhaseEntry} {s t : ReviewState} {d : StableEntry}

theorem windowAppend_records {u : PhaseEntry} (he : ∀ s ∈ approvalsIn env e, s.id ∈ approvalIds p n)
    (hu : ∀ s ∈ approvalsIn env u, s.id ∈ approvalIds p n) :
    windowAppend StableEntry.id maxDurableApprovals (approvalsIn env e) (approvalsIn env u) =
      appendNew StableEntry.id (approvalsIn env e) (approvalsIn env u) := by
  refine rtake_eq_self (length_records_le (p := p) (n := n)
    (appendNew_nodup StableEntry.id _ _ (nodup_approvalsIn e)) (fun s hs => ?_))
  rcases appendNew_mem StableEntry.id hs with hs | hs
  · exact he s hs
  · exact hu s hs

theorem entry_step {e : ReviewEvent} (hs : Sound env s) (h : ReviewStep env s e t) {m : PhaseEntry}
    (he₀ : s.phaseResults.get? p.value = some e₀) (hn : e₀.value "attempt" = .int n)
    (hm : t.phaseResults.get? p.value = some m) (hsame : m.value "attempt" = .int n) :
    (updateFor e.updates p = none ∧ approvalsIn env m = approvalsIn env e₀ ∧
      reviseCount m = reviseCount e₀) ∨
    ∃ u, updateFor e.updates p = some u ∧
      approvalsIn env m = appendNew StableEntry.id (approvalsIn env e₀) (approvalsIn env u) ∧
      m.value "revise_count" =
        ((u.get? "revise_count").or (e₀.get? "revise_count")).getD .null := by
  have hmove := entryMove_of_store h.entries p
  rw [he₀, hm] at hmove
  cases hmove with
  | kept he hu _ hcount hrecords =>
    cases he
    exact .inl ⟨hu, hrecords, reviseCount_congr hcount⟩
  | @merged _ u₀ _ he hu hattempt hsame' hcount hrecords =>
    cases he
    refine .inr ⟨u₀, hu, ?_, hcount⟩
    rcases hs.entries p e₀ he₀ with ⟨k, hsound⟩
    rcases updateSound_of_occurs hs.limits h.occurs (mem_of_updateFor hu) with ⟨k', hupdate⟩
    have hk : k = n := by
      have := hsound.attempt.symm.trans hn
      rw [Json.int.injEq] at this
      exact this
    have hk' : k' = n := by
      have := hupdate.attempt.symm.trans (hsame'.trans hn)
      rw [Json.int.injEq] at this
      exact this
    subst hk
    subst hk'
    rw [hrecords]
    exact windowAppend_records hsound.records hupdate.records
  | @replaced u₀ _ hu hattempt hnext _ _ =>
    have hne := (hnext e₀ rfl).1
    rw [hn, ← hattempt, hsame] at hne
    exact absurd rfl hne

theorem records_subset {e : ReviewEvent} (hs : Sound env s) (h : ReviewStep env s e t)
    {m : PhaseEntry} (he₀ : s.phaseResults.get? p.value = some e₀)
    (hn : e₀.value "attempt" = .int n) (hm : t.phaseResults.get? p.value = some m)
    (hsame : m.value "attempt" = .int n) : approvalsIn env e₀ ⊆ approvalsIn env m := by
  rcases entry_step hs h he₀ hn hm hsame with ⟨_, hrecords, _⟩ | ⟨u, _, hrecords, _⟩
  · rw [hrecords]
    exact Subset.refl _
  · rw [hrecords]
    rcases appendNew_new_keys StableEntry.id (approvalsIn env e₀) (approvalsIn env u) with
      ⟨new, heq, _, _⟩
    rw [heq]
    exact subset_append_left _ _

def belongs (p : Phase) (n : Int) (d : StableEntry) : Bool :=
  phaseOf d == p.value && attemptOf d == n

def attemptTurns (p : Phase) (n : Int) (s : ReviewState) : List StableEntry :=
  s.dialogue.filter (belongs p n)

theorem belongs_iff : belongs p n d = true ↔ phaseOf d = p.value ∧ attemptOf d = n := by
  rw [belongs, Bool.and_eq_true, beq_iff_eq, beq_iff_eq]

theorem TurnRead.belongs {i : Nat} {role : String}
    (h : TurnRead p n i role d) : belongs p n d = true :=
  belongs_iff.mpr ⟨h.phase, h.attempt⟩

theorem attemptDialogue_ok {o : Option (Dict Json)} (h : attemptDialogue env p n d.toJson = .ok o) :
    o = if belongs p n d then some d.entry else none := by
  unfold attemptDialogue at h
  rw [StableEntry.toJson, Json.dict?_ofDict] at h
  simp only [bind_ok, raiseIf_ok, pure_ok, exists_const, Bool.not_eq_false'] at h
  rcases h with ⟨hok, rfl⟩
  simp only [dialogueEntryOk, Bool.and_eq_true] at hok
  rcases hok with ⟨⟨⟨⟨⟨⟨⟨_, hphase⟩, hattempt⟩, _⟩, _⟩, _⟩, _⟩, _⟩
  have hp : d.entry.value "phase" = .str p.value ↔ phaseOf d = p.value := by
    unfold phaseOf
    cases hv : d.entry.value "phase" with
    | str q => simp only [Json.str.injEq]
    | _ =>
      rw [hv] at hphase
      exact absurd hphase Bool.false_ne_true
  have ha : namedAttempt d.entry = .int n ↔ attemptOf d = n := by
    unfold attemptOf
    unfold namedAttempt at hattempt ⊢
    cases hv : (d.entry.get? "attempt").getD (.int 1) with
    | int k => simp only [Json.int.injEq]
    | _ =>
      rw [hv] at hattempt
      exact absurd hattempt Bool.false_ne_true
  simp only [hp, ha, ← belongs_iff]

theorem checkpointPhaseDialogue_ok {l : List StableEntry} {ds : List (Dict Json)}
    (h : checkpointPhaseDialogue env (channelJson l) p n = .ok ds) :
    ds = (l.filter (belongs p n)).map StableEntry.entry := by
  simp only [checkpointPhaseDialogue, bind_ok, pure_ok] at h
  rcases h with ⟨raw, hraw, entries, hentries, rfl⟩
  have hraw' : raw = l.map StableEntry.toJson := by
    simp only [channelJson, checkpointList] at hraw
    split at hraw
    · cases hraw
    · rw [Except.ok.injEq] at hraw
      exact hraw.symm
  subst hraw'
  clear hraw
  rw [mapM_ok, forall₂_map_left_iff] at hentries
  induction hentries with
  | nil => rfl
  | @cons d o l os hd _ ih =>
    rw [attemptDialogue_ok hd, filterMap_cons, filter_cons]
    by_cases hb : belongs p n d = true
    · rw [if_pos hb, if_pos hb, map_cons, ← ih]
    · rw [if_neg hb, if_neg hb, ← ih]

/-- Whether the gate of a phase accepts a discussion. -/
def ReviewEvent.discusses (p : Phase) : ReviewEvent → Bool
  | review q u => q = p && u.dialogue.isSome
  | _ => false

/-- Whether the gate of a phase accepts a revision. -/
def ReviewEvent.revises (p : Phase) : ReviewEvent → Bool
  | review q u => q = p && u.entry.any (fun e => e.has "revise_count")
  | _ => false

def ReviewEvent.retries (p : Phase) : ReviewEvent → Bool
  | retryReport _ => p = .reporting
  | _ => false

def ReviewEvent.turns (p : Phase) : ReviewEvent → List Json
  | review q u => if q = p then u.dialogue.getD [] else []
  | _ => []

/-- The records of the discussions and the revisions the gate of a phase accepts. -/
def ReviewEvent.decisions (p : Phase) (e : ReviewEvent) : List Json :=
  match e with
  | review _ u =>
    if e.discusses p || e.revises p then asList ((u.entry.getD ∅).value "approvals") else []
  | _ => []

def Quiet (p : Phase) : ReviewEvent → Prop
  | .plan _ _ => False
  | .review q u => q = p ∨ u.dialogue = none
  | _ => True

inductive QuietView (env : GateEnv) (s : ReviewState) (p : Phase) (n : Int) (e : ReviewEvent) :
    Prop
  | aside (hdialogue : e.dialogue = none) (htalk : e.discusses p = false)
      (hrevise : e.revises p = false) (hretry : e.retries p = false)
      (hu : ∀ u, updateFor e.updates p = some u → u.get? "revise_count" = none ∧
        ∀ r ∈ approvalsIn env u, ∀ action ∈ ["discuss", "revise"], ∀ j,
          r.id ≠ approvalId p n "phase_review" action j)
  | retried {k : Nat} {u : PhaseEntry} (hdialogue : e.dialogue = none)
      (htalk : e.discusses p = false) (hrevise : e.revises p = false) (hretry : e.retries p = true)
      (hu : updateFor e.updates p = some u) (hk : reviseCount (s.entryOf p) = .ok k) (hlt : k < 10)
      (hcount : u.get? "revise_count" = some (.int (k + 1))) (hnone : approvalsIn env u = [])
  | revised {k : Nat} {u : PhaseEntry} (hdialogue : e.dialogue = none)
      (htalk : e.discusses p = false) (hrevise : e.revises p = true) (hretry : e.retries p = false)
      (hu : updateFor e.updates p = some u) (hk : reviseCount (s.entryOf p) = .ok k)
      (hlt : k < s.cfg.limits.maxReviseLoops)
      (hrec : RecordedUpdate env p n "revise" (k + 1) (some (.int (k + 1))) u)
      (hdecided : e.decisions p = asList (u.value "approvals"))
  | discussed {ds : List (Dict Json)} {u : PhaseEntry} {operator agent : Json}
      (hdialogue : e.dialogue = some [operator, agent]) (htalk : e.discusses p = true)
      (hrevise : e.revises p = false) (hretry : e.retries p = false)
      (hturns : e.turns p = [operator, agent])
      (hu : updateFor e.updates p = some u)
      (hd : checkpointPhaseDialogue env (channelJson s.dialogue) p n = .ok ds)
      (hlt : operatorTurns ds < s.cfg.limits.maxDialogueTurns)
      (hoperator : MadeTurn env p n ds.length "operator" operator)
      (hagent : MadeTurn env p n (ds.length + 1) "agent" agent)
      (hrec : RecordedUpdate env p n "discuss" (operatorTurns ds + 1) none u)
      (hdecided : e.decisions p = asList (u.value "approvals"))

theorem updateFor_single (q : Phase) (u : PhaseEntry) :
    updateFor [(q, u)] p = if p = q then some u else none := by
  by_cases hp : p = q
  · rw [if_pos hp, hp]
    exact List.lookup_cons_self
  · rw [if_neg hp, updateFor, reverse_singleton, lookup_cons,
      beq_eq_false_iff_ne.mpr hp, lookup_nil]

theorem entryOf_some (h : s.phaseResults.get? p.value = some e) : s.entryOf p = e := by
  rw [ReviewState.entryOf, h, getD_some]

theorem entryAttempt_int {k : Int} (hn : e.value "attempt" = .int n)
    (h : entryAttempt e = .ok k) : k = n := by
  simp only [entryAttempt, hn] at h
  split at h
  · rw [Except.ok.injEq] at h
    exact h.symm
  · cases h

theorem other_ne_review {d : String × String} (hd : d ∈ otherDecisions) (hn : 1 ≤ n)
    {action : String} (haction : action ∈ ["discuss", "revise"]) (j : Nat) :
    approvalId p n d.1 d.2 0 ≠ approvalId p n "phase_review" action j := by
  intro h
  have hdashed : ∀ d ∈ otherDecisions, Undashed d.1 d.2 ∧ d.1 ≠ "phase_review" := by decide
  have hreview : ∀ action ∈ ["discuss", "revise"], Undashed "phase_review" action := by decide
  exact (hdashed d hd).2 (approvalId_inj hn hn (hdashed d hd).1 (hreview action haction) h).2.1

theorem final_ne_review {final action : String} (hfinal : final ∈ ["approve", "abort"])
    (hn : 1 ≤ n) (haction : action ∈ ["discuss", "revise"]) (j : Nat) :
    approvalId p n "phase_review" final 0 ≠ approvalId p n "phase_review" action j := by
  intro h
  have hfinals : ∀ final ∈ ["approve", "abort"], Undashed "phase_review" final ∧
      final ∉ ["discuss", "revise"] := by decide
  have hreview : ∀ action ∈ ["discuss", "revise"], Undashed "phase_review" action := by decide
  have heq := (approvalId_inj hn hn (hfinals final hfinal).1 (hreview action haction) h).2.2.1
  exact (hfinals final hfinal).2 (heq ▸ haction)

theorem aside_none {u : PhaseEntry} (hcount : u.get? "revise_count" = none)
    (hnone : approvalsIn env u = []) : u.get? "revise_count" = none ∧
      ∀ r ∈ approvalsIn env u, ∀ action ∈ ["discuss", "revise"], ∀ j,
        r.id ≠ approvalId p n "phase_review" action j := by
  rw [hnone]
  exact ⟨hcount, fun r hr => absurd hr not_mem_nil⟩

theorem has_eq_false {d : PhaseEntry} {k : String} (h : d.get? k = none) : d.has k = false := by
  rw [Dict.has, h]
  rfl

theorem reviewView {g : GateUpdate} (h : GateStep env s p g)
    (he₀ : s.phaseResults.get? p.value = some e₀) (hn : e₀.value "attempt" = .int n) :
    QuietView env s p n (.review p g) := by
  have hattempt : ∀ {k : Int}, entryAttempt (s.entryOf p) = .ok k → k = n :=
    fun hk => entryAttempt_int (entryOf_some he₀ ▸ hn) hk
  have hfor : ∀ x : PhaseEntry, updateFor (((some x).map (fun x => (p, x))).toList) p = some x := by
    intro x
    rw [map_some, toList_some, updateFor_single, if_pos rfl]
  cases h with
  | silent =>
    refine .aside rfl ?_ ?_ rfl (fun u hu => ?_)
    · rw [ReviewEvent.discusses, isSome_none, Bool.and_false]
    · rw [ReviewEvent.revises, any_none, Bool.and_false]
    · cases hu
  | @failed k _ hk =>
    refine .aside rfl ?_ ?_ rfl (fun u hu => ?_)
    · rw [ReviewEvent.discusses, isSome_none, Bool.and_false]
    · rw [ReviewEvent.revises, any_some, has_eq_false (by rw [get?_updateOf]; rfl), Bool.and_false]
    · cases (hfor _).symm.trans hu
      exact aside_none (by rw [get?_updateOf]; rfl)
        (approvalsIn_none (.inl (by rw [get?_updateOf]; rfl)))
  | @final k action x _ hk haction hrec =>
    refine .aside rfl ?_ ?_ rfl (fun u hu => ?_)
    · rw [ReviewEvent.discusses, isSome_none, Bool.and_false]
    · rw [ReviewEvent.revises, any_some, has_eq_false hrec.count, Bool.and_false]
    · cases (hfor _).symm.trans hu
      refine ⟨hrec.count, fun r hr action' haction' j => ?_⟩
      rcases hrec.record with ⟨v, hv, hget⟩
      rcases approvalsIn_made hv hget with ⟨r', hsingle, hid, _⟩
      rw [hsingle, mem_singleton] at hr
      rw [hr, hid, hattempt hk]
      exact final_ne_review haction (hattempt hk ▸ entryAttempt_pos hk) haction' j
  | @revised m k x hm hk hlt hrec =>
    have hhas : x.has "revise_count" = true := by
      rw [Dict.has, hrec.count]
      rfl
    have hrevises : (ReviewEvent.review p { entry := some x }).revises p = true := by
      rw [ReviewEvent.revises, any_some, hhas, decide_eq_true rfl]
      rfl
    refine .revised rfl ?_ hrevises rfl (hfor x) hk hlt (hattempt hm ▸ hrec) ?_
    · rw [ReviewEvent.discusses, isSome_none, Bool.and_false]
    · rw [ReviewEvent.decisions, hrevises, Bool.or_true, if_pos rfl]
      rfl
  | @discussed m ds x operator agent hm hd hlt hoperator hagent hrec =>
    have htalk : (ReviewEvent.review p
        { entry := some x, dialogue := some [operator, agent] }).discusses p = true := by
      rw [ReviewEvent.discusses, isSome_some, decide_eq_true rfl]
      rfl
    cases hattempt hm
    refine .discussed rfl htalk ?_ rfl ?_ (hfor x) hd hlt hoperator hagent hrec ?_
    · rw [ReviewEvent.revises, any_some, has_eq_false hrec.count, Bool.and_false]
    · rw [ReviewEvent.turns, if_pos rfl]
      rfl
    · rw [ReviewEvent.decisions, htalk, Bool.true_or, if_pos rfl]
      rfl

theorem quietView {e : ReviewEvent} (h : Occurs env s e) (hq : Quiet p e)
    (he₀ : s.phaseResults.get? p.value = some e₀)
    (hn : e₀.value "attempt" = .int n) : QuietView env s p n e := by
  have hentry := entryOf_some he₀
  cases h with
  | plan _ _ => exact absurd hq id
  | @node q u hu =>
    refine .aside rfl rfl rfl rfl (fun u' hu' => ?_)
    rw [ReviewEvent.updates, updateFor_single] at hu'
    by_cases hp : p = q
    · subst hp
      rw [if_pos rfl, some.injEq] at hu'
      subst hu'
      rcases hu.attempt with ⟨k, hk, _, hrecords⟩
      have hkn := entryAttempt_int (hentry ▸ hn) hk
      subst hkn
      rcases hrecords with hnone | ⟨d, hd, v, hv, hget⟩
      · exact aside_none hu.count (approvalsIn_none (.inl hnone))
      · refine ⟨hu.count, fun r hr action haction j => ?_⟩
        rcases approvalsIn_made hv hget with ⟨r', hsingle, hid, _⟩
        rw [hsingle, mem_singleton] at hr
        rw [hr, hid]
        exact other_ne_review hd (entryAttempt_pos hk) haction j
    · rw [if_neg hp] at hu'
      cases hu'
  | @retryReport m k hm hk =>
    by_cases hp : p = .reporting
    · subst hp
      rcases retryCount_some hk with ⟨j, hj, rfl, hlt⟩
      refine .retried rfl rfl rfl (by rw [ReviewEvent.retries, decide_eq_true_eq])
        (by rw [ReviewEvent.updates, updateFor_single, if_pos rfl]) hj hlt ?_ ?_
      · rw [get?_updateOf]
        rfl
      · exact approvalsIn_none (.inl (by rw [get?_updateOf]; rfl))
    · refine .aside rfl rfl rfl (by rw [ReviewEvent.retries, decide_eq_false_iff_not]; exact hp)
        (fun u' hu' => ?_)
      rw [ReviewEvent.updates, updateFor_single, if_neg hp] at hu'
      cases hu'
  | @review c _ _ u hgate =>
    by_cases hp : c.phase = p
    · subst hp
      exact reviewView (outputGate_command hgate) he₀ hn
    · have hnone : u.dialogue = none := hq.resolve_left hp
      refine .aside hnone ?_ ?_ rfl (fun u' hu' => ?_)
      · rw [ReviewEvent.discusses, decide_eq_false hp, Bool.false_and]
      · rw [ReviewEvent.revises, decide_eq_false hp, Bool.false_and]
      · rw [ReviewEvent.updates] at hu'
        cases hentry' : u.entry with
        | none =>
          rw [hentry'] at hu'
          cases hu'
        | some x =>
          rw [hentry', map_some, toList_some, updateFor_single, if_neg (Ne.symm hp)] at hu'
          cases hu'

theorem shown_append (before rest : List StableEntry)
    (hlen : (rest.filter (isCurrent (before ++ rest))).length ≤ maxDurableDialogueEntries) :
    ∃ before', shown (before ++ rest) = before' ++ rest.filter (isCurrent (before ++ rest)) ∧
      before'.Sublist before := by
  rw [shown, filter_append, rtake, length_append]
  generalize rest.filter (isCurrent (before ++ rest)) = kept at hlen ⊢
  generalize hb : before.filter (isCurrent (before ++ rest)) = past
  have hsub : past.Sublist before := hb ▸ filter_sublist
  refine ⟨past.drop (past.length + kept.length - maxDurableDialogueEntries), ?_,
    (drop_sublist _ _).trans hsub⟩
  rw [drop_append_of_le_length (by omega)]

theorem isCurrent_attempt (hs : Sound env s) {k : Int} (he₀ : s.phaseResults.get? p.value = some e₀)
    (hk : e₀.value "attempt" = .int k) (hkn : k ≤ n) {new : List StableEntry}
    (hnew : ∀ d ∈ new, phaseOf d = p.value → attemptOf d ≤ n) (hd : belongs p n d = true) :
    isCurrent (appendNew StableEntry.id s.dialogue new) d = true := by
  rw [isCurrent_iff]
  rcases belongs_iff.mp hd with ⟨hphase, hattempt⟩
  intro d' hd' hsame
  rw [hphase] at hsame
  rw [hattempt]
  rcases appendNew_mem StableEntry.id hd' with hold | hlate
  · rcases hs.turns d' hold with ⟨q, m, i, role, hread, e, k', he, hk', hle⟩
    have hq : q = p := Phase.value_injective (hread.phase.symm.trans hsame)
    subst hq
    cases he₀.symm.trans he
    rw [hk, Json.int.injEq] at hk'
    rw [hread.attempt]
    omega
  · exact hnew d' hlate hsame

theorem discussion_dialogue (hs : Sound env s) (he₀ : s.phaseResults.get? p.value = some e₀)
    (hn : e₀.value "attempt" = .int n) {before : List StableEntry}
    (htail : s.dialogue = before ++ attemptTurns p n s)
    (hindexed : ∀ d ∈ attemptTurns p n s, ∃ i role, TurnRead p n i role d ∧
      i < (attemptTurns p n s).length)
    (hroom : (attemptTurns p n s).length + 2 ≤ maxDurableDialogueEntries) {x y : StableEntry}
    (hx : TurnRead p n (attemptTurns p n s).length "operator" x)
    (hy : TurnRead p n ((attemptTurns p n s).length + 1) "agent" y)
    (hshown : t.dialogue = shown (appendNew StableEntry.id s.dialogue [x, y])) :
    attemptTurns p n t = attemptTurns p n s ++ [x, y] ∧
      ∃ before', t.dialogue = before' ++ attemptTurns p n t := by
  -- No turn of the dialogue has an index of the new ones.
  have hfresh : ∀ d ∈ s.dialogue, ∀ j role, (attemptTurns p n s).length ≤ j →
      d.id ≠ dialogueId p n j role := by
    intro d hd j role hj hid
    rcases hs.turns d hd with ⟨q, m, i, role', hread, _⟩
    rw [hread.id] at hid
    rcases dialogueId_inj hread.positive hx.positive hid with ⟨rfl, rfl, rfl, rfl⟩
    rcases hindexed d (mem_filter.mpr ⟨hd, hread.belongs⟩) with ⟨i', role'', hread', hlt⟩
    have hindex := (dialogueId_inj hx.positive hx.positive (hread.id.symm.trans hread'.id)).2.2.1
    omega
  have hxy : x.id ≠ y.id := by
    intro h
    rw [hx.id, hy.id] at h
    have hindex := (dialogueId_inj hx.positive hx.positive h).2.2.1
    omega
  have hlog : appendNew StableEntry.id s.dialogue [x, y] = s.dialogue ++ [x, y] := by
    refine appendNew_self_of_nodup StableEntry.id _ _ ?_
    rw [map_append]
    refine hs.nodup.append ?_ (fun id hid hnew => ?_)
    · rw [map_cons, map_singleton]
      exact nodup_cons.mpr ⟨fun h => hxy (mem_singleton.mp h), nodup_singleton _⟩
    · rcases List.mem_map.mp hid with ⟨d, hd, rfl⟩
      rw [map_cons, map_singleton, mem_cons, mem_singleton] at hnew
      rcases hnew with hnew | hnew
      · exact hfresh d hd _ _ (Nat.le_refl _) (hnew.trans hx.id)
      · exact hfresh d hd _ _ (Nat.le_succ _) (hnew.trans hy.id)
  have hcurrent : ∀ d ∈ attemptTurns p n s ++ [x, y],
      isCurrent (s.dialogue ++ [x, y]) d = true := by
    intro d hd
    rw [← hlog]
    refine isCurrent_attempt hs he₀ hn (Int.le_refl _) (fun d' hd' _ => ?_) ?_
    · rw [mem_cons, mem_singleton] at hd'
      rcases hd' with rfl | rfl
      · exact Int.le_of_eq hx.attempt
      · exact Int.le_of_eq hy.attempt
    · rw [mem_append, mem_cons, mem_singleton] at hd
      rcases hd with hd | rfl | rfl
      · exact (mem_filter.mp hd).2
      · exact hx.belongs
      · exact hy.belongs
  have hsplit : s.dialogue ++ [x, y] = before ++ (attemptTurns p n s ++ [x, y]) := by
    rw [← append_assoc, ← htail]
  have hkept : (attemptTurns p n s ++ [x, y]).filter (isCurrent (s.dialogue ++ [x, y])) =
      attemptTurns p n s ++ [x, y] := filter_eq_self.mpr hcurrent
  rw [hlog, hsplit] at hshown
  rw [hsplit] at hkept
  rcases shown_append before (attemptTurns p n s ++ [x, y])
    (by rw [hkept, length_append]; exact hroom) with ⟨before', heq, hsub⟩
  rw [hkept] at heq
  rw [heq] at hshown
  -- What precedes the attempt's turns is not of the attempt.
  have hnone : before.filter (belongs p n) = [] := by
    have hself : attemptTurns p n s = before.filter (belongs p n) ++ attemptTurns p n s := by
      conv_lhs => rw [attemptTurns, htail, filter_append]
      rw [attemptTurns, List.filter_filter]
      simp only [Bool.and_self]
    have hlen := congrArg List.length hself
    rw [length_append] at hlen
    exact length_eq_zero_iff.mp (by omega)
  have hnone' : before'.filter (belongs p n) = [] :=
    sublist_nil.mp (hnone ▸ hsub.filter _)
  have hturns : attemptTurns p n t = attemptTurns p n s ++ [x, y] := by
    rw [attemptTurns, hshown, filter_append, hnone', nil_append, filter_append,
      attemptTurns, List.filter_filter]
    simp only [Bool.and_self, filter_cons, hx.belongs, hy.belongs, if_true, filter_nil]
  exact ⟨hturns, before', hturns ▸ hshown⟩

end Apex.Graphs
