import Apex.Theory.OutputReview.ShortResults

/-!
# Another Discussion

On a thread of short results the gate accepts a short discussion whenever the limit
of the plan does, and the reducers store it: the thread afterwards is one of short
results again, with two more turns of the phase. So discussions can be added one
after the other until the limit is reached.

## Main definitions

* `ShortThread`: A thread of short results.

## Theorems

* `ShortThread.store`: An update is stored in the entry of its phase alone.
* `ShortThread.discuss`: A discussion can be added.
* `ShortThread.discuss_many`: So can any number of them within the limit.
-/

namespace Apex.Graphs

open List Option
open Domain

variable {env : GateEnv}

structure ShortEntry (env : GateEnv) (p : Phase) (n : Int) (status : PhaseStatus) (summary : Json)
    (ss : List StableEntry) (e : PhaseEntry) : Prop where
  entry : e = resultEntry p n status summary ss
  positive : 1 ≤ n
  attemptMax : n ≤ 1000000
  summary : Small env.rules 1 64 0 summary
  records : RecordsFit env ss

structure ShortTurn (env : GateEnv) (d : StableEntry) : Prop where
  small : Small env.rules 7 411 1 d.toJson
  keyed : DialogueOk d
  read : dialogueEntryOk env d.entry = true

structure ShortThread (env : GateEnv) (s : ReviewState) : Prop where
  entries : ∀ k e, s.phaseResults.get? k = some e → ∃ p n status summary ss, k = p.value ∧
    ShortEntry env p n status summary ss e
  turns : ∀ d ∈ s.dialogue, ShortTurn env d
  length : s.dialogue.length ≤ maxDurableDialogueEntries
  nodup : (s.dialogue.map StableEntry.id).Nodup
  artifacts : s.artifacts = .null

section Store

variable {p : Phase} {n : Int} {status : PhaseStatus} {summary : Json} {ss : List StableEntry}

variable {e : PhaseEntry} {s : ReviewState}

theorem ShortEntry.itemsFit (hr : Plain env.rules) (h : ShortEntry env p n status summary ss e) :
    ItemsFit env (resultItems p n status summary ss) :=
  itemsFit_result hr _ _ h.positive h.attemptMax h.summary h.records

theorem ShortEntry.validated (hr : Plain env.rules) (h : ShortEntry env p n status summary ss e) :
    validatedEntry env.toReducerEnv p.value (.ofDict e) = .ok e := by
  rw [validatedEntry_ok]
  refine ⟨e, Json.dict?_ofDict e, ?_, ?_⟩
  · rw [h.entry, boundElsewhere, Dict.value, get_phase, getD_some, bne_self_eq_false,
      Bool.and_false]
  · rw [h.entry]
    exact (h.itemsFit hr).bounded hr

theorem argOk_of_keys {d : Dict Json} (h : ∀ k ∈ d.keys, k ∈ phaseNames) : ArgOk (.ofDict d) := by
  refine ⟨.inr (by rw [Json.dict?_ofDict]; rfl), ?_⟩
  rw [Json.dict?_ofDict, phaseNamesOk, Bool.and_eq_true, List.all_eq_true]
  refine ⟨decide_eq_true ?_, fun k hk => decide_eq_true (h k hk)⟩
  have hlen := (subperm_of_subset d.nodup h).length_le
  rwa [List.length_map] at hlen

theorem argOk_updatesJson (updates : List (Phase × PhaseEntry)) : ArgOk (updatesJson updates) := by
  refine argOk_of_keys (fun k hk => ?_)
  rw [← Dict.has_iff_mem, Dict.has, get?_dictOf, isSome_iff_exists] at hk
  rcases hk with ⟨v, hv⟩
  rw [lookup_eq_some_iff] at hv
  rcases hv with ⟨before, after, heq, _⟩
  have hmem : (k, v) ∈ updates.map (fun u => (u.1.value, Json.ofDict u.2)) := by
    rw [← mem_reverse, heq]
    exact mem_append_right _ mem_cons_self
  rcases List.mem_map.mp hmem with ⟨u, _, hu⟩
  rw [Prod.mk.injEq] at hu
  exact hu.1 ▸ (short_phaseName u.1).2

theorem ShortThread.argOk (h : ShortThread env s) :
    ArgOk s.phaseResults.toJson := by
  refine argOk_of_keys (fun k hk => ?_)
  rw [Dict.keys_map, ← Dict.has_iff_mem, Dict.has, isSome_iff_exists] at hk
  rcases hk with ⟨e, he⟩
  rcases h.entries k e he with ⟨p, _, _, _, _, rfl, _⟩
  exact (short_phaseName p).2

theorem entryAt_update (p : Phase) (u : PhaseEntry) (k : String) :
    entryAt (updatesJson [(p, u)]) k = if k = p.value then some (.ofDict u) else none := by
  rw [entryAt, updatesJson, Json.dict?_ofDict, bind_some, get?_dictOf, map_singleton,
    reverse_singleton, lookup_cons, lookup_nil]
  by_cases hk : k = p.value
  · rw [if_pos hk, beq_iff_eq.mpr hk]
  · rw [if_neg hk, beq_eq_false_iff_ne.mpr hk]

theorem ShortThread.store (hr : Plain env.rules) (h : ShortThread env s) {u m' : PhaseEntry}
    (he : s.phaseResults.get? p.value = some e) (hphase : boundElsewhere p.value e = false)
    (hupdated : validatedEntry env.toReducerEnv p.value (.ofDict u) = .ok u)
    (hmerged : mergePhaseEntry env.toReducerEnv e u = .ok m') :
    ∃ m, storeEntries env s [(p, u)] = .ok m ∧ m.get? p.value = some m' ∧
      ∀ k, k ≠ p.value → m.get? k = s.phaseResults.get? k := by
  have hsame : StoredAt env.toReducerEnv p.value (some (.ofDict e)) (some (.ofDict u)) (some m') :=
    .merged hupdated (Json.dict?_ofDict e) hphase hmerged
  have hother : ∀ k e', s.phaseResults.get? k = some e' →
      StoredAt env.toReducerEnv k (some (.ofDict e')) none (some e') := by
    intro k e' he'
    rcases h.entries k e' he' with ⟨q, _, _, _, _, rfl, hq⟩
    exact .inherited (hq.validated hr)
  have hexists : ∃ m, mergePhaseResults env.toReducerEnv s.phaseResults.toJson
      (updatesJson [(p, u)]) = .ok m := mergePhaseResults_exists h.argOk
    (argOk_updatesJson [(p, u)]) (fun k => by
      rw [entryAt_toJson, entryAt_update]
      by_cases hk : k = p.value
      · subst hk
        rw [he, if_pos rfl]
        exact ⟨_, hsame⟩
      · rw [if_neg hk]
        cases hget : s.phaseResults.get? k with
        | none => exact ⟨_, .absent⟩
        | some e' => exact ⟨_, hother k e' hget⟩)
  rcases hexists with ⟨m, hm⟩
  have hstored := (mergePhaseResults_stored hm).2
  refine ⟨m, hm, ?_, fun k hk => ?_⟩
  · have hp := hstored p.value
    rw [entryAt_toJson, entryAt_update, if_pos rfl, he] at hp
    exact hp.unique hsame
  · have hkept := hstored k
    rw [entryAt_toJson, entryAt_update, if_neg hk] at hkept
    cases hget : s.phaseResults.get? k with
    | none =>
      rw [hget] at hkept
      exact hkept.unique .absent
    | some e' =>
      rw [hget] at hkept
      exact hkept.unique (hother k e' hget)

theorem ShortThread.update (hr : Plain env.rules) (h : ShortThread env s)
    (he : s.phaseResults.get? p.value = some e) (hshort : ShortEntry env p n status summary ss e)
    {items : List (String × Json)} (hu : ItemsFit env items)
    (hkeys : ∀ k ∈ items.map Prod.fst, k ∈ resultUpdateKeys)
    (hattempt : (dictOf items).get? "attempt" = some (.int n)) (status' : PhaseStatus)
    (summary' : Json)
    (hstatus : ((dictOf items).get? "status").getD (.str status.value) = .str status'.value)
    (hsummary : ((dictOf items).get? "summary").getD summary = summary')
    (hopen : isTerminal (.str status.value) = true → status' = status) :
    ∃ m e', storeEntries env s [(p, dictOf items)] = .ok m ∧ m.get? p.value = some e' ∧
      ShortEntry env p n status' summary' (windowAppend StableEntry.id maxDurableApprovals ss
        (approvalsIn env (dictOf items))) e' ∧
      ∀ k, k ≠ p.value → m.get? k = s.phaseResults.get? k := by
  have hphase : boundElsewhere p.value e = false := by
    rw [hshort.entry, boundElsewhere, Dict.value, get_phase, getD_some, bne_self_eq_false,
      Bool.and_false]
  have hupdated : validatedEntry env.toReducerEnv p.value (.ofDict (dictOf items)) =
      .ok (dictOf items) := by
    rw [validatedEntry_ok]
    refine ⟨_, Json.dict?_ofDict _, ?_, hu.bounded hr⟩
    have hnone : (dictOf items).get? "phase" = none := by
      cases hget : (dictOf items).get? "phase" with
      | none => rfl
      | some v =>
        have hmem := Dict.get?_mem hget
        rw [items_dictOf hu.nodup] at hmem
        exact absurd (hkeys _ (List.mem_map_of_mem hmem))
          (show "phase" ∉ resultUpdateKeys by decide)
    rw [boundElsewhere, Dict.value, hnone]
    rfl
  have hrecords := hu.recordsFit
  have hmerged := mergePhaseEntry_result (p := p) hr hshort.positive hshort.attemptMax
    hshort.summary hshort.records hu hkeys hattempt hstatus hsummary hopen
  rw [← hshort.entry] at hmerged
  rcases h.store hr he hphase hupdated hmerged with ⟨m, hm, hget, hother⟩
  refine ⟨m, _, hm, hget, ⟨rfl, hshort.positive, hshort.attemptMax, ?_,
    hshort.records.window hrecords⟩, hother⟩
  exact hu.summary hsummary hshort.summary

end Store

/-- An answer that is a discussion with short texts. -/
structure ShortTalk (env : GateEnv) (c : GateCall) (resume : Json) (message : String) : Prop where
  action : (Gates.parseGateDecision env resume phaseReviewActions).value "action" = .str "discuss"
  text : fieldText (Gates.parseGateDecision env resume phaseReviewActions) "message" = message
  short : ShortText message
  reply : ShortText (stubReply env c.phase message)
  actor : ShortText c.actor
  approvalAt : ShortText c.approvalAt
  operatorAt : ShortText c.operatorAt
  agentAt : ShortText c.agentAt

section Gate

variable {p : Phase} {n : Int} {status : PhaseStatus} {ss : List StableEntry}

variable {l : List StableEntry} {message action actor : String} {i : Nat}

theorem checkpointPhaseDialogue_read (p : Phase) (n : Int)
    (hlen : l.length ≤ maxDurableDialogueEntries)
    (hread : ∀ d ∈ l, dialogueEntryOk env d.entry = true) :
    checkpointPhaseDialogue env (channelJson l) p n =
      .ok ((l.filter (belongs p n)).map StableEntry.entry) := by
  have hentries : ∃ os, (l.map StableEntry.toJson).mapM (attemptDialogue env p n) = .ok os := by
    refine mapM_exists (fun raw hraw => ?_)
    rcases List.mem_map.mp hraw with ⟨d, hd, rfl⟩
    rw [attemptDialogue, StableEntry.toJson, Json.dict?_ofDict]
    simp only [bind_ok, raiseIf_ok, pure_ok, exists_const, Bool.not_eq_false']
    exact ⟨_, hread d hd, rfl⟩
  rcases hentries with ⟨os, hos⟩
  have hok : ∃ ds, checkpointPhaseDialogue env (channelJson l) p n = .ok ds := by
    simp only [checkpointPhaseDialogue, bind_ok, pure_ok]
    refine ⟨_, _, ?_, os, hos, rfl⟩
    rw [channelJson, checkpointList, if_neg]
    rw [List.length_map]
    exact Nat.not_lt.mpr hlen
  rcases hok with ⟨ds, hds⟩
  rw [hds, checkpointPhaseDialogue_ok hds]

theorem value_resultEntry_null {summary : Json} {k : String} (hk : k ∉ resultKeys) :
    (resultEntry p n status summary ss).value k = .null := by
  have hnone : (resultEntry p n status summary ss).get? k = none := by
    rw [Dict.get?_eq_none_iff, keys_result]
    exact hk
  rw [Dict.value, hnone, getD_none]

variable {c : GateCall} {resume : Json} {e : PhaseEntry} {s : ReviewState} {text time : String}
  {k : Nat}

theorem outputGate_short (hr : Plain env.rules) (h : ShortThread env s) {outcome : GateOutcome}
    (he : s.phaseResults.get? c.phase.value = some e)
    (hshort : ShortEntry env c.phase n status (.str text) ss e) (htext : ShortText text)
    (hmeaning : meaningful text = true) (hgated : (s.cfg.gates c.phase).outputReview = .gated)
    (hact : actOnDecision env c ⟨e, n, 0, some text,
      (attemptTurns c.phase n s).map StableEntry.entry, s.cfg.limits⟩
      (Gates.parseGateDecision env resume phaseReviewActions) = .ok (.inr outcome)) :
    outputGate env s c [resume] = .ok outcome := by
  have hentry : s.entryOf c.phase = e := entryOf_some he
  have hattempt : entryAttempt e = .ok n := by
    rw [hshort.entry, entryAttempt, Dict.value, get_attempt, getD_some]
    exact if_pos ⟨hshort.positive, hshort.attemptMax⟩
  have hcount : reviseCount e = .ok 0 := by
    rw [hshort.entry]
    exact reviseCount_null (value_resultEntry_null (by decide))
  have hsummary : checkpointReviewText env (e.value "summary") "phase summary" maxGateTextChars =
      .ok (some text) := by
    rw [hshort.entry, Dict.value, get_summary, getD_some, checkpointReviewText, htext.2,
      silentText_short hr htext, decide_eq_false (Nat.not_lt.mpr (Nat.le_trans htext.1.2
        (by decide)))]
    rfl
  have hdigest : checkpointReviewText env (e.value "reasoning_digest") "phase reasoning digest"
      maxGateTextChars = .ok none := by
    rw [hshort.entry, Dict.value, get_result]
    rfl
  have hwarnings : checkpointDiagnostics env e "warnings" = .ok [] := by
    rw [hshort.entry, checkpointDiagnostics, Dict.value, get_list (by decide) (by decide)]
    rfl
  have hartifacts : checkpointArtifactPreviews env s.artifacts e = .ok [] := by
    rw [hshort.entry, h.artifacts, checkpointArtifactPreviews, Dict.value,
      get_list (by decide) (by decide)]
    rfl
  have hdialogue := checkpointPhaseDialogue_read c.phase n h.length
    (fun d hd => (h.turns d hd).read)
  unfold outputGate
  rw [if_neg (not_not.mpr hgated), hentry]
  simp only [bind_ok]
  refine ⟨n, hattempt, 0, hcount, some text, hsummary, none, hdigest, [], hwarnings, [], hartifacts,
    _, hdialogue, ?_⟩
  rw [if_neg (by
    rw [hasVisibleEvidence, any_some, hmeaning]
    exact Bool.false_ne_true)]
  rw [show s.cfg.limits.maxDialogueTurns + maxGateLoops = (s.cfg.limits.maxDialogueTurns + 9) + 1
    from rfl, reviewLoop]
  simp only [bind_ok]
  exact ⟨_, hact, rfl⟩

theorem actOnDecision_discuss (hr : Plain env.rules) {r : GateRead} (hn : 1 ≤ r.attempt)
    (hn' : r.attempt ≤ 1000000) (hmax : r.limits.maxDialogueTurns ≤ 100)
    (hlt : operatorTurns r.dialogue < r.limits.maxDialogueTurns) (hlen : r.dialogue.length ≤ 256)
    (htalk : ShortTalk env c resume message) :
    actOnDecision env c r (Gates.parseGateDecision env resume phaseReviewActions) =
      .ok (.inr (.command .openOutputGate
        { entry := some (updateOf r.attempt [("approvals", .list [.ofDict (reviewRecord c.phase
            r.attempt "discuss" (operatorTurns r.dialogue + 1) c.actor c.approvalAt
            (some message))])]),
          dialogue := some
            [.ofDict (turnRecord c.phase r.attempt r.dialogue.length "operator" message
              c.operatorAt),
              .ofDict (turnRecord c.phase r.attempt (r.dialogue.length + 1) "agent"
                (stubReply env c.phase message) c.agentAt)] })) := by
  have hoperator := dialogueEntry_turn hr c.phase hn hn' (show r.dialogue.length < 1000 by omega)
    (show "operator" ∈ ["operator", "agent"] by decide) c.operatorAt htalk.short
  have hagent := dialogueEntry_turn hr c.phase hn hn' (show r.dialogue.length + 1 < 1000 by omega)
    (show "agent" ∈ ["operator", "agent"] by decide) c.agentAt htalk.reply
  have happroval := makeApproval_review hr c.phase hn hn'
    (show "discuss" ∈ ["approve", "discuss"] by decide)
    (show operatorTurns r.dialogue + 1 < 1000 by omega) c.approvalAt (some message) htalk.actor (fun _ h => mem_some.mp h ▸ htalk.short)
  simp only [actOnDecision, htalk.action]
  rw [if_neg (Nat.not_le.mpr hlt), map_ok]
  refine ⟨_, ?_, rfl⟩
  simp only [acceptDiscussion, bind_ok, pure_ok, htalk.text]
  refine ⟨_, hoperator, _, hagent, _, ?_, rfl⟩
  simp only [recordedUpdate, bind_ok, pure_ok]
  exact ⟨_, happroval, rfl⟩

theorem actOnDecision_approve (hr : Plain env.rules) {summary : Json}
    (hshort : ShortEntry env c.phase n status summary ss e) (hstatus : status ≠ .failed)
    (text : Option String) (ds : List (Dict Json)) (l : Limits) {decision : Dict Json}
    (haction : decision.value "action" = .str "approve") (hactor : ShortText c.actor) :
    actOnDecision env c ⟨e, n, k, text, ds, l⟩ decision =
      .ok (.inr (.command .finalize { entry := some (updateOf n
        [("approvals", .list [.ofDict (reviewRecord c.phase n "approve" 0 c.actor c.approvalAt
          none)])]) })) := by
  have hblocked : approvalBlocked env c.phase e = .ok false := by
    have hne : e.value "status" ≠ .str PhaseStatus.failed.value := by
      rw [hshort.entry, Dict.value, get_status, getD_some]
      revert hstatus
      cases status <;> decide
    have hnull : e.value "deliverable_json" = .null := by
      rw [hshort.entry]
      exact value_resultEntry_null (by decide)
    rw [approvalBlocked, if_neg hne, if_pos hnull]
  have happroval := makeApproval_review hr c.phase hshort.positive hshort.attemptMax
    (show "approve" ∈ ["approve", "discuss"] by decide) (show 0 < 1000 by decide) c.approvalAt none
    hactor (fun _ h => absurd h (not_mem_none _))
  simp only [actOnDecision, haction, bind_ok]
  refine ⟨false, hblocked, ?_⟩
  rw [if_neg Bool.false_ne_true]
  simp only [recordedUpdate, bind_ok, pure_ok]
  exact ⟨_, ⟨_, happroval, rfl⟩, rfl⟩

theorem shortTurn_record (hr : Plain env.rules) (p : Phase) {n : Int} (hn : 1 ≤ n)
    (hn' : n ≤ 1000000) (hi : i < 1000) {role : String} (hrole : role ∈ ["operator", "agent"])
    {content : String} (hc : ShortText content) (ht : ShortText time) {d : StableEntry}
    (hd : d.toJson = .ofDict (turnRecord p n i role content time)) : ShortTurn env d := by
  have hentry : d.entry = turnRecord p n i role content time := by
    have hdict := congrArg Json.dict? hd
    rw [StableEntry.toJson, Json.dict?_ofDict, Json.dict?_ofDict, some.injEq] at hdict
    exact hdict
  have hsmall := small_turnRecord hr p hn hn' hi hrole hc ht
  have hget : ∀ k, d.entry.get? k = (([("id", Json.str (dialogueId p n i role)),
      ("phase", .str p.value), ("attempt", .int n), ("role", .str role), ("content", .str content),
      ("at", .str time)] : List (String × Json)).reverse).lookup k := by
    intro k
    rw [hentry, turnRecord, get?_dictOf]
  have hphase : d.entry.value "phase" = .str p.value := by
    rw [Dict.value, hget]
    rfl
  have hattempt : d.entry.get? "attempt" = some (.int n) := by
    rw [hget]
    rfl
  refine ⟨hd ▸ hsmall, ?_, ?_⟩
  · simp only [DialogueOk, dialogueKey, dialoguePhase, dialogueAttempt, phaseOf, attemptOf, hphase,
      hattempt, getD_some, bind_ok, pure_ok]
    exact ⟨_, rfl, n, if_pos ⟨hn, hn'⟩, rfl⟩
  · have hid := short_dialogueId p hn hn' hi hrole
    have hkeys : d.entry.keys = ["id", "phase", "attempt", "role", "content", "at"] := by
      rw [hentry, Dict.keys, turnRecord, items_dictOf]
      · rfl
      · change ["id", "phase", "attempt", "role", "content", "at"].Nodup
        decide
    have htext : ∀ {s : String} {limit : Nat}, ShortText s → 64 ≤ limit →
        boundedText limit (.str s) = true := by
      intro s limit hs hlimit
      rw [boundedText, hs.2, decide_eq_true hs.1.1, decide_eq_true (Nat.le_trans hs.1.2 hlimit)]
      rfl
    have hsilent : containsCredentialMaterial env.rules plainScanLimits (.ofDict d.entry) = false := by
      rw [hentry]
      exact hsmall.silent (by decide) (by decide) (by decide) (by decide)
    have hnamed : isStrOf (fun s => !hasNul s) (.str p.value) = true := by
      rw [isStrOf, (short_phaseName p).1.2]
      rfl
    have hrole' : isStrOf (["operator", "agent"].contains ·) (.str role) = true :=
      contains_iff_mem.mpr hrole
    have hcontent : isStrOf (fun s => s.length ≤ maxGateDecisionTextChars && !hasNul s)
        (.str content) = true := by
      rw [isStrOf, hc.2, decide_eq_true (Nat.le_trans hc.1.2 (by decide))]
      rfl
    rw [dialogueEntryOk, hsilent, hkeys, hphase, namedAttempt, hattempt, getD_some,
      isAttempt_int hn hn', hnamed]
    simp only [Dict.value, hget]
    change (_ && true && true && boundedText 256 (.str (dialogueId p n i role)) &&
      isStrOf (["operator", "agent"].contains ·) (.str role) &&
      isStrOf (fun s => s.length ≤ maxGateDecisionTextChars && !hasNul s) (.str content) &&
      boundedText 64 (.str time) && !false) = true
    rw [htext hid (by decide), htext ht (by decide), hrole', hcontent]
    decide

theorem itemsFit_record (hr : Plain env.rules) (p : Phase) {n : Int} (hn : 1 ≤ n)
    (hn' : n ≤ 1000000) (haction : action ∈ ["approve", "discuss"]) (hk : k < 1000)
    {note : Option String} (ha : ShortText actor) (ht : ShortText time)
    (hnote : ∀ s ∈ note, ShortText s) :
    ItemsFit env [("attempt", .int n),
      ("approvals", .list [.ofDict (reviewRecord p n action k actor time note)])] := by
  have hmade : MadeRecord env p n "phase_review" action k
      (.ofDict (reviewRecord p n action k actor time note)) :=
    ⟨_, _, _, _, makeApproval_review hr p hn hn' haction hk _ _ ha hnote, rfl⟩
  rcases hmade.identified with ⟨r, _, _, hjson⟩
  have hrecords : RecordsFit env [r] := by
    refine ⟨show 1 ≤ maxDurableApprovals by decide, ?_, ?_⟩
    · rw [map_singleton]
      exact nodup_singleton _
    · rw [forall_mem_singleton, hjson]
      exact small_reviewRecord hr p hn hn' haction hk ha ht hnote
  refine ⟨?_, ?_, ?_, ?_⟩
  · change ["attempt", "approvals"].Nodup
    decide
  · change ∀ k ∈ ["attempt", "approvals"], k ∈ plainFields
    decide
  · simp only [forall_mem_cons]
    refine ⟨?_, ⟨[r], ?_, hrecords⟩, fun _ h => absurd h not_mem_nil⟩
    · exact (small_int (bitLength_attempt hn hn')).mono (Nat.le_refl _) (Nat.zero_le _)
        (Nat.le_refl _)
    · rw [recordsJson, map_singleton, hjson]
  · rw [fieldsOk]
    simp only [Dict.value, get?_dictOf]
    change (true && (true && (_ || isAttempt (.int n)))) = true
    rw [isAttempt_int hn hn', Bool.or_true]
    rfl

theorem ShortThread.talk (h : ShortThread env s) {operator agent : Json}
    (ho : MadeTurn env p n i "operator" operator) (ha : MadeTurn env p n (i + 1) "agent" agent)
    (hshort : ∀ d : StableEntry, d.toJson = operator ∨ d.toJson = agent → ShortTurn env d) :
    ∃ l, storeDialogue env s (some [operator, agent]) = .ok l ∧
      (∀ d ∈ l, ShortTurn env d) ∧ l.length ≤ maxDurableDialogueEntries ∧
      (l.map StableEntry.id).Nodup ∧ ∀ d ∈ l, d ∈ s.dialogue ∨ belongs p n d = true := by
  rcases turnsIn_discussion ho ha with ⟨x, y, heq, hx, hy, hxj, hyj⟩
  have hlog : channelLog env.toReducerEnv (channelJson s.dialogue) (.list [operator, agent]) =
      appendNew StableEntry.id s.dialogue [x, y] := by
    rw [channelLog, channelRecords_channelJson h.length h.nodup, ← heq]
    rfl
  have hmem : ∀ d ∈ appendNew StableEntry.id s.dialogue [x, y], d ∈ s.dialogue ∨ d = x ∨ d = y := by
    intro d hd
    refine (appendNew_mem StableEntry.id hd).imp_right (fun hd => ?_)
    rwa [mem_cons, mem_singleton] at hd
  have hturns : ∀ d ∈ appendNew StableEntry.id s.dialogue [x, y], ShortTurn env d := by
    intro d hd
    rcases hmem d hd with hd | rfl | rfl
    · exact h.turns d hd
    · exact hshort d (.inl hxj)
    · exact hshort d (.inr hyj)
  have hleft : ChannelOk env.toReducerEnv (channelJson s.dialogue) :=
    (channelOk_channelJson h.length).mpr (fun d hd => (h.turns d hd).small.recordOk)
  have hright : ChannelOk env.toReducerEnv (.list [operator, agent]) := by
    refine ⟨rfl, ?_⟩
    rw [recent_list (show 2 ≤ maxDurableArtifacts by decide), ← hxj, ← hyj]
    have hok := (recordsOk_toJson env.toReducerEnv [x, y]).mpr
    simp only [forall_mem_cons] at hok
    exact hok ⟨(hshort x (.inl hxj)).small.recordOk, (hshort y (.inr hyj)).small.recordOk,
      fun _ h => absurd h not_mem_nil⟩
  have hok := (mergeDialogue_ok env.toReducerEnv (channelJson s.dialogue)
    (.list [operator, agent]) _).mpr ⟨⟨⟨hleft, hright⟩, fun d hd => by
      rw [hlog] at hd
      exact (hturns d hd).keyed⟩, rfl⟩
  rw [hlog] at hok
  refine ⟨_, hok, fun d hd => hturns d (mem_shown hd).1, length_rtake_le _ _, ?_, fun d hd => ?_⟩
  · exact ((shown_sublist _).map _).nodup (appendNew_nodup StableEntry.id _ _ h.nodup)
  · rcases hmem d (mem_shown hd).1 with hd | rfl | rfl
    · exact .inl hd
    · exact .inr hx.belongs
    · exact .inr hy.belongs

theorem ShortThread.record (hr : Plain env.rules) (h : ShortThread env s) {summary : Json}
    (he : s.phaseResults.get? p.value = some e) (hshort : ShortEntry env p n status summary ss e)
    (haction : action ∈ ["approve", "discuss"]) (hk : k < 1000) (note : Option String)
    (ha : ShortText actor) (ht : ShortText time) (hnote : ∀ s ∈ note, ShortText s) :
    ∃ m e' ss', storeEntries env s [(p, updateOf n
        [("approvals", .list [.ofDict (reviewRecord p n action k actor time note)])])] = .ok m ∧
      m.get? p.value = some e' ∧ ShortEntry env p n status summary ss' e' ∧
      ∀ k, k ≠ p.value → m.get? k = s.phaseResults.get? k := by
  have hkeys : ∀ k ∈ ["attempt", "approvals"], k ∈ resultUpdateKeys := by decide
  rcases h.update hr he hshort (itemsFit_record hr p hshort.positive hshort.attemptMax haction hk
    ha ht hnote) hkeys (by rw [get?_dictOf]; rfl) status summary (by rw [get?_dictOf]; rfl)
    (by rw [get?_dictOf]; rfl) (fun _ => rfl) with ⟨m, e', hm, hget, hshort', hother⟩
  exact ⟨m, e', _, hm, hget, hshort', hother⟩

theorem ShortThread.replace (h : ShortThread env s) {m : PhaseResults} {e' : PhaseEntry}
    {summary : Json} (hget : m.get? p.value = some e')
    (hshort : ShortEntry env p n status summary ss e')
    (hother : ∀ k, k ≠ p.value → m.get? k = s.phaseResults.get? k)
    (hturns : ∀ d ∈ l, ShortTurn env d) (hlength : l.length ≤ maxDurableDialogueEntries)
    (hnodup : (l.map StableEntry.id).Nodup) :
    ShortThread env { s with phaseResults := m, dialogue := l } := by
  refine ⟨fun k e₀ he₀ => ?_, hturns, hlength, hnodup, h.artifacts⟩
  by_cases hk : k = p.value
  · subst hk
    cases hget.symm.trans he₀
    exact ⟨p, n, status, summary, ss, rfl, hshort⟩
  · exact h.entries k e₀ ((hother k hk).symm.trans he₀)

/-- A thread of short results in which a phase has a status, a summary and records. -/
structure PhaseAt (env : GateEnv) (s : ReviewState) (p : Phase) (n : Int) (status : PhaseStatus)
    (summary : Json) (ss : List StableEntry) : Prop where
  thread : ShortThread env s
  entry : ∃ e, s.phaseResults.get? p.value = some e ∧ ShortEntry env p n status summary ss e

theorem PhaseAt.other {t : ReviewState} {q : Phase} {summary : Json}
    (h : PhaseAt env s q n status summary ss) (ht : ShortThread env t) (hq : q ≠ p)
    (hother : ∀ k, k ≠ p.value → t.phaseResults.get? k = s.phaseResults.get? k) :
    PhaseAt env t q n status summary ss := by
  rcases h.entry with ⟨e, he, hshort⟩
  exact ⟨ht, e, (hother q.value (fun heq => hq (Phase.value_injective heq))).trans he, hshort⟩

section

variable (hr : Plain env.rules) (h : PhaseAt env s c.phase n status (.str text) ss)
  (htext : ShortText text) (hmeaning : meaningful text = true) (hgated :
  (s.cfg.gates c.phase).outputReview = .gated)

include hr h htext hmeaning hgated

theorem PhaseAt.discuss
    (hmax : s.cfg.limits.maxDialogueTurns ≤ 100)
    (hlt : operatorTurns ((attemptTurns c.phase n s).map StableEntry.entry) <
      s.cfg.limits.maxDialogueTurns) (htalk : ShortTalk env c resume message) :
    ∃ u t ss', ReviewStep env s (.review c.phase u) t ∧ u.dialogue.isSome ∧
      PhaseAt env t c.phase n status (.str text) ss' ∧
      (∀ k, k ≠ c.phase.value → t.phaseResults.get? k = s.phaseResults.get? k) ∧
      ∀ d ∈ t.dialogue, d ∈ s.dialogue ∨ belongs c.phase n d = true := by
  rcases h.entry with ⟨e, he, hshort⟩
  have hn := hshort.positive
  have hn' := hshort.attemptMax
  have hlen : (attemptTurns c.phase n s).length ≤ 256 :=
    Nat.le_trans (length_filter_le _ _) h.thread.length
  have hact := actOnDecision_discuss hr (r := ⟨e, n, 0, some text,
    (attemptTurns c.phase n s).map StableEntry.entry, s.cfg.limits⟩) hn hn' hmax hlt
    (by rw [List.length_map]; exact hlen) htalk
  have hgate := outputGate_short hr h.thread he hshort htext hmeaning hgated hact
  rw [List.length_map] at hgate
  simp only at hgate
  generalize (attemptTurns c.phase n s).length = i at hgate hlen
  generalize operatorTurns ((attemptTurns c.phase n s).map StableEntry.entry) = k at hgate hlt
  rcases h.thread.record hr he hshort (show "discuss" ∈ ["approve", "discuss"] by decide)
    (show k + 1 < 1000 by omega) (some message) htalk.actor htalk.approvalAt
    (fun _ h => mem_some.mp h ▸ htalk.short) with ⟨m, e', ss', hstore, hget, hshort', hother⟩
  have hoperator : MadeTurn env c.phase n i "operator"
      (.ofDict (turnRecord c.phase n i "operator" message c.operatorAt)) :=
    ⟨_, _, _, dialogueEntry_turn hr c.phase hn hn' (by omega) (by decide) _ htalk.short, rfl⟩
  have hagent : MadeTurn env c.phase n (i + 1) "agent"
      (.ofDict (turnRecord c.phase n (i + 1) "agent" (stubReply env c.phase message) c.agentAt)) :=
    ⟨_, _, _, dialogueEntry_turn hr c.phase hn hn' (by omega) (by decide) _ htalk.reply, rfl⟩
  rcases h.thread.talk hoperator hagent (fun d hd => by
    rcases hd with hd | hd
    · exact shortTurn_record hr c.phase hn hn' (by omega) (by decide) htalk.short
        htalk.operatorAt hd
    · exact shortTurn_record hr c.phase hn hn' (by omega) (by decide) htalk.reply
        htalk.agentAt hd) with ⟨l, hl, hturns, hlength, hnodup, hnew⟩
  exact ⟨_, { s with phaseResults := m, dialogue := l }, ss', ⟨.review hgate, rfl, hstore, hl⟩, rfl,
    ⟨h.thread.replace hget hshort' hother hturns hlength hnodup, e', hget, hshort'⟩, hother, hnew⟩

theorem PhaseAt.approve (hstatus : status ≠ .failed)
    (haction : (Gates.parseGateDecision env resume phaseReviewActions).value "action" = .str "approve")
    (hactor : ShortText c.actor) (htime : ShortText c.approvalAt) :
    ∃ u t ss', ReviewStep env s (.review c.phase u) t ∧ u.dialogue = none ∧
      PhaseAt env t c.phase n status (.str text) ss' ∧
      (∀ k, k ≠ c.phase.value → t.phaseResults.get? k = s.phaseResults.get? k) ∧
      t.dialogue = s.dialogue := by
  rcases h.entry with ⟨e, he, hshort⟩
  have hact := actOnDecision_approve hr hshort hstatus (k := 0) (some text)
    ((attemptTurns c.phase n s).map StableEntry.entry) s.cfg.limits haction hactor
  have hgate := outputGate_short hr h.thread he hshort htext hmeaning hgated hact
  rcases h.thread.record hr he hshort (show "approve" ∈ ["approve", "discuss"] by decide)
    (show 0 < 1000 by decide) none hactor htime
    (fun _ h => absurd h (not_mem_none _)) with ⟨m, e', ss', hstore, hget, hshort', hother⟩
  exact ⟨_, { s with phaseResults := m }, ss', ⟨.review hgate, rfl, hstore, rfl⟩, rfl,
    ⟨h.thread.replace hget hshort' hother h.thread.turns h.thread.length h.thread.nodup, e', hget,
      hshort'⟩, hother, rfl⟩

end

end Gate

section Many

variable {p : Phase} {n : Int} {status status' : PhaseStatus} {summary : Json}
  {ss : List StableEntry}

/-- The fields of the update of a status, and of a summary if there is one. -/
def statusFields (status : PhaseStatus) (summary : Option String) : List (String × Json) :=
  ("status", .str status.value) :: (summary.map (fun s => ("summary", Json.str s))).toList

theorem itemsFit_status (hr : Plain env.rules) (status : PhaseStatus) (hn : 1 ≤ n) (hn' : n ≤ 1000000)
    {text : Option String} (htext : ∀ s ∈ text, ShortText s) :
    ItemsFit env (("attempt", .int n) :: statusFields status text) ∧
      ∀ k ∈ (("attempt", .int n) :: statusFields status text).map Prod.fst,
        k ∈ resultUpdateKeys := by
  have hattempt : Small env.rules 1 64 0 (.int n) :=
    (small_int (bitLength_attempt hn hn')).mono (Nat.le_refl _) (Nat.zero_le _) (Nat.le_refl _)
  have hname := small_str hr (short_status status).1
  have hkinds : fieldsOk (dictOf (("attempt", .int n) :: statusFields status text)) = true := by
    have hstatus : isStrOf (· ∈ phaseStatusValues) (.str status.value) = true :=
      decide_eq_true (short_status status).2
    rw [fieldsOk]
    simp only [Dict.value, get?_dictOf]
    cases text
    all_goals
      change (true && ((_ || isStrOf (· ∈ phaseStatusValues) (.str status.value)) &&
        (_ || isAttempt (.int n)))) = true
      rw [isAttempt_int hn hn', hstatus, Bool.or_true, Bool.or_true]
      rfl
  cases text with
  | none =>
    have hkeys : (("attempt", Json.int n) :: statusFields status none).map Prod.fst =
        ["attempt", "status"] := rfl
    refine ⟨⟨by rw [hkeys]; decide, by rw [hkeys]; decide, ?_, hkinds⟩, by rw [hkeys]; decide⟩
    simp only [statusFields, map_none, toList_none, forall_mem_cons]
    exact ⟨hattempt, hname, fun _ h => absurd h not_mem_nil⟩
  | some s =>
    have hkeys : (("attempt", Json.int n) :: statusFields status (some s)).map Prod.fst =
        ["attempt", "status", "summary"] := rfl
    refine ⟨⟨by rw [hkeys]; decide, by rw [hkeys]; decide, ?_, hkinds⟩, by rw [hkeys]; decide⟩
    simp only [statusFields, map_some, toList_some, forall_mem_cons]
    exact ⟨hattempt, hname, small_str hr (htext s rfl), fun _ h => absurd h not_mem_nil⟩

variable {s : ReviewState}

theorem PhaseAt.setStatus (hr : Plain env.rules) (h : PhaseAt env s p n status summary ss)
    (status' : PhaseStatus) (text : Option String) (htext : ∀ s ∈ text, ShortText s)
    (hopen : isTerminal (.str status.value) = true → status' = status) :
    ∃ t, ReviewStep env s (.node p (updateOf n (statusFields status' text))) t ∧
      PhaseAt env t p n status' ((text.map Json.str).getD summary) ss ∧
      (∀ k, k ≠ p.value → t.phaseResults.get? k = s.phaseResults.get? k) ∧
      t.dialogue = s.dialogue := by
  rcases h.entry with ⟨e, he, hshort⟩
  rcases itemsFit_status hr status' hshort.positive hshort.attemptMax htext with
    ⟨hfit, hkeys⟩
  have hget : ∀ k, (updateOf n (statusFields status' text)).get? k =
      (("attempt", .int n) :: statusFields status' text).reverse.lookup k :=
    get?_updateOf n (statusFields status' text)
  have hattempt : (updateOf n (statusFields status' text)).get? "attempt" = some (.int n) := by
    rw [hget]
    cases text <;> rfl
  have hnone : (updateOf n (statusFields status' text)).get? "approvals" = none ∧
      (updateOf n (statusFields status' text)).get? "revise_count" = none := by
    rw [hget, hget]
    cases text <;> exact ⟨rfl, rfl⟩
  rcases h.thread.update hr he hshort hfit hkeys hattempt status' ((text.map Json.str).getD summary)
    (by rw [← updateOf, hget]; cases text <;> rfl) (by rw [← updateOf, hget]; cases text <;> rfl)
    hopen with ⟨m, e', hstore, hget', hshort', hother⟩
  rw [← updateOf, approvalsIn_none (.inl hnone.1), windowAppend, appendNew_nil,
    rtake_eq_self hshort.records.length] at hshort'
  refine ⟨{ s with phaseResults := m }, ⟨.node ⟨⟨n, ?_, ?_, .inl hnone.1⟩, hnone.2⟩, rfl, hstore,
    rfl⟩, ⟨h.thread.replace hget' hshort' hother h.thread.turns h.thread.length h.thread.nodup, e',
      hget', hshort'⟩, hother, rfl⟩
  · rw [entryOf_some he, hshort.entry, entryAttempt, Dict.value, get_attempt, getD_some]
    exact if_pos ⟨hshort.positive, hshort.attemptMax⟩
  · rw [Dict.value, hattempt, getD_some]

/-- Discussions can be added until the limit is reached. After each of them the gate
    is opened again. -/
theorem PhaseAt.discuss_many (hr : Plain env.rules) {c : GateCall} {text message : String}
    {resume : Json} {e₀ : PhaseEntry}
    (h : PhaseAt env s c.phase n .awaitingOutputReview (.str text) ss) (hs : Sound env s)
    (hun : Unreviewed env c.phase n s e₀) (htext : ShortText text)
    (hmeaning : meaningful text = true) (hgated : (s.cfg.gates c.phase).outputReview = .gated)
    (htalk : ShortTalk env c resume message) :
    ∀ k ≤ s.cfg.limits.maxDialogueTurns, ∃ es t ss', ReviewRun env s es t ∧
      (∀ e ∈ es, Quiet c.phase e) ∧ discussions c.phase es = k ∧
      PhaseAt env t c.phase n .awaitingOutputReview (.str text) ss' ∧
      (∀ k, k ≠ c.phase.value → t.phaseResults.get? k = s.phaseResults.get? k) ∧
      ∀ d ∈ t.dialogue, d ∈ s.dialogue ∨ belongs c.phase n d = true
  | 0, _ => ⟨[], s, ss, .nil, fun _ h => absurd h not_mem_nil, rfl, h, fun _ _ => rfl,
      fun _ hd => .inl hd⟩
  | k + 1, hk => by
    rcases PhaseAt.discuss_many hr h hs hun htext hmeaning hgated htalk k (by omega) with
      ⟨es, t, ss', hrun, hquiet, hcount, ht, hother, hnew⟩
    have hcfg := cfg_quiet_run hrun hquiet
    have hlimits := hs.limits
    rw [Limits.reviewsOk, Bool.and_eq_true, decide_eq_true_eq, decide_eq_true_eq] at hlimits
    rcases hs.entries c.phase e₀ hun.entry with ⟨_, hsound⟩
    rcases hsound.count with ⟨start, hstart, _⟩
    rcases Reviewed.run hs hun hstart hrun hquiet with ⟨m, hm⟩
    rcases ht.discuss hr htext hmeaning (hcfg ▸ hgated) (hcfg ▸ hlimits.2)
      (by rw [hm.operator, hcount, hcfg]; omega) htalk with
      ⟨u, t', ss'', hstep, htalked, ht', hother', hnew'⟩
    rcases ht'.setStatus hr .awaitingOutputReview none (fun _ h => absurd h
      (not_mem_none _)) (fun _ => rfl) with ⟨t'', hstep', ht'', hother'', hsame⟩
    refine ⟨(es ++ [.review c.phase u]) ++ [.node c.phase _], t'', ss'', (hrun.snoc hstep).snoc hstep',
      ?_, ?_, ht'', fun k hk => ?_, fun d hd => ?_⟩
    · rw [forall_mem_append, forall_mem_append, forall_mem_singleton, forall_mem_singleton]
      exact ⟨⟨hquiet, .inl rfl⟩, trivial⟩
    · rw [discussions_snoc, discussions_snoc, hcount, ReviewEvent.discusses, htalked,
        decide_eq_true rfl]
      rfl
    · rw [hother'' k hk, hother' k hk, hother k hk]
    · rw [hsame] at hd
      rcases hnew' d hd with hd | hd
      · exact hnew d hd
      · exact .inr hd

theorem PhaseAt.unreviewed (h : PhaseAt env s p n status summary [])
    (hsilent : attemptTurns p n s = []) : ∃ e, Unreviewed env p n s e := by
  rcases h.entry with ⟨e, he, hshort⟩
  refine ⟨e, he, ?_, hsilent, ?_⟩
  · rw [hshort.entry, Dict.value, get_attempt, getD_some]
  · intro r hr
    have hempty : RecordsFit env [] := recordsFit_nil
    rw [approvalsIn, hshort.entry, Dict.value, get_approvals, getD_some,
      fieldRecords_recordsJson hempty.length hempty.nodup] at hr
    exact absurd hr not_mem_nil

end Many

end Apex.Graphs
