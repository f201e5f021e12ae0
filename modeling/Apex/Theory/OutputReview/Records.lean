import Apex.Graphs.Pipeline.OutputGate
import Apex.Theory.Reducers.Channels

/-!
# What the Output Gate Writes

The records of the gates are identified by a text made of their phase, their
attempt and a counter. The parts can be read back from the text: none of the
names has a dash in it, and none of the numbers does. So a record is mistaken
for another one only if it is the same decision of the same attempt.

`GateStep` says everything a command of the gate can write. It is read off the
loop over the answers once, and later files reason about nothing else.

## Main definitions

* `MadeRecord`, `MadeTurn`: A record of a decision; one turn of a discussion.
* `GateStep`: What a command of the gate writes.

## Theorems

* `dialogueId_inj`, `approvalId_inj`: What an identifier says.
* `MadeRecord.identified`, `MadeTurn.identified`: How the reducers see a record.
* `outputGate_command`: A command of the gate is a `GateStep`.
-/

namespace Apex.Graphs

open List Option
open Domain
open GateOutcome (command)

variable {xs ys : List Char} {m n : Nat} {a b : Int} {p q : Phase}

theorem dash_split {ds es : List Char} (hxs : '-' ∉ xs) (hys : '-' ∉ ys)
    (h : xs ++ '-' :: ds = ys ++ '-' :: es) : xs = ys ∧ ds = es := by
  rcases append_eq_append_iff.mp h with ⟨between, rfl, hrest⟩ | ⟨between, rfl, hrest⟩
  · cases between with
    | nil => exact ⟨(append_nil xs).symm, (cons.inj hrest).2⟩
    | cons c rest =>
      rw [cons_append, cons.injEq] at hrest
      exact absurd (hrest.1 ▸ mem_append_right xs mem_cons_self) hys
  · cases between with
    | nil => exact ⟨append_nil ys, (cons.inj hrest).2.symm⟩
    | cons c rest =>
      rw [cons_append, cons.injEq] at hrest
      exact absurd (hrest.1 ▸ mem_append_right ys mem_cons_self) hxs

theorem dash_not_digit (n : Nat) : '-' ∉ Nat.toDigits 10 n := by
  intro h
  exact absurd (Nat.isDigit_of_mem_toDigits (by decide) (by decide) h) (by decide)

theorem digits_inj (h : Nat.toDigits 10 m = Nat.toDigits 10 n) : m = n := by
  have hvalue := congrArg (fun ds => Nat.ofDigitChars 10 ds 0) h
  simpa only [Nat.ofDigitChars_ten_toDigits] using hvalue

theorem dash_not_phase (p : Phase) : '-' ∉ p.value.toList := by
  cases p <;> decide

theorem toList_attempt {n : Int} (h : 1 ≤ n) : (toString n).toList = Nat.toDigits 10 n.toNat := by
  rcases n with k | k
  · change (toString k).toList = _
    rw [Nat.toString_eq_ofList_toDigits, String.toList_ofList]
    rfl
  · omega

theorem toList_index (n : Nat) : (toString n).toList = Nat.toDigits 10 n := by
  rw [Nat.toString_eq_ofList_toDigits, String.toList_ofList]

theorem attemptPrefix_inj (ha : 1 ≤ a) (hb : 1 ≤ b)
    (h : p.value.toList ++ '-' :: 'a' :: (Nat.toDigits 10 a.toNat ++ '-' :: xs) =
      q.value.toList ++ '-' :: 'a' :: (Nat.toDigits 10 b.toNat ++ '-' :: ys)) :
    p = q ∧ a = b ∧ xs = ys := by
  rcases dash_split (dash_not_phase p) (dash_not_phase q) h with ⟨hphase, hrest⟩
  rw [cons.injEq] at hrest
  rcases dash_split (dash_not_digit _) (dash_not_digit _) hrest.2 with ⟨hattempt, htail⟩
  have hnat := digits_inj hattempt
  exact ⟨Phase.value_injective (String.toList_inj.mp hphase), by omega, htail⟩

theorem toList_dialogueId (p : Phase) (ha : 1 ≤ a) (i : Nat) (role : String) :
    (dialogueId p a i role).toList = p.value.toList ++ '-' :: 'a' :: (Nat.toDigits 10 a.toNat ++
      '-' :: ('d' :: (Nat.toDigits 10 i ++ '-' :: role.toList))) := by
  have ha' : "-a".toList = ['-', 'a'] := by decide
  have hd : "-d".toList = ['-', 'd'] := by decide
  have hdash : "-".toList = ['-'] := by decide
  simp only [dialogueId, String.toList_append, ha', hd, hdash, toList_attempt ha, toList_index,
    append_assoc, cons_append, nil_append]

theorem dialogueId_inj {i j : Nat} {r r' : String} (ha : 1 ≤ a) (hb : 1 ≤ b)
    (h : dialogueId p a i r = dialogueId q b j r') :
    p = q ∧ a = b ∧ i = j ∧ r = r' := by
  have hlist := congrArg String.toList h
  rw [toList_dialogueId p ha, toList_dialogueId q hb] at hlist
  rcases attemptPrefix_inj ha hb hlist with ⟨hp, hab, hrest⟩
  rw [cons.injEq] at hrest
  rcases dash_split (dash_not_digit i) (dash_not_digit j) hrest.2 with ⟨hindex, hrole⟩
  exact ⟨hp, hab, digits_inj hindex, String.toList_inj.mp hrole⟩

def sequenceChars (sequence : Nat) : List Char :=
  if sequence = 0 then [] else '-' :: 's' :: Nat.toDigits 10 sequence

theorem toList_approvalId (p : Phase) (ha : 1 ≤ a) (gate action : String) (n : Nat) :
    (approvalId p a gate action n).toList = p.value.toList ++ '-' :: 'a' ::
      (Nat.toDigits 10 a.toNat ++ '-' :: (gate.toList ++ '-' :: (action.toList ++
        sequenceChars n))) := by
  have ha' : "-a".toList = ['-', 'a'] := by decide
  have hs : "-s".toList = ['-', 's'] := by decide
  have hdash : "-".toList = ['-'] := by decide
  have hempty : "".toList = [] := by decide
  by_cases hn : n = 0
  · simp only [approvalId, sequenceChars, hn, if_true, String.toList_append, ha', hdash, hempty,
      toList_attempt ha, append_assoc, cons_append, nil_append]
  · simp only [approvalId, sequenceChars, hn, if_false, String.toList_append, ha', hs, hdash,
      toList_attempt ha, toList_index, append_assoc, cons_append, nil_append]

theorem sequence_inj (hxs : '-' ∉ xs) (hys : '-' ∉ ys)
    (h : xs ++ sequenceChars m = ys ++ sequenceChars n) : xs = ys ∧ m = n := by
  unfold sequenceChars at h
  by_cases hm : m = 0
  · by_cases hn : n = 0
    · rw [if_pos hm, if_pos hn, append_nil, append_nil] at h
      exact ⟨h, hm.trans hn.symm⟩
    · rw [if_pos hm, if_neg hn, append_nil] at h
      exact absurd (h ▸ mem_append_right ys mem_cons_self) hxs
  · by_cases hn : n = 0
    · rw [if_neg hm, if_pos hn, append_nil] at h
      exact absurd (h ▸ mem_append_right xs mem_cons_self) hys
    · rw [if_neg hm, if_neg hn] at h
      rcases dash_split hxs hys h with ⟨hsame, hdigits⟩
      exact ⟨hsame, digits_inj (cons.inj hdigits).2⟩

/-- The gates and the actions whose names have no dash. -/
def Undashed (gate action : String) : Prop := '-' ∉ gate.toList ∧ '-' ∉ action.toList

instance (gate action : String) : Decidable (Undashed gate action) :=
  inferInstanceAs (Decidable (_ ∧ _))

/-- The identifier of a decision names the phase, the attempt, the gate, the action
    and the place in the sequence. -/
theorem approvalId_inj {g g' act act' : String} (ha : 1 ≤ a) (hb : 1 ≤ b) (hg : Undashed g act)
    (hg' : Undashed g' act') (h : approvalId p a g act m = approvalId q b g' act' n) :
    (p = q ∧ a = b) ∧ g = g' ∧ act = act' ∧ m = n := by
  have hlist := congrArg String.toList h
  rw [toList_approvalId p ha, toList_approvalId q hb] at hlist
  rcases attemptPrefix_inj ha hb hlist with ⟨hp, hab, hrest⟩
  rcases dash_split hg.1 hg'.1 hrest with ⟨hgate, haction⟩
  rcases sequence_inj hg.2 hg'.2 haction with ⟨hact, hseq⟩
  exact ⟨⟨hp, hab⟩, String.toList_inj.mp hgate, String.toList_inj.mp hact, hseq⟩

theorem get?_dictOf (items : List (String × Json)) (k : String) :
    (dictOf items).get? k = items.reverse.lookup k := by
  have hfold : ∀ (items : List (String × Json)) (d : Dict Json),
      (items.foldl (fun d item => d.set item.1 item.2) d).get? k =
        (items.reverse.lookup k).or (d.get? k) := by
    intro items
    induction items with
    | nil => exact fun d => rfl
    | cons item items ih =>
      intro d
      rw [foldl_cons, ih, reverse_cons, lookup_append, Option.or_assoc, Dict.get?_set]
      congr 1
      by_cases hk : k = item.1
      · rw [if_pos hk, hk, List.lookup_cons_self, some_or]
      · rw [if_neg hk, lookup_cons, beq_eq_false_iff_ne.mpr hk]
        rfl
  rw [dictOf, hfold, Dict.get?_empty, or_none]

def MadeRecord (env : GateEnv) (p : Phase) (n : Int) (gate action : String) (sequence : Nat)
    (v : Json) : Prop :=
  ∃ actor time note r, makeApproval env p n gate action actor time note sequence = .ok r ∧
    v = .ofDict r

def MadeTurn (env : GateEnv) (p : Phase) (n : Int) (index : Nat) (role : String) (v : Json) :
    Prop :=
  ∃ content time d, dialogueEntry env p n index role content time = .ok d ∧ v = .ofDict d

theorem identify?_of_id (env : ReducerEnv) {d : Dict Json} {id : String}
    (hget : d.get? "id" = some (.str id)) (hid : validId id = true) :
    identify? env (.ofDict d) = some ⟨d, id, hget, hid⟩ := by
  rw [identify?, Json.dict?_ofDict, bind_some, toOption_eq_some]
  unfold identifiedEntry
  split
  all_goals rename_i hother
  · rw [hget] at hother
    cases hother
  · rw [hget] at hother
    cases hother
  · rename_i id'
    rw [hget, some.injEq, Json.str.injEq] at hother
    subst hother
    rw [dif_pos hid]
  · rename_i h1 h2 h3
    exact absurd hget (fun hget => by simp_all)

theorem MadeRecord.identified {env : GateEnv} {n : Int} {gate action : String} {sequence : Nat}
    {v : Json} (h : MadeRecord env p n gate action sequence v) :
    ∃ s, identify? env.toReducerEnv v = some s ∧ s.id = approvalId p n gate action sequence ∧
      s.toJson = v := by
  rcases h with ⟨actor, time, note, r, hr, rfl⟩
  simp only [makeApproval, approvalRecord, bind_ok, raiseIf_ok, pure_ok, exists_const,
    Bool.not_eq_false'] at hr
  rcases hr with ⟨hid, _, _, _, _, rfl⟩
  exact ⟨_, identify?_of_id env.toReducerEnv (get?_dictOf _ "id") hid, rfl, rfl⟩

/-- One turn of a discussion as the reducers and the gates see it. -/
structure TurnRead (p : Phase) (n : Int) (index : Nat) (role : String) (s : StableEntry) :
    Prop where
  id : s.id = dialogueId p n index role
  phase : phaseOf s = p.value
  attempt : attemptOf s = n
  role : s.entry.value "role" = .str role
  positive : 1 ≤ n

theorem MadeTurn.identified {env : GateEnv} {n : Int} {index : Nat} {role : String} {v : Json}
    (h : MadeTurn env p n index role v) :
    ∃ s, identify? env.toReducerEnv v = some s ∧ TurnRead p n index role s ∧ s.toJson = v := by
  rcases h with ⟨content, time, d, hd, rfl⟩
  simp only [dialogueEntry, bind_ok, raiseIf_ok, pure_ok, exists_const, Bool.not_eq_false',
    Bool.or_eq_false_iff, decide_eq_false_iff_not] at hd
  rcases hd with ⟨hid, hn, _, _, rfl⟩
  refine ⟨_, identify?_of_id env.toReducerEnv (get?_dictOf _ "id") hid,
    ⟨rfl, ?_, ?_, ?_, by omega⟩, rfl⟩
  · simp only [phaseOf, Dict.value, get?_dictOf]
    rfl
  · simp only [attemptOf, get?_dictOf]
    rfl
  · simp only [Dict.value, get?_dictOf]
    rfl

/-- An update of an entry that goes with the record of one decision of the output
    review: its attempt, its revision count if it has one, and the record. -/
structure RecordedUpdate (env : GateEnv) (p : Phase) (n : Int) (action : String) (sequence : Nat)
    (count : Option Json) (u : PhaseEntry) : Prop where
  attempt : u.value "attempt" = .int n
  count : u.get? "revise_count" = count
  record : ∃ v, MadeRecord env p n "phase_review" action sequence v ∧
    u.get? "approvals" = some (.list [v])

inductive GateStep (env : GateEnv) (s : ReviewState) (p : Phase) : GateUpdate → Prop
  | silent : GateStep env s p {}
  | failed {n : Int} {error : String} (hn : entryAttempt (s.entryOf p) = .ok n) :
      GateStep env s p { entry := some (updateOf n
        [("status", .str PhaseStatus.failed.value), ("errors", .list [.str error])]) }
  | final {n : Int} {action : String} {u : PhaseEntry} {aborted : Bool}
      (hn : entryAttempt (s.entryOf p) = .ok n) (haction : action ∈ ["approve", "abort"])
      (hu : RecordedUpdate env p n action 0 none u) :
      GateStep env s p { entry := some u, runAborted := aborted }
  | revised {n : Int} {k : Nat} {u : PhaseEntry} (hn : entryAttempt (s.entryOf p) = .ok n)
      (hk : reviseCount (s.entryOf p) = .ok k) (hlt : k < s.cfg.limits.maxReviseLoops)
      (hu : RecordedUpdate env p n "revise" (k + 1) (some (.int (k + 1))) u) :
      GateStep env s p { entry := some u }
  | discussed {n : Int} {d : List (Dict Json)} {u : PhaseEntry} {operator agent : Json}
      (hn : entryAttempt (s.entryOf p) = .ok n)
      (hd : checkpointPhaseDialogue env (channelJson s.dialogue) p n = .ok d)
      (hlt : operatorTurns d < s.cfg.limits.maxDialogueTurns)
      (hoperator : MadeTurn env p n d.length "operator" operator)
      (hagent : MadeTurn env p n (d.length + 1) "agent" agent)
      (hu : RecordedUpdate env p n "discuss" (operatorTurns d + 1) none u) :
      GateStep env s p { entry := some u, dialogue := some [operator, agent] }

theorem get?_updateOf (n : Int) (fields : List (String × Json)) (k : String) :
    (updateOf n fields).get? k = (("attempt", .int n) :: fields).reverse.lookup k :=
  get?_dictOf _ k

section Command

variable {env : GateEnv} {s : ReviewState} {c : GateCall}

theorem recordedUpdate_ok {n : Int} {action : String} {note : Option String} {sequence : Nat}
    {fields : List (String × Json)} {u : PhaseEntry} (hattempt : fields.lookup "attempt" = none)
    (hu : recordedUpdate env c n action note sequence fields = .ok u) :
    RecordedUpdate env c.phase n action sequence (fields.reverse.lookup "revise_count") u := by
  simp only [recordedUpdate, bind_ok, pure_ok] at hu
  rcases hu with ⟨r, hr, rfl⟩
  have hnone : fields.reverse.lookup "attempt" = none := by
    rw [lookup_eq_none_iff] at hattempt ⊢
    exact fun item hitem => hattempt item (mem_reverse.mp hitem)
  have hget : ∀ k, (updateOf n (fields ++ [("approvals", .list [.ofDict r])])).get? k =
      if k = "approvals" then some (.list [.ofDict r])
      else (fields.reverse.lookup k).or (if k = "attempt" then some (.int n) else none) := by
    intro k
    rw [get?_updateOf, ← cons_append, reverse_append, reverse_cons,
      reverse_nil, nil_append, singleton_append, lookup_cons]
    by_cases hk : k = "approvals"
    · rw [if_pos hk, beq_iff_eq.mpr hk]
    · rw [if_neg hk, beq_eq_false_iff_ne.mpr hk, reverse_cons, lookup_append,
        lookup_cons, lookup_nil]
      by_cases ha : k = "attempt"
      · rw [if_pos ha, beq_iff_eq.mpr ha]
      · rw [if_neg ha, beq_eq_false_iff_ne.mpr ha]
  refine ⟨?_, ?_, ⟨_, ⟨_, _, _, r, hr, rfl⟩, ?_⟩⟩
  · rw [Dict.value, hget, if_neg (by decide), hnone, none_or, if_pos rfl]
    rfl
  · rw [hget, if_neg (by decide), if_neg (by decide), or_none]
  · rw [hget, if_pos rfl]

variable {goto : GateTarget} {u : GateUpdate}

theorem actOnDecision_command {r : GateRead} {decision : Dict Json}
    (hn : entryAttempt (s.entryOf c.phase) = .ok r.attempt)
    (hk : reviseCount (s.entryOf c.phase) = .ok r.revisions)
    (hd : checkpointPhaseDialogue env (channelJson s.dialogue) c.phase r.attempt = .ok r.dialogue)
    (hl : r.limits = s.cfg.limits)
    (h : actOnDecision env c r decision = .ok (.inr (.command goto u))) : GateStep env s c.phase u := by
  unfold actOnDecision at h
  split at h
  · -- approve
    simp only [bind_ok] at h
    rcases h with ⟨blocked, _, h⟩
    split at h
    · simp only [pure_ok, reduceCtorEq] at h
    · simp only [bind_ok, pure_ok, Sum.inr.injEq, command.injEq] at h
      rcases h with ⟨e, he, _, rfl⟩
      exact .final hn (by decide) (recordedUpdate_ok rfl he)
  · -- revise
    split at h
    · simp only [Except.ok.injEq, reduceCtorEq] at h
    · rename_i hlt
      rw [map_ok] at h
      rcases h with ⟨outcome, houtcome, h⟩
      rw [Sum.inr.injEq] at h
      subst h
      simp only [acceptRevision, bind_ok, pure_ok, command.injEq] at houtcome
      rcases houtcome with ⟨e, he, _, rfl⟩
      refine .revised hn hk (hl ▸ Nat.lt_of_not_le hlt) ?_
      split at he
      · exact recordedUpdate_ok rfl he
      · exact recordedUpdate_ok rfl he
  · -- discuss
    split at h
    · simp only [Except.ok.injEq, reduceCtorEq] at h
    · rename_i hlt
      rw [map_ok] at h
      rcases h with ⟨outcome, houtcome, h⟩
      rw [Sum.inr.injEq] at h
      subst h
      simp only [acceptDiscussion, bind_ok, pure_ok, command.injEq] at houtcome
      rcases houtcome with ⟨op, hop, ag, hag, e, he, _, rfl⟩
      exact .discussed hn hd (hl ▸ Nat.lt_of_not_le hlt) ⟨_, _, op, hop, rfl⟩ ⟨_, _, ag, hag, rfl⟩
        (recordedUpdate_ok rfl he)
  · -- abort
    simp only [bind_ok, pure_ok, Sum.inr.injEq, command.injEq] at h
    rcases h with ⟨e, he, _, rfl⟩
    exact .final hn (by decide) (recordedUpdate_ok rfl he)
  · simp only [Except.ok.injEq, reduceCtorEq] at h

/-- What the loop over the answers leads to. -/
theorem reviewLoop_command {r : GateRead} (hn : entryAttempt (s.entryOf c.phase) = .ok r.attempt)
    (hk : reviseCount (s.entryOf c.phase) = .ok r.revisions)
    (hd : checkpointPhaseDialogue env (channelJson s.dialogue) c.phase r.attempt = .ok r.dialogue)
    (hl : r.limits = s.cfg.limits) :
    ∀ (loops : Nat) (error : Option String) (resumes : List Json),
      reviewLoop env c r loops error resumes = .ok (.command goto u) → GateStep env s c.phase u
  | 0, _, _, h => by
    simp only [reviewLoop, failReview, Except.ok.injEq, command.injEq] at h
    exact h.2 ▸ .failed hn
  | _ + 1, _, [], h => by
    simp only [reviewLoop, Except.ok.injEq, reduceCtorEq] at h
  | loops + 1, _, resume :: rest, h => by
    simp only [reviewLoop, bind_ok] at h
    rcases h with ⟨next, hnext, h⟩
    cases next with
    | inl error => exact reviewLoop_command hn hk hd hl loops _ rest h
    | inr outcome =>
      simp only [pure_ok] at h
      subst h
      exact actOnDecision_command hn hk hd hl hnext

theorem outputGate_command {resumes : List Json}
    (h : outputGate env s c resumes = .ok (.command goto u)) : GateStep env s c.phase u := by
  unfold outputGate at h
  split at h
  · simp only [Except.ok.injEq, command.injEq] at h
    exact h.2 ▸ .silent
  · simp only [bind_ok] at h
    rcases h with ⟨n, hn, k, hk, _, _, _, _, _, _, _, _, d, hd, h⟩
    split at h
    · simp only [failReview, pure_ok, command.injEq] at h
      exact h.2 ▸ .failed hn
    · exact reviewLoop_command (r := ⟨_, _, _, _, _, _⟩) hn hk hd rfl _ _ _ h

end Command

end Apex.Graphs
