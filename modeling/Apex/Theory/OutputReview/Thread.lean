import Apex.Theory.OutputReview.Records

/-!
# The Thread Around a Review

A thread is planned, its nodes write their updates, and its output gates are
answered, in any order. What the other nodes write is said by what they have in
common: an update of the entry of their own phase, under the attempt they read,
with at most the record of a decision of another gate. Only the recovery of a
report touches the revision count as well.

Every update goes through the reducers. For a review three things about an entry
matter: its attempt, its records and its revision count. `EntryMove` says what
one superstep does to them.

## Main definitions

* `ReviewEvent`, `ReviewStep`, `ReviewRun`: What happens on a thread.
* `OtherUpdate`: What a node other than the output gate writes.
* `EntryMove`: What one superstep does to an entry.

## Theorems

* `entryMove_of_store`: The reducers do nothing else.
-/

namespace Apex.Graphs

open List Option
open Domain

def otherDecisions : List (String × String) :=
  [("prompt_review", "approve"), ("prompt_review", "skip_phase"), ("prompt_review", "abort"),
    ("human_completion", "complete"), ("human_completion", "abort")]

structure OtherUpdate (env : GateEnv) (s : ReviewState) (p : Phase) (u : PhaseEntry) : Prop where
  attempt : ∃ n, entryAttempt (s.entryOf p) = .ok n ∧ u.value "attempt" = .int n ∧
    (u.get? "approvals" = none ∨ ∃ d ∈ otherDecisions, ∃ v, MadeRecord env p n d.1 d.2 0 v ∧
      u.get? "approvals" = some (.list [v]))
  count : u.get? "revise_count" = none

def retryCount (entry : PhaseEntry) : Option Nat :=
  match (entry.get? "revise_count").getD (.int 0) with
  | .int n => if 0 ≤ n ∧ n < 10 then some (n.toNat + 1) else none
  | _ => none

inductive ReviewEvent where
  | plan (cfg : PipelineConfigurable) (seeds : List (Phase × PhaseEntry))
  | node (phase : Phase) (update : PhaseEntry)
  | retryReport (update : PhaseEntry)
  | review (phase : Phase) (update : GateUpdate)

/-- The updates of the entries that come with an event. -/
def ReviewEvent.updates : ReviewEvent → List (Phase × PhaseEntry)
  | plan _ seeds => seeds
  | node phase update => [(phase, update)]
  | retryReport update => [(.reporting, update)]
  | review phase update => (update.entry.map (fun e => (phase, e))).toList

/-- The update of the dialogue that comes with an event. -/
def ReviewEvent.dialogue : ReviewEvent → Option (List Json)
  | plan _ _ => some []
  | node _ _ => none
  | retryReport _ => none
  | review _ update => update.dialogue

def ReviewEvent.cfg (cfg : PipelineConfigurable) : ReviewEvent → PipelineConfigurable
  | plan cfg _ => cfg
  | _ => cfg

/-- Updates of entries as an update of the channel. -/
def updatesJson (updates : List (Phase × PhaseEntry)) : Json :=
  .ofDict (dictOf (updates.map (fun u => (u.1.value, .ofDict u.2))))

/-- Store updates of entries, if there are any. -/
def storeEntries (env : GateEnv) (s : ReviewState) (updates : List (Phase × PhaseEntry)) :
    Except String PhaseResults :=
  if updates.isEmpty then .ok s.phaseResults
  else mergePhaseResults env.toReducerEnv s.phaseResults.toJson (updatesJson updates)

/-- Store an update of the dialogue, if there is one. -/
def storeDialogue (env : GateEnv) (s : ReviewState) :
    Option (List Json) → Except String (List StableEntry)
  | none => .ok s.dialogue
  | some entries => mergeDialogue env.toReducerEnv (channelJson s.dialogue) (.list entries)

/-- Whether an event can happen on a thread: what is written is what the code of
    the node writes there. -/
inductive Occurs (env : GateEnv) (s : ReviewState) : ReviewEvent → Prop
  | plan {cfg : PipelineConfigurable} {seeds : List (Phase × PhaseEntry)}
      {external : Option ExternalSeed} (hlimits : cfg.limits.reviewsOk = true)
      (hseeds : seedPlan s cfg.plannedPhases external = .ok seeds) : Occurs env s (.plan cfg seeds)
  | node {p : Phase} {u : PhaseEntry} (hu : OtherUpdate env s p u) : Occurs env s (.node p u)
  | retryReport {n : Int} {k : Nat} (hn : entryAttempt (s.entryOf .reporting) = .ok n)
      (hk : retryCount (s.entryOf .reporting) = some k) :
      Occurs env s (.retryReport (updateOf n [("status", .str PhaseStatus.running.value),
        ("report_failure", .bool false), ("revise_count", .int k)]))
  | review {c : GateCall} {resumes : List Json} {goto : GateTarget} {u : GateUpdate}
      (hgate : outputGate env s c resumes = .ok (.command goto u)) :
      Occurs env s (.review c.phase u)

/-- One superstep of a thread. The artifacts are whatever the nodes leave. -/
structure ReviewStep (env : GateEnv) (s : ReviewState) (e : ReviewEvent) (t : ReviewState) :
    Prop where
  occurs : Occurs env s e
  cfg : t.cfg = e.cfg s.cfg
  entries : storeEntries env s e.updates = .ok t.phaseResults
  dialogue : storeDialogue env s e.dialogue = .ok t.dialogue

inductive ReviewRun (env : GateEnv) (s : ReviewState) : List ReviewEvent → ReviewState → Prop
  | nil : ReviewRun env s [] s
  | snoc {es : List ReviewEvent} {t u : ReviewState} {e : ReviewEvent}
      (hrun : ReviewRun env s es t) (hstep : ReviewStep env t e u) :
      ReviewRun env s (es ++ [e]) u

def approvalsIn (env : GateEnv) (e : PhaseEntry) : List StableEntry :=
  fieldRecords env.toReducerEnv "approvals" (e.value "approvals")

inductive EntryMove (env : GateEnv) (e : Option PhaseEntry) (u : Option PhaseEntry) :
    Option PhaseEntry → Prop
  | absent (he : e = none) (hu : u = none) : EntryMove env e u none
  | kept {e₀ m : PhaseEntry} (he : e = some e₀) (hu : u = none)
      (hattempt : m.value "attempt" = e₀.value "attempt")
      (hcount : m.value "revise_count" = e₀.value "revise_count")
      (hrecords : approvalsIn env m = approvalsIn env e₀) : EntryMove env e u (some m)
  | merged {e₀ u₀ m : PhaseEntry} (he : e = some e₀) (hu : u = some u₀)
      (hattempt : m.value "attempt" = e₀.value "attempt")
      (hsame : u₀.value "attempt" = e₀.value "attempt")
      (hcount : m.value "revise_count" =
        ((u₀.get? "revise_count").or (e₀.get? "revise_count")).getD .null)
      (hrecords : approvalsIn env m = windowAppend StableEntry.id maxDurableApprovals
        (approvalsIn env e₀) (approvalsIn env u₀)) : EntryMove env e u (some m)
  | replaced {u₀ m : PhaseEntry} (hu : u = some u₀)
      (hattempt : m.value "attempt" = u₀.value "attempt")
      (hnext : ∀ e₀, e = some e₀ → e₀.value "attempt" ≠ u₀.value "attempt" ∧
        notMonotonic (e₀.value "attempt") (u₀.value "attempt") = false)
      (hcount : m.value "revise_count" = u₀.value "revise_count")
      (hrecords : approvalsIn env m = approvalsIn env u₀) : EntryMove env e u (some m)

section Moves

variable {env : GateEnv}

theorem approvals_byId : "approvals" ∈ byIdFields := by decide

theorem approvalsIn_boundedEntry (e : PhaseEntry) :
    approvalsIn env (boundedEntry env.toReducerEnv e) = approvalsIn env e := by
  rw [approvalsIn, fieldRecords, recent_boundedEntry_byId _ e approvals_byId]
  exact distinctRecords_toJson (nodup_fieldRecords _ _ _)

theorem approvalsIn_unionEntry (e u : PhaseEntry) :
    approvalsIn env (unionEntry env.toReducerEnv e (boundedEntry env.toReducerEnv u)) =
      windowAppend StableEntry.id maxDurableApprovals (approvalsIn env e) (approvalsIn env u) := by
  rw [approvalsIn, value_unionEntry_byId _ e u approvals_byId]
  exact fieldRecords_recordsJson (length_rtake_le _ _)
    (windowAppend_nodup StableEntry.id _ _ _ (nodup_fieldRecords _ _ _))

theorem entryMove_validated {phase : String} {u b : PhaseEntry}
    (h : validatedEntry env.toReducerEnv phase (.ofDict u) = .ok b) :
    b = boundedEntry env.toReducerEnv u := by
  rcases (validatedEntry_ok _ _ _ _).mp h with ⟨u', hd, _, hb⟩
  rw [Json.dict?_ofDict, some.injEq] at hd
  subst hd
  exact ((boundedPhaseEntry_ok _ _ _).mp hb).2.symm

theorem count_boundedEntry (u : PhaseEntry) : (boundedEntry env.toReducerEnv u).value "revise_count"
    = u.value "revise_count" := value_boundedEntry _ u (by decide)

theorem attempt_boundedEntry (u : PhaseEntry) : (boundedEntry env.toReducerEnv u).value "attempt"
    = u.value "attempt" := value_boundedEntry _ u (by decide)

theorem entryMove_of_stored {phase : String} {e u : Option PhaseEntry} {o : Option PhaseEntry}
    (h : StoredAt env.toReducerEnv phase (e.map Json.ofDict) (u.map Json.ofDict) o) :
    EntryMove env e u o := by
  cases e with
  | none =>
    cases u with
    | none =>
      cases h
      exact .absent rfl rfl
    | some u =>
      cases h with
      | fresh hb =>
        cases entryMove_validated hb
        exact .replaced rfl (attempt_boundedEntry u) (by simp) (count_boundedEntry u)
          (approvalsIn_boundedEntry u)
  | some e =>
    cases u with
    | none =>
      cases h with
      | inherited hb =>
        cases entryMove_validated hb
        exact .kept rfl rfl (attempt_boundedEntry e) (count_boundedEntry e)
          (approvalsIn_boundedEntry e)
    | some u =>
      cases h with
      | merged hb hd _ hm =>
        cases entryMove_validated hb
        rw [Json.dict?_ofDict, some.injEq] at hd
        subst hd
        rcases (mergePhaseEntry_ok _ _ _ _).mp hm with ⟨_, hcase⟩
        rcases hcase with ⟨hne, hadv, hbound⟩ | ⟨heq, _, _, rfl, _⟩
        · cases ((boundedPhaseEntry_ok _ _ _).mp hbound).2
          rw [attempt_boundedEntry] at hne hadv
          refine .replaced rfl ?_ ?_ ?_ ?_
          · rw [attempt_boundedEntry, attempt_boundedEntry]
          · intro e₀ he₀
            cases he₀
            exact ⟨Ne.symm hne, hadv⟩
          · rw [count_boundedEntry, count_boundedEntry]
          · rw [approvalsIn_boundedEntry, approvalsIn_boundedEntry]
        · rw [attempt_boundedEntry] at heq
          refine .merged rfl rfl ?_ heq ?_ (approvalsIn_unionEntry _ u)
          · rw [value_unionEntry _ _ _ (by decide), get?_boundedEntry_scalar _ u (by decide)]
            simp only [Dict.value] at heq ⊢
            cases hu : u.get? "attempt" with
            | none => rfl
            | some v =>
              rw [hu] at heq
              exact heq
          · rw [value_unionEntry _ _ _ (by decide), get?_boundedEntry_scalar _ u (by decide)]

def updateFor (updates : List (Phase × PhaseEntry)) (p : Phase) : Option PhaseEntry :=
  updates.reverse.lookup p

theorem mem_of_updateFor {updates : List (Phase × PhaseEntry)} {p : Phase} {u : PhaseEntry}
    (h : updateFor updates p = some u) : (p, u) ∈ updates := by
  rw [updateFor, lookup_eq_some_iff] at h
  rcases h with ⟨before, after, h, _⟩
  exact mem_reverse.mp (h ▸ mem_append_right before mem_cons_self)

theorem entryAt_updatesJson (updates : List (Phase × PhaseEntry)) (p : Phase) :
    entryAt (updatesJson updates) p.value = (updateFor updates p).map Json.ofDict := by
  have hlookup : ∀ us : List (Phase × PhaseEntry),
      (us.map (fun u => (u.1.value, Json.ofDict u.2))).lookup p.value =
        (us.lookup p).map Json.ofDict := by
    intro us
    induction us with
    | nil => rfl
    | cons u us ih =>
      rw [map_cons, lookup_cons, lookup_cons, ih]
      by_cases hp : p = u.1
      · rw [beq_iff_eq.mpr hp, beq_iff_eq.mpr (congrArg Phase.value hp)]
        rfl
      · rw [beq_eq_false_iff_ne.mpr hp,
          beq_eq_false_iff_ne.mpr (fun h => hp (Phase.value_injective h))]
  rw [entryAt, updatesJson, Json.dict?_ofDict, bind_some, get?_dictOf, ← map_reverse,
    hlookup, updateFor]

theorem entryMove_of_store {s : ReviewState} {updates : List (Phase × PhaseEntry)}
    {m : PhaseResults} (h : storeEntries env s updates = .ok m) (p : Phase) :
    EntryMove env (s.phaseResults.get? p.value) (updateFor updates p) (m.get? p.value) := by
  unfold storeEntries at h
  split at h
  · rename_i hempty
    rw [Except.ok.injEq] at h
    rw [List.isEmpty_iff.mp hempty, ← h]
    cases he : s.phaseResults.get? p.value with
    | none => exact .absent rfl rfl
    | some e => exact .kept rfl rfl rfl rfl rfl
  · have hstored := (mergePhaseResults_stored h).2 p.value
    rw [entryAt_toJson, entryAt_updatesJson] at hstored
    exact entryMove_of_stored hstored

end Moves

/-- The identifiers the records of an attempt can have. -/
def approvalIds (p : Phase) (n : Int) : List String :=
  otherDecisions.map (fun d => approvalId p n d.1 d.2 0)
    ++ ["approve", "abort"].map (fun action => approvalId p n "phase_review" action 0)
    ++ (List.range 10).map (fun k => approvalId p n "phase_review" "revise" (k + 1))
    ++ (List.range 100).map (fun k => approvalId p n "phase_review" "discuss" (k + 1))

/-- An entry whose attempt, records and revision count are what the nodes write. -/
structure EntrySound (env : GateEnv) (p : Phase) (e : PhaseEntry) (n : Int) : Prop where
  attempt : e.value "attempt" = .int n
  positive : 1 ≤ n
  records : ∀ s ∈ approvalsIn env e, s.id ∈ approvalIds p n
  count : ∃ k, reviseCount e = .ok k ∧ k ≤ 10

structure Sound (env : GateEnv) (s : ReviewState) : Prop where
  limits : s.cfg.limits.reviewsOk = true
  entries : ∀ p e, s.phaseResults.get? p.value = some e → ∃ n, EntrySound env p e n
  nodup : (s.dialogue.map StableEntry.id).Nodup
  length : s.dialogue.length ≤ maxDurableDialogueEntries
  turns : ∀ d ∈ s.dialogue, ∃ q n i role, TurnRead q n i role d ∧
    ∃ e m, s.phaseResults.get? q.value = some e ∧ e.value "attempt" = .int m ∧ n ≤ m

section Soundness

variable {env : GateEnv}

variable {e u : PhaseEntry}

theorem reviseCount_congr {e' : PhaseEntry}
    (h : e'.value "revise_count" = e.value "revise_count") : reviseCount e' = reviseCount e := by
  rw [reviseCount, reviseCount, h]

theorem reviseCount_int {k : Nat} (h : e.value "revise_count" = .int k)
    (hk : k ≤ 10) : reviseCount e = .ok k := by
  simp only [reviseCount, h]
  rw [if_pos (by omega), Int.toNat_natCast]

theorem reviseCount_null (h : e.value "revise_count" = .null) :
    reviseCount e = .ok 0 := by
  simp only [reviseCount, h]

theorem retryCount_some {j : Nat} (h : retryCount e = some j) :
    ∃ k, reviseCount e = .ok k ∧ j = k + 1 ∧ k < 10 := by
  unfold retryCount at h
  split at h
  · rename_i n hn
    split at h
    · rename_i hbound
      rw [some.injEq] at h
      refine ⟨n.toNat, ?_, h.symm, by omega⟩
      cases hget : e.get? "revise_count" with
      | none =>
        rw [hget, getD_none, Json.int.injEq] at hn
        rw [reviseCount_null (by rw [Dict.value, hget]; rfl), ← hn]
        rfl
      | some v =>
        rw [hget, getD_some] at hn
        rw [reviseCount_int (k := n.toNat) (by rw [Dict.value, hget, getD_some, hn,
          Int.toNat_of_nonneg hbound.1]) (by omega)]
    · cases h
  · cases h

theorem approvalsIn_made {p : Phase} {n : Int} {gate action : String} {sequence : Nat} {v : Json}
    (hv : MadeRecord env p n gate action sequence v) (hu : u.get? "approvals" = some (.list [v])) :
    ∃ r, approvalsIn env u = [r] ∧ r.id = approvalId p n gate action sequence ∧ r.toJson = v := by
  rcases hv.identified with ⟨r, hr, hid, hjson⟩
  refine ⟨r, ?_, hid, hjson⟩
  rw [approvalsIn, Dict.value, hu, getD_some, fieldRecords,
    recent_list (show 1 ≤ byIdLimit "approvals" by decide), distinctRecords, records,
    filterMap_cons, hr, filterMap_nil]
  rfl

theorem approvalsIn_none (hu : u.get? "approvals" = none ∨ u.get? "approvals" = some (.list [])) :
    approvalsIn env u = [] := by
  rcases hu with hu | hu
  · rw [approvalsIn, Dict.value, hu, getD_none, fieldRecords, recent_null]
    rfl
  · rw [approvalsIn, Dict.value, hu, getD_some, fieldRecords, recent_list (Nat.zero_le _)]
    rfl

/-- An update whose attempt, records and revision count are what the nodes write. -/
structure UpdateSound (env : GateEnv) (p : Phase) (u : PhaseEntry) (n : Int) : Prop where
  attempt : u.value "attempt" = .int n
  positive : 1 ≤ n
  records : ∀ s ∈ approvalsIn env u, s.id ∈ approvalIds p n
  count : u.get? "revise_count" = none ∨
    ∃ k : Nat, u.get? "revise_count" = some (.int k) ∧ k ≤ 10

theorem entryAttempt_pos {n : Int} (h : entryAttempt e = .ok n) : 1 ≤ n := by
  unfold entryAttempt at h
  split at h
  · rw [Except.ok.injEq] at h
    omega
  · split at h
    · rename_i hbound
      rw [Except.ok.injEq] at h
      exact h ▸ hbound.1
    · cases h
  · cases h

theorem count_sound {m : PhaseEntry} (he : ∃ k, reviseCount e = .ok k ∧ k ≤ 10)
    (hu : u.get? "revise_count" = none ∨ ∃ k : Nat, u.get? "revise_count" = some (.int k) ∧ k ≤ 10)
    (hm : m.value "revise_count" =
      ((u.get? "revise_count").or (e.get? "revise_count")).getD .null) :
    ∃ k, reviseCount m = .ok k ∧ k ≤ 10 := by
  rcases hu with hu | ⟨k, hu, hk⟩
  · rw [hu, none_or] at hm
    rw [reviseCount_congr hm]
    exact he
  · rw [hu, some_or, getD_some] at hm
    exact ⟨k, reviseCount_int hm hk, hk⟩

theorem EntryMove.sound {p : Phase} {e u : Option PhaseEntry} {m : PhaseEntry}
    (h : EntryMove env e u (some m)) (he : ∀ e₀, e = some e₀ → ∃ n, EntrySound env p e₀ n)
    (hu : ∀ u₀, u = some u₀ → ∃ n, UpdateSound env p u₀ n) :
    ∃ n, EntrySound env p m n ∧ (∀ e₀ k, e = some e₀ → e₀.value "attempt" = .int k → k ≤ n) ∧
      (∀ u₀ k, u = some u₀ → u₀.value "attempt" = .int k → k = n) := by
  cases h with
  | @kept e₀ _ he₀ hnone hattempt hcount hrecords =>
    rcases he e₀ he₀ with ⟨n, hsound⟩
    refine ⟨n, ⟨hattempt.trans hsound.attempt, hsound.positive, ?_, ?_⟩, ?_, ?_⟩
    · rw [hrecords]
      exact hsound.records
    · rw [reviseCount_congr hcount]
      exact hsound.count
    · intro e₁ k he₁ hk
      cases he₀.symm.trans he₁
      rw [hsound.attempt, Json.int.injEq] at hk
      omega
    · intro u₀ k hu₀ _
      rw [hnone] at hu₀
      cases hu₀
  | @merged e₀ u₀ _ he₀ hu₀ hattempt hsame hcount hrecords =>
    rcases he e₀ he₀ with ⟨n, hsound⟩
    rcases hu u₀ hu₀ with ⟨n', hupdate⟩
    have hnn : n' = n := by
      have := hupdate.attempt.symm.trans (hsame.trans hsound.attempt)
      rw [Json.int.injEq] at this
      exact this
    subst hnn
    refine ⟨n', ⟨hattempt.trans hsound.attempt, hsound.positive, ?_,
      count_sound hsound.count hupdate.count hcount⟩, ?_, ?_⟩
    · intro r hr
      rw [hrecords] at hr
      rcases appendNew_mem StableEntry.id (mem_of_mem_drop hr) with hr | hr
      · exact hsound.records r hr
      · exact hupdate.records r hr
    · intro e₁ k he₁ hk
      cases he₀.symm.trans he₁
      rw [hsound.attempt, Json.int.injEq] at hk
      omega
    · intro u₁ k hu₁ hk
      cases hu₀.symm.trans hu₁
      rw [hupdate.attempt, Json.int.injEq] at hk
      exact hk.symm
  | @replaced u₀ _ hu₀ hattempt hnext hcount hrecords =>
    rcases hu u₀ hu₀ with ⟨n, hupdate⟩
    refine ⟨n, ⟨hattempt.trans hupdate.attempt, hupdate.positive, ?_, ?_⟩, ?_, ?_⟩
    · rw [hrecords]
      exact hupdate.records
    · rcases hupdate.count with hnone | ⟨k, hk, hle⟩
      · exact ⟨0, reviseCount_null (by rw [hcount, Dict.value, hnone]; rfl), Nat.zero_le _⟩
      · exact ⟨k, reviseCount_int (by rw [hcount, Dict.value, hk]; rfl) hle, hle⟩
    · intro e₀ k he₀ hk
      have hadv := (hnext e₀ he₀).2
      rw [hk, hupdate.attempt] at hadv
      simp only [notMonotonic, bne_eq_false_iff_eq] at hadv
      omega
    · intro u₁ k hu₁ hk
      cases hu₀.symm.trans hu₁
      rw [hupdate.attempt, Json.int.injEq] at hk
      exact hk.symm

end Soundness

end Apex.Graphs
