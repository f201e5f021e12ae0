import Apex.Graphs.Pipeline.AnalysisPhase

/-!
# What A Step Of An Analysis May Do

A step is followed along its requests. What a worker knows is the checkpoint it works
from, the reservation it has committed and not used, the submission it waits for, the
jobs it was told of and the rows it was asked to retry; a submission is only called with
an unused reservation, and a row is only left with a job that was told for its key.

## Main definitions

* `Worked`, `Continues`: How a row, and a state, may be left.
* `analysisDiscipline`: What a worker may ask, and what it learns.

## Theorems

* `analysisStep_follows`, `analysisRecovery_follows`: Both nodes keep the discipline.
-/

namespace Apex.Graphs

open List Option
open Services

open Apex.Action hiding ask

/-- What a worker knows: its checkpoint, its unused reservation, the submission it waits for,
    the jobs of keys, and the rows it was asked to submit again. -/
structure AnalysisSeat where
  base : Option AnalysisState
  held : Option NativeAnalysisScope
  posted : Option NativeAnalysisScope
  jobs : List (String × String)
  retried : List LedgerRow

structure Names (state : AnalysisState) (scope : NativeAnalysisScope) : Prop where
  threadId : scope.threadId = state.threadId
  attempt : scope.phaseAttempt = state.attempt
  row : ∃ ledger row, state.ledger = some ledger ∧ row ∈ ledger ∧
    row.connectionId = scope.connectionId ∧ row.idempotencyKey = scope.idempotencyKey

/-- A row after a step: its key is the same, and a new job of a native analysis was told for
    the key. -/
structure Worked (seat : AnalysisSeat) (row row' : LedgerRow) : Prop where
  tool : row'.tool = row.tool
  connectionId : row'.connectionId = row.connectionId
  key : row'.idempotencyKey = row.idempotencyKey
  request : row'.requestJson = row.requestJson
  job : row'.jobId = row.jobId ∨
    (row.tool = .internalRca → ∀ j, row'.jobId = some j → (row.idempotencyKey, j) ∈ seat.jobs)

/-- A row after a retry that authorizes another submission. -/
structure Renewed (env : AnalysisEnv) (seat : AnalysisSeat) (row row' : LedgerRow) : Prop where
  retried : row ∈ seat.retried
  tool : row'.tool = row.tool
  connectionId : row'.connectionId = row.connectionId
  key : row'.idempotencyKey = row.nextKey env
  request : row.requestJson = none → row'.requestJson = none
  job : row'.jobId = none

/-- A state that is checkpointed after another: at most one row is different. -/
structure Continues (env : AnalysisEnv) (seat : AnalysisSeat) (state state' : AnalysisState) :
    Prop where
  threadId : state'.threadId = state.threadId
  attempt : state'.attempt = state.attempt
  ledger : state'.ledger = state.ledger ∨ ∃ ledger i row row', state.ledger = some ledger ∧
    ledger[i]? = some row ∧ state'.ledger = some (ledger.set i row') ∧
    (Worked seat row row' ∨ Renewed env seat row row')

def RecoveryDecision.isRetry : RecoveryDecision → Bool
  | reportAgain _ => false
  | decided action _ => action == "retry"

/-- The row that an operator lets submit again. -/
def retriedRow? (env : AnalysisEnv) (state : AnalysisState) (resumes : List Json) :
    Option LedgerRow :=
  match failedRow? (state.ledger.getD []) with
  | none => none
  | some failed =>
    match recoveryDecision env state (some failed.2) (recoveryReason env state (some failed.2))
        resumes with
    | .error _ => none
    | .ok decision => if decision.isRetry && failed.2.flagged then some failed.2 else none

def replyJob? : Except AnalysisExc (Dict Json) → Option String
  | .error _ => none
  | .ok raw => textOf? (raw.value "analysis_id")

namespace AnalysisSeat

/-- The seat of a worker that learned of a job. -/
def learned (seat : AnalysisSeat) (key : String) : Option String → AnalysisSeat
  | none => seat
  | some jobId => { seat with jobs := (key, jobId) :: seat.jobs }

def told (env : AnalysisEnv) (seat : AnalysisSeat) : (r : AnalysisRequest) → r.Answer → AnalysisSeat
  | .claim scope, .told true _ => { seat with held := some scope }
  | .claim scope, .told false (some receipt) => seat.learned scope.idempotencyKey receipt.jobId
  | .post scope, _ => { seat with held := none, posted := some scope }
  | .reply scope, a => { seat with posted := none }.learned scope.idempotencyKey (replyJob? a)
  | .resumes state, a =>
    match retriedRow? env state a with
    | none => seat
    | some row => { seat with retried := row :: seat.retried }
  | _, _ => seat

def allows (env : AnalysisEnv) (seat : AnalysisSeat) : AnalysisRequest → Prop
  | .post scope => seat.held = some scope ∧ ∃ state, seat.base = some state ∧ Names state scope
  | .reply scope => seat.posted = some scope
  | .record scope jobId => (scope.idempotencyKey, jobId) ∈ seat.jobs
  | .resumes state => seat.base = some state
  | .save update => ∃ state, seat.base = some state ∧ Continues env seat state update.state
  | _ => True

end AnalysisSeat

def analysisDiscipline (env : AnalysisEnv) :
    Discipline AnalysisRequest AnalysisRequest.Answer AnalysisSeat where
  allowed := AnalysisSeat.allows env
  possible _ _ _ := True
  move := AnalysisSeat.told env

variable {seat : AnalysisSeat} {key : String}

theorem learned_base (j : Option String) :
    (seat.learned key j).base = seat.base := by
  cases j with
  | none => rfl
  | some _ => rfl

theorem mem_learned {j : String} :
    (key, j) ∈ (seat.learned key (some j)).jobs := mem_cons_self

section Rows

variable {seat : AnalysisSeat} {row : LedgerRow}

theorem worked_refl : Worked seat row row := ⟨rfl, rfl, rfl, rfl, Or.inl rfl⟩

variable {j : String} {f : Failure} {started : Bool}

theorem worked_queuedAs (h : (row.idempotencyKey, j) ∈ seat.jobs) :
    Worked seat row (row.queuedAs j) := by
  refine ⟨rfl, rfl, rfl, rfl, Or.inr fun _ j' hj => ?_⟩
  rw [← some.inj hj]
  exact h

theorem worked_connector (htool : row.tool ≠ .internalRca) :
    Worked seat row (row.queuedAs j) :=
  ⟨rfl, rfl, rfl, rfl, Or.inr fun h => absurd h htool⟩

theorem worked_after {env : AnalysisEnv} (h : Worked seat row f.row) :
    Worked seat row (f.rowAfter env) := by
  rcases h with ⟨htool, hconn, hkey, hreq, hjob⟩
  unfold Failure.rowAfter
  split
  · exact ⟨htool, hconn, hkey, hreq, hjob⟩
  · split
    · exact ⟨htool, hconn, hkey, hreq, hjob⟩
    · exact ⟨htool, hconn, hkey, hreq, hjob⟩

theorem raisingWith_ok {α : Type} {x : Except AnalysisExc α} {a : α}
    (h : raisingWith row started x = .ok a) : x = .ok a := by
  cases x with
  | ok b => exact congrArg Except.ok (Except.ok.inj h)
  | error e => cases h

theorem raisingWith_error {α : Type} {x : Except AnalysisExc α}
    (h : raisingWith row started x = .error f) : f.row = row := by
  cases x with
  | ok b => cases h
  | error e => rw [← Except.error.inj h]

end Rows

section Steps

variable {env : AnalysisEnv} {cfg : ReportingConfig} {state : AnalysisState} {request : Dict Json}
  {row : LedgerRow} {seat : AnalysisSeat}

/-- What a step of a row promises, whether it returns or raises. -/
def LeavesRow (state : AnalysisState) (row : LedgerRow) (seat : AnalysisSeat) :
    Except Failure (LedgerRow × List ArtifactRef) → Prop :=
  Program.either (fun seat out => seat.base = some state ∧ Worked seat row out.1)
    (fun seat f => seat.base = some state ∧ Worked seat row f.row) seat

variable {started : Bool} {scope : NativeAnalysisScope} {ledger : List LedgerRow}

theorem leavesRow_raised {α : Type} {x : Except AnalysisExc α} {f : Failure}
    (hbase : seat.base = some state) (h : raisingWith row started x = .error f) :
    LeavesRow state row seat (.error f) := by
  refine ⟨hbase, ?_⟩
  rw [raisingWith_error h]
  exact worked_refl

theorem raising_follows {α : Type} {x : Except AnalysisExc α}
    {f : α → AnalysisAction Failure (LedgerRow × List ArtifactRef)} (hbase : seat.base = some state)
    (h : ∀ a, x = .ok a → (f a).run.follows (analysisDiscipline env) (LeavesRow state row) seat) :
    (settle (raisingWith row started x) >>= f).run.follows (analysisDiscipline env)
      (LeavesRow state row) seat :=
  settle_bind_either (fun a ha => h a (raisingWith_ok ha)) fun _ hf => leavesRow_raised hbase hf

variable {row' : LedgerRow} {job : AnalysisJob} {raw : Option (Dict Json)}

theorem raising_worked {α : Type} {x : Except AnalysisExc α}
    {f : α → AnalysisAction Failure (LedgerRow × List ArtifactRef)} (hbase : seat.base = some state)
    (hworked : Worked seat row row')
    (h : ∀ a, x = .ok a → (f a).run.follows (analysisDiscipline env) (LeavesRow state row) seat) :
    (settle (raisingWith row' started x) >>= f).run.follows (analysisDiscipline env)
      (LeavesRow state row) seat := by
  refine settle_bind_either (fun a ha => h a (raisingWith_ok ha)) fun e he => ⟨hbase, ?_⟩
  rw [raisingWith_error he]
  exact hworked

theorem quiet_follows {ε β : Type} {r : AnalysisRequest} {R : AnalysisSeat → Except ε β → Prop}
    {f : r.Answer → AnalysisAction ε β} (hallows : seat.allows env r)
    (htold : ∀ a, seat.told env r a = seat)
    (h : ∀ a, (f a).run.follows (analysisDiscipline env) R seat) :
    (askAnalysis r >>= f).run.follows (analysisDiscipline env) R seat := by
  refine Program.follows_run_ask.mpr ⟨hallows, fun a _ => ?_⟩
  have hmove : (analysisDiscipline env).move seat r a = seat := htold a
  rw [hmove]
  exact h a

theorem finished_follows {α : Type} {x : Except AnalysisExc α}
    {f : α → LedgerRow × List ArtifactRef} (hbase : seat.base = some state)
    (hworked : Worked seat row row') (h : ∀ a, x = .ok a → Worked seat row (f a).1) :
    (settle (f <$> raisingWith row' started x) :
      AnalysisAction Failure (LedgerRow × List ArtifactRef)).run.follows (analysisDiscipline env)
      (LeavesRow state row) seat := by
  cases x with
  | ok a => exact ⟨hbase, h a rfl⟩
  | error e => exact ⟨hbase, hworked⟩

theorem nativeJob_replyJob {reply : Except AnalysisExc (Dict Json)}
    (h : (reply >>= nativeJob env) = .ok job) : replyJob? reply = some job.jobId := by
  rcases bind_ok.mp h with ⟨raw, rfl, hjob⟩
  rw [replyJob?, modelValidate_jobId hjob]
  rfl

section

variable (hbase : seat.base = some state)

include hbase

theorem postNative_follows (hheld : seat.held = some scope)
    (hnames : Names state scope) (hkey : scope.idempotencyKey = row.idempotencyKey) :
    (postNative env scope row).run.follows (analysisDiscipline env) (LeavesRow state row) seat := by
  refine ask_bind_follows ⟨hheld, state, hbase, hnames⟩ fun _ _ => ?_
  refine ask_bind_follows rfl fun reply _ => ?_
  have hnext : ∀ j, (AnalysisSeat.learned { seat with held := none, posted := none }
      scope.idempotencyKey j).base = some state := fun j => (learned_base j).trans hbase
  refine raising_follows (hnext _) fun job hjob => ?_
  -- The job is that of the reply, so it was told for the key.
  have hreply := nativeJob_replyJob hjob
  have htold : (row.idempotencyKey, job.jobId) ∈ (AnalysisSeat.learned
      { seat with held := none, posted := none } scope.idempotencyKey (replyJob? reply)).jobs := by
    rw [hreply, ← hkey]
    exact mem_learned
  refine raising_worked (hnext _) (worked_queuedAs htold) fun validated hvalidated => ?_
  refine quiet_follows ?_ (fun _ => rfl) fun answer => ?_
  · change (scope.idempotencyKey, validated.jobId) ∈ _
    rw [hkey, validJob_jobId hvalidated]
    exact htold
  · exact finished_follows (hnext _) (worked_queuedAs htold) fun _ _ => worked_queuedAs htold

theorem submitNative_follows (hnames : Names state scope)
    (hkey : scope.idempotencyKey = row.idempotencyKey) :
    (submitNative env scope row).run.follows (analysisDiscipline env) (LeavesRow state row) seat := by
  refine ask_bind_follows trivial fun answer _ => ?_
  have hbase' : ((analysisDiscipline env).move seat (.claim scope) answer).base = some state := by
    cases answer with
    | lost => exact hbase
    | told inserted receipt =>
      cases inserted with
      | true => exact hbase
      | false =>
        cases receipt with
        | none => exact hbase
        | some receipt => exact (learned_base _).trans hbase
  refine raising_follows hbase' fun received hreceived => ?_
  cases received with
  | none =>
    rcases claimOutcome_none hreceived with ⟨receipt, rfl⟩
    exact postNative_follows hbase rfl hnames hkey
  | some jobId =>
    rcases claimOutcome_some hreceived with ⟨receipt, rfl, hjob⟩
    refine ⟨hbase', worked_queuedAs ?_⟩
    change (row.idempotencyKey, jobId) ∈ (seat.learned scope.idempotencyKey receipt.jobId).jobs
    rw [hjob, ← hkey]
    exact mem_learned

theorem askResult_follows {jobId : String}
    (hworked : Worked seat row row') :
    (askResult env row' raw jobId).run.follows (analysisDiscipline env)
      (Program.either (fun seat _ => seat.base = some state ∧ Worked seat row row')
        fun seat f => seat.base = some state ∧ Worked seat row f.row) seat := by
  have hraised : ∀ x : Except AnalysisExc AnalysisResult,
      (settle (raisingWith row' false x) : AnalysisAction Failure AnalysisResult).run.follows
        (analysisDiscipline env)
        (Program.either (fun seat _ => seat.base = some state ∧ Worked seat row row')
          fun seat f => seat.base = some state ∧ Worked seat row f.row) seat := by
    intro x
    cases x with
    | ok a => exact ⟨hbase, hworked⟩
    | error e => exact ⟨hbase, hworked⟩
  cases raw with
  | some raw => exact hraised _
  | none => exact quiet_follows trivial (fun _ => rfl) fun answer => hraised answer

theorem collectResult_follows {result : AnalysisResult}
    (hworked : Worked seat row row') :
    (collectResult env cfg request row' result).run.follows (analysisDiscipline env)
      (LeavesRow state row) seat := by
  refine raising_worked hbase hworked fun _ _ => ?_
  refine quiet_follows trivial (fun _ => rfl) fun resolved => ?_
  refine raising_worked hbase hworked fun storeId _ => ?_
  refine raising_worked hbase hworked fun runId _ => ?_
  refine quiet_follows trivial (fun _ => rfl) fun persisted => ?_
  refine raising_worked hbase hworked fun stored _ => ?_
  refine quiet_follows trivial (fun _ => rfl) fun completedAt => ?_
  rcases hworked with ⟨htool, hconn, hkey, hreq, hjob⟩
  exact ⟨hbase, htool, hconn, hkey, hreq, hjob⟩

theorem afterJob_follows :
    (afterJob env cfg request row raw job).run.follows (analysisDiscipline env) (LeavesRow state row)
      seat := by
  refine raiseWhen_bind_either (fun _ => ?_) fun _ => ⟨hbase, worked_refl⟩
  refine raiseWhen_bind_either (fun _ => ?_) fun _ => ⟨hbase, rfl, rfl, rfl, rfl, Or.inl rfl⟩
  have hcollecting : ∀ seat, Worked seat row { row with status := .collecting } :=
    fun _ => ⟨rfl, rfl, rfl, rfl, Or.inl rfl⟩
  split
  · refine bind_either (askResult_follows hbase (hcollecting seat)) fun l result h => ?_
    exact collectResult_follows h.1 (hcollecting l)
  · refine quiet_follows trivial (fun _ => rfl) fun _ => ?_
    exact ⟨hbase, rfl, rfl, rfl, rfl, Or.inl rfl⟩

end

theorem nativeScope_names {runId : String} (hledger : state.ledger = some ledger)
    (hrow : row ∈ ledger) (hrun : request.value "run_id" = .str state.threadId)
    (h : nativeScope env cfg state request row runId = .ok scope) :
    Names state scope ∧ scope.idempotencyKey = row.idempotencyKey := by
  rcases bind_ok.mp h with ⟨threadId, hthread, h⟩
  rcases bind_ok.mp h with ⟨_, _, h⟩
  rw [hrun] at hthread
  rw [← Except.ok.inj h, ← Except.ok.inj hthread]
  exact ⟨⟨rfl, rfl, ledger, row, hledger, hrow, rfl, rfl⟩, rfl⟩

theorem nativeStep_follows (hbase : seat.base = some state) (hledger : state.ledger = some ledger)
    (hrow : row ∈ ledger) (hrun : request.value "run_id" = .str state.threadId) :
    (nativeStep env cfg state request row).run.follows (analysisDiscipline env) (LeavesRow state row)
      seat := by
  refine raising_follows hbase fun runId _ => ?_
  split
  · refine quiet_follows trivial (fun _ => rfl) fun reply => ?_
    refine raising_follows hbase fun raw _ => raising_follows hbase fun job _ => ?_
    exact afterJob_follows hbase
  · refine raising_follows hbase fun scope hscope => ?_
    rcases nativeScope_names hledger hrow hrun hscope with ⟨hnames, hkey⟩
    exact submitNative_follows hbase hnames hkey

theorem connectorStep_follows (hbase : seat.base = some state) (htool : row.tool ≠ .internalRca) :
    (connectorStep env cfg request row).run.follows (analysisDiscipline env) (LeavesRow state row)
      seat := by
  unfold connectorStep
  split
  · refine quiet_follows trivial (fun _ => rfl) fun answer => ?_
    exact raising_follows hbase fun job _ => afterJob_follows hbase
  · refine quiet_follows trivial (fun _ => rfl) fun cap => ?_
    refine raising_follows hbase fun _ _ => quiet_follows trivial (fun _ => rfl) fun answer => ?_
    exact finished_follows hbase worked_refl fun _ _ => worked_connector htool

theorem submissionRequest_run (hrequest : row.requestJson = none)
    (h : submissionRequest env cfg state row = .ok request) :
    request.value "run_id" = .str state.threadId := by
  rw [submissionRequest, hrequest] at h
  rcases bind_ok.mp h with ⟨evidence, _, h⟩
  rcases bind_ok.mp h with ⟨_, _, h⟩
  rw [← Except.ok.inj h]
  simp only [Dict.value, Dict.get?_set, Dict.get?_single, String.reduceEq, if_true, if_false,
    getD_some]

theorem stepRow_follows (hbase : seat.base = some state) (hledger : state.ledger = some ledger)
    (hrow : row ∈ ledger) (hrequest : row.requestJson = none) :
    (stepRow env cfg state row).run.follows (analysisDiscipline env) (LeavesRow state row) seat := by
  refine raising_follows hbase fun request hsubmission => ?_
  have hrun := submissionRequest_run hrequest hsubmission
  split
  · refine quiet_follows trivial (fun _ => rfl) fun time => ?_
    exact ⟨hbase, rfl, rfl, rfl, rfl, Or.inl rfl⟩
  · refine quiet_follows trivial (fun _ => rfl) fun time => ?_
    refine raiseWhen_bind_either (fun _ => ?_) fun _ => ⟨hbase, worked_refl⟩
    refine quiet_follows trivial (fun _ => rfl) fun resolved => ?_
    refine raising_follows hbase fun _ _ => ?_
    split
    · exact nativeStep_follows hbase hledger hrow hrun
    · rename_i hnative
      exact connectorStep_follows hbase fun htool => hnative (by rw [htool]; rfl)

end Steps

section Nodes

variable {env : AnalysisEnv} {cfg : ReportingConfig} {state : AnalysisState} {seat : AnalysisSeat}

variable {row row' : LedgerRow} {ledger : List LedgerRow}

theorem find_row {p : LedgerRow × Nat → Bool} {i : Nat}
    (h : (ledger.zipIdx.find? p).map Prod.swap = some (i, row)) : ledger[i]? = some row := by
  rcases map_eq_some_iff.mp h with ⟨entry, hfind, hswap⟩
  have hmem := mem_of_find?_eq_some hfind
  rw [← Prod.swap_swap entry, hswap] at hmem
  exact mem_zipIdx_iff_getElem?.mp hmem

def Updates (env : AnalysisEnv) (state : AnalysisState) (seat : AnalysisSeat) (u : NodeUpdate) :
    Prop :=
  seat.base = some state ∧ Continues env seat state u.state

theorem analysisStep_follows (hbase : seat.base = some state)
    (hrequest : ∀ ledger, state.ledger = some ledger → ∀ row ∈ ledger, row.requestJson = none) :
    (analysisStep env cfg state).run.follows (analysisDiscipline env)
      (whenOk (Updates env state)) seat := by
  refine settle_bind_follows fun ledger hledger => ?_
  refine settle_bind_follows fun next hnext => ?_
  refine raiseWhen_bind_follows fun _ => ?_
  have hsome : state.ledger = some ledger := someOr_ok.mp hledger
  have hat : ledger[next.1]? = some next.2 := find_row (someOr_ok.mp hnext)
  have hmem : next.2 ∈ ledger := mem_of_getElem? hat
  refine bind_follows (m := fun seat (out : LedgerRow × List ArtifactRef) =>
    seat.base = some state ∧ Worked seat next.2 out.1) ?_ fun l out h => ?_
  · refine handling_follows (stepRow_follows hbase hsome hmem (hrequest ledger hsome _ hmem)) ?_
    intro l f hf
    unfold afterFailure
    split
    · exact quiet_follows trivial (fun _ => rfl) fun _ => whenOk_ok ⟨hf.1, worked_after hf.2⟩
    · exact whenOk_ok ⟨hf.1, worked_after hf.2⟩
  · refine whenOk_ok ⟨h.1, rfl, rfl, Or.inr ?_⟩
    exact ⟨ledger, next.1, next.2, out.1, hsome, hat, rfl, Or.inl h.2⟩

theorem retried_worked (h : row.retried env = .ok row')
    (hflagged : row.flagged = false) : Worked seat row row' := by
  rw [LedgerRow.retried, if_neg (by rw [hflagged]; exact Bool.false_ne_true)] at h
  rcases map_ok.mp h with ⟨_, hrow, rfl⟩
  rw [Except.ok.injEq] at hrow
  subst hrow
  exact ⟨rfl, rfl, rfl, rfl, Or.inl rfl⟩

theorem retried_renewed (h : row.retried env = .ok row') (hflagged : row.flagged = true)
    (hmem : row ∈ seat.retried) : Renewed env seat row row' := by
  rw [LedgerRow.retried, if_pos hflagged] at h
  rcases map_ok.mp h with ⟨renewed, hrenewed, rfl⟩
  rcases bind_ok.mp hrenewed with ⟨request, hrequest, hok⟩
  rw [← Except.ok.inj hok]
  refine ⟨hmem, rfl, rfl, rfl, fun hnone => ?_, rfl⟩
  rw [LedgerRow.requestAfter, hnone] at hrequest
  exact (Except.ok.inj hrequest).symm

variable {resumes : List Json}

theorem told_resumes_none (hrow : retriedRow? env state resumes = none) :
    seat.told env (.resumes state) resumes = seat := by
  simp only [AnalysisSeat.told, hrow]

theorem told_resumes_some (hrow : retriedRow? env state resumes = some row) :
    seat.told env (.resumes state) resumes = { seat with retried := row :: seat.retried } := by
  simp only [AnalysisSeat.told, hrow]

theorem retry_continues {decision : RecoveryDecision} {failed : Nat × LedgerRow}
    (hledger : state.ledger = some ledger) (hfailed : failedRow? ledger = some failed)
    (hdecision : recoveryDecision env state (some failed.2)
      (recoveryReason env state (some failed.2)) resumes = .ok decision)
    (hretry : decision.isRetry = true) (h : failed.2.retried env = .ok row') :
    Continues env (seat.told env (.resumes state) resumes) state
      { state with ledger := state.ledger.map fun ledger => ledger.set failed.1 row' } := by
  refine ⟨rfl, rfl, Or.inr ⟨ledger, failed.1, failed.2, row', hledger, find_row hfailed, ?_, ?_⟩⟩
  · change state.ledger.map (fun ledger => ledger.set failed.1 row') = _
    rw [hledger]
    rfl
  · cases hflagged : failed.2.flagged with
    | false => exact Or.inl (retried_worked h hflagged)
    | true =>
      refine Or.inr (retried_renewed h hflagged ?_)
      have hrow : retriedRow? env state resumes = some failed.2 := by
        rw [retriedRow?, hledger, getD_some, hfailed]
        change (match recoveryDecision env state (some failed.2)
          (recoveryReason env state (some failed.2)) resumes with
          | .error _ => none
          | .ok decision => if decision.isRetry && failed.2.flagged then some failed.2 else none) = _
        rw [hdecision]
        change (if decision.isRetry && failed.2.flagged then some failed.2 else none) = _
        rw [hretry, hflagged]
        rfl
      rw [told_resumes_some hrow]
      exact mem_cons_self

theorem told_resumes_base :
    (seat.told env (.resumes state) resumes).base = seat.base := by
  cases hrow : retriedRow? env state resumes with
  | none => rw [told_resumes_none hrow]
  | some row => rw [told_resumes_some hrow]

theorem analysisRecovery_follows {actor : String} (hbase : seat.base = some state) :
    (analysisRecovery env actor state).run.follows (analysisDiscipline env)
      (whenOk (Updates env state)) seat := by
  refine raiseWhen_bind_follows fun _ => ?_
  refine ask_bind_follows hbase fun resumes _ => ?_
  refine settle_bind_follows fun decision hdecision => ?_
  have hbase' : (seat.told env (.resumes state) resumes).base = some state :=
    told_resumes_base.trans hbase
  cases decision with
  | reportAgain revision => exact whenOk_ok ⟨hbase', rfl, rfl, Or.inl rfl⟩
  | decided action note =>
    rw [carryOut]
    split
    · rename_i hretry
      refine settle_bind_follows fun failed hfailed => ?_
      refine settle_bind_follows fun row' hrow' => whenOk_ok ⟨hbase', ?_⟩
      have hsome := someOr_ok.mp hfailed
      rw [hsome] at hdecision
      cases hledger : state.ledger with
      | none =>
        rw [hledger] at hsome
        cases hsome
      | some ledger =>
        rw [hledger] at hsome
        exact hledger ▸ retry_continues hledger hsome hdecision (beq_iff_eq.mpr hretry) hrow'
    · split
      · refine quiet_follows trivial (fun _ => rfl) fun time => ?_
        exact whenOk_ok ⟨hbase', rfl, rfl, Or.inl rfl⟩
      · split
        · exact whenOk_ok ⟨hbase', rfl, rfl, Or.inl rfl⟩
        · exact throw_follows

theorem checkpointed_follows {x : AnalysisAction AnalysisExc NodeUpdate}
    (h : x.run.follows (analysisDiscipline env) (whenOk (Updates env state)) seat) :
    (checkpointed x).run.follows (analysisDiscipline env) (whenOk fun _ _ => True) seat :=
  bind_follows h fun _ _ hu => ask_follows ⟨state, hu⟩ fun _ _ => whenOk_ok trivial

end Nodes

end Apex.Graphs
