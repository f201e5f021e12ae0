import Apex.Core.Talk
import Apex.Theory.NativeAnalysis.Desk
import Mathlib.Data.List.Dedup

/-!
# A Native Analysis Is Submitted At Most Once

Under a key the submission is called at most once: the row of the key is a reservation
that only the worker whose transaction inserted it may use. A checkpointed row has a key
that was prepared for its attempt and connection, or one that an operator's retry made of
such a key; so the submissions of an attempt on a connection are bounded by the rows that
were retried.

## Main definitions

* `SubmittedOnce`: What is told of a run.

## Theorems

* `native_analysis_submitted_once`: It holds of every run.
* `submission_called`: A run in which an analysis is submitted.
-/

namespace Apex.Graphs

open List Option
open Domain Services

open Apex.Action hiding ask
open NativeAnalysisScope (idempotencyKey)

variable {ι : Type}

/-- What is told of a run: a key is called at most once, the calls of a target are bounded by
    the rows of it that an operator let submit again, a job is what the call of its key
    returned, a key is bound to one scope, and between two calls of a target there was such a
    retry. -/
structure SubmittedOnce (env : AnalysisEnv) (events : List (AnalysisEvent ι)) (w : AnalysisDesk) :
    Prop where
  once : ((posts events).map idempotencyKey).Nodup
  bounded : ∀ t, (postsOf events t).length ≤ 1 + (retriedRows env events t).dedup.length
  flagged : ∀ t, ∀ row ∈ retriedRows env events t, row.flagged = true
  replied : ((replies events).map Prod.fst).Nodup
  rows : ∀ row ∈ w.submissions, ∀ j, row.jobId = some j →
    (row.idempotencyKey, some j) ∈ replies events
  ledgers : ∀ c ∈ w.checkpoints, ∀ ledger, c.ledger = some ledger → ∀ row ∈ ledger,
    row.tool = .internalRca → ∀ j, row.jobId = some j →
      (row.idempotencyKey, some j) ∈ replies events
  bound : ∀ scope ∈ bounds env events, ∀ scope' ∈ bounds env events,
    scope.idempotencyKey = scope'.idempotencyKey → scope = scope'
  authorized : ∀ m n e e' scope scope', m < n → events[m]? = some e → events[n]? = some e' →
    postOf e.request = some scope → postOf e'.request = some scope' →
    targetOf scope = targetOf scope' →
      scope.idempotencyKey ≠ scope'.idempotencyKey ∧
        ∃ row, row ∈ retriedRows env (events.take n) (targetOf scope')

section Told

variable {env : AnalysisEnv} {events : List (AnalysisEvent ι)} {w : AnalysisDesk}
  {seats : ι → AnalysisSeat}

variable {m : Nat} {scope scope' : NativeAnalysisScope}

theorem KeyOf.later {t : AnalysisTarget} {first key : String} {n : Nat} (hmn : m ≤ n)
    (h : KeyOf env (events.take m) t first key) : KeyOf env (events.take n) t first key := by
  rcases h with hfirst | ⟨row, hrow, hkey⟩
  · exact Or.inl hfirst
  · exact Or.inr ⟨row, retriedRows_take hmn hrow, hkey⟩

theorem retriedRows_flagged {t : AnalysisTarget} {row : LedgerRow}
    (h : row ∈ retriedRows env events t) : row.flagged = true := by
  rcases List.mem_map.mp h with ⟨retry, hretry, rfl⟩
  rcases mem_filterMap.mp (mem_of_mem_filter hretry) with ⟨e, _, hsome⟩
  rcases e with ⟨_, _, r, a, _⟩
  cases r with
  | resumes state =>
    rcases map_eq_some_iff.mp hsome with ⟨row, hrow, rfl⟩
    unfold retriedRow? at hrow
    split at hrow
    · cases hrow
    · split at hrow
      · cases hrow
      · rcases ite_none_right_eq_some.mp hrow with ⟨hboth, heq⟩
        rw [← some.inj heq]
        exact (Bool.and_eq_true_iff.mp hboth).2
  | _ => cases hsome

theorem posts_apart (h : ((posts events).map idempotencyKey).Nodup) {n : Nat}
    {e e' : AnalysisEvent ι} (hmn : m < n) (hm : events[m]? = some e) (hn : events[n]? = some e')
    (hpost : postOf e.request = some scope)
    (hpost' : postOf e'.request = some scope') : scope.idempotencyKey ≠ scope'.idempotencyKey := by
  have hpair := pairwise_filterMap.mp (pairwise_map.mp h)
  rcases List.getElem?_eq_some_iff.mp hm with ⟨hmlt, rfl⟩
  rcases List.getElem?_eq_some_iff.mp hn with ⟨hnlt, rfl⟩
  exact pairwise_iff_getElem.mp hpair m n hmlt hnlt hmn scope hpost scope' hpost'

theorem Known.bounded (h : Known env events w seats)
    (honce : ((posts events).map idempotencyKey).Nodup) (t : AnalysisTarget) :
    (postsOf events t).length ≤ 1 + (retriedRows env events t).dedup.length := by
  rcases h.lineage t with ⟨first, hlineage⟩
  have hkeys : (postsOf events t).map idempotencyKey ⊆
      first :: (retriedRows env events t).dedup.map (LedgerRow.nextKey env) := by
    intro key hkey
    rcases List.mem_map.mp hkey with ⟨scope, hscope, rfl⟩
    rcases mem_filter.mp hscope with ⟨hpost, ht⟩
    rcases mem_filterMap.mp hpost with ⟨e, he, hsome⟩
    rcases mem_iff_getElem?.mp he with ⟨n, hn⟩
    have hlt := (List.getElem?_eq_some_iff.mp hn).1
    have hkeyOf := (hlineage.posts n e scope hn hsome (of_decide_eq_true ht)).later
      (Nat.le_of_lt hlt)
    rw [take_length] at hkeyOf
    rcases hkeyOf with hfirst | ⟨row, hrow, heq⟩
    · rw [hfirst]
      exact mem_cons_self
    · rw [heq]
      exact mem_cons_of_mem _ (List.mem_map_of_mem (mem_dedup.mpr hrow))
  have hnodup : ((postsOf events t).map idempotencyKey).Nodup :=
    (filter_sublist.map _).nodup honce
  have hlength := (subperm_of_subset hnodup hkeys).length_le
  rw [List.length_map, length_cons, List.length_map] at hlength
  omega

theorem Known.authorized (h : Known env events w seats)
    (honce : ((posts events).map idempotencyKey).Nodup) {n : Nat}
    {e e' : AnalysisEvent ι} (hmn : m < n) (hm : events[m]? = some e) (hn : events[n]? = some e')
    (hpost : postOf e.request = some scope) (hpost' : postOf e'.request = some scope')
    (ht : targetOf scope = targetOf scope') :
    ∃ row, row ∈ retriedRows env (events.take n) (targetOf scope') := by
  rcases h.lineage (targetOf scope') with ⟨first, hlineage⟩
  have hapart := posts_apart honce hmn hm hn hpost hpost'
  have hkey := (hlineage.posts m e scope hm hpost ht).later (Nat.le_of_lt hmn)
  rcases hlineage.posts n e' scope' hn hpost' rfl with hfirst' | ⟨row, hrow, _⟩
  · rcases hkey with hfirst | ⟨row, hrow, _⟩
    · exact absurd (hfirst.trans hfirst'.symm) hapart
    · exact ⟨row, hrow⟩
  · exact ⟨row, hrow⟩

theorem Orderly.bound (h : Orderly env events w seats)
    (hdigest : ∀ scope ∈ bounds env events, ∀ scope' ∈ bounds env events,
      scope.digest env.toNativeAnalysisEnv = scope'.digest env.toNativeAnalysisEnv → scope = scope')
    (hscope : scope ∈ bounds env events) (hscope' : scope' ∈ bounds env events)
    (hkey : scope.idempotencyKey = scope'.idempotencyKey) : scope = scope' := by
  rcases h.known.bound scope hscope with ⟨row, hrow, hrowKey, hrowDigest⟩
  rcases h.known.bound scope' hscope' with ⟨row', hrow', hrowKey', hrowDigest'⟩
  have hsame : row = row' := inj_on_of_nodup_map h.once.reserved_nodup hrow hrow'
    (hrowKey.trans (hkey.trans hrowKey'.symm))
  subst hsame
  exact hdigest scope hscope scope' hscope' (hrowDigest.symm.trans hrowDigest')

end Told

section Talks

variable {env : AnalysisEnv} {cfg : ReportingConfig} {state : AnalysisState} {row : LedgerRow}
  {ledger : List LedgerRow} {n : Nat} {request : Dict Json}

theorem analysisStep_converses {talk : List ((r : AnalysisRequest) × r.Answer)}
    {out : LedgerRow × List ArtifactRef} (hledger : state.ledger = some ledger)
    (hnext : nextRow? ledger = some (n, row)) (hanalysis : cfg.analysis.isNone = false)
    (h : (stepRow env cfg state row).run.converses talk (.done (.ok out))) :
    (checkpointed (analysisStep env cfg state)).run.converses
      (talk ++ [⟨.save ⟨{ state with ledger := some (ledger.set n out.1) }, out.2, none⟩, ()⟩])
      (.done (.ok ())) := by
  have hstep : (analysisStep env cfg state).run.converses talk
      (.done (.ok ⟨{ state with ledger := some (ledger.set n out.1) }, out.2, none⟩)) := by
    refine settle_converses (by rw [hledger]; rfl) ?_
    refine settle_converses (by rw [hnext]; rfl) (raiseWhen_converses hanalysis ?_)
    exact bind_done_converses (handling_converses h) rfl
  refine bind_converses ?_ hstep
  exact ⟨_, rfl, rfl⟩

theorem stepRow_starts {time : Int} (hrequest : submissionRequest env cfg state row = .ok request)
    (hstarted : row.startedAt = none) :
    (stepRow env cfg state row).run.converses [⟨.now, time⟩]
      (.done (.ok ({ row with startedAt := some time }, []))) := by
  refine settle_converses (by rw [hrequest]; rfl) ?_
  rw [hstarted]
  exact ask_converses rfl

theorem stepRow_submits {startedAt time : Int} {engineId runId : String}
    {scope : NativeAnalysisScope} {a : ClaimAnswer} {raw : Dict Json} {job : AnalysisJob}
    (hrequest : submissionRequest env cfg state row = .ok request)
    (hstarted : row.startedAt = some startedAt)
    (htime : ¬ (cfg.timeoutS : Int) * 1000000 < time - startedAt) (htool : row.tool = .internalRca)
    (hrun : nativeRunId cfg state request row = .ok runId) (hjob : row.jobId = none)
    (hscope : nativeScope env cfg state request row runId = .ok scope)
    (hclaim : claimOutcome env.toNativeAnalysisEnv scope a = .ok none)
    (hreply : nativeJob env raw = .ok job)
    (hvalid : validJob env.toNativeAnalysisEnv job.jobId = .ok job) :
    (stepRow env cfg state row).run.converses
      [⟨.now, time⟩, ⟨.resolve .executionEngine (some row.connectionId) cfg.trafficProjectId
          (some "apex_load"), .ok engineId⟩,
        ⟨.claim scope, a⟩, ⟨.post scope, ()⟩, ⟨.reply scope, .ok raw⟩,
        ⟨.record scope job.jobId, .told true⟩]
      (.done (.ok (row.queuedAs job.jobId, []))) := by
  refine settle_converses (by rw [hrequest]; rfl) ?_
  rw [hstarted]
  refine ask_converses (raiseWhen_converses (decide_eq_false htime) ?_)
  rw [htool]
  refine ask_converses (settle_converses rfl ?_)
  refine settle_converses (by rw [hrun]; rfl) ?_
  rw [hjob]
  refine settle_converses (by rw [hscope]; rfl) ?_
  refine ask_converses (settle_converses (by rw [hclaim]; rfl) ?_)
  have hread : raisingWith row true (.ok raw >>= nativeJob env) = .ok job := by
    change raisingWith row true (nativeJob env raw) = .ok job
    rw [hreply]
    rfl
  refine ask_converses (ask_converses (settle_converses hread ?_))
  refine settle_converses (by rw [hvalid]; rfl) ?_
  exact ask_converses settle_done

end Talks

def hexPair (n : Nat) : List Char := [Nat.digitChar (n / 16 % 16), Nat.digitChar (n % 16)]

/-- Modules whose digest of a text is its length, with zeros before. -/
def countingEnv : AnalysisEnv where
  rules := sampleRules
  sha256 text := String.ofList (List.replicate 62 '0' ++ hexPair text.length)
  dumpJson v := toString v.nodes
  loads _ := none
  dumpsSorted v := toString v.nodes
  dumps v := toString v.nodes
  dumpResult result := result.summary
  resultOk _ := true
  gatePayloadError _ := none
  contextEditOk _ := false
  diagnosticText _ := ""
  isoformat _ := ""

/-- A run that analyses one execution natively. -/
def nativeConfig : ReportingConfig where
  engine := "apex_load"
  projectId := some "shop"
  analysis := some [⟨.internalRca, "load"⟩]

def reportingState : AnalysisState where
  threadId := "thread"
  attempt := 1
  ledger := none
  reporting := ∅
  execution := ∅
  engineHandle := .ofDict ((Dict.single "external_run_id" (Json.str "run")).set
    "connection_id" (.str "load"))
  runAborted := false

def sampleRow : LedgerRow :=
  firstRow countingEnv reportingState (countingEnv.sha256 "8") ⟨.internalRca, "load"⟩

def stateWith (row : LedgerRow) : AnalysisState := { reportingState with ledger := some [row] }

def startedRow : LedgerRow := { sampleRow with startedAt := some 0 }

def sampleScope : NativeAnalysisScope where
  threadId := "thread"
  phaseAttempt := 1
  projectId := some "shop"
  connectionId := "load"
  nativeRunId := "run"
  inputDigest := sampleRow.inputDigest
  idempotencyKey := sampleRow.idempotencyKey

def sampleReply : Dict Json :=
  (Dict.single "analysis_id" (Json.str "job")).set "state" (.str "queued")

def sampleRequest : Dict Json :=
  ((submissionRequest countingEnv nativeConfig (stateWith sampleRow) sampleRow).toOption).getD ∅

def receivedRow : NativeAnalysisSubmission :=
  { reservation countingEnv.toNativeAnalysisEnv sampleScope with jobId := some "job" }

structure SampleSteps : Prop where
  prepared : prepareAnalysis countingEnv nativeConfig reportingState = .ok (stateWith sampleRow)
  first : nextRow? [sampleRow] = some (0, sampleRow) ∧
    submissionRequest countingEnv nativeConfig (stateWith sampleRow) sampleRow = .ok sampleRequest
  second : nextRow? [startedRow] = some (0, startedRow) ∧
    submissionRequest countingEnv nativeConfig (stateWith startedRow) startedRow = .ok sampleRequest
  scope : nativeRunId nativeConfig (stateWith startedRow) sampleRequest startedRow = .ok "run" ∧
    nativeScope countingEnv nativeConfig (stateWith startedRow) sampleRequest startedRow "run" =
      .ok sampleScope
  claimed : claimOutcome countingEnv.toNativeAnalysisEnv sampleScope
      (.told true (some (reservation countingEnv.toNativeAnalysisEnv sampleScope))) = .ok none ∧
    some (reservation countingEnv.toNativeAnalysisEnv sampleScope) =
      submissionOf [reservation countingEnv.toNativeAnalysisEnv sampleScope]
        sampleScope.idempotencyKey
  job : nativeJob countingEnv sampleReply = .ok ⟨"job", .queued, none⟩ ∧
    validJob countingEnv.toNativeAnalysisEnv "job" = .ok ⟨"job", .queued, none⟩
  received : [receivedRow] = receive countingEnv.toNativeAnalysisEnv sampleScope "job"
      [reservation countingEnv.toNativeAnalysisEnv sampleScope] ∧
    true = [reservation countingEnv.toNativeAnalysisEnv sampleScope].any
      (receives countingEnv.toNativeAnalysisEnv sampleScope "job")

theorem sample_steps : SampleSteps where
  prepared := by decide +kernel
  first := by decide +kernel
  second := by decide +kernel
  scope := by decide +kernel
  claimed := by decide +kernel
  job := by decide +kernel
  received := by decide +kernel

def noWorker : Unit → Option (Program AnalysisRequest AnalysisRequest.Answer
    (Except AnalysisExc Unit)) := fun _ => none

def startingTalk : List ((r : AnalysisRequest) × r.Answer) :=
  [⟨.now, 0⟩, ⟨.save ⟨stateWith startedRow, [], none⟩, ()⟩]

def submittingTalk : List ((r : AnalysisRequest) × r.Answer) :=
  [⟨.now, 1⟩, ⟨.resolve .executionEngine (some "load") (some "shop") (some "apex_load"),
      .ok "load"⟩,
    ⟨.claim sampleScope,
      .told true (some (reservation countingEnv.toNativeAnalysisEnv sampleScope))⟩,
    ⟨.post sampleScope, ()⟩, ⟨.reply sampleScope, .ok sampleReply⟩,
    ⟨.record sampleScope "job", .told true⟩,
    ⟨.save ⟨stateWith (startedRow.queuedAs "job"), [], none⟩, ()⟩]

def sampleDesk (rows : List NativeAnalysisSubmission) : AnalysisDesk :=
  ⟨rows, [stateWith startedRow, stateWith sampleRow]⟩

theorem startingTalk_converses :
    (checkpointed (analysisStep countingEnv nativeConfig (stateWith sampleRow))).run.converses
      startingTalk (.done (.ok ())) :=
  analysisStep_converses rfl sample_steps.first.1 rfl (stepRow_starts sample_steps.first.2 rfl)

theorem submittingTalk_converses :
    (checkpointed (analysisStep countingEnv nativeConfig (stateWith startedRow))).run.converses
      submittingTalk (.done (.ok ())) :=
  analysisStep_converses rfl sample_steps.second.1 rfl (stepRow_submits sample_steps.second.2 rfl
    (by decide) rfl sample_steps.scope.1 rfl sample_steps.scope.2 sample_steps.claimed.1
    sample_steps.job.1 sample_steps.job.2)

theorem submittingTalk_heard : (analysisSystem countingEnv Unit).Hears () (sampleDesk [])
    submittingTalk ((sampleDesk [receivedRow]).saved (stateWith (startedRow.queuedAs "job"))) := by
  let reserved := sampleDesk [reservation countingEnv.toNativeAnalysisEnv sampleScope]
  have hclaimed : reserved = (sampleDesk []).claimed countingEnv sampleScope := rfl
  have hreceived : sampleDesk [receivedRow] = reserved.received countingEnv sampleScope "job" :=
    congrArg (AnalysisDesk.mk · _) sample_steps.received.1
  exact ⟨sampleDesk [], rfl, sampleDesk [], rfl, reserved,
    ⟨hclaimed, rfl, sample_steps.claimed.2⟩, reserved, rfl, reserved, rfl, sampleDesk [receivedRow],
    ⟨hreceived, sample_steps.received.2⟩, _, Or.inr rfl, rfl⟩

theorem submitted_run : ∃ (events : List (AnalysisEvent Unit)) (team : Team AnalysisDesk Unit
      AnalysisRequest AnalysisRequest.Answer (Except AnalysisExc Unit)),
    (analysisSystem countingEnv Unit).Run ⟨[], []⟩ events team ∧
      events.map System.Event.exchange = startingTalk ++ submittingTalk ∧
      team.state = (sampleDesk [receivedRow]).saved (stateWith (startedRow.queuedAs "job")) := by
  have hprepared : AnalysisDesk.Prepares countingEnv ⟨[], []⟩ nativeConfig reportingState
      (stateWith sampleRow) :=
    ⟨rfl, sample_steps.prepared, fun _ hc => absurd hc not_mem_nil⟩
  have hidle : (analysisSystem countingEnv Unit).Run ⟨[], []⟩ []
      ⟨⟨[], [stateWith sampleRow]⟩, Function.update noWorker () (some (.done (.ok ())))⟩ :=
    .start .idle (Or.inr ⟨rfl, Or.inl ⟨nativeConfig, reportingState, stateWith sampleRow,
      hprepared, rfl⟩⟩)
  rcases hidle.call (Or.inl ⟨stateWith sampleRow, mem_singleton_self _, rfl,
      Or.inl ⟨nativeConfig, rfl⟩⟩) startingTalk_converses
    ⟨⟨[], [stateWith sampleRow]⟩, rfl, sampleDesk [], Or.inr rfl, rfl⟩
    with ⟨events₁, hrun₁, hexchange₁⟩
  rcases hrun₁.call (Or.inl ⟨stateWith startedRow, mem_cons_self, rfl,
      Or.inl ⟨nativeConfig, rfl⟩⟩) submittingTalk_converses submittingTalk_heard
    with ⟨events₂, hrun₂, hexchange₂⟩
  refine ⟨_, _, hrun₂, ?_, rfl⟩
  rw [nil_append, map_append, hexchange₁, hexchange₂]

/-- In every run a native analysis is submitted at most once for each authorization, and its job
    is what the call returned. The digests of scopes are taken not to collide. -/
theorem native_analysis_submitted_once [DecidableEq ι] {env : AnalysisEnv}
    {events : List (AnalysisEvent ι)}
    {team : Team AnalysisDesk ι AnalysisRequest AnalysisRequest.Answer (Except AnalysisExc Unit)}
    (hrun : (analysisSystem env ι).Run ⟨[], []⟩ events team)
    (hdigest : ∀ scope ∈ bounds env events, ∀ scope' ∈ bounds env events,
      scope.digest env.toNativeAnalysisEnv = scope'.digest env.toNativeAnalysisEnv →
        scope = scope') :
    SubmittedOnce env events team.state := by
  rcases orderly_run hrun with ⟨seats, h⟩
  have honce := h.once.called_nodup
  refine ⟨honce, h.known.bounded honce, fun t row => retriedRows_flagged, h.once.returned_nodup,
    h.known.rows, h.known.ledgers, fun scope hscope scope' hscope' => h.bound hdigest hscope hscope',
    fun m n e e' scope scope' hmn hm hn hpost hpost' ht => ?_⟩
  exact ⟨posts_apart honce hmn hm hn hpost hpost', h.known.authorized honce hmn hm hn hpost hpost' ht⟩

/-- The run in which an analysis is submitted: it is called once, and its job is stored. -/
theorem submission_called : ∃ (events : List (AnalysisEvent Unit)) (w : AnalysisDesk),
    SubmittedOnce countingEnv events w ∧ posts events = [sampleScope] ∧
      receivedRow ∈ w.submissions := by
  rcases submitted_run with ⟨events, team, hrun, hexchange, hstate⟩
  have hposts : posts events = (startingTalk ++ submittingTalk).filterMap fun x => postOf x.1 := by
    rw [← hexchange, filterMap_map]
    rfl
  have hbounds : bounds countingEnv events =
      (startingTalk ++ submittingTalk).filterMap fun x => boundOf countingEnv x.1 x.2 := by
    rw [← hexchange, filterMap_map]
    rfl
  have hone : bounds countingEnv events = [sampleScope] := by
    rw [hbounds]
    change (if (reservation countingEnv.toNativeAnalysisEnv sampleScope).scopeDigest =
      sampleScope.digest countingEnv.toNativeAnalysisEnv then some sampleScope else none).toList = _
    have hdigest : (reservation countingEnv.toNativeAnalysisEnv sampleScope).scopeDigest =
      sampleScope.digest countingEnv.toNativeAnalysisEnv := rfl
    rw [if_pos hdigest]
    rfl
  refine ⟨events, team.state, native_analysis_submitted_once hrun ?_, ?_, ?_⟩
  · intro scope hscope scope' hscope' _
    rw [hone] at hscope hscope'
    rw [mem_singleton.mp hscope, mem_singleton.mp hscope']
  · rw [hposts]
    rfl
  · rw [hstate]
    exact mem_singleton_self _

end Apex.Graphs
