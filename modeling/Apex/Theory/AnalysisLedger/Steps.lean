import Apex.Core.Talk
import Apex.Graphs.Pipeline.AnalysisPhase

/-!
# What A Talk Of An Analysis Node Tells

A node is followed along everything it asks and is answered. A submission is only called
for the first row that has not succeeded, while that row has no job, and once at most. How
the row is left goes back to the talk: it is marked as failed for good where the provider
told so of its job, and as uncertain where a native submission was called or is not
confirmed.

## Main definitions

* `submittedKey`: The key of a submission.
* `ReportedLost`, `Unconfirmed`: What a talk may tell of a job.
* `Advanced`: How a step may leave a row.
* `Recovered`: How a recovery may leave a state.

## Theorems

* `analysisStep_talks`, `analysisRecovery_talks`: What the nodes promise of their talks.
-/

namespace Apex.Graphs.AnalysisLedger

open List Option
open Services

open Apex.Action hiding ask
open Program (either talks)

abbrev Talk := List ((r : AnalysisRequest) × r.Answer)

def submittedKey : AnalysisRequest → Option String
  | .post scope => some scope.idempotencyKey
  | .submit request => some ((textOf? (request.value "idempotency_key")).getD "")
  | _ => none

variable (env : AnalysisEnv) (talk : Talk)

def Silent : Prop := ∀ x ∈ talk, submittedKey x.1 = none

def toldJob : (r : AnalysisRequest) → r.Answer → Option (String × JobStatus)
  | .status _, .ok job => some (job.jobId, job.status)
  | .getNative .., .ok raw =>
    match nativeJob env raw with
    | .ok job => some (job.jobId, job.status)
    | .error _ => none
  | _, _ => none

/-- The provider has told that a job failed or was cancelled. -/
def ReportedLost (jobId : String) : Prop :=
  ∃ x ∈ talk, toldJob env x.1 x.2 = some (jobId, .failed) ∨
    toldJob env x.1 x.2 = some (jobId, .cancelled)

def errorOf {ε α : Type} : Except ε α → Option ε
  | .ok _ => none
  | .error e => some e

def raises : (r : AnalysisRequest) → r.Answer → Option AnalysisExc
  | .resolve .., a => errorOf a
  | .claim scope, a => errorOf (claimOutcome env.toNativeAnalysisEnv scope a)
  | .reply _, a => errorOf a
  | .getNative .., a => errorOf a
  | .capabilities, a => errorOf a
  | .submit _, a => errorOf a
  | .status _, a => errorOf a
  | .result _, a => errorOf a
  | .persist .., a => errorOf a
  | _, _ => none

/-- A native submission was called, or was told not to be confirmed. -/
def Unconfirmed : Prop :=
  ∃ x ∈ talk, (∃ scope, x.1 = .post scope) ∨ ∃ text, raises env x.1 x.2 = some (.uncertain text)

/-- A row after a step: its key is the same, a job that is known stays, and what it is marked
    with goes back to the talk. -/
structure Advanced (env : AnalysisEnv) (talk : Talk) (row row' : LedgerRow) : Prop where
  connectionId : row'.connectionId = row.connectionId
  digest : row'.inputDigest = row.inputDigest
  attempt : row'.attempt = row.attempt
  key : row'.idempotencyKey = row.idempotencyKey
  request : row'.requestJson = row.requestJson
  job : ∀ j, row.jobId = some j → row'.jobId = some j
  terminal : row'.providerTerminalFailure = true → row.providerTerminalFailure = true ∨
    ∃ j, row.jobId = some j ∧ ReportedLost env talk j
  uncertain : row'.submissionUncertain = true → row.submissionUncertain = true ∨
    Unconfirmed env talk

section Rows

variable {env : AnalysisEnv} {talk : Talk} {row row' : LedgerRow}

theorem advanced_refl : Advanced env talk row row :=
  ⟨rfl, rfl, rfl, rfl, rfl, fun _ h => h, Or.inl, Or.inl⟩

theorem ReportedLost.later {j : String} (h : ReportedLost env talk j)
    (x : (r : AnalysisRequest) × r.Answer) : ReportedLost env (talk ++ [x]) j := by
  rcases h with ⟨y, hy, htold⟩
  exact ⟨y, mem_append_left _ hy, htold⟩

theorem Unconfirmed.later (h : Unconfirmed env talk) (x : (r : AnalysisRequest) × r.Answer) :
    Unconfirmed env (talk ++ [x]) := by
  rcases h with ⟨y, hy, htold⟩
  exact ⟨y, mem_append_left _ hy, htold⟩

theorem Advanced.later (h : Advanced env talk row row') (x : (r : AnalysisRequest) × r.Answer) :
    Advanced env (talk ++ [x]) row row' :=
  ⟨h.connectionId, h.digest, h.attempt, h.key, h.request, h.job,
    fun ht => (h.terminal ht).imp_right fun ⟨j, hj, hlost⟩ => ⟨j, hj, hlost.later x⟩,
    fun hu => (h.uncertain hu).imp_right fun hunconfirmed => hunconfirmed.later x⟩

variable {r : AnalysisRequest} {f : Failure}

theorem Silent.later (h : Silent talk) (hr : submittedKey r = none)
    (a : r.Answer) : Silent (talk ++ [⟨r, a⟩]) := by
  intro x hx
  rcases mem_append.mp hx with hx | hx
  · exact h x hx
  · rw [mem_singleton.mp hx]
    exact hr

theorem asked_mem (a : r.Answer) :
    (⟨r, a⟩ : (r : AnalysisRequest) × r.Answer) ∈ talk ++ [⟨r, a⟩] :=
  mem_append_right _ mem_cons_self

theorem unconfirmed_raised {a : r.Answer} (text : String)
    (h : raises env r a = some (.uncertain text)) : Unconfirmed env (talk ++ [⟨r, a⟩]) :=
  ⟨_, asked_mem a, Or.inr ⟨text, h⟩⟩

theorem unconfirmed_posted (scope : NativeAnalysisScope) (a : Unit) :
    Unconfirmed env (talk ++ [⟨.post scope, a⟩]) :=
  ⟨_, asked_mem (r := .post scope) a, Or.inl ⟨scope, rfl⟩⟩

theorem advanced_lost {a : r.Answer} {job : AnalysisJob}
    (htold : toldJob env r a = some (job.jobId, job.status)) (hjob : row.jobId = some job.jobId)
    (hstatus : job.status = .failed ∨ job.status = .cancelled) :
    Advanced env (talk ++ [⟨r, a⟩]) row { row with providerTerminalFailure := true } := by
  refine ⟨rfl, rfl, rfl, rfl, rfl, fun _ h => h, fun _ => Or.inr ?_, Or.inl⟩
  refine ⟨job.jobId, hjob, _, asked_mem a, ?_⟩
  rcases hstatus with hstatus | hstatus
  · exact Or.inl (hstatus ▸ htold)
  · exact Or.inr (hstatus ▸ htold)

theorem advanced_queuedAs (h : row.jobId = none) (j : String) :
    Advanced env talk row (row.queuedAs j) := by
  refine ⟨rfl, rfl, rfl, rfl, rfl, fun k hk => ?_, Or.inl, Or.inl⟩
  rw [h] at hk
  cases hk

/-- What a step is left with by an exception: the row, and that a submission is not confirmed
    where the handler takes it so. -/
structure Fails (env : AnalysisEnv) (row : LedgerRow) (talk : Talk) (f : Failure) : Prop where
  advanced : Advanced env talk row f.row
  uncertain : f.uncertain = true → Unconfirmed env talk

theorem Fails.rowAfter (h : Fails env row talk f) :
    Advanced env talk row (f.rowAfter env) := by
  rcases h with ⟨⟨hconnection, hdigest, hattempt, hkey, hrequest, hjob, hterminal, huncertain⟩, hf⟩
  rw [Failure.rowAfter]
  split
  next h => exact ⟨hconnection, hdigest, hattempt, hkey, hrequest, hjob, hterminal,
      fun _ => Or.inr (hf h)⟩
  · split
    · exact ⟨hconnection, hdigest, hattempt, hkey, hrequest, hjob, hterminal, huncertain⟩
    · exact ⟨hconnection, hdigest, hattempt, hkey, hrequest, hjob, hterminal, huncertain⟩

/-- Where a step may raise: the row is as it may be left, and the exception tells that a
    submission is not confirmed only where the talk does. -/
theorem fails_raisingWith {α : Type} {x : Except AnalysisExc α} (started : Bool)
    (h : Advanced env talk row row') (hstarted : started = true → Unconfirmed env talk)
    (hx : ∀ text, x = .error (.uncertain text) → Unconfirmed env talk)
    (hf : raisingWith row' started x = .error f) : Fails env row talk f := by
  cases x with
  | ok a => cases hf
  | error e =>
    cases Except.error.inj hf
    refine ⟨h, fun hu => ?_⟩
    cases e with
    | uncertain text => exact hx text rfl
    | transport _ => exact hstarted (Bool.and_eq_true_iff.mp hu).1
    | ambiguous _ => exact hstarted (Bool.and_eq_true_iff.mp hu).1
    | httpTransport _ => exact hstarted (Bool.and_eq_true_iff.mp hu).1
    | httpStatus _ _ => exact hstarted (Bool.and_eq_true_iff.mp hu).1
    | interrupted _ => exact hstarted (Bool.and_eq_true_iff.mp hu).1
    | other _ => exact hstarted (Bool.and_eq_true_iff.mp hu).1

end Rows

/-- What never raises that a submission is not confirmed. -/
def Certain {α : Type} (x : Except AnalysisExc α) : Prop := ∀ text, x ≠ .error (.uncertain text)

section Checks

variable {α β : Type} {env : AnalysisEnv} {cfg : ReportingConfig} {state : AnalysisState}
  {row : LedgerRow} {request : Dict Json}

theorem certain_ok (a : α) : Certain (.ok a : Except AnalysisExc α) := by
  intro text h
  cases h

theorem certain_other (text : String) : Certain (.error (.other text) : Except AnalysisExc α) := by
  intro _ h
  cases h

variable {text : String}

theorem certain_raiseIf {bad : Bool} : Certain (raiseIf bad (.other text)) := by
  cases bad with
  | false => exact certain_ok ()
  | true => exact certain_other text

theorem certain_someOr {x : Option α} : Certain (someOr (.other text) x) := by
  cases x with
  | none => exact certain_other text
  | some a => exact certain_ok a

theorem Certain.bind {x : Except AnalysisExc α} {f : α → Except AnalysisExc β} (hx : Certain x)
    (hf : ∀ a, Certain (f a)) : Certain (x >>= f) := by
  cases x with
  | ok a => exact hf a
  | error e =>
    intro text h
    exact hx text (congrArg Except.error (Except.error.inj h))

theorem certain_requireText (v : Json) : Certain (requireText v) := by
  cases v with
  | str s => exact certain_ok s
  | _ => exact certain_other _

theorem certain_evidence : Certain (executionEvidence state cfg) :=
  Certain.bind certain_someOr fun _ => certain_ok _

theorem certain_submissionRequest : Certain (submissionRequest env cfg state row) := by
  rw [submissionRequest]
  split
  · exact certain_someOr
  · exact Certain.bind certain_evidence fun _ => Certain.bind certain_raiseIf fun _ => certain_ok _

theorem certain_nativeRunId : Certain (nativeRunId cfg state request row) :=
  Certain.bind certain_someOr fun _ => Certain.bind certain_raiseIf fun _ =>
    Certain.bind certain_raiseIf fun _ => Certain.bind certain_evidence fun _ =>
    Certain.bind certain_raiseIf fun _ => Certain.bind certain_someOr fun _ =>
    Certain.bind certain_raiseIf fun _ => certain_requireText _

theorem certain_nativeScope {runId : String} :
    Certain (nativeScope env cfg state request row runId) :=
  Certain.bind (certain_requireText _) fun _ => Certain.bind certain_raiseIf fun _ => certain_ok _

theorem certain_modelValidate {env : NativeAnalysisEnv} {jobId status error : Json} :
    Certain (AnalysisJob.modelValidate env jobId status error) := by
  unfold AnalysisJob.modelValidate
  split
  · split
    · exact certain_other _
    · exact certain_ok _
  · exact certain_other _

theorem certain_nativeResult {raw : Dict Json} : Certain (nativeResult env row raw) :=
  Certain.bind certain_raiseIf fun _ => Certain.bind certain_someOr fun _ =>
    Certain.bind certain_raiseIf fun _ => certain_ok _

theorem certain_checkResult {result : AnalysisResult} : Certain (checkResult cfg row result) :=
  Certain.bind certain_raiseIf fun _ => Certain.bind certain_raiseIf fun _ => certain_raiseIf

theorem certain_checkCapabilities {cap : AnalysisCapabilities} :
    Certain (checkCapabilities cfg cap) :=
  Certain.bind certain_raiseIf fun _ => certain_raiseIf

end Checks

def Next (state : AnalysisState) (i : Nat) (row : LedgerRow) : Prop :=
  ∃ ledger, state.ledger = some ledger ∧ nextRow? ledger = some (i, row)

/-- A submission is allowed for the row a step works on, if it has no job and nothing was
    submitted before. A row whose request is not checkpointed is submitted under its key. -/
def allowsSubmission (state : AnalysisState) (talk : Talk) (r : AnalysisRequest) : Prop :=
  ∀ key, submittedKey r = some key → ∃ i row, Next state i row ∧ row.jobId = none ∧
    (row.requestJson = none → key = row.idempotencyKey) ∧ Silent talk

def LeavesRow (row : LedgerRow) (talk : Talk) :
    Except Failure (LedgerRow × List ArtifactRef) → Prop :=
  either (fun talk out => Advanced env talk row out.1) (Fails env row) talk

section Steps

variable {env : AnalysisEnv} {cfg : ReportingConfig} {state : AnalysisState} {request : Dict Json}
  {row row' : LedgerRow} {talk : Talk} {i : Nat}

section

variable {α : Type} {x : Except AnalysisExc α}
  {f : α → AnalysisAction Failure (LedgerRow × List ArtifactRef)}

theorem raising_talks {started : Bool}
    (h : Advanced env talk row row') (hstarted : started = true → Unconfirmed env talk)
    (hx : ∀ text, x = .error (.uncertain text) → Unconfirmed env talk)
    (hf : ∀ a, x = .ok a → (f a).run.follows (talks (allowsSubmission state))
      (LeavesRow env row) talk) :
    (settle (raisingWith row' started x) >>= f).run.follows
      (talks (allowsSubmission state)) (LeavesRow env row) talk := by
  cases hraised : raisingWith row' started x with
  | error failure => exact fails_raisingWith started h hstarted hx hraised
  | ok a =>
    cases x with
    | error e => cases hraised
    | ok b =>
      cases hraised
      exact hf a rfl

theorem checking_talks
    (h : Advanced env talk row row') (hx : Certain x)
    (hf : ∀ a, x = .ok a → (f a).run.follows (talks (allowsSubmission state))
      (LeavesRow env row) talk) :
    (settle (raisingWith row' false x) >>= f).run.follows
      (talks (allowsSubmission state)) (LeavesRow env row) talk :=
  raising_talks h (fun hfalse => Bool.noConfusion hfalse) (fun text he => absurd he (hx text)) hf

end

variable {r : AnalysisRequest} {scope : NativeAnalysisScope}

theorem asking_talks {ε β : Type} {R : Talk → Except ε β → Prop} {f : r.Answer → AnalysisAction ε β}
    (hr : submittedKey r = none)
    (hf : ∀ a, (f a).run.follows (talks (allowsSubmission state)) R (talk ++ [⟨r, a⟩])) :
    (askAnalysis r >>= f).run.follows (talks (allowsSubmission state)) R talk := by
  refine ask_bind_follows (fun key hkey => ?_) fun a _ => hf a
  rw [hr] at hkey
  cases hkey

section

variable (hnext : Next state i row) (hjob : row.jobId = none)
  (hkey : scope.idempotencyKey = row.idempotencyKey) (hsilent : Silent talk)

include hnext hjob hkey hsilent

theorem postNative_talks :
    (postNative env scope row).run.follows (talks (allowsSubmission state))
      (LeavesRow env row) talk := by
  have hallowed : allowsSubmission state talk (.post scope) := by
    intro key h
    cases h
    exact ⟨i, row, hnext, hjob, fun _ => hkey, hsilent⟩
  refine ask_bind_follows hallowed fun posted _ => ?_
  have hposted : Unconfirmed env (talk ++ [⟨.post scope, posted⟩]) :=
    unconfirmed_posted scope posted
  refine asking_talks rfl fun reply => ?_
  have hunconfirmed := hposted.later ⟨.reply scope, reply⟩
  refine raising_talks advanced_refl (fun _ => hunconfirmed) (fun _ _ => hunconfirmed)
    fun job _ => ?_
  refine raising_talks (advanced_queuedAs hjob _) (fun _ => hunconfirmed) (fun _ _ => hunconfirmed)
    fun validated _ => ?_
  refine asking_talks rfl fun answer => ?_
  have hlater := hunconfirmed.later ⟨.record scope validated.jobId, answer⟩
  cases hanswer : receiptOutcome answer with
  | ok _ => exact advanced_queuedAs hjob _
  | error e =>
    exact fails_raisingWith (x := receiptOutcome answer) true
      (advanced_queuedAs hjob _) (fun _ => hlater) (fun _ _ => hlater) (by rw [hanswer]; rfl)

theorem submitNative_talks :
    (submitNative env scope row).run.follows (talks (allowsSubmission state))
      (LeavesRow env row) talk := by
  refine asking_talks rfl fun answer => ?_
  refine raising_talks advanced_refl (fun hfalse => Bool.noConfusion hfalse) (fun text he => ?_)
    fun received _ => ?_
  · refine unconfirmed_raised text ?_
    change errorOf (claimOutcome env.toNativeAnalysisEnv scope answer) = _
    rw [he]
    rfl
  · cases received with
    | none => exact postNative_talks hnext hjob hkey (hsilent.later rfl answer)
    | some jobId => exact advanced_queuedAs hjob jobId

end

theorem collectResult_talks {result : AnalysisResult} (h : Advanced env talk row row') :
    (collectResult env cfg request row' result).run.follows
      (talks (allowsSubmission state)) (LeavesRow env row) talk := by
  refine checking_talks h certain_checkResult fun _ _ => ?_
  refine asking_talks rfl fun resolved => ?_
  have h₁ := h.later ⟨_, resolved⟩
  refine raising_talks h₁ (fun hfalse => Bool.noConfusion hfalse)
    (fun text he => unconfirmed_raised text (congrArg errorOf he)) fun storeId _ => ?_
  refine checking_talks h₁ (certain_requireText _) fun runId _ => ?_
  refine asking_talks rfl fun persisted => ?_
  have h₂ := h₁.later ⟨_, persisted⟩
  refine raising_talks h₂ (fun hfalse => Bool.noConfusion hfalse)
    (fun text he => unconfirmed_raised text (congrArg errorOf he)) fun stored _ => ?_
  refine asking_talks rfl fun completedAt => ?_
  have h₃ := h₂.later ⟨.now, completedAt⟩
  exact ⟨h₃.connectionId, h₃.digest, h₃.attempt, h₃.key, h₃.request, h₃.job, h₃.terminal,
    h₃.uncertain⟩

theorem afterJob_talks {raw : Option (Dict Json)} {job : AnalysisJob} {a : r.Answer}
    (htold : toldJob env r a = some (job.jobId, job.status)) :
    (afterJob env cfg request row raw job).run.follows (talks (allowsSubmission state))
      (LeavesRow env row) (talk ++ [⟨r, a⟩]) := by
  refine raiseWhen_bind_either (fun hsame => ?_) fun _ => ⟨advanced_refl, fun h => Bool.noConfusion h⟩
  have hjob : row.jobId = some job.jobId := by
    rw [bne_eq_false_iff_eq] at hsame
    exact hsame.symm
  refine raiseWhen_bind_either (fun _ => ?_) fun hlost => ?_
  · have hcollecting : ∀ talk, Advanced env talk row { row with status := .collecting } :=
      fun _ => ⟨rfl, rfl, rfl, rfl, rfl, fun _ h => h, Or.inl, Or.inl⟩
    split
    · refine bind_either (m := fun talk _ => Advanced env talk row { row with status := .collecting })
        ?_ fun talk result h => collectResult_talks h
      cases raw with
      | some raw =>
        cases hresult : nativeResult env { row with status := .collecting } raw with
        | ok result =>
          rw [askResult, hresult]
          exact hcollecting _
        | error e =>
          rw [askResult, hresult]
          exact fails_raisingWith false (hcollecting _) (fun hfalse => Bool.noConfusion hfalse)
            (fun text he => absurd he (hresult ▸ certain_nativeResult text)) rfl
      | none =>
        refine asking_talks rfl fun answer => ?_
        cases answer with
        | ok result => exact hcollecting _
        | error e =>
          exact fails_raisingWith (x := (.error e : Except AnalysisExc AnalysisResult))
            false (hcollecting _) (fun hfalse => Bool.noConfusion hfalse)
            (fun text he => unconfirmed_raised text (congrArg errorOf he)) rfl
    · refine asking_talks rfl fun _ => ?_
      exact ⟨rfl, rfl, rfl, rfl, rfl, fun _ h => h, Or.inl, Or.inl⟩
  · refine ⟨advanced_lost htold hjob ?_, fun h => Bool.noConfusion h⟩
    rw [Bool.or_eq_true, beq_iff_eq, beq_iff_eq] at hlost
    exact hlost

theorem nativeStep_talks (hnext : Next state i row) (hsilent : Silent talk) :
    (nativeStep env cfg state request row).run.follows (talks (allowsSubmission state))
      (LeavesRow env row) talk := by
  refine checking_talks advanced_refl certain_nativeRunId fun runId _ => ?_
  split
  next jobId hjob =>
    refine asking_talks rfl fun reply => ?_
    refine raising_talks advanced_refl (fun hfalse => Bool.noConfusion hfalse)
      (fun text he => unconfirmed_raised text (congrArg errorOf he)) fun raw hraw => ?_
    refine checking_talks advanced_refl certain_modelValidate fun job hread => ?_
    refine afterJob_talks ?_
    rw [hraw]
    change (match nativeJob env raw with
      | .ok job => some (job.jobId, job.status)
      | .error _ => none) = _
    rw [show nativeJob env raw = .ok job from hread]
  next hjob =>
    refine checking_talks advanced_refl certain_nativeScope fun scope hscope => ?_
    refine submitNative_talks hnext hjob ?_ hsilent
    rcases bind_ok.mp hscope with ⟨threadId, _, hscope⟩
    rcases bind_ok.mp hscope with ⟨_, _, hscope⟩
    rw [← Except.ok.inj hscope]

theorem connectorStep_talks (hnext : Next state i row) (hsilent : Silent talk)
    (hkey : row.requestJson = none → request.value "idempotency_key" = .str row.idempotencyKey) :
    (connectorStep env cfg request row).run.follows (talks (allowsSubmission state))
      (LeavesRow env row) talk := by
  unfold connectorStep
  split
  next jobId hjob =>
    refine asking_talks rfl fun answer => ?_
    refine raising_talks advanced_refl (fun hfalse => Bool.noConfusion hfalse)
      (fun text he => unconfirmed_raised text (congrArg errorOf he)) fun job hanswer => ?_
    refine afterJob_talks ?_
    rw [hanswer]
    rfl
  next hjob =>
    refine asking_talks rfl fun cap => ?_
    refine raising_talks advanced_refl (fun hfalse => Bool.noConfusion hfalse) (fun text he => ?_)
      fun _ _ => ?_
    · refine unconfirmed_raised text ?_
      cases cap with
      | ok cap => exact absurd he (certain_checkCapabilities text)
      | error e => exact congrArg some (Except.error.inj he)
    · have hallowed : allowsSubmission state (talk ++ [⟨.capabilities, cap⟩]) (.submit request) := by
        intro key h
        cases h
        refine ⟨i, row, hnext, hjob, fun hrequest => ?_, hsilent.later rfl cap⟩
        rw [hkey hrequest]
        rfl
      refine ask_bind_follows hallowed fun answer _ => ?_
      cases answer with
      | ok job => exact advanced_queuedAs hjob _
      | error e =>
        exact fails_raisingWith (x := (.error e : Except AnalysisExc AnalysisJob))
          false advanced_refl (fun hfalse => Bool.noConfusion hfalse)
          (fun text he => unconfirmed_raised text (congrArg errorOf he)) rfl

theorem submissionRequest_key (hrequest : row.requestJson = none)
    (h : submissionRequest env cfg state row = .ok request) :
    request.value "idempotency_key" = .str row.idempotencyKey := by
  rw [submissionRequest, hrequest] at h
  rcases bind_ok.mp h with ⟨evidence, _, h⟩
  rcases bind_ok.mp h with ⟨_, _, h⟩
  rw [← Except.ok.inj h, Dict.value, Dict.get?_set_self, getD_some]

theorem stepRow_talks (hnext : Next state i row) :
    (stepRow env cfg state row).run.follows (talks (allowsSubmission state))
      (LeavesRow env row) [] := by
  refine checking_talks advanced_refl certain_submissionRequest fun request hrequest => ?_
  have hkey : row.requestJson = none → request.value "idempotency_key" = .str row.idempotencyKey :=
    fun hnone => submissionRequest_key hnone hrequest
  have hsilent : Silent [] := fun _ h => absurd h not_mem_nil
  split
  · refine asking_talks rfl fun time => ?_
    exact ⟨rfl, rfl, rfl, rfl, rfl, fun _ h => h, Or.inl, Or.inl⟩
  · refine asking_talks rfl fun time => ?_
    refine raiseWhen_bind_either (fun _ => ?_) fun _ =>
      ⟨advanced_refl, fun h => Bool.noConfusion h⟩
    refine asking_talks rfl fun resolved => ?_
    refine raising_talks advanced_refl (fun hfalse => Bool.noConfusion hfalse)
      (fun text he => unconfirmed_raised text (congrArg errorOf he)) fun _ _ => ?_
    have hquiet := (hsilent.later (r := .now) rfl time).later rfl resolved
    split
    · exact nativeStep_talks hnext hquiet
    · exact connectorStep_talks hnext hquiet hkey

end Steps

/-- What a step promises: it leaves the row it works on. -/
structure Stepped (env : AnalysisEnv) (state : AnalysisState) (talk : Talk) (u : NodeUpdate) :
    Prop where
  row : ∃ i row row', Next state i row ∧ Advanced env talk row row' ∧
    u.state = { state with ledger := state.ledger.map fun ledger => ledger.set i row' }
  goto : u.goto = none

/-- An operator has decided that the row that failed is tried again. -/
structure Retry (env : AnalysisEnv) (state : AnalysisState) (talk : Talk) (i : Nat)
    (row row' : LedgerRow) : Prop where
  failed : ∃ ledger, state.ledger = some ledger ∧ failedRow? ledger = some (i, row)
  decided : ∃ resumes note,
    (⟨.resumes state, resumes⟩ : (r : AnalysisRequest) × r.Answer) ∈ talk ∧
      recoveryDecision env state (some row) (recoveryReason env state (some row)) resumes =
        .ok (.decided "retry" note)
  retried : row.retried env = .ok row'

/-- What a recovery promises: the ledger stays, or the row that failed is tried again. A report
    is assembled again only where every row has succeeded. -/
structure Recovered (env : AnalysisEnv) (state : AnalysisState) (talk : Talk) (u : NodeUpdate) :
    Prop where
  threadId : u.state.threadId = state.threadId
  attempt : u.state.attempt = state.attempt
  ledger : u.state.ledger = state.ledger ∨ ∃ i row row', Retry env state talk i row row' ∧
    u.state.ledger = state.ledger.map fun ledger => ledger.set i row'
  report : u.goto = some .reportAgent → u.state.ledger = state.ledger ∧
    ∀ row ∈ state.ledger.getD [], row.status = .succeeded

section Nodes

variable {env : AnalysisEnv} {cfg : ReportingConfig} {state : AnalysisState}

theorem analysisStep_talks :
    (analysisStep env cfg state).run.follows (talks (allowsSubmission state))
      (whenOk (Stepped env state)) [] := by
  refine settle_bind_follows fun ledger hledger => ?_
  refine settle_bind_follows fun next hnext => ?_
  refine raiseWhen_bind_follows fun _ => ?_
  rcases next with ⟨i, row⟩
  have hsome : state.ledger = some ledger := someOr_ok.mp hledger
  have hworks : Next state i row := ⟨ledger, hsome, someOr_ok.mp hnext⟩
  refine bind_follows (m := fun talk (out : LedgerRow × List ArtifactRef) =>
    Advanced env talk row out.1) ?_ fun talk out h => ?_
  · refine handling_follows (stepRow_talks hworks) fun talk f hf => ?_
    unfold afterFailure
    split
    · exact asking_talks rfl fun _ => whenOk_ok (hf.rowAfter.later _)
    · exact whenOk_ok hf.rowAfter
  · refine whenOk_ok ⟨⟨i, row, out.1, hworks, h, ?_⟩, rfl⟩
    rw [hsome]
    rfl

/-- A report is only assembled again where no row has failed. -/
theorem recoveryDecision_report {row : Option LedgerRow} {revision : Int} :
    ∀ {resumes : List Json} {error : String},
      recoveryDecision env state row error resumes = .ok (.reportAgain revision) → row = none
  | [], _, h => by
    rw [recoveryDecision] at h
    cases h
  | resume :: rest, _, h => by
    rw [recoveryDecision] at h
    split at h
    next hreport => exact isNone_iff_eq_none.mp (Bool.and_eq_true_iff.mp hreport).1
    · split at h
      · cases h
      · exact recoveryDecision_report h

theorem analysisRecovery_talks {actor : String} :
    (analysisRecovery env actor state).run.follows
      (talks fun _ r => submittedKey r = none) (whenOk (Recovered env state)) [] := by
  refine raiseWhen_bind_follows fun hcheck => ?_
  refine ask_bind_follows rfl fun resumes _ => ?_
  refine settle_bind_follows fun decision hdecision => ?_
  have hresumed : (⟨.resumes state, resumes⟩ : (r : AnalysisRequest) × r.Answer) ∈
      (talks fun _ r => submittedKey r = none).move [] (.resumes state) resumes :=
    mem_cons_self
  have hkeep : ∀ {talk : Talk} {s : AnalysisState} {goto : Option AnalysisNode},
      s.threadId = state.threadId → s.attempt = state.attempt → s.ledger = state.ledger →
        goto ≠ some .reportAgent → Recovered env state talk ⟨s, [], goto⟩ :=
    fun hthread hattempt hledger hgoto =>
      ⟨hthread, hattempt, Or.inl hledger, fun h => absurd h hgoto⟩
  cases decision with
  | reportAgain revision =>
    refine whenOk_ok ⟨rfl, rfl, Or.inl rfl, fun _ => ⟨rfl, fun row hrow => ?_⟩⟩
    have hnone : (failedRow? (state.ledger.getD [])).map Prod.snd = none :=
      recoveryDecision_report hdecision
    rw [map_eq_none_iff.mp hnone, isNone_none, Bool.true_and, Bool.or_eq_false_iff] at hcheck
    have hall := List.any_eq_false.mp hcheck.2 row hrow
    rw [bne_iff_ne, not_not] at hall
    exact hall
  | decided action note =>
    rw [carryOut]
    split
    next hretry =>
      refine settle_bind_follows fun failed hfailed => ?_
      refine settle_bind_follows fun row' hrow' => whenOk_ok ?_
      rcases failed with ⟨i, row⟩
      have hsome := someOr_ok.mp hfailed
      rw [hsome, hretry] at hdecision
      cases hledger : state.ledger with
      | none =>
        rw [hledger] at hsome
        cases hsome
      | some ledger =>
        rw [hledger] at hsome
        refine ⟨rfl, rfl, Or.inr ⟨i, row, row', ⟨⟨ledger, hledger, hsome⟩,
          ⟨resumes, note, hresumed, hdecision⟩, hrow'⟩, ?_⟩, fun h => ?_⟩
        · rw [hledger]
        · cases h
    · split
      · refine ask_bind_follows rfl fun time _ => whenOk_ok (hkeep rfl rfl rfl ?_)
        intro h
        cases h
      · split
        · refine whenOk_ok (hkeep rfl rfl rfl ?_)
          intro h
          cases h
        · exact throw_follows

end Nodes

end Apex.Graphs.AnalysisLedger
