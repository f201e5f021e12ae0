import Apex.Domain.EngineHandle

/-!
# Native Analysis Submissions

Durable claims prevent that the creation of a native analysis is repeated after a
worker is lost. The claim of a key is committed before the request is sent, and what
the request returned before the graph is checkpointed; a repetition without what was
returned requires that an operator retries under a new key.

A claim inserts the row of its key unless there is one, and reads the row. That is one
transaction, whose end a worker may not learn.

## Main definitions

* `NativeAnalysisScope`: What a key is claimed for.
* `AnalysisJob`: What the provider says of an analysis.
* `NativeAnalysisSubmission`: The row of a key.
* `claimOutcome`, `receiptOutcome`: What a claim and a receipt make of their transactions.
-/

namespace Apex.Services

open Domain

/-- What native analyses take from outside: the patterns of the redactor, the digest of a
    text, and a scope as text. -/
structure NativeAnalysisEnv where
  rules : CredentialRules
  sha256 : String → String
  dumpJson : Json → String

/-- What is raised while an analysis is in progress. `httpTransport` and `httpStatus` are
    those of the client library, `transport` and `ambiguous` those of the engine adapter;
    `interrupted` waits for an operator. -/
inductive AnalysisExc where
  | uncertain (text : String)
  | transport (text : String)
  | ambiguous (text : String)
  | httpTransport (text : String)
  | httpStatus (code : Nat) (text : String)
  | interrupted (payload : Dict Json)
  | other (text : String)
  deriving DecidableEq

def AnalysisExc.text : AnalysisExc → String
  | uncertain text => text
  | transport text => text
  | ambiguous text => text
  | httpTransport text => text
  | httpStatus _ text => text
  | interrupted _ => ""
  | other text => text

/-- Whether the same request may succeed later. -/
def AnalysisExc.transient : AnalysisExc → Bool
  | transport _ => true
  | ambiguous _ => true
  | httpTransport _ => true
  | httpStatus code _ => [408, 429, 500, 502, 503, 504].contains code
  | _ => false

/-- Whether a text is a digest in hexadecimal: `^[a-f0-9]{64}$`. -/
def isHexDigest (s : String) : Bool :=
  decide (s.length = 64) && s.toList.all fun c => ('0' ≤ c && c ≤ '9') || ('a' ≤ c && c ≤ 'f')

structure NativeAnalysisScope where
  threadId : String
  phaseAttempt : Nat
  projectId : Option String
  connectionId : String
  nativeRunId : String
  inputDigest : String
  idempotencyKey : String
  deriving DecidableEq

namespace NativeAnalysisScope

def modelDump (scope : NativeAnalysisScope) : Json :=
  .ofDict (((((((Dict.single "thread_id" (Json.str scope.threadId)).set
    "phase_attempt" (.int scope.phaseAttempt)).set
    "project_id" (textJson scope.projectId)).set
    "connection_id" (.str scope.connectionId)).set
    "native_run_id" (.str scope.nativeRunId)).set
    "input_digest" (.str scope.inputDigest)).set
    "idempotency_key" (.str scope.idempotencyKey))

def accepted (env : NativeAnalysisEnv) (scope : NativeAnalysisScope) : Bool :=
  (textField 1 255 (.str scope.threadId)).isSome
    && decide (1 ≤ scope.phaseAttempt ∧ scope.phaseAttempt ≤ 1000000)
    && (optionalTextField 256 (textJson scope.projectId)).isSome
    && (textField 1 256 (.str scope.connectionId)).isSome
    && (textField 1 256 (.str scope.nativeRunId)).isSome
    && isHexDigest scope.inputDigest && isHexDigest scope.idempotencyKey
    && !containsCredentialMaterial env.rules plainScanLimits scope.modelDump

def digest (env : NativeAnalysisEnv) (scope : NativeAnalysisScope) : String :=
  env.sha256 (env.dumpJson scope.modelDump)

end NativeAnalysisScope

inductive JobStatus where
  | queued
  | running
  | succeeded
  | failed
  | cancelled
  deriving DecidableEq, Repr

def JobStatus.value : JobStatus → String
  | queued => "queued"
  | running => "running"
  | succeeded => "succeeded"
  | failed => "failed"
  | cancelled => "cancelled"

def JobStatus.ofValue? (v : Json) : Option JobStatus :=
  [JobStatus.queued, .running, .succeeded, .failed, .cancelled].find? fun s => v == .str s.value

structure AnalysisJob where
  jobId : String
  status : JobStatus
  error : Option String
  deriving DecidableEq

def AnalysisJob.modelDump (job : AnalysisJob) : Json :=
  .ofDict (((Dict.single "job_id" (Json.str job.jobId)).set
    "status" (.str job.status.value)).set "error" (textJson job.error))

variable (env : NativeAnalysisEnv) (scope : NativeAnalysisScope)

/-- `model_validate`: a job that is read from its fields. -/
def AnalysisJob.modelValidate (jobId status error : Json) :
    Except AnalysisExc AnalysisJob :=
  match textField 1 256 jobId, JobStatus.ofValue? status, optionalTextField 4096 error with
  | some id, some s, some e =>
    if containsCredentialMaterial env.rules plainScanLimits (AnalysisJob.modelDump ⟨id, s, e⟩) then
      .error (.other "Analysis job contains credential material")
    else .ok ⟨id, s, e⟩
  | _, _, _ => .error (.other "Invalid analysis job")

/-- `AnalysisJob(job_id=job_id, status="queued")`. -/
def validJob (jobId : String) : Except AnalysisExc AnalysisJob :=
  AnalysisJob.modelValidate env (.str jobId) (.str "queued") .null

theorem modelValidate_jobId {env : NativeAnalysisEnv} {jobId status error : Json} {job : AnalysisJob}
    (h : AnalysisJob.modelValidate env jobId status error = .ok job) : jobId = .str job.jobId := by
  unfold AnalysisJob.modelValidate at h
  split at h
  · rename_i id s e hid _ _
    split at h
    · cases h
    · rw [Except.ok.injEq] at h
      cases jobId with
      | str text =>
        by_cases hok : 1 ≤ text.length ∧ text.length ≤ 256 ∧ hasNul text = false
        · rw [textField, if_pos hok, Option.some.injEq] at hid
          rw [← h, hid]
        · rw [textField, if_neg hok] at hid
          cases hid
      | _ => cases hid
  · cases h

theorem validJob_jobId {env : NativeAnalysisEnv} {jobId : String} {job : AnalysisJob}
    (h : validJob env jobId = .ok job) : job.jobId = jobId :=
  (Json.str.inj (modelValidate_jobId h)).symm

/-- `NativeAnalysisSubmission`: a write-ahead receipt. -/
structure NativeAnalysisSubmission where
  idempotencyKey : String
  scopeDigest : String
  threadId : String
  connectionId : String
  nativeRunId : String
  jobId : Option String
  deriving DecidableEq

def reservation :
    NativeAnalysisSubmission where
  idempotencyKey := scope.idempotencyKey
  scopeDigest := scope.digest env
  threadId := scope.threadId
  connectionId := scope.connectionId
  nativeRunId := scope.nativeRunId
  jobId := none

def submissionOf (rows : List NativeAnalysisSubmission) (key : String) :
    Option NativeAnalysisSubmission :=
  rows.find? fun row => row.idempotencyKey == key

/-- `insert ... on conflict do nothing`. -/
def reserve (rows : List NativeAnalysisSubmission) : List NativeAnalysisSubmission :=
  match submissionOf rows scope.idempotencyKey with
  | some _ => rows
  | none => rows ++ [reservation env scope]

/-- Whether a receipt is written into a row: it is that of the scope, and has no other job. -/
def receives (jobId : String) (row : NativeAnalysisSubmission) : Bool :=
  row.idempotencyKey == scope.idempotencyKey && row.scopeDigest == scope.digest env
    && (row.jobId.isNone || row.jobId == some jobId)

def receive (jobId : String)
    (rows : List NativeAnalysisSubmission) : List NativeAnalysisSubmission :=
  rows.map fun row =>
    if receives env scope jobId row then { row with jobId := some jobId } else row

/-- What a claim is told: whether its row was inserted, and the row of the key; or nothing,
    when the transaction failed or its end was lost. -/
inductive ClaimAnswer where
  | told (inserted : Bool) (receipt : Option NativeAnalysisSubmission)
  | lost

inductive ReceiptAnswer where
  | told (changed : Bool)
  | lost

def persistenceUnavailable : AnalysisExc :=
  .other "Native analysis submission persistence is unavailable"

/-- `claim_native_analysis`: nothing is returned only to the worker whose new reservation has
    committed. -/
def claimOutcome :
    ClaimAnswer → Except AnalysisExc (Option String)
  | .lost => .error persistenceUnavailable
  | .told _ none => .error (.other "Native analysis submission is bound to different inputs")
  | .told inserted (some receipt) =>
    if receipt.scopeDigest ≠ scope.digest env then
      .error (.other "Native analysis submission is bound to different inputs")
    else if inserted then .ok none
    else
      match receipt.jobId with
      | none => .error (.uncertain
          "A prior native RCA submission has no confirmed remote identity")
      | some jobId => (fun job => some job.jobId) <$> validJob env jobId

/-- `record_native_analysis_receipt`. -/
def receiptOutcome : ReceiptAnswer → Except AnalysisExc Unit
  | .lost => .error persistenceUnavailable
  | .told changed =>
    if changed then .ok ()
    else .error (.other "Native analysis receipt conflicts with its durable reservation")

section

variable {env : NativeAnalysisEnv} {scope : NativeAnalysisScope} {a : ClaimAnswer}

theorem claimOutcome_none
    (h : claimOutcome env scope a = .ok none) : ∃ receipt, a = .told true (some receipt) := by
  unfold claimOutcome at h
  split at h
  · cases h
  · cases h
  · rename_i inserted receipt
    split at h
    · cases h
    · cases inserted with
      | true => exact ⟨receipt, rfl⟩
      | false =>
        rw [if_neg Bool.false_ne_true] at h
        split at h
        · cases h
        · rcases map_ok.mp h with ⟨_, _, hsome⟩
          cases hsome

theorem claimOutcome_some
    {jobId : String} (h : claimOutcome env scope a = .ok (some jobId)) :
    ∃ receipt, a = .told false (some receipt) ∧ receipt.jobId = some jobId := by
  unfold claimOutcome at h
  split at h
  · cases h
  · cases h
  · rename_i inserted receipt
    split at h
    · cases h
    · cases inserted with
      | true =>
        rw [if_pos rfl] at h
        cases h
      | false =>
        rw [if_neg Bool.false_ne_true] at h
        refine ⟨receipt, rfl, ?_⟩
        split at h
        · cases h
        · rename_i stored hstored
          rcases map_ok.mp h with ⟨job, hjob, hsome⟩
          rw [hstored, ← validJob_jobId hjob]
          exact hsome

end

end Apex.Services
