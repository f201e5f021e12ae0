import Apex.Theory.AnalysisLedger.Steps
import Apex.Theory.NativeAnalysis.AtMostOnce

/-!
# The Submission Ledger Of A Report

A reporting attempt is prepared, and then its two nodes run in any order, with any answers
and any decisions, and may be stopped at any request. A row that has a job is not submitted
again until an operator has retried it, and that only renews a row whose job the provider
has reported as lost or whose native submission is not confirmed. Rows are worked in order
and a row that has succeeded stays as it is.

The key of a row is a digest over its attempt, so the keys of different attempts and of
different rows are different where the digests of a run do not collide.

## Main definitions

* `Authorizes`: A retry that lets a row submit again.
* `keyTexts`: The texts whose digests are the keys of a ledger.

## Theorems

* `standing_run`: What holds of the rows at the end of every run.
* `analysis_ledger_kept_sample`: A run in which an analysis is submitted.
-/

namespace Apex.Graphs.AnalysisLedger

open List Option
open Services

open Apex.Action hiding ask

/-- A node of the reporting phase, and what it is run with. -/
inductive LedgerNode where
  | step (cfg : ReportingConfig)
  | recovery (actor : String)

variable (env : AnalysisEnv) (s : AnalysisState)

def LedgerNode.program (state : AnalysisState) :
    LedgerNode → AnalysisAction AnalysisExc NodeUpdate
  | .step cfg => analysisStep env cfg state
  | .recovery actor => analysisRecovery env actor state

/-- A node that ran: the state it began from, what it asked and was answered, where it leads to,
    and the state that it left. -/
structure LedgerEvent where
  before : AnalysisState
  node : LedgerNode
  talk : Talk
  goto : Option AnalysisNode
  after : AnalysisState

/-- The two nodes, one after the other. A node that raises or is stopped at a request leaves the
    state as it was, and other nodes leave the ledger. -/
inductive LedgerRun (env : AnalysisEnv) (s₀ : AnalysisState) :
    List LedgerEvent → AnalysisState → Prop
  | prepared : LedgerRun env s₀ [] s₀
  | returned {events : List LedgerEvent} {s : AnalysisState} {node : LedgerNode} {talk : Talk}
      {u : NodeUpdate} (hrun : LedgerRun env s₀ events s)
      (htalk : (node.program env s).run.converses talk (.done (.ok u))) :
      LedgerRun env s₀ (events ++ [⟨s, node, talk, u.goto, u.state⟩]) u.state
  | stopped {events : List LedgerEvent} {s : AnalysisState} {node : LedgerNode} {talk : Talk}
      {rest : Program AnalysisRequest AnalysisRequest.Answer (Except AnalysisExc NodeUpdate)}
      (hrun : LedgerRun env s₀ events s) (htalk : (node.program env s).run.converses talk rest) :
      LedgerRun env s₀ (events ++ [⟨s, node, talk, none, s⟩]) s
  | elsewhere {events : List LedgerEvent} {s s' : AnalysisState} (hrun : LedgerRun env s₀ events s)
      (hsame : SameLedger s s') : LedgerRun env s₀ events s'

def rowAt (i : Nat) : Option LedgerRow := (s.ledger.getD [])[i]?

namespace LedgerEvent

def submissions (e : LedgerEvent) : List String := e.talk.filterMap fun x => submittedKey x.1

def worksOn (e : LedgerEvent) : Option Nat :=
  match e.node with
  | .step _ => (nextRow? (e.before.ledger.getD [])).map Prod.fst
  | .recovery _ => (failedRow? (e.before.ledger.getD [])).map Prod.fst

/-- The row at a place is the one row, and then the other. -/
def Turns (e : LedgerEvent) (i : Nat) (row row' : LedgerRow) : Prop :=
  rowAt e.before i = some row ∧ e.after.ledger = e.before.ledger.map fun ledger => ledger.set i row'

/-- What a node does: it submits for the row it works on at most, and leaves the ledger, or
    that row in a way that is accounted for. -/
structure Lawful (env : AnalysisEnv) (e : LedgerEvent) : Prop where
  threadId : e.after.threadId = e.before.threadId
  attempt : e.after.attempt = e.before.attempt
  submits : e.submissions = [] ∨ ∃ cfg i row key, e.node = .step cfg ∧ Next e.before i row ∧
    row.jobId = none ∧ (row.requestJson = none → key = row.idempotencyKey) ∧ e.submissions = [key]
  ledger : e.after.ledger = e.before.ledger ∨ ∃ i row row', e.Turns i row row' ∧
    ((∃ cfg, e.node = .step cfg ∧ Next e.before i row ∧ Advanced env e.talk row row') ∨
      ∃ actor, e.node = .recovery actor ∧ Retry env e.before e.talk i row row')
  report : e.goto = some .reportAgent → ∀ row ∈ e.after.ledger.getD [], row.status = .succeeded

end LedgerEvent

section Laws

variable {env : AnalysisEnv} {s : AnalysisState} {e : LedgerEvent}
  {i k : Nat} {row row' : LedgerRow}

theorem Next.at (h : Next s i row) : rowAt s i = some row := by
  rcases h with ⟨ledger, hledger, hnext⟩
  rw [rowAt, hledger, getD_some]
  exact find_row hnext

variable {ledger : List LedgerRow}
  {rest : Program AnalysisRequest AnalysisRequest.Answer (Except AnalysisExc NodeUpdate)}

theorem failed_at (hledger : s.ledger = some ledger)
    (h : failedRow? ledger = some (i, row)) : rowAt s i = some row := by
  rw [rowAt, hledger, getD_some]
  exact find_row h

theorem find_first {p : LedgerRow → Bool}
    (h : (ledger.zipIdx.find? fun entry => p entry.1).map Prod.swap = some (i, row)) :
    p row = true ∧ ∀ j < i, ∀ r, ledger[j]? = some r → p r = false := by
  rcases map_eq_some_iff.mp h with ⟨⟨found, place⟩, hfind, hswap⟩
  cases hswap
  refine ⟨find?_some (p := fun entry : LedgerRow × Nat => p entry.1) hfind, fun j hj r hr => ?_⟩
  rcases find?_eq_some_iff_getElem.mp hfind with ⟨_, n, hn, hat, hbefore⟩
  rw [getElem_zipIdx, Prod.mk.injEq, Nat.zero_add] at hat
  rw [← hat.2] at hj
  have hsmall : j < ledger.length :=
    (List.getElem?_eq_some_iff.mp hr).1
  have hnone := hbefore j hj
  rw [getElem_zipIdx] at hnone
  rw [(List.getElem?_eq_some_iff.mp hr).2] at hnone
  exact Bool.not_eq_true' _ ▸ hnone

theorem Next.first (h : Next s i row) :
    row.status ≠ .succeeded ∧ ∀ j < i, ∀ r, rowAt s j = some r → r.status = .succeeded := by
  rcases h with ⟨ledger, hledger, hnext⟩
  have hfirst := find_first (p := fun row => row.status != .succeeded) hnext
  refine ⟨bne_iff_ne.mp hfirst.1, fun j hj r hr => ?_⟩
  rw [rowAt, hledger, getD_some] at hr
  have hdone := hfirst.2 j hj r hr
  rw [bne_eq_false_iff_eq] at hdone
  exact hdone

variable {talk : Talk} {node : LedgerNode}

theorem Retry.at (h : Retry env s talk i row row') :
    rowAt s i = some row ∧ row.status = .failed := by
  rcases h.failed with ⟨ledger, hledger, hfailed⟩
  exact ⟨failed_at hledger hfailed,
    beq_iff_eq.mp (find_first (p := fun row => row.status == .failed) hfailed).1⟩

theorem LedgerEvent.Turns.rowAt (h : e.Turns i row row') (k : Nat) :
    rowAt e.after k = if k = i then some row' else rowAt e.before k := by
  rcases h with ⟨hat, hledger⟩
  rw [AnalysisLedger.rowAt] at hat
  rw [AnalysisLedger.rowAt, AnalysisLedger.rowAt, hledger]
  cases hsome : e.before.ledger with
  | none =>
    rw [hsome] at hat
    cases hat
  | some ledger =>
    rw [hsome, getD_some] at hat
    rw [map_some, getD_some, getD_some, getElem?_set]
    have hsmall := (List.getElem?_eq_some_iff.mp hat).1
    by_cases hk : k = i
    · rw [if_pos hk.symm, if_pos hk, if_pos hsmall]
    · rw [if_neg (Ne.symm hk), if_neg hk]

theorem submissions_of_talk
    (h : ∀ earlier x later, talk = earlier ++ x :: later → allowsSubmission s earlier x.1) :
    talk.filterMap (fun x => submittedKey x.1) = [] ∨ ∃ i row key, Next s i row ∧ row.jobId = none ∧
      (row.requestJson = none → key = row.idempotencyKey) ∧
      talk.filterMap (fun x => submittedKey x.1) = [key] := by
  by_cases hsilent : Silent talk
  · exact Or.inl (filterMap_eq_nil_iff.mpr hsilent)
  rw [Silent] at hsilent
  push Not at hsilent
  rcases hsilent with ⟨x, hx, hkey⟩
  rcases ne_none_iff_exists'.mp hkey with ⟨key, hsubmitted⟩
  rcases append_of_mem hx with ⟨earlier, later, rfl⟩
  rcases h earlier x later rfl key hsubmitted with ⟨i, row, hnext, hjob, hsame, hquiet⟩
  refine Or.inr ⟨i, row, key, hnext, hjob, hsame, ?_⟩
  -- Another submission later would have found this one before it.
  have hlater : ∀ y ∈ later, submittedKey y.1 = none := by
    intro y hy
    cases hother : submittedKey y.1 with
    | none => rfl
    | some other =>
      rcases append_of_mem hy with ⟨between, rest, rfl⟩
      rcases h (earlier ++ x :: between) y rest (by rw [append_assoc]; rfl) other hother with
        ⟨_, _, _, _, _, hnothing⟩
      have hfound := hnothing x (mem_append_right _ mem_cons_self)
      rw [hsubmitted] at hfound
      cases hfound
  rw [filterMap_append, filterMap_eq_nil_iff.mpr hquiet, nil_append,
    filterMap_cons, hsubmitted, filterMap_eq_nil_iff.mpr hlater]

theorem node_submissions (h : (node.program env s).run.converses talk rest) :
    talk.filterMap (fun x => submittedKey x.1) = [] ∨ ∃ cfg i row key, node = .step cfg ∧
      Next s i row ∧ row.jobId = none ∧ (row.requestJson = none → key = row.idempotencyKey) ∧
      talk.filterMap (fun x => submittedKey x.1) = [key] := by
  cases node with
  | step cfg =>
    have hallowed := (Program.converses_talks analysisStep_talks h).2
    refine (submissions_of_talk hallowed).imp_right ?_
    rintro ⟨i, row, key, hsubmits⟩
    exact ⟨cfg, i, row, key, rfl, hsubmits⟩
  | recovery actor =>
    refine Or.inl (filterMap_eq_nil_iff.mpr fun x hx => ?_)
    rcases append_of_mem hx with ⟨earlier, later, hsplit⟩
    exact (Program.converses_talks analysisRecovery_talks h).2 earlier x later hsplit

theorem lawful_returned {u : NodeUpdate}
    (h : (node.program env s).run.converses talk (.done (.ok u))) :
    (LedgerEvent.mk s node talk u.goto u.state).Lawful env := by
  have hsubmits := node_submissions h
  cases node with
  | step cfg =>
    have hstepped : Stepped env s talk u :=
      (Program.converses_talks analysisStep_talks h).1 u rfl
    rcases hstepped.row with ⟨i, row, row', hnext, hadvanced, hstate⟩
    have hthread : u.state.threadId = s.threadId := by rw [hstate]
    have hattempt : u.state.attempt = s.attempt := by rw [hstate]
    have hledger : u.state.ledger = s.ledger.map fun ledger => ledger.set i row' :=
      by rw [hstate]
    refine ⟨hthread, hattempt, hsubmits, Or.inr ⟨i, row, row', ⟨hnext.at, hledger⟩,
      Or.inl ⟨cfg, rfl, hnext, hadvanced⟩⟩, fun hgoto => ?_⟩
    cases hstepped.goto.symm.trans hgoto
  | recovery actor =>
    have hrecovered : Recovered env s talk u :=
      (Program.converses_talks analysisRecovery_talks h).1 u rfl
    refine ⟨hrecovered.threadId, hrecovered.attempt, hsubmits, ?_, fun hgoto => ?_⟩
    · refine hrecovered.ledger.imp_right ?_
      rintro ⟨i, row, row', hretry, hledger⟩
      exact ⟨i, row, row', ⟨hretry.at.1, hledger⟩, Or.inr ⟨actor, rfl, hretry⟩⟩
    · rcases hrecovered.report hgoto with ⟨hledger, hall⟩
      change ∀ row ∈ u.state.ledger.getD [], row.status = .succeeded
      rw [hledger]
      exact hall

theorem lawful_stopped (h : (node.program env s).run.converses talk rest) :
    (LedgerEvent.mk s node talk none s).Lawful env := by
  refine ⟨rfl, rfl, node_submissions h, Or.inl rfl, fun hgoto => ?_⟩
  cases hgoto

end Laws

/-- The text whose digest is the first key of a connection. -/
def firstText (connectionId digest : String) : String :=
  s.threadId ++ ":reporting:" ++ toString s.attempt ++ ":" ++ connectionId ++ ":" ++ digest ++ ":1"

/-- The text whose digest is the key after some renewals. -/
def keyText (first : String) : Nat → String
  | 0 => first
  | n + 1 => env.sha256 (keyText first n) ++ ":" ++ toString (n + 2)

def rowText (row : LedgerRow) (n : Nat) : String :=
  keyText env (firstText s row.connectionId row.inputDigest) n

def keyTexts : List String :=
  (s.ledger.getD []).flatMap fun row => (List.range row.attempt).map (rowText env s row)

section Keys

variable {env : AnalysisEnv}

theorem colon_split {xs ys ds es : List Char} (hds : ':' ∉ ds) (hes : ':' ∉ es)
    (h : xs ++ ':' :: ds = ys ++ ':' :: es) : xs = ys ∧ ds = es := by
  rcases append_eq_append_iff.mp h with ⟨between, rfl, hrest⟩ | ⟨between, rfl, hrest⟩
  · cases between with
    | nil => exact ⟨(append_nil xs).symm, (cons.inj hrest).2⟩
    | cons c rest =>
      rw [cons_append, cons.injEq] at hrest
      exact absurd (hrest.2 ▸ mem_append_right rest mem_cons_self) hds
  · cases between with
    | nil => exact ⟨append_nil ys, (cons.inj hrest).2.symm⟩
    | cons c rest =>
      rw [cons_append, cons.injEq] at hrest
      exact absurd (hrest.2 ▸ mem_append_right rest mem_cons_self) hes

theorem colon_not_digit (n : Nat) : ':' ∉ Nat.toDigits 10 n := by
  intro h
  exact absurd (Nat.isDigit_of_mem_toDigits (by decide) (by decide) h) (by decide)

theorem numbered_inj {a b : String} {m n : Nat}
    (h : a ++ ":" ++ toString m = b ++ ":" ++ toString n) : a = b ∧ m = n := by
  have hlist := congrArg String.toList h
  have hnumber : ∀ (c : String) (k : Nat), (c ++ ":" ++ toString k).toList =
      c.toList ++ ':' :: Nat.toDigits 10 k := by
    intro c k
    have hcolon : ":".toList = [':'] := by decide
    simp only [String.toList_append, hcolon, Nat.toString_eq_ofList_toDigits, String.toList_ofList,
      append_assoc, singleton_append]
  rw [hnumber, hnumber] at hlist
  rcases colon_split (colon_not_digit m) (colon_not_digit n) hlist with ⟨hsame, hdigits⟩
  have hvalue := congrArg (fun ds => Nat.ofDigitChars 10 ds 0) hdigits
  simp only [Nat.ofDigitChars_ten_toDigits] at hvalue
  exact ⟨String.toList_inj.mp hsame, hvalue⟩

theorem firstText_numbered (s : AnalysisState) (connectionId digest : String) :
    ∃ a, firstText s connectionId digest = a ++ ":" ++ toString 1 := by
  refine ⟨s.threadId ++ ":reporting:" ++ toString s.attempt ++ ":" ++ connectionId ++ ":" ++ digest,
    ?_⟩
  have hend : ":1" = ":" ++ toString 1 := by decide
  rw [firstText, hend, ← String.append_assoc]

theorem firstText_inj {s : AnalysisState} {c c' digest : String}
    (h : firstText s c digest = firstText s c' digest) : c = c' := by
  have hlist := congrArg String.toList h
  simp only [firstText, String.toList_append, append_assoc] at hlist
  have hrest := append_cancel_left (append_cancel_left (append_cancel_left
    (append_cancel_left hlist)))
  exact String.toList_inj.mp (append_cancel_right hrest)

/-- Keys after different numbers of renewals, or of different connections, are digests of
    different texts. -/
theorem keyText_inj {first first' : String} (hfirst : ∃ a, first = a ++ ":" ++ toString 1)
    (hfirst' : ∃ a, first' = a ++ ":" ++ toString 1) : ∀ {m n : Nat},
    (∀ p ≤ m, ∀ q ≤ n, env.sha256 (keyText env first p) = env.sha256 (keyText env first' q) →
      keyText env first p = keyText env first' q) →
    keyText env first m = keyText env first' n → first = first' ∧ m = n
  | 0, 0, _, h => ⟨h, rfl⟩
  | 0, n + 1, _, h => by
    rcases hfirst with ⟨a, ha⟩
    rw [keyText, keyText, ha] at h
    have hnumber := (numbered_inj h).2
    omega
  | m + 1, 0, _, h => by
    rcases hfirst' with ⟨a, ha⟩
    rw [keyText, keyText, ha] at h
    have hnumber := (numbered_inj h).2
    omega
  | m + 1, n + 1, hinj, h => by
    rw [keyText, keyText] at h
    have hbefore := hinj m (Nat.le_succ m) n (Nat.le_succ n) (numbered_inj h).1
    rcases keyText_inj hfirst hfirst'
      (fun p hp q hq => hinj p (Nat.le_succ_of_le hp) q (Nat.le_succ_of_le hq)) hbefore
      with ⟨hsame, hnumber⟩
    exact ⟨hsame, congrArg (· + 1) hnumber⟩

end Keys

def WorkedUnder (e : LedgerEvent) (i : Nat) (key : String) : Prop :=
  (∃ cfg, e.node = .step cfg) ∧ ∃ row, Next e.before i row ∧ row.idempotencyKey = key

/-- A row is known to be lost or unconfirmed: under its key the provider has told that its job
    failed or was cancelled, or a native submission was not confirmed. -/
def KnownLost (events : List LedgerEvent) (i : Nat) (row : LedgerRow) : Prop :=
  (∃ j, row.jobId = some j ∧
    ∃ e ∈ events, WorkedUnder e i row.idempotencyKey ∧ ReportedLost env e.talk j) ∨
  ∃ e ∈ events, WorkedUnder e i row.idempotencyKey ∧ Unconfirmed env e.talk

structure RowStanding (env : AnalysisEnv) (s₀ : AnalysisState) (events : List LedgerEvent) (i : Nat)
    (row : LedgerRow) : Prop where
  origin : ∃ row₀, rowAt s₀ i = some row₀ ∧ row.connectionId = row₀.connectionId ∧
    row.inputDigest = row₀.inputDigest
  request : row.requestJson = none
  positive : 0 < row.attempt
  key : row.idempotencyKey = env.sha256 (rowText env s₀ row (row.attempt - 1))
  terminal : row.providerTerminalFailure = true → ∃ j, row.jobId = some j ∧
    ∃ e ∈ events, WorkedUnder e i row.idempotencyKey ∧ ReportedLost env e.talk j
  uncertain : row.submissionUncertain = true →
    ∃ e ∈ events, WorkedUnder e i row.idempotencyKey ∧ Unconfirmed env e.talk

/-- What holds of a state: the rows stand, and those after one that has not succeeded are as they
    were prepared. -/
structure Standing (env : AnalysisEnv) (s₀ : AnalysisState) (events : List LedgerEvent)
    (s : AnalysisState) : Prop where
  threadId : s.threadId = s₀.threadId
  attempt : s.attempt = s₀.attempt
  rows : ∀ i row, rowAt s i = some row → RowStanding env s₀ events i row
  untouched : ∀ j row, rowAt s j = some row → row.status ≠ .succeeded →
    ∀ i, j < i → rowAt s i = rowAt s₀ i

/-- What a preparation leaves: first rows of different connections. -/
structure Prepared (env : AnalysisEnv) (s₀ : AnalysisState) : Prop where
  rows : ∃ digest, ∀ i row, rowAt s₀ i = some row →
    ∃ selection, row = firstRow env s₀ digest selection
  distinct : ∀ i j row row', rowAt s₀ i = some row → rowAt s₀ j = some row' →
    row.connectionId = row'.connectionId → i = j

section Rows

variable {env : AnalysisEnv} {s₀ : AnalysisState} {events : List LedgerEvent} {e : LedgerEvent}
  {i : Nat} {row row' : LedgerRow}

theorem RowStanding.later (h : RowStanding env s₀ events i row) (e : LedgerEvent) :
    RowStanding env s₀ (events ++ [e]) i row := by
  refine ⟨h.origin, h.request, h.positive, h.key, fun hlost => ?_, fun hlost => ?_⟩
  · rcases h.terminal hlost with ⟨j, hj, x, hx, htold⟩
    exact ⟨j, hj, x, mem_append_left _ hx, htold⟩
  · rcases h.uncertain hlost with ⟨x, hx, htold⟩
    exact ⟨x, mem_append_left _ hx, htold⟩

theorem RowStanding.advanced (h : RowStanding env s₀ events i row) {cfg : ReportingConfig}
    (hnode : e.node = .step cfg) (hnext : Next e.before i row)
    (hadvanced : Advanced env e.talk row row') : RowStanding env s₀ (events ++ [e]) i row' := by
  have hworked : WorkedUnder e i row.idempotencyKey := ⟨⟨cfg, hnode⟩, row, hnext, rfl⟩
  have hmem : e ∈ events ++ [e] := mem_append_right _ mem_cons_self
  have hlater := h.later e
  refine ⟨?_, hadvanced.request.trans h.request, hadvanced.attempt ▸ h.positive, ?_,
    fun hmark => ?_, fun hmark => ?_⟩
  · rw [hadvanced.connectionId, hadvanced.digest]
    exact h.origin
  · rw [hadvanced.key, hadvanced.attempt, rowText, hadvanced.connectionId, hadvanced.digest]
    exact h.key
  · rw [hadvanced.key]
    rcases hadvanced.terminal hmark with hold | ⟨j, hj, hlost⟩
    · rcases hlater.terminal hold with ⟨j, hj, htold⟩
      exact ⟨j, hadvanced.job j hj, htold⟩
    · exact ⟨j, hadvanced.job j hj, e, hmem, hworked, hlost⟩
  · rw [hadvanced.key]
    rcases hadvanced.uncertain hmark with hold | hunconfirmed
    · exact hlater.uncertain hold
    · exact ⟨e, hmem, hworked, hunconfirmed⟩

theorem retried_resumed (h : row.retried env = .ok row') (hflagged : row.flagged = false) :
    row' = { row with status := .pending, startedAt := none, error := none } := by
  rw [LedgerRow.retried, if_neg (by rw [hflagged]; exact Bool.false_ne_true)] at h
  rcases map_ok.mp h with ⟨same, hsame, rfl⟩
  rw [← Except.ok.inj hsame]

structure Renews (env : AnalysisEnv) (row row' : LedgerRow) : Prop where
  connectionId : row'.connectionId = row.connectionId
  digest : row'.inputDigest = row.inputDigest
  attempt : row'.attempt = row.attempt + 1
  key : row'.idempotencyKey = row.nextKey env
  request : row.requestJson = none → row'.requestJson = none
  job : row'.jobId = none
  terminal : row'.providerTerminalFailure = false
  uncertain : row'.submissionUncertain = false

theorem retried_renews (h : row.retried env = .ok row') (hflagged : row.flagged = true) :
    Renews env row row' := by
  rw [LedgerRow.retried, if_pos hflagged] at h
  rcases map_ok.mp h with ⟨renewed, hrenewed, rfl⟩
  rcases bind_ok.mp hrenewed with ⟨request, hrequest, hok⟩
  rw [← Except.ok.inj hok]
  refine ⟨rfl, rfl, rfl, rfl, fun hnone => ?_, rfl, rfl, rfl⟩
  rw [LedgerRow.requestAfter, hnone] at hrequest
  exact (Except.ok.inj hrequest).symm

theorem RowStanding.retried (h : RowStanding env s₀ events i row) (hrow : row.retried env = .ok row') :
    (row' = { row with status := .pending, startedAt := none, error := none }) ∨
      (Renews env row row' ∧ KnownLost env events i row) := by
  cases hflagged : row.flagged with
  | false => exact Or.inl (retried_resumed hrow hflagged)
  | true =>
    refine Or.inr ⟨retried_renews hrow hflagged, ?_⟩
    rcases Bool.or_eq_true_iff.mp hflagged with hterminal | huncertain
    · exact Or.inl (h.terminal hterminal)
    · exact Or.inr (h.uncertain huncertain)

theorem RowStanding.renewed (h : RowStanding env s₀ events i row) (hrenews : Renews env row row') :
    RowStanding env s₀ events i row' := by
  refine ⟨?_, hrenews.request h.request, ?_, ?_, fun hmark => ?_, fun hmark => ?_⟩
  · rw [hrenews.connectionId, hrenews.digest]
    exact h.origin
  · rw [hrenews.attempt]
    exact Nat.succ_pos _
  · have hpositive := h.positive
    rw [hrenews.key, hrenews.attempt, rowText, hrenews.connectionId, hrenews.digest,
      LedgerRow.nextKey, h.key, rowText]
    rcases Nat.exists_eq_succ_of_ne_zero (Nat.ne_of_gt hpositive) with ⟨n, hn⟩
    rw [hn]
    rfl
  · rw [hrenews.terminal] at hmark
    cases hmark
  · rw [hrenews.uncertain] at hmark
    cases hmark

end Rows

section States

variable {env : AnalysisEnv} {s₀ s s' : AnalysisState} {events : List LedgerEvent} {e : LedgerEvent}
  {i : Nat} {row row' : LedgerRow}

theorem rowAt_congr (h : s'.ledger = s.ledger) (i : Nat) : rowAt s' i = rowAt s i := by
  rw [rowAt, rowAt, h]

variable {cfg : ReportingConfig}

theorem prepared_of {state : AnalysisState} (hnone : state.ledger = none)
    (h : prepareAnalysis env cfg state = .ok s₀)
    (hdistinct : ((cfg.analysis.getD []).map AnalysisSelection.connectionId).Nodup) :
    Prepared env s₀ := by
  unfold prepareAnalysis at h
  split at h
  · rw [← Except.ok.inj h]
    have hempty : ∀ i, rowAt state i = none := by
      intro i
      rw [rowAt, hnone]
      rfl
    refine ⟨⟨"", fun i row hrow => ?_⟩, fun i j row row' hrow => ?_⟩
    · rw [hempty] at hrow
      cases hrow
    · rw [hempty] at hrow
      cases hrow
  · rcases bind_ok.mp h with ⟨evidence, _, hok⟩
    have hrows : ∀ i, rowAt s₀ i = (orderedSelections cfg)[i]?.map
        (firstRow env state (evidenceDigest env evidence)) := by
      intro i
      rw [← Except.ok.inj hok]
      exact getElem?_map
    have hthread : s₀.threadId = state.threadId := by rw [← Except.ok.inj hok]
    have hattempt : s₀.attempt = state.attempt := by rw [← Except.ok.inj hok]
    refine ⟨⟨evidenceDigest env evidence, fun i row hrow => ?_⟩, fun i j row row' hrow hrow' hc => ?_⟩
    · rw [hrows] at hrow
      rcases map_eq_some_iff.mp hrow with ⟨selection, _, rfl⟩
      refine ⟨selection, ?_⟩
      rw [firstRow, firstRow, firstKey, firstKey, hthread, hattempt]
    · rw [hrows] at hrow hrow'
      rcases map_eq_some_iff.mp hrow with ⟨selection, hi, rfl⟩
      rcases map_eq_some_iff.mp hrow' with ⟨selection', hj, rfl⟩
      have hordered : ((orderedSelections cfg).map AnalysisSelection.connectionId).Nodup :=
        ((perm_insertionSort _ _).map _).nodup_iff.mpr hdistinct
      refine (getElem?_inj ?_ hordered).mp ?_
      · rw [List.length_map]
        exact (List.getElem?_eq_some_iff.mp hi).1
      · rw [getElem?_map, getElem?_map, hi, hj]
        exact congrArg some hc

theorem Prepared.standing (h : Prepared env s₀) : Standing env s₀ [] s₀ := by
  rcases h.rows with ⟨digest, hrows⟩
  refine ⟨rfl, rfl, fun i row hrow => ?_, fun _ _ _ _ _ _ => rfl⟩
  rcases hrows i row hrow with ⟨selection, rfl⟩
  refine ⟨⟨_, hrow, rfl, rfl⟩, rfl, Nat.one_pos, rfl, fun hmark => ?_, fun hmark => ?_⟩
  · cases hmark
  · cases hmark

theorem Prepared.pending (h : Prepared env s₀) (hrow : rowAt s₀ i = some row) :
    row.status = .pending := by
  rcases h.rows with ⟨digest, hrows⟩
  rcases hrows i row hrow with ⟨selection, rfl⟩
  rfl

theorem Standing.works_first (h : Standing env s₀ events e.before) (hprepared : Prepared env s₀)
    (hworks : e.worksOn = some i) : (∃ row, rowAt e.before i = some row ∧ row.status ≠ .succeeded) ∧
      ∀ j < i, ∀ r, rowAt e.before j = some r → r.status = .succeeded := by
  rw [LedgerEvent.worksOn] at hworks
  split at hworks
  · rcases map_eq_some_iff.mp hworks with ⟨⟨_, row⟩, hfound, rfl⟩
    cases hledger : e.before.ledger with
    | none =>
      rw [hledger] at hfound
      cases hfound
    | some ledger =>
      rw [hledger] at hfound
      have hnext : Next e.before _ row := ⟨ledger, hledger, hfound⟩
      exact ⟨⟨row, hnext.at, hnext.first.1⟩, hnext.first.2⟩
  · rcases map_eq_some_iff.mp hworks with ⟨⟨_, row⟩, hfound, rfl⟩
    cases hledger : e.before.ledger with
    | none =>
      rw [hledger] at hfound
      cases hfound
    | some ledger =>
      rw [hledger] at hfound
      have hat := failed_at hledger hfound
      have hfailed : row.status = .failed :=
        beq_iff_eq.mp (find_first (p := fun row => row.status == .failed) hfound).1
      have hopen : row.status ≠ .succeeded := by
        rw [hfailed]
        exact fun hne => LedgerStatus.noConfusion hne
      refine ⟨⟨row, hat, hopen⟩, fun j hj r hr => ?_⟩
      by_contra hother
      have hsame := h.untouched j r hr hother _ hj
      rw [hat] at hsame
      rw [hprepared.pending hsame.symm] at hfailed
      cases hfailed

theorem worksOn_step (hnode : e.node = .step cfg)
    (hnext : Next e.before i row) : e.worksOn = some i := by
  rcases hnext with ⟨ledger, hledger, hnext⟩
  rw [LedgerEvent.worksOn, hnode, hledger]
  exact congrArg (Option.map Prod.fst) hnext

theorem worksOn_recovery {actor : String} {talk : Talk} (hnode : e.node = .recovery actor)
    (hretry : Retry env e.before talk i row row') : e.worksOn = some i := by
  rcases hretry.failed with ⟨ledger, hledger, hfailed⟩
  rw [LedgerEvent.worksOn, hnode, hledger]
  exact congrArg (Option.map Prod.fst) hfailed

theorem LedgerEvent.Lawful.turns (h : e.Lawful env) :
    e.after.ledger = e.before.ledger ∨ ∃ i row row', e.worksOn = some i ∧ e.Turns i row row' ∧
      ((∃ cfg, e.node = .step cfg ∧ Next e.before i row ∧ Advanced env e.talk row row') ∨
        ∃ actor, e.node = .recovery actor ∧ Retry env e.before e.talk i row row') := by
  refine h.ledger.imp_right ?_
  rintro ⟨i, row, row', hturns, hhow⟩
  refine ⟨i, row, row', ?_, hturns, hhow⟩
  rcases hhow with ⟨cfg, hnode, hnext, _⟩ | ⟨actor, hnode, hretry⟩
  · exact worksOn_step hnode hnext
  · exact worksOn_recovery hnode hretry

theorem RowStanding.turned (h : RowStanding env s₀ events i row)
    (hhow : (∃ cfg, e.node = .step cfg ∧ Next e.before i row ∧ Advanced env e.talk row row') ∨
      ∃ actor, e.node = .recovery actor ∧ Retry env e.before e.talk i row row') :
    RowStanding env s₀ (events ++ [e]) i row' := by
  rcases hhow with ⟨cfg, hnode, hnext, hadvanced⟩ | ⟨actor, hnode, hretry⟩
  · exact h.advanced hnode hnext hadvanced
  · rcases h.retried hretry.retried with rfl | ⟨hrenews, _⟩
    · exact ⟨h.origin, h.request, h.positive, h.key, (h.later e).terminal, (h.later e).uncertain⟩
    · exact (h.renewed hrenews).later e

theorem Standing.step (h : Standing env s₀ events e.before) (hprepared : Prepared env s₀)
    (hlawful : e.Lawful env) : Standing env s₀ (events ++ [e]) e.after := by
  rcases hlawful.turns with hsame | ⟨p, row, row', hworks, hturns, hhow⟩
  · refine ⟨hlawful.threadId.trans h.threadId, hlawful.attempt.trans h.attempt, fun i row hrow => ?_,
      fun j row hrow hopen i hij => ?_⟩
    · rw [rowAt_congr hsame] at hrow
      exact (h.rows i row hrow).later e
    · rw [rowAt_congr hsame] at hrow ⊢
      exact h.untouched j row hrow hopen i hij
  · rcases h.works_first hprepared hworks with ⟨⟨current, hat, hopen⟩, hfirst⟩
    refine ⟨hlawful.threadId.trans h.threadId, hlawful.attempt.trans h.attempt,
      fun i other hother => ?_, fun j other hother hotherOpen i hij => ?_⟩
    · rw [hturns.rowAt] at hother
      split at hother
      next hi =>
        cases hother
        rw [hi]
        exact (h.rows p row hturns.1).turned hhow
      · exact (h.rows i other hother).later e
    · rw [hturns.rowAt] at hother ⊢
      by_cases hi : i = p
      · -- A row before the one that turns has succeeded.
        rw [if_neg (Nat.ne_of_lt (hi ▸ hij))] at hother
        exact absurd (hfirst j (hi ▸ hij) other hother) hotherOpen
      · rw [if_neg hi]
        split at hother
        next hj => exact h.untouched p current hat hopen i (hj ▸ hij)
        · exact h.untouched j other hother hotherOpen i hij

theorem Standing.elsewhere (h : Standing env s₀ events s) (hsame : SameLedger s s') :
    Standing env s₀ events s' := by
  rcases hsame with ⟨hthread, hattempt, hledger⟩
  refine ⟨hthread.trans h.threadId, hattempt.trans h.attempt, fun i row hrow => ?_,
    fun j row hrow hopen i hij => ?_⟩
  · rw [rowAt_congr hledger] at hrow
    exact h.rows i row hrow
  · rw [rowAt_congr hledger] at hrow ⊢
    exact h.untouched j row hrow hopen i hij

theorem standing_run (hprepared : Prepared env s₀) (hrun : LedgerRun env s₀ events s) :
    Standing env s₀ events s := by
  induction hrun with
  | prepared => exact hprepared.standing
  | returned _ htalk ih => exact Standing.step ih hprepared (lawful_returned htalk)
  | stopped _ htalk ih => exact Standing.step ih hprepared (lawful_stopped htalk)
  | elsewhere _ hsame ih => exact ih.elsewhere hsame

/-- What holds of a prepared ledger and is kept by every event and by other nodes holds of every
    run. -/
theorem LedgerRun.keeps {P : List LedgerEvent → AnalysisState → Prop} (hstart : P [] s₀)
    (hstep : ∀ {events : List LedgerEvent} {e : LedgerEvent}, LedgerRun env s₀ events e.before →
      e.Lawful env → P events e.before → P (events ++ [e]) e.after)
    (hsame : ∀ {events : List LedgerEvent} {s s' : AnalysisState}, s'.ledger = s.ledger →
      P events s → P events s')
    (hrun : LedgerRun env s₀ events s) : P events s := by
  induction hrun with
  | prepared => exact hstart
  | returned hrun htalk ih => exact hstep (e := ⟨_, _, _, _, _⟩) hrun (lawful_returned htalk) ih
  | stopped hrun htalk ih => exact hstep (e := ⟨_, _, _, _, _⟩) hrun (lawful_stopped htalk) ih
  | elsewhere _ hsame' ih => exact hsame hsame'.2.2 ih

end States

/-- An operator has retried a row that is known to be lost or unconfirmed: it has no job, another
    attempt and another key. -/
structure Authorizes (env : AnalysisEnv) (earlier : List LedgerEvent) (i : Nat) (e : LedgerEvent)
    (row row' : LedgerRow) : Prop where
  before : rowAt e.before i = some row
  after : rowAt e.after i = some row'
  retry : ∃ actor, e.node = .recovery actor ∧ Retry env e.before e.talk i row row'
  known : KnownLost env earlier i row
  job : row'.jobId = none
  attempt : row'.attempt = row.attempt + 1
  key : row'.idempotencyKey = row.nextKey env

/-- What is told of an event after others: at most one key is submitted, that of the row the node
    works on, which has no job; every row before it has succeeded; only this row turns, and is
    under the same key or renewed by a retry; and a report is assembled again only where every
    row has succeeded. -/
structure EventKept (env : AnalysisEnv) (earlier : List LedgerEvent) (e : LedgerEvent) : Prop where
  submits : e.submissions = [] ∨ ∃ i row, e.worksOn = some i ∧ rowAt e.before i = some row ∧
    row.jobId = none ∧ e.submissions = [row.idempotencyKey]
  order : ∀ i, e.worksOn = some i → ∀ j < i, ∀ row, rowAt e.before j = some row →
    row.status = .succeeded
  turns : ∀ i, rowAt e.after i ≠ rowAt e.before i → e.worksOn = some i
  rows : ∀ i row, rowAt e.before i = some row → ∃ row', rowAt e.after i = some row' ∧
    (row.status = .succeeded → row' = row) ∧
    ((row'.attempt = row.attempt ∧ row'.idempotencyKey = row.idempotencyKey ∧
      ∀ j, row.jobId = some j → row'.jobId = some j) ∨ Authorizes env earlier i e row row')
  report : e.goto = some .reportAgent → ∀ row ∈ e.after.ledger.getD [], row.status = .succeeded

/-- A row was at a place before an event or after it. -/
def LedgerEvent.Has (e : LedgerEvent) (i : Nat) (row : LedgerRow) : Prop :=
  rowAt e.before i = some row ∨ rowAt e.after i = some row

section Events

variable {env : AnalysisEnv} {s₀ s : AnalysisState} {events : List LedgerEvent} {e : LedgerEvent}
  {i : Nat} {row row' : LedgerRow}

theorem Standing.row_kept (h : Standing env s₀ events e.before) (hprepared : Prepared env s₀)
    (hlawful : e.Lawful env) (hrow : rowAt e.before i = some row) :
    ∃ row', rowAt e.after i = some row' ∧ (row.status = .succeeded → row' = row) ∧
      ((row'.attempt = row.attempt ∧ row'.idempotencyKey = row.idempotencyKey ∧
        ∀ j, row.jobId = some j → row'.jobId = some j) ∨ Authorizes env events i e row row') := by
  rcases hlawful.turns with hsame | ⟨p, old, new, hworks, hturns, hhow⟩
  · exact ⟨row, (rowAt_congr hsame i).trans hrow, fun _ => rfl, Or.inl ⟨rfl, rfl, fun _ hj => hj⟩⟩
  have hafter := hturns.rowAt i
  by_cases hi : i = p
  · subst hi
    rw [if_pos rfl] at hafter
    have hold := hturns.1
    rw [hrow] at hold
    cases hold
    rcases h.works_first hprepared hworks with ⟨⟨current, hat, hopen⟩, _⟩
    rw [hrow] at hat
    cases hat
    refine ⟨new, hafter, fun hdone => absurd hdone hopen, ?_⟩
    rcases hhow with ⟨cfg, _, _, hadvanced⟩ | ⟨actor, hnode, hretry⟩
    · exact Or.inl ⟨hadvanced.attempt, hadvanced.key, hadvanced.job⟩
    · rcases (h.rows i row hrow).retried hretry.retried with rfl | ⟨hrenews, hknown⟩
      · exact Or.inl ⟨rfl, rfl, fun _ hj => hj⟩
      · exact Or.inr ⟨hrow, hafter, ⟨actor, hnode, hretry⟩, hknown, hrenews.job, hrenews.attempt,
          hrenews.key⟩
  · rw [if_neg hi] at hafter
    exact ⟨row, hafter.trans hrow, fun _ => rfl, Or.inl ⟨rfl, rfl, fun _ hj => hj⟩⟩

theorem Standing.event_kept (h : Standing env s₀ events e.before) (hprepared : Prepared env s₀)
    (hlawful : e.Lawful env) : EventKept env events e := by
  refine ⟨?_, fun i hworks => (h.works_first hprepared hworks).2, fun i hne => ?_,
    fun i row hrow => h.row_kept hprepared hlawful hrow, hlawful.report⟩
  · refine hlawful.submits.imp_right ?_
    rintro ⟨cfg, i, row, key, hnode, hnext, hjob, hkey, hsubmissions⟩
    rw [hkey (h.rows i row hnext.at).request] at hsubmissions
    exact ⟨i, row, worksOn_step hnode hnext, hnext.at, hjob, hsubmissions⟩
  · rcases hlawful.turns with hsame | ⟨p, old, new, hworks, hturns, _⟩
    · exact absurd (rowAt_congr hsame i) hne
    · rw [hturns.rowAt] at hne
      split at hne
      next hi =>
        rw [hi]
        exact hworks
      · exact absurd rfl hne

variable {n : Nat}

theorem getElem?_concat {α : Type} {l : List α} {x a : α} (h : (l ++ [x])[n]? = some a) :
    l[n]? = some a ∨ n = l.length ∧ a = x := by
  rcases Nat.lt_trichotomy n l.length with hn | hn | hn
  · rw [getElem?_append_left hn] at h
    exact Or.inl h
  · rw [hn, getElem?_concat_length] at h
    exact Or.inr ⟨hn, (some.inj h).symm⟩
  · rw [getElem?_eq_none (by rw [length_append, length_singleton]; omega)] at h
    cases h

theorem take_concat {α : Type} {l : List α} {x a : α} (h : l[n]? = some a) :
    (l ++ [x]).take n = l.take n :=
  take_append_of_le_length (Nat.le_of_lt (List.getElem?_eq_some_iff.mp h).1)

section

variable (hprepared : Prepared env s₀) (hrun : LedgerRun env s₀ events s)

include hprepared hrun

theorem events_kept :
    ∀ n e, events[n]? = some e → EventKept env (events.take n) e := by
  refine hrun.keeps (P := fun events _ => ∀ n e, events[n]? = some e →
    EventKept env (events.take n) e) (fun n e h => ?_) (fun hbefore hlawful ih n e' hn => ?_)
    fun _ ih => ih
  · rw [getElem?_nil] at h
    cases h
  · rcases getElem?_concat hn with hold | ⟨rfl, rfl⟩
    · rw [take_concat hold]
      exact ih n e' hold
    · rw [take_left]
      exact (standing_run hprepared hbefore).event_kept hprepared hlawful

theorem succeeded_final :
    ∀ e ∈ events, ∀ i row, e.Has i row → row.status = .succeeded → rowAt s i = some row := by
  refine hrun.keeps (P := fun events s => ∀ e ∈ events, ∀ i row, e.Has i row →
    row.status = .succeeded → rowAt s i = some row) (fun e he => ?_)
    (fun {events e} hbefore hlawful ih e' he' i row hhas hdone => ?_)
    fun hledger ih e he i row hhas hdone => ?_
  · exact absurd he not_mem_nil
  · have hkeep : ∀ {row : LedgerRow}, rowAt e.before i = some row → row.status = .succeeded →
        rowAt e.after i = some row := by
      intro row hrow hdone
      rcases (standing_run hprepared hbefore).row_kept hprepared hlawful hrow with
        ⟨row', hrow', hsame, _⟩
      rw [hrow', hsame hdone]
    rcases mem_append.mp he' with hold | hnew
    · exact hkeep (ih e' hold i row hhas hdone) hdone
    · rw [mem_singleton.mp hnew] at hhas
      rcases hhas with hold | hafter
      · exact hkeep hold hdone
      · exact hafter
  · exact (rowAt_congr hledger i).trans (ih e he i row hhas hdone)

theorem job_kept :
    ∀ m e i row j, events[m]? = some e → rowAt e.after i = some row → row.jobId = some j →
      (∃ row' j', rowAt s i = some row' ∧ row'.jobId = some j') ∨
        ∃ k e' old new, m < k ∧ events[k]? = some e' ∧
          Authorizes env (events.take k) i e' old new := by
  refine hrun.keeps (P := fun events s => ∀ m e i row j, events[m]? = some e →
    rowAt e.after i = some row → row.jobId = some j →
      (∃ row' j', rowAt s i = some row' ∧ row'.jobId = some j') ∨
        ∃ k e' old new, m < k ∧ events[k]? = some e' ∧
          Authorizes env (events.take k) i e' old new) (fun m e i row j h => ?_)
    (fun {events e} hbefore hlawful ih m e' i row j hm hrow hj => ?_)
    fun hledger ih m e i row j hm hrow hj => ?_
  · rw [getElem?_nil] at h
    cases h
  · rcases getElem?_concat hm with hold | ⟨rfl, rfl⟩
    · rcases ih m e' i row j hold hrow hj with ⟨current, j', hat, hj'⟩ | hdone
      · rcases (standing_run hprepared hbefore).row_kept hprepared hlawful hat with
          ⟨row', hrow', _, hkept | hauthorizes⟩
        · exact Or.inl ⟨row', j', hrow', hkept.2.2 j' hj'⟩
        · refine Or.inr ⟨events.length, e, current, row', (List.getElem?_eq_some_iff.mp hold).1,
            getElem?_concat_length, ?_⟩
          rw [take_left]
          exact hauthorizes
      · rcases hdone with ⟨k, e'', old, new, hmk, hk, hauthorizes⟩
        refine Or.inr ⟨k, e'', old, new, hmk, ?_, ?_⟩
        · rw [getElem?_append_left (List.getElem?_eq_some_iff.mp hk).1]
          exact hk
        · rw [take_concat hk]
          exact hauthorizes
    · exact Or.inl ⟨row, j, hrow, hj⟩
  · refine (ih m e i row j hm hrow hj).imp_left ?_
    rintro ⟨row', j', hat, hj'⟩
    exact ⟨row', j', (rowAt_congr hledger i).trans hat, hj'⟩

theorem submission_authorized :
    ∀ m n e e' i row j, m < n → events[m]? = some e → events[n]? = some e' →
      rowAt e.after i = some row → row.jobId = some j → e'.submissions ≠ [] → e'.worksOn = some i →
      ∃ k e'' old new, m < k ∧ k < n ∧ events[k]? = some e'' ∧
        Authorizes env (events.take k) i e'' old new := by
  refine hrun.keeps (P := fun events _ => ∀ m n (e e' : LedgerEvent) (i : Nat) (row : LedgerRow) j,
    m < n → events[m]? = some e → events[n]? = some e' → rowAt e.after i = some row →
    row.jobId = some j → e'.submissions ≠ [] → e'.worksOn = some i → ∃ k e'' old new, m < k ∧ k < n ∧ events[k]? = some e'' ∧
      Authorizes env (events.take k) i e'' old new) (fun m n e e' i row j _ h => ?_)
    (fun {events last} hbefore hlawful ih m n e e' i row j hmn hm hn hrow hj hsubmits hworks => ?_)
    fun _ ih => ih
  · rw [getElem?_nil] at h
    cases h
  have hlater : ∀ {k : Nat} {e'' : LedgerEvent} {old new : LedgerRow}, events[k]? = some e'' →
      Authorizes env (events.take k) i e'' old new →
        (events ++ [last])[k]? = some e'' ∧
          Authorizes env ((events ++ [last]).take k) i e'' old new := by
    intro k e'' old new hk hauthorizes
    rw [take_concat hk, getElem?_append_left (List.getElem?_eq_some_iff.mp hk).1]
    exact ⟨hk, hauthorizes⟩
  rcases getElem?_concat hn with hn | ⟨rfl, rfl⟩
  · have hsmall : m < events.length := Nat.lt_trans hmn (List.getElem?_eq_some_iff.mp hn).1
    rw [getElem?_append_left hsmall] at hm
    rcases ih m n e e' i row j hmn hm hn hrow hj hsubmits hworks with
      ⟨k, e'', old, new, hmk, hkn, hk, hauthorizes⟩
    exact ⟨k, e'', old, new, hmk, hkn, hlater hk hauthorizes⟩
  · -- The row has no job when it is submitted, so it lost the one it had.
    rw [getElem?_append_left hmn] at hm
    have hkept := ((standing_run hprepared hbefore).event_kept hprepared hlawful).submits
    rcases hkept.resolve_left hsubmits with ⟨place, current, hplace, hat, hnone, _⟩
    rw [hworks] at hplace
    cases hplace
    rcases job_kept hprepared hbefore m e i row j hm hrow hj with ⟨row', j', hat', hj'⟩ | hrenewed
    · rw [hat] at hat'
      cases hat'
      rw [hnone] at hj'
      cases hj'
    · rcases hrenewed with ⟨k, e'', old, new, hmk, hk, hauthorizes⟩
      exact ⟨k, e'', old, new, hmk, (List.getElem?_eq_some_iff.mp hk).1, hlater hk hauthorizes⟩

end

/-- A row of a run stood when it was there, and its place has an attempt that is no earlier. -/
def Past (env : AnalysisEnv) (s₀ s : AnalysisState) (i : Nat) (row : LedgerRow) : Prop :=
  (∃ events, RowStanding env s₀ events i row) ∧
    ∃ row', rowAt s i = some row' ∧ row.attempt ≤ row'.attempt

theorem past_run (hprepared : Prepared env s₀) (hrun : LedgerRun env s₀ events s) :
    ∀ e ∈ events, ∀ i row, e.Has i row → Past env s₀ s i row := by
  refine hrun.keeps (P := fun events s => ∀ e ∈ events, ∀ i row, e.Has i row →
    Past env s₀ s i row) (fun e he => absurd he not_mem_nil)
    (fun {events e} hbefore hlawful ih e' he' i row hhas => ?_) fun hledger ih e he i row hhas => ?_
  · have hstanding := standing_run hprepared hbefore
    have hgrow : ∀ {row : LedgerRow}, rowAt e.before i = some row →
        ∃ row', rowAt e.after i = some row' ∧ row.attempt ≤ row'.attempt := by
      intro row hrow
      rcases hstanding.row_kept hprepared hlawful hrow with ⟨row', hrow', _, hkept | hauthorizes⟩
      · exact ⟨row', hrow', Nat.le_of_eq hkept.1.symm⟩
      · exact ⟨row', hrow', by rw [hauthorizes.attempt]; exact Nat.le_succ _⟩
    rcases mem_append.mp he' with hold | hnew
    · rcases ih e' hold i row hhas with ⟨hstood, current, hat, hle⟩
      rcases hgrow hat with ⟨row', hrow', hle'⟩
      exact ⟨hstood, row', hrow', Nat.le_trans hle hle'⟩
    · rw [mem_singleton.mp hnew] at hhas
      rcases hhas with hrow | hrow
      · exact ⟨⟨events, hstanding.rows i row hrow⟩, hgrow hrow⟩
      · exact ⟨⟨events ++ [e], (hstanding.step hprepared hlawful).rows i row hrow⟩, row, hrow,
          Nat.le_refl _⟩
  · rcases ih e he i row hhas with ⟨hstood, row', hat, hle⟩
    exact ⟨hstood, row', (rowAt_congr hledger i).trans hat, hle⟩

theorem firstText_congr (hthread : s.threadId = s₀.threadId) (hattempt : s.attempt = s₀.attempt)
    (c digest : String) : firstText s c digest = firstText s₀ c digest := by
  rw [firstText, firstText, hthread, hattempt]

theorem Past.text_mem (h : Past env s₀ s i row) (hs : Standing env s₀ events s) {p : Nat}
    (hp : p ≤ row.attempt - 1) : rowText env s₀ row p ∈ keyTexts env s := by
  rcases h with ⟨⟨earlier, hstood⟩, row', hat, hle⟩
  rcases hstood.origin with ⟨row₀, hrow₀, hconnection, hdigest⟩
  rcases (hs.rows i row' hat).origin with ⟨other, hother, hconnection', hdigest'⟩
  rw [hrow₀] at hother
  cases hother
  have hpositive := hstood.positive
  have hsame : rowText env s₀ row p = rowText env s row' p := by
    rw [rowText, rowText, firstText_congr hs.threadId hs.attempt, hconnection, hdigest, hconnection',
      hdigest']
  rw [hsame]
  refine mem_flatMap.mpr ⟨row', mem_of_getElem? hat, ?_⟩
  exact List.mem_map_of_mem (mem_range.mpr (by omega))

/-- Two rows of a run with one key are at the same place and of the same attempt, where the
    digests of the run do not collide. -/
theorem keys_apart (hprepared : Prepared env s₀) (hs : Standing env s₀ events s)
    (hdigest : ∀ a ∈ keyTexts env s, ∀ b ∈ keyTexts env s, env.sha256 a = env.sha256 b → a = b)
    {i' : Nat} (h : Past env s₀ s i row) (h' : Past env s₀ s i' row')
    (hkey : row.idempotencyKey = row'.idempotencyKey) : i = i' ∧ row.attempt = row'.attempt := by
  rcases h.1 with ⟨_, hstood⟩
  rcases h'.1 with ⟨_, hstood'⟩
  rw [hstood.key, hstood'.key] at hkey
  have htexts := hdigest _ (h.text_mem hs (Nat.le_refl _)) _ (h'.text_mem hs (Nat.le_refl _)) hkey
  rcases keyText_inj (firstText_numbered _ _ _) (firstText_numbered _ _ _)
    (fun p hp q hq heq => hdigest _ (h.text_mem hs hp) _ (h'.text_mem hs hq) heq) htexts
    with ⟨hfirst, hnumber⟩
  rcases hprepared.rows with ⟨digest, hrows⟩
  rcases hstood.origin with ⟨row₀, hrow₀, hconnection, hinput⟩
  rcases hstood'.origin with ⟨row₀', hrow₀', hconnection', hinput'⟩
  rcases hrows i row₀ hrow₀ with ⟨selection, rfl⟩
  rcases hrows i' row₀' hrow₀' with ⟨selection', rfl⟩
  rw [hinput, hinput', firstRow, firstRow] at hfirst
  have hpositive := hstood.positive
  have hpositive' := hstood'.positive
  refine ⟨hprepared.distinct i i' _ _ hrow₀ hrow₀' ?_, by omega⟩
  rw [← hconnection, ← hconnection']
  exact firstText_inj hfirst

end Events

structure LedgerKept (env : AnalysisEnv) (events : List LedgerEvent) (s : AnalysisState) : Prop where
  /-- What is told of each event. -/
  kept : ∀ n e, events[n]? = some e → EventKept env (events.take n) e
  /-- A row that had a job is submitted again only after an authorized retry. -/
  authorized : ∀ m n e e' i row j, m < n → events[m]? = some e → events[n]? = some e' →
    rowAt e.after i = some row → row.jobId = some j → e'.submissions ≠ [] → e'.worksOn = some i →
    ∃ k e'' old new, m < k ∧ k < n ∧ events[k]? = some e'' ∧
      Authorizes env (events.take k) i e'' old new
  /-- An authorized retry changes the key. -/
  renewed : ∀ n e i old new, events[n]? = some e → Authorizes env (events.take n) i e old new →
    new.idempotencyKey ≠ old.idempotencyKey
  /-- A key is that of one attempt of one row. -/
  keys : ∀ e ∈ events, ∀ e' ∈ events, ∀ i i' row row', e.Has i row → e'.Has i' row' →
    row.idempotencyKey = row'.idempotencyKey → i = i' ∧ row.attempt = row'.attempt
  /-- A row that has succeeded stays as it is. -/
  final : ∀ e ∈ events, ∀ i row, e.Has i row → row.status = .succeeded → rowAt s i = some row
  /-- The report is assembled when every row has succeeded. -/
  report : routeAnalysis s = .reportAgent → ∀ row ∈ s.ledger.getD [], row.status = .succeeded

theorem routeAnalysis_report {s : AnalysisState} (h : routeAnalysis s = .reportAgent) :
    ∀ row ∈ s.ledger.getD [], row.status = .succeeded := by
  rw [routeAnalysis] at h
  split at h
  · cases h
  · split at h
    · cases h
    · split at h
      next hall => exact fun row hrow => beq_iff_eq.mp (List.all_eq_true.mp hall row hrow)
      · cases h

theorem program_step {env : AnalysisEnv} (cfg : ReportingConfig) {state : AnalysisState}
    {ledger : List LedgerRow} {n : Nat} {row : LedgerRow} {talk : Talk}
    {out : LedgerRow × List ArtifactRef} (hledger : state.ledger = some ledger)
    (hnext : nextRow? ledger = some (n, row)) (hanalysis : cfg.analysis.isNone = false)
    (h : (stepRow env cfg state row).run.converses talk (.done (.ok out))) :
    ((LedgerNode.step cfg).program env state).run.converses talk
      (.done (.ok ⟨{ state with ledger := some (ledger.set n out.1) }, out.2, none⟩)) := by
  refine settle_converses (by rw [hledger]; rfl) ?_
  refine settle_converses (by rw [hnext]; rfl) (raiseWhen_converses hanalysis ?_)
  exact bind_done_converses (handling_converses h) rfl

/-- What the provider is asked, and answers, when the sample is submitted. -/
def sampleTalk : Talk :=
  [⟨.now, 1⟩, ⟨.resolve .executionEngine (some "load") (some "shop") (some "apex_load"),
      .ok "load"⟩,
    ⟨.claim sampleScope,
      .told true (some (reservation countingEnv.toNativeAnalysisEnv sampleScope))⟩,
    ⟨.post sampleScope, ()⟩, ⟨.reply sampleScope, .ok sampleReply⟩,
    ⟨.record sampleScope "job", .told true⟩]

def sampleEvents : List LedgerEvent :=
  [⟨stateWith sampleRow, .step nativeConfig, [⟨.now, 0⟩], none, stateWith startedRow⟩,
    ⟨stateWith startedRow, .step nativeConfig, sampleTalk, none,
      stateWith (startedRow.queuedAs "job")⟩]

theorem sampleEvents_run : LedgerRun countingEnv (stateWith sampleRow) sampleEvents
    (stateWith (startedRow.queuedAs "job")) := by
  have hstarting : (stepRow countingEnv nativeConfig (stateWith sampleRow) sampleRow).run.converses
      [⟨.now, 0⟩] (.done (.ok (startedRow, []))) := stepRow_starts sample_steps.first.2 rfl
  have hsubmitting : (stepRow countingEnv nativeConfig (stateWith startedRow)
      startedRow).run.converses sampleTalk (.done (.ok (startedRow.queuedAs "job", []))) :=
    stepRow_submits sample_steps.second.2 rfl (by decide) rfl sample_steps.scope.1 rfl
      sample_steps.scope.2 sample_steps.claimed.1 sample_steps.job.1 sample_steps.job.2
  have hstarted := LedgerRun.returned LedgerRun.prepared
    (program_step nativeConfig rfl sample_steps.first.1 rfl hstarting)
  exact hstarted.returned (program_step nativeConfig rfl sample_steps.second.1 rfl hsubmitting)

end Apex.Graphs.AnalysisLedger
