import Apex.Core.Reservation
import Apex.Theory.NativeAnalysis.Seats

/-!
# The Desk Of The Analyses

Workers run the nodes of the reporting phase from any checkpoint of any thread, are lost
at any point, and share the table of submissions. Each transaction may be lost with or
without effect, and so may each checkpoint.

What holds at every moment is told in two parts. The keys of the table are reservations,
each used at most once. And whatever is stored, in the table, in a checkpoint or in a
worker's mind, goes back to something that took place: a job to what the call of its key
returned, a key to the preparation of its attempt or to an operator's retry.

## Main definitions

* `AnalysisDesk`, `analysisSystem`: The table and the checkpoints, and who acts on them.
* `posts`, `replies`, `retries`, `bounds`: What took place in a run.
* `KeyOf`, `Lineage`: Where the keys of an attempt and a connection come from.
* `Orderly`: What holds at every moment.

## Theorems

* `Orderly.answered`: Every answer keeps it.
* `orderly_run`: It holds at the end of every run.
-/

namespace Apex.Graphs

open List Option Function
open Services

open Apex.Action hiding ask
open NativeAnalysisScope (idempotencyKey)

/-- The table of submissions, and the checkpoints that were written. -/
structure AnalysisDesk where
  submissions : List NativeAnalysisSubmission
  checkpoints : List AnalysisState

namespace AnalysisDesk

def claimed (env : AnalysisEnv) (w : AnalysisDesk) (scope : NativeAnalysisScope) : AnalysisDesk :=
  { w with submissions := reserve env.toNativeAnalysisEnv scope w.submissions }

def received (env : AnalysisEnv) (w : AnalysisDesk) (scope : NativeAnalysisScope)
    (jobId : String) : AnalysisDesk :=
  { w with submissions := receive env.toNativeAnalysisEnv scope jobId w.submissions }

def saved (w : AnalysisDesk) (state : AnalysisState) : AnalysisDesk :=
  { w with checkpoints := state :: w.checkpoints }

/-- How the desk answers. The provider, the stores and the operator answer as they will. -/
def Answers (env : AnalysisEnv) (w : AnalysisDesk) :
    (r : AnalysisRequest) → r.Answer → AnalysisDesk → Prop
  | .claim scope, .told inserted receipt, w' =>
    w' = w.claimed env scope ∧ inserted = (submissionOf w.submissions scope.idempotencyKey).isNone ∧
      receipt = submissionOf (w.claimed env scope).submissions scope.idempotencyKey
  | .claim scope, .lost, w' => w' = w ∨ w' = w.claimed env scope
  | .record scope jobId, .told changed, w' =>
    w' = w.received env scope jobId ∧
      changed = w.submissions.any (receives env.toNativeAnalysisEnv scope jobId)
  | .record scope jobId, .lost, w' => w' = w ∨ w' = w.received env scope jobId
  | .save update, _, w' => w' = w ∨ w' = w.saved update.state
  | _, _, w' => w' = w

/-- An attempt is prepared that has no checkpoint yet. -/
def Prepares (env : AnalysisEnv) (w : AnalysisDesk) (cfg : ReportingConfig)
    (state prepared : AnalysisState) : Prop :=
  state.ledger = none ∧ prepareAnalysis env cfg state = .ok prepared ∧
    ∀ c ∈ w.checkpoints, c.threadId = state.threadId → c.attempt ≠ state.attempt

end AnalysisDesk

/-- A checkpoint that differs from another in what other nodes write. -/
def SameLedger (state state' : AnalysisState) : Prop :=
  state'.threadId = state.threadId ∧ state'.attempt = state.attempt ∧ state'.ledger = state.ledger

variable {ι : Type}

/-- Workers run the two nodes from any checkpoint there is. Attempts are prepared, and other
    nodes write checkpoints with the same ledger. -/
def analysisSystem (env : AnalysisEnv) (ι : Type) :
    System AnalysisDesk ι AnalysisRequest AnalysisRequest.Answer (Except AnalysisExc Unit) where
  respond _ w r a w' := w.Answers env r a w'
  start _ w p w' :=
    (∃ state ∈ w.checkpoints, w' = w ∧
      ((∃ cfg, p = (checkpointed (analysisStep env cfg state)).run) ∨
        ∃ actor, p = (checkpointed (analysisRecovery env actor state)).run)) ∨
    (p = .done (.ok ()) ∧
      ((∃ cfg state prepared, w.Prepares env cfg state prepared ∧ w' = w.saved prepared) ∨
        ∃ state ∈ w.checkpoints, ∃ state', SameLedger state state' ∧ w' = w.saved state'))

abbrev AnalysisEvent (ι : Type) :=
  System.Event AnalysisDesk ι AnalysisRequest AnalysisRequest.Answer

def postOf : AnalysisRequest → Option NativeAnalysisScope
  | .post scope => some scope
  | _ => none

/-- The key of a submission that returns, and its job. -/
def replyOf : (r : AnalysisRequest) → r.Answer → Option (String × Option String)
  | .reply scope, a => some (scope.idempotencyKey, replyJob? a)
  | _, _ => none

/-- The row that an operator lets submit again, and its state. -/
def retryOf (env : AnalysisEnv) : (r : AnalysisRequest) → r.Answer → Option (AnalysisState × LedgerRow)
  | .resumes state, a => (retriedRow? env state a).map fun row => (state, row)
  | _, _ => none

def boundOf (env : AnalysisEnv) : (r : AnalysisRequest) → r.Answer → Option NativeAnalysisScope
  | .claim scope, .told _ (some receipt) =>
    if receipt.scopeDigest = scope.digest env.toNativeAnalysisEnv then some scope else none
  | _, _ => none

def posts (events : List (AnalysisEvent ι)) : List NativeAnalysisScope :=
  events.filterMap fun e => postOf e.request

def replies (events : List (AnalysisEvent ι)) : List (String × Option String) :=
  events.filterMap fun e => replyOf e.request e.answer

/-- The retries that authorize another submission. -/
def retries (env : AnalysisEnv) (events : List (AnalysisEvent ι)) :
    List (AnalysisState × LedgerRow) :=
  events.filterMap fun e => retryOf env e.request e.answer

def bounds (env : AnalysisEnv) (events : List (AnalysisEvent ι)) : List NativeAnalysisScope :=
  events.filterMap fun e => boundOf env e.request e.answer

structure AnalysisTarget where
  threadId : String
  attempt : Nat
  connectionId : String
  deriving DecidableEq

def targetOf (scope : NativeAnalysisScope) : AnalysisTarget :=
  ⟨scope.threadId, scope.phaseAttempt, scope.connectionId⟩

def rowTarget (state : AnalysisState) (row : LedgerRow) : AnalysisTarget :=
  ⟨state.threadId, state.attempt, row.connectionId⟩

def retriedRows (env : AnalysisEnv) (events : List (AnalysisEvent ι)) (t : AnalysisTarget) :
    List LedgerRow :=
  ((retries env events).filter fun retry => rowTarget retry.1 retry.2 = t).map Prod.snd

/-- The submissions of a target that were called. -/
def postsOf (events : List (AnalysisEvent ι)) (t : AnalysisTarget) : List NativeAnalysisScope :=
  (posts events).filter fun scope => targetOf scope = t

section Table

variable {env : NativeAnalysisEnv} {scope : NativeAnalysisScope} {jobId : String}
  {rows : List NativeAnalysisSubmission}

variable {row : NativeAnalysisSubmission}

variable {key : String}

theorem submissionOf_some
    (h : submissionOf rows key = some row) : row ∈ rows ∧ row.idempotencyKey = key := by
  have hkey := find?_some h
  exact ⟨mem_of_find?_eq_some h, beq_iff_eq.mp hkey⟩

theorem submissionOf_none (h : submissionOf rows key = none) :
    key ∉ rows.map NativeAnalysisSubmission.idempotencyKey := by
  intro hmem
  rcases List.mem_map.mp hmem with ⟨row, hrow, hkey⟩
  exact absurd (beq_iff_eq.mpr hkey) (find?_eq_none.mp h row hrow)

theorem reserve_some
    (h : submissionOf rows scope.idempotencyKey = some row) : reserve env scope rows = rows := by
  rw [reserve, h]

theorem reserve_none (h : submissionOf rows scope.idempotencyKey = none) :
    reserve env scope rows = rows ++ [reservation env scope] := by
  rw [reserve, h]

theorem receive_keys : (receive env scope jobId rows).map NativeAnalysisSubmission.idempotencyKey =
    rows.map NativeAnalysisSubmission.idempotencyKey := by
  rw [receive, List.map_map]
  refine map_congr_left fun row _ => ?_
  change (if receives env scope jobId row then { row with jobId := some jobId }
    else row).idempotencyKey = row.idempotencyKey
  split
  · rfl
  · rfl

/-- A row after a receipt: it has its key and its digest, and a job that it had or that of the
    receipt. -/
theorem mem_receive {row' : NativeAnalysisSubmission} (h : row' ∈ receive env scope jobId rows) :
    ∃ row ∈ rows, row'.idempotencyKey = row.idempotencyKey ∧ row'.scopeDigest = row.scopeDigest ∧
      (row'.jobId = row.jobId ∨
        (row.idempotencyKey = scope.idempotencyKey ∧ row'.jobId = some jobId)) := by
  rcases List.mem_map.mp h with ⟨row, hrow, rfl⟩
  refine ⟨row, hrow, ?_⟩
  split
  · rename_i hreceives
    rw [receives, Bool.and_eq_true, Bool.and_eq_true] at hreceives
    exact ⟨rfl, rfl, Or.inr ⟨beq_iff_eq.mp hreceives.1.1, rfl⟩⟩
  · exact ⟨rfl, rfl, Or.inl rfl⟩

theorem receive_kept (h : row ∈ rows) :
    ∃ row' ∈ receive env scope jobId rows, row'.idempotencyKey = row.idempotencyKey ∧
      row'.scopeDigest = row.scopeDigest := by
  refine ⟨_, List.mem_map_of_mem h, ?_⟩
  split
  · exact ⟨rfl, rfl⟩
  · exact ⟨rfl, rfl⟩

end Table

section Growth

variable {env : AnalysisEnv} {events : List (AnalysisEvent ι)} {e : AnalysisEvent ι}

theorem filterMap_concat {α β : Type} (f : α → Option β) (l : List α) (a : α) :
    (l ++ [a]).filterMap f = l.filterMap f ++ (f a).toList := by
  rw [filterMap_append]
  cases h : f a with
  | none => rw [filterMap_cons_none h]; rfl
  | some b => rw [filterMap_cons_some h]; rfl

theorem posts_append : posts (events ++ [e]) = posts events ++ (postOf e.request).toList :=
  filterMap_concat _ events e

theorem replies_append :
    replies (events ++ [e]) = replies events ++ (replyOf e.request e.answer).toList :=
  filterMap_concat _ events e

theorem retries_append :
    retries env (events ++ [e]) = retries env events ++ (retryOf env e.request e.answer).toList :=
  filterMap_concat _ events e

theorem mem_replies {x : String × Option String} (h : x ∈ replies events) :
    x ∈ replies (events ++ [e]) := by
  rw [replies_append]
  exact mem_append_left _ h

variable {t : AnalysisTarget} {row : LedgerRow}

theorem mem_retriedRows (h : row ∈ retriedRows env events t) :
    row ∈ retriedRows env (events ++ [e]) t := by
  rw [retriedRows, retries_append, filter_append, map_append]
  exact mem_append_left _ h

theorem retriedRows_take {m n : Nat} (hmn : m ≤ n)
    (h : row ∈ retriedRows env (events.take m) t) : row ∈ retriedRows env (events.take n) t := by
  have hsub : (events.take m).Sublist (events.take n) := (take_prefix_take_left hmn).sublist
  exact (((hsub.filterMap _).filter _).map _).subset h

end Growth

/-- The keys that are reserved, called and returned, and who may call or waits. -/
def reservationsOf (events : List (AnalysisEvent ι)) (w : AnalysisDesk)
    (seats : ι → AnalysisSeat) : Reservations String ι where
  reserved := w.submissions.map NativeAnalysisSubmission.idempotencyKey
  called := (posts events).map idempotencyKey
  returned := (replies events).map Prod.fst
  held i := (seats i).held.map idempotencyKey
  awaited i := (seats i).posted.map idempotencyKey

/-- The keys of a target: one that was prepared, and those that retries made. -/
def KeyOf (env : AnalysisEnv) (events : List (AnalysisEvent ι)) (t : AnalysisTarget)
    (first key : String) : Prop :=
  key = first ∨ ∃ row ∈ retriedRows env events t, key = row.nextKey env

/-- Where the keys of a target come from, and those it was submitted under. -/
structure Lineage (env : AnalysisEnv) (events : List (AnalysisEvent ι)) (w : AnalysisDesk)
    (t : AnalysisTarget) (first : String) : Prop where
  rows : ∀ c ∈ w.checkpoints, ∀ ledger, c.ledger = some ledger → ∀ row ∈ ledger,
    rowTarget c row = t → KeyOf env events t first row.idempotencyKey
  posts : ∀ n e scope, events[n]? = some e → postOf e.request = some scope →
    targetOf scope = t → KeyOf env (events.take n) t first scope.idempotencyKey

/-- What is known of the table, the checkpoints and the workers. -/
structure Known (env : AnalysisEnv) (events : List (AnalysisEvent ι)) (w : AnalysisDesk)
    (seats : ι → AnalysisSeat) : Prop where
  base : ∀ i state, (seats i).base = some state → state ∈ w.checkpoints
  requests : ∀ c ∈ w.checkpoints, ∀ ledger, c.ledger = some ledger → ∀ row ∈ ledger,
    row.requestJson = none
  jobs : ∀ i k j, (k, j) ∈ (seats i).jobs → (k, some j) ∈ replies events
  rows : ∀ row ∈ w.submissions, ∀ j, row.jobId = some j →
    (row.idempotencyKey, some j) ∈ replies events
  ledgers : ∀ c ∈ w.checkpoints, ∀ ledger, c.ledger = some ledger → ∀ row ∈ ledger,
    row.tool = .internalRca → ∀ j, row.jobId = some j →
      (row.idempotencyKey, some j) ∈ replies events
  bound : ∀ scope ∈ bounds env events, ∃ row ∈ w.submissions,
    row.idempotencyKey = scope.idempotencyKey ∧
      row.scopeDigest = scope.digest env.toNativeAnalysisEnv
  retried : ∀ i state, (seats i).base = some state → ∀ row ∈ (seats i).retried,
    (state, row) ∈ retries env events
  places : ∀ scope ∈ posts events, ∃ c ∈ w.checkpoints,
    c.threadId = scope.threadId ∧ c.attempt = scope.phaseAttempt
  lineage : ∀ t, ∃ first, Lineage env events w t first

section Steps

variable {env : AnalysisEnv} {events : List (AnalysisEvent ι)} {w : AnalysisDesk}
  {seats : ι → AnalysisSeat} {i : ι} {e : AnalysisEvent ι}

variable {t : AnalysisTarget} {first : String}

theorem KeyOf.appended {key : String}
    (h : KeyOf env events t first key) : KeyOf env (events ++ [e]) t first key := by
  rcases h with hfirst | ⟨row, hrow, hkey⟩
  · exact Or.inl hfirst
  · exact Or.inr ⟨row, mem_retriedRows hrow, hkey⟩

theorem Lineage.appended (h : Lineage env events w t first)
    (hpost : ∀ scope, postOf e.request = some scope → targetOf scope = t →
      KeyOf env events t first scope.idempotencyKey) : Lineage env (events ++ [e]) w t first := by
  refine ⟨fun c hc ledger hledger row hrow ht => (h.rows c hc ledger hledger row hrow ht).appended,
    fun n e' scope hn hscope ht => ?_⟩
  by_cases hlt : n < events.length
  · rw [getElem?_append_left hlt] at hn
    rw [take_append_of_le_length (Nat.le_of_lt hlt)]
    exact h.posts n e' scope hn hscope ht
  · have hle := Nat.not_lt.mp hlt
    rw [getElem?_append_right hle] at hn
    have hzero : n - events.length = 0 := by
      have hbound := (List.getElem?_eq_some_iff.mp hn).1
      rw [length_singleton] at hbound
      omega
    rw [hzero, getElem?_cons_zero, some.injEq] at hn
    have hn' : n = events.length := by omega
    rw [hn', take_left]
    exact hpost scope (by rw [hn]; exact hscope) ht

theorem Known.appended (h : Known env events w seats)
    (hbound : ∀ scope, boundOf env e.request e.answer = some scope → ∃ row ∈ w.submissions,
      row.idempotencyKey = scope.idempotencyKey ∧
        row.scopeDigest = scope.digest env.toNativeAnalysisEnv)
    (hpost : ∀ scope, postOf e.request = some scope → ∃ state ∈ w.checkpoints, Names state scope) :
    Known env (events ++ [e]) w seats := by
  refine { h with
    jobs := fun i k j hj => mem_replies (h.jobs i k j hj)
    rows := fun row hrow j hj => mem_replies (h.rows row hrow j hj)
    ledgers := fun c hc ledger hledger row hrow htool j hj =>
      mem_replies (h.ledgers c hc ledger hledger row hrow htool j hj)
    bound := fun scope hscope => ?_
    retried := fun i state hbase row hrow => ?_
    places := fun scope hscope => ?_
    lineage := fun t => ?_ }
  · rw [bounds, filterMap_append] at hscope
    rcases mem_append.mp hscope with hold | hnew
    · exact h.bound scope hold
    · rcases mem_filterMap.mp hnew with ⟨e', he', hsome⟩
      rw [mem_singleton.mp he'] at hsome
      exact hbound scope hsome
  · rw [retries_append]
    exact mem_append_left _ (h.retried i state hbase row hrow)
  · rw [posts_append] at hscope
    rcases mem_append.mp hscope with hold | hnew
    · exact h.places scope hold
    · rcases hpost scope (mem_toList.mp hnew) with ⟨state, hstate, hnames⟩
      exact ⟨state, hstate, hnames.threadId.symm, hnames.attempt.symm⟩
  · rcases h.lineage t with ⟨first, hlineage⟩
    refine ⟨first, hlineage.appended fun scope hscope ht => ?_⟩
    -- The row that the scope names has a key of the target.
    rcases hpost scope hscope with ⟨state, hstate, hnames⟩
    rcases hnames.row with ⟨ledger, row, hledger, hrow, hconn, hkey⟩
    rw [← hkey]
    refine hlineage.rows state hstate ledger hledger row hrow ?_
    rw [← ht, rowTarget, targetOf, hnames.threadId, hnames.attempt, hconn]

theorem Known.claimed (h : Known env events w seats) (scope : NativeAnalysisScope) :
    Known env events (w.claimed env scope) seats := by
  cases hfind : submissionOf w.submissions scope.idempotencyKey with
  | some row =>
    have hsame : w.claimed env scope = w := by
      rw [AnalysisDesk.claimed, reserve_some hfind]
    rw [hsame]
    exact h
  | none =>
    have hrows : (w.claimed env scope).submissions =
        w.submissions ++ [reservation env.toNativeAnalysisEnv scope] := reserve_none hfind
    refine { h with
      rows := fun row hrow j hj => ?_
      bound := fun scope' hscope => ?_
      lineage := fun t => ?_ }
    · rw [hrows] at hrow
      rcases mem_append.mp hrow with hold | hnew
      · exact h.rows row hold j hj
      · rw [mem_singleton.mp hnew] at hj
        cases hj
    · rcases h.bound scope' hscope with ⟨row, hrow, hsame⟩
      refine ⟨row, ?_, hsame⟩
      rw [hrows]
      exact mem_append_left _ hrow
    · rcases h.lineage t with ⟨first, hlineage⟩
      exact ⟨first, hlineage.rows, hlineage.posts⟩

theorem Known.received (h : Known env events w seats) {scope : NativeAnalysisScope}
    {jobId : String} (hjob : (scope.idempotencyKey, some jobId) ∈ replies events) :
    Known env events (w.received env scope jobId) seats := by
  refine { h with
    rows := fun row' hrow' j hj => ?_
    bound := fun scope' hscope => ?_
    lineage := fun t => ?_ }
  · rcases mem_receive hrow' with ⟨row, hrow, hkey, _, hold | ⟨hrowKey, hnew⟩⟩
    · rw [hkey]
      exact h.rows row hrow j (hold ▸ hj)
    · rw [hnew, some.injEq] at hj
      rw [hkey, hrowKey, ← hj]
      exact hjob
  · rcases h.bound scope' hscope with ⟨row, hrow, hkey, hdigest⟩
    rcases receive_kept hrow with ⟨row', hrow', hkey', hdigest'⟩
    exact ⟨row', hrow', hkey'.trans hkey, hdigest'.trans hdigest⟩
  · rcases h.lineage t with ⟨first, hlineage⟩
    exact ⟨first, hlineage.rows, hlineage.posts⟩

variable {state : AnalysisState}

theorem Known.saved (h : Known env events w seats)
    (hrows : ∀ ledger, state.ledger = some ledger → ∀ row ∈ ledger, row.requestJson = none ∧
      (row.tool = .internalRca → ∀ j, row.jobId = some j →
        (row.idempotencyKey, some j) ∈ replies events))
    (hlineage : ∀ t, ∃ first, Lineage env events (w.saved state) t first) :
    Known env events (w.saved state) seats := by
  refine { h with
    base := fun i state' hbase => mem_cons_of_mem _ (h.base i state' hbase)
    requests := fun c hc ledger hledger row hrow => ?_
    ledgers := fun c hc ledger hledger row hrow htool j hj => ?_
    places := fun scope hscope => ?_
    lineage := hlineage }
  · rcases mem_cons.mp hc with rfl | hc
    · exact (hrows ledger hledger row hrow).1
    · exact h.requests c hc ledger hledger row hrow
  · rcases mem_cons.mp hc with rfl | hc
    · exact (hrows ledger hledger row hrow).2 htool j hj
    · exact h.ledgers c hc ledger hledger row hrow htool j hj
  · rcases h.places scope hscope with ⟨c, hc, hplace⟩
    exact ⟨c, mem_cons_of_mem _ hc, hplace⟩

theorem Lineage.saved (h : Lineage env events w t first)
    (hrows : ∀ ledger, state.ledger = some ledger → ∀ row ∈ ledger, rowTarget state row = t →
      KeyOf env events t first row.idempotencyKey) :
    Lineage env events (w.saved state) t first := by
  refine ⟨fun c hc ledger hledger row hrow ht => ?_, h.posts⟩
  rcases mem_cons.mp hc with rfl | hc
  · exact hrows ledger hledger row hrow ht
  · exact h.rows c hc ledger hledger row hrow ht

variable [DecidableEq ι]

theorem Known.seated (h : Known env events w seats) {seat : AnalysisSeat}
    (hbase : ∀ state, seat.base = some state → state ∈ w.checkpoints)
    (hjobs : ∀ k j, (k, j) ∈ seat.jobs → (k, some j) ∈ replies events)
    (hretried : ∀ state, seat.base = some state → ∀ row ∈ seat.retried,
      (state, row) ∈ retries env events) :
    Known env events w (Function.update seats i seat) := by
  refine { h with
    base := fun j state hj => ?_
    jobs := fun j k job hj => ?_
    retried := fun j state hj row hrow => ?_ }
  · by_cases hji : j = i
    · subst hji
      rw [update_self] at hj
      exact hbase state hj
    · rw [update_of_ne hji] at hj
      exact h.base j state hj
  · by_cases hji : j = i
    · subst hji
      rw [update_self] at hj
      exact hjobs k job hj
    · rw [update_of_ne hji] at hj
      exact h.jobs j k job hj
  · by_cases hji : j = i
    · subst hji
      rw [update_self] at hj hrow
      exact hretried state hj row hrow
    · rw [update_of_ne hji] at hj hrow
      exact h.retried j state hj row hrow

end Steps

section Reserving

variable {env : AnalysisEnv} {events : List (AnalysisEvent ι)} {w : AnalysisDesk}
  {seats : ι → AnalysisSeat} {i : ι} {e : AnalysisEvent ι}

theorem reservationsOf_appended : reservationsOf (events ++ [e]) w seats =
    { reservationsOf events w seats with
      called := (reservationsOf events w seats).called ++
        (postOf e.request).toList.map idempotencyKey
      returned := (reservationsOf events w seats).returned ++
        (replyOf e.request e.answer).toList.map Prod.fst } := by
  simp only [reservationsOf, posts_append, replies_append, map_append]

theorem reservationsOf_quiet (hpost : postOf e.request = none)
    (hreply : replyOf e.request e.answer = none) :
    reservationsOf (events ++ [e]) w seats = reservationsOf events w seats := by
  rw [reservationsOf_appended, hpost, hreply]
  simp only [toList_none, map_nil, append_nil]

variable {scope : NativeAnalysisScope}

theorem reservationsOf_claimed (h : submissionOf w.submissions scope.idempotencyKey = none) :
    reservationsOf events (w.claimed env scope) seats =
      { reservationsOf events w seats with
        reserved := (reservationsOf events w seats).reserved ++ [scope.idempotencyKey] } := by
  simp only [reservationsOf, AnalysisDesk.claimed, reserve_none h, map_append, map_cons,
    map_nil, reservation]

theorem reservationsOf_received {jobId : String} :
    reservationsOf events (w.received env scope jobId) seats = reservationsOf events w seats := by
  simp only [reservationsOf, AnalysisDesk.received, receive_keys]

theorem claimed_same {row : NativeAnalysisSubmission}
    (h : submissionOf w.submissions scope.idempotencyKey = some row) : w.claimed env scope = w := by
  rw [AnalysisDesk.claimed, reserve_some h]

theorem once_claimed (h : (reservationsOf events w seats).Once) :
    (reservationsOf events (w.claimed env scope) seats).Once := by
  cases hfind : submissionOf w.submissions scope.idempotencyKey with
  | some row => rwa [claimed_same hfind]
  | none =>
    rw [reservationsOf_claimed hfind]
    exact h.lost (submissionOf_none hfind)

variable [DecidableEq ι]

variable {seat : AnalysisSeat}

theorem reservationsOf_seated :
    reservationsOf events w (Function.update seats i seat) =
      { reservationsOf events w seats with
        held := Function.update (reservationsOf events w seats).held i
          (seat.held.map idempotencyKey)
        awaited := Function.update (reservationsOf events w seats).awaited i
          (seat.posted.map idempotencyKey) } := by
  rw [reservationsOf, reservationsOf, Reservations.mk.injEq]
  refine ⟨rfl, rfl, rfl, funext fun j => ?_, funext fun j => ?_⟩
  · exact apply_update
      (fun _ (seat : AnalysisSeat) => seat.held.map idempotencyKey) seats i seat j
  · exact apply_update
      (fun _ (seat : AnalysisSeat) => seat.posted.map idempotencyKey) seats i seat j

section

variable (h : (reservationsOf events w seats).Once)

include h

theorem once_kept (hheld : seat.held = (seats i).held)
    (hposted : seat.posted = (seats i).posted) :
    (reservationsOf events w (Function.update seats i seat)).Once := by
  have hsame : Function.update (reservationsOf events w seats).held i
      ((seats i).held.map idempotencyKey) =
        (reservationsOf events w seats).held := Function.update_eq_self i _
  have hsame' : Function.update (reservationsOf events w seats).awaited i
      ((seats i).posted.map idempotencyKey) =
        (reservationsOf events w seats).awaited := Function.update_eq_self i _
  rw [reservationsOf_seated, hheld, hposted, hsame, hsame']
  exact h

theorem once_restarted {base : Option AnalysisState} :
    (reservationsOf events w (Function.update seats i ⟨base, none, none, [], []⟩)).Once := by
  rw [reservationsOf_seated]
  exact h.dropped i

theorem once_reserved
    (hfind : submissionOf w.submissions scope.idempotencyKey = none)
    (hheld : seat.held = some scope) (hposted : seat.posted = (seats i).posted) :
    (reservationsOf events (w.claimed env scope) (Function.update seats i seat)).Once := by
  have hsame : Function.update (reservationsOf events w seats).awaited i
      ((seats i).posted.map idempotencyKey) =
        (reservationsOf events w seats).awaited := Function.update_eq_self i _
  rw [reservationsOf_seated, reservationsOf_claimed hfind, hheld, hposted]
  change Reservations.Once { reservationsOf events w seats with
    reserved := (reservationsOf events w seats).reserved ++ [scope.idempotencyKey]
    held := Function.update (reservationsOf events w seats).held i (some scope.idempotencyKey)
    awaited := Function.update (reservationsOf events w seats).awaited i
      ((seats i).posted.map idempotencyKey) }
  rw [hsame]
  exact h.reserve (submissionOf_none hfind)

theorem once_posted (hmay : (seats i).held = some scope)
    (hheld : seat.held = none) (hposted : seat.posted = some scope)
    (hpost : postOf e.request = some scope) (hreply : replyOf e.request e.answer = none) :
    (reservationsOf (events ++ [e]) w (Function.update seats i seat)).Once := by
  rw [reservationsOf_seated, reservationsOf_appended, hheld, hposted, hpost, hreply]
  simp only [toList_none, toList_some, map_nil, map_cons, append_nil]
  refine h.call (i := i) (k := scope.idempotencyKey) ?_
  exact congrArg (Option.map idempotencyKey) hmay

theorem once_replied {job : Option String}
    (hwaits : (seats i).posted = some scope) (hheld : seat.held = (seats i).held)
    (hposted : seat.posted = none) (hpost : postOf e.request = none)
    (hreply : replyOf e.request e.answer = some (scope.idempotencyKey, job)) :
    (reservationsOf (events ++ [e]) w (Function.update seats i seat)).Once := by
  have hsame : Function.update (reservationsOf events w seats).held i
      ((seats i).held.map idempotencyKey) =
        (reservationsOf events w seats).held := Function.update_eq_self i _
  rw [reservationsOf_seated, reservationsOf_appended, hheld, hposted, hpost, hreply]
  simp only [toList_none, toList_some, map_nil, map_cons, append_nil, hsame]
  refine h.return (i := i) (k := scope.idempotencyKey) ?_
  exact congrArg (Option.map idempotencyKey) hwaits

end

end Reserving

section Answered

variable {env : AnalysisEnv} {events : List (AnalysisEvent ι)} {w w' : AnalysisDesk}
  {seats : ι → AnalysisSeat} {i : ι} [DecidableEq ι]

structure Orderly (env : AnalysisEnv) (events : List (AnalysisEvent ι)) (w : AnalysisDesk)
    (seats : ι → AnalysisSeat) : Prop where
  once : (reservationsOf events w seats).Once
  known : Known env events w seats

variable {r : AnalysisRequest} {scope : NativeAnalysisScope} {a : Unit} {state : AnalysisState}

theorem Orderly.unlearned (h : Orderly env events w' seats) {a : r.Answer}
    (htold : (seats i).told env r a = seats i) (hpost : postOf r = none)
    (hreply : replyOf r a = none) (hbound : boundOf env r a = none) :
    Orderly env (events ++ [⟨i, w, r, a, w'⟩]) w'
      (Function.update seats i ((seats i).told env r a)) := by
  rw [htold, Function.update_eq_self]
  refine ⟨?_, h.known.appended (fun scope hscope => ?_) fun scope hscope => ?_⟩
  · rw [reservationsOf_quiet hpost hreply]
    exact h.once
  · exact absurd (hbound.symm.trans hscope) (by simp only [reduceCtorEq, not_false_eq_true])
  · exact absurd (hpost.symm.trans hscope) (by simp only [reduceCtorEq, not_false_eq_true])

section

variable (h : Orderly env events w seats)

include h

theorem Orderly.claim_told {inserted : Bool}
    {receipt : Option NativeAnalysisSubmission}
    (hresp : w.Answers env (.claim scope) (.told inserted receipt) w') :
    Orderly env (events ++ [⟨i, w, .claim scope, .told inserted receipt, w'⟩]) w'
      (Function.update seats i ((seats i).told env (.claim scope) (.told inserted receipt))) := by
  rcases hresp with ⟨rfl, hinserted, hreceipt⟩
  have hknown : Known env (events ++ [⟨i, w, .claim scope, .told inserted receipt,
      w.claimed env scope⟩]) (w.claimed env scope) seats := by
    refine (h.known.claimed scope).appended (fun σ hσ => ?_) fun σ hσ => (nomatch hσ)
    cases receipt with
    | none => cases hσ
    | some row =>
      rcases submissionOf_some hreceipt.symm with ⟨hrow, hkey⟩
      rcases ite_none_right_eq_some.mp hσ with ⟨hdigest, hσ⟩
      rw [← some.inj hσ]
      exact ⟨row, hrow, hkey, hdigest⟩
  cases inserted with
  | true =>
    have hfind := isNone_iff_eq_none.mp hinserted.symm
    refine ⟨?_, hknown.seated (hknown.base i) (hknown.jobs i) (hknown.retried i)⟩
    rw [reservationsOf_quiet rfl rfl]
    exact once_reserved h.once hfind rfl rfl
  | false =>
    have hsame : w.claimed env scope = w := by
      cases hfind : submissionOf w.submissions scope.idempotencyKey with
      | none =>
        rw [hfind] at hinserted
        cases hinserted
      | some row => exact claimed_same hfind
    have honce : (reservationsOf (events ++ [⟨i, w, .claim scope, .told false receipt,
        w.claimed env scope⟩]) (w.claimed env scope) seats).Once := by
      rw [reservationsOf_quiet rfl rfl, hsame]
      exact h.once
    cases receipt with
    | none =>
      exact ⟨once_kept honce rfl rfl,
        hknown.seated (hknown.base i) (hknown.jobs i) (hknown.retried i)⟩
    | some row =>
      have hkept : ∀ j, (AnalysisSeat.learned (seats i) scope.idempotencyKey j).held =
          (seats i).held ∧ (AnalysisSeat.learned (seats i) scope.idempotencyKey j).posted =
          (seats i).posted ∧ (AnalysisSeat.learned (seats i) scope.idempotencyKey j).retried =
          (seats i).retried := by
        intro j
        cases j with
        | none => exact ⟨rfl, rfl, rfl⟩
        | some _ => exact ⟨rfl, rfl, rfl⟩
      refine ⟨once_kept honce (hkept _).1 (hkept _).2.1, hknown.seated (fun state hb => ?_)
        (fun k j hj => ?_) fun state hb r hr => ?_⟩
      · exact hknown.base i state ((learned_base _).symm.trans hb)
      · -- The job is that of the row, whose key was answered for.
        rcases submissionOf_some hreceipt.symm with ⟨hrow, hkey⟩
        change (k, j) ∈ ((seats i).learned scope.idempotencyKey row.jobId).jobs at hj
        cases hjob : row.jobId with
        | none =>
          rw [hjob] at hj
          exact hknown.jobs i k j hj
        | some stored =>
          rw [hjob] at hj
          rcases mem_cons.mp hj with heq | hold
          · rw [Prod.mk.injEq] at heq
            rw [heq.1, heq.2, ← hkey]
            exact hknown.rows row hrow stored hjob
          · exact hknown.jobs i k j hold
      · refine hknown.retried i state ((learned_base _).symm.trans hb) r ?_
        exact (hkept _).2.2 ▸ hr

theorem Orderly.claim {a : ClaimAnswer}
    (hresp : w.Answers env (.claim scope) a w') :
    Orderly env (events ++ [⟨i, w, .claim scope, a, w'⟩]) w'
      (Function.update seats i ((seats i).told env (.claim scope) a)) := by
  cases a with
  | told inserted receipt => exact h.claim_told hresp
  | lost =>
    have hnext : Orderly env events w' seats := by
      rcases hresp with rfl | rfl
      · exact h
      · exact ⟨once_claimed h.once, h.known.claimed scope⟩
    exact hnext.unlearned rfl rfl rfl rfl

theorem Orderly.record {jobId : String} {a : ReceiptAnswer}
    (hallowed : (seats i).allows env (.record scope jobId))
    (hresp : w.Answers env (.record scope jobId) a w') :
    Orderly env (events ++ [⟨i, w, .record scope jobId, a, w'⟩]) w'
      (Function.update seats i ((seats i).told env (.record scope jobId) a)) := by
  have hjob := h.known.jobs i _ _ hallowed
  have hreceived : Orderly env events (w.received env scope jobId) seats :=
    ⟨by rw [reservationsOf_received]; exact h.once, h.known.received hjob⟩
  have hnext : Orderly env events w' seats := by
    cases a with
    | told changed =>
      rcases hresp with ⟨rfl, _⟩
      exact hreceived
    | lost =>
      rcases hresp with rfl | rfl
      · exact h
      · exact hreceived
  exact hnext.unlearned rfl rfl rfl rfl

theorem Orderly.post
    (hallowed : (seats i).allows env (.post scope)) :
    Orderly env (events ++ [⟨i, w, .post scope, a, w⟩]) w
      (Function.update seats i ((seats i).told env (.post scope) a)) := by
  rcases hallowed with ⟨hheld, state, hbase, hnames⟩
  have hknown : Known env (events ++ [⟨i, w, .post scope, a, w⟩]) w seats := by
    refine h.known.appended (fun σ hσ => (nomatch hσ)) fun σ hσ => ?_
    rw [← some.inj hσ]
    exact ⟨state, h.known.base i state hbase, hnames⟩
  refine ⟨?_, hknown.seated (hknown.base i) (hknown.jobs i) (hknown.retried i)⟩
  exact once_posted h.once hheld rfl rfl rfl rfl

theorem Orderly.reply {a : Except AnalysisExc (Dict Json)}
    (hallowed : (seats i).allows env (.reply scope)) :
    Orderly env (events ++ [⟨i, w, .reply scope, a, w⟩]) w
      (Function.update seats i ((seats i).told env (.reply scope) a)) := by
  have hknown : Known env (events ++ [⟨i, w, .reply scope, a, w⟩]) w seats :=
    h.known.appended (fun σ hσ => (nomatch hσ)) fun σ hσ => (nomatch hσ)
  have hreplied : (scope.idempotencyKey, replyJob? a) ∈
      replies (events ++ [⟨i, w, .reply scope, a, w⟩]) := by
    rw [replies_append]
    exact mem_append_right _ (mem_singleton_self _)
  change Orderly env _ w (Function.update seats i (AnalysisSeat.learned
    { seats i with posted := none } scope.idempotencyKey (replyJob? a)))
  cases hjob : replyJob? a with
  | none =>
    refine ⟨?_, hknown.seated (hknown.base i) (hknown.jobs i) (hknown.retried i)⟩
    exact once_replied h.once hallowed rfl rfl rfl rfl
  | some j =>
    refine ⟨once_replied h.once hallowed rfl rfl rfl rfl,
      hknown.seated (hknown.base i) (fun k j' hj => ?_) (hknown.retried i)⟩
    rcases mem_cons.mp hj with heq | hold
    · rw [Prod.mk.injEq] at heq
      rw [heq.1, heq.2, ← hjob]
      exact hreplied
    · exact hknown.jobs i k j' hold

theorem Orderly.resumes {a : List Json}
    (hallowed : (seats i).allows env (.resumes state)) :
    Orderly env (events ++ [⟨i, w, .resumes state, a, w⟩]) w
      (Function.update seats i ((seats i).told env (.resumes state) a)) := by
  have hknown : Known env (events ++ [⟨i, w, .resumes state, a, w⟩]) w seats :=
    h.known.appended (fun σ hσ => (nomatch hσ)) fun σ hσ => (nomatch hσ)
  have honce : (reservationsOf (events ++ [⟨i, w, .resumes state, a, w⟩]) w seats).Once := by
    rw [reservationsOf_quiet rfl rfl]
    exact h.once
  cases hrow : retriedRow? env state a with
  | none =>
    rw [told_resumes_none hrow]
    exact ⟨once_kept honce rfl rfl,
      hknown.seated (hknown.base i) (hknown.jobs i) (hknown.retried i)⟩
  | some row =>
    rw [told_resumes_some hrow]
    refine ⟨once_kept honce rfl rfl,
      hknown.seated (hknown.base i) (hknown.jobs i) fun state' hb r hr => ?_⟩
    rcases mem_cons.mp hr with rfl | hold
    · rw [retries_append]
      refine mem_append_right _ (mem_toList.mpr ?_)
      have hstate : state' = state := some.inj (hb.symm.trans hallowed)
      change (retriedRow? env state a).map (fun row => (state, row)) = some (state', r)
      rw [hrow, hstate]
      rfl
    · exact hknown.retried i state' hb r hold

omit [DecidableEq ι] in
theorem Orderly.continued {state' : AnalysisState}
    (hbase : (seats i).base = some state) (hcontinues : Continues env (seats i) state state')
    {ledger' : List LedgerRow} (hledger' : state'.ledger = some ledger') {row' : LedgerRow}
    (hrow' : row' ∈ ledger') : row'.requestJson = none ∧
      (row'.tool = .internalRca → ∀ j, row'.jobId = some j →
        (row'.idempotencyKey, some j) ∈ replies events) ∧
      ∀ t first, Lineage env events w t first → rowTarget state' row' = t →
        KeyOf env events t first row'.idempotencyKey := by
  have hmem := h.known.base i state hbase
  rcases hcontinues with ⟨hthread, hattempt, hledger⟩
  have htarget : ∀ row : LedgerRow, row'.connectionId = row.connectionId →
      rowTarget state' row' = rowTarget state row := by
    intro row hconn
    rw [rowTarget, rowTarget, hthread, hattempt, hconn]
  -- A row that was there before.
  have hold : ∀ ledger, state.ledger = some ledger → row' ∈ ledger → row'.requestJson = none ∧
      (row'.tool = .internalRca → ∀ j, row'.jobId = some j →
        (row'.idempotencyKey, some j) ∈ replies events) ∧
      ∀ t first, Lineage env events w t first → rowTarget state' row' = t →
        KeyOf env events t first row'.idempotencyKey := by
    intro ledger hsome hrow
    refine ⟨h.known.requests state hmem ledger hsome row' hrow,
      h.known.ledgers state hmem ledger hsome row' hrow, fun t first hlineage ht => ?_⟩
    exact hlineage.rows state hmem ledger hsome row' hrow ((htarget row' rfl).symm.trans ht)
  rcases hledger with hsame | ⟨ledger, n, row, row₁, hsome, hat, hset, hchange⟩
  · exact hold ledger' (hsame.symm.trans hledger') hrow'
  rw [hset, some.injEq] at hledger'
  rw [← hledger'] at hrow'
  rcases mem_or_eq_of_mem_set hrow' with hrow | rfl
  · exact hold ledger hsome hrow
  have hrow := mem_of_getElem? hat
  rcases hchange with hworked | hrenewed
  · refine ⟨hworked.request.trans (h.known.requests state hmem ledger hsome row hrow),
      fun htool j hj => ?_, fun t first hlineage ht => ?_⟩
    · rw [hworked.key]
      rcases hworked.job with hjob | hjob
      · exact h.known.ledgers state hmem ledger hsome row hrow (hworked.tool.symm.trans htool) j
          (hjob.symm.trans hj)
      · exact h.known.jobs i _ _ (hjob (hworked.tool.symm.trans htool) j hj)
    · rw [hworked.key]
      exact hlineage.rows state hmem ledger hsome row hrow
        ((htarget row hworked.connectionId).symm.trans ht)
  · refine ⟨hrenewed.request (h.known.requests state hmem ledger hsome row hrow),
      fun _ j hj => ?_, fun t first _ ht => Or.inr ⟨row, ?_, hrenewed.key⟩⟩
    · rw [hrenewed.job] at hj
      cases hj
    · have hretried := h.known.retried i state hbase row hrenewed.retried
      refine List.mem_map.mpr ⟨(state, row), mem_filter.mpr ⟨hretried, ?_⟩, rfl⟩
      exact decide_eq_true ((htarget row hrenewed.connectionId).symm.trans ht)

theorem Orderly.save {update : NodeUpdate}
    (hallowed : (seats i).allows env (.save update)) (hresp : w.Answers env (.save update) a w') :
    Orderly env (events ++ [⟨i, w, .save update, a, w'⟩]) w'
      (Function.update seats i ((seats i).told env (.save update) a)) := by
  rcases hallowed with ⟨state, hbase, hcontinues⟩
  have hnext : Orderly env events w' seats := by
    rcases hresp with rfl | rfl
    · exact h
    · refine ⟨h.once, h.known.saved (fun ledger hledger row hrow => ?_) fun t => ?_⟩
      · rcases h.continued hbase hcontinues hledger hrow with ⟨hrequest, hjob, _⟩
        exact ⟨hrequest, hjob⟩
      · rcases h.known.lineage t with ⟨first, hlineage⟩
        refine ⟨first, hlineage.saved fun ledger hledger row hrow ht => ?_⟩
        exact (h.continued hbase hcontinues hledger hrow).2.2 t first hlineage ht
  exact hnext.unlearned rfl rfl rfl rfl

theorem Orderly.answered {a : r.Answer}
    (hallowed : (seats i).allows env r) (hresp : w.Answers env r a w') :
    Orderly env (events ++ [⟨i, w, r, a, w'⟩]) w'
      (Function.update seats i ((seats i).told env r a)) := by
  cases r with
  | claim scope => exact h.claim hresp
  | record scope jobId => exact h.record hallowed hresp
  | save update => exact h.save hallowed hresp
  | post scope =>
    have hsame : w' = w := hresp
    subst hsame
    exact h.post hallowed
  | reply scope =>
    have hsame : w' = w := hresp
    subst hsame
    exact h.reply hallowed
  | resumes state =>
    have hsame : w' = w := hresp
    subst hsame
    exact h.resumes hallowed
  | _ =>
    have hsame : w' = w := hresp
    subst hsame
    exact h.unlearned rfl rfl rfl rfl

end

end Answered

section Starts

variable {env : AnalysisEnv} {events : List (AnalysisEvent ι)} {w w' : AnalysisDesk}
  {seats : ι → AnalysisSeat} {i : ι}

variable {state : AnalysisState}

theorem prepareAnalysis_ok {cfg : ReportingConfig} {prepared : AnalysisState}
    (hnone : state.ledger = none) (h : prepareAnalysis env cfg state = .ok prepared) :
    prepared.threadId = state.threadId ∧ prepared.attempt = state.attempt ∧
      ∃ digest, ∀ ledger, prepared.ledger = some ledger → ∀ row ∈ ledger,
        ∃ selection, row = firstRow env state digest selection := by
  unfold prepareAnalysis at h
  split at h
  · rw [← Except.ok.inj h]
    refine ⟨rfl, rfl, "", fun ledger hledger => ?_⟩
    rw [hnone] at hledger
    cases hledger
  · rcases bind_ok.mp h with ⟨evidence, _, hok⟩
    rw [← Except.ok.inj hok]
    refine ⟨rfl, rfl, evidenceDigest env evidence, fun ledger hledger row hrow => ?_⟩
    rw [← some.inj hledger] at hrow
    rcases List.mem_map.mp hrow with ⟨selection, _, heq⟩
    exact ⟨selection, heq.symm⟩

theorem Orderly.prepared (h : Orderly env events w seats) {cfg : ReportingConfig}
    {prepared : AnalysisState} (hprepares : w.Prepares env cfg state prepared) :
    Orderly env events (w.saved prepared) seats := by
  rcases hprepares with ⟨hnone, hok, hfresh⟩
  rcases prepareAnalysis_ok hnone hok with ⟨hthread, hattempt, digest, hrows⟩
  refine ⟨h.once, h.known.saved (fun ledger hledger row hrow => ?_) fun t => ?_⟩
  · rcases hrows ledger hledger row hrow with ⟨selection, rfl⟩
    exact ⟨rfl, fun _ j hj => (nomatch hj)⟩
  rcases h.known.lineage t with ⟨first, hlineage⟩
  by_cases ht : t.threadId = state.threadId ∧ t.attempt = state.attempt
  · -- The targets of the attempt are new, and their first keys are those of the rows.
    refine ⟨firstKey env state t.connectionId digest, ?_, fun n e scope hn hscope hts => ?_⟩
    · intro c hc ledger hledger row hrow htarget
      rcases mem_cons.mp hc with rfl | hc
      · rcases hrows ledger hledger row hrow with ⟨selection, rfl⟩
        rw [← htarget]
        exact Or.inl rfl
      · rw [← htarget] at ht
        exact absurd ht.2 (hfresh c hc ht.1)
    · have hpost : scope ∈ posts events :=
        mem_filterMap.mpr ⟨e, mem_of_getElem? hn, hscope⟩
      rcases h.known.places scope hpost with ⟨c, hc, hct, hca⟩
      rw [← hts] at ht
      exact absurd (hca.trans ht.2) (hfresh c hc (hct.trans ht.1))
  · refine ⟨first, hlineage.saved fun ledger hledger row hrow htarget => absurd ?_ ht⟩
    rw [← htarget]
    exact ⟨hthread, hattempt⟩

theorem Orderly.sameLedger (h : Orderly env events w seats) {state' : AnalysisState}
    (hmem : state ∈ w.checkpoints) (hsame : SameLedger state state') :
    Orderly env events (w.saved state') seats := by
  rcases hsame with ⟨hthread, hattempt, hledger⟩
  refine ⟨h.once, h.known.saved (fun ledger hl row hrow => ?_) fun t => ?_⟩
  · rw [hledger] at hl
    exact ⟨h.known.requests state hmem ledger hl row hrow,
      h.known.ledgers state hmem ledger hl row hrow⟩
  · rcases h.known.lineage t with ⟨first, hlineage⟩
    refine ⟨first, hlineage.saved fun ledger hl row hrow ht => ?_⟩
    rw [hledger] at hl
    refine hlineage.rows state hmem ledger hl row hrow ?_
    rw [← ht, rowTarget, rowTarget, hthread, hattempt]

variable [DecidableEq ι]

theorem Orderly.restarted (h : Orderly env events w seats) {base : Option AnalysisState}
    (hbase : ∀ state, base = some state → state ∈ w.checkpoints) :
    Orderly env events w (Function.update seats i ⟨base, none, none, [], []⟩) :=
  ⟨once_restarted h.once, h.known.seated hbase (fun _ _ hj => absurd hj not_mem_nil)
    fun _ _ _ hrow => absurd hrow not_mem_nil⟩

omit [DecidableEq ι] in
theorem orderly_empty :
    Orderly env ([] : List (AnalysisEvent ι)) ⟨[], []⟩ fun _ => ⟨none, none, none, [], []⟩ :=
  ⟨Reservations.once_empty, fun _ _ h => (nomatch h), fun _ h => absurd h not_mem_nil,
    fun _ _ _ h => absurd h not_mem_nil, fun _ h => absurd h not_mem_nil,
    fun _ h => absurd h not_mem_nil, fun _ h => absurd h not_mem_nil,
    fun _ _ h => (nomatch h), fun _ h => absurd h not_mem_nil,
    fun _ => ⟨"", fun _ h => absurd h not_mem_nil, fun _ _ _ h => (nomatch h)⟩⟩

theorem orderly_start {events : List (AnalysisEvent ι)} {w w' : AnalysisDesk}
    {seats : ι → AnalysisSeat} {i : ι}
    {p : Program AnalysisRequest AnalysisRequest.Answer (Except AnalysisExc Unit)}
    (h : Orderly env events w seats) (hstart : (analysisSystem env ι).start i w p w') :
    ∃ seat, p.follows (analysisDiscipline env) (whenOk fun _ _ => True) seat ∧
      Orderly env events w' (Function.update seats i seat) := by
  rcases hstart with ⟨state, hmem, rfl, hnode⟩ | ⟨rfl, hother⟩
  · refine ⟨⟨some state, none, none, [], []⟩, ?_, h.restarted fun state' hb => ?_⟩
    · rcases hnode with ⟨cfg, rfl⟩ | ⟨actor, rfl⟩
      · exact checkpointed_follows (analysisStep_follows rfl (h.known.requests state hmem))
      · exact checkpointed_follows (analysisRecovery_follows rfl)
    · rw [← some.inj hb]
      exact hmem
  · refine ⟨⟨none, none, none, [], []⟩, whenOk_ok trivial, ?_⟩
    rcases hother with ⟨cfg, state, prepared, hprepares, rfl⟩ | ⟨state, hmem, state', hsame, rfl⟩
    · exact (h.prepared hprepares).restarted fun _ hb => (nomatch hb)
    · exact (h.sameLedger hmem hsame).restarted fun _ hb => (nomatch hb)

theorem orderly_run
    {team : Team AnalysisDesk ι AnalysisRequest AnalysisRequest.Answer (Except AnalysisExc Unit)}
    (hrun : (analysisSystem env ι).Run ⟨[], []⟩ events team) :
    ∃ seats, Orderly env events team.state seats := by
  have hinv : ∃ seats, Orderly env events team.state seats ∧ ∀ i p, team.running i = some p →
      p.follows (analysisDiscipline env) (whenOk fun _ _ => True) (seats i) := by
    refine System.Run.invariant orderly_empty ?_ ?_ hrun
    · exact orderly_start
    · intro events w seats i r a w' h hallowed hresp
      exact ⟨trivial, h.answered hallowed hresp⟩
  rcases hinv with ⟨seats, horderly, _⟩
  exact ⟨seats, horderly⟩

end Starts

end Apex.Graphs
