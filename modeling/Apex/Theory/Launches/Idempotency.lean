import Apex.Theory.Launches.Runtime

/-!
# A Key Launches Once

Any number of callers launch under any keys, in any order. Their requests to the
runtime may be answered, refused or lost after taking effect; a caller may stop at
any point, and then its lock is free again; and the runs of a launched thread go
on. Then a thread never has more than one marked run. Every call that returns
returns the thread of its key and the marked run, and its request is the one the
thread is stamped with. A call with another request never creates a run, and once
it was shown the thread it ends in a conflict.

A call with another request that is not shown the thread, because the request for
it fails, ends in the error of that request. So it is no conflict in every run.

## Main definitions

* `launchSystem`: The callers and what they share.
* `Differs`: A call whose request is not the one a thread is stamped with.
* `LaunchInv`: What every interleaving keeps.

## Theorems

* `launch_idempotency`: One run for a key, and a conflict for another request.
* `other_request_without_conflict`: A request that is not shown the thread.
-/

namespace Apex.Services

open List Option Function
open Domain Program

open Apex.Action hiding ask

/-- What the callers share, the call each is in with its number, and how many calls
    were begun. -/
structure LaunchWorld (ι : Type) where
  store : LaunchStore ι
  calls : ι → Option (StartRun × Nat)
  started : Nat

def LaunchWorld.initial {ι : Type} [DecidableEq ι] : LaunchWorld ι where
  store := .empty
  calls _ := none
  started := 0

/-- A worker begins a call; whatever it was doing has ended, and its locks are free. -/
def LaunchWorld.entered {ι : Type} [DecidableEq ι] (w : LaunchWorld ι) (i : ι) (a : StartRun) :
    LaunchWorld ι where
  store := w.store.dropped i
  calls := Function.update w.calls i (some (a, w.started))
  started := w.started + 1

/-- The callers of `start_run` with a key. -/
def launchSystem (ι : Type) [DecidableEq ι] (env : LaunchEnv) :
    System (LaunchWorld ι) ι LaunchRequest LaunchRequest.Answer (Except LaunchError Launched) where
  respond i w r a w' := ∃ s, w.store.Elapses s ∧ s.Answers i r a w'.store ∧
    w'.calls = w.calls ∧ w'.started = w.started
  start i w p w' := ∃ a, a.idempotencyKey.isSome = true ∧ p = (PipelineRead.startRun env a).run ∧
    w' = w.entered i a

abbrev LaunchEvent (ι : Type) :=
  System.Event (LaunchWorld ι) ι LaunchRequest LaunchRequest.Answer

def StartRun.threadId (env : LaunchEnv) (a : StartRun) : String :=
  launchThreadId env a (a.idempotencyKey.getD "")

/-- The thread of a call is stamped with the digest of what the call amounts to. -/
def Matches {ι : Type} (env : LaunchEnv) (s : LaunchStore ι) (a : StartRun) : Prop :=
  ∃ launch f, Amounts env a launch ∧ launch.fingerprint = some f ∧
    s.stamp (a.threadId env) = some (some (.str f))

/-- The key of a call was used for another request. -/
def Differs {ι : Type} (env : LaunchEnv) (s : LaunchStore ι) (a : StartRun) : Prop :=
  s.stamp (a.threadId env) ≠ none ∧ ¬ Matches env s a

/-- Whether an answer shows a well formed thread. -/
def showsThread (env : LaunchEnv) : (r : LaunchRequest) → r.Answer → Bool
  | .getThread _, .ok thread => threadFieldsOk env thread
  | .createThread _ _, .ok thread => threadFieldsOk env thread
  | _, _ => false

/-- A worker was shown the thread of its present call while it held the lock. -/
def ShownThread {ι : Type} (env : LaunchEnv) (events : List (LaunchEvent ι)) (w : LaunchWorld ι)
    (i : ι) : Prop :=
  ∃ e ∈ events, e.worker = i ∧ e.before.calls i = w.calls i ∧
    (∃ scope, e.before.store.holder scope = some i) ∧ showsThread env e.request e.answer = true

structure LaunchInv {ι : Type} (env : LaunchEnv) (events : List (LaunchEvent ι))
    (w : LaunchWorld ι) (places : ι → LaunchSeat) : Prop where
  histories : w.store.Histories
  knows : ∀ i, (places i).Knows w.store i
  call : ∀ i, (places i).call = w.calls i
  thread : ∀ i a number, w.calls i = some (a, number) → (places i).threadId = a.threadId env
  number : ∀ i a number, w.calls i = some (a, number) → number < w.started
  past : ∀ e ∈ events, ∀ i a number, e.before.calls i = some (a, number) → number < w.started
  roots : ∀ e ∈ events, ∀ threadId, e.after.store.roots threadId = [] ∨
    e.after.store.roots threadId = w.store.roots threadId
  creates : ∀ e ∈ events, e.request.createsRun = true → ∀ a number,
    e.before.calls e.worker = some (a, number) → Matches env w.store a
  shown : ∀ i, ShownThread env events w i → w.calls i ≠ none → (places i).answered = true

/-- The seat of a worker that never began a call. -/
def LaunchSeat.idle : LaunchSeat where
  call := none
  threadId := ""
  locked := false
  told := none
  answered := false
  empty := false
  seen := 0
  root := none

theorem knows_unlocked {ι : Type} {s : LaunchStore ι} {i : ι} {l : LaunchSeat}
    (hfree : ∀ scope, s.holder scope ≠ some i) (hlocked : l.locked = false) (htold : l.told = none)
    (hempty : l.empty = false) (hseen : l.seen = 0) (hroot : l.root = none) : l.Knows s i where
  lock scope := ⟨fun h => absurd h (hfree scope), fun h => by rw [hlocked] at h; exact nomatch h.1⟩
  told _ h := by rw [htold] at h; exact nomatch h
  seen := by rw [hseen]; exact Nat.zero_le _
  empty h := by rw [hempty] at h; exact nomatch h
  root _ h := by rw [hroot] at h; exact nomatch h

variable {env : LaunchEnv} {r : LaunchRequest} {a : StartRun}

theorem inv_initial {ι : Type} [DecidableEq ι] :
    LaunchInv (ι := ι) env [] .initial fun _ => .idle where
  histories _ _ h := nomatch h
  knows i := knows_unlocked (fun _ h => nomatch h) rfl rfl rfl rfl rfl
  call _ := rfl
  thread _ _ _ h := nomatch h
  number _ _ _ h := nomatch h
  past _ h := (not_mem_nil h).elim
  roots _ h := (not_mem_nil h).elim
  creates _ h := (not_mem_nil h).elim
  shown _ h := by
    rcases h with ⟨e, he, _⟩
    exact (not_mem_nil he).elim

theorem matches_of_creates {ι : Type} {events : List (LaunchEvent ι)} {w : LaunchWorld ι}
    {places : ι → LaunchSeat} {i : ι} {number : Nat} (hinv : LaunchInv env events w places)
    (hallowed : (places i).allowed env r) (hcreates : r.createsRun = true)
    (hcall : w.calls i = some (a, number)) :
    Matches env w.store a := by
  cases r
  case createRun threadId assistantId input configurable recursionLimit marker =>
    rcases hallowed with ⟨_, _, f, _, hstamped, a', number', launch, hcall', hamounts, hf⟩
    rcases some.inj ((hcall'.symm.trans (hinv.call i)).trans hcall) with ⟨rfl, rfl⟩
    have hknown := (hinv.knows i).stamp hstamped
    rw [hinv.thread i _ _ hcall] at hknown
    exact ⟨launch, f, hamounts, hf, hknown⟩
  all_goals exact absurd hcreates Bool.false_ne_true

theorem Matches.later {ι : Type} {s s' : LaunchStore ι} (h : Matches env s a)
    (hlater : s.Later s') : Matches env s' a := by
  rcases h with ⟨launch, f, hamounts, hf, hstamp⟩
  exact ⟨launch, f, hamounts, hf, hlater.stamp hstamp⟩

section Steps

variable {ι : Type} [DecidableEq ι] {env : LaunchEnv} {events : List (LaunchEvent ι)}
  {w w' : LaunchWorld ι} {places : ι → LaunchSeat} {i : ι}

variable {j : ι} {l : LaunchSeat} {r : LaunchRequest}

theorem dropped_holder (s : LaunchStore ι) (hj : j ≠ i) (scope : String) :
    (s.dropped i).holder scope = some j ↔ s.holder scope = some j := by
  unfold LaunchStore.dropped
  dsimp only
  by_cases hmine : s.holder scope = some i
  · rw [if_pos hmine, hmine]
    exact ⟨fun h => (nomatch h), fun h => absurd (some.inj h).symm hj⟩
  · rw [if_neg hmine]

theorem dropped_free (s : LaunchStore ι) (i : ι) (scope : String) :
    (s.dropped i).holder scope ≠ some i := by
  unfold LaunchStore.dropped
  dsimp only
  by_cases hmine : s.holder scope = some i
  · rw [if_pos hmine]
    exact fun h => nomatch h
  · rw [if_neg hmine]
    exact hmine

theorem entered_calls_self (w : LaunchWorld ι) (i : ι) (a : StartRun) :
    (w.entered i a).calls i = some (a, w.started) := update_self ..

theorem entered_calls_of_ne (w : LaunchWorld ι) {i : ι} (hj : j ≠ i) (a : StartRun) :
    (w.entered i a).calls j = w.calls j := update_of_ne hj ..

theorem inv_entered {a : StartRun} (hinv : LaunchInv env events w places) :
    LaunchInv env events (w.entered i a)
      (Function.update places i (LaunchSeat.fresh env a w.started)) where
  histories := hinv.histories
  knows := (forall_update_iff places (fun j l => l.Knows (w.entered i a).store j)).mpr
    ⟨knows_unlocked (dropped_free w.store i) rfl rfl rfl rfl rfl, fun j hj =>
      (hinv.knows j).later (dropped_holder w.store hj) (LaunchStore.Later.refl w.store)
        hinv.histories fun hempty => ((hinv.knows j).empty hempty).2.2⟩
  call := (forall_update_iff places (fun j l => l.call = (w.entered i a).calls j)).mpr
    ⟨(entered_calls_self w i a).symm, fun j hj =>
      (hinv.call j).trans (entered_calls_of_ne w hj a).symm⟩
  thread := by
    intro j b number hb
    by_cases hj : j = i
    · subst hj
      rw [entered_calls_self, some.injEq, Prod.mk.injEq] at hb
      rw [update_self, ← hb.1]
      rfl
    · rw [entered_calls_of_ne w hj] at hb
      rw [update_of_ne hj]
      exact hinv.thread j b number hb
  number := by
    intro j b number hb
    by_cases hj : j = i
    · subst hj
      rw [entered_calls_self, some.injEq, Prod.mk.injEq] at hb
      rw [← hb.2]
      exact Nat.lt_succ_self _
    · rw [entered_calls_of_ne w hj] at hb
      exact Nat.lt_succ_of_lt (hinv.number j b number hb)
  past e he j b number hb := Nat.lt_succ_of_lt (hinv.past e he j b number hb)
  roots := hinv.roots
  creates := hinv.creates
  shown := by
    rintro j ⟨e, he, hworker, hcalls, hrest⟩ hcall
    by_cases hj : j = i
    · -- No event belongs to the call that has just begun.
      subst hj
      rw [entered_calls_self] at hcalls
      exact absurd (hinv.past e he j a w.started hcalls) (Nat.lt_irrefl _)
    · rw [entered_calls_of_ne w hj] at hcalls hcall
      rw [update_of_ne hj]
      exact hinv.shown j ⟨e, he, hworker, hcalls, hrest⟩ hcall

theorem move_answered (r : LaunchRequest) (a : r.Answer)
    (h : l.answered = true) : (l.move env r a).answered = true := by
  cases r
  case getThread threadId =>
    cases a with
    | error e => exact h
    | ok thread => simp only [LaunchSeat.move, LaunchSeat.shown, h, Bool.true_or]
  case createThread threadId metadata =>
    cases a with
    | error e => exact h
    | ok thread => simp only [LaunchSeat.move, LaunchSeat.shown, h, Bool.true_or]
  case acquire scope => cases a <;> exact h
  case listRuns threadId limit offset =>
    cases a with
    | error e => exact h
    | ok page => exact (listed_keeps l offset page).answered.trans h
  case createRun threadId assistantId input configurable recursionLimit marker =>
    cases a <;> exact h
  all_goals exact h

theorem move_shown {a : r.Answer} (hlocked : l.locked = true)
    (h : showsThread env r a = true) : (l.move env r a).answered = true := by
  cases r
  case getThread threadId =>
    cases a with
    | error e => exact absurd h Bool.false_ne_true
    | ok thread =>
      have hok : threadFieldsOk env thread = true := h
      simp only [LaunchSeat.move, LaunchSeat.shown, hlocked, hok, Bool.and_self, Bool.or_true]
  case createThread threadId metadata =>
    cases a with
    | error e => exact absurd h Bool.false_ne_true
    | ok thread =>
      have hok : threadFieldsOk env thread = true := h
      simp only [LaunchSeat.move, LaunchSeat.shown, hlocked, hok, Bool.and_self, Bool.or_true]
  all_goals exact absurd h Bool.false_ne_true

theorem inv_answered {a : r.Answer} (hinv : LaunchInv env events w places)
    (hallowed : (places i).allowed env r) (hresp : (launchSystem ι env).respond i w r a w') :
    (places i).possible r a ∧ LaunchInv env (events ++ [⟨i, w, r, a, w'⟩]) w'
      (Function.update places i ((places i).move env r a)) := by
  rcases hresp with ⟨s, helapses, hanswers, hcalls, hstarted⟩
  have hist := elapses_histories helapses hinv.histories
  have hknows := fun j => knows_elapsed (hinv.knows j) helapses hinv.histories
  have heffect := answers_effect (hknows i) hallowed hanswers
  have hlater := (elapses_later helapses).trans heffect.later
  refine ⟨answers_possible (hknows i) hist hallowed hanswers, ?_⟩
  exact {
    histories := heffect.histories hist
    knows := (forall_update_iff places (fun j l => l.Knows w'.store j)).mpr
      ⟨knows_answered (hknows i) hist hallowed hanswers, fun j hj =>
        knows_other hj (hknows i) (hknows j) hist heffect⟩
    call := by
      rw [hcalls]
      exact (forall_update_iff places (fun j l => l.call = w.calls j)).mpr
        ⟨(move_call _ r a).1.trans (hinv.call i), fun j _ => hinv.call j⟩
    thread := by
      intro j b number hb
      rw [hcalls] at hb
      by_cases hj : j = i
      · subst hj
        rw [update_self, (move_call _ r a).2]
        exact hinv.thread j b number hb
      · rw [update_of_ne hj]
        exact hinv.thread j b number hb
    number := by
      rw [hcalls, hstarted]
      exact hinv.number
    past := by
      intro e he j b number hb
      rw [hstarted]
      rcases mem_append.mp he with hold | hnew
      · exact hinv.past e hold j b number hb
      · rw [mem_singleton.mp hnew] at hb
        exact hinv.number j b number hb
    roots := by
      intro e he threadId
      rcases mem_append.mp he with hold | hnew
      · have hroots := hinv.roots e hold threadId
        rw [← elapses_roots helapses threadId] at hroots
        rcases heffect.runs threadId with hsame | ⟨rfl, _, f, run, _, hfirst⟩
        · unfold LaunchStore.roots at hroots ⊢
          rwa [hsame]
        · -- The thread had no run until now, so it had none after any earlier answer.
          refine Or.inl (hroots.elim (fun h => h) fun h => h.trans ?_)
          rw [LaunchStore.roots, hfirst.empty]
          rfl
      · rw [mem_singleton.mp hnew]
        exact Or.inr rfl
    creates := by
      intro e he hcreates b number hb
      rcases mem_append.mp he with hold | hnew
      · exact (hinv.creates e hold hcreates b number hb).later hlater
      · rw [mem_singleton.mp hnew] at hcreates hb
        exact (matches_of_creates hinv hallowed hcreates hb).later hlater
    shown := by
      rintro j ⟨e, he, rfl, hcall, ⟨scope, hheld⟩, hshows⟩ hbusy
      rw [hcalls] at hcall hbusy
      rcases mem_append.mp he with hold | hnew
      · have hanswered := hinv.shown e.worker ⟨e, hold, rfl, hcall, ⟨scope, hheld⟩, hshows⟩ hbusy
        by_cases hj : e.worker = i
        · rw [hj, update_self]
          rw [hj] at hanswered
          exact move_answered r a hanswered
        · rwa [update_of_ne hj]
      · rw [mem_singleton.mp hnew] at hheld hshows ⊢
        rw [update_self]
        exact move_shown (((hinv.knows i).lock scope).mp hheld).1 hshows }

end Steps

section Idempotency

variable {ι : Type}

/-- A thread has at most one marked run, and it never had another. -/
def OneRoot (events : List (LaunchEvent ι)) (w : LaunchWorld ι) : Prop :=
  ∀ threadId, (w.store.roots threadId).length ≤ 1 ∧ ∀ e ∈ events,
    e.after.store.roots threadId = [] ∨ e.after.store.roots threadId = w.store.roots threadId

/-- A call that has returned returned the thread of its key and the marked run of it, and
    the thread is stamped with its request. -/
def ReturnsRoot (env : LaunchEnv)
    (t : Team (LaunchWorld ι) ι LaunchRequest LaunchRequest.Answer (Except LaunchError Launched)) :
    Prop :=
  ∀ i a number launched, t.state.calls i = some (a, number) →
    t.running i = some (.done (.ok launched)) → launched.threadId = a.threadId env ∧
      Matches env t.state.store a ∧
      ∃ root, t.state.store.roots (a.threadId env) = [root] ∧ root.runId = launched.runId

/-- A call under a key that was used for another request creates no run, and does not
    return. What it ends in is an error of a given kind. -/
def RefusesOthers (env : LaunchEnv) (ends : ι → LaunchError → Prop) (events : List (LaunchEvent ι))
    (t : Team (LaunchWorld ι) ι LaunchRequest LaunchRequest.Answer (Except LaunchError Launched)) :
    Prop :=
  (∀ e ∈ events, ∀ a number, e.before.calls e.worker = some (a, number) →
    Differs env t.state.store a → e.request.createsRun = false) ∧
  ∀ i a number result, t.state.calls i = some (a, number) → Differs env t.state.store a →
    t.running i = some (.done result) → ∃ error, result = .error error ∧ ends i error

/-- A conflict, or any error as long as the caller was not shown the thread. -/
def ConflictOnceShown (env : LaunchEnv) (events : List (LaunchEvent ι)) (w : LaunchWorld ι) (i : ι)
    (error : LaunchError) : Prop :=
  ShownThread env events w i → ∃ message, error = .idempotencyConflict message

theorem launch_invariant [DecidableEq ι] {env : LaunchEnv} {events : List (LaunchEvent ι)}
    {t : Team (LaunchWorld ι) ι LaunchRequest LaunchRequest.Answer (Except LaunchError Launched)}
    (hrun : (launchSystem ι env).Run .initial events t) :
    ∃ places, LaunchInv env events t.state places ∧ ∀ i p, t.running i = some p →
      p.follows (launchDiscipline env) (either (LaunchSeat.Finished env) (LaunchSeat.Failed env))
        (places i) := by
  refine System.Run.invariant inv_initial ?_ ?_ hrun
  · rintro events w places i p w' hinv ⟨a, hkey, rfl, rfl⟩
    rcases isSome_iff_exists.mp hkey with ⟨key, hkey⟩
    exact ⟨_, startRun_follows hkey, inv_entered hinv⟩
  · exact fun hinv hallowed hresp => inv_answered hinv hallowed hresp

/-- In every interleaving a thread has at most one marked run; what returns returns it;
    and a call with another request creates none and fails, in a conflict once it was
    shown the thread. -/
theorem launch_idempotency [DecidableEq ι] {env : LaunchEnv} {events : List (LaunchEvent ι)}
    {t : Team (LaunchWorld ι) ι LaunchRequest LaunchRequest.Answer (Except LaunchError Launched)}
    (hrun : (launchSystem ι env).Run .initial events t) :
    OneRoot events t.state ∧ ReturnsRoot env t ∧
      RefusesOthers env (ConflictOnceShown env events t.state) events t := by
  rcases launch_invariant hrun with ⟨places, hinv, hfollows⟩
  -- What a finished call is stamped with, told on the seat, is so in the store.
  have hmatches : ∀ i a number f, t.state.calls i = some (a, number) → (places i).Owns env f →
      Matches env t.state.store a := by
    rintro i a number f hcall ⟨hstamped, a', number', launch, hcall', hamounts, hf⟩
    rcases some.inj ((hcall'.symm.trans (hinv.call i)).trans hcall) with ⟨rfl, rfl⟩
    have hknown := (hinv.knows i).stamp hstamped
    rw [hinv.thread i _ _ hcall] at hknown
    exact ⟨launch, f, hamounts, hf, hknown⟩
  have hreturned : ReturnsRoot env t := by
    intro i a number launched hcall hdone
    rcases hfollows i _ hdone with ⟨hid, hroot, f, howns⟩
    rcases (hinv.knows i).root _ hroot with ⟨root, hone, hrunId⟩
    rw [hinv.thread i a number hcall] at hid hone
    exact ⟨hid, hmatches i a number f hcall howns, root, hone, hrunId⟩
  refine ⟨fun threadId => ⟨?_, fun e he => hinv.roots e he threadId⟩, hreturned, ?_, ?_⟩
  · rcases hinv.histories.roots threadId with hnone | ⟨root, f, hone, _, _⟩
    · rw [hnone]
      exact Nat.zero_le 1
    · rw [hone]
      exact Nat.le_refl 1
  · intro e he a number hcall hdiffers
    by_contra hcreates
    rw [Bool.not_eq_false] at hcreates
    exact hdiffers.2 (hinv.creates e he hcreates a number hcall)
  · intro i a number result hcall hdiffers hdone
    cases result with
    | ok launched => exact absurd (hreturned i a number launched hcall hdone).2.1 hdiffers.2
    | error error =>
      refine ⟨error, rfl, fun hshown => ?_⟩
      have hanswered := hinv.shown i hshown (by rw [hcall]; exact some_ne_none _)
      rcases (hfollows i _ hdone : LaunchSeat.Failed env (places i) error) hanswered with
        ⟨f, howns⟩ | hconflict
      · exact absurd (hmatches i a number f hcall howns) hdiffers.2
      · exact hconflict

end Idempotency

def sampleLaunchEnv : LaunchEnv where
  rules := sampleRules
  sha256 text := text
  uuid5 name := name
  asciiJson d := match d.value "idempotency_key" with
    | .str key => key
    | _ => ""
  utf8Json d := match (((d.value "input").dict?).getD ∅).value "title" with
    | .str title => title
    | _ => ""
  validateJsonObject _ _ := none
  modelValidate _ := some ⟨∅, false, 100⟩
  validateExternalResults := some
  validateContextPackets := some
  nativeIdentifierOk _ := true
  quote text := text

/-- A launch under the key `k`. -/
def sampleStart (title : String) : StartRun where
  title := title
  request := ""
  idempotencyKey := some "k"
  assistantId := none
  projectId := none
  appId := none
  configurable := none
  phases := none
  gates := some ∅
  agentBackend := none
  modelByPhase := none
  externalResults := none
  contextPackets := none
  principalId := none
  beforeRunStart := none
  prepareConfigurable := false
  reuseExistingThread := false
  recoveryOnly := false
  requestIntent := none
  actorId := none

def sampleLaunch (title : String) : Launch where
  threadId := some "apex-launch:k"
  fingerprint := some title
  metadata := (Dict.single "title" (.str title)).set launchFingerprintKey (.str title)
  assistantId := "pipeline"
  input := (Dict.single "title" (.str title)).set "request" (.str "")
  configurable := (Dict.single "assistant_id" (.str "pipeline")).set "gates" (.ofDict ∅)
  recursionLimit := maxRecommendedRecursionLimit
  beforeRunStart := none
  prepareConfigurable := false
  admissionActor := "pipeline-facade"
  reuseExistingThread := false
  recoveryOnly := false

theorem startRun_of_launchOf {launch : Launch} (hrecovery : a.recoveryOnly = false)
    (h : launchOf env a = .ok launch) :
    PipelineRead.startRun env a = runLaunch env launch := by
  unfold launchOf at h
  rcases bind_ok.mp h with ⟨configurable, hbase, hassemble⟩
  unfold PipelineRead.startRun
  rw [hbase, hrecovery]
  have hafter : (settle (assembleLaunch env a configurable) >>= runLaunch env)
      = runLaunch env launch := by
    rw [hassemble]
    rfl
  exact hafter

theorem sampleLaunch_a : launchOf sampleLaunchEnv (sampleStart "a") = .ok (sampleLaunch "a") := by
  decide +kernel

theorem sampleLaunch_b : launchOf sampleLaunchEnv (sampleStart "b") = .ok (sampleLaunch "b") := by
  decide +kernel

section

variable {ι : Type} [DecidableEq ι] {events : List (LaunchEvent ι)} {w : LaunchWorld ι}
  {running : ι → Option (Program LaunchRequest LaunchRequest.Answer (Except LaunchError Launched))}

theorem launchSystem_called
    (i : ι) (a : StartRun) (hkey : a.idempotencyKey.isSome = true)
    (hrun : (launchSystem ι env).Run .initial events ⟨w, running⟩) :
    (launchSystem ι env).Run .initial events
      ⟨w.entered i a, Function.update running i (some (PipelineRead.startRun env a).run)⟩ :=
  .start hrun ⟨a, hkey, rfl, rfl⟩

theorem launchSystem_asked {s : LaunchStore ι} {i : ι}
    {p : Program LaunchRequest LaunchRequest.Answer (Except LaunchError Launched)}
    {next : r.Answer → Program LaunchRequest LaunchRequest.Answer (Except LaunchError Launched)}
    (hrun : (launchSystem ι env).Run .initial events ⟨w, Function.update running i (some p)⟩)
    (hp : p = .ask r next) (a : r.Answer) (h : w.store.Answers i r a s) :
    ∃ e, (launchSystem ι env).Run .initial (events ++ [e])
      ⟨{ w with store := s }, Function.update running i (some (next a))⟩ :=
  ⟨_, hrun.asked hp ⟨w.store, elapses_refl w.store, h, rfl, rfl⟩⟩

end

def sampleThread (title : String) : NativeThread :=
  ⟨"apex-launch:k", some (Dict.single launchFingerprintKey (.str title))⟩

/-- A launch that succeeds, and then another request under its key whose request for the
    thread fails. -/
theorem sampleLaunches :
    ∃ events w running,
      (launchSystem Nat sampleLaunchEnv).Run .initial events ⟨w, running⟩ ∧
        w.calls 0 = some (sampleStart "a", 0) ∧
        running 0 = some (.done (.ok (launchedRun sampleLaunchEnv "apex-launch:k" "run"))) ∧
        w.calls 1 = some (sampleStart "b", 1) ∧ running 1 = some (.done (.error threadFailure)) ∧
        w.store.stamp "apex-launch:k" = some (some (.str "a")) := by
  let run : NativeRun := ⟨"run", some (Dict.single launchRootFingerprintKey (.str "a"))⟩
  have hidle : (launchSystem Nat sampleLaunchEnv).Run .initial [] ⟨.initial, fun _ => none⟩ := .idle
  have h0 := launchSystem_called 0 (sampleStart "a") rfl hidle
  rw [startRun_of_launchOf rfl sampleLaunch_a] at h0
  obtain ⟨e1, h1⟩ := launchSystem_asked h0 rfl (.ok ()) ⟨rfl, rfl⟩
  obtain ⟨e2, h2⟩ := launchSystem_asked h1 rfl (.ok (sampleThread "a")) ⟨rfl, fun _ => rfl⟩
  obtain ⟨e3, h3⟩ := launchSystem_asked h2 rfl (.ok []) ⟨rfl, rfl⟩
  obtain ⟨e4, h4⟩ := launchSystem_asked h3 rfl (.ok ∅) rfl
  obtain ⟨e5, h5⟩ := launchSystem_asked h4 rfl (.ok ∅) rfl
  obtain ⟨e6, h6⟩ := launchSystem_asked h5 rfl (.ok "run") ⟨run, rfl, rfl, _, rfl, rfl⟩
  obtain ⟨e7, h7⟩ := launchSystem_asked h6 rfl (.ok ()) rfl
  obtain ⟨e8, h8⟩ := launchSystem_asked h7 rfl () rfl
  have h9 := launchSystem_called 1 (sampleStart "b") rfl h8
  rw [startRun_of_launchOf rfl sampleLaunch_b] at h9
  obtain ⟨e10, h10⟩ := launchSystem_asked h9 rfl (.ok ()) ⟨rfl, rfl⟩
  obtain ⟨e11, h11⟩ := launchSystem_asked h10 rfl (.error (.status 503)) (Or.inl rfl)
  obtain ⟨e12, h12⟩ := launchSystem_asked h11 rfl () rfl
  exact ⟨_, _, _, h12, rfl, rfl, rfl, rfl, rfl⟩

/-- At a launch that succeeds and another request under its key. -/
theorem launch_idempotency_launched : ∃ (events : List (LaunchEvent Nat)) (t : _),
    OneRoot events t.state ∧ ReturnsRoot sampleLaunchEnv t ∧
      RefusesOthers sampleLaunchEnv (ConflictOnceShown sampleLaunchEnv events t.state) events t ∧
      t.running 0 = some (.done (.ok (launchedRun sampleLaunchEnv "apex-launch:k" "run"))) := by
  obtain ⟨events, w, running, hrun, _, hdone, _⟩ := sampleLaunches
  have hall := launch_idempotency hrun
  exact ⟨events, _, hall.1, hall.2.1, hall.2.2, hdone⟩

theorem sampleStart_differs {s : LaunchStore Nat}
    (h : s.stamp "apex-launch:k" = some (some (.str "a"))) :
    Differs sampleLaunchEnv s (sampleStart "b") := by
  have hid : (sampleStart "b").threadId sampleLaunchEnv = "apex-launch:k" := by decide +kernel
  unfold Differs Matches
  rw [hid, h]
  refine ⟨some_ne_none _, ?_⟩
  rintro ⟨launch, f, ⟨configurable, hbase, hlaunch⟩, hf, hstamp⟩
  rcases hlaunch with hlaunch | ⟨hrecovery, _⟩
  · have hsample := sampleLaunch_b
    unfold launchOf at hsample
    rw [hbase] at hsample
    rw [Except.ok.inj (hlaunch.symm.trans hsample)] at hf
    rw [← some.inj hf] at hstamp
    exact absurd hstamp (by decide)
  · exact nomatch hrecovery

/-- Another request need not end in a conflict: the request for the thread may fail. -/
theorem other_request_without_conflict :
    ¬ ∀ (env : LaunchEnv) (events : List (LaunchEvent Nat)) t,
      (launchSystem Nat env).Run .initial events t →
        OneRoot events t.state ∧ ReturnsRoot env t ∧ RefusesOthers env
          (fun _ error => ∃ message, error = .idempotencyConflict message) events t := by
  intro hclaim
  obtain ⟨events, w, running, hrun, _, _, hcall, hdone, hstamp⟩ := sampleLaunches
  rcases (hclaim _ _ _ hrun).2.2.2 1 _ _ _ hcall (sampleStart_differs hstamp) hdone with
    ⟨error, herror, message, hconflict⟩
  rw [hconflict] at herror
  exact nomatch herror

end Apex.Services
