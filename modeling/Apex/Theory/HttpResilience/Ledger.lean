import Apex.Adapters.HttpResilience

/-!
# What A Call Does

Every call keeps a ledger of what it has asked for and what it was answered. Whatever the
answers are, it never sends too often or too late, and at its end every response that it does
not return is closed and its outcome is recorded.

## Main definitions

* `Ledger`, `Ledger.note`: What a call has done.
* `discipline`: What it may ask at each point.

## Theorems

* `resilientStreamRequest_follows`: Every call follows the discipline to an accounted end.
-/

namespace Apex.Adapters.HttpResilience

open Action (ask_bind_follows)

/-- What a call has done: how often it has sent, the responses that are open, what it has
    recorded, its first look at the clock and its last one if it has done nothing since, whether
    it was refused, and whether it has sent after its deadline or after it was refused. -/
structure Ledger where
  sends : Nat := 0
  opened : List Response := []
  failures : Nat := 0
  successes : Nat := 0
  started : Option ℚ := none
  looked : Option ℚ := none
  refused : Bool := false
  improper : Bool := false

def SendOutcome.responses : SendOutcome → List Response
  | .received response => [response]
  | _ => []

namespace Ledger

/-- The last look at the clock was just now and before the deadline. -/
def inTime (call : Call) (l : Ledger) : Bool :=
  match call.policy.totalTimeoutS with
  | none => true
  | some totalTimeoutS =>
    match l.started, l.looked with
    | some started, some looked => decide (looked < started + max totalTimeoutS 0)
    | _, _ => false

def note (call : Call) (l : Ledger) : (r : Req) → Ans r → Ledger
  | .now, now =>
    { l with
      started := some (l.started.getD now)
      looked := some now }
  | .send _, outcome =>
    { l with
      sends := l.sends + 1
      opened := l.opened ++ SendOutcome.responses outcome
      looked := none
      improper := l.improper || l.refused || !l.inTime call }
  | .close response, _ =>
    { l with
      opened := l.opened.erase response
      looked := none }
  | .beforeRequest, admitted =>
    { l with
      refused := l.refused || !admitted
      looked := none }
  | .recordFailure, _ =>
    { l with
      failures := l.failures + 1
      looked := none }
  | .recordSuccess, _ =>
    { l with
      successes := l.successes + 1
      looked := none }
  | _, _ => { l with looked := none }

end Ledger

/-- How a call has to end. A transient response, a transport error and a timeout of a request
    are a failure, another response is a success; of a timeout in a wait nothing is said. -/
def Accounted (call : Call) (l : Ledger) : Except CallError Response → Prop
  | .ok response =>
    l.opened = [response] ∧
      if call.policy.transientStatuses.contains response.status then
        l.failures = 1 ∧ l.successes = 0
      else l.failures = 0 ∧ l.successes = 1
  | .error e =>
    l.opened = [] ∧ l.successes = 0 ∧ match e with
      | .transport | .timeout .request => l.failures = 1
      | .timeout .wait => True
      | .circuitOpen | .invalidDelay | .raised | .exhausted => l.failures = 0

def Proper (call : Call) (l : Ledger) : Req → Prop
  | .send _ =>
    l.sends < call.maxAttempts ∧ (call.canRetry = false → l.sends = 0) ∧
      l.refused = false ∧ l.inTime call = true
  | _ => True

structure Sound (call : Call) (l : Ledger) : Prop where
  sends : l.sends ≤ call.maxAttempts
  once : call.canRetry = false → l.sends ≤ 1
  proper : l.improper = false

theorem Sound.note {call : Call} {l : Ledger} {r : Req} {a : Ans r} (h : Sound call l)
    (hr : Proper call l r) : Sound call (l.note call r a) := by
  cases r with
  | send timeout =>
    rcases hr with ⟨hsends, honce, hrefused, htime⟩
    refine ⟨hsends, fun hretry => Nat.succ_le_succ (Nat.le_of_eq (honce hretry)), ?_⟩
    change (l.improper || l.refused || !l.inTime call) = false
    rw [h.proper, hrefused, htime]
    rfl
  | _ => exact ⟨h.sends, h.once, h.proper⟩

def discipline : Discipline Req Ans (Call × Ledger) where
  allowed place r := Proper place.1 place.2 r
  possible _ _ _ := True
  move place r a := (place.1, place.2.note place.1 r a)

/-- The deadline that a call goes by is the one of its policy. -/
def Timed (call : Call) (deadline : Option ℚ) (l : Ledger) : Prop :=
  match call.policy.totalTimeoutS with
  | none => deadline = none
  | some totalTimeoutS =>
    ∃ started, l.started = some started ∧ deadline = some (started + max totalTimeoutS 0)

/-- A call that has sent at most so often, with these responses open and nothing recorded. -/
structure Open (call : Call) (deadline : Option ℚ) (n : Nat) (opened : List Response)
    (place : Call × Ledger) : Prop where
  same : place.1 = call
  sends : place.2.sends ≤ n
  opened : place.2.opened = opened
  failures : place.2.failures = 0
  successes : place.2.successes = 0
  refused : place.2.refused = false
  timed : Timed call deadline place.2

section Walk

open Apex.Action Apex.Program

variable {call : Call} {deadline : Option ℚ} {n : Nat} {opened : List Response}
  {place : Call × Ledger}

theorem Open.look (h : Open call deadline n opened place) (r : Req) (a : Ans r)
    (hr : match r with | .now | .jitter | .wallClock | .sleep _ _ => True | _ => False) :
    Open call deadline n opened (place.1, place.2.note place.1 r a) := by
  cases r with
  | now =>
    refine ⟨h.same, h.sends, h.opened, h.failures, h.successes, h.refused, ?_⟩
    have htimed := h.timed
    unfold Timed at htimed ⊢
    split at htimed
    · exact htimed
    · rcases htimed with ⟨started, hstarted, hdeadline⟩
      refine ⟨started, ?_, hdeadline⟩
      change some (place.2.started.getD a) = some started
      rw [hstarted]
      rfl
  | jitter => exact ⟨h.same, h.sends, h.opened, h.failures, h.successes, h.refused, h.timed⟩
  | wallClock => exact ⟨h.same, h.sends, h.opened, h.failures, h.successes, h.refused, h.timed⟩
  | sleep delay timeout =>
    exact ⟨h.same, h.sends, h.opened, h.failures, h.successes, h.refused, h.timed⟩
  | _ => exact absurd hr id

theorem Open.accounted (h : Open call deadline n [] place) {e : CallError}
    (he : e = .circuitOpen ∨ e = .invalidDelay ∨ e = .raised ∨ e = .exhausted ∨
      e = .timeout .wait) : Accounted place.1 place.2 (.error e) := by
  refine ⟨h.opened, h.successes, ?_⟩
  rcases he with rfl | rfl | rfl | rfl | rfl
  · exact h.failures
  · exact h.failures
  · exact h.failures
  · exact h.failures
  · trivial

/-- Waiting changes nothing, and raises nothing that would have to be recorded. -/
def Waits (call : Call) (deadline : Option ℚ) (n : Nat) (opened : List Response) {α : Type} :
    Call × Ledger → Except CallError α → Prop :=
  either (fun place _ => Open call deadline n opened place) fun place e =>
    Open call deadline n opened place ∧ (e = .invalidDelay ∨ e = .raised ∨ e = .timeout .wait)

theorem delay_follows (h : Open call deadline n opened place) (policy : RetryPolicy)
    (attempt : Nat) :
    (delay policy attempt).run.follows discipline (Waits call deadline n opened) place := by
  refine ask_bind_follows trivial fun jitter _ => ?_
  have h' := h.look .jitter jitter trivial
  cases jitter with
  | none => exact ⟨h', .inl rfl⟩
  | some jitter =>
    dsimp only
    split
    · split
      · exact ⟨h', .inl rfl⟩
      · exact h'
    · exact ⟨h', .inl rfl⟩

theorem retryDelay_follows (h : Open call deadline n opened place) (response : Response)
    (policy : RetryPolicy) (attempt : Nat) :
    (retryDelay response policy attempt).run.follows discipline
      (Waits call deadline n opened) place := by
  unfold retryDelay
  split
  · exact delay_follows h policy attempt
  · exact delay_follows h policy attempt
  · exact h
  · exact ask_bind_follows trivial fun now _ => h.look .wallClock now trivial

theorem sleepWithDeadline_follows (h : Open call deadline n opened place) (delay : ℚ) :
    (sleepWithDeadline delay deadline).run.follows discipline
      (Waits call deadline n opened) place := by
  unfold sleepWithDeadline
  split
  · exact ⟨h, .inl rfl⟩
  · cases deadline with
    | none =>
      refine ask_bind_follows trivial fun outcome _ => ?_
      have h' := h.look (.sleep delay none) outcome trivial
      cases outcome with
      | slept => exact h'
      | timeout => exact ⟨h', .inr (.inl rfl)⟩
      | raised => exact ⟨h', .inr (.inl rfl)⟩
    | some deadline =>
      refine ask_bind_follows trivial fun now _ => ?_
      have h' := h.look .now now trivial
      dsimp only
      split
      · exact ⟨h', .inr (.inr rfl)⟩
      · refine ask_bind_follows trivial fun outcome _ => ?_
        have h'' := h'.look (.sleep _ _) outcome trivial
        cases outcome with
        | slept => exact h''
        | timeout => exact ⟨h'', .inr (.inr rfl)⟩
        | raised => exact ⟨h'', .inr (.inl rfl)⟩

def sentResponses : Except SendError Response → List Response
  | .ok response => [response]
  | .error _ => []

theorem send_follows (h : Open call deadline n [] place) (hn : n < call.maxAttempts)
    (honce : call.canRetry = false → n = 0) (timeout : Option ℚ)
    (htime : place.2.inTime call = true) :
    (do settle (SendOutcome.result (← ask (.send timeout))) : Act SendError Response).run.follows
      discipline (fun place sent => Open call deadline (n + 1) (sentResponses sent) place)
      place := by
  have hcall := h.same
  have hproper : Proper place.1 place.2 (.send timeout) := by
    rw [hcall]
    exact ⟨Nat.lt_of_le_of_lt h.sends hn,
      fun hretry => Nat.le_zero.mp (honce hretry ▸ h.sends), h.refused, htime⟩
  refine ask_bind_follows hproper fun outcome _ => ?_
  have hopened : (place.2.note place.1 (.send timeout) outcome).opened =
      SendOutcome.responses outcome := congrArg (· ++ SendOutcome.responses outcome) h.opened
  have h' : Open call deadline (n + 1) (SendOutcome.responses outcome)
      (place.1, place.2.note place.1 (.send timeout) outcome) :=
    ⟨hcall, Nat.succ_le_succ h.sends, hopened, h.failures, h.successes, h.refused, h.timed⟩
  cases outcome with
  | received response => exact h'
  | timeout => exact h'
  | httpError => exact h'
  | raised => exact h'

theorem streamRequestWithDeadline_follows (h : Open call deadline n [] place)
    (hn : n < call.maxAttempts) (honce : call.canRetry = false → n = 0) :
    (streamRequestWithDeadline deadline).run.follows discipline
      (fun place sent => Open call deadline (n + 1) (sentResponses sent) place) place := by
  have htimed := h.timed
  unfold Timed at htimed
  cases deadline with
  | none =>
    refine send_follows h hn honce none ?_
    unfold Ledger.inTime
    split at htimed
    · rfl
    · rcases htimed with ⟨_, _, hdeadline⟩
      cases hdeadline
  | some deadline =>
    refine ask_bind_follows trivial fun (now : ℚ) _ => ?_
    have h' := h.look .now now trivial
    have htimed' := h'.timed
    unfold Timed at htimed'
    split
    · exact ⟨h'.same, Nat.le_succ_of_le h'.sends, h'.opened, h'.failures, h'.successes,
        h'.refused, h'.timed⟩
    · next hleft =>
        refine send_follows h' hn honce _ ?_
        unfold Ledger.inTime
        split at htimed'
        · cases htimed'
        · rcases htimed' with ⟨started, hstarted, hdeadline⟩
          cases hdeadline
          dsimp only at hstarted ⊢
          rw [hstarted]
          exact decide_eq_true (sub_pos.mp (not_le.mp hleft))

def Ends (place : Call × Ledger) (result : Except CallError Response) : Prop :=
  Accounted place.1 place.2 result

theorem recordFailure_follows (h : Open call deadline n opened place)
    {result : Except CallError Response} {rest : Act CallError Response}
    (hrest : rest.run = .done result)
    (hends : ∀ l : Ledger, l.opened = opened → l.failures = 1 → l.successes = 0 →
      Accounted place.1 l result) :
    (ask .recordFailure >>= fun _ => rest).run.follows discipline Ends place := by
  refine ask_bind_follows trivial fun _ _ => ?_
  rw [hrest]
  exact hends _ h.opened (congrArg (· + 1) h.failures) h.successes

theorem accounted_transient {l : Ledger} {response : Response}
    (hstatus : call.policy.transientStatuses.contains response.status = true)
    (hopened : l.opened = [response]) (hfailures : l.failures = 1) (hsuccesses : l.successes = 0) :
    Accounted call l (.ok response) := by
  refine ⟨hopened, ?_⟩
  rw [if_pos hstatus]
  exact ⟨hfailures, hsuccesses⟩

theorem accounted_other {l : Ledger} {response : Response}
    (hstatus : ¬ call.policy.transientStatuses.contains response.status = true)
    (hopened : l.opened = [response]) (hfailures : l.failures = 0) (hsuccesses : l.successes = 1) :
    Accounted call l (.ok response) := by
  refine ⟨hopened, ?_⟩
  rw [if_neg hstatus]
  exact ⟨hfailures, hsuccesses⟩

theorem retry_follows {wait : Act CallError ℚ} {again : Act CallError Response}
    (hwait : wait.run.follows discipline (Waits call deadline n []) place)
    (hagain : ∀ place, Open call deadline n [] place → again.run.follows discipline Ends place) :
    (do sleepWithDeadline (← wait) deadline; again).run.follows discipline Ends place := by
  refine follows_run_bind.mpr (follows_mono hwait fun place result hresult => ?_)
  cases result with
  | error e =>
    rcases hresult with ⟨hopen, he⟩
    refine hopen.accounted ?_
    rcases he with he | he | he
    · exact .inr (.inl he)
    · exact .inr (.inr (.inl he))
    · exact .inr (.inr (.inr (.inr he)))
  | ok delay =>
    refine follows_run_bind.mpr (follows_mono (sleepWithDeadline_follows hresult delay)
      fun place result hresult => ?_)
    cases result with
    | error e =>
      rcases hresult with ⟨hopen, he⟩
      refine hopen.accounted ?_
      rcases he with he | he | he
      · exact .inr (.inl he)
      · exact .inr (.inr (.inl he))
      · exact .inr (.inr (.inr (.inr he)))
    | ok _ => exact hagain place hresult

theorem afterSend_follows {sent : Except SendError Response} {again : Act CallError Response}
    (h : Open call deadline (n + 1) (sentResponses sent) place)
    (hagain : call.canRetry = true → n + 1 < call.maxAttempts → ∀ place,
      Open call deadline (n + 1) [] place → again.run.follows discipline Ends place) :
    (afterSend call deadline (n + 1) again sent).run.follows discipline Ends place := by
  have hmore : ¬ (!call.canRetry || decide (call.maxAttempts ≤ n + 1)) = true → ∀ place,
      Open call deadline (n + 1) [] place → again.run.follows discipline Ends place := by
    intro hmore
    rw [Bool.or_eq_true, not_or, decide_eq_true_eq, Bool.not_eq_true', Bool.not_eq_false] at hmore
    exact hagain hmore.1 (Nat.not_le.mp hmore.2)
  cases sent with
  | error e =>
    cases e with
    | raised => exact h.accounted (.inr (.inr (.inl rfl)))
    | timeout =>
      exact recordFailure_follows h rfl fun l hopened hfailures hsuccesses =>
        ⟨hopened, hsuccesses, hfailures⟩
    | httpError =>
      by_cases hlast : (!call.canRetry || decide (call.maxAttempts ≤ n + 1)) = true
      · rw [afterSend, if_pos hlast]
        exact recordFailure_follows h rfl fun l hopened hfailures hsuccesses =>
          ⟨hopened, hsuccesses, hfailures⟩
      · rw [afterSend, if_neg hlast]
        exact retry_follows (delay_follows h _ _) (hmore hlast)
  | ok response =>
    by_cases hstatus : call.policy.transientStatuses.contains response.status = true
    · by_cases hlast : (!call.canRetry || decide (call.maxAttempts ≤ n + 1)) = true
      · rw [afterSend, if_pos hstatus, if_pos hlast]
        refine recordFailure_follows h rfl fun l hopened hfailures hsuccesses => ?_
        rw [← h.same] at hstatus
        exact accounted_transient hstatus hopened hfailures hsuccesses
      · rw [afterSend, if_pos hstatus, if_neg hlast]
        refine ask_bind_follows trivial fun (closed : Bool) _ => ?_
        have hopened : place.2.opened.erase response = [] := by
          rw [h.opened]
          exact List.erase_cons_head ..
        have hclosed : Open call deadline (n + 1) []
            (place.1, place.2.note place.1 (.close response) closed) :=
          ⟨h.same, h.sends, hopened, h.failures, h.successes, h.refused, h.timed⟩
        refine Action.raiseWhen_bind_either (fun _ => ?_) fun _ => ?_
        · exact retry_follows (retryDelay_follows hclosed _ _ _) (hmore hlast)
        · exact hclosed.accounted (.inr (.inr (.inl rfl)))
    · rw [afterSend, if_neg hstatus]
      refine ask_bind_follows trivial fun _ _ => ?_
      rw [← h.same] at hstatus
      exact accounted_other hstatus h.opened h.failures (congrArg (· + 1) h.successes)

theorem attempts_follows (call : Call) (deadline : Option ℚ) (remaining : Nat) :
    ∀ (n : Nat) (place : Call × Ledger), remaining + n = call.maxAttempts →
      (call.canRetry = false → n = 0) → Open call deadline n [] place →
      (attempts call deadline remaining (n + 1)).run.follows discipline Ends place := by
  induction remaining with
  | zero =>
    intro n place _ _ h
    exact h.accounted (.inr (.inr (.inr (.inl rfl))))
  | succ remaining ih =>
    intro n place hleft honce h
    refine ask_bind_follows trivial fun (admitted : Bool) _ => ?_
    refine Action.raiseWhen_bind_either (fun hadmitted => ?_) fun _ => ?_
    · have hrefused : (place.2.refused || !admitted) = false := by
        rw [h.refused, hadmitted]
        rfl
      have hasked :
          Open call deadline n [] (place.1, place.2.note place.1 .beforeRequest admitted) :=
        ⟨h.same, h.sends, h.opened, h.failures, h.successes, hrefused, h.timed⟩
      refine follows_run_bind.mpr (follows_run_lift.mpr (follows_mono
        (streamRequestWithDeadline_follows hasked (by omega) honce) fun place sent hsent => ?_))
      refine afterSend_follows hsent fun hretry _ place hplace => ?_
      exact ih (n + 1) place (by omega) (fun hnot => absurd (hretry.symm.trans hnot) nofun) hplace
    · exact ⟨h.opened, h.successes, h.failures⟩

theorem deadlineOf_follows (call : Call) :
    (deadlineOf call.policy).run.follows discipline
      (either (fun place deadline => Open call deadline 0 [] place) fun _ _ => False)
      (call, {}) := by
  unfold deadlineOf
  split
  · next hnone =>
      refine ⟨rfl, Nat.le_refl _, rfl, rfl, rfl, rfl, ?_⟩
      unfold Timed
      rw [hnone]
  · next totalTimeoutS hsome =>
      refine ask_bind_follows trivial fun (now : ℚ) _ => ?_
      refine ⟨rfl, Nat.le_refl _, rfl, rfl, rfl, rfl, ?_⟩
      unfold Timed
      rw [hsome]
      exact ⟨now, rfl, rfl⟩

theorem resilientStreamRequest_follows (call : Call) :
    (resilientStreamRequest call).run.follows discipline Ends (call, {}) := by
  refine follows_run_bind.mpr (follows_mono (deadlineOf_follows call)
    fun place result hresult => ?_)
  cases result with
  | ok deadline => exact attempts_follows call deadline _ 0 place rfl (fun _ => rfl) hresult
  | error e => exact hresult.elim

end Walk

end Apex.Adapters.HttpResilience
