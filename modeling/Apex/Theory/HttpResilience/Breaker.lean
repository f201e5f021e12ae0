import Mathlib.Data.List.Induction
import Apex.Theory.HttpResilience.Ledger

/-!
# Calls That Share A Breaker

The breaker keeps the number of failures recorded since the last success, and since the last
call that was let through after it had been open for long enough; and while these are too many
and the last of them is recent, every call is refused.

## Main definitions

* `ledger`: What a call has done in a run.
* `streak`: The failures that count.

## Theorems

* `calls_accounted`: What holds of every interleaving of calls.
* `reopened_admits`: A call that is let through makes earlier failures no longer count.
-/

namespace Apex.Adapters.HttpResilience

open List Option Function

variable {ι : Type}

abbrev CallEvent (ι : Type) := System.Event (World ι) ι Req Ans

def ledger [DecidableEq ι] (call : Call) (i : ι) (events : List (CallEvent ι)) : Ledger :=
  events.foldl (fun l e => if e.worker = i then l.note call e.request e.answer else l) {}

/-- The times of the failures that count, after one more answer. A call that an open breaker
    lets through makes the earlier ones no longer count, if `halfOpen`. -/
def noteStreak (halfOpen : Bool) (times : List ℚ) : CallEvent ι → List ℚ
  | ⟨_, before, .beforeRequest, admitted, _⟩ =>
    if (halfOpen && admitted && before.breaker.openedAt.isSome) = true then [] else times
  | ⟨_, _, .recordSuccess, _, _⟩ => []
  | ⟨_, _, .recordFailure, _, after⟩ => times ++ [after.clock]
  | _ => times

/-- The times of the failures recorded since the last success. -/
def streak (halfOpen : Bool) (events : List (CallEvent ι)) : List ℚ :=
  events.foldl (noteStreak halfOpen) []

/-- Whoever asks to send while too many failures count and the last of them is recent is
    refused. -/
def RefusedAfter (halfOpen : Bool) (limits : Limits) (events : List (CallEvent ι)) : Prop :=
  ∀ earlier i before admitted after later,
    events = earlier ++ ⟨i, before, .beforeRequest, admitted, after⟩ :: later →
    ∀ last, (streak halfOpen earlier).getLast? = some last →
      limits.failureThreshold ≤ (streak halfOpen earlier).length →
      after.clock - last < limits.resetAfterS → admitted = false

variable (world : World ι) (limits : Limits) (i : ι) (now : ℚ)

def Matches (breaker : CircuitBreaker) (times : List ℚ) : Prop :=
  breaker.failures = times.length ∧
    breaker.openedAt = if limits.failureThreshold ≤ times.length then times.getLast? else none

section Events

variable {limits : Limits} {events : List (CallEvent ι)} {e : CallEvent ι}

theorem ledger_append [DecidableEq ι] (call : Call) (i : ι) :
    ledger call i (events ++ [e]) =
      if e.worker = i then (ledger call i events).note call e.request e.answer
      else ledger call i events := by
  rw [ledger, foldl_append]
  rfl

theorem ledger_unheard [DecidableEq ι] (call : Call) {i : ι} (h : ∀ e ∈ events, e.worker ≠ i) :
    ledger call i events = {} := by
  induction events using reverseRecOn with
  | nil => rfl
  | append_singleton events e ih =>
    rw [ledger_append, if_neg (h e (mem_append_right _ mem_cons_self))]
    exact ih fun e he => h e (mem_append_left _ he)

theorem streak_append (halfOpen : Bool) :
    streak halfOpen (events ++ [e]) = noteStreak halfOpen (streak halfOpen events) e := by
  rw [streak, foldl_append]
  rfl

variable {times : List ℚ} {now : ℚ} {r : Req}

theorem refused_of_matches {world : World ι} {last : ℚ} (h : Matches limits world.breaker times)
    (hlast : times.getLast? = some last) (hmany : limits.failureThreshold ≤ times.length)
    (hrecent : now - last < limits.resetAfterS) :
    (world.breaker.beforeRequest limits now).1 = false := by
  have hopened : world.breaker.openedAt = some last := by
    rw [h.2, if_pos hmany, hlast]
  rw [CircuitBreaker.beforeRequest, hopened]
  dsimp only
  rw [if_pos hrecent]

theorem matches_empty : Matches limits {} [] := by
  refine ⟨rfl, ?_⟩
  split <;> rfl

theorem matches_failure {breaker : CircuitBreaker} (h : Matches limits breaker times) :
    Matches limits (breaker.recordFailure limits now) (times ++ [now]) := by
  have hlen : (times ++ [now]).length = times.length + 1 := length_append
  refine ⟨(congrArg (· + 1) h.1).trans hlen.symm, ?_⟩
  rw [CircuitBreaker.recordFailure, h.1, hlen, getLast?_concat]
  split
  · rfl
  · next hfew =>
      rw [h.2, if_neg]
      omega

section

variable {world after : World ι} {a : Ans r}

theorem matches_answer {i : ι}
    (h : Matches limits world.breaker times)
    (hanswer : answers limits { world with clock := now } r a after) :
    Matches limits after.breaker (noteStreak true times ⟨i, world, r, a, after⟩) := by
  cases r with
  | beforeRequest =>
    rcases hanswer with ⟨rfl, rfl⟩
    cases hopened : world.breaker.openedAt with
    | none =>
      have hstep : world.breaker.beforeRequest limits now = (true, world.breaker) := by
        rw [CircuitBreaker.beforeRequest, hopened]
      simp only [noteStreak, hstep, hopened, isSome_none, Bool.and_false,
        Bool.false_eq_true, if_false]
      exact h
    | some openedAt =>
      by_cases hrecent : now - openedAt < limits.resetAfterS
      · have hstep : world.breaker.beforeRequest limits now = (false, world.breaker) := by
          rw [CircuitBreaker.beforeRequest, hopened]
          exact if_pos hrecent
        simp only [noteStreak, hstep, Bool.and_false, Bool.false_and, Bool.false_eq_true, if_false]
        exact h
      · have hstep : world.breaker.beforeRequest limits now = (true, {}) := by
          rw [CircuitBreaker.beforeRequest, hopened]
          exact if_neg hrecent
        simp only [noteStreak, hstep, hopened, isSome_some, Bool.and_self, if_true]
        exact matches_empty
  | recordSuccess =>
    cases hanswer
    exact matches_empty
  | recordFailure =>
    cases hanswer
    exact matches_failure h
  | now =>
    rcases hanswer with ⟨_, rfl⟩
    exact h
  | _ =>
    cases hanswer
    exact h

theorem answers_calls
    (h : answers limits world r a after) : after.calls = world.calls := by
  cases r with
  | now => rw [h.2]
  | beforeRequest => rw [h.2]
  | recordSuccess => rw [h]
  | recordFailure => rw [h]
  | send _ => rw [h]
  | close _ => rw [h]
  | jitter => rw [h]
  | wallClock => rw [h]
  | sleep _ _ => rw [h]

theorem refusedAfter_append {i : ι}
    (hall : RefusedAfter true limits events)
    (hmatches : Matches limits world.breaker (streak true events))
    (hanswer : answers limits { world with clock := now } r a after) :
    RefusedAfter true limits (events ++ [⟨i, world, r, a, after⟩]) := by
  intro earlier j before admitted after' later heq last hlast hmany hrecent
  rcases eq_nil_or_concat later with rfl | ⟨later, e, rfl⟩
  · have hsplit := append_inj' heq rfl
    rcases hsplit with ⟨rfl, hsame⟩
    cases hsame
    rcases hanswer with ⟨rfl, rfl⟩
    exact refused_of_matches hmatches hlast hmany hrecent
  · rw [concat_eq_append, ← cons_append, ← append_assoc] at heq
    exact hall earlier j before admitted after' later (append_inj' heq rfl).1 last hlast hmany
      hrecent

end

end Events

/-- What holds all along: the places are the ledgers, which are sound, and the breaker counts
    the failures that count. -/
structure Tallied [DecidableEq ι] (limits : Limits) (events : List (CallEvent ι)) (world : World ι)
    (places : ι → Option (Call × Ledger)) : Prop where
  places : ∀ i, places i = (world.calls i).map fun call => (call, ledger call i events)
  begun : ∀ e ∈ events, world.calls e.worker ≠ none
  sound : ∀ i call, world.calls i = some call → Sound call (ledger call i events)
  breaker : Matches limits world.breaker (streak true events)
  refused : RefusedAfter true limits events

section Runs

variable [DecidableEq ι] {limits : Limits} {events : List (CallEvent ι)} {world world' : World ι}
  {places : ι → Option (Call × Ledger)} {i : ι}

theorem tallied_idle : Tallied limits [] (idle : World ι) fun _ => none := by
  refine ⟨fun _ => rfl, fun e he => absurd he not_mem_nil, fun i call hcall => ?_,
    matches_empty, ?_⟩
  · have hnone : (idle : World ι).calls i = none := rfl
    rw [hnone] at hcall
    cases hcall
  · intro earlier j before admitted after later heq
    exact absurd heq.symm (append_ne_nil_of_right_ne_nil _ (cons_ne_nil _ _))

theorem Tallied.begin (h : Tallied limits events world places) (hnone : world.calls i = none)
    (call : Call) :
    Tallied limits events { world with calls := Function.update world.calls i (some call) }
      (Function.update places i (some (call, {}))) := by
  have hunheard : ledger call i events = {} := by
    refine ledger_unheard call fun e he hworker => h.begun e he ?_
    rw [hworker]
    exact hnone
  refine ⟨fun j => ?_, fun e he => ?_, fun j call' hcall => ?_, h.breaker, h.refused⟩
  · by_cases hj : j = i
    · subst hj
      simp only [update_self, map_some, hunheard]
    · simp only [update_of_ne hj]
      exact h.places j
  · by_cases hj : e.worker = i
    · simp only [hj, update_self]
      exact nofun
    · simp only [update_of_ne hj]
      exact h.begun e he
  · by_cases hj : j = i
    · subst hj
      simp only [update_self, some.injEq] at hcall
      rw [← hcall, hunheard]
      exact ⟨Nat.zero_le _, fun _ => Nat.zero_le _, rfl⟩
    · simp only [update_of_ne hj] at hcall
      exact h.sound j call' hcall

theorem Tallied.answer (h : Tallied limits events world places) {r : Req} {a : Ans r}
    (hallowed : discipline.withIdle.allowed (places i) r) {now : ℚ}
    (hanswer : answers limits { world with clock := now } r a world') :
    Tallied limits (events ++ [⟨i, world, r, a, world'⟩]) world'
      (Function.update places i (discipline.withIdle.move (places i) r a)) := by
  rcases hallowed with ⟨⟨call, l⟩, hplace, hproper⟩
  have hcalls := answers_calls hanswer
  dsimp only at hcalls
  have hat := h.places i
  rw [hplace] at hat
  rcases map_eq_some_iff.mp hat.symm with ⟨call', hcall, hsame⟩
  cases hsame
  have hledger : ∀ j call, ledger call j (events ++ [⟨i, world, r, a, world'⟩]) =
      if i = j then (ledger call j events).note call r a else ledger call j events :=
    fun j call => ledger_append call j
  refine ⟨fun j => ?_, fun e he => ?_, fun j call' hcall' => ?_, ?_,
    refusedAfter_append h.refused h.breaker hanswer⟩
  · by_cases hj : j = i
    · subst hj
      rw [update_self, hplace, hcalls, hcall, map_some, hledger, if_pos rfl]
      rfl
    · rw [update_of_ne hj, h.places j, hcalls]
      congr 1
      funext call'
      rw [hledger, if_neg (Ne.symm hj)]
  · rw [hcalls]
    rcases mem_append.mp he with hold | hnew
    · exact h.begun e hold
    · rw [mem_singleton.mp hnew, hcall]
      exact nofun
  · rw [hcalls] at hcall'
    have hsound := h.sound j call' hcall'
    rw [hledger]
    split
    · next hj =>
        subst hj
        cases hcall.symm.trans hcall'
        exact hsound.note hproper
    · exact hsound
  · rw [streak_append]
    exact matches_answer h.breaker hanswer

/-- Along every interleaving of calls, each has sent at most as often as its policy allows, at
    most once if its method may not be sent again, never after its deadline and never after it
    was refused; when it has ended, every response that it did not return is closed and its
    outcome is recorded; and a breaker with too many failures that count refuses. -/
theorem calls_accounted (limits : Limits) {t : Team (World ι) ι Req Ans (Except CallError Response)}
    (hrun : (calls limits).Run idle events t) :
    (∀ i call, t.state.calls i = some call → Sound call (ledger call i events) ∧
      ∀ result, t.running i = some (.done result) → Accounted call (ledger call i events) result) ∧
    RefusedAfter true limits events := by
  have hinvariant := @System.Run.invariant _ _ _ _ _ _ _ _ discipline.withIdle
    (fun place result => ∃ l, place = some l ∧ Ends l result) (Tallied limits) _ _ tallied_idle
    ?_ ?_ _ _ hrun
  · rcases hinvariant with ⟨places, htallied, hfollows⟩
    refine ⟨fun i call hcall => ⟨htallied.sound i call hcall, fun result hdone => ?_⟩,
      htallied.refused⟩
    rcases hfollows i _ hdone with ⟨place, hplace, hends⟩
    have hat := htallied.places i
    rw [hplace, hcall] at hat
    cases hat
    exact hends
  · intro events world places i p world' htallied hstart
    rcases hstart with ⟨hnone, call, rfl, rfl⟩
    exact ⟨some (call, {}), Program.follows_withIdle (resilientStreamRequest_follows call),
      htallied.begin hnone call⟩
  · intro events world places i r a world' htallied hallowed hresp
    rcases hresp with ⟨now, _, hanswer⟩
    exact ⟨fun _ _ => trivial, htallied.answer hallowed hanswer⟩

end Runs

/-- A request that may not be sent again, and without a deadline. -/
def failingCall : Call where
  policy := { totalTimeoutS := none }
  method := "POST"

def World.begun [DecidableEq ι] : World ι :=
  { world with calls := Function.update world.calls i (some failingCall) }

def World.admitted : World ι :=
  { world with
    clock := now
    breaker := (world.breaker.beforeRequest limits now).2 }

/-- The world where its failure has been recorded. -/
def World.failed : World ι :=
  { world with breaker := world.breaker.recordFailure limits world.clock }

/-- What a call that is let through and fails at an instant is answered. -/
def failedEvents (world : World ι) (now : ℚ) : List (CallEvent ι) :=
  [⟨i, world, .beforeRequest, true, world.admitted limits now⟩,
    ⟨i, world.admitted limits now, .send none, .httpError, world.admitted limits now⟩,
    ⟨i, world.admitted limits now, .recordFailure, (), (world.admitted limits now).failed limits⟩]

theorem failed_run [DecidableEq ι] {limits : Limits} {events : List (CallEvent ι)}
    {t : Team (World ι) ι Req Ans (Except CallError Response)}
    (hrun : (calls limits).Run idle events t) (hnew : t.state.calls i = none)
    (hclock : t.state.clock ≤ now) (hletin : (t.state.breaker.beforeRequest limits now).1 = true) :
    ∃ running, (calls limits).Run idle (events ++ failedEvents limits i (t.state.begun i) now)
      ⟨((t.state.begun i).admitted limits now).failed limits, running⟩ := by
  have hbegun : (calls limits).start i t.state (resilientStreamRequest failingCall).run
      (t.state.begun i) := ⟨hnew, failingCall, rfl, rfl⟩
  have hadmitted : (calls limits).respond i (t.state.begun i) .beforeRequest true
      ((t.state.begun i).admitted limits now) := ⟨now, hclock, hletin.symm, rfl⟩
  have hsent : (calls limits).respond i ((t.state.begun i).admitted limits now) (.send none)
      .httpError ((t.state.begun i).admitted limits now) := ⟨now, le_refl _, rfl⟩
  have hrecorded : (calls limits).respond i ((t.state.begun i).admitted limits now) .recordFailure
      () (((t.state.begun i).admitted limits now).failed limits) := ⟨now, le_refl _, rfl⟩
  have hfailed := (((hrun.start hbegun).asked rfl hadmitted).asked rfl hsent).asked rfl hrecorded
  rw [append_assoc, append_assoc] at hfailed
  exact ⟨_, hfailed⟩

/-- Two failures open the breaker for five seconds. -/
def twoFailures : Limits where
  failureThreshold := 2
  resetAfterS := 5

/-- The world after a call that was let through at an instant has failed. -/
def World.after (world : World Nat) (i : Nat) (now : ℚ) : World Nat :=
  ((world.begun i).admitted twoFailures now).failed twoFailures

/-- Two calls that fail, and a third after the breaker has been open for long enough. -/
def threeFailures : List (CallEvent Nat) :=
  (failedEvents twoFailures 1 ((idle : World Nat).begun 1) 0
    ++ failedEvents twoFailures 2 (((idle : World Nat).after 1 0).begun 2) 0)
    ++ failedEvents twoFailures 3 ((((idle : World Nat).after 1 0).after 2 0).begun 3) 5

def afterThree : World Nat := (((idle : World Nat).after 1 0).after 2 0).after 3 5

theorem third_reopens :
    (((idle : World Nat).after 1 0).after 2 0).breaker.beforeRequest twoFailures 5 =
      (true, {}) := by
  have hlong : ¬ ((5 : ℚ) - 0 < 5) := by
    rw [sub_zero]
    exact lt_irrefl _
  exact if_neg hlong

theorem afterThree_breaker : afterThree.breaker = ⟨1, none⟩ :=
  congrArg (fun step : Bool × CircuitBreaker => step.2.recordFailure twoFailures 5) third_reopens

theorem threeFailures_run :
    ∃ running, (calls twoFailures).Run idle threeFailures ⟨afterThree, running⟩ := by
  have hidle : (calls twoFailures).Run (idle : World Nat) [] ⟨idle, fun _ => none⟩ := .idle
  rcases failed_run 1 0 hidle rfl (le_refl _) rfl with ⟨running, hrun⟩
  rcases failed_run 2 0 hrun rfl (le_refl _) rfl with ⟨running, hrun⟩
  rcases failed_run 3 5 hrun rfl (show (0 : ℚ) ≤ 5 by decide)
    (congrArg Prod.fst third_reopens) with ⟨running, hrun⟩
  exact ⟨running, hrun⟩

theorem calls_accounted_sample : RefusedAfter true twoFailures threeFailures := by
  rcases threeFailures_run with ⟨running, hrun⟩
  exact (calls_accounted twoFailures hrun).2

/-- The last two calls have failed, just now, and the next one is let through. -/
theorem reopened_admits :
    ¬ ∀ (events : List (CallEvent Nat)) t, (calls twoFailures).Run idle events t →
      RefusedAfter false twoFailures events := by
  intro hall
  rcases threeFailures_run with ⟨running, hrun⟩
  have hbegun : (calls twoFailures).start 4 afterThree (resilientStreamRequest failingCall).run
      (afterThree.begun 4) := ⟨rfl, failingCall, rfl, rfl⟩
  have hadmitted : (calls twoFailures).respond 4 (afterThree.begun 4) .beforeRequest true
      ((afterThree.begun 4).admitted twoFailures 5) := by
    refine ⟨5, le_refl _, ?_, rfl⟩
    exact (congrArg (fun b => (CircuitBreaker.beforeRequest twoFailures 5 b).1)
      afterThree_breaker).symm
  have hrecent : (5 : ℚ) - 5 < 5 := by
    rw [sub_self]
    decide
  have hrefused := hall _ _ ((hrun.start hbegun).asked rfl hadmitted) threeFailures 4 _ true _ []
    rfl 5 rfl (by decide) hrecent
  cases hrefused

end Apex.Adapters.HttpResilience
