import Apex.Adapters.ArtifactStore
import Apex.Core.Talk

/-!
# Exact Admission To The Object Store

What a call holds is told from its own answers: permits, an event and what it waits for,
events it is about to set, a job in flight, a response and a spool. The calls are walked
along once, and show that they give back exactly what they hold and end with nothing.

## Main definitions

* `Place`, `holds`: What a call holds, and how its answers change that.
* `Kept`: The books of a process.

## Theorems

* `call_follows`: A call gives back what it takes.
* `artifact_store_admitted`: What holds of every interleaving.
* `artifact_store_drained`: What is left once all calls have ended.
-/

namespace Apex.Adapters.ArtifactStore

open List Function Program Apex.Action

/-- The event it made, what it waits for since an attempt failed, the events it is still to set,
    and one whose loop was closed. -/
structure Wake where
  event : Option Nat := none
  waiting : Option (Gate × Nat) := none
  notifying : List Nat := []
  dead : Option Nat := none

/-- The job it waits for, and the response and the spool that are its own. -/
structure Work where
  flight : Option (Nat × Job) := none
  response : Option Nat := none
  spool : Option Nat := none

structure Place where
  permits : Gate → Nat := fun _ => 0
  wake : Wake := {}
  work : Work := {}

def Job.uses : Job → Option Nat
  | .write spool | .seek spool | .upload spool => spool
  | _ => none

/-- A job works only on what is its call's own. -/
def Job.Fits (job : Job) (response spool : Option Nat) : Prop :=
  match job with
  | .openObject => response = none
  | .read r => response = some r
  | .close r => response = r
  | job => job.uses = none ∨ job.uses = spool

/-- The response that is left to close after a job. -/
def Job.leaves (job : Job) (outcome : Except Raised job.Out) (response : Option Nat) :
    Option Nat :=
  match job with
  | .openObject => Job.opened .openObject outcome
  | .close _ => none
  | _ => response

/-- Only what is held is given back, and only what is owned is used. -/
def holds : Discipline Req Ans Place where
  allowed l
    | .newEvent => l.wake.event = none ∧ l.wake.waiting = none
    | .attempt gate _ event => l.wake.event = some event ∧ l.wake.waiting = none ∧
        l.permits gate = 0
    | .wait event => l.wake.event = some event ∧ l.wake.waiting.isSome = true
    | .clear event => l.wake.event = some event
    | .discard _ event => l.wake.event = some event ∨ l.wake.event = none ∧ l.wake.dead = some event
    | .tryTake gate => l.permits gate = 0
    | .give gate amount => l.permits gate = amount ∧ l.wake = {}
    | .notify event => ∃ rest, l.wake = { notifying := event :: rest }
    | .submit job => l.work.flight = none ∧ job.Fits l.work.response l.work.spool
    | .result future job => l.work.flight = some (future, job)
    | .openSpool => l.work.spool = none ∧ l.work.flight = none
    | .closeSpool spool => l.work.spool = some spool ∧ l.work.flight = none
    | _ => True
  possible _
    | .give _ _, outcome => ∃ waiters, outcome = .ok waiters
    | _, _ => True
  move l
    | .newEvent, event => { l with wake := { l.wake with event := some event } }
    | .attempt gate amount _, got =>
      if got then { l with
        permits := update l.permits gate amount
        wake := { l.wake with event := none } }
      else { l with wake := { l.wake with waiting := some (gate, amount) } }
    | .clear _, _ => { l with wake := { l.wake with waiting := none } }
    | .discard _ _, _ =>
      { l with wake := { l.wake with event := none, waiting := none, dead := none } }
    | .tryTake gate, got => if got then { l with permits := update l.permits gate 1 } else l
    | .give gate _, .ok waiters =>
      { l with permits := update l.permits gate 0, wake := { l.wake with notifying := waiters } }
    | .notify event, told => { l with wake := { l.wake with
        notifying := l.wake.notifying.tail, dead := if told then none else some event } }
    | .submit job, future => { l with work := { l.work with flight := some (future, job) } }
    | .result _ job, outcome => { l with work := { l.work with
        flight := none, response := job.leaves outcome l.work.response } }
    | .openSpool, .ok spool => { l with work := { l.work with spool := some spool } }
    | .closeSpool _, _ => { l with work := { l.work with spool := none } }
    | _, _ => l

def calm (p : Gate → Nat) (response spool : Option Nat) : Place :=
  { permits := p, work := { response := response, spool := spool } }

section Walk

variable {p : Gate → Nat} {r sp : Option Nat} {patience : Nat} {gate : Gate} {amount : Nat}

theorem stall_follows {α : Type} {R : Place → Except Raised α → Prop} {l : Place} :
    (stall : Call α).run.follows holds R l := ask_bind_follows trivial fun a _ => a.elim

theorem attempts_follows {event : Nat} (hfree : p gate = 0) (patience : Nat) :
    (attempts gate amount event patience).run.follows holds
      (either (fun m _ => m = calm (update p gate amount) r sp)
        (fun m _ => ∃ waiting, m = { calm p r sp with
          wake := { event := some event, waiting := waiting } }))
      { calm p r sp with wake := { event := some event } } := by
  induction patience with
  | zero => exact stall_follows
  | succ patience ih =>
    refine ask_bind_follows ⟨rfl, rfl, hfree⟩ fun got _ => ?_
    cases got with
    | true => exact rfl
    | false =>
      refine ask_bind_follows ⟨rfl, rfl⟩ fun a _ => settle_bind_either (fun _ _ => ?_)
        fun e _ => ⟨_, rfl⟩
      exact ask_bind_follows rfl fun _ _ => ih

theorem acquire_follows (hfree : p gate = 0) :
    (acquire gate amount patience).run.follows holds
      (either (fun m _ => m = calm (update p gate amount) r sp) (fun m _ => m = calm p r sp))
      (calm p r sp) := by
  refine ask_bind_follows ⟨rfl, rfl⟩ fun event _ => tryCatch_either (attempts_follows hfree _) ?_
  rintro m e ⟨waiting, rfl⟩
  exact ask_bind_follows (.inl rfl) fun _ _ => rfl

theorem notifyAll_follows (gate : Gate) : ∀ waiters : List Nat,
    (notifyAll gate waiters).run.follows holds
      (either (fun m _ => m = calm p r sp) (fun _ _ => False))
      { calm p r sp with wake := { notifying := waiters } }
  | [] => rfl
  | event :: rest => by
    refine ask_bind_follows ⟨rest, rfl⟩ fun told _ => ?_
    cases told with
    | true => exact notifyAll_follows gate rest
    | false => exact ask_bind_follows (.inr ⟨rfl, rfl⟩) fun _ _ => notifyAll_follows gate rest

theorem release_follows (hheld : p gate = amount) :
    (release gate amount).run.follows holds
      (either (fun m _ => m = calm (update p gate 0) r sp) (fun _ _ => False)) (calm p r sp) := by
  refine ask_bind_follows ⟨hheld, rfl⟩ fun outcome houtcome => ?_
  rcases houtcome with ⟨waiters, rfl⟩
  exact notifyAll_follows gate waiters

/-- What a body leaves held, a gate gives back in the end. -/
theorem releasing_follows {α : Type} {x : Call α} {R : Place → Except Raised α → Prop}
    (hfree : p gate = 0)
    (h : x.run.follows holds (fun m outcome => ∃ r sp, m = calm (update p gate amount) r sp ∧
      R (calm p r sp) outcome) (calm (update p gate amount) r sp)) :
    (ensuring x (release gate amount)).run.follows holds R (calm (update p gate amount) r sp) := by
  refine ensuring_follows (follows_mono h ?_)
  rintro m outcome ⟨r, sp, rfl, hR⟩
  refine mono_either (release_follows (update_self ..)) (fun m _ hm => ?_) fun _ _ => False.elim
  have hback : update (update p gate amount) gate 0 = p := by
    rw [update_idem, ← hfree, update_eq_self]
  rw [hm, hback]
  exact hR

theorem await_follows {f : Nat} {job : Job} (patience : Nat) (cancelled : Bool) :
    (awaitWorkerDefinitively f job patience cancelled).run.follows holds
      (either (fun m x => m = calm p (job.leaves x.1 r) sp) (fun _ _ => False))
      { calm p r sp with work := { flight := some (f, job), response := r, spool := sp } } := by
  induction patience generalizing cancelled with
  | zero => exact stall_follows
  | succ patience ih =>
    refine ask_bind_follows trivial fun done _ => ?_
    cases done with
    | true => exact ask_bind_follows rfl fun outcome _ => rfl
    | false =>
      refine ask_bind_follows trivial fun outcome _ => ?_
      match outcome with
      | .ok _ => exact ih cancelled
      | .error .cancelled => exact ih true
      | .error (.s3 _) | .error .valueError | .error .keyError | .error .runtimeError
      | .error .busy | .error (.other _) => exact ask_bind_follows rfl fun outcome _ => rfl

theorem settleWorker_follows {α : Type} {l : Place} {outcome : Except Raised α} {cancelled : Bool}
    {R : Place → Except Raised α → Prop} (h : R l outcome) (hcancelled : R l (.error .cancelled)) :
    (settleWorker outcome cancelled : Call α).run.follows holds R l := by
  cases cancelled with
  | true => exact hcancelled
  | false => cases outcome <;> exact h

/-- A call that holds what it held before, however it ends. -/
def keeps {α : Type} (l : Place) : Place → Except Raised α → Prop := fun m _ => m = l

/-- A job that opens and closes nothing. -/
theorem sdkWorker_follows (job : Job) (hfree : p .sdk = 0) (hfits : job.Fits r sp)
    (hplain : ∀ outcome, job.leaves outcome r = r) :
    (runSdkWorker patience job).run.follows holds (keeps (calm p r sp)) (calm p r sp) := by
  refine follows_run_bind.mpr (follows_mono (acquire_follows hfree) fun m outcome hm => ?_)
  rcases outcome with e | u
  · exact hm
  · rw [show m = _ from hm]
    refine releasing_follows hfree ?_
    refine ask_bind_follows ⟨rfl, hfits⟩ fun f _ => ?_
    refine follows_run_bind.mpr (follows_mono (await_follows _ _) fun m outcome hm => ?_)
    rcases outcome with e | ⟨outcome, cancelled⟩
    · exact hm.elim
    · have hend : m = calm (update p .sdk 1) r sp := hplain outcome ▸ hm
      exact settleWorker_follows ⟨r, sp, hend, rfl⟩ ⟨r, sp, hend, rfl⟩

theorem streamWorker_follows (job : Job) {left : Option Nat} (hfits : job.Fits r sp)
    (hleaves : ∀ outcome, job.leaves outcome r = left) :
    (runStreamWorker patience job none).run.follows holds (keeps (calm p left sp))
      (calm p r sp) := by
  refine ask_bind_follows ⟨rfl, hfits⟩ fun f _ => ?_
  refine follows_run_bind.mpr (follows_mono (await_follows _ _) fun m outcome hm => ?_)
  rcases outcome with e | ⟨outcome, cancelled⟩
  · exact hm.elim
  · have hend : m = calm p left sp := hleaves outcome ▸ hm
    cases outcome <;> exact settleWorker_follows hend hend

/-- A response that is opened for a cancelled call is closed. -/
theorem openObject_follows :
    (runStreamWorker patience .openObject (some Job.close)).run.follows holds
      (either (fun m v => m = calm p v sp) (fun m _ => m = calm p none sp)) (calm p none sp) := by
  refine ask_bind_follows ⟨rfl, rfl⟩ fun f _ => ?_
  refine follows_run_bind.mpr (follows_mono (await_follows _ _) fun m outcome hm => ?_)
  rcases outcome with e | ⟨outcome, cancelled⟩
  · exact hm.elim
  · rw [show m = _ from hm]
    match outcome, cancelled with
    | .error e, true => exact rfl
    | .error e, false => exact rfl
    | .ok v, false => exact rfl
    | .ok v, true =>
      refine ask_bind_follows ⟨rfl, rfl⟩ fun f _ => ?_
      refine follows_run_bind.mpr (follows_run_map.mpr ?_)
      refine follows_mono (await_follows _ _) fun m outcome hm => ?_
      rcases outcome with e | x
      · exact hm.elim
      · exact hm

theorem providerFailed_keeps {α : Type} {l : Place} {missing : String → Bool} {x : Call α}
    (hx : x.run.follows holds (keeps l) l) :
    (providerFailed missing x).run.follows holds (keeps l) l := by
  refine follows_run_tryCatch.mpr (follows_mono hx fun m outcome hm => ?_)
  cases outcome with
  | ok v => exact hm
  | error e => cases e <;> exact hm

/-- One part after another. -/
theorem bind_keeps {α β : Type} {l : Place} {x : Call α} {f : α → Call β}
    (hx : x.run.follows holds (keeps l) l) (hf : ∀ a, (f a).run.follows holds (keeps l) l) :
    (x >>= f).run.follows holds (keeps l) l := by
  refine follows_run_bind.mpr (follows_mono hx fun m outcome hm => ?_)
  rw [show m = l from hm]
  cases outcome with
  | ok a => exact hf a
  | error e => exact rfl

theorem ensureBucket_keeps (hfree : p .sdk = 0) :
    (ensureBucket patience).run.follows holds (keeps (calm p r sp)) (calm p r sp) := by
  refine ask_bind_follows trivial fun ensured _ => ?_
  cases ensured with
  | true => exact rfl
  | false => exact sdkWorker_follows .ensureBucket hfree (.inl rfl) fun _ => rfl

theorem copyChunks_keeps {spool : Nat} {maxBytes : Int} (hfree : p .sdk = 0) (rounds : Nat)
    (size : Int) : (copyChunks patience spool maxBytes rounds size).run.follows holds
      (keeps (calm p r (some spool))) (calm p r (some spool)) := by
  induction rounds generalizing size with
  | zero => exact stall_follows
  | succ rounds ih =>
    refine ask_bind_follows trivial fun a _ => settle_bind_either (fun chunk _ => ?_) fun _ _ => rfl
    cases chunk with
    | none => exact rfl
    | some length =>
      refine raiseWhen_bind_either (fun _ => ?_) fun _ => rfl
      exact bind_keeps (sdkWorker_follows (.write spool) hfree (.inr rfl) fun _ => rfl)
        fun _ => ih _

theorem readChunks_keeps {response : Nat} (rounds : Nat) :
    (readChunks patience response rounds).run.follows holds
      (keeps (calm p (some response) sp)) (calm p (some response) sp) := by
  induction rounds with
  | zero => exact stall_follows
  | succ rounds ih =>
    refine bind_keeps (streamWorker_follows (.read response) rfl fun _ => rfl) fun more => ?_
    cases more with
    | false => exact rfl
    | true =>
      exact ask_bind_follows trivial fun a _ => settle_bind_either (fun _ _ => ih) fun _ _ => rfl

/-- A call gives back what it takes, however it ends. -/
theorem call_follows (operation : Operation) :
    (operation.call patience).run.follows holds (keeps {}) {} := by
  have hbucket : (ensureBucket patience).run.follows holds (keeps {}) {} :=
    ensureBucket_keeps rfl
  have hsdk : ∀ (job : Job) (missing : String → Bool), job.Fits none none →
      (∀ outcome, job.leaves outcome none = none) →
      (do ensureBucket patience; providerFailed missing (runSdkWorker patience job)).run.follows
        holds (keeps {}) {} := fun job missing hfits hplain =>
    bind_keeps hbucket fun _ => providerFailed_keeps (sdkWorker_follows job rfl hfits hplain)
  cases operation with
  | put => exact hsdk .put _ (.inl rfl) fun _ => rfl
  | get => exact hsdk .get _ (.inl rfl) fun _ => rfl
  | delete => exact hsdk .delete _ (.inl rfl) fun _ => rfl
  | putStream maxBytes =>
    refine bind_keeps hbucket fun _ => raiseWhen_bind_either (fun _ => ?_) fun _ => rfl
    refine raiseWhen_bind_either (fun _ => ?_) fun _ => rfl
    refine follows_run_bind.mpr (follows_mono (acquire_follows rfl) fun m outcome hm => ?_)
    rcases outcome with e | u
    · exact hm
    · rw [show m = _ from hm]
      refine releasing_follows rfl ?_
      refine ask_bind_follows ⟨rfl, rfl⟩ fun opened _ => ?_
      rcases opened with e | spool
      · exact ⟨none, none, rfl, rfl⟩
      · refine ensuring_follows (follows_mono (bind_keeps (copyChunks_keeps rfl _ _) fun _ =>
          bind_keeps (sdkWorker_follows (.seek spool) rfl (.inr rfl) fun _ => rfl) fun _ =>
          providerFailed_keeps (sdkWorker_follows (.upload spool) rfl (.inr rfl) fun _ => rfl)) ?_)
        rintro m outcome rfl
        refine ask_bind_follows ⟨rfl, rfl⟩ fun closed _ => ?_
        rcases closed with e | u <;> exact ⟨none, none, rfl, rfl⟩
  | iterBytes chunkSize =>
    refine raiseWhen_bind_either (fun _ => ?_) fun _ => rfl
    refine ask_bind_follows rfl fun got _ => ?_
    cases got with
    | false => exact rfl
    | true =>
      refine releasing_follows rfl ?_
      let p : Gate → Nat := update (fun _ => 0) .stream 1
      have hopened (next : Option Nat → Call Unit) (hnone : next none = throw .runtimeError)
          (hsome : ∀ response, next (some response) = ensuring (readChunks patience response
            patience) (runStreamWorker patience (.close (some response)) none)) :
          (providerFailed (· == "NoSuchKey") (runStreamWorker patience .openObject
            (some Job.close)) >>= next).run.follows holds (keeps (calm p none none))
              (calm p none none) := by
        refine follows_run_bind.mpr (follows_run_tryCatch.mpr ?_)
        refine follows_mono openObject_follows fun m outcome hm => ?_
        rcases outcome with e | opened
        · rw [show m = _ from hm]
          cases e <;> exact rfl
        · rw [show m = _ from hm]
          change (next opened).run.follows holds _ _
          cases opened with
          | none => exact hnone ▸ rfl
          | some response =>
            rw [hsome]
            refine ensuring_follows (follows_mono (readChunks_keeps _) ?_)
            rintro m outcome rfl
            refine follows_mono (streamWorker_follows (.close (some response)) rfl
              fun _ => rfl) fun m closed hm => ?_
            rcases closed with e | u <;> exact hm
      refine follows_mono (?_ : Program.follows holds (keeps (calm p none none)) _ _)
        fun m outcome hm => ⟨none, none, hm, rfl⟩
      refine ask_bind_follows trivial fun ensured _ => ?_
      cases ensured with
      | true => exact hopened _ rfl fun _ => rfl
      | false =>
        exact bind_keeps (streamWorker_follows .ensureBucket (.inl rfl) fun _ => rfl)
          fun _ => hopened _ rfl fun _ => rfl

end Walk

section Waking

variable {ι : Type}

def Woken (wakes : ι → Wake) (s : Signals) (event : Nat) : Prop :=
  (s.signal event).flag = true ∨ 0 < (s.signal event).queued ∨ ∃ i, event ∈ (wakes i).notifying

/-- Whoever waits on a loop that is open is a waiter, and is woken if its request fits. -/
structure Wakes (wakes : ι → Wake) (available : Gate → Nat) (s : Signals) : Prop where
  events : Owned Wake.event wakes s.made
  dead : ∀ i e, (wakes i).dead = some e → (s.signal e).closed = true
  waits : ∀ i e gate amount, (wakes i).event = some e → (wakes i).waiting = some (gate, amount) →
    (s.signal e).closed = true ∨ e ∈ s.waiters gate ∧ (amount ≤ available gate → Woken wakes s e)

variable {wakes : ι → Wake} {available available' : Gate → Nat} {s s' : Signals}

theorem Wakes.turn (h : Wakes wakes available s) (ran : Nat → Nat) (closes : Nat → Bool) :
    Wakes wakes available (s.turn ran closes) := by
  have hclosed : ∀ e, (s.signal e).closed = true → ((s.turn ran closes).signal e).closed = true :=
    fun e he => Bool.or_eq_true_iff.mpr (.inl he)
  refine ⟨h.events, fun i e he => hclosed e (h.dead i e he), fun i e gate amount he hwaiting => ?_⟩
  refine (h.waits i e gate amount he hwaiting).imp (hclosed e) fun hopen =>
    ⟨hopen.1, fun hfits => ?_⟩
  rcases hopen.2 hfits with hflag | hqueued | hnotified
  · exact .inl (Bool.or_eq_true_iff.mpr (.inl hflag))
  · by_cases hran : ran e = 0
    · refine .inr (.inl (?_ : 0 < (s.signal e).queued - ran e))
      omega
    · have hrun := decide_eq_true (And.intro hqueued (Nat.pos_of_ne_zero hran))
      exact .inl (Bool.or_eq_true_iff.mpr (.inr hrun))
  · exact .inr (.inr hnotified)

theorem Wakes.fewer (h : Wakes wakes available s)
    (hless : ∀ gate, available' gate ≤ available gate) : Wakes wakes available' s :=
  ⟨h.events, h.dead, fun i e gate amount he hwaiting =>
    (h.waits i e gate amount he hwaiting).imp id fun hopen =>
      ⟨hopen.1, fun hfits => hopen.2 (hfits.trans (hless gate))⟩⟩

variable [DecidableEq ι] {i : ι} {w : Wake}

/-- One call takes a step, after which it does not wait for what fits. -/
theorem Wakes.step (h : Wakes wakes available s) (hmade : s.made ≤ s'.made)
    (hevent : ∀ e, w.event = some e → (wakes i).event = some e ∨ s.made ≤ e ∧ e < s'.made)
    (hclosed : ∀ e, (s.signal e).closed = true → (s'.signal e).closed = true)
    (hdead : ∀ e, w.dead = some e → (s'.signal e).closed = true)
    (hmine : ∀ e gate amount, w.event = some e → w.waiting = some (gate, amount) →
      e ∈ s'.waiters gate ∧ ¬amount ≤ available' gate)
    (hother : ∀ e gate amount, (wakes i).event ≠ some e → e ∈ s.waiters gate →
      (s'.signal e).closed = true ∨ e ∈ s'.waiters gate ∧
        ((amount ≤ available gate → Woken wakes s e) → amount ≤ available' gate →
          Woken (update wakes i w) s' e)) :
    Wakes (update wakes i w) available' s' := by
  refine ⟨h.events.moved hmade hevent, fun j e he => ?_, fun j e gate amount he hwaiting => ?_⟩
  · by_cases hj : j = i
    · rw [hj, update_self] at he
      exact hdead e he
    · rw [update_of_ne hj] at he
      exact hclosed e (h.dead j e he)
  · by_cases hj : j = i
    · rw [hj, update_self] at he hwaiting
      rcases hmine e gate amount he hwaiting with ⟨hmem, hfull⟩
      exact .inr ⟨hmem, fun hfits => absurd hfits hfull⟩
    · rw [update_of_ne hj] at he hwaiting
      rcases h.waits j e gate amount he hwaiting with hdead | ⟨hmem, hwoken⟩
      · exact .inl (hclosed e hdead)
      · exact (hother e gate amount (fun hi => hj (h.events.alone j i e he hi)) hmem).imp id
          fun hopen => ⟨hopen.1, hopen.2 hwoken⟩

theorem Woken.later {e : Nat} (h : Woken wakes s e)
    (hflag : (s.signal e).flag = true → (s'.signal e).flag = true)
    (hqueued : 0 < (s.signal e).queued → 0 < (s'.signal e).queued)
    (hnotified : e ∈ (wakes i).notifying → 0 < (s'.signal e).queued ∨ e ∈ w.notifying) :
    Woken (update wakes i w) s' e := by
  rcases h with h | h | ⟨j, h⟩
  · exact .inl (hflag h)
  · exact .inr (.inl (hqueued h))
  · by_cases hj : j = i
    · exact (hnotified (hj ▸ h)).elim (fun h => .inr (.inl h))
        fun h => .inr (.inr ⟨i, by rwa [update_self]⟩)
    · exact .inr (.inr ⟨j, by rwa [update_of_ne hj]⟩)

variable {event : Nat} {gate : Gate} {amount : Nat}

theorem Wakes.newEvent (h : Wakes wakes available s) (hwaiting : (wakes i).waiting = none) :
    Wakes (update wakes i { wakes i with event := some s.made }) available
      { s with made := s.made + 1 } := by
  refine h.step (Nat.le_succ _) (fun e he => ?_) (fun _ => id) (fun e => h.dead i e)
    (fun e gate amount _ hw => ?_) fun e gate amount _ hmem => .inr ⟨hmem, fun hw hfits =>
      (hw hfits).later id id .inr⟩
  · cases he
    exact .inr ⟨le_rfl, Nat.lt_succ_self _⟩
  · cases hwaiting.symm.trans hw

/-- An event is taken off the waiters of a gate, by its own call or since its loop is closed. -/
theorem Wakes.discard (h : Wakes wakes available s) {waiting : Option (Gate × Nat)}
    (hown : (wakes i).event = some event ∨ (s.signal event).closed = true) {dead : Option Nat}
    (hdead : ∀ e, dead = some e → (s.signal e).closed = true) :
    Wakes (update wakes i { wakes i with event := none, waiting := waiting, dead := dead })
      available (s.discard gate event) := by
  refine h.step le_rfl nofun (fun _ => id) hdead nofun fun e gate' amount hne hmem => ?_
  by_cases he : e = event
  · subst he
    exact .inl (hown.resolve_left hne)
  · refine .inr ⟨?_, fun hw hfits => (hw hfits).later id id .inr⟩
    rw [Signals.discard]
    dsimp only
    by_cases hgate : gate' = gate
    · rw [hgate, update_self]
      exact mem_filter.mpr ⟨hgate ▸ hmem, decide_eq_true he⟩
    · rwa [update_of_ne hgate]

theorem Wakes.add (h : Wakes wakes available s) (hevent : (wakes i).event = some event)
    (hfull : ¬amount ≤ available gate) :
    Wakes (update wakes i { wakes i with waiting := some (gate, amount) }) available
      (s.add gate event) := by
  refine h.step le_rfl (fun e he => .inl he) (fun _ => id) (fun e => h.dead i e)
    (fun e gate' amount' he hw => ?_) fun e gate' amount _ hmem => .inr ⟨?_,
      fun hw hfits => (hw hfits).later id id .inr⟩ <;> rw [Signals.add] <;> dsimp only
  · cases hw
    cases hevent.symm.trans he
    rw [update_self]
    exact ⟨mem_insert_self, hfull⟩
  · by_cases hgate : gate' = gate
    · rw [hgate, update_self]
      exact mem_insert_of_mem (hgate ▸ hmem)
    · rwa [update_of_ne hgate]

/-- What is set of one event closes no loop. -/
theorem closed_set {e queued : Nat} {flag : Bool} :
    ((s.set event ⟨flag, queued, (s.signal event).closed⟩).signal e).closed =
      (s.signal e).closed := by
  rw [Signals.set]
  dsimp only
  by_cases he : e = event
  · rw [he, update_self]
  · rw [update_of_ne he]

theorem Wakes.clear (h : Wakes wakes available s) (hevent : (wakes i).event = some event) :
    Wakes (update wakes i { wakes i with waiting := none }) available
      (s.set event { s.signal event with flag := false }) := by
  refine h.step le_rfl (fun e he => .inl he) (fun e he => closed_set.trans he)
    (fun e he => closed_set.trans (h.dead i e he)) (fun e gate amount _ hw => nomatch hw)
    fun e gate amount hne hmem => .inr ⟨hmem, fun hw hfits => ?_⟩
  have hsame : (s.set event { s.signal event with flag := false }).signal e = s.signal e :=
    update_of_ne (by rintro rfl; exact hne hevent) ..
  exact (hw hfits).later (by rw [hsame]; exact id) (by rw [hsame]; exact id) .inr

/-- Whoever waits for what is given back is about to be notified. -/
theorem Wakes.give (h : Wakes wakes available s) {waiters : List Nat} (hcalm : wakes i = {})
    (hperm : waiters.Perm (s.waiters gate))
    (hsame : ∀ gate', gate' ≠ gate → available' gate' = available gate') :
    Wakes (update wakes i { wakes i with notifying := waiters }) available' s := by
  rw [hcalm]
  refine h.step le_rfl nofun (fun _ => id) nofun nofun fun e gate' amount _ hmem =>
    .inr ⟨hmem, fun hw hfits => ?_⟩
  by_cases hgate : gate' = gate
  · refine .inr (.inr ⟨i, ?_⟩)
    rw [update_self]
    exact hperm.mem_iff.mpr (hgate ▸ hmem)
  · exact (hw (hsame gate' hgate ▸ hfits)).later id id fun hn => by rw [hcalm] at hn; cases hn

theorem Wakes.notify (h : Wakes wakes available s) {rest : List Nat}
    (hnext : wakes i = { notifying := event :: rest }) {told : Bool}
    (htold : told = !(s.signal event).closed) :
    Wakes (update wakes i { notifying := rest, dead := if told then none else some event })
      available (s.set event { s.signal event with
        queued := (s.signal event).queued + told.toNat }) := by
  refine h.step le_rfl nofun (fun e he => closed_set.trans he) (fun e he => ?_) nofun
    fun e gate amount _ hmem => ?_
  · cases told with
    | true => cases he
    | false =>
      cases he
      exact closed_set.trans ((Bool.not_eq_false' _).mp htold.symm)
  · by_cases he : e = event
    · cases told with
      | true =>
        refine .inr ⟨hmem, fun _ _ => .inr (.inl ?_)⟩
        rw [Signals.set, he]
        dsimp only
        rw [update_self]
        exact Nat.succ_pos _
      | false => exact .inl (closed_set.trans (he ▸ (Bool.not_eq_false' _).mp htold.symm))
    · have hsame : (s.set event { s.signal event with
          queued := (s.signal event).queued + told.toNat }).signal e = s.signal e :=
        update_of_ne he ..
      refine .inr ⟨hmem, fun hw hfits => (hw hfits).later (by rw [hsame]; exact id)
        (by rw [hsame]; exact id) fun hn => .inr ?_⟩
      rw [hnext] at hn
      exact (mem_cons.mp hn).resolve_left he

end Waking

section Jobs

variable {ι : Type}

/-- Every call waits for its own job, which fits what is its own, and nobody leaves a job before
    it has ended. -/
structure Flights (works : ι → Work) (job : Nat → Job) (submitted : Nat)
    (finished : Nat → Bool) : Prop where
  own : ∀ i f j, (works i).flight = some (f, j) → f < submitted ∧ job f = j ∧
    j.Fits (works i).response (works i).spool
  running : ∀ f, f < submitted → finished f = false → ∃ i, (works i).flight = some (f, job f)

variable {works : ι → Work} {job : Nat → Job} {submitted : Nat} {finished : Nat → Bool}

theorem Flights.turn (h : Flights works job submitted finished) {later : Nat → Bool}
    (hlater : ∀ f, finished f = true → later f = true) : Flights works job submitted later :=
  ⟨h.own, fun f hf hl => h.running f hf <| Bool.eq_false_iff.mpr fun hc =>
    Bool.false_ne_true (hl.symm.trans (hlater f hc))⟩

variable [DecidableEq ι] {i : ι} {w : Work}

theorem Flights.submit (h : Flights works job submitted finished) (j : Job)
    (hnone : (works i).flight = none) (hfits : j.Fits (works i).response (works i).spool) :
    Flights (update works i { works i with flight := some (submitted, j) })
      (update job submitted j) (submitted + 1) finished := by
  have hsame : ∀ f, f < submitted → update job submitted j f = job f :=
    fun f hf => update_of_ne (Nat.ne_of_lt hf) ..
  refine ⟨fun k f j' hk => ?_, fun f hf hl => ?_⟩
  · by_cases hki : k = i
    · rw [hki, update_self] at hk ⊢
      cases hk
      exact ⟨Nat.lt_succ_self _, update_self .., hfits⟩
    · rw [update_of_ne hki] at hk ⊢
      rcases h.own k f j' hk with ⟨hold, hjob, hrest⟩
      exact ⟨Nat.lt_succ_of_lt hold, (hsame f hold).trans hjob, hrest⟩
  · rcases Nat.lt_succ_iff_lt_or_eq.mp hf with hold | rfl
    · rcases h.running f hold hl with ⟨k, hk⟩
      have hki : k ≠ i := by rintro rfl; cases hnone.symm.trans hk
      exact ⟨k, by rwa [update_of_ne hki, hsame f hold]⟩
    · exact ⟨i, by rw [update_self, update_self]⟩

/-- A call that waits for nothing, or for a job that has ended, changes what is its own. -/
theorem Flights.leave (h : Flights works job submitted finished) (hnone : w.flight = none)
    (hended : ∀ f j, (works i).flight = some (f, j) → finished f = true) :
    Flights (update works i w) job submitted finished := by
  refine ⟨fun k f j hk => ?_, fun f hf hl => ?_⟩
  · by_cases hki : k = i
    · rw [hki, update_self, hnone] at hk
      cases hk
    · rw [update_of_ne hki] at hk ⊢
      exact h.own k f j hk
  · rcases h.running f hf hl with ⟨k, hk⟩
    have hki : k ≠ i := by rintro rfl; cases hl.symm.trans (hended f _ hk)
    exact ⟨k, by rwa [update_of_ne hki]⟩

end Jobs

section Books

variable {ι : Type}

/-- The free permits and those that are held, who wakes whom, the jobs, and that a response is
    either owned or was closed once. -/
structure Kept (places : ι → Place) (w : World ι) : Prop where
  permits : ∀ gate, Total (fun i => (places i).permits gate) (gate.limit - w.available gate)
  wakes : Wakes (Place.wake ∘ places) w.available w.signals
  flights : Flights (Place.work ∘ places) w.workers.job w.workers.submitted w.workers.finished
  responses : ∀ r, Total (fun i => if (places i).work.response = some r then 1 else 0)
    (((if r < w.workers.responses then 1 else 0 : Nat) : ℤ) - w.workers.closings r)
  spools : Owned (·.work.spool) places w.workers.spools
  uncalled : ∀ i, w.called i = false → places i = {}

variable {places : ι → Place} {w w' : World ι}

theorem Kept.initial : Kept (fun _ : ι => {}) {} where
  permits gate := by
    rw [show ((gate.limit : ℤ) - ({} : World ι).available gate) = 0 from Int.sub_self _]
    exact Total.zero fun _ => rfl
  wakes := ⟨⟨nofun, nofun⟩, nofun, nofun⟩
  flights := ⟨nofun, nofun⟩
  responses _ := Total.zero fun _ => rfl
  spools := ⟨nofun, nofun⟩
  uncalled _ _ := rfl

theorem Kept.turn (h : Kept places w) (ran : Nat → Nat) (closes ends : Nat → Bool) :
    Kept places { w with
      signals := w.signals.turn ran closes
      workers := w.workers.turn ends } :=
  ⟨h.permits, h.wakes.turn ran closes, h.flights.turn fun _ hf => Bool.or_eq_true_iff.mpr (.inl hf),
    h.responses, h.spools, h.uncalled⟩

variable {i : ι}

/-- Giving back what is held never raises. -/
theorem Kept.give_eq (h : Kept places w) {gate : Gate} {amount : Nat}
    (hheld : (places i).permits gate = amount) :
    w.give gate amount = (none, w.setAvailable gate (w.available gate + amount)) := by
  have hroom := (h.permits gate).share_le i
  refine if_neg (Nat.not_lt.mpr ?_)
  rw [World.setAvailable]
  dsimp only
  rw [update_self]
  omega

variable [DecidableEq ι] {l : Place}

/-- A step of a call that owns what it owned. -/
theorem Kept.waking {available : Gate → Nat} {signals : Signals} (h : Kept places w)
    (hcalled : w.called i = true) (hwork : l.work = (places i).work)
    (hpermits : ∀ gate,
      available gate + l.permits gate = w.available gate + (places i).permits gate)
    (hwakes : Wakes (update (Place.wake ∘ places) i l.wake) available signals) :
    Kept (update places i l) { w with available := available, signals := signals } := by
  refine ⟨fun gate => (h.permits gate).moved (w := fun l : Place => l.permits gate) ?_, ?_, ?_,
    fun r => (h.responses r).moved
      (w := fun l : Place => if l.work.response = some r then 1 else 0) ?_,
    h.spools.moved le_rfl fun n hn => .inl (hwork ▸ hn), fun j hj => ?_⟩
  · have hgate := hpermits gate
    dsimp only
    omega
  · rwa [comp_update]
  · rw [comp_update, hwork]
    exact (update_eq_self (f := Place.work ∘ places) i).symm ▸ h.flights
  · rw [hwork]
    exact (Int.sub_add_cancel ..).symm
  · have hji : j ≠ i := by rintro rfl; cases hcalled.symm.trans hj
    rw [update_of_ne hji]
    exact h.uncalled j hj

/-- A step of a call that holds and waits for what it did. -/
theorem Kept.working {workers : Workers} (h : Kept places w) (hcalled : w.called i = true)
    {work : Work}
    (hflights : Flights (update (Place.work ∘ places) i work) workers.job workers.submitted
      workers.finished)
    (hresponses : ∀ r, ((if r < workers.responses then 1 else 0 : Nat) : ℤ) - workers.closings r =
      ((if r < w.workers.responses then 1 else 0 : Nat) : ℤ) - w.workers.closings r -
        (if (places i).work.response = some r then 1 else 0 : Nat) +
        (if work.response = some r then 1 else 0 : Nat))
    (hspools : Owned (·.work.spool) (update places i { places i with work := work })
      workers.spools) :
    Kept (update places i { places i with work := work }) { w with workers := workers } := by
  refine ⟨fun gate => (h.permits gate).moved (w := fun l : Place => l.permits gate)
    (Int.sub_add_cancel ..).symm, ?_, ?_, fun r => (h.responses r).moved
      (w := fun l : Place => if l.work.response = some r then 1 else 0) (hresponses r), hspools,
    fun j hj => ?_⟩
  · rw [comp_update]
    exact (update_eq_self (f := Place.wake ∘ places) i).symm ▸ h.wakes
  · rwa [comp_update]
  · have hji : j ≠ i := by rintro rfl; cases hcalled.symm.trans hj
    rw [update_of_ne hji]
    exact h.uncalled j hj

theorem permits_update {available permits : Gate → Nat} {gate : Gate} {n m : Nat}
    (h : n + m = available gate + permits gate) (g : Gate) :
    update available gate n g + update permits gate m g = available g + permits g := by
  by_cases hg : g = gate
  · rw [hg, update_self, update_self, h]
  · rw [update_of_ne hg, update_of_ne hg]

/-- One response may be opened or one closed. -/
theorem count_after (responses closings r : Nat) (opened closed : Option Nat)
    (hopened : ∀ r', opened = some r' → r' = responses) :
    ((if r < responses + opened.toList.length then 1 else 0 : Nat) : ℤ) -
        (closings + if closed = some r then 1 else 0 : Nat) =
      ((if r < responses then 1 else 0 : Nat) : ℤ) - closings -
        (if closed = some r then 1 else 0 : Nat) + (if opened = some r then 1 else 0 : Nat) := by
  cases opened with
  | none =>
    rw [if_neg (show ¬none = some r from nofun), Option.toList_none, length_nil, Nat.add_zero]
    omega
  | some r' =>
    cases hopened r' rfl
    rw [Option.toList_some, length_singleton]
    have hnext : (if r < responses + 1 then 1 else 0) =
        (if r < responses then 1 else 0) + if some responses = some r then 1 else 0 := by
      rw [ite_congr (propext Option.some_inj) (fun _ => rfl) fun _ => rfl]
      split_ifs <;> omega
    omega

/-- What a job did is retrieved. -/
theorem Kept.result (h : Kept places w) (hcalled : w.called i = true) {f : Nat} {job : Job}
    {outcome : Except Raised job.Out} (hflight : (places i).work.flight = some (f, job))
    (hended : w.workers.finished f = true)
    (hopened : ∀ r, job.opened outcome = some r → r = w.workers.responses) :
    Kept (update places i { places i with work := { (places i).work with
        flight := none, response := job.leaves outcome (places i).work.response } })
      { w with workers := w.workers.after job outcome } := by
  have hfits := (h.flights.own i f job hflight).2.2
  change job.Fits (places i).work.response (places i).work.spool at hfits
  refine h.working hcalled (h.flights.leave rfl fun f' j hf => ?_) (fun r => ?_)
    (h.spools.moved le_rfl fun _ => .inl)
  · cases hflight.symm.trans hf
    exact hended
  · cases job with
    | openObject =>
      rw [show (places i).work.response = none from hfits]
      exact count_after _ _ r _ none hopened
    | close closed =>
      rw [show (places i).work.response = closed from hfits]
      exact count_after _ _ r none closed nofun
    | _ => exact (Int.sub_add_cancel ..).symm

theorem Kept.answer {r : Req} {a : Ans r} (h : Kept places w) (hcalled : w.called i = true)
    (hallowed : holds.allowed (places i) r) (hanswer : answers w w' r a) :
    holds.possible (places i) r a ∧ Kept (update places i (holds.move (places i) r a)) w' := by
  -- An answer that changes neither what is held nor the process.
  have hnothing : w' = w → Kept (update places i (places i)) w' := by
    rintro rfl
    rwa [update_eq_self]
  have hidle : (places i).work.flight = none → ∀ spool, Flights (update (Place.work ∘ places) i
      { (places i).work with spool := spool }) w.workers.job w.workers.submitted
      w.workers.finished := fun hnone spool => h.flights.leave hnone fun f j hf => by
    cases hnone.symm.trans hf
  cases r with
  | newEvent =>
    rcases hanswer with ⟨rfl, rfl⟩
    exact ⟨trivial, h.waking hcalled rfl (fun _ => rfl) (h.wakes.newEvent hallowed.2)⟩
  | attempt gate amount event =>
    rcases hallowed with ⟨hevent, hwaiting, hfree⟩
    have hanswer : (a, w') = w.attempt gate amount event := hanswer
    unfold World.attempt at hanswer
    refine ⟨trivial, ?_⟩
    split at hanswer
    · next hfits =>
        cases hanswer
        exact h.waking hcalled rfl (permits_update (by omega)) ((h.wakes.discard (.inl hevent)
          (h.wakes.dead i)).fewer fun g => update_le_iff.mpr ⟨Nat.sub_le .., fun _ _ => le_rfl⟩ g)
    · next hfull =>
        cases hanswer
        exact h.waking hcalled rfl (fun _ => rfl) (h.wakes.add hevent hfull)
  | clear event =>
    have hevent : (places i).wake.event = some event := hallowed
    rw [show w' = _ from hanswer]
    exact ⟨trivial, h.waking hcalled rfl (fun _ => rfl) (h.wakes.clear hevent)⟩
  | discard gate event =>
    rw [show w' = _ from hanswer]
    refine ⟨trivial, h.waking hcalled rfl (fun _ => rfl) (h.wakes.discard ?_ nofun)⟩
    exact hallowed.imp id fun hdead => h.wakes.dead i event hdead.2
  | tryTake gate =>
    have hfree : (places i).permits gate = 0 := hallowed
    have hanswer : (a, w') = w.tryTake gate := hanswer
    unfold World.tryTake at hanswer
    refine ⟨trivial, ?_⟩
    split at hanswer
    · cases hanswer
      exact hnothing rfl
    · cases hanswer
      refine h.waking hcalled rfl (permits_update (by omega)) ?_
      exact (update_eq_self (f := Place.wake ∘ places) i).symm ▸ h.wakes.fewer fun g =>
        update_le_iff.mpr ⟨Nat.sub_le .., fun _ _ => le_rfl⟩ g
  | give gate amount =>
    rcases hallowed with ⟨hheld, hcalm⟩
    have hgive := h.give_eq hheld
    cases a with
    | error e =>
      have hanswer : (some e, w') = w.give gate amount := hanswer
      cases hanswer.trans hgive
    | ok waiters =>
      rcases hanswer with ⟨hanswer, hperm⟩
      cases hanswer.trans hgive
      exact ⟨⟨waiters, rfl⟩, h.waking hcalled rfl (permits_update (by omega))
        (h.wakes.give hcalm hperm fun g hg => update_of_ne hg ..)⟩
  | notify event =>
    rcases hallowed with ⟨rest, hnext⟩
    rcases hanswer with ⟨htold, rfl⟩
    refine ⟨trivial, h.waking hcalled rfl (fun _ => rfl) ?_⟩
    have hwakes := h.wakes.notify hnext htold
    dsimp only [holds]
    rw [hnext]
    exact hwakes
  | submit job =>
    rcases hanswer with ⟨rfl, rfl⟩
    exact ⟨trivial, h.working hcalled (h.flights.submit job hallowed.1 hallowed.2)
      (fun r => (Int.sub_add_cancel ..).symm) (h.spools.moved le_rfl fun _ => .inl)⟩
  | result f job =>
    rcases hanswer with ⟨hended, hopened, rfl⟩
    exact ⟨trivial, h.result hcalled hallowed hended hopened⟩
  | openSpool =>
    rcases a with e | spool
    · exact ⟨trivial, hnothing hanswer⟩
    · rcases hanswer with ⟨rfl, rfl⟩
      refine ⟨trivial, h.working hcalled (hidle hallowed.2 _)
        (fun r => (Int.sub_add_cancel ..).symm)
        (h.spools.moved (Nat.le_succ _) fun n hn => .inr ?_)⟩
      cases hn
      exact ⟨le_rfl, Nat.lt_succ_self _⟩
  | closeSpool spool =>
    rw [show w' = w from hanswer]
    exact ⟨trivial, h.working hcalled (hidle hallowed.2 _) (fun r => (Int.sub_add_cancel ..).symm)
      (h.spools.moved le_rfl nofun)⟩
  | stall => exact a.elim
  | wait event =>
    rcases a with e | u
    · exact ⟨trivial, hnothing hanswer⟩
    · exact ⟨trivial, hnothing hanswer.2⟩
  | isDone f | shield f => exact ⟨trivial, hnothing hanswer.2⟩
  | _ => exact ⟨trivial, hnothing hanswer⟩

end Books

/-- A response is read and closed while it is the one that was opened and not closed yet. -/
def reads : Discipline SdkReq SdkAns (Option Nat) where
  allowed l
    | .getObject | .releaseConn _ => l = none
    | .read response | .close response => l = some response
  possible _ _ _ := True
  move l
    | .getObject, .ok response => some response
    | .close _, _ => none
    | _, _ => l

theorem readAll_follows {response limit : Nat} (rounds length : Nat) :
    (readAll response limit rounds length).run.follows reads (fun l _ => l = some response)
      (some response) := by
  induction rounds generalizing length with
  | zero => exact rfl
  | succ rounds ih =>
    refine raiseWhen_bind_either (fun _ => ?_) fun _ => rfl
    refine ask_bind_follows rfl fun a _ => settle_bind_either (fun n _ => ?_) fun _ _ => rfl
    match n with
    | none | some 0 => exact rfl
    | some (n + 1) => exact raiseWhen_bind_either (fun _ => ih _) fun _ => rfl

theorem getDirect_follows : getDirect.run.follows reads (fun l _ => l = none) none := by
  refine ask_bind_follows rfl fun a _ => ?_
  rcases a with e | response
  · exact rfl
  · refine ensuring_follows (follows_mono (readAll_follows _ _) ?_)
    rintro l outcome rfl
    refine ask_bind_follows rfl fun a _ => settle_bind_either (fun _ _ => ?_) fun _ _ => rfl
    exact ask_bind_follows rfl fun a _ => settle_either (fun _ _ => rfl) fun _ _ => rfl

section Runs

variable {ι : Type} [DecidableEq ι] {events : List (System.Event (World ι) ι Req Ans)}
  {t : Team (World ι) ι Req Ans (Except Raised Unit)} {w : World ι}

/-- What a call has taken in a run and not given back. -/
abbrev held (events : List (System.Event (World ι) ι Req Ans)) : ι → Place :=
  holds.place {} events

theorem run_kept (hrun : system.Run {} events t) :
    Kept (held events) t.state ∧ ∀ i p, t.running i = some p →
      p.follows holds (keeps {}) (held events i) := by
  refine hrun.holding (fun events w => Kept (held events) w) Kept.initial
    (fun {events w i p w'} h hstart => ?_) (fun {events w i r a w'} h hallowed hresp => ?_)
  · rcases hstart with ⟨hnew, rfl, patience, operation, rfl⟩
    have hplace : holds.place {} events i = {} := h.uncalled i hnew
    refine ⟨by rw [hplace]; exact call_follows operation, h.permits, h.wakes, h.flights,
      h.responses, h.spools, fun j hj => h.uncalled j ?_⟩
    by_cases hji : j = i
    · rw [hji, hnew]
    · exact (update_of_ne hji ..).symm.trans hj
  · rcases hresp with ⟨hcalled, ran, closes, ends, hanswer⟩
    rcases (h.turn ran closes ends).answer hcalled hallowed hanswer with ⟨hpossible, hnext⟩
    refine ⟨hpossible, ?_⟩
    rw [held, Discipline.place_append]
    exact hnext

/-- A job that was submitted and has not ended. -/
def Runs (w : World ι) (f : Nat) (job : Job) : Prop :=
  f < w.workers.submitted ∧ w.workers.finished f = false ∧ w.workers.job f = job

/-- What is free of a gate and what calls hold are its limit. A call that has ended, in whatever
    way, holds nothing; it gives back what it took, and that does not raise. Who waits on a loop
    that is open is a waiter, and where its request fits its event is set, or is to be set by a
    callback or by a call that is releasing. A response was closed once or is one call's own,
    and is not closed while it is read; a spool that a worker uses is not closed. -/
theorem artifact_store_admitted (hrun : system.Run {} events t) :
    (∀ gate, Total (fun i => (held events i).permits gate)
      (gate.limit - t.state.available gate)) ∧
    (∀ i outcome, t.running i = some (.done outcome) → held events i = {}) ∧
    (∀ i gate amount next, t.running i = some (.ask (.give gate amount) next) →
      (held events i).permits gate = amount ∧ (t.state.give gate amount).1 = none) ∧
    (∀ i event next, t.running i = some (.ask (.wait event) next) →
      ∃ gate amount, (held events i).wake.waiting = some (gate, amount) ∧
        ((t.state.signals.signal event).closed = true ∨
          event ∈ t.state.signals.waiters gate ∧
            (amount ≤ t.state.available gate →
              Woken (Place.wake ∘ held events) t.state.signals event))) ∧
    (∀ r, t.state.workers.closings r + {i | (held events i).work.response = some r}.ncard =
      if r < t.state.workers.responses then 1 else 0) ∧
    (∀ f f' r, Runs t.state f (.read r) → ¬Runs t.state f' (.close (some r))) ∧
    (∀ f job spool, Runs t.state f job → job.uses = some spool →
      (∃ i, (held events i).work.spool = some spool) ∧
        ∀ i next, t.running i ≠ some (.ask (.closeSpool spool) next)) ∧
    getDirect.run.follows reads (fun l _ => l = none) none := by
  rcases run_kept hrun with ⟨h, hfollows⟩
  have hruns : ∀ {f job}, Runs t.state f job → ∃ i, (held events i).work.flight = some (f, job) ∧
      job.Fits (held events i).work.response (held events i).work.spool := by
    rintro f job ⟨hf, hl, rfl⟩
    rcases h.flights.running f hf hl with ⟨i, hi⟩
    exact ⟨i, hi, (h.flights.own i f _ hi).2.2⟩
  refine ⟨h.permits, fun i outcome hi => hfollows _ _ hi, fun i gate amount next hi => ?_,
    fun i event next hi => ?_, fun r => ?_, fun f f' r hread hclose => ?_,
    fun f job spool hjob huses => ?_, getDirect_follows⟩
  · have hheld := (hfollows _ _ hi).1.1
    exact ⟨hheld, congrArg (·.1) (h.give_eq hheld)⟩
  · rcases (hfollows _ _ hi).1 with ⟨hevent, hwaiting⟩
    rcases Option.isSome_iff_exists.mp hwaiting with ⟨⟨gate, amount⟩, hwaiting⟩
    exact ⟨gate, amount, hwaiting, h.wakes.waits i event gate amount hevent hwaiting⟩
  · have hcount := (h.responses r).eq_ncard
    omega
  · rcases hruns hread with ⟨i, hi, hiown⟩
    rcases hruns hclose with ⟨j, hj, hjown⟩
    cases (h.responses r).unique (by split <;> omega) hiown hjown
    cases hi.symm.trans hj
  · rcases hruns hjob with ⟨i, hi, hfits⟩
    have hspool : (held events i).work.spool = some spool := by
      cases job with
      | write _ | seek _ | upload _ => exact (Or.resolve_left hfits nofun).symm.trans huses
      | _ => cases huses
    refine ⟨⟨i, hspool⟩, fun j next hj => ?_⟩
    rcases (hfollows _ _ hj).1 with ⟨hclosed, hidle⟩
    cases h.spools.alone i j spool hspool hclosed
    cases hidle.symm.trans hi

/-- One call has reserved the whole budget, and another waits for a byte. -/
theorem artifact_store_admitted_two : ∃ events, ∃ t : Team (World Bool) Bool Req Ans _,
    system.Run {} events t ∧ t.state.available .spool = 0 ∧
      (∃ next, t.running true = some (.ask (.wait 1) next)) ∧
      Total (fun i => (held events i).permits .spool)
        (Gate.spool.limit - t.state.available .spool) := by
  let quiet : Nat → Bool := fun _ => false
  let none : Nat → Nat := fun _ => 0
  have hidle : (system (ι := Bool)).Run {} [] _ := .idle
  rcases hidle.begun (i := false) ⟨rfl, rfl, 1, .putStream 1073741824, rfl⟩
      (show Program.converses _ [⟨.bucketEnsured, true⟩, ⟨.newEvent, 0⟩,
        ⟨.attempt .spool 1073741824 0, true⟩] _ from ⟨_, rfl, _, rfl, _, rfl, rfl⟩)
      ⟨_, ⟨rfl, none, quiet, quiet, rfl⟩, _, ⟨rfl, none, quiet, quiet, rfl, rfl⟩,
        _, ⟨rfl, none, quiet, quiet, rfl⟩, rfl⟩ with ⟨events, hfull⟩
  rcases hfull.begun (i := true) ⟨rfl, rfl, 1, .putStream 1, rfl⟩
      (show Program.converses _ [⟨.bucketEnsured, true⟩, ⟨.newEvent, 1⟩,
        ⟨.attempt .spool 1 1, false⟩] _ from ⟨_, rfl, _, rfl, _, rfl, rfl⟩)
      ⟨_, ⟨rfl, none, quiet, quiet, rfl⟩, _, ⟨rfl, none, quiet, quiet, rfl, rfl⟩,
        _, ⟨rfl, none, quiet, quiet, (if_neg (by decide)).symm⟩, rfl⟩ with ⟨later, hrun⟩
  exact ⟨_, _, hrun, by decide, ⟨_, rfl⟩, (artifact_store_admitted hrun).1 .spool⟩

end Runs

end Apex.Adapters.ArtifactStore
