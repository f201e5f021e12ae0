import Apex.Core.Holdings

/-!
# The Object Store's Admission

Calls of the object store take permits of a process and bytes of a spool budget, run
blocking SDK functions on worker threads, and give back what they took. Who does not get
a permit waits for an event of its own loop; whoever releases sets the events of all who
wait, through callbacks that their loops run later. A worker is waited for through every
cancellation of its caller.

A call is a coroutine, and what it does under a lock, or between two awaits, is one
request. Loops go round as often as there is patience, and then the call is never heard of
again. What a worker did is told where its outcome is retrieved, which only its caller does.

## Main definitions

* `Gate`, `World`: The admissions and the budget, events, workers and responses.
* `acquire`, `release`: Waiting for permits, and waking who waits.
* `runSdkWorker`, `runStreamWorker`: Running a worker to its end.
* `put`, `putStream`, `get`, `delete`, `iterBytes`: The calls.
* `getDirect`: What the worker of `get` does.
-/

namespace Apex.Adapters.ArtifactStore

open Function

inductive Raised where
  | cancelled
  | s3 (code : String)
  | valueError
  | keyError
  | runtimeError
  | busy
  | other (text : String)
  deriving DecidableEq, Repr

/-- `_STREAM_ADMISSION`, `_SDK_ADMISSION` and `_PROCESS_SPOOL_BUDGET`. -/
inductive Gate where
  | stream
  | sdk
  | spool
  deriving DecidableEq, Repr

def Gate.limit : Gate → Nat
  | .stream => 8
  | .sdk => 8
  | .spool => 1024 * 1024 * 1024

inductive Job where
  | ensureBucket
  | put
  | write (spool : Nat)
  | seek (spool : Nat)
  | upload (spool : Nat)
  | get
  | delete
  | openObject
  | read (response : Nat)
  | close (response : Option Nat)
  deriving DecidableEq, Repr

/-- What it returns: opening a response or nothing, reading whether there was more. -/
abbrev Job.Out : Job → Type
  | .openObject => Option Nat
  | .read _ => Bool
  | _ => Unit

inductive Req where
  | newEvent
  | attempt (gate : Gate) (amount event : Nat)
  | wait (event : Nat)
  | clear (event : Nat)
  | discard (gate : Gate) (event : Nat)
  | tryTake (gate : Gate)
  | give (gate : Gate) (amount : Nat)
  | notify (event : Nat)
  | submit (job : Job)
  | isDone (future : Nat)
  | shield (future : Nat)
  | result (future : Nat) (job : Job)
  | bucketEnsured
  | openSpool
  | closeSpool (spool : Nat)
  | nextChunk
  | yieldChunk
  | stall

abbrev Ans : Req → Type
  | .newEvent | .submit _ => Nat
  | .attempt _ _ _ | .tryTake _ | .notify _ | .isDone _ | .bucketEnsured => Bool
  | .clear _ | .discard _ _ => Unit
  | .give _ _ => Except Raised (List Nat)
  | .result _ job => Except Raised job.Out
  | .openSpool => Except Raised Nat
  | .nextChunk => Except Raised (Option Nat)
  | .stall => Empty
  | _ => Except Raised Unit

abbrev Call (α : Type) := Action Req Ans Raised α

open Apex.Action

def stall {α : Type} : Call α := ask Req.stall >>= Empty.elim

/-- Attempt under the lock, and wait for the event where it fails. -/
def attempts (gate : Gate) (amount event : Nat) : Nat → Call Unit
  | 0 => stall
  | patience + 1 => do
    if ← ask (Req.attempt gate amount event) then return
    ask (Req.wait event) >>= settle
    ask (Req.clear event)
    attempts gate amount event patience

def acquire (gate : Gate) (amount patience : Nat) : Call Unit := do
  let event ← ask Req.newEvent
  tryCatch (attempts gate amount event patience) fun e => do
    ask (Req.discard gate event)
    throw e

/-- Set the events of those who waited; who waits on a closed loop is discarded. -/
def notifyAll (gate : Gate) : List Nat → Call Unit
  | [] => return
  | event :: rest => do
    unless ← ask (Req.notify event) do ask (Req.discard gate event)
    notifyAll gate rest

def release (gate : Gate) (amount : Nat) : Call Unit := do
  let waiters ← ask (Req.give gate amount) >>= settle
  notifyAll gate waiters

variable (patience : Nat)

/-- `_reserve_spool` around a body. -/
def reserveSpool (maxBytes : Int) (body : Call Unit) : Call Unit := do
  raiseWhen (decide (maxBytes < 0)) .valueError
  raiseWhen (decide (Gate.spool.limit < maxBytes)) .valueError
  acquire .spool maxBytes.toNat patience
  ensuring body (release .spool maxBytes.toNat)

/-- Wait for a worker through every cancellation, and retrieve its outcome and whether there was
    one. -/
def awaitWorkerDefinitively (future : Nat) (job : Job) :
    Nat → Bool → Call (Except Raised job.Out × Bool)
  | 0, _ => stall
  | patience + 1, cancelled => do
    if ← ask (Req.isDone future) then return (← ask (Req.result future job), cancelled)
    match ← ask (Req.shield future) with
    | .ok _ => awaitWorkerDefinitively future job patience cancelled
    | .error .cancelled => awaitWorkerDefinitively future job patience true
    | .error _ => return (← ask (Req.result future job), cancelled)

/-- Cancellation wins over what the worker did. -/
def settleWorker {α : Type} (outcome : Except Raised α) (cancelled : Bool) : Call α :=
  if cancelled then throw .cancelled else settle outcome

/-- `_run_stream_worker`, with what is left to do with a result that is not wanted any more. -/
def runStreamWorker (job : Job) (cleanup : Option (job.Out → Job)) : Call job.Out := do
  let future ← ask (Req.submit job)
  let (outcome, cancelled) ← awaitWorkerDefinitively future job patience false
  match outcome, cleanup, cancelled with
  | .ok result, some cleanup, true => do
    let future ← ask (Req.submit (cleanup result))
    discard (awaitWorkerDefinitively future (cleanup result) patience false)
  | _, _, _ => pure ()
  settleWorker outcome cancelled

def runSdkWorker (job : Job) : Call job.Out := do
  acquire .sdk 1 patience
  ensuring
    (do
      let future ← ask (Req.submit job)
      let (outcome, cancelled) ← awaitWorkerDefinitively future job patience false
      settleWorker outcome cancelled)
    (release .sdk 1)

/-- What the provider raised, as the store raises it. -/
def providerFailed {α : Type} (missing : String → Bool) (x : Call α) : Call α :=
  tryCatch x fun e => match e with
    | .s3 code => throw (if missing code then .keyError else .runtimeError)
    | e => throw e

def ensureBucket : Call Unit := do
  unless ← ask Req.bucketEnsured do runSdkWorker patience .ensureBucket

def put : Call Unit := do
  ensureBucket patience
  providerFailed (fun _ => false) (runSdkWorker patience .put)

def copyChunks (spool : Nat) (maxBytes : Int) : Nat → Int → Call Int
  | 0, _ => stall
  | rounds + 1, size => do
    match ← ask Req.nextChunk >>= settle with
    | none => return size
    | some length => do
      raiseWhen (decide (maxBytes - size < length)) .valueError
      runSdkWorker patience (.write spool)
      copyChunks spool maxBytes rounds (size + length)

def putStream (maxBytes : Int) : Call Unit := do
  ensureBucket patience
  reserveSpool patience maxBytes do
    let spool ← ask Req.openSpool >>= settle
    ensuring
      (do
        let _ ← copyChunks patience spool maxBytes patience 0
        runSdkWorker patience (.seek spool)
        providerFailed (fun _ => false) (runSdkWorker patience (.upload spool)))
      (ask (Req.closeSpool spool) >>= settle)

def get : Call Unit := do
  ensureBucket patience
  providerFailed (· == "NoSuchKey") (runSdkWorker patience .get)

def delete : Call Unit := do
  ensureBucket patience
  providerFailed (fun _ => false) (runSdkWorker patience .delete)

def readChunks (response : Nat) : Nat → Call Unit
  | 0 => stall
  | rounds + 1 => do
    unless ← runStreamWorker patience (.read response) none do return
    ask Req.yieldChunk >>= settle
    readChunks response rounds

/-- There is a response to close once opening it has returned one. -/
def iterBytes (chunkSize : Int) : Call Unit := do
  raiseWhen (decide (chunkSize < 1)) .valueError
  unless ← ask (Req.tryTake .stream) do throw .busy
  ensuring
    (do
      unless ← ask Req.bucketEnsured do runStreamWorker patience .ensureBucket none
      match ← providerFailed (· == "NoSuchKey")
        (runStreamWorker patience .openObject (some Job.close)) with
      | none => throw .runtimeError
      | some response =>
        ensuring (readChunks patience response patience)
          (runStreamWorker patience (.close (some response)) none))
    (release .stream 1)

inductive Operation where
  | put
  | putStream (maxBytes : Int)
  | get
  | delete
  | iterBytes (chunkSize : Int)

def Operation.call : Operation → Call Unit
  | .put => ArtifactStore.put patience
  | .putStream maxBytes => ArtifactStore.putStream patience maxBytes
  | .get => ArtifactStore.get patience
  | .delete => ArtifactStore.delete patience
  | .iterBytes chunkSize => ArtifactStore.iterBytes patience chunkSize

inductive SdkReq where
  | getObject
  | read (response : Nat)
  | close (response : Nat)
  | releaseConn (response : Nat)

/-- Reading tells the length of a chunk, or that what was read is no bytes. -/
abbrev SdkAns : SdkReq → Type
  | .getObject => Except Raised Nat
  | .read _ => Except Raised (Option Nat)
  | _ => Except Raised Unit

/-- A response is read until it ends, or more than `limit` bytes have come. -/
def readAll (response limit : Nat) : Nat → Nat → Action SdkReq SdkAns Raised Unit
  | 0, _ => throw .valueError
  | rounds + 1, length => do
    raiseWhen (decide (limit < length)) .valueError
    match ← ask (SdkReq.read response) >>= settle with
    | none => throw .runtimeError
    | some 0 => return
    | some n => do
      raiseWhen (decide (limit + 1 - length < n)) .runtimeError
      readAll response limit rounds (length + n)

def maxDirectGetBytes : Nat := 64 * 1024 * 1024

/-- There are no more rounds than bytes. -/
def getDirect : Action SdkReq SdkAns Raised Unit := do
  let response ← ask SdkReq.getObject >>= settle
  ensuring (readAll response maxDirectGetBytes (maxDirectGetBytes + 2) 0) do
    ask (SdkReq.close response) >>= settle
    ask (SdkReq.releaseConn response) >>= settle

/-- An event: whether it is set, the callbacks that are to set it and have not run, and whether
    its loop is closed. -/
structure Signal where
  flag : Bool := false
  queued : Nat := 0
  closed : Bool := false

structure Signals where
  waiters : Gate → List Nat := fun _ => []
  signal : Nat → Signal := fun _ => {}
  made : Nat := 0

def Signals.set (s : Signals) (event : Nat) (signal : Signal) : Signals :=
  { s with signal := update s.signal event signal }

def Signals.add (s : Signals) (gate : Gate) (event : Nat) : Signals :=
  { s with waiters := update s.waiters gate ((s.waiters gate).insert event) }

def Signals.discard (s : Signals) (gate : Gate) (event : Nat) : Signals :=
  { s with waiters := update s.waiters gate ((s.waiters gate).filter (· ≠ event)) }

def Signals.turn (s : Signals) (ran : Nat → Nat) (closes : Nat → Bool) : Signals :=
  { s with signal := fun e =>
      { flag := (s.signal e).flag || decide (0 < (s.signal e).queued ∧ 0 < ran e)
        queued := (s.signal e).queued - ran e
        closed := (s.signal e).closed || closes e } }

/-- The jobs that were submitted and those that have ended, and how many responses were opened
    and how often each was closed. -/
structure Workers where
  job : Nat → Job := fun _ => .put
  submitted : Nat := 0
  finished : Nat → Bool := fun _ => false
  responses : Nat := 0
  closings : Nat → Nat := fun _ => 0
  spools : Nat := 0

def Job.opened : (job : Job) → Except Raised job.Out → Option Nat
  | .openObject, .ok response => response
  | _, _ => none

def Job.closes : Job → Option Nat
  | .close response => response
  | _ => none

def Workers.after (s : Workers) (job : Job) (outcome : Except Raised job.Out) : Workers :=
  { s with
    responses := s.responses + (job.opened outcome).toList.length
    closings := fun r => s.closings r + if job.closes = some r then 1 else 0 }

def Workers.turn (s : Workers) (ends : Nat → Bool) : Workers :=
  { s with finished := fun f => s.finished f || (decide (f < s.submitted) && ends f) }

/-- What is free of each gate; the budget's `_used` is what is not. -/
structure World (ι : Type) where
  available : Gate → Nat := Gate.limit
  signals : Signals := {}
  workers : Workers := {}
  called : ι → Bool := fun _ => false

section World

variable {ι : Type} [DecidableEq ι] (s s' : World ι)

def World.setAvailable (gate : Gate) (n : Nat) : World ι :=
  { s with available := update s.available gate n }

/-- The locked part of `acquire`. -/
def World.attempt (gate : Gate) (amount event : Nat) : Bool × World ι :=
  if amount ≤ s.available gate then
    (true, { s.setAvailable gate (s.available gate - amount) with
      signals := s.signals.discard gate event })
  else (false, { s with signals := s.signals.add gate event })

/-- `try_acquire`. -/
def World.tryTake (gate : Gate) : Bool × World ι :=
  if s.available gate < 1 then (false, s)
  else (true, s.setAvailable gate (s.available gate - 1))

/-- The locked part of `release`; what is too much stays released in the budget only. -/
def World.give (gate : Gate) (amount : Nat) : Option Raised × World ι :=
  let s' := s.setAvailable gate (s.available gate + amount)
  if gate.limit < s'.available gate then
    (some .runtimeError, if gate = .spool then s' else s)
  else (none, s')

/-- How a call is answered. The waiters of a gate are woken in whatever order. -/
def answers : (r : Req) → Ans r → Prop
  | .newEvent, event => event = s.signals.made ∧
    s' = { s with signals := { s.signals with made := s.signals.made + 1 } }
  | .attempt gate amount event, got => (got, s') = s.attempt gate amount event
  | .wait event, .ok _ => (s.signals.signal event).flag = true ∧ s' = s
  | .clear event, _ => s' = { s with
      signals := s.signals.set event { s.signals.signal event with flag := false } }
  | .discard gate event, _ => s' = { s with signals := s.signals.discard gate event }
  | .tryTake gate, got => (got, s') = s.tryTake gate
  | .give gate amount, .ok waiters =>
    (none, s') = s.give gate amount ∧ waiters.Perm (s.signals.waiters gate)
  | .give gate amount, .error e => (some e, s') = s.give gate amount
  | .notify event, told => told = !(s.signals.signal event).closed ∧
    s' = { s with
      signals := s.signals.set event { s.signals.signal event with
        queued := (s.signals.signal event).queued + told.toNat } }
  | .submit job, future => future = s.workers.submitted ∧
    s' = { s with workers := { s.workers with
      job := update s.workers.job future job
      submitted := future + 1 } }
  | .isDone future, done => done = s.workers.finished future ∧ s' = s
  | .shield future, outcome =>
    (outcome = .error .cancelled ∨ s.workers.finished future = true) ∧ s' = s
  | .result future job, outcome => s.workers.finished future = true ∧
    (∀ response, job.opened outcome = some response → response = s.workers.responses) ∧
    s' = { s with workers := s.workers.after job outcome }
  | .openSpool, .ok spool => spool = s.workers.spools ∧
    s' = { s with workers := { s.workers with spools := spool + 1 } }
  | _, _ => s' = s

/-- Any number of calls, each of one operation, answered while callbacks run, loops close and
    workers end at any time. -/
def system : System (World ι) ι Req Ans (Except Raised Unit) where
  respond i s r a s' := s.called i = true ∧ ∃ ran closes ends, answers { s with
    signals := s.signals.turn ran closes
    workers := s.workers.turn ends } s' r a
  start i s p s' := s.called i = false ∧ s' = { s with called := update s.called i true } ∧
    ∃ patience, ∃ operation : Operation, p = (operation.call patience).run

end World

end Apex.Adapters.ArtifactStore
