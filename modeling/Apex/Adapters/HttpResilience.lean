import Mathlib.Algebra.Order.Ring.Rat
import Apex.Core.Action

/-!
# Retries And The Circuit Breaker

A call sends a request, and sends it again after a transport error or a transient status as
long as its policy allows. A deadline bounds all of it. Calls to one provider share a circuit
breaker that counts failures and refuses calls for a while when there are too many.

Times are exact. The environment answers what the provider, the clock, the jitter and the
waits answer; a call without a breaker is not modelled.

## Main definitions

* `RetryPolicy`, `Call`: What a call is given.
* `CircuitBreaker`: The breaker.
* `resilientStreamRequest`: A call.
-/

namespace Apex.Adapters.HttpResilience

structure RetryPolicy where
  attempts : Int := 3
  baseDelayS : ℚ := 1 / 20
  maxDelayS : ℚ := 1 / 2
  retryAfterCapS : ℚ := 30
  totalTimeoutS : Option ℚ := some 10
  transientStatuses : List Nat := [408, 429] ++ (List.range 100).map (500 + ·)
  retryMethods : List String := ["GET", "HEAD", "OPTIONS"]

/-- A call with its method in upper case. -/
structure Call where
  policy : RetryPolicy
  method : String

namespace Call

def canRetry (call : Call) : Bool := call.policy.retryMethods.contains call.method

def maxAttempts (call : Call) : Nat := (max call.policy.attempts 1).toNat

end Call

/-- What a `Retry-After` header is read as. -/
inductive RetryAfter where
  | seconds (delay : ℚ)
  | date (retryAt : ℚ)
  | unreadable
  deriving DecidableEq

/-- A response whose headers have been received. -/
structure Response where
  stream : Nat
  status : Nat
  retryAfter : Option RetryAfter
  deriving DecidableEq

inductive SendOutcome where
  | received (response : Response)
  | timeout
  | httpError
  | raised

inductive SleepOutcome where
  | slept
  | timeout
  | raised

/-- What a call asks for. A jitter that is not finite has no value. -/
inductive Req where
  | beforeRequest
  | now
  | send (timeout : Option ℚ)
  | close (response : Response)
  | jitter
  | wallClock
  | sleep (delay : ℚ) (timeout : Option ℚ)
  | recordSuccess
  | recordFailure

@[reducible] def Ans : Req → Type
  | .beforeRequest => Bool
  | .now => ℚ
  | .send _ => SendOutcome
  | .close _ => Bool
  | .jitter => Option ℚ
  | .wallClock => ℚ
  | .sleep _ _ => SleepOutcome
  | .recordSuccess => Unit
  | .recordFailure => Unit

/-- Where the total timeout was exceeded: in a request, or in the wait before the next one. -/
inductive Site where
  | request
  | wait

/-- What a call raises. `raised` is whatever the client, a close or a wait raises otherwise. -/
inductive CallError where
  | circuitOpen
  | transport
  | timeout (site : Site)
  | invalidDelay
  | raised
  | exhausted

inductive SendError where
  | timeout
  | httpError
  | raised

def SendOutcome.result : SendOutcome → Except SendError Response
  | .received response => .ok response
  | .timeout => .error .timeout
  | .httpError => .error .httpError
  | .raised => .error .raised

abbrev Act (ε α : Type) := Action Req Ans ε α

open Apex.Action (settle raiseWhen)

def ask {ε : Type} (r : Req) : Act ε (Ans r) := Action.ask r

def streamRequestWithDeadline (deadline : Option ℚ) : Act SendError Response :=
  match deadline with
  | none => do settle (SendOutcome.result (← ask (.send none)))
  | some deadline => do
      let now : ℚ ← ask .now
      if deadline - now ≤ 0 then throw .timeout
      else settle (SendOutcome.result (← ask (.send (some (deadline - now)))))

def delay (policy : RetryPolicy) (attempt : Nat) : Act CallError ℚ := do
  let jitter : Option ℚ ← ask .jitter
  match jitter with
  | none => throw .invalidDelay
  | some jitter =>
    if 0 ≤ jitter ∧ jitter ≤ 1 then
      let base := min (policy.baseDelayS * 2 ^ (attempt - 1)) policy.maxDelayS
      let delay := min (base * (1 + jitter * (1 / 4))) policy.maxDelayS
      if delay < 0 then throw .invalidDelay else pure delay
    else throw .invalidDelay

def retryDelay (response : Response) (policy : RetryPolicy) (attempt : Nat) : Act CallError ℚ :=
  let cap := max policy.retryAfterCapS policy.maxDelayS
  match response.retryAfter with
  | none | some .unreadable => delay policy attempt
  | some (.seconds numericDelay) => pure (min (max numericDelay 0) cap)
  | some (.date retryAt) => do
      let now : ℚ ← ask .wallClock
      pure (min (max (retryAt - now) 0) cap)

/-- What a wait under a deadline returns or raises. -/
def SleepOutcome.withDeadline : SleepOutcome → Except CallError Unit
  | .slept => .ok ()
  | .timeout => .error (.timeout .wait)
  | .raised => .error .raised

/-- What a wait without a deadline returns or raises. -/
def SleepOutcome.withoutDeadline : SleepOutcome → Except CallError Unit
  | .slept => .ok ()
  | .timeout => .error .raised
  | .raised => .error .raised

def sleepWithDeadline (delay : ℚ) (deadline : Option ℚ) : Act CallError Unit :=
  if delay < 0 then throw .invalidDelay
  else match deadline with
    | none => do settle (SleepOutcome.withoutDeadline (← ask (.sleep delay none)))
    | some deadline => do
        let now : ℚ ← ask .now
        let remaining := deadline - now
        if remaining ≤ 0 then throw (.timeout .wait)
        else settle (SleepOutcome.withDeadline
          (← ask (.sleep (min delay remaining) (some remaining))))

/-- What an attempt does with what sending returned or raised; `again` is the next attempt. -/
def afterSend (call : Call) (deadline : Option ℚ) (attempt : Nat) (again : Act CallError Response) :
    Except SendError Response → Act CallError Response
  | .error .raised => throw .raised
  | .error .httpError =>
    if !call.canRetry || decide (call.maxAttempts ≤ attempt) then do
      let _ ← ask .recordFailure
      throw .transport
    else do
      sleepWithDeadline (← delay call.policy attempt) deadline
      again
  | .error .timeout => do
      let _ ← ask .recordFailure
      throw (.timeout .request)
  | .ok response =>
    if call.policy.transientStatuses.contains response.status then
      if !call.canRetry || decide (call.maxAttempts ≤ attempt) then do
        let _ ← ask .recordFailure
        pure response
      else do
        let closed : Bool ← ask (.close response)
        raiseWhen (!closed) .raised
        sleepWithDeadline (← retryDelay response call.policy attempt) deadline
        again
    else do
      let _ ← ask .recordSuccess
      pure response

/-- The loop of `resilient_stream_request`, from one attempt on. -/
def attempts (call : Call) (deadline : Option ℚ) : Nat → Nat → Act CallError Response
  | 0, _ => throw .exhausted
  | remaining + 1, attempt => do
      let admitted : Bool ← ask .beforeRequest
      raiseWhen (!admitted) .circuitOpen
      let sent ← liftM (streamRequestWithDeadline deadline).run
      afterSend call deadline attempt (attempts call deadline remaining (attempt + 1)) sent

def deadlineOf (policy : RetryPolicy) : Act CallError (Option ℚ) :=
  match policy.totalTimeoutS with
  | none => pure none
  | some totalTimeoutS => do
      let now : ℚ ← ask .now
      pure (some (now + max totalTimeoutS 0))

def resilientStreamRequest (call : Call) : Act CallError Response := do
  let deadline ← deadlineOf call.policy
  attempts call deadline call.maxAttempts 1

structure Limits where
  failureThreshold : Int := 5
  resetAfterS : ℚ := 30

structure CircuitBreaker where
  failures : Nat := 0
  openedAt : Option ℚ := none

namespace CircuitBreaker

variable (limits : Limits) (now : ℚ) (breaker : CircuitBreaker)

/-- `before_request`: whether the request may be sent. -/
def beforeRequest : Bool × CircuitBreaker :=
  match breaker.openedAt with
  | none => (true, breaker)
  | some openedAt => if now - openedAt < limits.resetAfterS then (false, breaker) else (true, {})

def recordSuccess : CircuitBreaker := {}

def recordFailure : CircuitBreaker where
  failures := breaker.failures + 1
  openedAt :=
    if limits.failureThreshold ≤ (breaker.failures + 1 : Nat) then some now else breaker.openedAt

end CircuitBreaker

/-- The clock, the breaker, and the calls that have begun. -/
structure World (ι : Type) where
  clock : ℚ
  breaker : CircuitBreaker
  calls : ι → Option Call

variable {ι : Type}

/-- What a request is answered at an instant, and what it changes. -/
def answers (limits : Limits) (world : World ι) : (r : Req) → Ans r → World ι → Prop
  | .now, now, after => now = world.clock ∧ after = world
  | .beforeRequest, admitted, after =>
    admitted = (world.breaker.beforeRequest limits world.clock).1 ∧
      after = { world with breaker := (world.breaker.beforeRequest limits world.clock).2 }
  | .recordSuccess, _, after => after = { world with breaker := CircuitBreaker.recordSuccess }
  | .recordFailure, _, after =>
    after = { world with breaker := world.breaker.recordFailure limits world.clock }
  | _, _, after => after = world

/-- Calls that share a breaker. Time passes before every answer, and every call begins once. -/
def calls [DecidableEq ι] (limits : Limits) :
    System (World ι) ι Req Ans (Except CallError Response) where
  respond _ world r a after :=
    ∃ now, world.clock ≤ now ∧ answers limits { world with clock := now } r a after
  start i world program after :=
    world.calls i = none ∧ ∃ call, program = (resilientStreamRequest call).run ∧
      after = { world with calls := Function.update world.calls i (some call) }

def idle : World ι where
  clock := 0
  breaker := {}
  calls := fun _ => none

end Apex.Adapters.HttpResilience
