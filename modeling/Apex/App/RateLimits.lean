import Apex.App.DistributedLimits

/-!
# Rate Limits And Lockouts

What an API process limits by itself, and the same limits asked of Redis: requests in
a window, runs created in a window, and the lockout after refused credentials. Each
is kept by source and by credential.

The process keeps a queue of times for each key. It drops the old times of the keys
it touches, and from time to time those of all keys. A number of tables bounds how
many keys there are; a key that finds no room is refused if it is a source and let
pass if it is a credential.

## Main definitions

* `RateLimitSettings`: The settings.
* `LocalLimits`: What the process keeps.
* `check`, `checkRunCreate`, `authLockoutRetryAfter`, `recordAuthResult`: The limits of the
  process.
* `checkShared`, `checkRunCreateShared`, `recordAuthResultShared`: The same, asked of Redis.
* `LimitCall`: A call of the limits, `localAnswer` and `sharedAnswer` what it is answered.
-/

namespace Apex.App

abbrev Setting (lo hi : Nat) : Type := { n : Nat // lo ≤ n ∧ n ≤ hi }

structure RateLimitSettings where
  requests : Setting 1 1000000
  windowS : Setting 1 86400
  maxBuckets : Setting 1 1000000
  authFailures : Setting 1 10000
  authFailureWindowS : Setting 1 86400
  authLockoutS : Setting 1 604800
  runCreateRequests : Setting 1 10000
  runCreateWindowS : Setting 1 86400

namespace RateLimitSettings

variable (cfg : RateLimitSettings)

/-- The limit of a credential in the window of requests. -/
def limit : Nat := max cfg.requests.1 1

/-- The limit of a source in the window of requests. -/
def ipLimit : Nat := max (max cfg.limit cfg.authFailures.1) 1

/-- The limit of every key in the window of created runs. -/
def runLimit : Nat := max cfg.runCreateRequests.1 1

/-- The window of requests, in milliseconds. -/
def window : Nat := max cfg.windowS.1 1 * 1000

def runWindow : Nat := max cfg.runCreateWindowS.1 1 * 1000

def failureWindow : Nat := max cfg.authFailureWindowS.1 1 * 1000

def lockout : Nat := max cfg.authLockoutS.1 1 * 1000

def buckets : Nat := max cfg.maxBuckets.1 1

end RateLimitSettings

abbrev Buckets : Type := Dict (List Nat)

variable (cfg : RateLimitSettings) (keys : RateKeys) (window now : Nat) (s : LocalLimits)
  (d : Buckets)

/-- The times kept for a key; none where there is no bucket. -/
def Buckets.times (key : String) : List Nat := (d.get? key).getD []

/-- `while bucket and now - bucket[0] >= window: bucket.popleft()`. -/
def prune (bucket : List Nat) : List Nat :=
  bucket.dropWhile fun t => decide (window ≤ now - t)

/-- A pass over all buckets: old times are dropped, and buckets that are empty then. -/
def sweepBuckets : Buckets :=
  let pruned := d.map fun _ bucket => prune window now bucket
  pruned.filterKeys fun key => pruned.get? key != some []

/-- `dict.pop(key, None)`. -/
def dropKey {α : Type} (d : Dict α) (key : String) : Dict α := d.filterKeys (· != key)

structure LocalLimits where
  buckets : Buckets
  lastSweep : Nat
  runCreateBuckets : Buckets
  runCreateLastSweep : Nat
  failureBuckets : Buckets
  lockouts : Dict Nat
  authLastSweep : Nat

def LocalLimits.start : LocalLimits := ⟨∅, 0, ∅, 0, ∅, ∅, 0⟩

/-- The seconds until the first time of a bucket is old. -/
def waitOf (bucket : List Nat) : Nat :=
  max ((window - (now - bucket.headD 0)) / 1000) 1

def sweep (now window : Nat) : LocalLimits :=
  if now - s.lastSweep < window then s
  else { s with lastSweep := now, buckets := sweepBuckets window now s.buckets }

def checkBucket (key : String) (now limit window : Nat) (required : Bool)
    (d : Buckets) : Option Nat × Buckets :=
  if (d.get? key).isNone ∧ cfg.buckets ≤ d.length then
    (if required then some (window / 1000) else none, d)
  else
    let bucket := prune window now (d.times key)
    if limit ≤ bucket.length then (some (waitOf window now bucket), d.set key bucket)
    else (none, d.set key (bucket ++ [now]))

/-- `_check` after its pass over the buckets: the source first, then the credential. -/
def checkKeys :
    Option Nat × Buckets :=
  match checkBucket cfg keys.source now cfg.ipLimit cfg.window true d with
  | (some retry, d) => (some retry, d)
  | (none, d) =>
    match keys.credential with
    | none => (none, d)
    | some credential => checkBucket cfg credential now cfg.limit cfg.window false d

def check :
    Option Nat × LocalLimits :=
  let s := sweep s now cfg.window
  let checked := checkKeys cfg keys now s.buckets
  (checked.1, { s with buckets := checked.2 })

/-- The loop of `_check_run_create` over the keys, of which only the source is required: what
    refuses the request, the buckets, and the keys whose buckets have room. -/
def runCreateLoop :
    Bool → List String → Buckets → List String → Option Nat × Buckets × List String
  | _, [], d, allocated => (none, d, allocated)
  | required, key :: rest, d, allocated =>
    if (d.get? key).isNone ∧ cfg.buckets ≤ d.length then
      if required then (some (cfg.runWindow / 1000), d, allocated)
      else runCreateLoop false rest d allocated
    else
      let bucket := prune cfg.runWindow now (d.times key)
      if cfg.runLimit ≤ bucket.length then
        (some (waitOf cfg.runWindow now bucket), d.set key bucket, allocated)
      else runCreateLoop false rest (d.set key bucket) (allocated ++ [key])

def appendTimes (allocated : List String) (d : Buckets) : Buckets :=
  allocated.foldl (fun d key => d.set key (d.times key ++ [now])) d

def checkRunCreate :
    Option Nat × LocalLimits :=
  let s := if now - s.runCreateLastSweep < cfg.runWindow then s
    else { s with
      runCreateLastSweep := now
      runCreateBuckets := sweepBuckets cfg.runWindow now s.runCreateBuckets }
  let checked := runCreateLoop cfg now true keys.list s.runCreateBuckets []
  if checked.1.isSome then (checked.1, { s with runCreateBuckets := checked.2.1 })
  else (none, { s with runCreateBuckets := appendTimes now checked.2.2 checked.2.1 })

def sweepAuthState : LocalLimits :=
  if now - s.authLastSweep < cfg.failureWindow then s
  else { s with
    authLastSweep := now
    failureBuckets := sweepBuckets cfg.failureWindow now s.failureBuckets
    lockouts := s.lockouts.filterKeys fun key =>
      (s.lockouts.get? key).any fun expiry => decide (now < expiry) }

/-- One round of `_auth_lockout_retry_after`. A lock that has run out is dropped together with
    the failures of its key. -/
def lockoutRound (found : Nat × LocalLimits) (key : String) : Nat × LocalLimits :=
  match found.2.lockouts.get? key with
  | none => found
  | some expiry =>
    if expiry ≤ now then
      (found.1, { found.2 with
        lockouts := dropKey found.2.lockouts key
        failureBuckets := dropKey found.2.failureBuckets key })
    else (max found.1 (max ((expiry - now) / 1000) 1), found.2)

def authLockoutRetryAfter : Option Nat × LocalLimits :=
  let found := keys.list.foldl (lockoutRound now) (0, sweepAuthState cfg now s)
  (orNone found.1, found.2)

/-- What a request came to: the status 401, another status of an identity that is known, or
    another status. -/
inductive AuthOutcome where
  | unauthorized
  | authenticated
  | other
  deriving DecidableEq, Repr

/-- One round of `_record_auth_result`, for the status 401. -/
def failureRound (key : String) :
    LocalLimits :=
  if (s.failureBuckets.get? key).isNone ∧ cfg.buckets ≤ s.failureBuckets.length then s
  else
    let bucket := prune cfg.failureWindow now (s.failureBuckets.times key) ++ [now]
    { s with
      failureBuckets := s.failureBuckets.set key bucket
      lockouts := if cfg.authFailures.1 ≤ bucket.length then
          s.lockouts.set key (now + cfg.lockout)
        else s.lockouts }

def recordAuthResult (outcome : AuthOutcome) (now : Nat) (s : LocalLimits) : LocalLimits :=
  let s := sweepAuthState cfg now s
  match outcome with
  | .authenticated =>
    { s with
      failureBuckets := keys.credential.toList.foldl dropKey s.failureBuckets
      lockouts := keys.credential.toList.foldl dropKey s.lockouts }
  | .other => s
  | .unauthorized => if cfg.authFailures.1 ≤ 0 then s else keys.list.foldl (failureRound cfg now) s

/-- `_check_shared` with a backend. -/
def checkShared (token : String) (r : Redis) : Option Nat × Redis :=
  checkWindow now .request ((keys.source, cfg.ipLimit)
    :: keys.credential.toList.map fun credential => (credential, cfg.limit)) cfg.windowS.1 token r

/-- `_check_run_create_shared` with a backend. -/
def checkRunCreateShared (token : String) (r : Redis) : Option Nat × Redis :=
  checkWindow now .runCreate (keys.list.map fun key => (key, cfg.runLimit)) cfg.runCreateWindowS.1
    token r

/-- What the middleware makes of an outcome with a backend. -/
def recordAuthResultShared (outcome : AuthOutcome) (now : Nat) (token : String)
    (r : Redis) : Redis :=
  match outcome with
  | .unauthorized =>
    recordAuthFailure now keys.list cfg.authFailures.1 cfg.authFailureWindowS.1
      cfg.authLockoutS.1 token r
  | .authenticated => clearAuth keys.credential.toList r
  | .other => r

inductive LimitQuery where
  | request
  | runCreate
  | lockout
  | result (outcome : AuthOutcome)
  deriving DecidableEq

/-- A call of the limits at a time, with the member a script of it would bring. -/
structure LimitCall where
  now : Nat
  keys : RateKeys
  token : String
  query : LimitQuery

/-- What a process answers: the seconds to wait, if it refuses. -/
def localAnswer (c : LimitCall) (s : LocalLimits) :
    Option Nat × LocalLimits :=
  match c.query with
  | .request => check cfg c.keys c.now s
  | .runCreate => checkRunCreate cfg c.keys c.now s
  | .lockout => authLockoutRetryAfter cfg c.keys c.now s
  | .result outcome => (none, recordAuthResult cfg c.keys outcome c.now s)

def sharedAnswer (c : LimitCall) (r : Redis) : Option Nat × Redis :=
  match c.query with
  | .request => checkShared cfg c.keys c.now c.token r
  | .runCreate => checkRunCreateShared cfg c.keys c.now c.token r
  | .lockout => (authRetryAfter c.now c.keys.list r, r)
  | .result outcome => (none, recordAuthResultShared cfg c.keys outcome c.now c.token r)

/-- A call as it was answered: what was kept before and after it. -/
structure Answered (σ : Type) where
  call : LimitCall
  before : σ
  retryAfter : Option Nat
  after : σ

def answerAll {σ : Type} (answer : LimitCall → σ → Option Nat × σ) : σ → List LimitCall →
    List (Answered σ)
  | _, [] => []
  | s, c :: calls =>
    let result := answer c s
    ⟨c, s, result.1, result.2⟩ :: answerAll answer result.2 calls

end Apex.App
