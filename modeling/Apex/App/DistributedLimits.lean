import Apex.Core.Dict

/-!
# Limits Shared Through Redis

The scripts that keep limits in Redis, for every replica. A script is atomic and reads
the clock of the server. Times are counted in milliseconds.

A window is a sorted set with an entry for each request, scored by its time; a lock is
a key that expires. Every call brings a member that nobody else uses, and a key that
has expired is not there.

## Main definitions

* `ZSet`, `Redis`: What is kept.
* `fixedWindowScript`, `authRetryScript`, `authFailureScript`, `deleteScript`: The scripts.
* `checkWindow`, `authRetryAfter`, `recordAuthFailure`, `clearAuth`: The backend.
-/

namespace Apex.App

/-- The keys of credentials start with `key:`, those of sources do not. -/
def isCredentialKey (key : String) : Bool := "key:".toList.isPrefixOf key.toList

/-- `_rate_keys`: the source first, then the credential. -/
structure RateKeys where
  source : String
  credential : Option String
  source_key : isCredentialKey source = false
  credential_key : ∀ key, credential = some key → isCredentialKey key = true

def RateKeys.list (keys : RateKeys) : List String := keys.source :: keys.credential.toList

inductive LimitNamespace where
  | request
  | runCreate
  | authFailures
  | authLockout
  deriving DecidableEq, Repr

/-- A key in Redis: the subject is told by its digest. -/
structure LimitKey where
  space : LimitNamespace
  subject : String
  deriving DecidableEq

/-- A sorted set, members with their scores, and when it expires. -/
structure ZSet where
  members : List (String × Nat)
  expires : Option Nat

namespace ZSet

def empty : ZSet := ⟨[], none⟩

variable (z : ZSet)

def scores : List Nat := z.members.map Prod.snd

/-- What is there of a set: nothing after it expired. -/
def alive (now : Nat) (z : ZSet) : ZSet :=
  if z.expires.any fun e => decide (e < now) then empty else z

/-- `ZREMRANGEBYSCORE` from `-inf`. A set without members is not there. -/
def zremrangebyscore (bound : Int) : ZSet :=
  let members := z.members.filter fun m => decide (bound < m.2)
  if members.isEmpty then empty else { z with members := members }

def zcard : Nat := z.members.length

/-- The score of `ZRANGE 0 0`. -/
def oldest : Nat := (z.scores.min?).getD 0

def zadd (score : Nat) (member : String) : ZSet :=
  { z with members := z.members.filter (fun m => m.1 != member) ++ [(member, score)] }

def pexpire (now ttl : Nat) : ZSet := { z with expires := some (now + ttl) }

end ZSet

/-- What Redis keeps: sorted sets, and locks with the time they expire, if they do. -/
structure Redis where
  zsets : LimitKey → ZSet
  locks : LimitKey → Option (Option Nat)

namespace Redis

def empty : Redis := ⟨fun _ => ZSet.empty, fun _ => none⟩

variable (r : Redis) (key : LimitKey)

def zset (now : Nat) (key : LimitKey) : ZSet := (r.zsets key).alive now

def setZ (z : ZSet) : Redis :=
  { r with zsets := Function.update r.zsets key z }

def pttl (now : Nat) (key : LimitKey) : Int :=
  match r.locks key with
  | none => -2
  | some none => -1
  | some (some e) => if e < now then -2 else (e : Int) - now

/-- `SET` of a lock with `PX`. -/
def setLock (now ttl : Nat) : Redis :=
  { r with locks := Function.update r.locks key (some (some (now + ttl))) }

def del : Redis where
  zsets := Function.update r.zsets key ZSet.empty
  locks := Function.update r.locks key none

end Redis

/-- `math.ceil` of milliseconds in seconds. -/
def ceilSeconds (ms : Nat) : Nat := (ms + 999) / 1000

variable (now window : Nat)

/-- The first loop of `_FIXED_WINDOW_SCRIPT`. -/
def fixedWindowRetry : List (LimitKey × Nat) → Nat → Redis → Nat × Redis
  | [], retry, r => (retry, r)
  | (key, limit) :: rest, retry, r =>
    let z := (r.zset now key).zremrangebyscore ((now : Int) - window)
    let retry := if limit ≤ z.zcard then
        max retry (max (ceilSeconds (z.oldest + window - now)) 1)
      else retry
    fixedWindowRetry rest retry (r.setZ key z)

/-- The second loop of `_FIXED_WINDOW_SCRIPT`. -/
def fixedWindowAdd (member : String) : List LimitKey → Redis → Redis
  | [], r => r
  | key :: rest, r =>
    fixedWindowAdd member rest
      (r.setZ key (((r.zset now key).zadd now member).pexpire now (window + 1000)))

def fixedWindowScript (member : String) (keys : List (LimitKey × Nat)) (r : Redis) : Nat × Redis :=
  let checked := fixedWindowRetry now window keys 0 r
  if 0 < checked.1 then checked
  else (0, fixedWindowAdd now window member (keys.map Prod.fst) checked.2)

def authRetryScript (keys : List LimitKey) (r : Redis) : Nat :=
  keys.foldl (fun retry key =>
    let ttl := r.pttl now key
    if ttl = -1 then max retry 1
    else if 0 < ttl then max retry (max (ceilSeconds ttl.toNat) 1)
    else retry) 0

/-- One round of `_AUTH_FAILURE_SCRIPT`: the keys of one subject. -/
def authFailureRound (limit window lockout : Nat) (member : String) (r : Redis)
    (subject : String) : Redis :=
  let failures : LimitKey := ⟨.authFailures, subject⟩
  let z := (((r.zset now failures).zremrangebyscore ((now : Int) - window)).zadd now member).pexpire
    now (max window lockout + 1000)
  let r := r.setZ failures z
  if limit ≤ z.zcard then r.setLock ⟨.authLockout, subject⟩ now lockout else r

def authFailureScript (limit window lockout : Nat) (member : String) (subjects : List String)
    (r : Redis) : Redis :=
  subjects.foldl (authFailureRound now limit window lockout member) r

def deleteScript (keys : List LimitKey) (r : Redis) : Redis := keys.foldl Redis.del r

def orNone (retry : Nat) : Option Nat := if retry = 0 then none else some retry

/-- `RedisDistributedLimitBackend.check_window`. -/
def checkWindow (space : LimitNamespace) (keyedLimits : List (String × Nat)) (windowS : Nat)
    (token : String) (r : Redis) : Option Nat × Redis :=
  if keyedLimits.isEmpty then (none, r)
  else
    let result := fixedWindowScript now (max windowS 1 * 1000) token
      (keyedLimits.map fun kl => (⟨space, kl.1⟩, max kl.2 1)) r
    (orNone result.1, result.2)

/-- `RedisDistributedLimitBackend.auth_retry_after`. -/
def authRetryAfter (subjects : List String) (r : Redis) : Option Nat :=
  orNone (authRetryScript now (subjects.map (LimitKey.mk .authLockout)) r)

/-- `RedisDistributedLimitBackend.record_auth_failure`. -/
def recordAuthFailure (subjects : List String) (limit windowS lockoutS : Nat) (token : String)
    (r : Redis) : Redis :=
  authFailureScript now (max limit 1) (max windowS 1 * 1000) (max lockoutS 1 * 1000) token subjects r

/-- `RedisDistributedLimitBackend.clear_auth`. -/
def clearAuth (subjects : List String) (r : Redis) : Redis :=
  deleteScript (subjects.flatMap fun s => [⟨.authFailures, s⟩, ⟨.authLockout, s⟩]) r

end Apex.App
