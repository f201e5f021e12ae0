import Apex.Core.Holdings

/-!
# Guards For Remote Creation

`remote_create_guard` serializes one get-or-create section by a key. Callers in one
process share a lock that is polled, and that is kept in a registry for as long as it
has users; and if the deployment asks for it, callers of all processes share an advisory
lock of PostgreSQL that its transaction holds, behind a bounded number of connections.

The guard is a coroutine, and what it does between two awaits is one request each: a
registry update, an attempt at a lock. Whoever polls makes as many attempts as it has
patience for, and then is never heard of again.

## Main definitions

* `remoteCreateGuard`, `postgresGuard`: The guards.
* `system`: Callers in processes that share a database.
-/

namespace Apex.Adapters.RemoteIdempotency

open Function

inductive Raised where
  | cancelled
  | timeout
  | runtimeError
  | valueError
  | other (text : String)
  deriving DecidableEq, Repr

def postgresGuardCapacity : Nat := 8

/-- The module's state in one process: which lock entries are registered, the lock and the users
    of each, how many were ever made, and the free database slots. An entry that is not made yet
    is unlocked and has no users. -/
structure Process (ι : Type) where
  registry : String → Option Nat := fun _ => none
  lock : Nat → Option ι := fun _ => none
  users : Nat → Int := fun _ => 0
  made : Nat := 0
  postgresAdmission : Nat := postgresGuardCapacity

section Process

variable {ι : Type} (p : Process ι) (key : String) (entry : Nat)

/-- The entry of a key, which is made and registered if there is none. -/
def Process.getOrCreate : Nat × Process ι :=
  match p.registry key with
  | some entry => (entry, p)
  | none => (p.made, { p with
      registry := update p.registry key (some p.made)
      made := p.made + 1 })

def Process.lease : Nat × Process ι :=
  let (entry, p) := p.getOrCreate key
  (entry, { p with users := update p.users entry (p.users entry + 1) })

def Process.returnLease : Process ι :=
  let p := { p with users := update p.users entry (p.users entry - 1) }
  if p.users entry = 0 ∧ p.registry key = some entry then
    { p with registry := update p.registry key none }
  else p

/-- `lock.acquire(blocking=False)`, with who took the lock. -/
def Process.tryLock (i : ι) : Bool × Process ι :=
  if (p.lock entry).isNone then (true, { p with lock := update p.lock entry (some i) })
  else (false, p)

/-- `lock.release()`, which frees a lock whoever took it. -/
def Process.unlock : Except Raised Unit × Process ι :=
  if (p.lock entry).isSome then (.ok (), { p with lock := update p.lock entry none })
  else (.error .runtimeError, p)

/-- `_postgres_admission.acquire(blocking=False)`. -/
def Process.tryAdmission : Bool × Process ι :=
  if 0 < p.postgresAdmission then
    (true, { p with postgresAdmission := p.postgresAdmission - 1 })
  else (false, p)

/-- `_postgres_admission.release()` of a bounded semaphore. -/
def Process.giveAdmission : Except Raised Unit × Process ι :=
  if p.postgresAdmission < postgresGuardCapacity then
    (.ok (), { p with postgresAdmission := p.postgresAdmission + 1 })
  else (.error .valueError, p)

end Process

inductive Req where
  | lease (key : String)
  | returnLease (key : String) (entry : Nat)
  | tryLock (entry : Nat)
  | unlock (entry : Nat)
  | tryAdmission
  | giveAdmission
  | sleep
  | settings
  | createEngine
  | begin
  | setLocal (name : String)
  | lockAdvisory (key : Int)
  | endTransaction
  | dispose
  | body (key : String) (distributed : Bool)
  | stall

abbrev Ans : Req → Type
  | .lease _ => Nat
  | .returnLease _ _ => Unit
  | .tryLock _ | .tryAdmission => Bool
  | .settings => Except Raised Bool
  | .stall => Empty
  | _ => Except Raised Unit

abbrev Guard (α : Type) := Action Req Ans Raised α

open Apex.Action

/-- Attempt until it works, for as long as there is patience. -/
def poll (attempt : Guard Bool) : Nat → Guard Unit
  | 0 => ask Req.stall >>= Empty.elim
  | patience + 1 => do
      if ← attempt then return
      ask Req.sleep >>= settle
      poll attempt patience

def acquire (entry : Nat) (patience : Nat) : Guard Unit := poll (ask (Req.tryLock entry)) patience

/-- The timeout around it raises where it sleeps. -/
def acquirePostgresAdmission (patience : Nat) : Guard Unit := poll (ask Req.tryAdmission) patience

/-- The first eight bytes of a digest, as a signed big-endian number. -/
def advisoryKey (sha256 : String → List (Fin 256)) (key : String) : Int :=
  let n := ((sha256 key).take 8).foldl (fun (n : Nat) b => n * 256 + b.val) 0
  if n < 2 ^ 63 then n else n - 2 ^ 64

variable (sha256 : String → List (Fin 256)) (key : String)

/-- `async with engine.begin()` around the advisory lock and the body. -/
def inTransaction (body : Guard Unit) : Guard Unit := do
  ask Req.begin >>= settle
  ensuring
    (do
      ask (Req.setLocal "lock_timeout") >>= settle
      ask (Req.setLocal "statement_timeout") >>= settle
      ask (Req.lockAdvisory (advisoryKey sha256 key)) >>= settle
      body)
    (ask Req.endTransaction >>= settle)

/-- There is an engine to dispose of once `create_async_engine` has returned. -/
def postgresGuard (patience : Nat) (body : Guard Unit) : Guard Unit := do
  acquirePostgresAdmission patience
  ensuring
    (do
      ask Req.createEngine >>= settle
      ensuring (inTransaction sha256 key body) (ask Req.dispose >>= settle))
    (ask Req.giveAdmission >>= settle)

/-- The guard around a body. A lock that was not acquired is not released. -/
def remoteCreateGuard (patience : Nat) : Guard Unit := do
  let entry ← ask (Req.lease key)
  let acquired ← (liftM (acquire entry patience).run : Guard (Except Raised Unit))
  match acquired with
  | .error e => do
      ask (Req.returnLease key entry)
      throw e
  | .ok () =>
    ensuring
      (do
        if ← ask Req.settings >>= settle then
          postgresGuard sha256 key patience (ask (Req.body key true) >>= settle)
        else ask (Req.body key false) >>= settle)
      (do
        ask (Req.unlock entry) >>= settle
        ask (Req.returnLease key entry))

/-- The callers whose transactions are open, and who holds an advisory lock. -/
structure Database (ι : Type) where
  opened : ι → Bool := fun _ => false
  advisory : Int → Option ι := fun _ => none

/-- Some transactions end, and their advisory locks with them. -/
def Database.ending {ι : Type} (db : Database ι) (ended : ι → Bool) : Database ι where
  opened i := db.opened i && !ended i
  advisory k := (db.advisory k).filter (!ended ·)

def Database.grant {ι : Type} (db : Database ι) (i : ι) (k : Int) : Database ι :=
  { db with advisory := update db.advisory k (some i) }

/-- All processes and the database they share, and who has called. -/
structure World (ι π : Type) where
  processes : π → Process ι := fun _ => {}
  database : Database ι := {}
  called : ι → Bool := fun _ => false

section World

variable {ι π : Type} [DecidableEq ι] [DecidableEq π] (home : ι → π)

def World.inProcess {α : Type} (s : World ι π) (p : π) (step : Process ι → α × Process ι) (a : α)
    (s' : World ι π) : Prop :=
  a = (step (s.processes p)).1 ∧
    s' = { s with processes := update s.processes p (step (s.processes p)).2 }

/-- How a caller is answered. An advisory lock is granted to one open transaction at a time, also
    where the caller does not learn of it. -/
def answers (i : ι) (s : World ι π) : (r : Req) → Ans r → World ι π → Prop
  | .lease key, entry, s' => s.inProcess (home i) (·.lease key) entry s'
  | .returnLease key entry, u, s' =>
    s.inProcess (home i) (fun p => ((), p.returnLease key entry)) u s'
  | .tryLock entry, got, s' => s.inProcess (home i) (·.tryLock entry i) got s'
  | .unlock entry, outcome, s' => s.inProcess (home i) (·.unlock entry) outcome s'
  | .tryAdmission, got, s' => s.inProcess (home i) Process.tryAdmission got s'
  | .giveAdmission, outcome, s' => s.inProcess (home i) Process.giveAdmission outcome s'
  | .begin, .ok _, s' => s' = { s with database := { s.database with
      opened := update s.database.opened i true } }
  | .lockAdvisory k, outcome, s' =>
    (s.database.opened i = true ∧ (∀ j, s.database.advisory k = some j → j = i) ∧
      s' = { s with database := s.database.grant i k }) ∨
    (outcome ≠ .ok () ∧ s' = s)
  | .endTransaction, _, s' => s' = { s with database := s.database.ending (· = i) } ∨ s' = s
  | _, _, s' => s' = s

/-- Any number of callers, each of which calls once, with any key and patience, and is answered
    only then. The database may end transactions at any time. -/
def system : System (World ι π) ι Req Ans (Except Raised Unit) where
  respond i s r a s' := s.called i = true ∧ ∃ ended,
    answers home i { s with database := s.database.ending ended } r a s'
  start i s p s' := s.called i = false ∧ s' = { s with called := update s.called i true } ∧
    ∃ key patience, p = (remoteCreateGuard sha256 key patience).run

end World

end Apex.Adapters.RemoteIdempotency
