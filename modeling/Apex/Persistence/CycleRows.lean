import Apex.Domain.CycleExecutions
import Apex.Domain.CycleProgress
import Apex.Persistence.Cycles

/-!
# The Progress Beside A Cycle

The row of a cycle also holds the progress of its history, or nothing where it was stored
before there was progress. Beside the rows are the executions that were prepared from them.

A write names the revision it was prepared from. Those of an edit and of a preparation raise
the revision; progress that is filled in later does not.

## Main definitions

* `CycleRow`, `CycleExecutionPreparation`, `RowStore`: The rows.
* `RowRequest`: What the handlers ask for.
* `RowStore.Answers`: How the tables answer.
-/

namespace Apex.Persistence

open Auth Domain

open Domain.CycleExecutions (ExecutionSnapshot)

structure CycleRow where
  cycle : TestCycle
  progress : Option CycleProgress
  deriving DecidableEq

structure CycleExecutionPreparation where
  id : String
  cycleId : String
  idempotencyKey : String
  requestFingerprint : String
  snapshot : ExecutionSnapshot
  createdBy : String
  archivedAt : Option String
  archivedBy : Option String

structure RowStore where
  rows : List CycleRow
  preparations : List CycleExecutionPreparation

structure EngineConnection where
  id : String
  provider : String
  runtimeVersion : String

/-- What `context` returns of what a preparation reads. -/
structure ExecutionContext where
  targetVersion : Option Int
  connections : List EngineConnection

/-- The stored source of a script, and when it was stored. -/
structure StoredScript where
  id : String
  storedAt : String

structure PageRow where
  id : String
  revision : Nat
  progress : Option CycleProgress

/-- A row with other versions, at the next revision. -/
def CycleRow.edited (versions : List Version) (progress : CycleProgress) (row : CycleRow) :
    CycleRow :=
  ⟨{ row.cycle with versions := versions, revision := row.cycle.revision + 1 }, some progress⟩

def CycleRow.reserved (row : CycleRow) : CycleRow :=
  { row with cycle := { row.cycle with revision := row.cycle.revision + 1 } }

def CycleRow.filled (progress : CycleProgress) (row : CycleRow) : CycleRow :=
  { row with progress := some progress }

inductive RowRequest where
  /-- `find`. -/
  | find (identity : ConsumerIdentity) (cycleId : String)
  /-- `uuid4().hex`. -/
  | uuid4
  /-- `datetime.now(UTC)`. -/
  | now
  /-- Write the versions and the progress of a cycle that is still at a revision. -/
  | saveVersions (cycleId : String) (revision : Nat) (versions : List Version)
      (progress : CycleProgress)
  /-- The preparation of a cycle under a key. -/
  | preparationOf (cycleId idempotencyKey : String)
  /-- How many preparations a cycle has. -/
  | preparationCount (cycleId : String)
  /-- `context`. -/
  | context (cycle : TestCycle)
  /-- The stored source of a script version. -/
  | scriptArtifact (cycleId : String) (snapshot : ExecutionSnapshot)
  /-- `reserve_revision`, together with inserting a preparation. -/
  | savePreparation (revision : Nat) (row : CycleExecutionPreparation)
  /-- The preparation of a cycle under its id. -/
  | preparation (cycleId preparationId : String)
  /-- Whether a preparation has a dispatch that may be running. -/
  | activeDispatch (preparationId : String)
  /-- `reserve_revision`, together with archiving a preparation. -/
  | saveArchive (revision : Nat) (row : CycleExecutionPreparation)
  /-- The histories of some cycles. -/
  | histories (identity : ConsumerIdentity) (ids : List String)
  /-- Write the progress of a cycle that is still at a revision. -/
  | saveProgress (cycleId : String) (revision : Nat) (progress : CycleProgress)

@[reducible] def RowRequest.Answer : RowRequest → Type
  | .find .. => Option TestCycle
  | .uuid4 => String
  | .now => Timestamp
  | .saveVersions .. => WriteAnswer TestCycle
  | .preparationOf .. => Option CycleExecutionPreparation
  | .preparationCount _ => Nat
  | .context _ => ExecutionContext
  | .scriptArtifact .. => Option StoredScript
  | .savePreparation .. => WriteAnswer CycleExecutionPreparation
  | .preparation .. => Option CycleExecutionPreparation
  | .activeDispatch _ => Bool
  | .saveArchive .. => WriteAnswer CycleExecutionPreparation
  | .histories .. => List TestCycle
  | .saveProgress .. => Bool

namespace RowStore

variable (s : RowStore) (revision : Nat)

def current? (id : String) (revision : Nat) : Option CycleRow :=
  s.rows.find? fun row => row.cycle.id == id && row.cycle.revision == revision

def change (id : String) (revision : Nat) (f : CycleRow → CycleRow) :
    RowStore :=
  { s with rows := s.rows.map fun row =>
      if row.cycle.id = id ∧ row.cycle.revision = revision then f row else row }

/-- The tables and the row after the versions of a cycle are written. -/
def withVersions (id : String) (revision : Nat) (versions : List Version)
    (progress : CycleProgress) : Option (RowStore × TestCycle) :=
  (s.current? id revision).map fun row =>
    (s.change id revision (CycleRow.edited versions progress),
      (CycleRow.edited versions progress row).cycle)

/-- The tables after a preparation is inserted, whose key may not be taken. -/
def withPreparation (p : CycleExecutionPreparation) :
    Option (RowStore × CycleExecutionPreparation) :=
  if s.preparations.any fun q => q.cycleId == p.cycleId && q.idempotencyKey == p.idempotencyKey then
    none
  else (s.current? p.cycleId revision).map fun _ =>
    let t := s.change p.cycleId revision CycleRow.reserved
    ({ t with preparations := t.preparations ++ [p] }, p)

/-- The tables after a preparation is archived. -/
def withArchive (p : CycleExecutionPreparation) :
    Option (RowStore × CycleExecutionPreparation) :=
  (s.current? p.cycleId revision).map fun _ =>
    let t := s.change p.cycleId revision CycleRow.reserved
    ({ t with preparations := t.preparations.map fun q => if q.id = p.id then p else q }, p)

/-- What may be told about a write, and what has become of the tables then. -/
def Wrote {α : Type} (refused : Prop) (written : Option (RowStore × α)) :
    WriteAnswer α → RowStore → Prop
  | .saved row, s' => written = some (s', row)
  | .conflict, s' => refused ∧ s' = s
  | .lost, s' => s' = s ∨ ∃ row, written = some (s', row)

/-- How the tables answer a request, and what becomes of them. What is read beside them is
    not determined by them. Progress is stored when the page is, so it may be lost after
    all. -/
def Answers : (r : RowRequest) → r.Answer → RowStore → Prop
  | .find identity id, a, s' =>
    a = ((s.rows.map CycleRow.cycle).find? fun c => c.id == id).filter (visible identity) ∧ s' = s
  | .saveVersions id revision versions progress, a, s' =>
    s.Wrote (s.current? id revision = none) (s.withVersions id revision versions progress) a s'
  | .preparationOf id key, a, s' =>
    a = s.preparations.find? (fun p => p.cycleId == id && p.idempotencyKey == key) ∧ s' = s
  | .preparationCount id, a, s' => a = s.preparations.countP (fun p => p.cycleId == id) ∧ s' = s
  | .savePreparation revision p, a, s' =>
    s.Wrote (s.current? p.cycleId revision = none) (s.withPreparation revision p) a s'
  | .preparation id preparationId, a, s' =>
    a = s.preparations.find? (fun p => p.id == preparationId && p.cycleId == id) ∧ s' = s
  | .saveArchive revision p, a, s' =>
    s.Wrote (s.current? p.cycleId revision = none) (s.withArchive revision p) a s'
  | .histories identity ids, a, s' =>
    a.Perm ((s.rows.map CycleRow.cycle).filter fun c => ids.contains c.id && visible identity c) ∧
      s' = s
  | .saveProgress id revision progress, a, s' =>
    if a = true then (s.current? id revision).isSome = true ∧
      (s' = s.change id revision (CycleRow.filled progress) ∨ s' = s)
    else s.current? id revision = none ∧ s' = s
  | _, _, s' => s' = s

end RowStore

end Apex.Persistence
