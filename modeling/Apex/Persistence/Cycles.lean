import Apex.Auth.Identity
import Apex.Core.Action
import Apex.Domain.Cycles

/-!
# The Table Of Cycles

A cycle is one row: its scope, its revision and the list of its versions. Every
write of the row names the revision it was prepared from and is refused if there has
been another since; the tables beside it are written in the same transaction.

A write may be made although its caller is never told. What a caller is told is one
of three: the row as it was written, that there has been another write, or nothing it
can use.

## Main definitions

* `TestCycle`, `ProviderScriptImport`: The rows.
* `CycleStore`: The tables, and the identifiers given out so far.
* `CycleRequest`: What the handlers ask for.
* `CycleStore.Answers`: How the tables, and the modules beside them, answer.
-/

namespace Apex.Persistence

open Auth Domain

inductive CycleMode where
  | live
  | simulation
  deriving DecidableEq, Repr

def CycleMode.value : CycleMode → String
  | live => "live"
  | simulation => "simulation"

structure TestCycle where
  id : String
  name : String
  projectId : String
  appId : String
  environmentId : String
  mode : CycleMode
  owner : String
  revision : Nat
  independentReview : Bool
  versions : List Version
  originCycleId : Option String
  originRequestKey : Option String
  originFingerprint : Option String
  deriving DecidableEq

structure Timestamp where
  instant : Int
  text : String
  deriving DecidableEq

structure ProviderScriptImport where
  cycleId : String
  versionId : String
  requestKey : String
  requestFingerprint : String
  connectionId : String
  connectionVersion : Timestamp
  remoteScriptId : String
  remoteName : String
  remoteProjectId : String
  remoteVersion : String
  sourceChecksum : String
  importedBy : String
  deriving DecidableEq

/-- `visibility`: the cycles an identity may see. -/
def visible (identity : ConsumerIdentity) (cycle : TestCycle) : Bool :=
  identity.isUnscoped || identity.scopes.any fun scope =>
    match scope.appId with
    | some app => cycle.projectId == scope.projectId.value && cycle.appId == app.value
    | none => cycle.projectId == scope.projectId.value

structure CycleStore where
  cycles : List TestCycle
  imports : List ProviderScriptImport
  issued : List String
  deriving DecidableEq

structure ConnectionChoice where
  id : String
  runtimeVersion : Timestamp

structure DocRef where
  revision : Option String
  id : String
  source : String
  uri : Option String

structure DocumentContent where
  title : Option String
  ref : DocRef
  mediaType : String
  text : String

/-- A result of an execution: what it is dumped to, with its checksum. -/
structure CycleResult where
  id : String
  evidenceChecksum : String
  dump : Dict Json

structure ProviderScriptExport where
  id : String
  name : String
  projectId : String
  version : String
  source : String
  sourceChecksum : String

inductive CycleRequest where
  /-- `find`. -/
  | find (identity : ConsumerIdentity) (cycleId : String)
  /-- `uuid4().hex`. -/
  | uuid4
  /-- `datetime.now(UTC)`. -/
  | now
  /-- Whether the environment of an active application of a project is there. -/
  | targetActive (projectId appId environmentId : String)
  /-- Insert a cycle. -/
  | insert (row : TestCycle)
  /-- Write the versions of a cycle that is still at a revision. -/
  | saveVersions (cycleId : String) (revision : Nat) (versions : List Version)
  /-- The views of the executions of a cycle that have one of some ids, by id. -/
  | results (cycle : TestCycle) (ids : List String)
  /-- The connections to document sources of a project. -/
  | sourceConnections (projectId : String)
  /-- A page of a source. -/
  | readSource (projectId : String) (connection : ConnectionChoice) (ref : DocRef)
  /-- The import of a cycle under a request key. -/
  | importOf (cycleId requestKey : String)
  /-- The connections to load-test providers of a project. -/
  | scriptConnections (projectId : String)
  /-- An export of a provider. -/
  | readExport (projectId connectionId : String) (generation : Timestamp) (remoteId : String)
  /-- Write the versions of a cycle together with the record of an import. -/
  | saveImport (revision : Nat) (versions : List Version) (record : ProviderScriptImport)
  /-- The cycle that was started from another under a request key. -/
  | childOf (parentId requestKey : String)
  /-- Raise the revision of a cycle together with inserting one started from it. -/
  | saveChild (parentId : String) (revision : Nat) (child : TestCycle)

inductive WriteAnswer (α : Type) where
  | saved (row : α)
  | conflict
  | lost

@[reducible] def CycleRequest.Answer : CycleRequest → Type
  | .find .. => Option TestCycle
  | .uuid4 => String
  | .now => Timestamp
  | .targetActive .. => Bool
  | .insert _ => WriteAnswer TestCycle
  | .saveVersions .. => WriteAnswer TestCycle
  | .results .. => List CycleResult
  | .sourceConnections _ => List ConnectionChoice
  | .readSource .. => Option DocumentContent
  | .importOf .. => Option ProviderScriptImport
  | .scriptConnections _ => List ConnectionChoice
  | .readExport .. => Option ProviderScriptExport
  | .saveImport .. => WriteAnswer ProviderScriptImport
  | .childOf .. => Option String
  | .saveChild .. => WriteAnswer TestCycle

namespace CycleStore

variable (s : CycleStore)

def get? (id : String) : Option TestCycle := s.cycles.find? fun c => c.id == id

def put (row : TestCycle) : CycleStore :=
  { s with cycles := s.cycles.map fun c => if c.id = row.id then row else c }

/-- The row that a write from a revision changes. -/
def current? (id : String) (revision : Nat) : Option TestCycle :=
  (s.get? id).filter fun c => c.revision == revision

/-- The tables and the row after the versions of a cycle are written. -/
def withVersions (id : String) (revision : Nat) (versions : List Version) :
    Option (CycleStore × TestCycle) :=
  (s.current? id revision).map fun row =>
    let row := { row with versions := versions, revision := revision + 1 }
    (s.put row, row)

/-- The same, with the record of an import, whose key may not be taken. -/
def withImport (revision : Nat) (versions : List Version)
    (record : ProviderScriptImport) : Option (CycleStore × ProviderScriptImport) :=
  if s.imports.any fun i => i.cycleId == record.cycleId && i.requestKey == record.requestKey then
    none
  else (s.withVersions record.cycleId revision versions).map fun result =>
    ({ result.1 with imports := result.1.imports ++ [record] }, record)

/-- The tables after a cycle is inserted, whose origin and key may not be taken. -/
def withCycle (row : TestCycle) : Option (CycleStore × TestCycle) :=
  if s.cycles.any (fun c => c.id == row.id || (row.originCycleId.isSome
      && c.originCycleId == row.originCycleId && c.originRequestKey == row.originRequestKey)) then
    none
  else some ({ s with cycles := s.cycles ++ [row] }, row)

/-- The tables after the revision of a cycle is raised and one started from it inserted. -/
def withChild (parentId : String) (revision : Nat) (child : TestCycle) :
    Option (CycleStore × TestCycle) :=
  (s.current? parentId revision).bind fun parent =>
    (s.put { parent with revision := revision + 1 }).withCycle child

/-- What may be told about a write, and what has become of the tables then. -/
def Wrote {α : Type} (refused : Prop) (written : Option (CycleStore × α)) :
    WriteAnswer α → CycleStore → Prop
  | .saved row, s' => written = some (s', row)
  | .conflict, s' => refused ∧ s' = s
  | .lost, s' => s' = s ∨ ∃ row, written = some (s', row)

/-- How the tables answer a request, and what becomes of them. What the modules beside
    them return is not determined by them. -/
def Answers : (r : CycleRequest) → r.Answer → CycleStore → Prop
  | .find identity id, a, s' => a = (s.get? id).filter (visible identity) ∧ s' = s
  | .uuid4, a, s' => a ∉ s.issued ∧ s' = { s with issued := a :: s.issued }
  | .insert row, a, s' => s.Wrote False (s.withCycle row) a s'
  | .saveVersions id revision versions, a, s' =>
    s.Wrote (s.current? id revision = none) (s.withVersions id revision versions) a s'
  | .importOf id key, a, s' =>
    a = s.imports.find? (fun i => i.cycleId == id && i.requestKey == key) ∧ s' = s
  | .saveImport revision versions record, a, s' =>
    s.Wrote (s.current? record.cycleId revision = none) (s.withImport revision versions record) a s'
  | .childOf id key, a, s' =>
    a = (s.cycles.find? fun c => c.originCycleId == some id && c.originRequestKey == some key).map
      TestCycle.id ∧ s' = s
  | .saveChild id revision child, a, s' =>
    s.Wrote (s.current? id revision = none) (s.withChild id revision child) a s'
  | _, _, s' => s' = s

end CycleStore

end Apex.Persistence
