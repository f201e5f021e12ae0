import Apex.Auth.Identity
import Apex.Core.Action
import Apex.Domain.Cycles
import Apex.Services.EngineRuns
import Mathlib.Data.List.Dedup
import Mathlib.Data.List.Sort
import Mathlib.Data.String.Basic

/-!
# The Tables Of Applications

An application is a row with a unique name, and rows that link it to the projects that
test it. A request reads both, and what it writes is the difference to what it read: links
that are new are inserted, links that are not wanted any more are deleted.

A transaction is made whole or not at all, and a caller that is told of a failure does not
know which.

## Main definitions

* `Application`, `ProjectApplication`, `CatalogStore`: The rows and the tables.
* `CatalogReq`: What the handlers ask for.
* `CatalogStore.inserted`, `CatalogStore.updated`, `CatalogStore.archived`,
  `CatalogStore.deleted`: The transactions.
* `applicationScopeFilter`, `CatalogStore.IsPage`: The listing.
-/

namespace Apex.Persistence.Catalog

open Auth

open Services (Instant)

structure Application where
  id : String
  name : String
  description : Option String
  archivedAt : Option Instant
  deriving DecidableEq

structure ProjectApplication where
  projectId : String
  applicationId : String
  deriving DecidableEq

/-- An application with its links, as a session has loaded them. -/
structure LoadedApplication where
  row : Application
  projectIds : List String

structure CatalogStore where
  applications : List Application
  links : List ProjectApplication
  deriving DecidableEq

def CatalogStore.empty : CatalogStore := ⟨[], []⟩

def CatalogStore.find (s : CatalogStore) (id : String) : Option Application :=
  s.applications.find? fun app => app.id == id

variable (s : CatalogStore) (id : String)

/-- `Application.project_ids`: the projects of an application, in order. -/
def CatalogStore.projectIds : List String :=
  ((s.links.filter fun link => link.applicationId == id).map
    ProjectApplication.projectId).insertionSort (· ≤ ·)

def CatalogStore.linked (projectId : String) : Bool :=
  s.links.contains ⟨projectId, id⟩

inductive WriteError where
  | duplicateName
  | linkRace
  | inUse
  | failed
  deriving DecidableEq

/-- The links of an application to some projects. -/
def linksTo (projectIds : List String) : List ProjectApplication :=
  projectIds.map fun projectId => ⟨projectId, id⟩

def CatalogStore.inserted (app : Application) (projectIds : List String) :
    Except WriteError CatalogStore :=
  if (s.find app.id).isSome then .error .failed
  else if s.applications.any fun other => other.name == app.name then .error .duplicateName
  else .ok ⟨s.applications ++ [app], s.links ++ linksTo app.id projectIds⟩

/-- A column is written only if its value is not the one that was loaded. -/
def assigned {α : Type} [DecidableEq α] (loaded new current : α) : α :=
  if new = loaded then current else new

/-- The columns of an update, each if it is set. -/
structure ApplicationFields where
  name : Option String
  description : Option (Option String)

def ApplicationFields.write (fields : ApplicationFields) (loaded row : Application) :
    Application :=
  { row with
    name := (fields.name.map fun name => assigned loaded.name name row.name).getD row.name
    description := (fields.description.map fun description =>
      assigned loaded.description description row.description).getD row.description }

def added (loaded wanted : List String) : List String := wanted.filter fun p => !loaded.contains p

def removed (loaded wanted : List String) : List String := loaded.filter fun p => !wanted.contains p

/-- The difference to the links that were loaded is written. -/
def CatalogStore.relinked (loaded wanted : List String) :
    Except WriteError (List ProjectApplication) :=
  if (added loaded wanted).any (s.linked id) then .error .linkRace
  else .ok (s.links.filter (fun link =>
      !(link.applicationId == id && (removed loaded wanted).contains link.projectId))
    ++ linksTo id (added loaded wanted))

def rewritten (applications : List Application) (id : String) (f : Application → Application) :
    List Application := applications.map fun app => if app.id == id then f app else app

/-- A row is updated, and its links if they are set. -/
def CatalogStore.updated (app : LoadedApplication) (fields : ApplicationFields)
    (wanted : Option (List String)) : Except WriteError CatalogStore :=
  let applications := rewritten s.applications app.row.id (fields.write app.row)
  if (s.find app.row.id).isNone then .error .failed
  else if !decide ((applications.map Application.name).Nodup) then .error .duplicateName
  else
    match wanted with
    | none => .ok { s with applications := applications }
    | some wanted => do
        let links ← s.relinked app.row.id app.projectIds wanted
        pure ⟨applications, links⟩

def archivedRow (loaded : Application) (archivedAt : Option Instant) (row : Application) :
    Application :=
  { row with archivedAt := assigned loaded.archivedAt archivedAt row.archivedAt }

def CatalogStore.archived (app : LoadedApplication)
    (archivedAt : Option Instant) : Except WriteError CatalogStore :=
  if (s.find app.row.id).isNone then .error .failed
  else .ok { s with
    applications := rewritten s.applications app.row.id (archivedRow app.row archivedAt) }

/-- A row is deleted with its links; if it is gone, nothing happens. -/
def CatalogStore.deleted (app : LoadedApplication) : CatalogStore where
  applications := s.applications.filter fun row => row.id != app.row.id
  links := s.links.filter fun link => link.applicationId != app.row.id

inductive CatalogReq where
  | row (id : String)
  | links (id : String)
  | newId
  | now
  | insert (app : Application) (projectIds : List String)
  | update (app : LoadedApplication) (fields : ApplicationFields) (wanted : Option (List String))
  | setArchived (app : LoadedApplication) (archivedAt : Option Instant)
  | delete (app : LoadedApplication)

def CatalogAns : CatalogReq → Type
  | .row _ => Option Application
  | .links _ => List String
  | .newId => String
  | .now => Instant
  | .insert _ _ => Except WriteError Unit
  | .update _ _ _ => Except WriteError Unit
  | .setArchived _ _ => Except WriteError Unit
  | .delete _ => Except WriteError Unit

/-- What a caller is told of a transaction, and what becomes of the tables. -/
def commits (result : Except WriteError CatalogStore) (answer : Except WriteError Unit)
    (s' : CatalogStore) : Prop :=
  (answer = .ok () ∧ result = .ok s') ∨
    (∃ e, answer = .error e ∧ result = .error e ∧ s' = s) ∨
      (answer = .error .failed ∧ (s' = s ∨ result = .ok s'))

/-- How the database answers. Records that are kept may refer to an application, which is not
    deleted then. -/
def CatalogStore.responds : (r : CatalogReq) → CatalogAns r → CatalogStore → Prop
  | .row id, answer, s' => s' = s ∧ answer = s.find id
  | .links id, answer, s' => s' = s ∧ answer = s.projectIds id
  | .newId, _, s' => s' = s
  | .now, _, s' => s' = s
  | .insert app projectIds, answer, s' => commits s (s.inserted app projectIds) answer s'
  | .update app fields wanted, answer, s' => commits s (s.updated app fields wanted) answer s'
  | .setArchived app archivedAt, answer, s' => commits s (s.archived app archivedAt) answer s'
  | .delete app, answer, s' =>
    commits s (.ok (s.deleted app)) answer s' ∨
      ((s.find app.row.id).isSome = true ∧ answer = .error .inUse ∧ s' = s)

def CatalogStore.linkedTo (projectIds : List String) (app : Application) : Bool :=
  s.links.any fun link => link.applicationId == app.id && projectIds.contains link.projectId

def projectWide (scopes : List ScopeRef) : List String :=
  (scopes.filter fun scope => scope.appId.isNone).map fun scope => scope.projectId.value

/-- `application_scope_filter`; without clauses nothing is selected. -/
def CatalogStore.applicationScopeFilter (scopes : List ScopeRef) (app : Application) : Bool :=
  (!(projectWide scopes).isEmpty && s.linkedTo (projectWide scopes) app)
    || scopes.any fun scope =>
      match scope.appId with
      | none => false
      | some appId => !(projectWide scopes).contains scope.projectId.value
          && (app.id == appId.value && s.linkedTo [scope.projectId.value] app)

/-- The arguments of `list_applications`. -/
structure ListQuery where
  project : Option String
  visibleProjects : Option (List String)
  allowedScopes : Option (List ScopeRef)
  includeArchived : Bool

/-- The rows `list_applications` selects. -/
def CatalogStore.selects (q : ListQuery) (app : Application) : Bool :=
  q.project.all (fun project => s.linkedTo [project] app)
    && q.visibleProjects.all (fun projects => s.linkedTo projects app)
    && q.allowedScopes.all (fun scopes => s.applicationScopeFilter scopes app)
    && (q.includeArchived || app.archivedAt.isNone)

/-- A page of `list_applications`: a part of the selected rows in the order of their names, as
    the database collates them. -/
def CatalogStore.IsPage (order : LinearOrder String) (q : ListQuery) (limit offset : Nat)
    (page : List Application) : Prop :=
  ∃ rows : List Application, rows.Perm (s.applications.filter (s.selects q)) ∧
    rows.Pairwise (fun a b => order.le a.name b.name) ∧ page = (rows.drop offset).take limit

end Apex.Persistence.Catalog
