import Apex.Persistence.Catalog

/-!
# Sharing Applications

An application may be linked to several projects. Who may link and unlink a project must
have the whole project; who archives or deletes an application must have access to it
through every project that uses it; and links to projects that a caller cannot see are
kept as they are.

## Main definitions

* `canAccessApplication`, `canChangeEverywhere`, `requireProjectWide`: What an identity may.
* `createApplication`, `updateApplication`, `setApplicationArchived`, `deleteApplication`: The
  handlers.
-/

namespace Apex.Routers.Catalog

open Auth Domain Persistence.Catalog

open Services (Instant)
open Action (raiseWhen settle ask)

inductive CatalogError where
  | http (status : Nat) (detail : String)
  | failed (kind : String)
  deriving DecidableEq

abbrev CatalogM := Action CatalogReq CatalogAns CatalogError

def canAccessApplication (identity : ConsumerIdentity) (app : LoadedApplication) : Bool :=
  app.projectIds.any fun projectId => identity.allowsApp projectId (some app.row.id)

def canChangeEverywhere (identity : ConsumerIdentity) (app : LoadedApplication) : Bool :=
  app.projectIds.all fun projectId => identity.allowsApp projectId (some app.row.id)

def requireChangeEverywhere (identity : ConsumerIdentity) (app : LoadedApplication)
    (action : String) : CatalogM Unit :=
  raiseWhen (!canChangeEverywhere identity app)
    (.http 403 s!"{action} requires access through every project that uses it")

def projectWideScope (identity : ConsumerIdentity) (projectId : String) :
    Except CatalogError Bool := do
  let scope ← someOr (.failed "ValidationError") (scopeRef? projectId none)
  pure (identity.containsScope scope)

/-- `all(...)`, which does not look further once it is decided. -/
def allProjectWide (identity : ConsumerIdentity) : List String → Except CatalogError Bool
  | [] => .ok true
  | projectId :: projectIds => do
      if ← projectWideScope identity projectId then allProjectWide identity projectIds
      else pure false

def requireProjectWide (identity : ConsumerIdentity) (projectIds : List String)
    (action : String) : CatalogM Unit := do
  let wide ← settle (allProjectWide identity projectIds)
  raiseWhen (!wide) (.http 403 s!"{action} requires project-wide scope")

def requireRole (identity : ConsumerIdentity) (minimum : Role) (name : String) : CatalogM Unit :=
  raiseWhen (!identity.role.atLeast minimum) (.http 403 s!"Requires role '{name}' or higher")

/-- `reject_credential_text` raises. -/
structure CatalogEnv where
  rejects : String → Bool

variable (env : CatalogEnv)

def boundedTextOk (minimum maximum : Nat) (value : String) : Bool :=
  boundedText minimum maximum value && !env.rejects value

structure ApplicationCreate where
  projectIds : List ScopeId
  name : String
  description : Option String

/-- `ApplicationUpdate`: what is set. -/
structure ApplicationUpdate where
  name : Option String
  description : Option (Option String)
  projectIds : Option (List ScopeId)

def acceptedProjectIds (projectIds : List ScopeId) : Bool :=
  decide (1 ≤ projectIds.length) && decide (projectIds.length ≤ 64)

/-- Whether `ApplicationCreate` accepts a body. -/
def ApplicationCreate.accepted (body : ApplicationCreate) : Bool :=
  acceptedProjectIds body.projectIds && boundedTextOk env 1 255 body.name
    && body.description.all (boundedTextOk env 0 20000)

/-- Whether `ApplicationUpdate` accepts a body. -/
def ApplicationUpdate.accepted (body : ApplicationUpdate) : Bool :=
  body.projectIds.all acceptedProjectIds && body.name.all (boundedTextOk env 1 255)
    && body.description.all fun description => description.all (boundedTextOk env 0 20000)

def sortedSet (values : List String) : List String := values.dedup.insertionSort (· ≤ ·)

def validProjectIds (values : List String) : Except CatalogError (List String) := do
  raiseIf (values.isEmpty || decide (64 < values.length)) (.failed "ValueError")
  raiseIf (values.any fun value => !boundedTextOk env 1 255 value) (.failed "ValueError")
  pure (sortedSet values)

/-- The answer about an application that is not there, or not for this caller. -/
def applicationNotFound : CatalogError := .http 404 "application not found"

def askRow (id : String) : CatalogM (Option Application) := ask (CatalogReq.row id)

def askLinks (id : String) : CatalogM (List String) := ask (CatalogReq.links id)

/-- `get_application`: the row, and then its links. -/
def getApplication (id : String) : CatalogM (Option LoadedApplication) := do
  match ← askRow id with
  | none => pure none
  | some row =>
    let projectIds ← askLinks id
    pure (some ⟨row, projectIds⟩)

/-- The application, if the caller can access it. -/
def accessibleApplication (identity : ConsumerIdentity) (id : String) :
    CatalogM LoadedApplication := do
  match ← getApplication id with
  | none => throw applicationNotFound
  | some app =>
    raiseWhen (!canAccessApplication identity app) applicationNotFound
    pure app

/-- `ApplicationOut`, of an application as it was refreshed: only the projects a scoped caller may
    access. -/
def applicationOut (identity : ConsumerIdentity) (app : LoadedApplication) : LoadedApplication :=
  if identity.isUnscoped then app
  else { app with projectIds := app.projectIds.filter identity.scopedProjectIds.contains }

/-- What a handler makes of what it is told, and the refreshed application. -/
def refreshed (identity : ConsumerIdentity) (id : String) (answer : Except WriteError Unit) :
    CatalogM LoadedApplication := do
  match answer with
  | .error .duplicateName => throw (.http 409 "application name already exists")
  | .error .linkRace =>
    throw (.http 409 "application projects changed concurrently; reload and retry")
  | .error .inUse =>
    throw (.http 409 "Application is referenced by retained records; archive it instead")
  | .error .failed => throw (.failed "DBAPIError")
  | .ok () =>
    match ← getApplication id with
    | none => throw (.failed "InvalidRequestError")
    | some app => pure (applicationOut identity app)

def askInsert (app : Application) (projectIds : List String) : CatalogM (Except WriteError Unit) :=
  ask (CatalogReq.insert app projectIds)

def createApplication (identity : ConsumerIdentity) (body : ApplicationCreate) :
    CatalogM LoadedApplication := do
  requireRole identity .operator "operator"
  raiseWhen (!body.accepted env) (.http 422 "Invalid request value")
  let projectIds := body.projectIds.map ScopeId.value
  requireProjectWide identity projectIds "application creation"
  let projects ← settle (validProjectIds env projectIds)
  let id ← (ask CatalogReq.newId : CatalogM String)
  let answer ← askInsert ⟨id, body.name, body.description, none⟩ projects
  refreshed identity id answer

/-- The links a caller wants: those it cannot see are kept as they are. -/
def wantedProjects (identity : ConsumerIdentity) (app : LoadedApplication)
    (projectIds : List String) : List String :=
  if identity.isUnscoped then projectIds
  else
    let hidden := app.projectIds.filter fun projectId =>
      !identity.scopedProjectIds.contains projectId
    sortedSet (projectIds ++ hidden)

/-- `set(wanted) ^ set(app.project_ids)`, sorted. -/
def changedProjects (app : LoadedApplication) (wanted : List String) : List String :=
  sortedSet (added app.projectIds wanted ++ removed app.projectIds wanted)

def askUpdate (app : LoadedApplication) (fields : ApplicationFields)
    (wanted : Option (List String)) : CatalogM (Except WriteError Unit) :=
  ask (CatalogReq.update app fields wanted)

/-- The links that are to be written, if they are set. -/
def preparedLinks (identity : ConsumerIdentity) (app : LoadedApplication) :
    Option (List ScopeId) → CatalogM (Option (List String))
  | none => pure none
  | some projectIds => do
      let wanted := wantedProjects identity app (projectIds.map ScopeId.value)
      requireProjectWide identity (changedProjects app wanted) "linking or unlinking projects"
      let projects ← settle (validProjectIds env wanted)
      pure (some projects)

def updateApplication (identity : ConsumerIdentity) (id : String) (body : ApplicationUpdate) :
    CatalogM LoadedApplication := do
  requireRole identity .operator "operator"
  raiseWhen (!body.accepted env) (.http 422 "Invalid request value")
  let app ← accessibleApplication identity id
  let wanted ← preparedLinks env identity app body.projectIds
  let answer ← askUpdate app ⟨body.name, body.description⟩ wanted
  refreshed identity id answer

def askSetArchived (app : LoadedApplication) (archivedAt : Option Instant) :
    CatalogM (Except WriteError Unit) := ask (CatalogReq.setArchived app archivedAt)

def archivingTime : Bool → CatalogM (Option Instant)
  | false => pure none
  | true => do
      let now ← (ask CatalogReq.now : CatalogM Instant)
      pure (some now)

/-- `archive_application` and `unarchive_application`. -/
def setApplicationArchived (identity : ConsumerIdentity) (id : String) (archived : Bool) :
    CatalogM LoadedApplication := do
  requireRole identity .operator "operator"
  let app ← accessibleApplication identity id
  requireChangeEverywhere identity app
    (if archived then "archiving a shared application" else "unarchiving a shared application")
  let archivedAt ← archivingTime archived
  let answer ← askSetArchived app archivedAt
  refreshed identity id answer

def askDelete (app : LoadedApplication) : CatalogM (Except WriteError Unit) :=
  ask (CatalogReq.delete app)

def deleteApplication (identity : ConsumerIdentity) (id : String) : CatalogM LoadedApplication := do
  requireRole identity .admin "admin"
  let app ← accessibleApplication identity id
  requireChangeEverywhere identity app "deleting a shared application"
  match ← askDelete app with
  | .ok () => pure app
  | .error .inUse =>
    throw (.http 409 "Application is referenced by retained records; archive it instead")
  | .error _ => throw (.failed "DBAPIError")

inductive CatalogRequest where
  | create (body : ApplicationCreate)
  | update (id : String) (body : ApplicationUpdate)
  | archive (id : String)
  | unarchive (id : String)
  | delete (id : String)

def handleCatalog (identity : ConsumerIdentity) : CatalogRequest → CatalogM LoadedApplication
  | .create body => createApplication env identity body
  | .update id body => updateApplication env identity id body
  | .archive id => setApplicationArchived identity id true
  | .unarchive id => setApplicationArchived identity id false
  | .delete id => deleteApplication identity id

/-- The arguments `list_applications` is called with for an identity. -/
def listQuery (identity : ConsumerIdentity) (project : Option String) (includeArchived : Bool) :
    ListQuery where
  project := project
  visibleProjects := if identity.isUnscoped then none else some identity.scopedProjectIds
  allowedScopes := if identity.isUnscoped then none else some identity.scopes
  includeArchived := includeArchived

end Apex.Routers.Catalog
