import Apex.Services.Environments

/-!
# Changing An Environment

Operators create and change the environments of the applications they can access. Only an
unscoped admin may set or confirm an execution target, or touch a reserved option. Every
change of a target gives it a new version, and its approval is decided anew.

A request reads the row under a lock and commits one row, so requests take effect one after
another. A commit may fail, and leaves the row as it is.

## Main definitions

* `approveEnvironmentTarget`: Who may approve a target, and whether there is one.
* `createEnvironment`, `updateEnvironment`, `confirmEnvironmentTarget`: The handlers.
* `Requested`, `step`, `rowAfter`: The requests on one environment.
-/

namespace Apex.Routers.Catalog

open Auth Persistence.Catalog

open Services (LoadedEnvironment)

def isPlatformAdmin (identity : ConsumerIdentity) : Bool :=
  identity.role == .admin && identity.isUnscoped

variable (rules : EnvironmentRules)

def isReserved (key : String) : Bool := "_apex_".isPrefixOf key

def reservedForbidden : CatalogError :=
  .http 403 "Reserved _apex_ environment options require an unscoped platform admin"

def validateEnvironmentOptions (identity : ConsumerIdentity) (options : Dict Json) :
    Except CatalogError Unit := do
  raiseIf (rules.secretOptions options) (.http 422 "invalid environment options")
  raiseIf (rules.repairOptions options)
    (.http 422 "environment options contain unsafe credential-bearing configuration")
  raiseIf (!isPlatformAdmin identity && options.keys.any isReserved) reservedForbidden

def approveEnvironmentTarget (identity : ConsumerIdentity) (baseUrl : Option String)
    (options : Dict Json) : Except CatalogError Bool := do
  raiseIf (!isPlatformAdmin identity)
    (.http 403 "Execution targets require approval by an unscoped platform admin")
  match baseUrl with
  | none => pure false
  | some url =>
    if (strip url).isEmpty then pure false
    else do
      raiseIf (!adapterUrlOk rules url options) (.http 422 "invalid environment target")
      pure true

structure EnvironmentCreate where
  applicationId : String
  name : String
  kind : Option String
  baseUrl : Option String
  options : Dict Json
  hosts : List EnvironmentHost

/-- `EnvironmentUpdate`: what is set, which may be null. -/
structure EnvironmentUpdate where
  name : Option (Option String)
  kind : Option (Option String)
  baseUrl : Option (Option String)
  options : Option (Option (Dict Json))
  hosts : Option (Option (List EnvironmentHost))

/-- `validate_options`: null clears the object. -/
def EnvironmentUpdate.newOptions (body : EnvironmentUpdate) : Option (Dict Json) :=
  body.options.map (·.getD ∅)

/-- `hosts` of a body. -/
def acceptedHosts (hosts : List EnvironmentHost) : Bool :=
  decide (hosts.length ≤ 256) && hosts.all (hostOk rules)

/-- Whether `EnvironmentCreate` accepts a body. -/
def EnvironmentCreate.accepted (body : EnvironmentCreate) : Bool :=
  boundedTextOk rules.toCatalogEnv 1 32 body.applicationId
    && boundedTextOk rules.toCatalogEnv 1 255 body.name
    && body.kind.all (boundedTextOk rules.toCatalogEnv 0 64)
    && body.baseUrl.all (boundedTextOk rules.toCatalogEnv 1 1024)
    && rules.jsonObject body.options && acceptedHosts rules body.hosts

/-- Whether `EnvironmentUpdate` accepts a body; a name cannot be null. -/
def EnvironmentUpdate.accepted (body : EnvironmentUpdate) : Bool :=
  body.name.all (fun name => name.any (boundedTextOk rules.toCatalogEnv 1 255))
    && body.kind.all (·.all (boundedTextOk rules.toCatalogEnv 0 64))
    && body.baseUrl.all (·.all (boundedTextOk rules.toCatalogEnv 1 1024))
    && body.options.all (·.all rules.jsonObject)
    && body.hosts.all (·.all (acceptedHosts rules))

def invalidBody : CatalogError := .http 422 "Invalid request value"

def environmentNotFound : CatalogError := .http 404 "environment not found"

def operatorRequired : CatalogError := .http 403 "Requires role 'operator' or higher"

/-- The approval and the version of a target that is created. -/
def createdTarget (identity : ConsumerIdentity) (baseUrl : Option String)
    (options : Dict Json) : Except CatalogError (Bool × Nat) :=
  match baseUrl with
  | none => pure (false, 0)
  | some url => (·, 1) <$> approveEnvironmentTarget rules identity (some url) options

/-- `create_environment`, up to the commit. -/
def createEnvironment (identity : ConsumerIdentity) (body : EnvironmentCreate)
    (app : Option LoadedApplication) : Except CatalogError Environment := do
  raiseIf (!identity.role.atLeast .operator) operatorRequired
  raiseIf (!body.accepted rules) invalidBody
  raiseIf (!app.any (canAccessApplication identity)) applicationNotFound
  validateEnvironmentOptions rules identity body.options
  let target ← createdTarget rules identity body.baseUrl body.options
  createRow rules ⟨body.applicationId, body.name, body.kind, body.baseUrl, body.options,
    target.1, target.2, body.hosts⟩

/-- The environment that is loaded, if the caller can access it. -/
def accessibleEnvironment (identity : ConsumerIdentity) (env : Option LoadedEnvironment) :
    Except CatalogError Environment :=
  match env with
  | none => .error environmentNotFound
  | some (app, env) =>
    if canAccessApplication identity app then .ok env else .error environmentNotFound

def checkNewOptions (identity : ConsumerIdentity) (loaded options : Dict Json) :
    Except CatalogError Unit := do
  validateEnvironmentOptions rules identity options
  raiseIf (!isPlatformAdmin identity &&
    !Json.pyEq (.ofDict (loaded.filterKeys isReserved)) (.ofDict (options.filterKeys isReserved)))
    reservedForbidden

def targetFieldsChanged (body : EnvironmentUpdate) (env : Environment) : Bool :=
  body.baseUrl.isSome || body.newOptions.any fun options =>
    !Json.pyEq (options.value trustedPrivateHostOption) (env.options.value trustedPrivateHostOption)

/-- The approval and the version of a target that is changed. -/
def changedTarget (identity : ConsumerIdentity) (body : EnvironmentUpdate) (env : Environment) :
    Except CatalogError (Option (Bool × Nat)) :=
  if targetFieldsChanged body env then do
    let options := body.newOptions.getD env.options
    validateEnvironmentOptions rules identity options
    let approved ← approveEnvironmentTarget rules identity (body.baseUrl.getD env.baseUrl) options
    pure (some (approved, env.targetVersion + 1))
  else pure none

/-- `update_environment`, up to the commit. -/
def updateEnvironment (identity : ConsumerIdentity) (body : EnvironmentUpdate)
    (env : Option LoadedEnvironment) : Except CatalogError Environment := do
  raiseIf (!identity.role.atLeast .operator) operatorRequired
  raiseIf (!body.accepted rules) invalidBody
  let env ← accessibleEnvironment identity env
  checkSome (checkNewOptions rules identity env.options) body.newOptions
  let target ← changedTarget rules identity body env
  updateRow rules env
    ⟨body.name.join, body.kind, body.baseUrl, body.newOptions, target⟩ body.hosts.join

/-- `approve_environment_target`, up to the commit. -/
def confirmEnvironmentTarget (identity : ConsumerIdentity) (expectedTargetVersion : Nat)
    (env : Option LoadedEnvironment) : Except CatalogError Environment := do
  raiseIf (!identity.role.atLeast .admin) (.http 403 "Requires role 'admin' or higher")
  raiseIf (!isPlatformAdmin identity)
    (.http 403 "Execution targets require approval by an unscoped platform admin")
  let env ← accessibleEnvironment identity env
  raiseIf (env.targetVersion != expectedTargetVersion)
    (.http 409 "Environment target changed. Reload the environment before approving it.")
  validateEnvironmentOptions rules identity env.options
  let approved ← approveEnvironmentTarget rules identity env.baseUrl env.options
  raiseIf (!approved) (.http 422 "Set an execution target URL before approval")
  updateRow rules env ⟨none, none, none, none, some (true, env.targetVersion + 1)⟩ none

inductive EnvironmentRequest where
  | create (body : EnvironmentCreate)
  | update (body : EnvironmentUpdate)
  | approve (expectedTargetVersion : Nat)

/-- A request with what it meets: the application as it is loaded, and what the database says
    of the commit. -/
structure Requested where
  identity : ConsumerIdentity
  request : EnvironmentRequest
  app : LoadedApplication
  found : Bool
  commit : Except WriteError Unit

def prepared (row : Option Environment) (r : Requested) : Except CatalogError Environment :=
  match r.request with
  | .create body => createEnvironment rules r.identity body (if r.found then some r.app else none)
  | .update body => updateEnvironment rules r.identity body (row.map fun env => (r.app, env))
  | .approve version => confirmEnvironmentTarget rules r.identity version
      (row.map fun env => (r.app, env))

def commitError : WriteError → CatalogError
  | .duplicateName => .http 409 "environment name already exists on application"
  | _ => .failed "DBAPIError"

/-- What a caller is told, and the row after the request. Another environment that is created
    does not concern this one. -/
def step (row : Option Environment) (r : Requested) :
    Except CatalogError Environment × Option Environment :=
  match prepared rules row r with
  | .error e => (.error e, row)
  | .ok env =>
    match r.commit with
    | .error e => (.error (commitError e), row)
    | .ok () =>
      match r.request, row with
      | .create _, some old => (.ok env, some old)
      | _, _ => (.ok env, some env)

def rowAfter (row : Option Environment) (requests : List Requested) : Option Environment :=
  requests.foldl (fun row r => (step rules row r).2) row

end Apex.Routers.Catalog
