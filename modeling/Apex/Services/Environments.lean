import Apex.Persistence.Environments

/-!
# Execution Targets

A run sends traffic only to a target that this resolution returns.

## Main definitions

* `EnvironmentTarget`: What a run is given.
* `resolveEnvironmentContext`, `resolveEnvironmentTarget`: The resolution.
-/

namespace Apex.Services

open Persistence.Catalog

structure EnvironmentTarget where
  projectId : String
  appId : String
  baseUrl : String
  version : Nat

/-- `EnvironmentTargetNotFoundError` and `EnvironmentTargetNotApprovedError`. -/
inductive EnvironmentTargetError where
  | notFound
  | notApproved

abbrev LoadedEnvironment := LoadedApplication × Environment

def resolveEnvironmentContext (env : Option LoadedEnvironment) (projectId appId : Option String) :
    Except EnvironmentTargetError (String × LoadedEnvironment) :=
  match env, projectId with
  | some (app, env), some projectId =>
    if app.row.archivedAt.isSome || !app.projectIds.contains projectId
        || appId.any (· != env.applicationId) then .error .notFound
    else .ok (projectId, app, env)
  | _, _ => .error .notFound

def resolveEnvironmentTarget (rules : EnvironmentRules) (env : Option LoadedEnvironment)
    (projectId appId : Option String) : Except EnvironmentTargetError EnvironmentTarget := do
  let (projectId, _, env) ← resolveEnvironmentContext env projectId appId
  raiseIf (targetRequiresRepair rules env.baseUrl env.options) .notApproved
  let baseUrl := strip (env.baseUrl.getD "")
  raiseIf (!env.targetApproved || baseUrl.isEmpty || env.targetVersion == 0) .notApproved
  raiseIf (!adapterUrlOk rules baseUrl env.options) .notApproved
  pure ⟨projectId, env.applicationId, baseUrl, env.targetVersion⟩

end Apex.Services
