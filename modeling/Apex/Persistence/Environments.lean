import Apex.Routers.Catalog

/-!
# The Table Of Environments

An environment of an application may have an execution target: a URL, and among its options
the permission to reach private hosts. The row says whether this target is approved, and
counts its versions.

What is assigned to a column is written only if it is not equal to what was loaded.

## Main definitions

* `EnvironmentRules`: The checks of texts, options and URLs that are made elsewhere.
* `validateEnvironmentTargetMetadata`: What is checked of a row before it is written.
* `createRow`, `updateRow`: The rows that are to be committed.
-/

namespace Apex.Persistence.Catalog

open Routers.Catalog (CatalogEnv CatalogError boundedTextOk)

structure EnvironmentHost where
  hostname : String
  role : Option String

/-- `Environment`, with its hosts. -/
structure Environment where
  applicationId : String
  name : String
  kind : Option String
  baseUrl : Option String
  options : Dict Json
  targetApproved : Bool
  targetVersion : Nat
  hosts : List EnvironmentHost

def trustedPrivateHostOption : String := "_apex_trusted_private_host"

/-- `options.get(TRUSTED_PRIVATE_HOST_OPTION) is True`. -/
def trustsPrivateHost (options : Dict Json) : Bool :=
  match options.value trustedPrivateHostOption with
  | .bool true => true
  | _ => false

structure EnvironmentRules extends CatalogEnv where
  /-- `validate_json_object` returns. -/
  jsonObject : Dict Json → Bool
  /-- `reject_raw_secret_options` raises. -/
  secretOptions : Dict Json → Bool
  /-- `connection_options_require_repair`. -/
  repairOptions : Dict Json → Bool
  /-- `connection_url_requires_repair`. -/
  repairUrl : String → Bool
  /-- What `validate_adapter_base_url` accepts of a trimmed URL. -/
  adapterUrl : String → Option Bool → Bool

variable (rules : EnvironmentRules)

/-- `options.get(TRUSTED_PRIVATE_HOST_OPTION) is True or None`. -/
def allowPrivateHosts (options : Dict Json) : Option Bool :=
  if trustsPrivateHost options then some true else none

/-- `validate_adapter_base_url` returns. -/
def adapterUrlOk (url : String) (options : Dict Json) : Bool :=
  !url.isEmpty && url == strip url && decide (url.length ≤ 4096)
    && rules.adapterUrl url (allowPrivateHosts options)

def targetRequiresRepair (baseUrl : Option String) (options : Dict Json) : Bool :=
  baseUrl.any rules.repairUrl || rules.repairOptions options

def validateEnvironmentTargetMetadata (env : Environment) : Except CatalogError Unit := do
  raiseIf (rules.secretOptions env.options) (.failed "ValueError")
  raiseIf (targetRequiresRepair rules env.baseUrl env.options) (.failed "ValueError")
  raiseIf (env.baseUrl.any fun url =>
    !(boundedTextOk rules.toCatalogEnv 1 1024 url && adapterUrlOk rules url env.options))
    (.failed "ValueError")
  raiseIf (decide (2147483647 < env.targetVersion)) (.failed "ValueError")
  raiseIf (env.targetApproved && (env.baseUrl.isNone || env.targetVersion == 0))
    (.failed "ValueError")

/-- A host that `_build_hosts` accepts. -/
def hostOk (host : EnvironmentHost) : Bool :=
  boundedTextOk rules.toCatalogEnv 1 1024 host.hostname
    && host.role.all (boundedTextOk rules.toCatalogEnv 0 255)

def buildHosts (hosts : List EnvironmentHost) : Except CatalogError Unit :=
  raiseIf (decide (256 < hosts.length) || !hosts.all (hostOk rules)) (.failed "ValueError")

/-- What is checked of the texts of a row, and of its target. -/
def checkRow (env : Environment) : Except CatalogError Unit := do
  raiseIf (!boundedTextOk rules.toCatalogEnv 1 255 env.name) (.failed "ValueError")
  raiseIf (!env.kind.all (boundedTextOk rules.toCatalogEnv 0 64)) (.failed "ValueError")
  validateEnvironmentTargetMetadata rules env

/-- `create_environment`, up to the commit. -/
def createRow (env : Environment) : Except CatalogError Environment := do
  raiseIf (!boundedTextOk rules.toCatalogEnv 1 32 env.applicationId) (.failed "ValueError")
  checkRow rules env
  buildHosts rules env.hosts
  pure env

/-- The columns of an update, each if it is set. -/
structure EnvironmentChanges where
  name : Option String
  kind : Option (Option String)
  baseUrl : Option (Option String)
  options : Option (Dict Json)
  target : Option (Bool × Nat)

/-- The row in which the columns that are set have their new values. -/
def EnvironmentChanges.effective (changes : EnvironmentChanges) (env : Environment) :
    Environment :=
  { env with
    name := changes.name.getD env.name
    kind := changes.kind.getD env.kind
    baseUrl := changes.baseUrl.getD env.baseUrl
    options := changes.options.getD env.options
    targetApproved := (changes.target.map Prod.fst).getD env.targetApproved
    targetVersion := (changes.target.map Prod.snd).getD env.targetVersion }

/-- Options that are equal to those that were loaded are not written. -/
def assignedOptions (loaded options : Dict Json) : Dict Json :=
  if Json.pyEq (.ofDict options) (.ofDict loaded) then loaded else options

/-- `update_environment`, up to the commit. -/
def updateRow (env : Environment) (changes : EnvironmentChanges)
    (hosts : Option (List EnvironmentHost)) : Except CatalogError Environment := do
  let effective := changes.effective env
  checkRow rules effective
  checkSome (buildHosts rules) hosts
  pure { effective with
    options := assignedOptions env.options effective.options
    hosts := hosts.getD env.hosts }

end Apex.Persistence.Catalog
