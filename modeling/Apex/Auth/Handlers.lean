import Apex.Graphs.Pipeline.State
import Apex.Services.TestScope

/-!
# The Tenant Of A Thread

A thread of the native server carries its tenant in its metadata: a project and,
unless it belongs to the project as a whole, an app. The tenant is stamped when the
thread is created, from what the caller asked for and may have. Reading is a filter
on the metadata that the runtime applies.

A thread also carries whether a run may be created on it directly. That is derived
from the metadata of the creation: a thread of a launch belongs to the facade.

## Main definitions

* `ensureThreadScope`: The stamp of a thread.
* `requireLanggraphScope`: The app a request stands for.
* `scopeFilter`: What an identity may read.
* `Filter.matches`: Whether a filter lets a thread through.
* `requireDirectRunsAllowed`: The filter for a run that is created directly.
-/

namespace Apex.Auth.Handlers

open Domain Graphs

/-- `Auth.exceptions.HTTPException`. -/
structure HttpException where
  status : Nat
  detail : String

/-- What a handler returns, or the response it refuses with. -/
abbrev Handler := Except HttpException

/-- `_deny_authz`. -/
def denied (detail : String) : HttpException := ⟨403, detail⟩

/-- `_reject_invalid_request_input`. -/
def invalidRequestInput (detail : String) : HttpException :=
  ⟨422, "Invalid request input: " ++ detail⟩

def launchIdempotencyMetadataKeys : List String :=
  ["launch_idempotency_key", "launch_idempotency_fingerprint", "launch_request_intent",
    "launch_principal_id"]

def serverOwnedLaunchMetadataKeys : List String :=
  launchIdempotencyMetadataKeys ++
    ["apex_launch_root_fingerprint", "apex_rerun_claim", "apex_rerun_fingerprint"]

def directRunsAllowedMetadataKey : String := "apex_direct_runs_allowed"

variable (identity : ConsumerIdentity) (project : String) (metadata : Dict Json)
  (app : Option String)

/-- `_LAUNCH_IDEMPOTENCY_METADATA_KEYS.intersection(metadata)`, as a truth value. -/
def ofLaunch : Bool := launchIdempotencyMetadataKeys.any metadata.has

def rejectUntrustedLaunchMetadata (trustedLoopback : Bool) :
    Handler Unit :=
  let forged := serverOwnedLaunchMetadataKeys.filter metadata.has
  raiseIf (!forged.isEmpty && !trustedLoopback) (denied
    ("Launch idempotency metadata is server-owned and may only be set by the validated " ++
      "pipeline facade: " ++ String.intercalate ", " forged.mergeSort))

def maxLanggraphIdentifierChars : Nat := 255

/-- `_project_id`: an identifier is either absent or a canonical text. -/
def projectId : Json → Handler (Option String)
  | .null => .ok none
  | .str value =>
    if value.isEmpty || value != strip value
        || decide (maxLanggraphIdentifierChars < value.length) || hasNul value then
      .error ⟨422, "Invalid scope identifier: expected a non-empty, NUL-free string of at " ++
        "most 255 characters"⟩
    else .ok (some value)
  | _ => .error ⟨422, "Invalid scope identifier: expected a non-empty, NUL-free string of at " ++
      "most 255 characters"⟩

def hasProjectWideScope : Bool :=
  identity.scopes.any fun scope => scope.projectId.value == project && scope.appId.isNone

/-- `_app_ids_for_project`: the distinct apps, in declaration order. -/
def appIdsForProject : List String :=
  (identity.scopes.filterMap fun scope =>
    if scope.projectId.value == project then scope.appId.map ScopeId.value else none).eraseDups

def allowsLanggraphScope : Bool :=
  identity.isUnscoped ||
    match app with
    | none => hasProjectWideScope identity project
    | some app => identity.scopes.any fun scope =>
      scope.projectId.value == project
        && (scope.appId.isNone || scope.appId.map ScopeId.value == some app)

def appOutside (app : String) : HttpException :=
  denied ("App '" ++ app ++ "' in project '" ++ project ++ "' is outside this consumer's scopes")

/-- The app a request stands for: the one it names, none if the whole project may be had, or the
    only one there is. -/
def foundApp (refusal : HttpException) (identity : ConsumerIdentity) (project : String)
    (app : Option String) : Handler (Option String) :=
  match app with
  | some app => do
      raiseIf (!allowsLanggraphScope identity project (some app)) (appOutside project app)
      pure (some app)
  | none =>
    if hasProjectWideScope identity project then pure none
    else
      match appIdsForProject identity project with
      | [app] => pure (some app)
      | _ => throw refusal

def requireLanggraphScope : Handler (Option String) :=
  foundApp (denied "app_id is required for app-scoped consumers") identity project app

/-- The items of a document whose key is not the given one. -/
def dropKey (key : String) (d : Dict Json) : Dict Json := d.filterKeys fun k => k != key

/-- A tenant is written into a document; an absent app leaves no key behind. -/
def stamp (d : Dict Json) : Dict Json :=
  let d := d.set "project_id" (.str project)
  match app with
  | some app => d.set "app_id" (.str app)
  | none => dropKey "app_id" d

def threadProject (project : Option String) : Handler String :=
  match project with
  | some project => pure project
  | none =>
    match identity.scopedProjectIds with
    | [project] => pure project
    | _ => throw (denied "project_id metadata is required for scoped consumers")

def threadApp :
    Handler (Option String) :=
  foundApp (denied "app_id metadata is required for app-scoped consumers") identity project app

def ensureParticipants : Handler Unit :=
  if truthy (metadata.value "test_scope") then do
    let scope ← someOr ⟨500, "ValidationError"⟩ (modelValidate (metadata.value "test_scope"))
    raiseIf (!Services.TestScope.allowsTestScope identity scope)
      (denied "Access to every test participant is required")
  else pure ()

def ensureThreadScope :
    Handler (Dict Json) := do
  ensureParticipants identity metadata
  let project ← projectId (metadata.value "project_id")
  let app ← projectId (metadata.value "app_id")
  -- A platform administrator may select any tenant, and none.
  if identity.isUnscoped then pure metadata
  else
    let project ← threadProject identity project
    raiseIf (!identity.scopedProjectIds.contains project)
      (denied ("Project '" ++ project ++ "' is outside this consumer's scopes"))
    let app ← threadApp identity project app
    pure (stamp project app metadata)

/-- A conjunction of `$eq` conditions on the metadata. -/
abbrev Condition := Dict Json

/-- A filter: conditions that must all hold, and alternatives under `$or` of which one must. -/
structure Filter where
  conditions : Condition
  alternatives : Option (List Condition)

/-- `HandlerResult`: `None`, `False` or a filter. -/
inductive HandlerResult where
  | unrestricted
  | refused
  | filtered (filter : Filter)

/-- Whether every `$eq` condition holds of the metadata. -/
def conditionHolds (condition : Condition) (metadata : Dict Json) : Bool :=
  condition.items.all fun kv => metadata.get? kv.1 == some kv.2

def Filter.matches (filter : Filter) (metadata : Dict Json) : Bool :=
  conditionHolds filter.conditions metadata
    && filter.alternatives.all fun conditions => conditions.any (conditionHolds · metadata)

/-- Whether a result of a handler lets metadata through. -/
def HandlerResult.matches (result : HandlerResult) (metadata : Dict Json) : Bool :=
  match result with
  | unrestricted => true
  | refused => false
  | filtered filter => filter.matches metadata

def metadataFilter : Condition :=
  let condition := Dict.single "project_id" (.str project)
  match app with
  | some app => condition.set "app_id" (.str app)
  | none => condition

/-- `_scope_filters`: a project that is covered as a whole needs no filters for its apps. -/
def scopeFilters : List Condition :=
  let wide := (identity.scopes.filterMap fun scope =>
    if scope.appId.isNone then some scope.projectId.value else none).eraseDups
  let apps := (identity.scopes.filterMap fun scope =>
    if wide.contains scope.projectId.value then none
    else scope.appId.map fun app => (scope.projectId.value, app.value)).eraseDups
  wide.map (metadataFilter · none) ++ apps.map fun pair => metadataFilter pair.1 (some pair.2)

def scopeFilter : HandlerResult :=
  if identity.isUnscoped then .unrestricted
  else
    match scopeFilters identity with
    | [] => .refused
    | [condition] => .filtered ⟨condition, none⟩
    | conditions => .filtered ⟨∅, some conditions⟩

def requireDirectRunsAllowed (base : HandlerResult) : HandlerResult :=
  match base with
  | .refused => .refused
  | .unrestricted => .filtered ⟨.single directRunsAllowedMetadataKey (.bool true), none⟩
  | .filtered filter =>
    .filtered { filter with
      conditions := filter.conditions.set directRunsAllowedMetadataKey (.bool true) }

structure CatalogApplication where
  archived : Bool
  projectIds : List String

/-- The first truthy value of some fields, or the last. -/
def firstTruthy : List Json → Json
  | [] => .null
  | [v] => v
  | v :: vs => if truthy v then v else firstTruthy vs

/-- `_ensure_catalog_app_scope`, of the fields an app and a project are read from. -/
def ensureCatalogAppScope (application : String → Option CatalogApplication)
    (apps projects : List Json) : Handler Unit :=
  match firstTruthy apps, firstTruthy projects with
  | .str app, .str project =>
    raiseIf (app != "" && project != ""
      && (application app).all fun found => found.archived || !found.projectIds.contains project)
      (denied "app_id is not authorized for project_id")
  | _, _ => pure ()

/-- `resolve_test_scope`; the catalog is read by `contexts`. -/
def resolveTestScope (contexts : TestScopeV1 → Bool → Handler (Dict Json))
    (identity : ConsumerIdentity) (scope : TestScopeV1) (live : Bool) : Handler (Dict Json) := do
  raiseIf (!Services.TestScope.allowsTestScope identity scope)
    (denied "Access to every participating application is required")
  raiseIf (live && scope.trafficEntry.isNone)
    ⟨422, "Select a traffic entry participant for live execution"⟩
  contexts scope live

/-- What the creation of a thread asks its surroundings: the checks of the document, the catalog,
    the limit of a deployment and the table of bindings. -/
structure ThreadWorld where
  checkMetadata : Dict Json → Handler Unit
  validateAdmission : TestScopeV1 → Handler Unit
  application : String → Option CatalogApplication
  contexts : TestScopeV1 → Bool → Handler (Dict Json)
  persistTestScope : String → TestScopeV1 → Handler Unit

/-- `ThreadsCreate`. The metadata of a creation without any is absent. -/
structure ThreadsCreate where
  threadId : Json
  metadata : Option (Dict Json)

/-- `ensure_role(identity, Role.OPERATOR)`. -/
def ensureOperator : Handler Unit :=
  raiseIf (!identity.role.atLeast .operator) (denied "Requires role 'operator' or higher")

/-- A field of the metadata must agree with the primary participant. -/
def pinField (field expected : String) : Handler (Dict Json) := do
  raiseIf (metadata.value field != .null && metadata.value field != .str expected)
    ⟨422, field ++ " metadata must match the primary test participant"⟩
  pure (metadata.set field (.str expected))

/-- The part of a creation that is about a test scope. -/
def admitTopology (world : ThreadWorld) (identity : ConsumerIdentity) (threadId : Json)
    (metadata : Dict Json) : Handler (Dict Json × Option (String × TestScopeV1)) :=
  if truthy (metadata.value "test_scope") then do
    let topology ← someOr ⟨500, "ValidationError"⟩ (modelValidate (metadata.value "test_scope"))
    world.validateAdmission topology
    let _ ← resolveTestScope world.contexts identity topology false
    let metadata ← pinField metadata "project_id" topology.primary.projectId.value
    let metadata ← pinField metadata "app_id" topology.primary.applicationId.value
    match threadId with
    | .str thread => do
        raiseIf thread.isEmpty ⟨422, "Native thread identity is required for test_scope"⟩
        pure (metadata, some (thread, topology))
    | _ => throw ⟨422, "Native thread identity is required for test_scope"⟩
  else pure (metadata, none)

/-- What the server writes into the metadata of every thread. -/
def serverMetadata : Dict Json :=
  (metadata.set directRunsAllowedMetadataKey (.bool !(ofLaunch metadata))).set "created_by"
    (.str identity.consumerId)

/-- `on_threads_create`: the metadata of the thread, and the filter. -/
def onThreadsCreate (world : ThreadWorld) (identity : ConsumerIdentity) (trustedLoopback : Bool)
    (value : ThreadsCreate) : Handler (Dict Json × HandlerResult) := do
  ensureOperator identity
  let metadata := value.metadata.getD ∅
  checkSome world.checkMetadata value.metadata
  rejectUntrustedLaunchMetadata metadata trustedLoopback
  let (metadata, topology) ←
    admitTopology world identity value.threadId (serverMetadata identity metadata)
  let metadata ← ensureThreadScope identity metadata
  ensureCatalogAppScope world.application [metadata.value "app_id"] [metadata.value "project_id"]
  checkSome (fun bound => world.persistTestScope bound.1 bound.2) topology
  pure (metadata, scopeFilter identity)

end Apex.Auth.Handlers
