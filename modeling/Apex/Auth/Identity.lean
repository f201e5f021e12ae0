import Apex.Core.Text

/-!
# The Identity Of A Consumer

An identity is an API consumer: an ordered role and the projects and apps it may
act on. An admin without scopes is a platform administrator and may act
everywhere; everybody else without scopes may act nowhere.

Access and delegation differ. An identity that is narrowed to one app may read
what belongs to the project as a whole, but may not hand out the whole project.

## Main definitions

* `Role`, `ScopeRef`, `ConsumerIdentity`: The data.
* `ScopeId`: An identifier of a project or an app, which is canonical.
* `scopeRef?`: The scope that two texts denote.
* `ConsumerIdentity.allowsApp`: Whether a resource may be accessed.
* `ConsumerIdentity.containsScope`: Whether a scope may be handed out.

## Theorems

* `scopeRef?_values`: The texts of a scope denote it.
-/

namespace Apex.Auth

open Option

inductive ConsumerType where
  | dashboard
  | headless
  | internal
  deriving DecidableEq

/-- `Role`, ordered: viewer, operator, admin. -/
inductive Role where
  | viewer
  | operator
  | admin
  deriving DecidableEq

def Role.rank : Role → Nat
  | viewer => 0
  | operator => 1
  | admin => 2

def Role.atLeast (role minimum : Role) : Bool := decide (minimum.rank ≤ role.rank)

def maxScopeIdChars : Nat := 255

/-- A text that `ScopeId` accepts as it is. -/
structure IsScopeId (value : String) : Prop where
  trimmed : strip value = value
  nonempty : 1 ≤ value.length
  bounded : value.length ≤ maxScopeIdChars
  plain : hasNul value = false

structure ScopeId where
  value : String
  canonical : IsScopeId value
  deriving DecidableEq

theorem ScopeId.value_injective : Function.Injective ScopeId.value := by
  rintro ⟨a, ha⟩ ⟨b, hb⟩ h
  cases h
  rfl

/-- `ScopeId` strips a text before it bounds it. -/
def scopeId? (value : String) : Option ScopeId :=
  if h : 1 ≤ (strip value).length ∧ (strip value).length ≤ maxScopeIdChars
      ∧ hasNul (strip value) = false then
    some ⟨strip value, strip_strip value, h.1, h.2.1, h.2.2⟩
  else none

theorem scopeId?_value (id : ScopeId) : scopeId? id.value = some id := by
  rcases id with ⟨value, htrimmed, hnonempty, hbounded, hplain⟩
  simp only [scopeId?, htrimmed, hnonempty, hbounded, hplain, and_self, dite_true]

structure ScopeRef where
  projectId : ScopeId
  appId : Option ScopeId
  deriving DecidableEq

/-- `ScopeRef(project_id=..., app_id=...)`. -/
def scopeRef? (projectId : String) : Option String → Option ScopeRef
  | none => (scopeId? projectId).map fun project => ⟨project, none⟩
  | some appId => (scopeId? projectId).bind fun project =>
    (scopeId? appId).map fun app => ⟨project, some app⟩

theorem scopeRef?_values (scope : ScopeRef) :
    scopeRef? scope.projectId.value (scope.appId.map ScopeId.value) = some scope := by
  rcases scope with ⟨project, _ | app⟩
  · simp only [map_none, scopeRef?, scopeId?_value, map_some]
  · simp only [map_some, scopeRef?, scopeId?_value, bind_some]

structure ConsumerIdentity where
  consumerId : String
  name : String
  consumerType : ConsumerType
  role : Role
  scopes : List ScopeRef

namespace ConsumerIdentity

variable (identity : ConsumerIdentity)

/-- `is_unscoped`: admins with no explicit scopes may act on every project. -/
def isUnscoped : Bool :=
  identity.role == .admin && identity.scopes.isEmpty

/-- `scoped_project_ids`: the distinct projects, in declaration order. -/
def scopedProjectIds : List String :=
  (identity.scopes.map fun scope => scope.projectId.value).eraseDups

def allowsProject (projectId : String) : Bool :=
  identity.isUnscoped || identity.scopedProjectIds.contains projectId

/-- `allows_app`: a resource of a project without an app needs any scope of the project. -/
def allowsApp (projectId : String) : Option String → Bool
  | none => identity.isUnscoped || identity.allowsProject projectId
  | some appId => identity.isUnscoped || identity.scopes.any fun scope =>
    scope.projectId.value == projectId
      && (scope.appId.isNone || scope.appId.map ScopeId.value == some appId)

/-- `contains_scope`: a whole project is handed out only by who has the whole project. -/
def containsScope (scope : ScopeRef) : Bool :=
  identity.isUnscoped ||
    match scope.appId with
    | none => identity.scopes.any fun own => own.projectId == scope.projectId && own.appId.isNone
    | some appId => identity.scopes.any fun own =>
      own.projectId == scope.projectId && (own.appId.isNone || own.appId == some appId)

end ConsumerIdentity

end Apex.Auth
