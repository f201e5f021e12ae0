import Apex.Auth.Handlers
import Apex.Domain.InputLimits

/-!
# Drafts Of New Tests

A draft belongs to a project or to everybody, and its payload may name participants: pairs
of a project and an application. Who may read a draft has access to its project and to
every participant; who may write it must have the whole project.

A listing reads rows of the database in a fixed order. For an admin without scopes every
row counts, so the database cuts the page. For everybody else the rows are read a hundred
at a time, the visible ones are counted, and a listing that would have to read too many
rows is refused.

## Main definitions

* `Draft`, `DraftTable`: A row, and the table with its primary key.
* `participantsAllowed`, `visible`, `writable`: The rules on one row.
* `readModel`: What is shown of a row.
* `listAll`, `listDrafts`: The query and the listing.
* `getDraft`, `createDraft`, `updateDraft`, `deleteDraft`: The other handlers.
-/

namespace Apex.Routers.Drafts

open Auth Domain Graphs

open Auth.Handlers (HttpException Handler)

structure Draft where
  id : String
  title : String
  projectId : Option ScopeId
  payload : Dict Json
  createdBy : Option String
  createdAt : Option Int
  updatedAt : Int

/-- The rows by their primary key. -/
structure DraftTable where
  rows : List Draft
  ids : (rows.map Draft.id).Nodup

/-- The redaction, the text of floats, and the order of ids in the database. -/
structure DraftsEnv where
  rules : CredentialRules
  floatText : PyFloat → List Char
  idLe : String → String → Bool

structure DraftRead where
  id : String
  title : String
  projectId : Option String
  payload : Json
  createdBy : Option String
  createdAt : Option Int
  updatedAt : Int

/-- `bounded_diagnostic(text, max_chars=max(1, len(text)))`. -/
def redacted (rules : CredentialRules) (text : String) : String :=
  boundedDiagnostic rules text (max 1 text.length)

mutual

def redactLegacyDraftValue (rules : CredentialRules) : Json → Json
  | .dict items => .dict (redactLegacyItems rules items)
  | .list xs => .list (redactLegacyList rules xs)
  | .str text => .str (redacted rules text)
  | value => value

def redactLegacyList (rules : CredentialRules) : List Json → List Json
  | [] => []
  | x :: xs => redactLegacyDraftValue rules x :: redactLegacyList rules xs

/-- A key that is a credential, or would be redacted, is left out with its value. -/
def redactLegacyItems (rules : CredentialRules) : List (String × Json) → List (String × Json)
  | [] => []
  | (key, nested) :: items =>
    if rules.isCredentialField key || redacted rules key != key then redactLegacyItems rules items
    else (key, redactLegacyDraftValue rules nested) :: redactLegacyItems rules items

end

def publicDraftTitle (rules : CredentialRules) (title : String) : String :=
  boundedDiagnostic rules title (min (max 1 title.length) 1024)

/-- A payload that does not pass the limits of a new one is shown as empty. -/
def publicDraftPayload (env : DraftsEnv) (payload : Dict Json) : Json :=
  match InputLimits.validateJsonObject ⟨200000, 2000, 16, 255⟩ "legacy draft payload" env.floatText
      (.ofDict payload) with
  | .ok () => redactLegacyDraftValue env.rules (.ofDict payload)
  | .error _ => .dict []

def readModel (env : DraftsEnv) (draft : Draft) : DraftRead where
  id := draft.id
  title := publicDraftTitle env.rules draft.title
  projectId := draft.projectId.map ScopeId.value
  payload := publicDraftPayload env draft.payload
  createdBy := draft.createdBy
  createdAt := draft.createdAt
  updatedAt := draft.updatedAt

def getItem (items : List (String × Json)) (key : String) (default : Json) : Json :=
  (items.lookup key).getD default

variable (table : DraftTable) (identity : ConsumerIdentity)

/-- `allows_scope(project_id=project, app_id=app or None)` with whatever the payload holds as
    the application; no scope is narrowed to a value that is not a text. -/
def allowsParticipant (project : String) (app : Json) : Bool :=
  if truthy app then
    match app with
    | .str id => identity.allowsApp project (some id)
    | _ => identity.isUnscoped || identity.scopes.any fun scope =>
      scope.projectId.value == project && scope.appId.isNone
  else identity.allowsApp project none

/-- A row without a project may be there, but not with an application or an environment. -/
def participantAllowed : Json → Bool
  | .dict items =>
    let project := getItem items "project_id" .null
    let app := getItem items "application_id" .null
    if truthy project then
      match project with
      | .str id => allowsParticipant identity id app
      | _ => false
    else !(truthy app || truthy (getItem items "environment_id" .null))
  | _ => false

/-- `scope.get("test_scope")`, if the payload has a scope. -/
def topologyOf (payload : Dict Json) : Json :=
  match getItem payload.items "scope" (.dict []) with
  | .dict scope => getItem scope "test_scope" .null
  | _ => .null

def participantsAllowed (payload : Dict Json) : Bool :=
  identity.isUnscoped ||
    match topologyOf payload with
    | .null => true
    | .dict topology =>
      match getItem topology "participants" (.list []) with
      | .list participants => participants.all (participantAllowed identity)
      | _ => false
    | _ => false

def visible (draft : Draft) : Bool :=
  participantsAllowed identity draft.payload &&
    (identity.isUnscoped || draft.projectId.all fun project => identity.allowsProject project.value)

/-- Whether an identity has the whole audience of a draft. -/
def hasAudience : Option ScopeId → Bool
  | none => identity.isUnscoped
  | some project => identity.containsScope ⟨project, none⟩

def writable (draft : Draft) : Bool :=
  participantsAllowed identity draft.payload && hasAudience identity draft.projectId

def ensureCreateScope (projectId : Option ScopeId) : Handler Unit :=
  let audience := if projectId.isNone then "global" else "project-wide"
  raiseIf (!hasAudience identity projectId)
    ⟨403, s!"{audience} draft creation requires matching full-audience scope"⟩

def requireOperator : Handler Unit :=
  raiseIf (!identity.role.atLeast .operator) ⟨403, "Requires role 'operator' or higher"⟩

def ensureParticipants (payload : Dict Json) : Handler Unit :=
  raiseIf (!participantsAllowed identity payload)
    ⟨403, "Access to all draft participants is required"⟩

def draftNotFound : HttpException := ⟨404, "draft not found"⟩

def DraftTable.get (id : String) : Option Draft :=
  table.rows.find? fun draft => draft.id == id

/-- The row of an id, if a rule lets the identity have it. -/
def foundOr404 (rule : Draft → Bool) (id : String) : Handler Draft :=
  match table.get id with
  | none => .error draftNotFound
  | some draft => if rule draft then .ok draft else .error draftNotFound

def visibleOr404 : String → Handler Draft :=
  foundOr404 table (visible identity)

def writableOr404 : String → Handler Draft :=
  foundOr404 table (writable identity)

/-- Which parameters `list_all` has: none for a page, or a page and perhaps the scopes. -/
inductive Repository where
  | whole
  | paged (allowedScopes : Bool)

/-- `ORDER BY updated_at DESC, id`. -/
def comesBefore (env : DraftsEnv) (a b : Draft) : Bool :=
  decide (b.updatedAt < a.updatedAt) || (a.updatedAt == b.updatedAt && env.idLe a.id b.id)

/-- `project_id IS NULL OR project_id IN (...)`, if scopes are given. -/
def inScopes (allowedScopes : Option (List ScopeRef)) (draft : Draft) : Bool :=
  allowedScopes.all fun scopes => draft.projectId.all fun project =>
    scopes.any fun scope => scope.projectId == project

/-- `project_id = project`, if one is given. -/
def ofProject (project : Option ScopeId) (draft : Draft) : Bool :=
  project.all fun id => draft.projectId == some id

/-- The rows that the query selects, in its order. -/
def selectedRows (env : DraftsEnv) (table : DraftTable) (allowedScopes : Option (List ScopeRef))
    (project : Option ScopeId) : List Draft :=
  (table.rows.mergeSort (comesBefore env)).filter fun draft =>
    ofProject project draft && inScopes allowedScopes draft

/-- `list_all` with a page. -/
def listAll (env : DraftsEnv) (table : DraftTable) (allowedScopes : Option (List ScopeRef))
    (project : Option ScopeId) (limit offset : Nat) : List Draft :=
  ((selectedRows env table allowedScopes project).drop offset).take limit

/-- The page so far, and the visible rows so far. -/
structure Scan where
  result : List DraftRead
  visibleCount : Nat

section

variable (env : DraftsEnv) (rule : Draft → Bool) (limit offset : Nat)

/-- A visible row is counted, and shown if the rows before it are skipped. -/
def Scan.add (scan : Scan) (draft : Draft) : Scan where
  result :=
    if offset ≤ scan.visibleCount then scan.result ++ [readModel env draft] else scan.result
  visibleCount := scan.visibleCount + 1

/-- The rows of one batch are read, until the page is full. -/
def readBatch : List Draft → Scan → Bool × Scan
  | [], scan => (false, scan)
  | draft :: drafts, scan =>
    if rule draft then
      if (scan.add env offset draft).result.length = limit then
        (true, scan.add env offset draft)
      else readBatch drafts (scan.add env offset draft)
    else readBatch drafts scan

def unverifiable : HttpException :=
  ⟨503, "Draft visibility could not be fully verified; narrow the project filter"⟩

/-- The batches from an offset on, as many as are left. -/
def scanBatches (batch : Nat → List Draft) : Nat → Nat → Scan → Handler (List DraftRead)
  | 0, _, _ => .error unverifiable
  | left + 1, scanOffset, scan =>
    match readBatch env rule limit offset (batch scanOffset) scan with
    | (true, scan) => .ok scan.result
    | (false, scan) =>
      if (batch scanOffset).length < 100 then .ok scan.result
      else scanBatches batch left (scanOffset + 100) scan

end

def maxDbListOffset : Nat := 10000

/-- `len(range(0, MAX_DB_LIST_OFFSET + 100, 100))`. -/
def scanBatchCount : Nat := (maxDbListOffset + 100) / 100

def ensureProject (project : Option ScopeId) : Handler Unit :=
  raiseIf (!project.all fun id => identity.allowsApp id.value none)
    ⟨403, "project is outside this consumer's scopes"⟩

def ensurePage (limit offset : Int) : Handler Unit :=
  raiseIf (!(decide (1 ≤ limit ∧ limit ≤ 100) && decide (0 ≤ offset ∧ offset ≤ maxDbListOffset)))
    ⟨422, "request validation failed"⟩

def pageOf (env : DraftsEnv) (repo : Repository) (table : DraftTable) (identity : ConsumerIdentity)
    (project : Option ScopeId) (limit offset : Nat) : Handler (List DraftRead) :=
  match repo with
  | .whole => .ok (((((selectedRows env table none project).filter (visible identity)).drop
      offset).take limit).map (readModel env))
  | .paged allowedScopes =>
    if identity.isUnscoped then
      .ok (((listAll env table none project limit offset).filter (visible identity)).map
        (readModel env))
    else
      let scopes := if allowedScopes then some identity.scopes else none
      scanBatches env (visible identity) limit offset (listAll env table scopes project 100)
        scanBatchCount 0 ⟨[], 0⟩

def listDrafts (env : DraftsEnv) (repo : Repository) (table : DraftTable)
    (identity : ConsumerIdentity) (project : Option ScopeId) (limit offset : Int) :
    Handler (List DraftRead) := do
  ensurePage limit offset
  ensureProject identity project
  pageOf env repo table identity project limit.toNat offset.toNat

def getDraft (env : DraftsEnv) (table : DraftTable) (identity : ConsumerIdentity) (id : String) :
    Handler DraftRead :=
  readModel env <$> visibleOr404 table identity id

structure DraftCreateRequest where
  title : String
  projectId : Option ScopeId
  payload : Dict Json

/-- `DraftUpdateRequest`: the project is set, perhaps to null, or left as it is. -/
structure DraftUpdateRequest where
  title : String
  projectId : Option (Option ScopeId)
  payload : Dict Json

/-- A row is added, unless its key is taken. -/
def DraftTable.add (draft : Draft) : Handler DraftTable :=
  if h : draft.id ∈ table.rows.map Draft.id then .error ⟨500, "Internal Server Error"⟩
  else .ok ⟨draft :: table.rows, List.nodup_cons.mpr ⟨h, table.ids⟩⟩

/-- The row with the id of a draft becomes the draft. -/
def DraftTable.put (draft : Draft) : DraftTable where
  rows := table.rows.map fun row => if row.id = draft.id then draft else row
  ids := by
    rw [List.map_map]
    refine (congrArg List.Nodup (List.map_congr_left fun row _ => ?_)).mpr table.ids
    by_cases h : row.id = draft.id
    · rw [Function.comp_apply, if_pos h, h]
    · rw [Function.comp_apply, if_neg h]

def DraftTable.remove (id : String) : DraftTable where
  rows := table.rows.filter fun row => row.id != id
  ids := table.ids.sublist (List.Sublist.map _ List.filter_sublist)

/-- `create_draft` with the id and the time of the new row. -/
def createDraft (env : DraftsEnv) (table : DraftTable) (identity : ConsumerIdentity)
    (body : DraftCreateRequest) (id : String) (now : Int) : Handler (DraftRead × DraftTable) := do
  requireOperator identity
  ensureCreateScope identity body.projectId
  ensureParticipants identity body.payload
  let draft : Draft :=
    ⟨id, body.title, body.projectId, body.payload, some identity.name, some now, now⟩
  let table ← table.add draft
  pure (readModel env draft, table)

/-- A draft that is moved needs the scope of a new one. -/
def ensureMove (current next : Option ScopeId) : Handler Unit :=
  if next != current then ensureCreateScope identity next else .ok ()

def updateDraft (env : DraftsEnv) (table : DraftTable) (identity : ConsumerIdentity) (id : String)
    (body : DraftUpdateRequest) (now : Int) : Handler (DraftRead × DraftTable) := do
  requireOperator identity
  let current ← writableOr404 table identity id
  ensureParticipants identity body.payload
  let projectId := body.projectId.getD current.projectId
  ensureMove identity current.projectId projectId
  let draft := { current with
    title := body.title, projectId := projectId, payload := body.payload, updatedAt := now }
  pure (readModel env draft, table.put draft)

def deleteDraft (id : String) :
    Handler DraftTable := do
  requireOperator identity
  let draft ← writableOr404 table identity id
  pure (table.remove draft.id)

/-- A request that may write, with the id and the time of what it writes. -/
inductive WriteRequest where
  | create (body : DraftCreateRequest) (id : String) (now : Int)
  | update (id : String) (body : DraftUpdateRequest) (now : Int)
  | delete (id : String)

/-- The table after a request. A refused one changes nothing; the row is locked otherwise. -/
def serve (env : DraftsEnv) (table : DraftTable) (call : ConsumerIdentity × WriteRequest) :
    DraftTable :=
  let served : Handler DraftTable := match call.2 with
    | .create body id now => Prod.snd <$> createDraft env table call.1 body id now
    | .update id body now => Prod.snd <$> updateDraft env table call.1 id body now
    | .delete id => deleteDraft table call.1 id
  match served with
  | .ok after => after
  | .error _ => table

end Apex.Routers.Drafts
