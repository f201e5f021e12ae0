import Apex.Core.Check
import Apex.Core.Comparison
import Apex.Domain.Deliverables

/-!
# The Versions Of A Cycle

A cycle is a list of versions of documents, and it only grows: an edit appends a
version that replaces an earlier one, and a review changes the status of a version
but not its content. A draft may be taken over into the next cycle, where it has a
new id and remembers where it came from.

What was captured of executions and sources is part of the content, and an edit must
carry it along as it is. Whether it did is decided by the comparison of the language;
the operations that capture evidence are trusted and not asked.

## Main definitions

* `Version`, `VersionCreate`, `CycleAction`: The data.
* `addVersion`: An edit.
* `reuseDrafts`: What is taken over into the next cycle.
* `approvalCurrent`: Whether an approval still stands.
-/

namespace Apex.Domain

inductive VersionStatus where
  | draft
  | inReview
  | approved
  deriving DecidableEq, Repr

def VersionStatus.value : VersionStatus → String
  | draft => "draft"
  | inReview => "in_review"
  | approved => "approved"

inductive ReviewAction where
  | submit
  | approve
  | requestRevision
  | archive
  | restore
  deriving DecidableEq, Repr

def ReviewAction.value : ReviewAction → String
  | submit => "submit"
  | approve => "approve"
  | requestRevision => "request_revision"
  | archive => "archive"
  | restore => "restore"

structure Review where
  action : ReviewAction
  actor : String
  note : String
  «at» : String
  deriving DecidableEq

structure VersionOrigin where
  cycleId : String
  versionId : String
  checksum : String
  deriving DecidableEq

structure Version where
  id : String
  kind : Kind
  title : String
  content : Dict Json
  checksum : String
  dependencies : List String
  replaces : Option String
  changeSummary : String
  status : VersionStatus
  createdBy : String
  createdAt : String
  archived : Bool
  reviews : List Review
  origin : Option VersionOrigin
  deriving DecidableEq

def Version.snapshot (v : Version) : Json := v.content.value executionEvidenceKey

def Version.sources (v : Version) : Json := v.content.value sourceEvidenceKey

def optionalText : Option String → Json
  | some s => .str s
  | none => .null

def Review.toJson (r : Review) : Json :=
  .ofDict ((((Dict.single "action" (Json.str r.action.value)).set "actor" (.str r.actor)).set
    "note" (.str r.note)).set "at" (.str r.at))

def Version.toJson (v : Version) : Json :=
  let base := (((((((((((((Dict.single "id" (Json.str v.id)).set "kind" (.str v.kind.value)).set
    "title" (.str v.title)).set
    "content" (.ofDict v.content)).set
    "checksum" (.str v.checksum)).set
    "dependencies" (.list (v.dependencies.map .str))).set
    "replaces" (optionalText v.replaces)).set
    "change_summary" (.str v.changeSummary)).set
    "status" (.str v.status.value)).set
    "created_by" (.str v.createdBy)).set
    "created_at" (.str v.createdAt)).set
    "archived" (.bool v.archived)).set
    "reviews" (.list (v.reviews.map Review.toJson)))
  match v.origin with
  | none => .ofDict base
  | some o => .ofDict (base.set "origin" (.ofDict (((Dict.single "cycle_id"
      (Json.str o.cycleId)).set "version_id" (.str o.versionId)).set
      "checksum" (.str o.checksum))))

variable (env : CyclesEnv) (versions : List Version) (r : VersionCreate) (id actor : String)

/-- The version of an id: the last one, as in a dictionary built from a list. -/
def byId : Option Version :=
  versions.reverse.find? fun v => v.id == id

theorem byId_mem {versions : List Version} {id : String} {v : Version}
    (h : byId versions id = some v) : v ∈ versions ∧ v.id = id := by
  have hid := List.find?_some h
  exact ⟨List.mem_reverse.mp (List.mem_of_find?_eq_some h), beq_iff_eq.mp hid⟩

/-- Whether some version replaces that of an id. -/
def superseded : Bool :=
  versions.any fun v => v.replaces == some id

def versionDigest (content : Dict Json) : String :=
  env.sha256 (env.canonicalJson content)

def contentIntegrity (v : Version) : Bool :=
  versionDigest env v.content == v.checksum

/-- `all(...)` of a test that remembers: it stops at the first failure. -/
def allRemembering {σ : Type} (test : σ → String → Bool × σ) : σ → List String → Bool × σ
  | memo, [] => (true, memo)
  | memo, key :: keys =>
    let result := test memo key
    if result.1 then allRemembering test result.2 keys else result

/-- `current` of `approval_current`. Every key that is opened is remembered, as not
    current while its dependencies are looked at, so no key is opened twice and a chain
    of opened keys is no longer than the list of versions. -/
def currentFrom :
    Nat → List (String × Bool) → String → Bool × List (String × Bool)
  | 0, memo, key => ((memo.lookup key).getD false, memo)
  | fuel + 1, memo, key =>
    match memo.lookup key with
    | some known => (known, memo)
    | none =>
      let memo := (key, false) :: memo
      match byId versions key with
      | none => (false, memo)
      | some target =>
        if target.status != .approved || target.archived || superseded versions key
            || !contentIntegrity env target
            || !(contentIssues env target.kind target.content).isEmpty then
          (false, memo)
        else
          let result := allRemembering (currentFrom fuel) memo target.dependencies
          (result.1, (key, result.1) :: result.2)

def approvalCurrent : Bool :=
  (currentFrom env versions (versions.length + 1) [] id).1

structure VersionCreate where
  expectedRevision : Nat
  kind : Kind
  title : String
  content : Dict Json
  dependencies : List String := []
  replaces : Option String := none
  changeSummary : String

/-- `NoNulStr` of a bounded length. -/
def boundedText (minimum maximum : Nat) (s : String) : Bool :=
  decide (minimum ≤ s.length) && decide (s.length ≤ maximum) && !hasNul s

/-- `model_dump` of a request. -/
def VersionCreate.dump : Json :=
  .ofDict (((((((Dict.single "expected_revision" (Json.int r.expectedRevision)).set
    "kind" (.str r.kind.value)).set
    "title" (.str r.title)).set
    "content" (.ofDict r.content)).set
    "dependencies" (.list (r.dependencies.map .str))).set
    "replaces" (optionalText r.replaces)).set
    "change_summary" (.str r.changeSummary))

def VersionCreate.accepted : Bool :=
  decide (1 ≤ r.expectedRevision) && boundedText 1 255 r.title
    && decide (r.dependencies.length ≤ 100) && r.dependencies.all (fun d => !hasNul d)
    && r.replaces.all (boundedText 0 32) && boundedText 1 2000 r.changeSummary
    && env.jsonObjectOk r.content 150000 4000 && !env.credentials r.dump
    && decide r.dependencies.Nodup

/-- `if request.replaces`: an empty id replaces nothing. -/
def VersionCreate.replaced : Option String := r.replaces.filter (· != "")

/-- The check of the version that a request replaces. -/
def checkReplaced :
    Except String Unit := do
  let previous ← someOr "replacement must refer to a version of the same deliverable kind"
    (byId versions id)
  raiseIf (previous.kind != r.kind)
    "replacement must refer to a version of the same deliverable kind"
  raiseIf (!contentIntegrity env previous)
    "Previous version content does not match its recorded checksum"
  raiseIf (superseded versions id) "version has already been superseded; refresh before editing"

/-- Whether a request does not carry the evidence of one kind along: it has none where
    there is some, or other than there is, or under another kind of document. -/
def tampered (previous : Option Version) (key : String) (kind : Kind) :
    Bool :=
  let frozen := (previous.bind fun v => v.content.get? key).getD .null
  let supplied := r.content.value key
  (r.content.has key && supplied == .null) || !Json.pyEq supplied frozen
    || (supplied != .null && r.kind != kind)

/-- The check of the evidence a request carries along, unless it is trusted. -/
def checkFrozen (trustedEvidence : Bool) :
    Except String Unit :=
  let previous := r.replaced.bind (byId versions)
  raiseIf (!trustedEvidence && (tampered r previous executionEvidenceKey .report
      || tampered r previous sourceEvidenceKey .scope))
    "Frozen evidence can only be captured by its evidence operation"

/-- The check of the approvals a request rests on. -/
def checkDependencies :
    List String → Except String Unit
  | [] => .ok ()
  | dependency :: rest => do
      raiseIf ((byId versions dependency).isNone || !approvalCurrent env versions dependency)
        "upstream versions must be approved and active"
      raiseIf (superseded versions dependency) "upstream version has been superseded"
      checkDependencies rest

def draftVersion (id createdAt : String) : Version where
  id := id
  kind := r.kind
  title := r.title
  content := r.content
  checksum := versionDigest env r.content
  dependencies := r.dependencies
  replaces := r.replaces
  changeSummary := r.changeSummary
  status := .draft
  createdBy := actor
  createdAt := createdAt
  archived := false
  reviews := []
  origin := none

/-- `add_version`, given the id and the time it is stored under. -/
def addVersion (trustedEvidence : Bool) (id createdAt : String) : Except String Version := do
  checkSome (checkReplaced env versions r) r.replaced
  checkFrozen versions r trustedEvidence
  checkDependencies env versions r.dependencies
  pure (draftVersion env r actor id createdAt)

structure CycleAction where
  expectedRevision : Nat
  action : ReviewAction
  versionId : String
  note : String

def ReviewAction.expected : ReviewAction → VersionStatus
  | submit => .draft
  | _ => .inReview

def ReviewAction.result : ReviewAction → VersionStatus
  | submit => .inReview
  | approve => .approved
  | _ => .draft

/-- Whether the approval of what a version rests on is gone. -/
def upstreamStale (dependency : String) : Bool :=
  match versions.find? fun v => v.id == dependency with
  | none => true
  | some upstream => !approvalCurrent env versions dependency || upstream.archived
      || superseded versions dependency

/-- The checks of a review that is no archiving. -/
def checkReview (a : CycleAction) (actor : String) (independentReview : Bool)
    (target : Version) : Except String Unit := do
  raiseIf (target.archived || superseded versions target.id)
    "archived or superseded versions cannot be reviewed"
  raiseIf (target.status != a.action.expected)
    ("action requires " ++ a.action.expected.value ++ " status")
  raiseIf ((a.action == .submit || a.action == .approve) && !contentIntegrity env target)
    "Version content does not match its recorded checksum"
  raiseIf ((a.action == .submit || a.action == .approve)
      && !(contentIssues env target.kind target.content).isEmpty)
    ("Complete the deliverable before review: "
      ++ "; ".intercalate (contentIssues env target.kind target.content))
  raiseIf (a.action == .approve && independentReview && actor == target.createdBy)
    "project policy requires a distinct authenticated reviewer"
  raiseIf (a.action == .approve && target.dependencies.any (upstreamStale env versions))
    "upstream approval is stale; create a revised draft"

def reviewed (a : CycleAction) (actor time : String) (target : Version) : Version :=
  let review : Review := ⟨a.action, actor, a.note, time⟩
  if a.action = .archive ∨ a.action = .restore then
    { target with archived := decide (a.action = .archive), reviews := target.reviews ++ [review] }
  else { target with status := a.action.result, reviews := target.reviews ++ [review] }

/-- Change the first element that passes a test. -/
def changeFirst {α : Type} (test : α → Bool) (change : α → α) : List α → List α
  | [] => []
  | a :: rest => if test a then change a :: rest else a :: changeFirst test change rest

def checkTransition (a : CycleAction) (actor : String) (independentReview : Bool)
    (target : Version) : Except String Unit :=
  if a.action = .archive ∨ a.action = .restore then .ok ()
  else checkReview env versions a actor independentReview target

/-- `transition`, given the time of the review. -/
def transition (a : CycleAction) (actor time : String)
    (independentReview : Bool) : Except String (List Version) := do
  let target ← someOr "deliverable version not found" (versions.find? fun v => v.id == a.versionId)
  checkTransition env versions a actor independentReview target
  pure (changeFirst (fun v => v.id == a.versionId) (reviewed a actor time) versions)

/-- What a version is taken over as. Every version it rests on is taken over too. -/
def reusedDraft (mapping : List (String × String)) (source : Version) (selected : String × String)
    (actor time sourceCycle : String) : Version :=
  let content := if source.kind = .script then
      source.content.set "validation" (.str "Reused source requires fresh provider validation.")
    else source.content
  { source with
    id := selected.2
    content := content
    checksum := if source.kind = .script then versionDigest env content else source.checksum
    status := .draft
    reviews := []
    archived := false
    replaces := none
    dependencies := source.dependencies.filterMap fun d => mapping.lookup d
    createdBy := actor
    createdAt := time
    origin := some ⟨sourceCycle, selected.1, source.checksum⟩
    changeSummary := "Reused as a draft; recheck source freshness, target and approvals." }

/-- Whether the version of an id may not be taken over. -/
def notReusable (source : Version) :
    Bool :=
  !(source.kind == .scope || source.kind == .testPlan || source.kind == .script)
    || source.archived || superseded versions id || !contentIntegrity env source

def reuseDraft (mapping : List (String × String)) (actor time sourceCycle : String)
    (selected : String × String) : Except String Version := do
  let source ← someOr "Select active, intact scope, plan and script versions only"
    (byId versions selected.1)
  raiseIf (notReusable env versions selected.1 source)
    "Select active, intact scope, plan and script versions only"
  raiseIf (!source.dependencies.all fun d => (mapping.lookup d).isSome)
    "Include every upstream version required by the selected deliverables"
  pure (reusedDraft env mapping source selected actor time sourceCycle)

/-- `reuse_drafts`, given the ids the selected versions get. -/
def reuseDrafts (mapping : List (String × String))
    (actor time sourceCycle : String) : Except String (List Version) :=
  mapping.mapM (reuseDraft env versions mapping actor time sourceCycle)

end Apex.Domain
