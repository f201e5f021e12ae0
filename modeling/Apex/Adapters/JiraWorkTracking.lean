import Apex.Core.Action
import Apex.Core.Comparison
import Apex.Core.OverlapSearch
import Apex.Core.Text
import Apex.Graphs.Pipeline.State

/-!
# Texts In Jira

Descriptions and comments are stored as documents of nested nodes. A plain text is stored as
one paragraph for each of its lines, and a document is read back by walking its nodes in order,
of which no more than a fixed number is visited.

A comment carries a marker by which it is found again: the comments of an item are read page by
page, and each is searched for the marker while it is walked.

## Main definitions

* `iterAdfText`: The texts of a document, in order.
* `adfToText`, `adfContainsText`: A document as a text, and the search of one.
* `textToAdf`: A text as a document.
* `hasCommentIdempotencyMarker`, `addItemCommentIdempotent`: Comments with a marker.
* `issueFields`, `readContent`: What an item is created with, and what is read of one.
-/

namespace Apex.Adapters.Jira

open Graphs (truthy)

open Apex.Action hiding ask

def maxDescriptionChars : Nat := 20000

def maxAdfNodes : Nat := 50000

def maxAdfFlattenChars : Nat := maxDescriptionChars * 4

def adfBlockTypes : List String :=
  ["paragraph", "heading", "blockquote", "listItem", "codeBlock", "tableRow", "rule"]

/-- What the walk makes of one value: a text, or values that are walked in its place. -/
inductive AdfStep where
  | yields (segment : String)
  | expands (nodes : List Json)
  | refused (message : String)

def adfDisplay (node : Json) : AdfStep :=
  let attrs := node.field "attrs"
  if truthy attrs && !attrs.isDict then .refused "jira ADF response contains malformed attrs"
  else
    let display := if truthy (attrs.field "text") then attrs.field "text"
      else if truthy (attrs.field "shortName") then attrs.field "shortName" else .str ""
    match display with
    | .str s => .yields s
    | _ => .refused "jira ADF display node contains a non-string value"

/-- What the walk makes of a node that may hold others. A block ends its line after them. -/
def adfContent (items : List (String × Json)) (nodeType : String) : AdfStep :=
  match (items.lookup "content").getD (.list []) with
  | .list content =>
    .expands (.list content :: if adfBlockTypes.contains nodeType then [.str "\n"] else [])
  | _ => .refused "jira ADF response contains malformed content"

def visitAdf : Json → AdfStep
  | .null => .expands []
  | .str s => .yields s
  | .list nodes => .expands nodes
  | .dict items =>
    match (items.lookup "type").getD .null with
    | .null => adfContent items ""
    | .str nodeType =>
      if nodeType = "text" then
        match (items.lookup "text").getD (.str "") with
        | .str s => .yields s
        | _ => .refused "jira ADF text node contains a non-string value"
      else if nodeType = "hardBreak" then .yields "\n"
      else if nodeType = "mention" ∨ nodeType = "emoji" then adfDisplay (.dict items)
      else adfContent items nodeType
    | _ => .refused "jira ADF response contains a non-string node type"
  | _ => .refused "jira ADF response contains a non-node value"

/-- `_iter_adf_text`, given how many values may still be visited: the texts up to where it
    stops, and why it does if not at the end. -/
def iterAdfText : Nat → List Json → List String × Option String
  | _, [] => ([], none)
  | 0, _ :: _ => ([], some "jira ADF response exceeds the node limit")
  | budget + 1, current :: rest =>
    match visitAdf current with
    | .refused message => ([], some message)
    | .yields segment =>
      let later := iterAdfText budget rest
      (segment :: later.1, later.2)
    | .expands nodes => iterAdfText budget (nodes ++ rest)

/-- The texts that are retained, given how many characters may be. -/
def retain : Nat → List String → List Char
  | _, [] => []
  | room, segment :: rest =>
    let kept := segment.toList.take room
    kept ++ retain (room - kept.length) rest

/-- The lines of a text without the white space at their ends, joined, without the empty ones
    in front and at the end. -/
def normalizeLines (text : List Char) : List Char :=
  let lines := (text.splitOn '\n').map (List.rdropWhile isPySpace)
  ['\n'].intercalate ((List.rdropWhile List.isEmpty lines).dropWhile List.isEmpty)

/-- A text cut to the limit of a description, and marked if it was. -/
def cutDescription (text : List Char) : List Char :=
  if maxDescriptionChars < text.length then
    List.rdropWhile isPySpace (text.take (maxDescriptionChars - 1)) ++ ['…']
  else text

def adfToText (node : Json) : Except String String :=
  let walked := iterAdfText maxAdfNodes [node]
  match walked.2 with
  | some message => .error message
  | none =>
    .ok (String.ofList (cutDescription (normalizeLines (retain maxAdfFlattenChars walked.1))))

/-- `_adf_contains_text`. The search stops where it finds something, ahead of what else the
    walk would come upon. -/
def adfContainsText (node : Json) (needle : String) : Except String Bool :=
  if needle.isEmpty then .ok true
  else
    let walked := iterAdfText maxAdfNodes [node]
    if searchSegments needle.toList [] (walked.1.map String.toList) then .ok true
    else
      match walked.2 with
      | some message => .error message
      | none => .ok false

def paragraph (line : List Char) : Json :=
  .dict [("type", .str "paragraph"), ("content", .list
    (if line.isEmpty then []
      else [.dict [("type", .str "text"), ("text", .str (String.ofList line))]]))]

def textToAdf (text : String) : Json :=
  let paragraphs := (text.toList.splitOn '\n').map paragraph
  .dict [("type", .str "doc"), ("version", .int 1), ("content", .list
    (if paragraphs.isEmpty then [paragraph []] else paragraphs))]

structure JiraError where
  name : String
  message : String

inductive JiraRequest where
  /-- `get_item`. -/
  | getItem (key : String)
  /-- A page of the comments of an item. -/
  | comments (key : String) (startAt maxResults : Nat)
  /-- Store a comment. -/
  | addComment (key : String) (body : Json)

/-- What is answered, unless something is raised. -/
@[reducible] def JiraRequest.Answer : JiraRequest → Type
  | .getItem _ => Except JiraError Unit
  | .comments .. => Except JiraError Json
  | .addComment .. => Except JiraError Unit

abbrev JiraHandler (α : Type) := Action JiraRequest JiraRequest.Answer JiraError α

def getItem (key : String) : JiraHandler Unit := do
  let answer ← Action.ask (.getItem key)
  settle answer

/-- A hexadecimal digit of `[0-9a-f]`. -/
def isLowerHex (c : Char) : Bool := ('0' ≤ c && c ≤ '9') || ('a' ≤ c && c ≤ 'f')

variable (text : JiraText) (marker : String)

def isMutationMarker : Bool :=
  let front := "apex-idem-".toList
  front.isPrefixOf marker.toList && (marker.toList.drop front.length).length == 32
    && (marker.toList.drop front.length).all isLowerHex

def validateMutationMarker : Except JiraError Unit :=
  raiseIf (!isMutationMarker marker) ⟨"ValueError", "invalid APEX work-item mutation marker"⟩

def commentMarker : String := "[APEX-IDEMPOTENCY:" ++ marker ++ "]"

def commentPageSize : Nat := 100

def maxCommentScan : Nat := 10000

def runtimeError (message : String) : JiraError := ⟨"RuntimeError", message⟩

def valueError {α : Type} : Except String α → Except JiraError α
  | .ok a => .ok a
  | .error message => .error ⟨"ValueError", message⟩

/-- `_list_field` of a page. -/
def listField (data : Json) : Except JiraError (List Json) :=
  match data.field "comments" with
  | .list comments => .ok comments
  | _ => .error (runtimeError "jira comments response field 'comments' must be a list")

/-- `_bounded_provider_int` of the total of a page. -/
def totalField (data : Json) (minimum : Nat) : Except JiraError Nat :=
  match data.field "total" with
  | .int total =>
    if total < minimum ∨ (maxCommentScan : Int) < total then
      .error (runtimeError "jira comments response total is outside the allowed range")
    else .ok total.toNat
  | _ => .error (runtimeError "jira comments response total must be an integer")

/-- `any(...)` of the search of some comments. -/
def anyContains (token : String) : List Json → Except JiraError Bool
  | [] => .ok false
  | comment :: rest => do
      let found ← valueError (adfContainsText (comment.field "body") token)
      if found then .ok true else anyContains token rest

/-- What a page says: whether the token is in it, how many comments it has, and how many there
    are in all. -/
def readPage (token : String) (startAt : Nat) (data : Json) :
    Except JiraError (Bool × Nat × Nat) := do
  raiseIf (!data.isDict) (runtimeError "jira comments page response must be a JSON object")
  let comments ← listField data
  raiseIf (decide (commentPageSize < comments.length))
    (runtimeError "jira comments response exceeded the requested page-size budget")
  raiseIf (!comments.all Json.isDict)
    (runtimeError "jira comments response contains a non-object comment")
  let found ← anyContains token comments
  if found then .ok (true, comments.length, 0)
  else do
    let total ← totalField data (startAt + comments.length)
    .ok (false, comments.length, total)

/-- The loop over the pages. Every further page starts after the last, so there are no more
    than comments are scanned. -/
def scanComments (key token : String) : Nat → Nat → JiraHandler Bool
  | 0, _ => throw (runtimeError "jira comment reconciliation exceeded its safe scan limit")
  | fuel + 1, startAt =>
    if maxCommentScan ≤ startAt then
      throw (runtimeError "jira comment reconciliation exceeded its safe scan limit")
    else do
      let response ← Action.ask (.comments key startAt commentPageSize)
      let data ← settle response
      let page ← settle (readPage token startAt data)
      if page.1 then pure true
      else if page.2.1 = 0 ∨ page.2.2 ≤ startAt + page.2.1 then pure false
      else scanComments key token fuel (startAt + page.2.1)

def hasCommentIdempotencyMarker (key marker : String) : JiraHandler Bool := do
  settle (validateMutationMarker marker)
  getItem key
  scanComments key (commentMarker marker) maxCommentScan 0

def markedComment (comment marker : String) : Json :=
  textToAdf (comment ++ "\n\n" ++ commentMarker marker)

def addItemCommentIdempotent (key comment marker : String) : JiraHandler Unit := do
  settle (validateMutationMarker marker)
  getItem key
  let answer ← Action.ask (.addComment key (markedComment comment marker))
  settle answer

structure WorkItemDraft where
  title : String
  kind : String
  description : String
  fields : Dict Json

def jqlIssueType : String → Option String
  | "bug" => some "Bug"
  | "story" => some "Story"
  | "task" => some "Task"
  | _ => none

/-- `str.casefold` and `str.capitalize`. -/
structure JiraText where
  casefold : String → String
  capitalize : String → String

def asTexts : List Json → Option (List String)
  | [] => some []
  | .str s :: rest => (asTexts rest).map (s :: ·)
  | _ :: _ => none

/-- The fields with the marker among the labels. -/
def withMarker (fields : Dict Json) (marker : String) :
    Except JiraError (Dict Json) :=
  let name := (fields.keys.find? fun name => text.casefold name == "labels").getD "labels"
  match fields.value name with
  | .null => .ok (fields.set name (.list [.str marker]))
  | .list labels =>
    match asTexts labels with
    | some texts =>
      .ok (fields.set name (.list (labels ++ if texts.contains marker then []
        else [.str marker])))
    | none => .error ⟨"ValueError", "jira labels must be a list of strings for idempotent create"⟩
  | _ => .error ⟨"ValueError", "jira labels must be a list of strings for idempotent create"⟩

/-- The fields of a draft. Those that the draft names itself replace what is derived. -/
def draftFields (draft : WorkItemDraft) : Dict Json :=
  (((Dict.single "summary" (Json.str draft.title)).set "issuetype"
    (.ofDict (Dict.single "name"
      (.str ((jqlIssueType draft.kind).getD (text.capitalize draft.kind)))))).set "description"
    (textToAdf draft.description)).update draft.fields

/-- The fields with the marker, if there is one. -/
def markFields (fields : Dict Json) :
    Option String → Except JiraError (Dict Json)
  | none => .ok fields
  | some marker => withMarker text fields marker

/-- The fields that `_create_item` posts. -/
def issueFields (projectKey : Option String) (draft : WorkItemDraft)
    (marker : Option String) : Except JiraError (Dict Json) := do
  raiseIf (draft.fields.keys.any fun name => text.casefold name == "project")
    ⟨"ValueError", "jira project is fixed by the connection; remove project from draft.fields"⟩
  let projectKey ← someOr
    ⟨"ValueError", "jira create_item needs options['project_key'] on the connection"⟩ projectKey
  let fields ← markFields text (draftFields text draft) marker
  pure (fields.set "project" (.ofDict (Dict.single "key" (.str projectKey))))

/-- `isinstance(description, (dict, str, type(None)))`. -/
def readableContent : Json → Bool
  | .dict _ => true
  | .str _ => true
  | .null => true
  | _ => false

/-- The summary and the description that `_work_item_from_issue` reads of the fields of an
    item. -/
def readContent (fields : Dict Json) : Except JiraError (String × String) :=
  let invalid := runtimeError "jira returned an invalid work item"
  let summary := if truthy (fields.value "summary") then fields.value "summary" else .str ""
  match summary with
  | .str title =>
    if readableContent (fields.value "description") then
      match adfToText (fields.value "description") with
      | .ok description => .ok (title, description)
      | .error _ => .error invalid
    else .error invalid
  | _ => .error invalid

end Apex.Adapters.Jira
