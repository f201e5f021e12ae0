import Apex.Core.Partition
import Apex.Core.Text
import Apex.Domain.Diagnostics
import Apex.Domain.InputLimits
import Apex.Domain.Pipeline

/-!
# Prompt Selections

Editing the contexts of a prompt review.

A review carries the contexts that were selected for a phase, each with its
identity and its text. The texts are edited in two ways: entry by entry
(`context_edits`), or through one aggregate text in which every entry stands
under its own heading (`application`). The second is cut at the headings again,
except when it is the text the current entries compose to.

## Main definitions

* `ManifestEntry`: `PromptManifestEntry`, with its validators.
* `composeContexts`: The aggregate text.
* `reviewMetadata`: What a review says of its contexts, validated.
* `editContexts`: Cutting an aggregate text at the headings.
* `editedReviewMetadata`: The contexts after an edit.
-/

namespace Apex.Services

open Domain

structure ManifestEntry where
  namespace_ : String
  phase : Option Phase
  applicationId : Option String
  environmentId : Option String
  isShared : Bool
  isDefault : Bool
  selectionEnabled : Bool
  promptId : String
  versionId : String
  key : String
  version : Int
  content : String
  overridden : Bool
  deriving DecidableEq, Repr

/-- Whether a text is blank: `not text.strip()`. -/
def isBlank (text : String) : Bool := strip text == ""

def isRecordId (text : String) : Bool :=
  decide (1 ≤ text.length) && decide (text.length ≤ 32) && !hasNul text

/-- `PromptApplicability.valid_category`. -/
def validCategory (e : ManifestEntry) : Bool :=
  (!e.selectionEnabled ||
    match e.namespace_ with
    | "system" => e.phase.isNone && e.applicationId.isNone && e.environmentId.isNone && !e.isShared
    | "phase" => e.phase.isSome && e.applicationId.isNone && e.environmentId.isNone && !e.isShared
    | "application" =>
      e.phase.isNone && e.environmentId.isNone && (e.applicationId.isSome != e.isShared)
    | "environment" =>
      e.phase.isNone && e.applicationId.isNone && e.environmentId.isSome && !e.isShared
    | _ => false)
  && !(e.isDefault
    && (!e.selectionEnabled || !(e.namespace_ == "system" || e.namespace_ == "phase")))

/-- The constraints on the fields of an entry and its validators. The scope of
    an application is stripped when it is read. -/
def validEntry (e : ManifestEntry) : Bool :=
  (match e.applicationId with
    | none => true
    | some id => decide (1 ≤ id.length) && decide (id.length ≤ 255) && !hasNul id)
  && (match e.environmentId with
    | none => true
    | some id => isRecordId id)
  && isRecordId e.promptId && isRecordId e.versionId
  && decide (e.key.length ≤ 255) && !hasNul e.key && decide (1 ≤ e.version)
  && decide (1 ≤ e.content.length) && decide (e.content.length ≤ 100000) && !hasNul e.content
  && validCategory e && e.selectionEnabled && !isBlank e.content

/-- What the code of this module calls: reading the fields of an entry, the
    patterns of the credential scanner, the text of a float, and the setting
    `runs.max_prompt_part_chars` with its bounds. -/
structure PromptEnv where
  readFields : Json → Option ManifestEntry
  rules : CredentialRules
  floatText : PyFloat → List Char
  maxPromptPartChars : Nat
  setting_ge : 1000 ≤ maxPromptPartChars
  setting_le : maxPromptPartChars ≤ 100000

/-- The error of a model that refuses its input. -/
def validationError : String := "validation error"

section

variable (env : PromptEnv)

/-- `PromptManifestEntry.model_validate`. -/
def readEntry (item : Json) : Except String ManifestEntry :=
  match env.readFields item with
  | none => .error validationError
  | some e => if validEntry e then .ok e else .error validationError

/-- `contains_credential_material`, with its own limits. -/
def hasCredentials (value : Json) : Bool :=
  containsCredentialMaterial env.rules plainScanLimits value

/-- `text.upper()`, of a text in ASCII. -/
def upper (text : String) : List Char := text.toList.map Char.toUpper

def heading (e : ManifestEntry) : List Char :=
  "=== ".toList ++ upper e.namespace_ ++ " CONTEXT: ".toList ++ e.key.toList ++ " ===\n".toList

def glue : List Char := ['\n', '\n']

def composeContexts (contexts : List ManifestEntry) : List Char :=
  glue.intercalate (contexts.map fun e => heading e ++ e.content.toList)

structure ReviewMetadata where
  contexts : List ManifestEntry
  selections : List Json

def listOf : Json → Option (List Json)
  | .list items => some items
  | _ => none

/-- `value.get(field, [])`. -/
def listField (value : Dict Json) (field : String) : Option (List Json) :=
  match value.get? field with
  | none => some []
  | some v => listOf v

def isContextCategory (e : ManifestEntry) : Bool :=
  e.namespace_ == "application" || e.namespace_ == "environment"

/-- `review_metadata`: nothing for a review that is not locked. -/
def reviewMetadata (value : Dict Json) : Except String (Option ReviewMetadata) :=
  if value.value "system_locked" ≠ .bool true then .ok none
  else
    match listField value "contexts", listField value "selections" with
    | some contexts, some selections => do
        raiseIf (decide (64 < contexts.length) || decide (66 < selections.length))
          "Invalid prompt manifest review metadata"
        let parsed ← contexts.mapM (readEntry env)
        raiseIf (parsed.any fun item => !isContextCategory item) "Invalid context category"
        InputLimits.validateJsonObject { maxBytes := 1000000, maxNodes := 3000 }
          "prompt provenance" env.floatText (.dict [("selections", .list selections)])
        raiseIf (hasCredentials env (.dict [("contexts", .list contexts),
            ("selections", .list selections)]))
          "Prompt review contains credential material"
        return some ⟨parsed, selections⟩
    | _, _ => .error "Invalid prompt manifest review metadata"

structure ContextEdit where
  promptId : String
  content : String
  deriving DecidableEq, Repr

/-- `PromptContextEdit.model_validate`. -/
def readContextEdit (item : Json) : Except String ContextEdit :=
  match item with
  | .dict fields =>
    match fields.lookup "prompt_id", fields.lookup "content" with
    | some (.str promptId), some (.str content) =>
      if fields.all (fun field => field.1 == "prompt_id" || field.1 == "content")
          && isRecordId promptId && decide (1 ≤ content.length)
          && decide (content.length ≤ 100000) && !hasNul content then
        .ok ⟨promptId, content⟩
      else .error validationError
    | _, _ => .error validationError
  | _ => .error validationError

/-- The entry with another text: `item["content"] = content`. -/
def ManifestEntry.withContent (e : ManifestEntry) (content : String) : ManifestEntry :=
  { e with content := content }

def checkContent (content : String) : Except String Unit := do
  raiseIf (isBlank content || decide (env.maxPromptPartChars < content.length))
    "Context prompt content is invalid"
  raiseIf (hasCredentials env (.str content)) "Context prompt contains credential material"

/-- The error of a text whose headings are not those of the entries. -/
def membershipError : String := "Context prompt membership is locked after launch"

def applyEdits : List ManifestEntry → List ContextEdit → Except String (List ManifestEntry)
  | item :: contexts, edit :: edits => do
      checkContent env edit.content
      let rest ← applyEdits contexts edits
      return item.withContent edit.content :: rest
  | _, _ => .ok []

/-- The loop over the entries and their headings, on what is left of the text. -/
def editContexts : List ManifestEntry → List Char → Except String (List ManifestEntry)
  | [], text => if text = [] then .ok [] else .error membershipError
  | [item], text =>
    if (heading item).isPrefixOf text then do
      let content := String.ofList (text.drop (heading item).length)
      checkContent env content
      return [item.withContent content]
    else .error membershipError
  | item :: following :: contexts, text =>
    if (heading item).isPrefixOf text then
      match partition (glue ++ heading following) (text.drop (heading item).length) with
      | none => .error membershipError
      | some (content, remaining) => do
          checkContent env (String.ofList content)
          let rest ← editContexts (following :: contexts) (heading following ++ remaining)
          return item.withContent (String.ofList content) :: rest
    else .error membershipError

def jsonText : Option String → Json
  | none => .null
  | some text => .str text

def editedReviewMetadata (current : Dict Json) (system application : Option String)
    (contextEdits : Option (List Json)) : Except String (Option ReviewMetadata) := do
  match ← reviewMetadata env current with
  | none => return none
  | some metadata =>
    raiseIf (!(jsonText system).same (current.value "system"))
      "The shared system prompt is locked after launch"
    match contextEdits with
    | some items =>
      let edits ← items.mapM readContextEdit
      raiseIf (edits.map ContextEdit.promptId != metadata.contexts.map ManifestEntry.promptId)
        membershipError
      let contexts ← applyEdits env metadata.contexts edits
      return some { metadata with contexts := contexts }
    | none =>
      let text := (application.getD "").toList
      if text = composeContexts metadata.contexts then return some metadata
      else
        let contexts ← editContexts env metadata.contexts text
        return some { metadata with contexts := contexts }

end

end Apex.Services
