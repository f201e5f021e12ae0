import Apex.Domain.EngineHandle

/-!
# Work Items

What is sent to a work tracker and what comes back: drafts of new items,
enrichments of existing ones, and items. Both kinds of request are checked
again before they become durable, since a model can be built without its
validators. A durable payload is the JSON form of one request; its digest binds
an idempotency key to it.

Dictionaries are kept with sorted keys, as the canonical text and the JSON
column have them, so that two payloads are equal when the source's are.

## Main definitions

* `WorkItemDraft`, `Enrichment`, `WorkItem`: The data.
* `MutationPayload`: What a durable mutation carries.
-/

namespace Apex.Domain

def maxDescriptionChars : Nat := 20000

structure WorkItemDraft where
  title : String
  kind : String
  description : String
  fields : Dict Json
  deriving DecidableEq

structure Enrichment where
  fields : Dict Json
  comment : Option String
  deriving DecidableEq

/-- An item of the tracker: its key, and everything else it shows. -/
structure WorkItem where
  key : String
  body : Dict Json
  deriving DecidableEq

inductive MutationPayload where
  | create (draft : WorkItemDraft)
  | enrich (key : String) (enrichment : Enrichment)
  deriving DecidableEq

/-- What other modules and the language contribute: the redactor's patterns,
    SHA-256, the redaction of a stored text, the canonical JSON text, the bounds
    on a JSON object, and the normal form of a provider's item, if it has one. -/
structure WorkItemEnv where
  rules : CredentialRules
  sha256 : String → String
  sanitizeDurableText : Nat → String → String
  canonicalJson : Dict Json → String
  validateJsonObject : Dict Json → Bool
  validatedProviderWorkItem : WorkItem → Option WorkItem

/-- Functions to evaluate statements with: digests and canonical texts show what they
    are made of, and every object and item is as it should be. -/
def sampleWorkItemEnv : WorkItemEnv where
  rules := sampleRules
  sha256 text := text
  sanitizeDurableText _ text := text
  canonicalJson d := ",".intercalate d.keys
  validateJsonObject _ := true
  validatedProviderWorkItem item := some item

def WorkItemDraft.names : List String := ["title", "kind", "description", "fields"]

def WorkItemDraft.modelDump (draft : WorkItemDraft) : Dict Json where
  items := [("title", .str draft.title), ("kind", .str draft.kind),
    ("description", .str draft.description), ("fields", .ofDict draft.fields)]
  nodup := (by decide : WorkItemDraft.names.Nodup)

def Enrichment.names : List String := ["fields", "comment"]

def Enrichment.modelDump (enrichment : Enrichment) : Dict Json where
  items := [("fields", .ofDict enrichment.fields), ("comment", textJson enrichment.comment)]
  nodup := (by decide : Enrichment.names.Nodup)

def MutationPayload.enrichNames : List String := ["key", "enrichment"]

def MutationPayload.json : MutationPayload → Dict Json
  | .create draft => .single "draft" (.ofDict draft.modelDump)
  | .enrich key enrichment =>
    { items := [("key", .str key), ("enrichment", .ofDict enrichment.modelDump)]
      nodup := (by decide : MutationPayload.enrichNames.Nodup) }

def WorkItemDraft.valid (env : WorkItemEnv) (draft : WorkItemDraft) : Bool :=
  1 ≤ draft.title.length && draft.title.length ≤ 500 && !hasNul draft.title
    && 1 ≤ draft.kind.length && draft.kind.length ≤ 64 && !hasNul draft.kind
    && draft.description.length ≤ maxDescriptionChars && !hasNul draft.description
    && draft.fields.length ≤ 64 && env.validateJsonObject draft.fields
    && !containsCredentialMaterial env.rules plainScanLimits (.ofDict draft.modelDump)

def Enrichment.valid (env : WorkItemEnv) (enrichment : Enrichment) : Bool :=
  enrichment.fields.length ≤ 64 && env.validateJsonObject enrichment.fields
    && enrichment.comment.all (fun c => c.length ≤ maxDescriptionChars && !hasNul c)
    && !containsCredentialMaterial env.rules plainScanLimits (.ofDict enrichment.modelDump)

/-- Whether an enrichment asks for field updates. -/
def Enrichment.hasFields (enrichment : Enrichment) : Bool := enrichment.fields.length != 0

/-- Whether an enrichment asks for a comment. An empty one is none. -/
def Enrichment.hasComment (enrichment : Enrichment) : Bool :=
  enrichment.comment.any (fun c => c != "")

/-- A letter or digit of ASCII. -/
def isAsciiAlnum (c : Char) : Bool :=
  (65 ≤ c.toNat && c.toNat ≤ 90) || (97 ≤ c.toNat && c.toNat ≤ 122) ||
    (48 ≤ c.toNat && c.toNat ≤ 57)

/-- `_WORK_ITEM_TARGET_KEY.fullmatch(key)`. -/
def matchesTargetKey (key : String) : Bool :=
  match key.toList with
  | [] => false
  | c :: cs => isAsciiAlnum c && cs.length ≤ 254
      && cs.all (fun c => isAsciiAlnum c || c ∈ ['_', '.', ':', '-'])

def targetKeyOk (env : WorkItemEnv) (key : String) : Bool :=
  matchesTargetKey key && !containsCredentialMaterial env.rules plainScanLimits (.str key)

end Apex.Domain
