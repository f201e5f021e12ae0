import Apex.Services.EngineRuns
import Mathlib.Data.List.Sort

/-!
# The Audit Chain

Security events are appended to a table, each with the hash of the one before it.
Appending and pruning hold a lock; an export reads pages, each in a transaction of its
own, and raises where the chain changed under it.

The hash of a row is a digest of the hash before it and of a document of what the row
says. What a digest is, is left open. Rows are read in the order of their sequence
numbers.

## Main definitions

* `AuditFields`, `AuditEvent`, `AuditLog`: An event, and the row it is stored as.
* `append`: A new row.
* `retentionSummary`, `pruneBefore`: What may be deleted, and deleting it.
* `exportOpen`, `exportPage`: An export, page by page.
-/

namespace Apex.Services.Audit

structure AuditFields where
  category : String
  action : String
  decision : String
  reason : Option String := none
  principalId : Option String := none
  principalType : Option String := none
  principalRole : Option String := none
  principalScopes : Option (Dict Json) := some ∅
  requestMethod : Option String := none
  requestPath : Option String := none
  requestId : Option String := none
  ipAddress : Option String := none
  userAgent : Option String := none
  statusCode : Option Int := none
  resourceType : Option String := none
  resourceId : Option String := none
  extra : Option (Dict Json) := some ∅
  deriving DecidableEq

structure AuditEvent where
  fields : AuditFields
  «at» : Option Instant := none
  eventNonce : Option String := none

/-- `AuditLog`, with the digests of a type that is left open. -/
structure AuditLog (η : Type) where
  id : String
  chainSeq : Int
  «at» : Instant
  fields : AuditFields
  eventNonce : Option String
  previousHash : Option η
  eventHash : η
  deriving DecidableEq

/-- What other modules and the standard library contribute. -/
structure AuditEnv (η : Type) where
  /-- `hashlib.sha256(...).hexdigest()` of the canonical text of a document with the members
      `previous_hash` and `event`. -/
  digest : (previousHash : Option η) → (event : Json) → η
  /-- `sanitize_durable_text` of a text. -/
  sanitizeText : String → Nat → String
  /-- `sanitize_durable_object`, also of a missing object. -/
  sanitizeObject : Option (Dict Json) → Dict Json
  /-- `astimezone(UTC).isoformat()`. -/
  isoformat : Instant → String

variable {η : Type} (env : AuditEnv η)

def boundedField (limit : Nat) (value : Option String) : Option String :=
  value.map fun s => env.sanitizeText s limit

variable (table : List (AuditLog η)) (e : AuditEvent) (row : AuditLog η) (previousHash : Option η)
  (before now : Instant) (retainAnchor : Bool)

/-- `_materialize_event`: an event within the limits, with its time and a new nonce. -/
def materializeEvent (nonce : String) : AuditEvent where
  fields := { e.fields with
    category := env.sanitizeText e.fields.category 64
    action := env.sanitizeText e.fields.action 128
    decision := env.sanitizeText e.fields.decision 32
    reason := boundedField env 4096 e.fields.reason
    principalId := boundedField env 255 e.fields.principalId
    principalType := boundedField env 64 e.fields.principalType
    principalRole := boundedField env 32 e.fields.principalRole
    principalScopes := some (env.sanitizeObject e.fields.principalScopes)
    requestMethod := boundedField env 16 e.fields.requestMethod
    requestPath := boundedField env 2048 e.fields.requestPath
    requestId := boundedField env 255 e.fields.requestId
    ipAddress := boundedField env 255 e.fields.ipAddress
    userAgent := boundedField env 1024 e.fields.userAgent
    resourceType := boundedField env 128 e.fields.resourceType
    resourceId := boundedField env 255 e.fields.resourceId
    extra := some (env.sanitizeObject e.fields.extra) }
  «at» := some (e.at.getD now)
  eventNonce := some nonce

def textJson : Option String → Json
  | some s => .str s
  | none => .null

def objectJson : Option (Dict Json) → Json
  | some d => .ofDict d
  | none => .null

def fieldsJson (f : AuditFields) : List (String × Json) := [ ("category", .str f.category),
  ("action", .str f.action),
  ("decision", .str f.decision),
  ("reason", textJson f.reason),
  ("principal_id", textJson f.principalId),
  ("principal_type", textJson f.principalType),
  ("principal_role", textJson f.principalRole),
  ("principal_scopes", objectJson f.principalScopes),
  ("request_method", textJson f.requestMethod),
  ("request_path", textJson f.requestPath),
  ("request_id", textJson f.requestId),
  ("ip_address", textJson f.ipAddress),
  ("user_agent", textJson f.userAgent),
  ("status_code", match f.statusCode with | some n => .int n | none => .null),
  ("resource_type", textJson f.resourceType),
  ("resource_id", textJson f.resourceId),
  ("extra", objectJson f.extra)]

/-- The document `_event_hash` is about. -/
def eventJson : Json :=
  .dict (fieldsJson e.fields ++
    [("at", textJson (e.at.map env.isoformat)), ("event_nonce", textJson e.eventNonce)])

/-- The document `_legacy_event_hash` is about. -/
def legacyEventJson : Json := .dict (fieldsJson e.fields)

def eventHash : η :=
  env.digest previousHash (eventJson env e)

def legacyEventHash : η :=
  env.digest previousHash (legacyEventJson e)

def eventFromRow : AuditEvent where
  fields := { row.fields with
    principalScopes := some (row.fields.principalScopes.getD ∅)
    extra := some (row.fields.extra.getD ∅) }
  «at» := some row.at
  eventNonce := row.eventNonce

/-- The rows in the order of their sequence numbers. -/
def inOrder : List (AuditLog η) :=
  table.insertionSort fun a b => a.chainSeq ≤ b.chainSeq

def chainHead : Option (AuditLog η) := (inOrder table).getLast?

def nextChainSeq : Option (AuditLog η) → Int
  | some head => head.chainSeq + 1
  | none => 1

def newRow (nonce id : String) :
    AuditLog η :=
  let e := materializeEvent env e now nonce
  let head := chainHead table
  let previousHash := head.map AuditLog.eventHash
  { id := id
    chainSeq := nextChainSeq head
    «at» := e.at.getD now
    fields := e.fields
    eventNonce := e.eventNonce
    previousHash := previousHash
    eventHash := eventHash env e previousHash }

def clashes [DecidableEq η] : Bool :=
  table.any fun other => other.id == row.id || other.chainSeq == row.chainSeq
    || other.eventHash == row.eventHash

/-- `append`; nothing is stored where a key clashes. -/
def append [DecidableEq η] (nonce id : String) : Option (List (AuditLog η)) :=
  let row := newRow env table e now nonce id
  if clashes table row then none else some (table ++ [row])

inductive ChainError (η : Type) where
  | chainSeq (id : String) (expected found : Int)
  | previousHash (id : String) (expected found : Option η)
  | eventHash (id : String)

structure AuditChainVerification (η : Type) where
  ok : Bool
  checked : Nat
  firstError : Option (ChainError η) := none
  lastHash : Option η := none

/-- What is hashed of a row. Rows without a nonce were written before there was one. -/
def hashedJson : Json :=
  if row.eventNonce.isNone then legacyEventJson (eventFromRow row)
  else eventJson env (eventFromRow row)

/-- The hash a row should have after another hash. -/
def expectedHash : η :=
  if row.eventNonce.isNone then legacyEventHash env (eventFromRow row) previousHash
  else eventHash env (eventFromRow row) previousHash

/-- The loop of `verify_chain`. -/
def verifyFrom [DecidableEq η] (previousHash : Option η) (expectedChainSeq : Int) (checked : Nat) :
    List (AuditLog η) → AuditChainVerification η
  | [] => { ok := true, checked := checked, lastHash := previousHash }
  | row :: rows =>
    if row.chainSeq ≠ expectedChainSeq then
      { ok := false, checked := checked + 1, lastHash := previousHash
        firstError := some (.chainSeq row.id expectedChainSeq row.chainSeq) }
    else if row.previousHash ≠ previousHash then
      { ok := false, checked := checked + 1, lastHash := previousHash
        firstError := some (.previousHash row.id previousHash row.previousHash) }
    else if row.eventHash ≠ expectedHash env row previousHash then
      { ok := false, checked := checked + 1, lastHash := previousHash
        firstError := some (.eventHash row.id) }
    else verifyFrom (some row.eventHash) (expectedChainSeq + 1) (checked + 1) rows

/-- `verify_chain`, of the rows that were read. -/
def verifyRows [DecidableEq η] (allowTruncated : Bool) (rows : List (AuditLog η)) :
    AuditChainVerification η :=
  match rows with
  | [] => verifyFrom env none 1 0 []
  | row :: _ =>
    if allowTruncated then verifyFrom env row.previousHash row.chainSeq 0 rows
    else verifyFrom env none 1 0 rows

structure AuditRetentionSummary where
  before : Instant
  candidates : Nat
  preservedAnchorId : Option String

def contiguousRetentionPrefix (rows : List (AuditLog η)) (before : Instant) :
    List (AuditLog η) := rows.takeWhile fun row => decide (row.at < before)

structure AuditRetentionPrefix where
  count : Nat
  anchorId : Option String
  anchorChainSeq : Option Int
  firstRetainedChainSeq : Option Int

def retentionPrefix : AuditRetentionPrefix :=
  let kept := table.filter fun row => decide (before ≤ row.at)
  let firstRetained := (kept.map AuditLog.chainSeq).min?
  let old := match firstRetained with
    | some seq => table.filter fun row => decide (row.chainSeq < seq)
    | none => table
  let anchor := (inOrder old).getLast?
  { count := old.length
    anchorId := anchor.map AuditLog.id
    anchorChainSeq := anchor.map AuditLog.chainSeq
    firstRetainedChainSeq := firstRetained }

def validateRetentionCutoff : Except String Unit :=
  if now < before then .error "before must not be in the future" else .ok ()

def deletable (count : Nat) (retainAnchor : Bool) : Nat := if retainAnchor then count - 1 else count

def retentionSummary :
    Except String AuditRetentionSummary := do
  validateRetentionCutoff before now
  let found := retentionPrefix table before
  pure ⟨before, deletable found.count retainAnchor, if retainAnchor then found.anchorId else none⟩

def retentionSummaryInMemory : Except String AuditRetentionSummary := do
  validateRetentionCutoff before now
  let rows := contiguousRetentionPrefix (inOrder table) before
  pure ⟨before, deletable rows.length retainAnchor,
    if retainAnchor then rows.getLast?.map AuditLog.id else none⟩

/-- The rows `prune_before` deletes. -/
def pruned (found : AuditRetentionPrefix) (retainAnchor : Bool) (row : AuditLog η) : Bool :=
  if retainAnchor then found.anchorChainSeq.any fun seq => decide (row.chainSeq < seq)
  else
    match found.firstRetainedChainSeq with
    | none => found.anchorChainSeq.any fun seq => decide (row.chainSeq ≤ seq)
    | some seq => decide (row.chainSeq < seq)

/-- `prune_before`: how many rows are deleted, and the table then. -/
def pruneBefore :
    Except String (Nat × List (AuditLog η)) := do
  validateRetentionCutoff before now
  let found := retentionPrefix table before
  let deleted := deletable found.count retainAnchor
  if deleted = 0 then pure (0, table)
  else pure (deleted, table.filter fun row => !pruned found retainAnchor row)

def pruneInMemory :
    Except String (Nat × List (AuditLog η)) := do
  validateRetentionCutoff before now
  let rows := contiguousRetentionPrefix (inOrder table) before
  let ids := (if retainAnchor then rows.dropLast else rows).map AuditLog.id
  pure (ids.length, table.filter fun row => !(ids.contains row.id))

def auditExportPageSize : Nat := 250

structure ExportCursor where
  watermark : Int
  lastChainSeq : Option Int
  expectedChainSeq : Int

/-- An export: not begun, reading, done or failed, with what it yielded. -/
inductive ExportState (η : Type) where
  | idle
  | reading (cursor : ExportCursor) (yielded : List (AuditLog η))
  | done (yielded : List (AuditLog η))
  | failed (error : String) (yielded : List (AuditLog η))

def chainBounds : Option Int × Option Int :=
  ((table.map AuditLog.chainSeq).min?, (table.map AuditLog.chainSeq).max?)

def exportOpen : ExportState η :=
  match chainBounds table with
  | (_, none) => .done []
  | (none, some _) => .failed "audit export captured inconsistent chain bounds" []
  | (some first, some watermark) => .reading ⟨watermark, none, first⟩ []

/-- The next sequence number after the rows of a page, which must be the expected ones. -/
def checkPage (watermark : Int) : Int → List (AuditLog η) → Except String Int
  | expected, [] => .ok expected
  | expected, row :: rows =>
    if row.chainSeq ≠ expected then
      .error (s!"audit export chain changed before watermark {watermark}: expected sequence "
        ++ s!"{expected}, found {row.chainSeq}")
    else checkPage watermark (expected + 1) rows

def pageRows (c : ExportCursor) : List (AuditLog η) :=
  ((inOrder table).filter fun row => decide (row.chainSeq ≤ c.watermark)
    && c.lastChainSeq.all fun last => decide (last < row.chainSeq)).take auditExportPageSize

/-- A page is read and yielded, or the export raises. -/
def exportPage (c : ExportCursor) (yielded : List (AuditLog η)) :
    ExportState η :=
  let rows := pageRows table c
  match checkPage c.watermark c.expectedChainSeq rows with
  | .error error => .failed error yielded
  | .ok expected =>
    match rows.getLast? with
    | none =>
      if expected ≤ c.watermark then
        .failed (s!"audit export chain ended before captured watermark {c.watermark}; "
          ++ s!"next expected sequence is {expected}") yielded
      else .done yielded
    | some last =>
      if c.lastChainSeq.any fun previous => decide (last.chainSeq ≤ previous) then
        .failed "audit export keyset did not advance" yielded
      else if rows.length < auditExportPageSize ∧ last.chainSeq ≠ c.watermark then
        .failed (s!"audit export page ended before captured watermark {c.watermark}; "
          ++ s!"last sequence is {last.chainSeq}") yielded
      else if last.chainSeq = c.watermark then .done (yielded ++ rows)
      else .reading ⟨c.watermark, some last.chainSeq, expected⟩ (yielded ++ rows)

end Apex.Services.Audit
