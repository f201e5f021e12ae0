import Apex.Core.Check
import Apex.Core.Json
import Apex.Core.Paging

/-!
# The List of Pipelines

The dashboard lists the threads of the runtime that a pipeline has made. The runtime
only knows threads, and it also holds those of the context and the playground graphs,
so the list fetches raw threads window by window and drops the others.

Without filters it looks for as many pipelines as the page needs. An offset counts
pipelines as long as the page ends within the first thousand; beyond that the raw
offset is handed to the runtime. With a project or a text filter a prefix of a thousand
threads is filtered first and the offset counts what matches.

What a thread shows (`map_thread_summary`), the budget of a fetched page and the
case folding of texts are parameters.

## Main definitions

* `Thread`, `Summary`: A record of the runtime, and what the dashboard shows of it.
* `scanMatches`: Fetch windows until there are enough matches.
* `listPipelines`: One page of the list.
-/

namespace Apex.Services.PipelineRead

def PIPELINE_TEXT_SCAN_PAGE_SIZE : Nat := 100

def MAX_PIPELINE_TEXT_SCAN_RECORDS : Nat := 1000

def MAX_PIPELINE_QUERY_CHARS : Nat := 256

abbrev Thread := Dict Json

structure Summary where
  threadId : String
  title : Option String
  projectId : Option String
  /-- The project of each participant of the test scope. -/
  participants : List (Option String)
  /-- The other fields, which the list only carries. -/
  shown : Dict Json

inductive ListError where
  | runtimeError (message : String)
  | valueError (message : String)
  | typeError
  deriving DecidableEq, Repr

structure ListEnv where
  /-- The threads with a status, or all of them, most recently updated first. -/
  threads : Option String → List Thread
  /-- The byte, node and depth budgets of `validated_native_mapping_page`. -/
  withinBudget : List Thread → Bool
  mapThreadSummary : Thread → Except ListError Summary
  casefold : String → String

/-- `value in {...}` for a set of texts. A list or a dictionary has no hash. -/
def inTexts (texts : List String) : Option Json → Except ListError Bool
  | some (.list _) => .error .typeError
  | some (.dict _) => .error .typeError
  | some (.str s) => .ok (texts.contains s)
  | _ => .ok false

/-- Whether a thread was created by the context or playground graphs. -/
def isNonPipelineThread (thread : Thread) : Except ListError Bool :=
  match (thread.get? "metadata").bind Json.dict? with
  | none => .ok false
  | some rawMetadata => do
      if ← inTexts ["context_summary", "prompt_test"] (rawMetadata.get? "kind") then
        return true
      if rawMetadata.get? "purpose" = some (.str "prompt_test") then
        return true
      inTexts ["context", "playground"] (rawMetadata.get? "graph_id")

section

variable (env : ListEnv)

/-- One window of the runtime's threads, refused when it is over the budget. -/
def searchPage (status : Option String) (label : String) (limit offset : Nat) :
    Except ListError (List Thread) :=
  let threads := ((env.threads status).drop offset).take limit
  if env.withinBudget threads then .ok threads
  else .error (.runtimeError (label ++ " returned an invalid or oversized page"))

structure Scan where
  scanOffset : Nat
  items : List Summary
  isPartial : Bool

/-- Append the pipelines of a window until there are enough. -/
def collect (targetItems : Nat) : List Thread → List Summary → Except ListError (List Summary)
  | [], items => .ok items
  | thread :: threads, items => do
      if ← isNonPipelineThread thread then
        collect targetItems threads items
      else
        let summary ← env.mapThreadSummary thread
        let items := items ++ [summary]
        if targetItems ≤ items.length then
          return items
        collect targetItems threads items

/-- Fetch windows until there are enough pipelines. The first argument bounds the number of
    windows; each one but the last moves the offset, so what is left below the ceiling is
    enough, and running out of it is the end of the loop. -/
def scanPipelines (status : Option String) (targetItems scanCeiling pageSize : Nat) :
    Nat → Scan → Except ListError Scan
  | 0, scan => .ok scan
  | fuel + 1, scan =>
    if scan.scanOffset < scanCeiling ∧ scan.items.length < targetItems then do
      let scanLimit := min pageSize (scanCeiling - scan.scanOffset)
      let threads ← searchPage env status "pipeline thread search" scanLimit scan.scanOffset
      let items ← collect env targetItems threads scan.items
      let scanOffset := scan.scanOffset + threads.length
      if threads.length < scanLimit then
        return ⟨scanOffset, items, scan.isPartial⟩
      let isPartial := scan.isPartial
        || decide (scanCeiling ≤ scanOffset ∧ items.length < targetItems)
      scanPipelines status targetItems scanCeiling pageSize fuel ⟨scanOffset, items, isPartial⟩
    else .ok scan

/-- The summaries of the pipelines in a window. -/
def pageSummaries : List Thread → Except ListError (List Summary)
  | [] => .ok []
  | thread :: threads => do
      if ← isNonPipelineThread thread then
        pageSummaries threads
      else
        let summary ← env.mapThreadSummary thread
        let summaries ← pageSummaries threads
        return summary :: summaries

def occursInChars (needle : List Char) : List Char → Bool
  | [] => needle.isEmpty
  | c :: cs => needle.isPrefixOf (c :: cs) || occursInChars needle cs

def occursIn (needle text : String) : Bool := occursInChars needle.toList text.toList

/-- Whether a pipeline has the text and belongs to the project. -/
def isMatch (needle : String) (project : Option String) (item : Summary) : Bool :=
  (occursIn needle (env.casefold (item.title.getD ""))
      || occursIn needle (env.casefold item.threadId))
    && (project.getD "" == ""
      || item.projectId == project
      || item.participants.any fun p => p == project)

def scanMatches (status : Option String) (needle : String) (project : Option String)
    (goal : Nat) : Nat → Scan → Except ListError Scan
  | 0, scan => .ok scan
  | fuel + 1, scan =>
    if scan.scanOffset < MAX_PIPELINE_TEXT_SCAN_RECORDS then do
      let scanLimit := min PIPELINE_TEXT_SCAN_PAGE_SIZE
        (MAX_PIPELINE_TEXT_SCAN_RECORDS - scan.scanOffset)
      let threads ← searchPage env status "pipeline text-search thread page" scanLimit
        scan.scanOffset
      let page ← pageSummaries env threads
      let found := scan.items ++ page.filter (isMatch env needle project)
      if goal ≤ found.length then
        return ⟨scan.scanOffset, found, scan.isPartial⟩
      if threads.length < scanLimit then
        return ⟨scan.scanOffset, found, scan.isPartial⟩
      let scanOffset := scan.scanOffset + scanLimit
      let isPartial := scan.isPartial || decide (MAX_PIPELINE_TEXT_SCAN_RECORDS ≤ scanOffset)
      scanMatches status needle project goal fuel ⟨scanOffset, found, isPartial⟩
    else .ok scan

def slice (items : List Summary) (offset limit : Nat) : List Summary :=
  (items.drop offset).take limit

def unfiltered (q project : Option String) : Bool := q.getD "" == "" && project.getD "" == ""

def listPipelines (project status q : Option String) (limit offset : Nat) :
    Except ListError (Page Summary) :=
  if unfiltered q project then do
    let startFromZero :=
      decide (0 < offset ∧ offset + limit ≤ MAX_PIPELINE_TEXT_SCAN_RECORDS)
    let scanOffset := if startFromZero then 0 else offset
    let targetItems := if startFromZero then offset + limit else limit
    let scanCeiling := offset + MAX_PIPELINE_TEXT_SCAN_RECORDS
    let pageSize :=
      if startFromZero then
        min (max limit (min targetItems PIPELINE_TEXT_SCAN_PAGE_SIZE)) scanCeiling
      else limit
    let scan ← scanPipelines env status targetItems scanCeiling pageSize
      (scanCeiling - scanOffset) ⟨scanOffset, [], false⟩
    let pageSlice :=
      if startFromZero then slice scan.items offset limit else scan.items.take limit
    return ⟨pageSlice, scan.isPartial⟩
  else if MAX_PIPELINE_QUERY_CHARS < (q.getD "").length then
    .error (.valueError "pipeline query must not exceed 256 characters")
  else do
    let needle := env.casefold (q.getD "")
    let scan ← scanMatches env status needle project (offset + limit)
      MAX_PIPELINE_TEXT_SCAN_RECORDS ⟨0, [], false⟩
    return ⟨slice scan.items offset limit, scan.isPartial⟩

end

end Apex.Services.PipelineRead
