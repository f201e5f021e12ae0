import Apex.Services.PipelineRead

/-!
# What the List of Pipelines Scans

The two loops of the list fetch windows of threads one after the other. What a finished
loop has seen is a prefix of a sequence that does not depend on how the windows were
cut: the pipelines between the start and the ceiling, or the matches in the prefix that
is searched. `Seen` says this together with when a loop reports that it may have missed
some, and each loop has one lemma about one turn and one about the whole.

## Main definitions

* `Readable`: A thread that can be classified and summarised.
* `pipelines`, `matchesIn`: The pipelines, and the matches, among some threads.

## Theorems

* `collect_ok`, `pageSummaries_ok`: What is taken from one window.
* `scanPipelines_turn`, `scanMatches_turn`: One turn of each loop.
* `scanPipelines_spec`, `scanMatches_spec`: What the loops see.
-/

namespace Apex.Services.PipelineRead

open List

def Readable (env : ListEnv) (thread : Thread) : Prop :=
  isNonPipelineThread thread = .ok true ∨
    (isNonPipelineThread thread = .ok false ∧ ∃ summary, env.mapThreadSummary thread = .ok summary)

def isPipeline (thread : Thread) : Bool :=
  match isNonPipelineThread thread with
  | .ok nonPipeline => !nonPipeline
  | .error _ => false

def summaryOf (env : ListEnv) (thread : Thread) : Option Summary :=
  if isPipeline thread then (env.mapThreadSummary thread).toOption else none

def pipelines (env : ListEnv) (threads : List Thread) : List Summary :=
  threads.filterMap (summaryOf env)

/-- The pipelines among some threads that have a text and belong to a project. -/
def matchesIn (env : ListEnv) (needle : String) (project : Option String)
    (threads : List Thread) : List Summary :=
  (pipelines env threads).filter (isMatch env needle project)

section

variable {env : ListEnv} {thread : Thread} {threads : List Thread}

theorem isPipeline_iff : isPipeline thread = true ↔ isNonPipelineThread thread = .ok false := by
  rw [isPipeline]
  rcases isNonPipelineThread thread with error | nonPipeline
  · simp only [Bool.false_eq_true, reduceCtorEq]
  · cases nonPipeline <;> simp only [Bool.not_true, Bool.not_false, Bool.false_eq_true,
      Except.ok.injEq, Bool.true_eq_false]

theorem isPipeline_other (h : isNonPipelineThread thread = .ok true) :
    isPipeline thread = false := by
  rw [isPipeline, h]
  rfl

theorem summaryOf_other (h : isNonPipelineThread thread = .ok true) :
    summaryOf env thread = none := by
  rw [summaryOf, isPipeline_other h]
  rfl

variable {summary : Summary}

theorem summaryOf_pipeline (h : isNonPipelineThread thread = .ok false)
    (hmap : env.mapThreadSummary thread = .ok summary) :
    summaryOf env thread = some summary := by
  rw [summaryOf, if_pos (isPipeline_iff.mpr h), hmap]
  rfl

@[simp] theorem pipelines_nil : pipelines env [] = [] := rfl

theorem pipelines_append (ts us : List Thread) :
    pipelines env (ts ++ us) = pipelines env ts ++ pipelines env us :=
  filterMap_append

theorem pipelines_cons_other (h : isNonPipelineThread thread = .ok true) :
    pipelines env (thread :: threads) = pipelines env threads :=
  filterMap_cons_none (summaryOf_other h)

theorem pipelines_cons (h : isNonPipelineThread thread = .ok false)
    (hmap : env.mapThreadSummary thread = .ok summary) :
    pipelines env (thread :: threads) = summary :: pipelines env threads :=
  filterMap_cons_some (summaryOf_pipeline h hmap)

theorem length_pipelines (hread : ∀ t ∈ threads, Readable env t) :
    (pipelines env threads).length = threads.countP isPipeline := by
  induction threads with
  | nil => rfl
  | cons t ts ih =>
    have hrest := ih fun u hu => hread u (mem_cons_of_mem _ hu)
    rcases hread t mem_cons_self with hother | ⟨hpipeline, summary, hmap⟩
    · have hnot : ¬ isPipeline t = true := by
        rw [isPipeline_other hother]
        exact Bool.false_ne_true
      rw [pipelines_cons_other hother, hrest, countP_cons_of_neg hnot]
    · rw [pipelines_cons hpipeline hmap, length_cons, hrest,
        countP_cons_of_pos (isPipeline_iff.mpr hpipeline)]

end

section

variable {env : ListEnv}

theorem searchPage_ok {status : Option String} {label : String} {limit offset : Nat}
    (h : env.withinBudget (((env.threads status).drop offset).take limit) = true) :
    searchPage env status label limit offset
      = .ok (((env.threads status).drop offset).take limit) := by
  rw [searchPage]
  exact if_pos h

theorem collect_ok {targetItems : Nat} : ∀ {threads : List Thread} {items : List Summary},
    (∀ t ∈ threads, Readable env t) → items.length < targetItems →
      collect env targetItems threads items
        = .ok ((items ++ pipelines env threads).take targetItems)
  | [], items, _, hroom => by
    rw [pipelines_nil, append_nil, take_of_length_le (Nat.le_of_lt hroom)]
    rfl
  | t :: ts, items, hread, hroom => by
    have hrest : ∀ u ∈ ts, Readable env u := fun u hu => hread u (mem_cons_of_mem _ hu)
    rcases hread t mem_cons_self with hother | ⟨hpipeline, summary, hmap⟩
    · rw [pipelines_cons_other hother, ← collect_ok hrest hroom, collect, hother]
      rfl
    · rw [pipelines_cons hpipeline hmap, collect, hpipeline]
      show (env.mapThreadSummary t >>= _) = _
      rw [hmap]
      show (if targetItems ≤ (items ++ [summary]).length then _ else _) = _
      have hsplit : items ++ summary :: pipelines env ts
          = (items ++ [summary]) ++ pipelines env ts := by
        rw [append_assoc, singleton_append]
      by_cases hfull : targetItems ≤ (items ++ [summary]).length
      · have hlength : (items ++ [summary]).length = targetItems := by
          rw [length_append, length_singleton] at hfull ⊢
          omega
        rw [if_pos hfull, hsplit, ← hlength, take_left]
        rfl
      · rw [if_neg hfull, hsplit]
        exact collect_ok hrest (Nat.lt_of_not_le hfull)

theorem pageSummaries_ok : ∀ {threads : List Thread}, (∀ t ∈ threads, Readable env t) →
    pageSummaries env threads = .ok (pipelines env threads)
  | [], _ => rfl
  | t :: ts, hread => by
    have hrest := pageSummaries_ok fun u hu => hread u (mem_cons_of_mem _ hu)
    rcases hread t mem_cons_self with hother | ⟨hpipeline, summary, hmap⟩
    · rw [pipelines_cons_other hother, ← hrest, pageSummaries, hother]
      rfl
    · rw [pipelines_cons hpipeline hmap, pageSummaries, hpipeline]
      show (env.mapThreadSummary t >>= _) = _
      rw [hmap]
      show (pageSummaries env ts >>= _) = _
      rw [hrest]
      rfl

end

/-- What a finished scan has seen of a sequence: as much as it was to look for, or it says so
    unless the runtime holds no more than it may look at. -/
structure Seen (target size ceiling : Nat) (xs : List Summary) (scan : Scan) : Prop where
  items : scan.items.take target = xs.take target
  short : scan.isPartial = true → scan.items.length < target
  whole : scan.isPartial = false → scan.items.length < target → size ≤ ceiling

theorem window_split (ts : List Thread) {start count ceiling : Nat} (h : count ≤ ceiling - start) :
    (ts.drop start).take (ceiling - start)
      = (ts.drop start).take count
        ++ (ts.drop (start + count)).take (ceiling - (start + count)) := by
  have hsum : ceiling - start = count + (ceiling - (start + count)) := by omega
  rw [hsum, take_add, drop_drop]

theorem window_short {ts : List Thread} {start count : Nat}
    (h : ((ts.drop start).take count).length < count) : ts.length < start + count := by
  rw [length_take, length_drop] at h
  omega

section

variable {env : ListEnv} {status : Option String} {targetItems scanCeiling pageSize : Nat}

variable {scan : Scan} {items : List Summary} {page : List Thread} {count start : Nat}

theorem scanPipelines_stop (h : ¬ (scan.scanOffset < scanCeiling ∧ scan.items.length < targetItems))
    (fuel : Nat) :
    scanPipelines env status targetItems scanCeiling pageSize fuel scan = .ok scan := by
  cases fuel with
  | zero => rfl
  | succ fuel => rw [scanPipelines, if_neg h]

theorem scanPipelines_turn (hread : ∀ t ∈ page, Readable env t)
    (hbudget : env.withinBudget page = true) (hstart : start < scanCeiling)
    (hroom : items.length < targetItems) (hcount : min pageSize (scanCeiling - start) = count)
    (hpage : ((env.threads status).drop start).take count = page) (fuel : Nat) :
    scanPipelines env status targetItems scanCeiling pageSize (fuel + 1) ⟨start, items, false⟩
      = if page.length < count then
          .ok ⟨start + page.length, (items ++ pipelines env page).take targetItems, false⟩
        else
          scanPipelines env status targetItems scanCeiling pageSize fuel
            ⟨start + page.length, (items ++ pipelines env page).take targetItems,
              decide (scanCeiling ≤ start + page.length ∧
                ((items ++ pipelines env page).take targetItems).length < targetItems)⟩ := by
  have hfetch : searchPage env status "pipeline thread search" count start = .ok page := by
    rw [searchPage_ok (hpage.symm ▸ hbudget), hpage]
  have hguard : start < scanCeiling ∧ items.length < targetItems := ⟨hstart, hroom⟩
  rw [scanPipelines, if_pos hguard, hcount]
  show (searchPage env status _ count start >>= _) = _
  rw [hfetch]
  show (collect env targetItems page items >>= _) = _
  rw [collect_ok hread hroom]
  by_cases hshort : page.length < count
  · rw [if_pos hshort]
    exact if_pos hshort
  · rw [if_neg hshort]
    exact if_neg hshort

theorem scanPipelines_spec (hsize : 0 < pageSize) (hread : ∀ t ∈ env.threads status, Readable env t)
    (hbudget : ∀ offset count, count ≤ pageSize →
      env.withinBudget (((env.threads status).drop offset).take count) = true) :
    ∀ (fuel start : Nat) (items : List Summary), scanCeiling - start ≤ fuel →
      start < scanCeiling → items.length < targetItems →
        ∃ scan, scanPipelines env status targetItems scanCeiling pageSize fuel
            ⟨start, items, false⟩ = .ok scan ∧
          Seen targetItems (env.threads status).length scanCeiling
            (items ++ pipelines env
              (((env.threads status).drop start).take (scanCeiling - start))) scan := by
  intro fuel
  induction fuel with
  | zero =>
    intro start items hfuel hstart _
    omega
  | succ fuel ih =>
    intro start items hfuel hstart hroom
    generalize hcount : min pageSize (scanCeiling - start) = count
    generalize hpage : ((env.threads status).drop start).take count = page
    have hpos : 0 < count := by omega
    have hwindow := @window_split (env.threads status) start count scanCeiling (by omega)
    rw [hpage] at hwindow
    rw [hwindow, pipelines_append, ← append_assoc,
      scanPipelines_turn (fun t ht => hread t (mem_of_mem_drop
          (mem_of_mem_take (hpage.symm ▸ ht))))
        (hpage ▸ hbudget start count (by omega)) hstart hroom hcount hpage]
    by_cases hshort : page.length < count
    · -- The runtime has no more threads, so nothing follows the window.
      have hend := window_short (hpage.symm ▸ hshort)
      rw [if_pos hshort, drop_eq_nil_of_le (Nat.le_of_lt hend), take_nil, pipelines_nil, append_nil]
      refine ⟨_, rfl, ⟨?_, fun h => absurd h Bool.false_ne_true, fun _ _ => by omega⟩⟩
      rw [take_take, Nat.min_self]
    rw [if_neg hshort]
    have hlength : page.length = count := by
      have hle := length_take_le count ((env.threads status).drop start)
      rw [hpage] at hle
      omega
    rw [hlength]
    by_cases hfull : ((items ++ pipelines env page).take targetItems).length < targetItems
    · have hall : (items ++ pipelines env page).take targetItems = items ++ pipelines env page := by
        rw [length_take] at hfull
        exact take_of_length_le (by omega)
      rw [hall] at hfull ⊢
      by_cases hceiling : scanCeiling ≤ start + count
      · -- The ceiling is reached with too few pipelines.
        rw [scanPipelines_stop fun h => absurd h.1 (Nat.not_lt.mpr hceiling),
          Nat.sub_eq_zero_of_le hceiling, take_zero, pipelines_nil, append_nil]
        refine ⟨_, rfl, ⟨rfl, fun _ => hfull, fun h => ?_⟩⟩
        exact absurd ⟨hceiling, hfull⟩ (of_decide_eq_false h)
      · rw [decide_eq_false fun h => hceiling h.1]
        exact ih (start + count) _ (by omega) (by omega) hfull
    · -- Enough pipelines were found.
      rw [scanPipelines_stop fun h => hfull h.2, decide_eq_false fun h => hfull h.2]
      refine ⟨_, rfl, ⟨?_, fun h => absurd h Bool.false_ne_true, fun _ h => absurd h hfull⟩⟩
      have henough : targetItems ≤ (items ++ pipelines env page).length := by
        rw [length_take] at hfull
        omega
      rw [take_take, Nat.min_self, take_append_of_le_length henough]

theorem matchesIn_append (needle : String) (project : Option String) (ts us : List Thread) :
    matchesIn env needle project (ts ++ us)
      = matchesIn env needle project ts ++ matchesIn env needle project us := by
  rw [matchesIn, pipelines_append, filter_append, matchesIn, matchesIn]

variable {needle : String} {project : Option String} {goal : Nat}

theorem scanMatches_stop (h : MAX_PIPELINE_TEXT_SCAN_RECORDS ≤ scan.scanOffset) (fuel : Nat) :
    scanMatches env status needle project goal fuel scan = .ok scan := by
  cases fuel with
  | zero => rfl
  | succ fuel => rw [scanMatches, if_neg (Nat.not_lt.mpr h)]

theorem scanMatches_turn (hread : ∀ t ∈ page, Readable env t)
    (hbudget : env.withinBudget page = true) (hstart : start < MAX_PIPELINE_TEXT_SCAN_RECORDS)
    (hcount : min PIPELINE_TEXT_SCAN_PAGE_SIZE (MAX_PIPELINE_TEXT_SCAN_RECORDS - start) = count)
    (hpage : ((env.threads status).drop start).take count = page) (fuel : Nat) :
    scanMatches env status needle project goal (fuel + 1) ⟨start, items, false⟩
      = if goal ≤ (items ++ matchesIn env needle project page).length then
          .ok ⟨start, items ++ matchesIn env needle project page, false⟩
        else if page.length < count then
          .ok ⟨start, items ++ matchesIn env needle project page, false⟩
        else
          scanMatches env status needle project goal fuel
            ⟨start + count, items ++ matchesIn env needle project page,
              decide (MAX_PIPELINE_TEXT_SCAN_RECORDS ≤ start + count)⟩ := by
  have hfetch : searchPage env status "pipeline text-search thread page" count start
      = .ok page := by
    rw [searchPage_ok (hpage.symm ▸ hbudget), hpage]
  rw [scanMatches, if_pos hstart, hcount]
  show (searchPage env status _ count start >>= _) = _
  rw [hfetch]
  show (pageSummaries env page >>= _) = _
  rw [pageSummaries_ok hread]
  by_cases henough : goal ≤ (items ++ matchesIn env needle project page).length
  · rw [if_pos henough]
    exact if_pos henough
  · rw [if_neg henough]
    refine (if_neg henough).trans ?_
    by_cases hshort : page.length < count
    · exact (if_pos hshort).trans (if_pos hshort).symm
    · exact (if_neg hshort).trans (if_neg hshort).symm

theorem scanMatches_spec (hread : ∀ t ∈ env.threads status, Readable env t)
    (hbudget : ∀ offset count, count ≤ PIPELINE_TEXT_SCAN_PAGE_SIZE →
      env.withinBudget (((env.threads status).drop offset).take count) = true) :
    ∀ (fuel start : Nat) (items : List Summary),
      MAX_PIPELINE_TEXT_SCAN_RECORDS - start ≤ fuel → start < MAX_PIPELINE_TEXT_SCAN_RECORDS →
        ∃ scan, scanMatches env status needle project goal fuel ⟨start, items, false⟩ = .ok scan ∧
          Seen goal (env.threads status).length MAX_PIPELINE_TEXT_SCAN_RECORDS
            (items ++ matchesIn env needle project
              (((env.threads status).drop start).take (MAX_PIPELINE_TEXT_SCAN_RECORDS - start)))
            scan := by
  intro fuel
  induction fuel with
  | zero =>
    intro start items hfuel hstart
    omega
  | succ fuel ih =>
    intro start items hfuel hstart
    generalize hcount : min PIPELINE_TEXT_SCAN_PAGE_SIZE
      (MAX_PIPELINE_TEXT_SCAN_RECORDS - start) = count
    generalize hpage : ((env.threads status).drop start).take count = page
    have hsize : 0 < PIPELINE_TEXT_SCAN_PAGE_SIZE := by decide
    have hwindow := @window_split (env.threads status) start count
      MAX_PIPELINE_TEXT_SCAN_RECORDS (by omega)
    rw [hpage] at hwindow
    rw [hwindow, matchesIn_append, ← append_assoc,
      scanMatches_turn (fun t ht => hread t (mem_of_mem_drop
          (mem_of_mem_take (hpage.symm ▸ ht))))
        (hpage ▸ hbudget start count (by omega)) hstart hcount hpage]
    by_cases henough : goal ≤ (items ++ matchesIn env needle project page).length
    · rw [if_pos henough]
      refine ⟨_, rfl, ⟨?_, fun h => absurd h Bool.false_ne_true, fun _ h => ?_⟩⟩
      · rw [take_append_of_le_length henough]
      · exact absurd henough (Nat.not_le.mpr h)
    rw [if_neg henough]
    by_cases hshort : page.length < count
    · -- The runtime has no more threads, so nothing follows the window.
      have hend := window_short (hpage.symm ▸ hshort)
      rw [if_pos hshort, drop_eq_nil_of_le (Nat.le_of_lt hend), take_nil]
      refine ⟨_, rfl, ⟨?_, fun h => absurd h Bool.false_ne_true, fun _ _ => by omega⟩⟩
      show _ = (_ ++ []).take goal
      rw [append_nil]
    rw [if_neg hshort]
    by_cases hceiling : MAX_PIPELINE_TEXT_SCAN_RECORDS ≤ start + count
    · -- The prefix has been looked at with too few matches.
      rw [scanMatches_stop hceiling, Nat.sub_eq_zero_of_le hceiling, take_zero]
      refine ⟨_, rfl, ⟨?_, fun _ => Nat.lt_of_not_le henough, fun h => ?_⟩⟩
      · show _ = (_ ++ []).take goal
        rw [append_nil]
      · exact absurd hceiling (of_decide_eq_false h)
    · rw [decide_eq_false hceiling]
      exact ih (start + count) _ (by omega) (by omega)

end

end Apex.Services.PipelineRead
