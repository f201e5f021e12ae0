import Apex.Theory.PipelineRead.Scans
import Mathlib.Data.List.Infix

/-!
# Walking the List of Pipelines

A caller walks the list by asking for the offsets `0`, `limit`, `2 * limit` and so on.
What has to come out are the pipelines among the runtime's threads, and nothing is to
come twice. With a filter it does: the scan starts at the first thread whatever the
offset is, so each page is a slice of the same sequence of matches. Without one it does
as long as the page ends within the first thousand pipelines, for the same reason.

A later page starts at the raw thread with the number of its offset. That is the
pipeline the walk has got to only if every thread before it is a pipeline. One thread of
another kind among them, and the page begins with pipelines that were already listed.
`Drifts` is that situation at one page, in terms of the threads alone, and
`pages_cover_iff` says that it is the only one in which the walk goes wrong.

## Main definitions

* `Lists`: The pages at multiples of the limit hand out a sequence.
* `Drifts`: A page past the first thousand that repeats pipelines.

## Theorems

* `listPipelines_shallow`, `listPipelines_deep`, `listPipelines_filtered`: One page.
* `reached_of_drifts`: The walk gets to a page that drifts.
* `lists_filtered`: Walking a filtered list is right.
-/

namespace Apex.Services.PipelineRead

open List

/-- A page that holds some items, and says so unless the runtime holds no more than was
    looked at. -/
structure Shows (limit size ceiling : Nat) (items : List Summary) (page : Page Summary) :
    Prop where
  items : page.items = items
  short : page.isPartial = true → page.items.length < limit
  whole : page.isPartial = false → page.items.length < limit → size ≤ ceiling

theorem length_slice (items : List Summary) (offset limit : Nat) :
    (slice items offset limit).length = min limit (items.length - offset) := by
  rw [slice, length_take, length_drop]

theorem slice_take (items : List Summary) (offset limit : Nat) :
    slice (items.take (offset + limit)) offset limit = slice items offset limit := by
  rw [slice, drop_take, Nat.add_sub_cancel_left, take_take, Nat.min_self, slice]

theorem Seen.shows {offset limit size ceiling : Nat} {xs : List Summary} {scan : Scan}
    (h : Seen (offset + limit) size ceiling xs scan) (hlimit : 0 < limit) :
    Shows limit size ceiling (slice xs offset limit)
      ⟨slice scan.items offset limit, scan.isPartial⟩ := by
  refine ⟨?_, fun hp => ?_, fun hp hshort => h.whole hp ?_⟩
  · show slice scan.items offset limit = _
    rw [← slice_take, h.items, slice_take]
  · show (slice scan.items offset limit).length < limit
    have := h.short hp
    rw [length_slice]
    omega
  · have hlength : (slice scan.items offset limit).length < limit := hshort
    rw [length_slice] at hlength
    omega

section

variable {env : ListEnv} {status project q : Option String} {limit offset : Nat}

section

variable (hfilter : unfiltered q project = true) (hlimit : 0 < limit)
  (hread : ∀ t ∈ env.threads status, Readable env t)
  (hbudget : ∀ offset count, count ≤ max limit PIPELINE_TEXT_SCAN_PAGE_SIZE → env.withinBudget
  (((env.threads status).drop offset).take count) = true)

include hfilter hlimit hread hbudget

theorem listPipelines_shallow
    (h : offset = 0 ∨ offset + limit ≤ MAX_PIPELINE_TEXT_SCAN_RECORDS) :
    ∃ page, listPipelines env project status q limit offset = .ok page ∧
      Shows limit (env.threads status).length (offset + MAX_PIPELINE_TEXT_SCAN_RECORDS)
        (slice (pipelines env ((env.threads status).take
          (offset + MAX_PIPELINE_TEXT_SCAN_RECORDS))) offset limit) page := by
  have hrecords : 0 < MAX_PIPELINE_TEXT_SCAN_RECORDS := by decide
  have hsize : 0 < PIPELINE_TEXT_SCAN_PAGE_SIZE := by decide
  rcases Nat.eq_zero_or_pos offset with rfl | hpos
  · -- The first page: the offset is the start of the scan.
    rcases @scanPipelines_spec env status (0 + limit) (0 + MAX_PIPELINE_TEXT_SCAN_RECORDS) limit
      hlimit hread (fun o c hc => hbudget o c (by omega)) (0 + MAX_PIPELINE_TEXT_SCAN_RECORDS) 0 []
      (Nat.le_refl _) (by omega) (by rw [length_nil]; omega) with ⟨scan, hscan, hseen⟩
    have hstart : ¬ (0 < 0 ∧ 0 + limit ≤ MAX_PIPELINE_TEXT_SCAN_RECORDS) := by omega
    rw [Nat.zero_add] at hscan
    refine ⟨⟨slice scan.items 0 limit, scan.isPartial⟩, ?_, hseen.shows hlimit⟩
    rw [listPipelines, if_pos hfilter, decide_eq_false hstart]
    show (scanPipelines env status limit _ limit (0 + MAX_PIPELINE_TEXT_SCAN_RECORDS)
      ⟨0, [], false⟩ >>= _) = _
    rw [hscan]
    rfl
  · have hin := h.resolve_left (Nat.ne_of_gt hpos)
    rcases @scanPipelines_spec env status (offset + limit) (offset + MAX_PIPELINE_TEXT_SCAN_RECORDS)
      (min (max limit (min (offset + limit) PIPELINE_TEXT_SCAN_PAGE_SIZE))
        (offset + MAX_PIPELINE_TEXT_SCAN_RECORDS)) (by omega) hread
      (fun o c hc => hbudget o c (by omega)) (offset + MAX_PIPELINE_TEXT_SCAN_RECORDS) 0 []
      (Nat.le_refl _) (by omega) (by rw [length_nil]; omega) with ⟨scan, hscan, hseen⟩
    have hstart : 0 < offset ∧ offset + limit ≤ MAX_PIPELINE_TEXT_SCAN_RECORDS := ⟨hpos, hin⟩
    refine ⟨⟨slice scan.items offset limit, scan.isPartial⟩, ?_, hseen.shows hlimit⟩
    rw [listPipelines, if_pos hfilter, decide_eq_true hstart]
    show (scanPipelines env status (offset + limit) _
      (min (max limit (min (offset + limit) PIPELINE_TEXT_SCAN_PAGE_SIZE))
        (offset + MAX_PIPELINE_TEXT_SCAN_RECORDS)) (offset + MAX_PIPELINE_TEXT_SCAN_RECORDS)
      ⟨0, [], false⟩ >>= _) = _
    rw [hscan]
    rfl

theorem listPipelines_deep
    (h : MAX_PIPELINE_TEXT_SCAN_RECORDS < offset + limit) :
    ∃ page, listPipelines env project status q limit offset = .ok page ∧
      Shows limit (env.threads status).length (offset + MAX_PIPELINE_TEXT_SCAN_RECORDS)
        ((pipelines env (((env.threads status).drop offset).take
          MAX_PIPELINE_TEXT_SCAN_RECORDS)).take limit) page := by
  have hrecords : 0 < MAX_PIPELINE_TEXT_SCAN_RECORDS := by decide
  rcases @scanPipelines_spec env status (0 + limit) (offset + MAX_PIPELINE_TEXT_SCAN_RECORDS) limit
    hlimit hread (fun o c hc => hbudget o c (by omega))
    (offset + MAX_PIPELINE_TEXT_SCAN_RECORDS - offset) offset [] (Nat.le_refl _) (by omega) (by rw [length_nil]; omega) with ⟨scan, hscan, hseen⟩
  have hstart : ¬ (0 < offset ∧ offset + limit ≤ MAX_PIPELINE_TEXT_SCAN_RECORDS) := by omega
  rw [Nat.zero_add] at hscan
  rw [Nat.add_sub_cancel_left] at hseen
  refine ⟨⟨slice scan.items 0 limit, scan.isPartial⟩, ?_, hseen.shows hlimit⟩
  rw [listPipelines, if_pos hfilter, decide_eq_false hstart]
  show (scanPipelines env status limit _ limit
    (offset + MAX_PIPELINE_TEXT_SCAN_RECORDS - offset) ⟨offset, [], false⟩ >>= _) = _
  rw [hscan]
  rfl

end

theorem listPipelines_filtered (hfilter : unfiltered q project = false)
    (hq : (q.getD "").length ≤ MAX_PIPELINE_QUERY_CHARS) (hlimit : 0 < limit)
    (hread : ∀ t ∈ env.threads status, Readable env t)
    (hbudget : ∀ offset count, count ≤ max limit PIPELINE_TEXT_SCAN_PAGE_SIZE →
      env.withinBudget (((env.threads status).drop offset).take count) = true) :
    ∃ page, listPipelines env project status q limit offset = .ok page ∧
      Shows limit (env.threads status).length MAX_PIPELINE_TEXT_SCAN_RECORDS
        (slice (matchesIn env (env.casefold (q.getD "")) project
          ((env.threads status).take MAX_PIPELINE_TEXT_SCAN_RECORDS)) offset limit) page := by
  have hrecords : 0 < MAX_PIPELINE_TEXT_SCAN_RECORDS := by decide
  rcases @scanMatches_spec env status (env.casefold (q.getD "")) project (offset + limit) hread
    (fun o c hc => hbudget o c (by omega)) MAX_PIPELINE_TEXT_SCAN_RECORDS 0 []
    (Nat.le_refl _) hrecords with ⟨scan, hscan, hseen⟩
  refine ⟨⟨slice scan.items offset limit, scan.isPartial⟩, ?_, hseen.shows hlimit⟩
  rw [listPipelines, hfilter, if_neg Bool.false_ne_true, if_neg (Nat.not_lt.mpr hq)]
  show (scanMatches env status _ project (offset + limit) _ _ >>= _) = _
  rw [hscan]
  rfl

/-- The calls at offsets `0`, `limit`, `2 * limit` and so on are answered, and walking the
    answers hands out a sequence. -/
def Lists (answer : Nat → Except ListError (Page Summary)) (limit : Nat) (xs : List Summary) :
    Prop :=
  ∃ pages : Nat → Page Summary, (∀ n, answer (n * limit) = .ok (pages n)) ∧ Covers pages limit xs

/-- A page past the first thousand that the walk gets to, with a thread before it that is no
    pipeline's and one that is in the window it looks at. -/
structure Drifts (threads : List Thread) (limit n : Nat) : Prop where
  pos : 0 < n
  late : MAX_PIPELINE_TEXT_SCAN_RECORDS < (n + 1) * limit
  reached : ∀ m < n, (m + 1) * limit
    ≤ (threads.take (m * limit + MAX_PIPELINE_TEXT_SCAN_RECORDS)).countP isPipeline
  before : ∃ t ∈ threads.take (n * limit), isPipeline t = false
  after : ∃ t ∈ (threads.drop (n * limit)).take MAX_PIPELINE_TEXT_SCAN_RECORDS,
    isPipeline t = true

variable {start n : Nat} {page : Page Summary}

theorem continues_of_slice {size ceiling : Nat} {seen xs : List Summary}
    (h : Shows limit size ceiling (slice seen start limit) page) (hseen : seen <+: xs)
    (hwhole : size ≤ ceiling → seen = xs) :
    page.items <+: xs.drop start ∧ (page.isPartial = false → page.items.length < limit →
      page.items = xs.drop start) := by
  refine ⟨?_, fun hp hshort => ?_⟩
  · rw [h.items]
    exact (List.take_prefix _ _).trans (IsPrefix.drop hseen start)
  · have hall := hwhole (h.whole hp hshort)
    rw [h.items, hall, slice, length_take] at hshort
    rw [h.items, hall, slice]
    exact take_of_length_le (by omega)

theorem lists_filtered (hfilter : unfiltered q project = false)
    (hq : (q.getD "").length ≤ MAX_PIPELINE_QUERY_CHARS) (hlimit : 0 < limit)
    (hread : ∀ t ∈ env.threads status, Readable env t)
    (hbudget : ∀ offset count, count ≤ max limit PIPELINE_TEXT_SCAN_PAGE_SIZE →
      env.withinBudget (((env.threads status).drop offset).take count) = true) :
    Lists (listPipelines env project status q limit) limit
      (matchesIn env (env.casefold (q.getD "")) project
        ((env.threads status).take MAX_PIPELINE_TEXT_SCAN_RECORDS)) := by
  choose pages hpages hshows using fun n =>
    @listPipelines_filtered env status project q limit (n * limit) hfilter hq hlimit hread hbudget
  refine ⟨pages, hpages, covers_of_page fun n _ => ?_⟩
  exact continues_of_slice (hshows n) (prefix_refl _) fun _ => rfl

theorem pipelines_take_begins (env : ListEnv) (ts : List Thread) (k : Nat) :
    pipelines env (ts.take k) <+: pipelines env ts := by
  refine ⟨pipelines env (ts.drop k), ?_⟩
  rw [← pipelines_append, take_append_drop]

variable {ts threads : List Thread}

/-- Where every thread before an offset is a pipeline's, raw offsets and offsets among the
    pipelines agree. -/
theorem pipelines_drop_of_all (hread : ∀ t ∈ ts, Readable env t)
    (hall : ∀ t ∈ ts.take start, isPipeline t = true) (count : Nat) :
    (pipelines env (ts.take (start + count))).drop start
      = pipelines env ((ts.drop start).take count) := by
  have hlength : (pipelines env (ts.take start)).length = min start ts.length := by
    rw [length_pipelines fun t ht => hread t (mem_of_mem_take ht),
      countP_eq_length.mpr hall, length_take]
  rw [take_add, pipelines_append]
  rcases Nat.le_total start ts.length with hle | hle
  · rw [drop_append_of_le_length (by omega), drop_eq_nil_of_le (by omega), nil_append]
  · rw [drop_eq_nil_of_le hle, take_nil, pipelines_nil, append_nil, drop_eq_nil_of_le (by omega)]

theorem pipelines_take_lt (hread : ∀ t ∈ ts, Readable env t)
    (hother : ∃ t ∈ ts.take start, isPipeline t = false) :
    (pipelines env (ts.take start)).length < start := by
  rcases hother with ⟨t, ht, hnot⟩
  have hne : (ts.take start).countP isPipeline ≠ (ts.take start).length := by
    intro heq
    have := countP_eq_length.mp heq t ht
    rw [hnot] at this
    exact Bool.false_ne_true this
  have hle := @countP_le_length _ isPipeline (ts.take start)
  have htake := length_take_le start ts
  rw [length_pipelines fun u hu => hread u (mem_of_mem_take hu)]
  omega

/-- A page that continues the pipelines before its offset. -/
structure Continues (env : ListEnv) (threads : List Thread) (limit n : Nat)
    (page : Page Summary) : Prop where
  aligned : 0 < n → MAX_PIPELINE_TEXT_SCAN_RECORDS < (n + 1) * limit →
    ∀ t ∈ threads.take (n * limit), isPipeline t = true
  shows : Shows limit threads.length (n * limit + MAX_PIPELINE_TEXT_SCAN_RECORDS)
    (slice (pipelines env (threads.take (n * limit + MAX_PIPELINE_TEXT_SCAN_RECORDS)))
      (n * limit) limit) page

/-- A page that starts at a raw offset with a thread before it that is no pipeline's. -/
structure Restarts (env : ListEnv) (threads : List Thread) (limit n : Nat)
    (page : Page Summary) : Prop where
  pos : 0 < n
  late : MAX_PIPELINE_TEXT_SCAN_RECORDS < (n + 1) * limit
  before : ∃ t ∈ threads.take (n * limit), isPipeline t = false
  shows : Shows limit threads.length (n * limit + MAX_PIPELINE_TEXT_SCAN_RECORDS)
    ((pipelines env ((threads.drop (n * limit)).take MAX_PIPELINE_TEXT_SCAN_RECORDS)).take
      limit) page

theorem listPipelines_unfiltered (hfilter : unfiltered q project = true) (hlimit : 0 < limit)
    (hread : ∀ t ∈ env.threads status, Readable env t)
    (hbudget : ∀ offset count, count ≤ max limit PIPELINE_TEXT_SCAN_PAGE_SIZE →
      env.withinBudget (((env.threads status).drop offset).take count) = true) (n : Nat) :
    ∃ page, listPipelines env project status q limit (n * limit) = .ok page ∧
      (Continues env (env.threads status) limit n page ∨
        Restarts env (env.threads status) limit n page) := by
  have hend : (n + 1) * limit = n * limit + limit := Nat.succ_mul n limit
  by_cases hshallow : n = 0 ∨ (n + 1) * limit ≤ MAX_PIPELINE_TEXT_SCAN_RECORDS
  · have h : n * limit = 0 ∨ n * limit + limit ≤ MAX_PIPELINE_TEXT_SCAN_RECORDS := by
      rcases hshallow with rfl | hle
      · exact .inl (Nat.zero_mul limit)
      · exact .inr (hend ▸ hle)
    rcases listPipelines_shallow hfilter hlimit hread hbudget h with ⟨page, hpage, hshows⟩
    refine ⟨page, hpage, .inl ⟨fun hpos hlate => ?_, hshows⟩⟩
    rcases hshallow with rfl | hle
    · exact absurd hpos (Nat.lt_irrefl 0)
    · exact absurd hle (Nat.not_le.mpr hlate)
  · rcases not_or.mp hshallow with ⟨hne, hlate⟩
    have hlate' := Nat.lt_of_not_le hlate
    rcases listPipelines_deep hfilter hlimit hread hbudget (hend ▸ hlate')
      with ⟨page, hpage, hshows⟩
    refine ⟨page, hpage, ?_⟩
    by_cases hother : ∃ t ∈ (env.threads status).take (n * limit), isPipeline t = false
    · exact .inr ⟨Nat.pos_of_ne_zero hne, hlate', hother, hshows⟩
    · have hall : ∀ t ∈ (env.threads status).take (n * limit), isPipeline t = true := by
        intro t ht
        rw [← Bool.not_eq_false]
        exact fun hnot => hother ⟨t, ht, hnot⟩
      rw [← pipelines_drop_of_all hread hall] at hshows
      exact .inl ⟨fun _ _ => hall, hshows⟩

/-- A full page that continues the walk has found as many pipelines as the walk has seen
    after it. -/
theorem Continues.count (h : Continues env threads limit n page)
    (hread : ∀ t ∈ threads, Readable env t) (hlimit : 0 < limit)
    (hfull : page.items.length = limit) :
    (n + 1) * limit
      ≤ (threads.take (n * limit + MAX_PIPELINE_TEXT_SCAN_RECORDS)).countP isPipeline := by
  rw [h.shows.items, length_slice,
    length_pipelines fun t ht => hread t (mem_of_mem_take ht)] at hfull
  rw [Nat.succ_mul]
  omega

theorem Continues.full (h : Continues env threads limit n page)
    (hread : ∀ t ∈ threads, Readable env t) (hcount : (n + 1) * limit
      ≤ (threads.take (n * limit + MAX_PIPELINE_TEXT_SCAN_RECORDS)).countP isPipeline) :
    page.Full limit := by
  have hlength : page.items.length = limit := by
    rw [h.shows.items, length_slice, length_pipelines fun t ht => hread t (mem_of_mem_take ht)]
    rw [Nat.succ_mul] at hcount
    omega
  refine ⟨hlength, Bool.eq_false_iff.mpr fun hp => ?_⟩
  have := h.shows.short hp
  omega

/-- Where a page restarts, either the window holds a pipeline or there are too few for the
    walk to go on. -/
theorem Restarts.after_of_count (h : Restarts env threads limit n page)
    (hread : ∀ t ∈ threads, Readable env t) (hcount : (n + 1) * limit
      ≤ (threads.take (n * limit + MAX_PIPELINE_TEXT_SCAN_RECORDS)).countP isPipeline) :
    ∃ t ∈ (threads.drop (n * limit)).take MAX_PIPELINE_TEXT_SCAN_RECORDS, isPipeline t = true := by
  by_contra hnone
  have hzero : ((threads.drop (n * limit)).take MAX_PIPELINE_TEXT_SCAN_RECORDS).countP isPipeline
      = 0 := countP_eq_zero.mpr fun t ht hpipeline => hnone ⟨t, ht, hpipeline⟩
  have hbefore := pipelines_take_lt hread h.before
  rw [length_pipelines fun t ht => hread t (mem_of_mem_take ht)] at hbefore
  rw [take_add, countP_append, hzero, Nat.succ_mul] at hcount
  omega

theorem Restarts.items_nil (h : Restarts env threads limit n page)
    (hread : ∀ t ∈ threads, Readable env t)
    (hnone : ¬ ∃ t ∈ (threads.drop (n * limit)).take MAX_PIPELINE_TEXT_SCAN_RECORDS,
      isPipeline t = true) :
    page.items = [] ∧ pipelines env
      ((threads.drop (n * limit)).take MAX_PIPELINE_TEXT_SCAN_RECORDS) = [] := by
  have hempty : pipelines env
      ((threads.drop (n * limit)).take MAX_PIPELINE_TEXT_SCAN_RECORDS) = [] := by
    refine length_eq_zero_iff.mp ?_
    rw [length_pipelines fun t ht => hread t (mem_of_mem_drop (mem_of_mem_take ht))]
    exact countP_eq_zero.mpr fun t ht hpipeline => hnone ⟨t, ht, hpipeline⟩
  refine ⟨?_, hempty⟩
  rw [h.shows.items, hempty, take_nil]

section

variable {threads : List Thread} {pages : Nat → Page Summary}

section

variable (hread : ∀ t ∈ threads, Readable env t) (hlimit : 0 < limit)
  (hpages : ∀ n, Continues env threads limit n (pages n) ∨ Restarts env threads limit n (pages n))
  (hdrift : ∀ n, ¬ Drifts threads limit n)

include hread hlimit hpages hdrift

/-- Without drift, each page before one that is reached has found enough pipelines. The
    induction is on the page that is reached, since whether an earlier one drifts depends on
    those before it. -/
theorem counts_of_reached :
    ∀ n, Reached pages limit n → ∀ m < n, (m + 1) * limit
      ≤ (threads.take (m * limit + MAX_PIPELINE_TEXT_SCAN_RECORDS)).countP isPipeline := by
  intro n
  induction n with
  | zero =>
    intro _ m hm
    exact absurd hm (Nat.not_lt_zero m)
  | succ n ih =>
    intro hreach m hm
    have hbefore := ih (hreach.mono (Nat.le_succ n))
    rcases Nat.lt_succ_iff_lt_or_eq.mp hm with hlt | rfl
    · exact hbefore m hlt
    have hfull := (hreach m (Nat.lt_succ_self m)).1
    rcases hpages m with hgood | hbad
    · exact hgood.count hread hlimit hfull
    · by_cases hafter : ∃ t ∈ (threads.drop (m * limit)).take MAX_PIPELINE_TEXT_SCAN_RECORDS,
          isPipeline t = true
      · exact absurd ⟨hbad.pos, hbad.late, hbefore, hbad.before, hafter⟩ (hdrift m)
      · rw [(hbad.items_nil hread hafter).1, length_nil] at hfull
        omega

theorem covers_of_no_drift :
    Covers pages limit (pipelines env threads) := by
  refine covers_of_page fun n hreach => ?_
  rcases hpages n with hgood | hbad
  · refine continues_of_slice hgood.shows (pipelines_take_begins env threads _) fun hsize => ?_
    rw [take_of_length_le hsize]
  · by_cases hafter : ∃ t ∈ (threads.drop (n * limit)).take MAX_PIPELINE_TEXT_SCAN_RECORDS,
        isPipeline t = true
    · have hcounts := counts_of_reached hread hlimit hpages hdrift n hreach
      exact absurd ⟨hbad.pos, hbad.late, hcounts, hbad.before, hafter⟩ (hdrift n)
    · rcases hbad.items_nil hread hafter with ⟨hnil, hempty⟩
      rw [hnil]
      refine ⟨List.nil_prefix, fun hp hshort => ?_⟩
      -- The window goes to the end, so every pipeline comes before it.
      have hsize := hbad.shows.whole hp (hnil ▸ hshort)
      rw [take_of_length_le (by rw [length_drop]; omega)] at hempty
      have hall : pipelines env threads = pipelines env (threads.take (n * limit)) := by
        conv_lhs => rw [← take_append_drop (n * limit) threads]
        rw [pipelines_append, hempty, append_nil]
      rw [hall, drop_eq_nil_of_le (Nat.le_of_lt (pipelines_take_lt hread hbad.before))]

end

theorem reached_of_drifts (hread : ∀ t ∈ threads, Readable env t)
    (hpages : ∀ n, Continues env threads limit n (pages n) ∨ Restarts env threads limit n (pages n))
    {n : Nat} (h : Drifts threads limit n) (hfirst : ∀ m < n, ¬ Drifts threads limit m) :
    Reached pages limit n := by
  intro m hm
  have hcount := h.reached m hm
  rcases hpages m with hgood | hbad
  · exact hgood.full hread hcount
  · have hafter := hbad.after_of_count hread hcount
    exact absurd ⟨hbad.pos, hbad.late, fun k hk => h.reached k (hk.trans hm), hbad.before, hafter⟩
      (hfirst m hm)

theorem Drifts.repeats {n : Nat} (h : Drifts threads limit n)
    (hread : ∀ t ∈ threads, Readable env t) (hlimit : 0 < limit) :
    ∃ x ∈ (pipelines env ((threads.drop (n * limit)).take MAX_PIPELINE_TEXT_SCAN_RECORDS)).take
      limit, x ∈ (pipelines env threads).take (n * limit) := by
  rcases h.after with ⟨t, ht, hpipeline⟩
  have hlength : 0 < (pipelines env
      ((threads.drop (n * limit)).take MAX_PIPELINE_TEXT_SCAN_RECORDS)).length := by
    rw [length_pipelines fun u hu => hread u (mem_of_mem_drop (mem_of_mem_take hu))]
    exact countP_pos_iff.mpr ⟨t, ht, hpipeline⟩
  have hbefore := pipelines_take_lt hread h.before
  have hparts : pipelines env threads = pipelines env (threads.take (n * limit))
      ++ (pipelines env ((threads.drop (n * limit)).take MAX_PIPELINE_TEXT_SCAN_RECORDS)
        ++ pipelines env ((threads.drop (n * limit)).drop MAX_PIPELINE_TEXT_SCAN_RECORDS)) := by
    rw [← pipelines_append, ← pipelines_append, take_append_drop, take_append_drop]
  rcases hwindow : pipelines env
    ((threads.drop (n * limit)).take MAX_PIPELINE_TEXT_SCAN_RECORDS) with _ | ⟨x, rest⟩
  · rw [hwindow, length_nil] at hlength
    exact absurd hlength (Nat.lt_irrefl 0)
  rw [hwindow] at hparts
  refine ⟨x, ?_, ?_⟩
  · obtain ⟨k, hk⟩ := Nat.exists_eq_succ_of_ne_zero (Nat.ne_of_gt hlimit)
    rw [hk, take_succ_cons]
    exact mem_cons_self
  · -- Fewer pipelines than the offset come before the window.
    rw [hparts, cons_append]
    exact mem_take_middle hbefore

theorem no_drift_of_covers (hread : ∀ t ∈ threads, Readable env t) (hlimit : 0 < limit)
    (hdistinct : (pipelines env threads).Nodup)
    (hpages : ∀ n, Continues env threads limit n (pages n) ∨ Restarts env threads limit n (pages n))
    (hcovers : Covers pages limit (pipelines env threads)) (n : Nat) :
    ¬ Drifts threads limit n := by
  induction n using Nat.strong_induction_on with
  | _ n ih =>
    intro h
    have hreach := reached_of_drifts hread hpages h ih
    rcases @Drifts.repeats env limit threads n h hread hlimit with ⟨x, hx, hseen⟩
    refine hcovers.fresh hdistinct hreach ?_ hseen
    rcases hpages n with hgood | hbad
    · rcases h.before with ⟨t, ht, hnot⟩
      rw [hgood.aligned h.pos h.late t ht] at hnot
      exact absurd hnot.symm Bool.false_ne_true
    · rw [hbad.shows.items]
      exact hx

end

/-- Walking the list is right exactly when no page drifts: with a project or a text filter it
    always is, and without one the pages hand out every pipeline once and in order. -/
theorem pages_cover_iff (hlimit : 0 < limit) (hread : ∀ t ∈ env.threads status, Readable env t)
    (hbudget : ∀ offset count, count ≤ max limit PIPELINE_TEXT_SCAN_PAGE_SIZE →
      env.withinBudget (((env.threads status).drop offset).take count) = true)
    (hdistinct : (pipelines env (env.threads status)).Nodup) :
    ((∀ q project, unfiltered q project = true →
        Lists (listPipelines env project status q limit) limit
          (pipelines env (env.threads status))) ∧
      ∀ q project, unfiltered q project = false →
        (q.getD "").length ≤ MAX_PIPELINE_QUERY_CHARS →
          Lists (listPipelines env project status q limit) limit
            (matchesIn env (env.casefold (q.getD "")) project
              ((env.threads status).take MAX_PIPELINE_TEXT_SCAN_RECORDS))) ↔
      ∀ n, ¬ Drifts (env.threads status) limit n := by
  constructor
  · rintro ⟨hunfiltered, _⟩
    rcases hunfiltered none none rfl with ⟨pages, hpages, hcovers⟩
    refine no_drift_of_covers hread hlimit hdistinct (fun n => ?_) hcovers
    rcases @listPipelines_unfiltered env status none none limit rfl hlimit hread hbudget n
      with ⟨page, hpage, hshown⟩
    rw [hpages n, Except.ok.injEq] at hpage
    exact hpage ▸ hshown
  · intro hdrift
    refine ⟨fun q project hfilter => ?_, fun q project hfilter hq =>
      lists_filtered hfilter hq hlimit hread hbudget⟩
    choose pages hpages hshown using
      @listPipelines_unfiltered env status project q limit hfilter hlimit hread hbudget
    exact ⟨pages, hpages, covers_of_no_drift hread hlimit hshown hdrift⟩

end

def sampleId (n : Nat) : String :=
  String.ofList [Nat.digitChar (n / 100), Nat.digitChar (n / 10 % 10), Nat.digitChar (n % 10)]

theorem sampleId_inj {n m : Nat} (hn : n < 1000) (hm : m < 1000) (h : sampleId n = sampleId m) :
    n = m := by
  have hdigit : ∀ a < 10, ∀ b < 10, Nat.digitChar a = Nat.digitChar b → a = b := by decide
  have hlist := congrArg String.toList h
  rw [sampleId, sampleId, String.toList_ofList, String.toList_ofList] at hlist
  simp only [cons.injEq, and_true] at hlist
  have hhundreds := hdigit (n / 100) (by omega) (m / 100) (by omega) hlist.1
  have htens := hdigit (n / 10 % 10) (by omega) (m / 10 % 10) (by omega) hlist.2.1
  have hunits := hdigit (n % 10) (by omega) (m % 10) (by omega) hlist.2.2
  omega

def sampleThread (graph : String) (n : Nat) : Thread :=
  (Dict.single "thread_id" (.str (sampleId n))).set "metadata" (.dict [("graph_id", .str graph)])

def sampleSummary (n : Nat) : Summary := ⟨sampleId n, none, none, [], ∅⟩

/-- A runtime with one context thread and some pipelines after it. -/
def sampleEnv (count : Nat) : ListEnv where
  threads _ := sampleThread "context" count :: (List.range count).map (sampleThread "pipeline")
  withinBudget _ := true
  mapThreadSummary thread :=
    match thread.get? "thread_id" with
    | some (.str threadId) => .ok ⟨threadId, none, none, [], ∅⟩
    | _ => .error .typeError
  casefold text := text.toLower

theorem sampleThread_other (n : Nat) :
    isNonPipelineThread (sampleThread "context" n) = .ok true := rfl

theorem sampleThread_pipeline (n : Nat) :
    isNonPipelineThread (sampleThread "pipeline" n) = .ok false := rfl

theorem sampleEnv_summary (count n : Nat) :
    (sampleEnv count).mapThreadSummary (sampleThread "pipeline" n) = .ok (sampleSummary n) := rfl

theorem sampleEnv_readable (count : Nat) :
    ∀ t ∈ (sampleEnv count).threads none, Readable (sampleEnv count) t := by
  intro t ht
  rcases mem_cons.mp ht with rfl | ht
  · exact .inl (sampleThread_other count)
  · rcases List.mem_map.mp ht with ⟨n, _, rfl⟩
    exact .inr ⟨sampleThread_pipeline n, _, sampleEnv_summary count n⟩

theorem sampleEnv_pipelines (count : Nat) :
    pipelines (sampleEnv count) ((sampleEnv count).threads none)
      = (range count).map sampleSummary := by
  refine (pipelines_cons_other (sampleThread_other count)).trans ?_
  rw [pipelines, filterMap_map]
  have hsome : summaryOf (sampleEnv count) ∘ sampleThread "pipeline"
      = fun n => some (sampleSummary n) := by
    funext n
    exact summaryOf_pipeline (sampleThread_pipeline n) (sampleEnv_summary count n)
  rw [hsome, filterMap_eq_map']

theorem sampleEnv_nodup {count : Nat} (hcount : count ≤ 1000) :
    (pipelines (sampleEnv count) ((sampleEnv count).threads none)).Nodup := by
  rw [sampleEnv_pipelines]
  refine (nodup_map_iff_inj_on nodup_range).mpr fun n hn m hm h => ?_
  rw [mem_range] at hn hm
  exact sampleId_inj (by omega) (by omega) (congrArg Summary.threadId h)

theorem sampleEnv_count (count k : Nat) :
    (((sampleEnv count).threads none).take (k + 1)).countP isPipeline = min k count := by
  have hnot : ¬ isPipeline (sampleThread "context" count) = true := by
    rw [isPipeline_other (sampleThread_other count)]
    exact Bool.false_ne_true
  have hall : ∀ t ∈ (((range count).map (sampleThread "pipeline")).take k),
      isPipeline t = true := by
    intro t ht
    rcases List.mem_map.mp (mem_of_mem_take ht) with ⟨n, _, rfl⟩
    exact isPipeline_iff.mpr (sampleThread_pipeline n)
  rw [sampleEnv, take_succ_cons, countP_cons_of_neg hnot, countP_eq_length.mpr hall,
    length_take, List.length_map, length_range]

/-- Past the first thousand the list without filters begins its pages at a raw offset: with a
    context thread and a thousand pipelines, the page at offset 1000 repeats a pipeline. -/
theorem sampleEnv_drifts : Drifts ((sampleEnv 1000).threads none) 100 10 := by
  refine ⟨by decide, by decide, fun m hm => ?_, ?_, ?_⟩
  · have hcount := sampleEnv_count 1000 (m * 100 + 999)
    have hindex : m * 100 + MAX_PIPELINE_TEXT_SCAN_RECORDS = m * 100 + 999 + 1 := rfl
    rw [hindex, hcount]
    omega
  · exact ⟨_, mem_cons_self, isPipeline_other (sampleThread_other 1000)⟩
  · refine ⟨sampleThread "pipeline" 999, ?_, isPipeline_iff.mpr (sampleThread_pipeline 999)⟩
    have hindex : 10 * 100 = 999 + 1 := rfl
    have hcount : 1000 = 999 + 1 := rfl
    have hlast : (range 1000).drop 999 = [999] := by
      rw [hcount, range_succ]
      exact drop_left' length_range
    rw [sampleEnv, hindex, drop_succ_cons, ← map_drop, hlast]
    exact mem_singleton.mpr rfl

theorem pages_repeat :
    ¬ Lists (listPipelines (sampleEnv 1000) none none none 100) 100
      (pipelines (sampleEnv 1000) ((sampleEnv 1000).threads none)) := by
  rintro ⟨pages, hpages, hcovers⟩
  refine no_drift_of_covers (sampleEnv_readable 1000) (by decide) (sampleEnv_nodup (Nat.le_refl _))
    (fun n => ?_) hcovers 10 sampleEnv_drifts
  rcases @listPipelines_unfiltered (sampleEnv 1000) none none none 100 rfl (by decide)
    (sampleEnv_readable 1000) (fun _ _ _ => rfl) n with ⟨page, hpage, hshown⟩
  rw [hpages n, Except.ok.injEq] at hpage
  exact hpage ▸ hshown

/-- With a context thread and two pipelines every walk is right. -/
theorem pages_cover_sample :
    Lists (listPipelines (sampleEnv 2) none none none 1) 1 [sampleSummary 0, sampleSummary 1] := by
  refine ((@pages_cover_iff (sampleEnv 2) none 1 (by decide) (sampleEnv_readable 2)
    (fun _ _ _ => rfl) (sampleEnv_nodup (by decide))).mpr fun n h => ?_).1 none none rfl
  have hlate := h.late
  have hmany := h.reached 2 (by
    have hrecords : MAX_PIPELINE_TEXT_SCAN_RECORDS = 1000 := rfl
    omega)
  have hcount := sampleEnv_count 2 1001
  have hindex : 2 * 1 + MAX_PIPELINE_TEXT_SCAN_RECORDS = 1001 + 1 := rfl
  rw [hindex, hcount] at hmany
  exact absurd hmany (by decide)

end Apex.Services.PipelineRead
