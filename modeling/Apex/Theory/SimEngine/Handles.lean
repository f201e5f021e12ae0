import Apex.Adapters.SimEngine
import Apex.Theory.ApexLoad.Durations

/-!
# What A Handle Of The Simulated Engine Stands For

The texts of a handle stand for a run: when it began, how long it takes, where it is to fail,
and how far it was when it was aborted. A call on a handle does what the run says, so that
beyond this file a run is numbers, and no text is parsed again.

## Main definitions

* `SimRun`: A run, with the bounds on its numbers.
* `SimRun.report`: The phase and the progress of a run at a time.

## Theorems

* `holds_provision`: What a new handle stands for.
* `getStatus_spec`, `abort_spec`, `fetchSummary_spec`: What the calls do.
-/

namespace Apex.Adapters.SimEngine

open List Option
open Decimal Domain
open String (ofList toList_ofList)

/-- A text that is read as a number, by every call that parses it. -/
def Reads (text : String) (q : ℚ) : Prop := (OptionValue.text text).reading = some (.finite q)

theorem readsAscii : ReadsAscii ApexLoad.decimalDigit? := by
  have hall : ['.', 'e', '+', '-'].all (fun c => (ApexLoad.decimalDigit? c).isNone) = true := by
    decide
  exact ⟨ApexLoad.decimalDigit_digitChar, fun c hc =>
    isNone_iff_eq_none.mp (List.all_eq_true.mp hall c hc)⟩

variable {cs : List Char} {q : ℚ}

theorem hasNul_numeric (h : ∀ c ∈ cs, IsNumeric c) :
    hasNul (ofList cs) = false := by
  rw [hasNul, toList_ofList, List.any_eq_false]
  intro c hc hnul
  rw [beq_iff_eq.mp hnul] at hc
  rcases h _ hc with ⟨d, hd, heq⟩ | hmem
  · have hall : ∀ d < 10, Char.ofNat 0 ≠ Nat.digitChar d := by decide
    exact hall d hd heq
  · revert hmem
    decide

theorem strip_numeric (h : ∀ c ∈ cs, IsNumeric c) :
    strip (ofList cs) = ofList cs := by
  refine ApexLoad.strip_of_no_space fun c hc => ApexLoad.isNumeric_not_space (h c ?_)
  rwa [toList_ofList] at hc

theorem reads_numeric (h : ∀ c ∈ cs, IsNumeric c) (hne : cs ≠ [])
    (hlen : cs.length ≤ maxNumericChars)
    (hread : readFloat ApexLoad.decimalDigit? cs = some (.finite q)) :
    Reads (ofList cs) q := by
  have hempty : ofList cs ≠ "" := by
    intro heq
    have htext := congrArg String.toList heq
    rw [toList_ofList] at htext
    exact hne htext
  dsimp only [Reads, OptionValue.reading]
  rw [strip_numeric h, if_neg, floatText, toList_ofList, hread]
  rw [String.length_ofList, hasNul_numeric h]
  simp only [Bool.false_eq_true, or_false, not_or, hempty, not_false_eq_true, true_and]
  omega

theorem reads_formatF {p : Nat} (hp : 0 < p) (hp' : p ≤ 6) (hq : 0 ≤ q)
    (hlt : q < 10 ^ 12) : Reads (ofList (formatF p q)) (fixed p q) := by
  have hlen := length_formatF_le (p := p) hlt
  have hread := readFloat_formatF readsAscii hp hq
  refine reads_numeric (isNumeric_formatF p q) ?_ (by rw [maxNumericChars]; omega) hread
  intro hnil
  rw [hnil] at hread
  cases hread

theorem reads_number (n : PyNumber) : Reads n.text n.value := by
  have hne : n.text ≠ "" := by
    intro heq
    have hread := n.float_text
    rw [heq] at hread
    cases hread
  dsimp only [Reads, OptionValue.reading]
  rw [n.strip_text, if_neg, n.float_text]
  rw [n.hasNul_text]
  simp only [Bool.false_eq_true, or_false, not_or, hne, not_false_eq_true, true_and]
  exact Nat.not_lt.mpr n.length_text

theorem boundedFloat_reads (label : String) (inclusive : Bool) {text : String} {minimum maximum : ℚ}
    (h : Reads text q) (hmin : if inclusive then minimum ≤ q else minimum < q)
    (hmax : q ≤ maximum) :
    boundedFloat (.text text) label minimum maximum inclusive = .ok q := by
  have hread : (OptionValue.text text).reading = some (.finite q) := h
  simp only [boundedFloat, hread]
  rw [if_pos ⟨hmin, hmax⟩]

theorem boundedInt_intText (label : String) {n : Int} (hn : 1 ≤ n) (hmax : n ≤ maxVusers) :
    boundedInt (.text (intText n)) label 1 maxVusers = .ok n := by
  have hdigits : ∀ d ∈ (Nat.digits 10 n.natAbs).reverse, d < 10 := fun d hd =>
    reverse_digits_lt hd
  have htext : intText n = ofList (digitChars (Nat.digits 10 n.natAbs).reverse) := by
    dsimp only [intText]
    rw [if_neg (by omega), if_neg (by omega), nil_append]
  have hlen : (Nat.digits 10 n.natAbs).length ≤ 5 := by
    refine (Nat.digits_length_le_iff (by norm_num) _).mpr ?_
    rw [maxVusers] at hmax
    omega
  have hspan : spanDigits asciiDigit? (digitChars (Nat.digits 10 n.natAbs).reverse ++ []) =
      ((Nat.digits 10 n.natAbs).reverse, []) :=
    spanDigits_chars asciiDigit_digitChar hdigits fun c hc => by cases hc
  rw [append_nil] at hspan
  have hne : (Nat.digits 10 n.natAbs).reverse ≠ [] := by
    rw [ne_eq, reverse_eq_nil_iff]
    exact Nat.digits_ne_nil_iff_ne_zero.mpr (by omega)
  have hread : intText? (digitChars (Nat.digits 10 n.natAbs).reverse) = some n := by
    rcases exists_cons_of_ne_nil hne with ⟨d, ds, heq⟩
    rw [intText?, hspan, heq]
    simp only [← heq, reverse_reverse, Nat.ofDigits_digits, some.injEq]
    omega
  dsimp only [boundedInt]
  rw [htext, strip_numeric (isNumeric_digitChars hdigits), toList_ofList,
    String.length_ofList, hread, if_neg]
  · dsimp only
    rw [if_neg (by omega)]
  · rw [digitChars, List.length_map, length_reverse, maxNumericChars]
    omega

/-- A run: the numbers that the texts of a handle stand for. -/
structure SimRun where
  startedAt : ℚ
  durationS : ℚ
  vusers : Int
  failAtPct : Option ℚ
  rampS : ℚ
  requestedS : ℚ
  slas : List (String × ℚ)
  started : 0 ≤ startedAt
  duration : 0 < durationS ∧ durationS ≤ maxDurationS
  users : 1 ≤ vusers ∧ vusers ≤ maxVusers
  failAt : ∀ f ∈ failAtPct, 0 ≤ f ∧ f ≤ 100
  ramp : 0 ≤ rampS ∧ rampS ≤ maxDurationS
  requested : 0 < requestedS ∧ requestedS ≤ maxDurationS
  acceptance : validatedSlas slas = .ok slas

/-- A text that may be missing stands for a number that may be missing. -/
inductive ReadsOption : Option String → Option ℚ → Prop
  | none : ReadsOption none none
  | some {text : String} {q : ℚ} (h : Reads text q) : ReadsOption (some text) (some q)

def Keeps (h : EngineHandle) (key : String) (q : ℚ) : Prop :=
  ∃ text, h.extras.get? key = some text ∧ Reads text q

inductive KeepsAbort (h : EngineHandle) : Option ℚ → Prop
  | none (hget : h.extras.get? "aborted" = none) : KeepsAbort h none
  | some {p : ℚ} (hget : h.extras.get? "aborted" = some "true")
      (hprogress : Keeps h "aborted_progress_pct" p) (hp : 0 ≤ p ∧ p ≤ 100) :
      KeepsAbort h (some p)

/-- A handle stands for a run, and for where it was aborted. -/
structure Holds (env : SimEnv) (run : SimRun) (aborted : Option ℚ) (h : EngineHandle) : Prop where
  runId : ∃ runId, h.externalRunId = some runId ∧ isSimRunId runId = true
  started : Keeps h "started_at" run.startedAt
  duration : Keeps h "duration_s" run.durationS
  users : h.extras.get? "vusers" = some (intText run.vusers)
  failAt : ReadsOption (h.extras.get? "fail_at_pct") run.failAtPct
  ramp : Keeps h "ramp_s" run.rampS
  requested : Keeps h "workload_duration_s" run.requestedS
  slas : ∃ raw, h.extras.get? "slas" = some raw ∧ env.loads raw = some (sortKeys run.slas)
  abort : KeepsAbort h aborted

namespace SimRun

variable (run : SimRun)

def progress (now : Instant) : ℚ := progressAt run.startedAt run.durationS now

/-- The phase and the progress of a run that has come so far. -/
def report (aborted : Option ℚ) (pct : ℚ) : EngineRunPhase × ℚ :=
  match aborted with
  | some p => (.aborted, p)
  | none =>
    match run.failAtPct.filter (fun f => f ≤ pct) with
    | some f => (.failed, fixed 1 f)
    | none => if 100 ≤ pct then (.completed, 100) else (.running, fixed 1 pct)

/-- The ratio of the users that are active, of those at the peak. -/
def ratio (pct : ℚ) : ℚ :=
  if run.rampS = 0 then 1 else min 1 (pct / 100 * run.requestedS / run.rampS)

def average : ℚ :=
  if run.rampS ≤ run.requestedS then run.vusers * (1 - run.rampS / run.requestedS / 2)
  else run.vusers * run.ratio 100 / 2

def kpis : List (String × ℚ) := kpisOf run.average (run.vusers * run.ratio 100)

theorem progress_bounds (now : Instant) : 0 ≤ run.progress now ∧ run.progress now ≤ 100 := by
  have hpos := run.duration.1
  rw [progress, progressAt, if_neg (not_le.mpr hpos)]
  refine ⟨le_min (by norm_num) ?_, min_le_left _ _⟩
  have helapsed : 0 ≤ max 0 (now.seconds - run.startedAt) := le_max_left _ _
  positivity

theorem progress_mono {now later : Instant} (h : now.seconds ≤ later.seconds) :
    run.progress now ≤ run.progress later := by
  have hpos := run.duration.1
  rw [progress, progress, progressAt, progressAt, if_neg (not_le.mpr hpos),
    if_neg (not_le.mpr hpos)]
  refine min_le_min le_rfl (mul_le_mul_of_nonneg_right ?_ (by norm_num))
  refine div_le_div_of_nonneg_right ?_ (le_of_lt hpos)
  exact max_le_max le_rfl (by linarith)

variable {pct : ℚ}

theorem ratio_bounds (hpct : 0 ≤ pct) : 0 ≤ run.ratio pct ∧ run.ratio pct ≤ 1 := by
  have hramp := run.ramp.1
  have hrequested := run.requested.1
  rw [ratio]
  split_ifs with hzero
  · norm_num
  · refine ⟨le_min (by norm_num) ?_, min_le_left _ _⟩
    positivity

theorem vusers_bounds : (1 : ℚ) ≤ run.vusers ∧ (run.vusers : ℚ) ≤ 10000 := by
  have h := run.users
  rw [maxVusers] at h
  exact ⟨by exact_mod_cast h.1, by exact_mod_cast h.2⟩

theorem peak_bounds (hpct : 0 ≤ pct) :
    0 ≤ (run.vusers : ℚ) * run.ratio pct ∧ (run.vusers : ℚ) * run.ratio pct ≤ 10000 := by
  have hratio := run.ratio_bounds hpct
  have husers := run.vusers_bounds
  constructor
  · exact mul_nonneg (by linarith) hratio.1
  · nlinarith

theorem average_bounds : 0 ≤ run.average ∧ run.average ≤ 10000 := by
  have hpeak := run.peak_bounds (show (0 : ℚ) ≤ 100 by norm_num)
  have husers := run.vusers_bounds
  have hramp := run.ramp.1
  have hrequested := run.requested.1
  rw [average]
  split_ifs with hle
  · have hshare : 0 ≤ run.rampS / run.requestedS ∧ run.rampS / run.requestedS ≤ 1 :=
      ⟨by positivity, (div_le_one hrequested).mpr hle⟩
    constructor
    · exact mul_nonneg (by linarith) (by linarith)
    · nlinarith
  · constructor
    · linarith
    · linarith

end SimRun

section

variable {env : SimEnv} {run : SimRun} {aborted : Option ℚ} {h : EngineHandle} {now : Instant}

theorem runIdOf_eq (hh : Holds env run aborted h) : ∃ runId, runIdOf h = .ok runId := by
  rcases hh.runId with ⟨runId, hid, hok⟩
  exact ⟨runId, by simp only [runIdOf, hid, hok, if_true]⟩

variable {key : String} {q : ℚ} {slas : List (String × ℚ)}

theorem requiredExtra_eq {text : String} (hget : h.extras.get? key = some text) :
    requiredExtra h key = .ok text := by
  rw [requiredExtra, hget]
  rfl

theorem optionalFloat_eq (label : String) {text : Option String} {q : Option ℚ}
    (hread : ReadsOption text q) (hq : ∀ f ∈ q, 0 ≤ f ∧ f ≤ 100) :
    optionalFloat (text.map .text) label 0 100 true = .ok q := by
  cases hread with
  | none => rfl
  | some hread =>
    have hbounds := hq _ rfl
    rw [map_some, optionalFloat, boundedFloat_reads label true hread hbounds.1 hbounds.2]
    rfl

theorem parseExtras_eq (hh : Holds env run aborted h)
    (hclock : run.startedAt ≤ now.seconds + maxClockSkewS) :
    parseExtras h now = .ok ⟨run.startedAt, run.durationS, run.vusers, run.failAtPct⟩ := by
  rcases runIdOf_eq hh with ⟨runId, hid⟩
  rcases hh.started with ⟨started, hstarted, hstartedReads⟩
  rcases hh.duration with ⟨duration, hduration, hdurationReads⟩
  have hstarted' := boundedFloat_reads "handle started_at" true hstartedReads run.started hclock
  have hduration' := boundedFloat_reads "handle duration_s" false hdurationReads run.duration.1
    run.duration.2
  have husers := boundedInt_intText "handle vusers" run.users.1 run.users.2
  have hfail := optionalFloat_eq "handle fail_at_pct" hh.failAt run.failAt
  simp only [parseExtras, hid, requiredExtra_eq hstarted, requiredExtra_eq hduration,
    requiredExtra_eq hh.users, hstarted', hduration', husers, hfail, bind, Except.bind, pure,
    Except.pure]

theorem extraValue_eq (hkeeps : Keeps h key q) :
    ∃ text, extraValue h key = .text text ∧ Reads text q := by
  rcases hkeeps with ⟨text, hget, hread⟩
  exact ⟨text, by rw [extraValue, hget], hread⟩

theorem has_of_keeps (hkeeps : Keeps h key q) :
    h.extras.has key = true := by
  rcases hkeeps with ⟨text, hget, _⟩
  rw [Dict.has, hget]
  rfl

theorem rampRatio_eq (hh : Holds env run aborted h) (pct : ℚ) :
    rampRatio h pct = .ok (run.ratio pct) := by
  rcases extraValue_eq hh.ramp with ⟨ramp, hramp, hrampReads⟩
  rcases extraValue_eq hh.requested with ⟨requested, hrequested, hrequestedReads⟩
  have hramp' := boundedFloat_reads "handle ramp_s" true hrampReads run.ramp.1 run.ramp.2
  have hrequested' := boundedFloat_reads "handle workload_duration_s" false hrequestedReads
    run.requested.1 run.requested.2
  simp only [rampRatio, has_of_keeps hh.ramp, Bool.not_true, Bool.false_and, Bool.false_eq_true,
    if_false, hramp, hrequested, hramp', hrequested', bind, Except.bind, pure, Except.pure,
    SimRun.ratio]

theorem engineRunStatus_eq {status : EngineRunStatus}
    (hprogress : 0 ≤ status.progressPct ∧ status.progressPct ≤ 100)
    (hlive : ∀ stats ∈ status.liveStats, stats.ok = true) :
    engineRunStatus status = .ok status := by
  have hstats : (status.liveStats.map LiveStats.ok).getD true = true := by
    cases hs : status.liveStats with
    | none => rfl
    | some stats => exact hlive stats hs
  rw [engineRunStatus, if_pos]
  rw [hstats, decide_eq_true hprogress]
  rfl

theorem liveStatsAt_ok {pct peak ratio : ℚ} (hpct : 0 ≤ pct ∧ pct ≤ 100)
    (hactive : 0 ≤ peak * ratio ∧ peak * ratio ≤ 10000) :
    (liveStatsAt pct peak ratio).ok = true := by
  have hbounds : ∀ (n : Nat) (b : ℚ) {q : ℚ}, 0 ≤ q → q ≤ n → (n : ℚ) ≤ b →
      0 ≤ fixed 1 q ∧ fixed 1 q ≤ b :=
    fun n b q hq hn hb => ⟨fixed_nonneg hq, (fixed_le hn).trans hb⟩
  have husers := hbounds 10000 1000000000 hactive.1 (by exact_mod_cast hactive.2) (by norm_num)
  have htps : 0 ≤ peak * ratio * tpsPerVuser ∧ peak * ratio * tpsPerVuser ≤ 24000 := by
    rw [tpsPerVuser]
    constructor
    · linarith
    · linarith
  have htps' := hbounds 24000 1000000000000 htps.1 (by exact_mod_cast htps.2) (by norm_num)
  have hp95 : 0 ≤ 180 + 3 / 5 * pct ∧ 180 + 3 / 5 * pct ≤ 240 := by
    constructor
    · linarith
    · linarith
  have hp95' := hbounds 240 1000000000000 hp95.1 (by exact_mod_cast hp95.2) (by norm_num)
  have herror : (0 : ℚ) ≤ baseErrorRate ∧ baseErrorRate ≤ 1 := by
    rw [baseErrorRate]
    norm_num
  rw [LiveStats.ok]
  simp only [liveStatsAt, husers, htps', herror, hp95', and_self, decide_true, Bool.and_self]

theorem getStatus_spec (hh : Holds env run aborted h)
    (hclock : run.startedAt ≤ now.seconds + maxClockSkewS) (later : Instant) :
    ∃ s, getStatus h now later = .ok s ∧
      (s.phase, s.progressPct) = run.report aborted (run.progress later) := by
  have hbounds := run.progress_bounds later
  have hpct : ∀ {q : ℚ}, 0 ≤ q ∧ q ≤ 100 → 0 ≤ fixed 1 q ∧ fixed 1 q ≤ 100 :=
    fun hq => ⟨fixed_nonneg hq.1, by exact_mod_cast fixed_le (n := 100) (by exact_mod_cast hq.2)⟩
  simp only [getStatus, parseExtras_eq hh hclock, bind, Except.bind]
  cases hh.abort with
  | @some p hget hprogress hp =>
    rcases hprogress with ⟨text, htext, hread⟩
    refine ⟨⟨.aborted, p, none, "simulated run aborted"⟩, ?_, rfl⟩
    simp only [hget, if_true, abortedStatus, htext, getD_some,
      boundedFloat_reads "handle aborted_progress_pct" true hread hp.1 hp.2, bind, Except.bind]
    exact engineRunStatus_eq hp (fun _ hs => by cases hs)
  | none hget =>
    simp only [hget, reduceCtorEq, if_false, clockStatus, SimRun.report]
    have hsame : progressAt run.startedAt run.durationS later = run.progress later := rfl
    rw [hsame]
    cases hfail : run.failAtPct.filter (fun f => f ≤ run.progress later) with
    | some f =>
      have hf := run.failAt f (mem_filter_iff.mp hfail).1
      exact ⟨_, engineRunStatus_eq (hpct hf) (fun _ hs => by cases hs), rfl⟩
    | none =>
      by_cases hdone : 100 ≤ run.progress later
      · simp only [if_pos hdone]
        exact ⟨_, engineRunStatus_eq ⟨by norm_num, le_rfl⟩ (fun _ hs => by cases hs), rfl⟩
      · simp only [if_neg hdone, runningStatus, rampRatio_eq hh, bind, Except.bind]
        refine ⟨_, engineRunStatus_eq (hpct hbounds) ?_, rfl⟩
        intro stats hs
        cases hs
        exact liveStatsAt_ok hbounds (run.peak_bounds hbounds.1)

theorem get?_abortedHandle (p : ℚ)
    (hkey : key ∉ ["aborted", "aborted_progress_pct", "abort_reason_recorded"]) :
    (abortedHandle h p).extras.get? key = h.extras.get? key := by
  simp only [mem_cons, not_mem_nil, or_false, not_or] at hkey
  rw [abortedHandle]
  dsimp only
  rw [Dict.get?_set_ne _ _ hkey.2.2, Dict.get?_set_ne _ _ hkey.2.1, Dict.get?_set_ne _ _ hkey.1]

theorem abort_spec (hh : Holds env run aborted h)
    (hclock : run.startedAt ≤ now.seconds + maxClockSkewS) (later : Instant) :
    ∃ after, abort h now later = .ok after ∧
      Holds env run (some (fixed 1 (run.progress later))) after := by
  have hbounds := run.progress_bounds later
  rcases runIdOf_eq hh with ⟨runId, hid⟩
  refine ⟨abortedHandle h (run.progress later), ?_, ?_⟩
  · simp only [abort, hid, parseExtras_eq hh hclock, bind, Except.bind]
    rfl
  · have hkeeps : ∀ {key : String} {q : ℚ},
        key ∉ ["aborted", "aborted_progress_pct", "abort_reason_recorded"] →
        Keeps h key q → Keeps (abortedHandle h (run.progress later)) key q := by
      intro key q hkey hk
      rw [Keeps, get?_abortedHandle _ hkey]
      exact hk
    refine ⟨hh.runId, hkeeps (by decide) hh.started, hkeeps (by decide) hh.duration, ?_, ?_,
      hkeeps (by decide) hh.ramp, hkeeps (by decide) hh.requested, ?_, ?_⟩
    · rw [get?_abortedHandle _ (by decide)]
      exact hh.users
    · rw [get?_abortedHandle _ (by decide)]
      exact hh.failAt
    · rw [get?_abortedHandle _ (by decide)]
      exact hh.slas
    · refine .some ?_ ⟨_, ?_, reads_formatF (by norm_num) (by norm_num) hbounds.1 ?_⟩
        ⟨fixed_nonneg hbounds.1, ?_⟩
      · rw [abortedHandle]
        dsimp only
        rw [Dict.get?_set_ne _ _ (by decide), Dict.get?_set_ne _ _ (by decide), Dict.get?_set_self]
      · rw [abortedHandle]
        dsimp only
        rw [Dict.get?_set_ne _ _ (by decide), Dict.get?_set_self]
      · exact lt_of_le_of_lt hbounds.2 (by norm_num)
      · exact_mod_cast fixed_le (n := 100) (by exact_mod_cast hbounds.2)

/-- The figures of a run meet all of its thresholds. -/
def MeetsAll (slas kpis : List (String × ℚ)) : Prop :=
  ∀ sla ∈ slas, ∃ kpi, kpis.lookup sla.1 = some kpi ∧ meets sla.1 kpi sla.2 = true

theorem lookup_kpis (run : SimRun) {metric : String} (h : metric ∈ simMetrics) :
    ∃ kpi, run.kpis.lookup metric = some kpi := by
  simp only [simMetrics, mem_cons, not_mem_nil, or_false] at h
  rcases h with rfl | rfl | rfl
  · exact ⟨212, rfl⟩
  · exact ⟨baseErrorRate, rfl⟩
  · exact ⟨_, rfl⟩

theorem validatedSlas_ok (h : validatedSlas slas = .ok slas) :
    (slas.length ≤ 32 ∧ slas.all slaOk = true) ∧ ∀ sla ∈ slas, sla.1 ∈ simMetrics := by
  rw [validatedSlas] at h
  split_ifs at h with hbad hmetrics
  rw [Bool.not_eq_true, Bool.or_eq_false_iff, decide_eq_false_iff_not, Nat.not_lt] at hbad
  refine ⟨⟨hbad.1, by simpa using hbad.2⟩, fun sla hsla => ?_⟩
  exact contains_iff_mem.mp (List.all_eq_true.mp hmetrics sla hsla)

theorem validatedSlas_sortKeys (h : validatedSlas slas = .ok slas) :
    validatedSlas (sortKeys slas) = .ok (sortKeys slas) := by
  have hperm : (sortKeys slas).Perm slas := mergeSort_perm _ _
  rcases validatedSlas_ok h with ⟨⟨hlen, hall⟩, hmetrics⟩
  have hall' : (sortKeys slas).all slaOk = true :=
    List.all_eq_true.mpr fun sla hsla => List.all_eq_true.mp hall sla (hperm.mem_iff.mp hsla)
  have hmetrics' : (sortKeys slas).all (fun sla => simMetrics.contains sla.1) = true :=
    List.all_eq_true.mpr fun sla hsla =>
      contains_iff_mem.mpr (hmetrics sla (hperm.mem_iff.mp hsla))
  have hlen' : decide (32 < (sortKeys slas).length) = false := by
    rw [hperm.length_eq, decide_eq_false_iff_not]
    omega
  rw [validatedSlas, hall', hlen', hmetrics']
  rfl

theorem breaches_spec (run : SimRun) (h : ∀ sla ∈ slas, sla.1 ∈ simMetrics) :
    ∃ breaches, slas.mapM (breachOf run.kpis) = .ok breaches ∧
      ((breaches.filterMap id).isEmpty = true ↔ MeetsAll slas run.kpis) := by
  have hone : ∀ sla ∈ slas, ∃ breach, breachOf run.kpis sla = .ok breach := by
    intro sla hsla
    rcases lookup_kpis run (h sla hsla) with ⟨kpi, hkpi⟩
    rw [breachOf, hkpi]
    exact ⟨_, rfl⟩
  rcases mapM_exists hone with ⟨breaches, hbreaches⟩
  refine ⟨breaches, hbreaches, ?_⟩
  have hpairs := mapM_ok.mp hbreaches
  clear hone hbreaches
  induction hpairs with
  | nil => exact ⟨fun _ _ hsla => absurd hsla not_mem_nil, fun _ => rfl⟩
  | @cons sla breach slas breaches hbreach _ ih =>
    rw [forall_mem_cons] at h
    rcases lookup_kpis run h.1 with ⟨kpi, hkpi⟩
    have hmeets : MeetsAll (sla :: slas) run.kpis ↔
        meets sla.1 kpi sla.2 = true ∧ MeetsAll slas run.kpis := by
      simp only [MeetsAll, forall_mem_cons, hkpi, some.injEq, exists_eq_left']
    have hrest := ih h.2
    rw [breachOf, hkpi] at hbreach
    rw [hmeets, ← Except.ok.inj hbreach]
    cases hm : meets sla.1 kpi sla.2 with
    | true => simpa only [if_true, filterMap_cons, id, true_and] using hrest
    | false =>
      simp only [Bool.false_eq_true, if_false, false_and, id, filterMap_cons, isEmpty_cons]

theorem floatExtra_eq (hkeeps : Keeps h key q) :
    floatExtra h key = .ok q := by
  rcases hkeeps with ⟨text, hget, hread⟩
  dsimp only [Reads, OptionValue.reading] at hread
  split_ifs at hread
  rw [floatExtra, hget, map_some, bind_some, hread]

theorem kpis_bounded (run : SimRun) :
    run.kpis.all (fun kpi => decide (|kpi.2| ≤ 1000000000000)) = true := by
  have hpeak := run.peak_bounds (show (0 : ℚ) ≤ 100 by norm_num)
  have haverage := run.average_bounds
  have hrate : 0 ≤ run.average * tpsPerVuser ∧ run.average * tpsPerVuser ≤ (24000 : Nat) := by
    rw [tpsPerVuser]
    push_cast
    constructor
    · linarith
    · linarith
  have htps : 0 ≤ fixed 1 (run.average * tpsPerVuser) ∧
      fixed 1 (run.average * tpsPerVuser) ≤ (24000 : Nat) :=
    ⟨fixed_nonneg hrate.1, fixed_le hrate.2⟩
  push_cast at htps
  simp only [SimRun.kpis, kpisOf, all_cons, all_nil, Bool.and_true, Bool.and_eq_true,
    decide_eq_true_eq, baseErrorRate]
  refine ⟨?_, by norm_num, by norm_num [abs_of_nonneg], ?_⟩
  · rw [abs_of_nonneg htps.1]
    linarith
  · rw [abs_of_nonneg hpeak.1]
    linarith

/-- A run passes where no failure is injected and all thresholds are met. -/
def SimRun.Passes (run : SimRun) : Prop := run.failAtPct = none ∧ MeetsAll run.slas run.kpis

theorem fetchSummary_spec (hh : Holds env run aborted h)
    (hclock : run.startedAt ≤ now.seconds + maxClockSkewS) :
    ∃ s, fetchSummary env h now = .ok s ∧ s.kpis = run.kpis ∧ (s.passed = true ↔ run.Passes) := by
  have haverage : averageVusers h run.vusers (run.vusers * run.ratio 100) = .ok run.average := by
    have hramp := floatExtra_eq hh.ramp
    have hrequested := floatExtra_eq hh.requested
    simp only [averageVusers, has_of_keeps hh.ramp, if_true, hramp, hrequested, bind, Except.bind,
      pure, Except.pure, SimRun.average]
  have hbuilt : ∀ passed breaches notes,
      testResultSummary ⟨passed, run.kpis, breaches, notes⟩ =
        .ok ⟨passed, run.kpis, breaches, notes⟩ := by
    intro passed breaches notes
    rw [testResultSummary, if_pos (kpis_bounded run)]
  have hkpis : kpisOf run.average (run.vusers * run.ratio 100) = run.kpis := rfl
  simp only [fetchSummary, parseExtras_eq hh hclock, rampRatio_eq hh, haverage, hkpis, bind,
    Except.bind]
  cases hfail : run.failAtPct with
  | some f =>
    refine ⟨_, hbuilt _ _ _, rfl, ?_⟩
    simp only [Bool.false_eq_true, SimRun.Passes, hfail, reduceCtorEq, false_and]
  | none =>
    rcases hh.slas with ⟨raw, hraw, hloads⟩
    have hslas : slasOf env h = .ok (sortKeys run.slas) := by
      simp only [slasOf, hraw, hloads]
      exact validatedSlas_sortKeys run.acceptance
    have hperm : (sortKeys run.slas).Perm run.slas := mergeSort_perm _ _
    have hmetrics := (validatedSlas_ok run.acceptance).2
    rcases breaches_spec run fun sla hsla => hmetrics sla (hperm.mem_iff.mp hsla) with
      ⟨breaches, hbreaches, hiff⟩
    simp only [judgedSummary, hslas, hbreaches, bind, Except.bind]
    refine ⟨_, hbuilt _ _ _, rfl, ?_⟩
    rw [hiff, SimRun.Passes, hfail]
    simp only [true_and, MeetsAll, hperm.mem_iff]

end

section

variable {inclusive : Bool} {label : String} {maximum minimum : ℚ} {spec : LoadTestSpec}
  {options : ConnectionOptions} {engine : Engine} {connectionId : Option String}

theorem boundedFloat_ok {value : OptionValue} {q : ℚ}
    (h : boundedFloat value label minimum maximum inclusive = .ok q) :
    value.reading = some (.finite q) ∧
      (if inclusive then minimum ≤ q else minimum < q) ∧ q ≤ maximum := by
  dsimp only [boundedFloat] at h
  cases hread : value.reading with
  | none =>
    rw [hread] at h
    cases h
  | some x =>
    rw [hread] at h
    cases x with
    | finite parsed =>
      dsimp only at h
      by_cases hwithin : (if inclusive then minimum ≤ parsed else minimum < parsed) ∧
          parsed ≤ maximum
      · rw [if_pos hwithin] at h
        rw [← Except.ok.inj h]
        exact ⟨rfl, hwithin⟩
      · rw [if_neg hwithin] at h
        cases h
    | infinite negative => cases h
    | nan => cases h

theorem optionalFloat_ok {value : Option OptionValue} {q : Option ℚ}
    (h : optionalFloat value label minimum maximum inclusive = .ok q) :
    ∀ f ∈ q, (if inclusive then minimum ≤ f else minimum < f) ∧ f ≤ maximum := by
  intro f hf
  cases value with
  | none =>
    rw [← Except.ok.inj h] at hf
    cases hf
  | some value =>
    rcases map_ok.mp h with ⟨q', hq', heq⟩
    rw [← heq] at hf
    cases hf
    exact (boundedFloat_ok hq').2

theorem issueOf_eq_nil {α : Type} {issue : String} {x : Except String α} :
    issueOf issue x = [] ↔ ∃ a, x = .ok a := by
  cases x with
  | ok a => exact ⟨fun _ => ⟨a, rfl⟩, fun _ => rfl⟩
  | error message => exact ⟨fun h => absurd h (cons_ne_nil _ _), fun ⟨_, h⟩ => by cases h⟩

theorem validate_eq_nil (h : validate spec = []) :
    (1 ≤ spec.vusers ∧ spec.vusers ≤ maxVusers) ∧
      (0 < spec.durationS.value ∧ spec.durationS.value ≤ maxDurationS) ∧
      (0 ≤ spec.rampS.value ∧ spec.rampS.value ≤ maxDurationS) ∧
      validatedSlas spec.slas = .ok spec.slas := by
  simp only [validate, append_eq_nil_iff, issueOf_eq_nil] at h
  rcases h with ⟨⟨⟨⟨n, husers⟩, d, hduration⟩, r, hramp⟩, slas, hslas⟩
  rcases boundedFloat_ok hduration with ⟨hd, hduration⟩
  rcases boundedFloat_ok hramp with ⟨hr, hramp⟩
  rw [← Reading.finite.inj (some.inj hd)] at hduration
  rw [← Reading.finite.inj (some.inj hr)] at hramp
  refine ⟨?_, hduration, hramp, ?_⟩
  · dsimp only [boundedInt] at husers
    split_ifs at husers with hout
    omega
  · rw [validatedSlas] at hslas ⊢
    split_ifs at hslas with hbad hmetrics
    rw [if_neg hbad, if_pos hmetrics]

theorem construct_ok (h : construct connectionId options = .ok engine) :
    (∀ d ∈ engine.durationOverride, 0 < d ∧ d ≤ maxDurationS) ∧
      ∀ f ∈ engine.failAtPct, 0 ≤ f ∧ f ≤ 100 := by
  rcases bind_ok.mp h with ⟨d, hd, hrest⟩
  rcases bind_ok.mp hrest with ⟨f, hf, heq⟩
  rw [← pure_ok.mp heq]
  exact ⟨optionalFloat_ok hd, optionalFloat_ok hf⟩

theorem isSimRunId_deriveRunId (env : SimEnv) (key : String) :
    isSimRunId (deriveRunId env key) = true := by
  have htext : (deriveRunId env key).toList = 's' :: 'i' :: 'm' :: '-' :: (env.digest key).hex := by
    rw [deriveRunId, String.toList_append]
    simp only [toList_ofList]
    rfl
  rw [isSimRunId, htext]
  simp only [(env.digest key).length_hex, (env.digest key).hex_digits, BEq.rfl, Bool.and_self]

theorem get?_provisionedExtras (env : SimEnv) (engine : Engine) (spec : LoadTestSpec)
    (now : Instant) {key : String} (hkey : key ≠ "fail_at_pct") :
    (provisionedExtras env engine spec now).get? key =
      (if key = "workload_duration_s" then some spec.durationS.text
      else if key = "ramp_s" then some spec.rampS.text
      else if key = "slas" then some (env.dumps spec.slas)
      else if key = "vusers" then some (intText spec.vusers)
      else if key = "duration_s" then some (sixPlaces (engine.duration spec))
      else if key = "started_at" then some (sixPlaces now.seconds) else none) := by
  dsimp only [provisionedExtras]
  cases engine.failAtPct with
  | none => simp only [Dict.get?_set, Dict.get?_empty]
  | some f =>
    dsimp only
    rw [Dict.get?_set_ne _ _ hkey]
    simp only [Dict.get?_set, Dict.get?_empty]

theorem get?_fail_provisionedExtras (env : SimEnv) (engine : Engine) (spec : LoadTestSpec)
    (now : Instant) : (provisionedExtras env engine spec now).get? "fail_at_pct" =
      engine.failAtPct.map sixPlaces := by
  dsimp only [provisionedExtras]
  cases engine.failAtPct with
  | none => simp only [Dict.get?_set, Dict.get?_empty, String.reduceEq, if_false, map_none]
  | some f =>
    dsimp only
    rw [Dict.get?_set_self, map_some]

theorem readsOption_sixPlaces {q : Option ℚ} (hq : ∀ f ∈ q, 0 ≤ f ∧ f ≤ 100) :
    ReadsOption (q.map sixPlaces) (q.map (fixed 6)) := by
  cases q with
  | none => exact .none
  | some f =>
    have hf := hq f rfl
    exact .some (reads_formatF (by norm_num) le_rfl hf.1 (lt_of_le_of_lt hf.2 (by norm_num)))

theorem holds_provision {env : SimEnv} {now : Instant} {h : EngineHandle}
    (hengine : construct connectionId options = .ok engine)
    (hprovision : provision env engine spec now = .ok h)
    (hjson : env.loads (env.dumps spec.slas) = some (sortKeys spec.slas))
    (hduration : 1 / 2000000 < engine.duration spec) :
    ∃ run : SimRun, Holds env run none h ∧ run.startedAt = fixed 6 now.seconds ∧
      run.durationS = fixed 6 (engine.duration spec) ∧ run.vusers = spec.vusers ∧
      run.failAtPct = engine.failAtPct.map (fixed 6) ∧ run.rampS = spec.rampS.value ∧
      run.requestedS = spec.durationS.value ∧ run.slas = spec.slas := by
  dsimp only [provision] at hprovision
  split_ifs at hprovision with hissues
  rw [ne_eq, not_not] at hissues
  rcases validate_eq_nil hissues with ⟨husers, hspec, hramp, hslas⟩
  rcases construct_ok hengine with ⟨hoverride, hfail⟩
  have hbounds : 0 < engine.duration spec ∧ engine.duration spec ≤ maxDurationS := by
    rw [Engine.duration]
    cases hd : engine.durationOverride with
    | none => exact hspec
    | some d => exact hoverride d hd
  have hpos : 0 < fixed 6 (engine.duration spec) :=
    (fixed_pos_iff (le_of_lt hbounds.1)).mpr (by norm_num; linarith)
  have hle : fixed 6 (engine.duration spec) ≤ maxDurationS := by
    rw [maxDurationS] at hbounds ⊢
    exact_mod_cast fixed_le (n := 86400) (by exact_mod_cast hbounds.2)
  have hsmall : ∀ {q : ℚ}, q ≤ 86400 → q < 10 ^ 12 := fun hq => lt_of_le_of_lt hq (by norm_num)
  have hfail' : ∀ f ∈ engine.failAtPct.map (fixed 6), 0 ≤ f ∧ f ≤ 100 := by
    intro f hf
    rcases map_eq_some_iff.mp hf with ⟨g, hg, rfl⟩
    have hg' := hfail g hg
    exact ⟨fixed_nonneg hg'.1, by exact_mod_cast fixed_le (n := 100) (by exact_mod_cast hg'.2)⟩
  refine ⟨⟨fixed 6 now.seconds, fixed 6 (engine.duration spec), spec.vusers,
    engine.failAtPct.map (fixed 6), spec.rampS.value, spec.durationS.value, spec.slas,
    fixed_nonneg now.since_epoch, ⟨hpos, hle⟩, husers, hfail', hramp, hspec, hslas⟩, ?_, rfl, rfl,
    rfl, rfl, rfl, rfl, rfl⟩
  rw [← Except.ok.inj hprovision]
  have hget : ∀ {key : String}, key ≠ "fail_at_pct" → _ = _ :=
    fun hkey => get?_provisionedExtras env engine spec now hkey
  refine ⟨⟨_, rfl, isSimRunId_deriveRunId env _⟩, ⟨_, hget (by decide), ?_⟩,
    ⟨_, hget (by decide), ?_⟩, hget (by decide), ?_, ⟨_, hget (by decide), reads_number _⟩,
    ⟨_, hget (by decide), reads_number _⟩, ⟨_, hget (by decide), hjson⟩, .none (hget (by decide))⟩
  · exact reads_formatF (by norm_num) le_rfl now.since_epoch now.representable
  · exact reads_formatF (by norm_num) le_rfl (le_of_lt hbounds.1) (hsmall hbounds.2)
  · rw [get?_fail_provisionedExtras]
    exact readsOption_sixPlaces hfail

end

end Apex.Adapters.SimEngine
