import Apex.Theory.RateLimits.Policy

/-!
# The Limits Of A Process

When a process follows the policy by itself. Its queues count what the histories
count, as long as there is room for the keys and two things do not happen.

A window of requests is asked for the source first, and the source is noted before
the credential is asked. And a lock that has run out is dropped together with the
failures of its key, some of which may still count; the pass over all keys drops locks
alone.

## Main definitions

* `Kept`, `Keeps`: What a process keeps, against the histories.
* `Below`: There is room for the keys.
* `Spoils`: A call that one of the two things happens to.

## Theorems

* `Keeps.answered`: A process answers as the policy does, unless a call spoils it.
-/

namespace Apex.App

open List Function
open Option hiding or_assoc

variable {cfg : RateLimitSettings} {window now now' : Nat}

theorem times_set (d : Buckets) (key : String) (bucket : List Nat) (other : String) :
    Buckets.times (d.set key bucket) other = if other = key then bucket else d.times other := by
  simp only [Buckets.times, Dict.get?_set]
  split <;> rfl

theorem times_dropKey (d : Buckets) (key other : String) :
    Buckets.times (dropKey d key) other = if other = key then [] else d.times other := by
  simp only [Buckets.times, dropKey, Dict.get?_filterKeys, bne_iff_ne]
  by_cases heq : other = key
  · rw [if_pos heq, if_neg (not_not.mpr heq)]
    rfl
  · rw [if_neg heq, if_pos heq]

theorem times_sweepBuckets (d : Buckets) (key : String) :
    Buckets.times (sweepBuckets window now d) key = prune window now (d.times key) := by
  simp only [Buckets.times, sweepBuckets, Dict.get?_filterKeys, Dict.get?_map]
  cases d.get? key with
  | none => simp [prune]
  | some bucket =>
    by_cases hempty : prune window now bucket = []
    · simp [hempty]
    · simp [hempty]

theorem length_le_set {α : Type} (d : Dict α) (key : String) (v : α) :
    d.length ≤ (d.set key v).length := by
  cases hget : d.get? key with
  | none =>
    rw [Dict.length, Dict.length, Dict.items_set_new v hget, length_append]
    omega
  | some w =>
    have hkeys := congrArg List.length (Dict.keys_set_of_mem v hget)
    simp only [Dict.keys, List.length_map] at hkeys
    rw [Dict.length, Dict.length, hkeys]

def Kept (window now : Nat) (d : Buckets) (histories : String → List Nat) : Prop :=
  ∀ key, Tracks window now (d.times key) (histories key)

variable {d : Buckets} {histories : String → List Nat}

theorem kept_start : Kept window now ∅ fun _ => [] := fun _ => tracks_nil

theorem Kept.later (h : Kept window now d histories) (hle : now ≤ now') :
    Kept window now' d histories := fun key => (h key).later hle

theorem Kept.prune_eq (h : Kept window now d histories) (hwindow : 0 < window) (key : String) :
    prune window now (d.times key) = recent window now (d.times key) :=
  dropWhile_eq_recent hwindow (h key).sorted

theorem Kept.sweep (h : Kept window now d histories) (hwindow : 0 < window) :
    Kept window now (sweepBuckets window now d) histories := by
  intro key
  rw [times_sweepBuckets, h.prune_eq hwindow]
  exact (h key).pruned

variable {key : String} {keys : RateKeys}

theorem Kept.set {bucket history : List Nat} (h : Kept window now d histories)
    (hbucket : Tracks window now bucket history) :
    Kept window now (d.set key bucket) (Function.update histories key history) := by
  intro other
  rw [times_set]
  by_cases heq : other = key
  · rw [if_pos heq, heq, update_self]
    exact hbucket
  · rw [if_neg heq, update_of_ne heq]
    exact h other

theorem Kept.prune (h : Kept window now d histories) (hwindow : 0 < window) (key : String) :
    Kept window now (d.set key (prune window now (d.times key))) histories := by
  have hset := @Kept.set _ _ _ _ key _ _ h (h key).pruned
  rw [Function.update_eq_self, ← h.prune_eq hwindow] at hset
  exact hset

theorem Kept.note (h : Kept window now d histories) (hwindow : 0 < window) (key : String) :
    Kept window now (d.set key (App.prune window now (d.times key) ++ [now]))
      (Function.update histories key (histories key ++ [now])) := by
  rw [h.prune_eq hwindow]
  exact h.set (h key).pruned.noted

theorem Kept.length_prune (h : Kept window now d histories) (hwindow : 0 < window) (key : String) :
    (App.prune window now (d.times key)).length = (recent window now (histories key)).length := by
  rw [h.prune_eq hwindow, (h key).same]

theorem checkBucket_length_le {limit : Nat} {required : Bool} {answer : Option Nat} {d' : Buckets}
    (hchecked : checkBucket cfg key now limit window required d = (answer, d')) :
    d.length ≤ d'.length := by
  unfold checkBucket at hchecked
  split at hchecked
  · exact (congrArg Dict.length (Prod.mk.inj hchecked).2).le
  · simp only [] at hchecked
    split at hchecked
    · exact (Prod.mk.inj hchecked).2 ▸ length_le_set ..
    · exact (Prod.mk.inj hchecked).2 ▸ length_le_set ..

theorem checkBucket_spec {limit : Nat} {required : Bool} {answer : Option Nat} {d' : Buckets}
    (hwindow : 0 < window) (h : Kept window now d histories)
    (hchecked : checkBucket cfg key now limit window required d = (answer, d'))
    (hbelow : d'.length < cfg.buckets) :
    if (recent window now (histories key)).length < limit then
      answer = none ∧ Kept window now d' (Function.update histories key (histories key ++ [now]))
    else answer.isSome ∧ Kept window now d' histories := by
  unfold checkBucket at hchecked
  by_cases hcap : (d.get? key).isNone ∧ cfg.buckets ≤ d.length
  · rw [if_pos hcap] at hchecked
    rw [← (Prod.mk.inj hchecked).2] at hbelow
    exact absurd hcap.2 (not_le.mpr hbelow)
  · rw [if_neg hcap] at hchecked
    simp only [h.length_prune hwindow key] at hchecked
    by_cases hfull : limit ≤ (recent window now (histories key)).length
    · rw [if_pos hfull] at hchecked
      rw [if_neg (not_lt.mpr hfull), ← (Prod.mk.inj hchecked).1, ← (Prod.mk.inj hchecked).2]
      exact ⟨rfl, h.prune hwindow key⟩
    · rw [if_neg hfull] at hchecked
      rw [if_pos (not_le.mp hfull), ← (Prod.mk.inj hchecked).1, ← (Prod.mk.inj hchecked).2]
      exact ⟨rfl, h.note hwindow key⟩

/-- A window of requests that the source has room in and the credential has not: the source is
    noted although the request is refused. -/
def SpoilsSource (cfg : RateLimitSettings) (s : LocalLimits) (now : Nat) (keys : RateKeys) :
    Prop :=
  ∃ credential ∈ keys.credential,
    (recent cfg.window now (s.buckets.times keys.source)).length < cfg.ipLimit ∧
      cfg.limit ≤ (recent cfg.window now (s.buckets.times credential)).length

theorem requestLimit_source (keys : RateKeys) :
    cfg.requestLimit keys.source = cfg.ipLimit := by
  rw [RateLimitSettings.requestLimit, keys.source_key]
  rfl

theorem requestLimit_credential {credential : String}
    (h : keys.credential = some credential) : cfg.requestLimit credential = cfg.limit := by
  rw [RateLimitSettings.requestLimit, keys.credential_key credential h]
  rfl

theorem sweep_kept {s : LocalLimits} (h : Kept cfg.window now s.buckets histories) :
    Kept cfg.window now (sweep s now cfg.window).buckets histories := by
  unfold App.sweep
  split
  · exact h
  · exact h.sweep window_pos

theorem checkKeys_spec {keys : RateKeys} {answer : Option Nat} {d' : Buckets}
    (h : Kept cfg.window now d histories) (hchecked : checkKeys cfg keys now d = (answer, d'))
    (hbelow : d'.length < cfg.buckets)
    (hclear : ∀ credential, keys.credential = some credential →
      (recent cfg.window now (histories keys.source)).length < cfg.ipLimit →
      (recent cfg.window now (histories credential)).length < cfg.limit) :
    let verdict := permit cfg.window now cfg.requestLimit keys.list histories
    answer.isNone = verdict.1 ∧ Kept cfg.window now d' verdict.2 := by
  have hall : keys.list.all (hasRoom cfg.window now cfg.requestLimit histories) =
      decide ((recent cfg.window now (histories keys.source)).length < cfg.ipLimit) := by
    rw [RateKeys.list, all_cons, hasRoom, requestLimit_source]
    cases hcred : keys.credential with
    | none => simp
    | some credential =>
      simp only [toList_some, all_cons, all_nil, Bool.and_true, hasRoom,
        requestLimit_credential hcred]
      by_cases hroom : (recent cfg.window now (histories keys.source)).length < cfg.ipLimit
      · rw [decide_eq_true (hclear credential hcred hroom), Bool.and_true]
      · rw [decide_eq_false hroom, Bool.false_and]
  rw [permit, hall]
  unfold checkKeys at hchecked
  rcases hfirst : checkBucket cfg keys.source now cfg.ipLimit cfg.window true d with ⟨_ | retry, d₁⟩
  · rw [hfirst] at hchecked
    cases hcred : keys.credential with
    | none =>
      simp only [hcred] at hchecked
      rcases Prod.mk.inj hchecked with ⟨rfl, rfl⟩
      have hspec := checkBucket_spec window_pos h hfirst hbelow
      rw [RateKeys.list, hcred]
      by_cases hroom : (recent cfg.window now (histories keys.source)).length < cfg.ipLimit
      · rw [if_pos hroom] at hspec
        rw [if_pos (decide_eq_true hroom), toList_none, noted_cons not_mem_nil, noted_nil]
        exact ⟨rfl, hspec.2⟩
      · rw [if_neg hroom] at hspec
        exact absurd hspec.1 (by simp)
    | some credential =>
      simp only [hcred] at hchecked
      have hlist : keys.list = [keys.source, credential] := by rw [RateKeys.list, hcred]; rfl
      have hnew : keys.source ∉ [credential] := (nodup_cons.mp (hlist ▸ keys.list_nodup)).1
      have hne : credential ≠ keys.source := fun heq => hnew (mem_singleton.mpr heq.symm)
      have hspec := checkBucket_spec window_pos h hfirst
        ((checkBucket_length_le hchecked).trans_lt hbelow)
      by_cases hroom : (recent cfg.window now (histories keys.source)).length < cfg.ipLimit
      · -- The source is noted, and the credential has room, too.
        rw [if_pos hroom] at hspec
        have hsecond := checkBucket_spec window_pos hspec.2 hchecked hbelow
        rw [update_of_ne hne, if_pos (hclear credential hcred hroom)] at hsecond
        rw [if_pos (decide_eq_true hroom), hlist, noted_cons hnew, noted_cons not_mem_nil,
          noted_nil, update_of_ne hne, hsecond.1]
        exact ⟨rfl, hsecond.2⟩
      · rw [if_neg hroom] at hspec
        exact absurd hspec.1 (by simp)
  · rw [hfirst] at hchecked
    rcases Prod.mk.inj hchecked with ⟨rfl, rfl⟩
    have hspec := checkBucket_spec window_pos h hfirst hbelow
    by_cases hroom : (recent cfg.window now (histories keys.source)).length < cfg.ipLimit
    · rw [if_pos hroom] at hspec
      exact absurd hspec.1 (by simp)
    · rw [if_neg hroom] at hspec
      rw [if_neg (by rw [decide_eq_true_eq]; exact hroom)]
      exact ⟨rfl, hspec.2⟩

theorem runCreateLoop_length_le : ∀ (keys : List String) (required : Bool) (d : Buckets)
    (allocated : List String),
    d.length ≤ (runCreateLoop cfg now required keys d allocated).2.1.length
  | [], _, _, _ => le_rfl
  | key :: keys, required, d, allocated => by
    rw [runCreateLoop]
    split
    · split
      · exact le_rfl
      · exact runCreateLoop_length_le keys false d allocated
    · simp only []
      split
      · exact length_le_set ..
      · exact (length_le_set ..).trans (runCreateLoop_length_le keys false _ _)

theorem runCreateLoop_spec : ∀ (keys : List String) (required : Bool) (d : Buckets)
    (allocated : List String) (answer : Option Nat) (d' : Buckets) (allocated' : List String),
    Kept cfg.runWindow now d histories →
    runCreateLoop cfg now required keys d allocated = (answer, d', allocated') →
    d'.length < cfg.buckets →
    d.length ≤ d'.length ∧ Kept cfg.runWindow now d' histories ∧
      answer.isNone = keys.all (hasRoom cfg.runWindow now (fun _ => cfg.runLimit) histories) ∧
      (answer = none → allocated' = allocated ++ keys)
  | [], required, d, allocated, answer, d', allocated', h, hloop, _ => by
    rw [runCreateLoop] at hloop
    rcases Prod.mk.inj hloop with ⟨rfl, hrest⟩
    rcases Prod.mk.inj hrest with ⟨rfl, rfl⟩
    exact ⟨le_rfl, h, rfl, fun _ => (append_nil _).symm⟩
  | key :: keys, required, d, allocated, answer, d', allocated', h, hloop, hbelow => by
    rw [runCreateLoop] at hloop
    by_cases hcap : (d.get? key).isNone ∧ cfg.buckets ≤ d.length
    · rw [if_pos hcap] at hloop
      have hle : d.length ≤ d'.length := by
        split at hloop
        · exact (congrArg (fun r => r.2.1.length) hloop).le
        · have hmono := @runCreateLoop_length_le cfg now keys false d allocated
          rw [hloop] at hmono
          exact hmono
      exact absurd (hcap.2.trans hle) (not_le.mpr hbelow)
    · rw [if_neg hcap] at hloop
      simp only [h.length_prune runWindow_pos key] at hloop
      by_cases hfull : cfg.runLimit ≤ (recent cfg.runWindow now (histories key)).length
      · rw [if_pos hfull] at hloop
        rcases Prod.mk.inj hloop with ⟨rfl, hrest⟩
        rcases Prod.mk.inj hrest with ⟨rfl, rfl⟩
        refine ⟨length_le_set .., h.prune runWindow_pos key, ?_, fun hnone => (nomatch hnone)⟩
        rw [all_cons, hasRoom, decide_eq_false (not_lt.mpr hfull)]
        rfl
      · rw [if_neg hfull] at hloop
        have ih := runCreateLoop_spec keys false _ _ answer d' allocated'
          (h.prune runWindow_pos key) hloop hbelow
        refine ⟨(length_le_set ..).trans ih.1, ih.2.1, ?_, fun hnone => ?_⟩
        · rw [all_cons, hasRoom, decide_eq_true (not_le.mp hfull), Bool.true_and]
          exact ih.2.2.1
        · rw [ih.2.2.2 hnone, append_assoc]
          rfl

theorem appendTimes_length_le : ∀ (keys : List String) (d : Buckets),
    d.length ≤ (appendTimes now keys d).length
  | [], _ => le_rfl
  | key :: keys, d =>
    (length_le_set d key (d.times key ++ [now])).trans (appendTimes_length_le keys _)

/-- The time is noted for the keys that had room. -/
theorem appendTimes_kept : ∀ (keys : List String) (d : Buckets) (histories : String → List Nat),
    keys.Nodup → Kept window now d histories →
    Kept window now (appendTimes now keys d) (noted keys now histories)
  | [], d, histories, _, h => by
    rw [noted_nil]
    exact h
  | key :: keys, d, histories, hnodup, h => by
    rcases nodup_cons.mp hnodup with ⟨hnew, hrest⟩
    rw [noted_cons hnew]
    exact appendTimes_kept keys _ _ hrest (@Kept.set _ _ _ _ key _ _ h (h key).noted)

/-- Locks that last as long as those of the policy. -/
def LocksAgree (now : Nat) (lockouts : Dict Nat) (locks : String → Option Nat) : Prop :=
  ∀ key, (lockouts.get? key).filter (fun expiry => decide (now < expiry)) =
    (locks key).filter fun expiry => decide (now < expiry)

variable {lockouts : Dict Nat} {locks : String → Option Nat} {t : Tally}

theorem filter_later {o o' : Option Nat} (hle : now ≤ now')
    (h : o.filter (fun expiry => decide (now < expiry)) =
      o'.filter fun expiry => decide (now < expiry)) :
    o.filter (fun expiry => decide (now' < expiry)) =
      o'.filter fun expiry => decide (now' < expiry) := by
  have hfilter : ∀ o : Option Nat, o.filter (fun expiry => decide (now' < expiry)) =
      (o.filter fun expiry => decide (now < expiry)).filter fun expiry => decide (now' < expiry) := by
    intro o
    rw [Option.filter_filter]
    congr 1
    funext expiry
    by_cases hlasts : now' < expiry
    · rw [decide_eq_true hlasts, decide_eq_true (hle.trans_lt hlasts)]
      rfl
    · rw [decide_eq_false hlasts, Bool.and_false]
  rw [hfilter o, h, ← hfilter o']

theorem LocksAgree.later (h : LocksAgree now lockouts locks) (hle : now ≤ now') :
    LocksAgree now' lockouts locks := fun key => filter_later hle (h key)

theorem LocksAgree.dropped (h : LocksAgree now lockouts locks) {keep : String → Bool}
    (hkeep : ∀ key, keep key = false → ∀ expiry, lockouts.get? key = some expiry → expiry ≤ now) :
    LocksAgree now (lockouts.filterKeys keep) locks := by
  intro key
  rw [← h key, Dict.get?_filterKeys]
  by_cases hkept : keep key = true
  · rw [if_pos hkept]
  · rw [if_neg hkept]
    cases hget : lockouts.get? key with
    | none => rfl
    | some expiry =>
      have hle := hkeep key (Bool.not_eq_true _ ▸ hkept) expiry hget
      rw [filter_some, if_neg (by rw [decide_eq_true_eq]; omega)]
      rfl

theorem LocksAgree.locked (h : LocksAgree now lockouts t.locks) (key : String) :
    t.locked now key = true ↔ ∃ expiry, lockouts.get? key = some expiry ∧ now < expiry := by
  have hagree := h key
  rw [Tally.locked, Option.any_eq_true]
  constructor
  · rintro ⟨expiry, hlock, hlasts⟩
    rw [hlock, filter_some, if_pos hlasts, filter_eq_some_iff] at hagree
    exact ⟨expiry, hagree.1, decide_eq_true_eq.mp hagree.2⟩
  · rintro ⟨expiry, hlock, hlasts⟩
    rw [hlock, filter_some, if_pos (decide_eq_true hlasts), eq_comm, filter_eq_some_iff] at hagree
    exact ⟨expiry, hagree.1, hagree.2⟩

/-- What a process keeps of refused credentials is what the policy counts. -/
structure AuthKeeps (cfg : RateLimitSettings) (now : Nat) (s : LocalLimits) (t : Tally) :
    Prop where
  failures : Kept cfg.failureWindow now s.failureBuckets t.failures
  locks : LocksAgree now s.lockouts t.locks

/-- What is kept of requests and created runs is the same. -/
def SameWindows (s s' : LocalLimits) : Prop :=
  s'.buckets = s.buckets ∧ s'.runCreateBuckets = s.runCreateBuckets

variable {s : LocalLimits}

theorem sweepAuthState_spec (h : AuthKeeps cfg now s t) :
    AuthKeeps cfg now (sweepAuthState cfg now s) t ∧ SameWindows s (sweepAuthState cfg now s) := by
  unfold sweepAuthState
  split
  · exact ⟨h, rfl, rfl⟩
  · refine ⟨⟨h.failures.sweep failureWindow_pos, h.locks.dropped fun key hkeep expiry hget => ?_⟩,
      rfl, rfl⟩
    rw [hget, any_some, decide_eq_false_iff_not] at hkeep
    exact not_lt.mp hkeep

/-- A lock that has run out while failures of its key still count, and no pass over all keys is
    due: the failures are dropped with the lock. -/
def SpoilsFailures (cfg : RateLimitSettings) (s : LocalLimits) (now : Nat) (keys : RateKeys) :
    Prop :=
  now - s.authLastSweep < cfg.failureWindow ∧
    ∃ key ∈ keys.list, ∃ expiry ∈ s.lockouts.get? key, expiry ≤ now ∧
      recent cfg.failureWindow now (s.failureBuckets.times key) ≠ []

/-- Failures that do not count may be dropped with their lock. -/
def Droppable (cfg : RateLimitSettings) (now : Nat) (s : LocalLimits) (keys : List String) :
    Prop :=
  ∀ key ∈ keys, ∀ expiry, s.lockouts.get? key = some expiry → expiry ≤ now →
    recent cfg.failureWindow now (s.failureBuckets.times key) = []

theorem droppable_swept (hclear : ¬ SpoilsFailures cfg s now keys) :
    Droppable cfg now (sweepAuthState cfg now s) keys.list := by
  intro key hkey expiry hget hle
  unfold sweepAuthState at hget ⊢
  split at hget
  next hsoon =>
    rw [if_pos hsoon]
    by_contra hcounts
    exact hclear ⟨hsoon, key, hkey, expiry, hget, hle, hcounts⟩
  next =>
    -- After the pass only locks that last are left.
    rw [Dict.get?_filterKeys] at hget
    split at hget
    next hlasts =>
      rw [hget, any_some, decide_eq_true_eq] at hlasts
      omega
    next => exact nomatch hget

theorem lockoutRound_spec {keys : List String} {found : Nat × LocalLimits}
    (h : AuthKeeps cfg now found.2 t) (hdrop : Droppable cfg now found.2 (key :: keys)) :
    (0 < (lockoutRound now found key).1 ↔ 0 < found.1 ∨ t.locked now key = true) ∧
      AuthKeeps cfg now (lockoutRound now found key).2 t ∧
      Droppable cfg now (lockoutRound now found key).2 keys ∧
      SameWindows found.2 (lockoutRound now found key).2 := by
  have hrest : Droppable cfg now found.2 keys := fun k hk => hdrop k (mem_cons_of_mem _ hk)
  have hlocked := h.locks.locked key
  unfold lockoutRound
  cases hget : found.2.lockouts.get? key with
  | none =>
    rw [hget] at hlocked
    simp only [hlocked, reduceCtorEq, false_and, exists_false, or_false]
    exact ⟨trivial, h, hrest, rfl, rfl⟩
  | some expiry =>
    simp only [hget, some.injEq, exists_eq_left'] at hlocked
    by_cases hle : expiry ≤ now
    · have hold := hdrop key mem_cons_self expiry hget hle
      simp only [if_pos hle, hlocked, not_lt.mpr hle, or_false]
      refine ⟨trivial, ⟨fun other => ?_, h.locks.dropped fun other hkeep expiry' hget' => ?_⟩,
        fun other hother expiry' hget' hle' => ?_, rfl, rfl⟩
      · rw [times_dropKey]
        by_cases heq : other = key
        · rw [if_pos heq, heq]
          exact (h.failures key).dropped hold
        · rw [if_neg heq]
          exact h.failures other
      · have heq : other = key := by simpa using hkeep
        rw [heq, hget] at hget'
        exact some.inj hget' ▸ hle
      · simp only [dropKey, Dict.get?_filterKeys] at hget'
        rw [times_dropKey]
        split at hget'
        next hne =>
          rw [if_neg (bne_iff_ne.mp hne)]
          exact hrest other hother expiry' hget' hle'
        next => exact nomatch hget'
    · simp only [if_neg hle, hlocked, not_le.mp hle, or_true, iff_true]
      exact ⟨by omega, h, hrest, rfl, rfl⟩

theorem lockoutRounds_spec : ∀ (keys : List String) (found : Nat × LocalLimits),
    AuthKeeps cfg now found.2 t → Droppable cfg now found.2 keys →
    (0 < (keys.foldl (lockoutRound now) found).1 ↔
        0 < found.1 ∨ ∃ key ∈ keys, t.locked now key = true) ∧
      AuthKeeps cfg now (keys.foldl (lockoutRound now) found).2 t ∧
      SameWindows found.2 (keys.foldl (lockoutRound now) found).2
  | [], found, h, _ => ⟨by simp, h, rfl, rfl⟩
  | key :: keys, found, h, hdrop => by
    have hround := lockoutRound_spec h hdrop
    have ih := lockoutRounds_spec keys (lockoutRound now found key) hround.2.1 hround.2.2.1
    rw [List.foldl_cons, List.exists_mem_cons_iff, ih.1, hround.1, or_assoc]
    exact ⟨Iff.rfl, ih.2.1, ih.2.2.1.trans hround.2.2.2.1, ih.2.2.2.trans hround.2.2.2.2⟩

theorem failureRound_spec (h : Kept cfg.failureWindow now s.failureBuckets histories)
    (hbelow : (failureRound cfg now s key).failureBuckets.length < cfg.buckets) :
    Kept cfg.failureWindow now (failureRound cfg now s key).failureBuckets
        (Function.update histories key (histories key ++ [now])) ∧
      (∀ other, (failureRound cfg now s key).lockouts.get? other =
        if other = key ∧ cfg.authFailures.1 ≤
            (recent cfg.failureWindow now (histories key ++ [now])).length then
          some (now + cfg.lockout)
        else s.lockouts.get? other) ∧
      SameWindows s (failureRound cfg now s key) := by
  unfold failureRound at hbelow ⊢
  by_cases hcap : (s.failureBuckets.get? key).isNone ∧ cfg.buckets ≤ s.failureBuckets.length
  · rw [if_pos hcap] at hbelow
    exact absurd hcap.2 (not_le.mpr hbelow)
  · have hlength : (prune cfg.failureWindow now (s.failureBuckets.times key) ++ [now]).length =
        (recent cfg.failureWindow now (histories key ++ [now])).length := by
      rw [length_append, h.length_prune failureWindow_pos, recent_append,
        recent_now failureWindow_pos, length_append]
    rw [if_neg hcap]
    simp only [hlength]
    refine ⟨h.note failureWindow_pos key, fun other => ?_, rfl, rfl⟩
    by_cases hmany : cfg.authFailures.1 ≤
        (recent cfg.failureWindow now (histories key ++ [now])).length
    · rw [if_pos hmany, Dict.get?_set]
      simp only [hmany, and_true]
    · rw [if_neg hmany, if_neg fun hboth => hmany hboth.2]

theorem failureRound_length_le (key : String) :
    s.failureBuckets.length ≤ (failureRound cfg now s key).failureBuckets.length := by
  unfold failureRound
  split
  · exact le_rfl
  · exact length_le_set ..

theorem failureRounds_length_le : ∀ (keys : List String) (s : LocalLimits),
    s.failureBuckets.length ≤ (keys.foldl (failureRound cfg now) s).failureBuckets.length
  | [], _ => le_rfl
  | key :: keys, s =>
    (failureRound_length_le key).trans (failureRounds_length_le keys (failureRound cfg now s key))

theorem failureRounds_spec : ∀ (keys : List String) (s : LocalLimits)
    (histories : String → List Nat), keys.Nodup →
    Kept cfg.failureWindow now s.failureBuckets histories →
    (keys.foldl (failureRound cfg now) s).failureBuckets.length < cfg.buckets →
    Kept cfg.failureWindow now (keys.foldl (failureRound cfg now) s).failureBuckets
        (noted keys now histories) ∧
      (∀ key, (keys.foldl (failureRound cfg now) s).lockouts.get? key =
        if key ∈ keys ∧ cfg.authFailures.1 ≤
            (recent cfg.failureWindow now (noted keys now histories key)).length then
          some (now + cfg.lockout)
        else s.lockouts.get? key) ∧
      SameWindows s (keys.foldl (failureRound cfg now) s)
  | [], s, histories, _, h, _ => by
    rw [noted_nil]
    exact ⟨h, fun key => by simp, rfl, rfl⟩
  | key :: keys, s, histories, hnodup, h, hbelow => by
    rcases nodup_cons.mp hnodup with ⟨hnew, hrest⟩
    have hround := failureRound_spec h
      ((failureRounds_length_le keys (failureRound cfg now s key)).trans_lt hbelow)
    have ih := failureRounds_spec keys _ _ hrest hround.1 hbelow
    rw [noted_cons hnew, foldl_cons]
    refine ⟨ih.1, fun other => ?_, ih.2.2.1.trans hround.2.2.1, ih.2.2.2.trans hround.2.2.2⟩
    rw [ih.2.1, hround.2.1]
    by_cases heq : other = key
    · subst heq
      rw [if_neg fun hboth => hnew hboth.1]
      simp only [true_and, mem_cons_self, noted, if_neg hnew, update_self]
    · simp only [mem_cons, heq, false_or, false_and, if_false]

structure LocalLimits.Below (cfg : RateLimitSettings) (s : LocalLimits) : Prop where
  buckets : s.buckets.length < cfg.buckets
  runCreateBuckets : s.runCreateBuckets.length < cfg.buckets
  failureBuckets : s.failureBuckets.length < cfg.buckets

/-- A call that is answered other than the policy would have it, or whose consequences are
    other. -/
def Spoils (cfg : RateLimitSettings) (s : LocalLimits) (c : LimitCall) : Prop :=
  match c.query with
  | .request => SpoilsSource cfg s c.now c.keys
  | .runCreate => False
  | .lockout => SpoilsFailures cfg s c.now c.keys
  | .result _ => False

/-- What a process keeps is what the policy counts. -/
structure Keeps (cfg : RateLimitSettings) (now : Nat) (s : LocalLimits) (t : Tally) : Prop where
  requests : Kept cfg.window now s.buckets t.requests
  runs : Kept cfg.runWindow now s.runCreateBuckets t.runs
  auth : AuthKeeps cfg now s t

theorem keeps_start : Keeps cfg now LocalLimits.start Tally.start :=
  ⟨kept_start, kept_start, kept_start, fun _ => rfl⟩

section

variable (h : Keeps cfg now s t)

include h

theorem Keeps.later (hle : now ≤ now') : Keeps cfg now' s t :=
  ⟨h.requests.later hle, h.runs.later hle, h.auth.failures.later hle, h.auth.locks.later hle⟩

theorem Keeps.withAuth {s' : LocalLimits} {t' : Tally}
    (hsame : SameWindows s s') (hrequests : t'.requests = t.requests) (hruns : t'.runs = t.runs)
    (hauth : AuthKeeps cfg now s' t') : Keeps cfg now s' t' := by
  refine ⟨?_, ?_, hauth⟩
  · rw [hsame.1, hrequests]
    exact h.requests
  · rw [hsame.2, hruns]
    exact h.runs

theorem Keeps.checked {keys : RateKeys}
    (hbelow : (check cfg keys now s).2.buckets.length < cfg.buckets)
    (hclear : ¬ SpoilsSource cfg s now keys) :
    let verdict := permit cfg.window now cfg.requestLimit keys.list t.requests
    (check cfg keys now s).1.isNone = verdict.1 ∧
      Keeps cfg now (check cfg keys now s).2 { t with requests := verdict.2 } := by
  have hspec := @checkKeys_spec _ _ _ _ keys _ _ (sweep_kept h.requests) rfl hbelow
    fun credential hcred hroom => by
      by_contra hfull
      refine hclear ⟨credential, hcred, ?_, ?_⟩
      · rw [(h.requests keys.source).same]
        exact hroom
      · rw [(h.requests credential).same]
        exact not_lt.mp hfull
  have hother : (sweep s now cfg.window).runCreateBuckets = s.runCreateBuckets ∧
      (sweep s now cfg.window).failureBuckets = s.failureBuckets ∧
      (sweep s now cfg.window).lockouts = s.lockouts := by
    unfold App.sweep
    split <;> exact ⟨rfl, rfl, rfl⟩
  refine ⟨hspec.1, hspec.2, ?_, ?_, ?_⟩
  · simp only [check, hother.1]
    exact h.runs
  · simp only [check, hother.2.1]
    exact h.auth.failures
  · simp only [check, hother.2.2]
    exact h.auth.locks

theorem Keeps.runCreateChecked
    (hbelow : (checkRunCreate cfg keys now s).2.runCreateBuckets.length < cfg.buckets) :
    let verdict := permit cfg.runWindow now (fun _ => cfg.runLimit) keys.list t.runs
    (checkRunCreate cfg keys now s).1.isNone = verdict.1 ∧
      Keeps cfg now (checkRunCreate cfg keys now s).2 { t with runs := verdict.2 } := by
  let swept : LocalLimits := if now - s.runCreateLastSweep < cfg.runWindow then s
    else { s with
      runCreateLastSweep := now
      runCreateBuckets := sweepBuckets cfg.runWindow now s.runCreateBuckets }
  have hswept : Kept cfg.runWindow now swept.runCreateBuckets t.runs ∧ swept.buckets = s.buckets ∧
      swept.failureBuckets = s.failureBuckets ∧ swept.lockouts = s.lockouts := by
    simp only [swept]
    split
    · exact ⟨h.runs, rfl, rfl, rfl⟩
    · exact ⟨h.runs.sweep runWindow_pos, rfl, rfl, rfl⟩
  have hkeeps : ∀ d runs, Kept cfg.runWindow now d runs →
      Keeps cfg now { swept with runCreateBuckets := d } { t with runs := runs } := by
    intro d runs hd
    refine ⟨?_, hd, ?_, ?_⟩
    · rw [hswept.2.1]
      exact h.requests
    · rw [hswept.2.2.1]
      exact h.auth.failures
    · rw [hswept.2.2.2]
      exact h.auth.locks
  have hunfold : checkRunCreate cfg keys now s =
      let checked := runCreateLoop cfg now true keys.list swept.runCreateBuckets []
      if checked.1.isSome then (checked.1, { swept with runCreateBuckets := checked.2.1 })
      else (none, { swept with runCreateBuckets := appendTimes now checked.2.2 checked.2.1 }) := rfl
  rw [hunfold] at hbelow ⊢
  rcases hloop : runCreateLoop cfg now true keys.list swept.runCreateBuckets [] with
    ⟨_ | retry, d', allocated⟩
  · simp only [hloop, isSome_none, Bool.false_eq_true, if_false] at hbelow ⊢
    have hmono : d'.length ≤ (appendTimes now allocated d').length :=
      appendTimes_length_le allocated d'
    have hspec := runCreateLoop_spec keys.list true _ [] none d' allocated hswept.1 hloop
      (hmono.trans_lt hbelow)
    have hall : keys.list.all (hasRoom cfg.runWindow now (fun _ => cfg.runLimit) t.runs) = true :=
      hspec.2.2.1.symm.trans rfl
    rw [permit, if_pos hall, hspec.2.2.2 rfl]
    exact ⟨rfl, hkeeps _ _ (appendTimes_kept keys.list d' t.runs keys.list_nodup hspec.2.1)⟩
  · simp only [hloop, isSome_some, if_true] at hbelow ⊢
    have hspec := runCreateLoop_spec keys.list true _ [] (some retry) d' allocated hswept.1 hloop
      hbelow
    rw [permit, if_neg (by rw [← hspec.2.2.1]; exact Bool.false_ne_true)]
    exact ⟨rfl, hkeeps _ _ hspec.2.1⟩

theorem Keeps.lockoutAsked (hclear : ¬ SpoilsFailures cfg s now keys) :
    (authLockoutRetryAfter cfg keys now s).1.isNone = keys.list.all (fun key => !t.locked now key) ∧
      Keeps cfg now (authLockoutRetryAfter cfg keys now s).2 t := by
  have hswept := sweepAuthState_spec h.auth
  have hrounds := lockoutRounds_spec keys.list (0, sweepAuthState cfg now s) hswept.1
    (droppable_swept hclear)
  simp only [lt_irrefl, false_or] at hrounds
  refine ⟨?_, h.withAuth ⟨hrounds.2.2.1.trans hswept.2.1, hrounds.2.2.2.trans hswept.2.2⟩ rfl rfl
    hrounds.2.1⟩
  rw [authLockoutRetryAfter, orNone, Bool.eq_iff_iff, List.all_eq_true]
  split
  next hzero =>
    refine ⟨fun _ key hkey => ?_, fun _ => rfl⟩
    have hnot : t.locked now key = false := Bool.eq_false_iff.mpr fun hl =>
      absurd hzero (Nat.ne_of_gt (hrounds.1.mpr ⟨key, hkey, hl⟩))
    rw [hnot]
    rfl
  next hsome =>
    refine ⟨fun hn => Bool.noConfusion hn, fun hall => ?_⟩
    rcases hrounds.1.mp (Nat.pos_of_ne_zero hsome) with ⟨key, hkey, hl⟩
    have hfree := hall key hkey
    rw [hl] at hfree
    exact Bool.noConfusion hfree

theorem Keeps.recorded {outcome : AuthOutcome}
    (hbelow : (recordAuthResult cfg keys outcome now s).failureBuckets.length < cfg.buckets) :
    Keeps cfg now (recordAuthResult cfg keys outcome now s)
      (match outcome with
        | .unauthorized => t.refused cfg now keys.list
        | .authenticated => t.forgiven keys.credential.toList
        | .other => t) := by
  have hswept := sweepAuthState_spec h.auth
  have hkeeps := h.withAuth hswept.2 rfl rfl hswept.1
  cases outcome with
  | other => exact hkeeps
  | unauthorized =>
    simp only [recordAuthResult, Nat.le_zero, Nat.ne_of_gt cfg.authFailures.2.1, if_false]
      at hbelow ⊢
    have hrounds := failureRounds_spec keys.list _ t.failures keys.list_nodup
      hkeeps.auth.failures hbelow
    refine hkeeps.withAuth hrounds.2.2 rfl rfl ⟨hrounds.1, fun key => ?_⟩
    rw [hrounds.2.1]
    simp only [Tally.refused]
    split
    · rfl
    · exact hkeeps.auth.locks key
  | authenticated =>
    simp only [recordAuthResult]
    cases keys.credential with
    | none =>
      have hsame : t.forgiven (none : Option String).toList = t := by simp [Tally.forgiven]
      rw [hsame]
      exact hkeeps
    | some credential =>
      refine hkeeps.withAuth ⟨rfl, rfl⟩ rfl rfl ⟨fun key => ?_, fun key => ?_⟩
      · change Tracks _ _ (Buckets.times (dropKey _ credential) key) _
        simp only [times_dropKey, Tally.forgiven, toList_some, mem_singleton]
        split
        · exact tracks_nil
        · exact hkeeps.auth.failures key
      · change Option.filter _ ((dropKey _ credential).get? key) = _
        simp only [dropKey, Dict.get?_filterKeys, Tally.forgiven, toList_some,
          mem_singleton, bne_iff_ne]
        by_cases heq : key = credential
        · simp [heq]
        · simp only [heq, ne_eq, not_false_eq_true, if_true, if_false]
          exact hkeeps.auth.locks key

end

theorem Keeps.answered {c : LimitCall} (h : Keeps cfg c.now s t)
    (hbelow : (localAnswer cfg c s).2.Below cfg) (hclear : ¬ Spoils cfg s c) :
    (localAnswer cfg c s).1.isNone = (policyAnswer cfg c t).1 ∧
      Keeps cfg c.now (localAnswer cfg c s).2 (policyAnswer cfg c t).2 := by
  unfold localAnswer at hbelow ⊢
  unfold Spoils at hclear
  unfold policyAnswer
  rcases hquery : c.query with _ | _ | _ | outcome
  · rw [hquery] at hbelow hclear
    exact h.checked hbelow.buckets hclear
  · rw [hquery] at hbelow
    exact h.runCreateChecked hbelow.runCreateBuckets
  · rw [hquery] at hclear
    exact h.lockoutAsked hclear
  · rw [hquery] at hbelow
    have hrecorded := h.recorded hbelow.failureBuckets
    cases outcome with
    | unauthorized => exact ⟨rfl, hrecorded⟩
    | authenticated => exact ⟨rfl, hrecorded⟩
    | other => exact ⟨rfl, hrecorded⟩

end Apex.App
