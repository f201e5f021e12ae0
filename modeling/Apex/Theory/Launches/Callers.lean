import Apex.Services.PipelineLaunch

/-!
# What A Caller Of The Launch Knows

A call of `start_run` that carries a key, walked through once. What it learns on
the way is kept on a seat: whether it holds the lock of its thread, what stamp the
runtime has shown it, how many runs there are at least, whether it has seen that
there are none, and which run is the marked one.

A run is created only by a caller that holds the lock, has seen that the thread is
empty, and has been shown a stamp that is the digest of its own request.

## Main definitions

* `History`: The runs of a thread with a given stamp.
* `launchDiscipline`: What it may ask, what it may be told, and what it learns.

## Theorems

* `findLaunchRootRun_follows`: The scan finds the marked run, or sees that there is none.
* `startRun_follows`: Every launch follows the discipline.
-/

namespace Apex.Services

open List Option
open Domain Program

open Apex.Action hiding ask

/-- The runs of a thread with a stamp, the newest first. Under the stamp of a launch the
    oldest run is the marked one; a thread without such a stamp has no marked run. -/
inductive History : Option Json → List NativeRun → Prop
  | untouched (stamp : Option Json) : History stamp []
  | foreign {stamp : Option Json} {runs : List NativeRun} (hstamp : ∀ f, stamp ≠ some (.str f))
      (hunmarked : ∀ run ∈ runs, run.rootMarker = none) : History stamp runs
  | launched {f : String} {later : List NativeRun} {root : NativeRun}
      (hlater : ∀ run ∈ later, run.rootMarker = none) (hroot : root.rootMarker = some (.str f)) :
      History (some (.str f)) (later ++ [root])

def rootsOf (runs : List NativeRun) : List NativeRun := runs.filter (·.rootMarker.isSome)

variable {runs : List NativeRun} {root : NativeRun} {saw : Bool} {oldest : Option NativeRun}
  {offset limit : Nat} {l l' : LaunchSeat} {threadId : String}

theorem rootsOf_append_unmarked {newer : List NativeRun}
    (h : ∀ run ∈ newer, run.rootMarker = none) : rootsOf (newer ++ runs) = rootsOf runs := by
  have hnone : rootsOf newer = [] := by
    refine filter_eq_nil_iff.mpr fun run hrun => ?_
    rw [h run hrun]
    exact Bool.false_ne_true
  rw [rootsOf, filter_append]
  exact congrArg (· ++ rootsOf runs) hnone

variable {later page after before : List NativeRun}

variable {f : String} {env : LaunchEnv}

theorem rootsOf_launched (hlater : ∀ run ∈ later, run.rootMarker = none)
    (hroot : root.rootMarker = some (.str f)) :
    rootsOf (later ++ [root]) = [root] := by
  rw [rootsOf_append_unmarked hlater, rootsOf, filter_singleton, hroot]
  rfl

theorem History.first (hroot : root.rootMarker = some (.str f)) :
    History (some (.str f)) [root] := by
  have hnone : ∀ run ∈ ([] : List NativeRun), run.rootMarker = none :=
    fun _ hmem => (not_mem_nil hmem).elim
  exact .launched hnone hroot

theorem History.roots {stamp : Option Json} (h : History stamp runs) :
    rootsOf runs = [] ∨ ∃ root f, rootsOf runs = [root] ∧ stamp = some (.str f) ∧
      root.rootMarker = some (.str f) := by
  cases h with
  | untouched => exact Or.inl rfl
  | foreign hstamp hunmarked =>
    refine Or.inl (filter_eq_nil_iff.mpr fun run hrun => ?_)
    rw [hunmarked run hrun]
    exact Bool.false_ne_true
  | @launched f later root hlater hroot =>
    exact Or.inr ⟨root, f, rootsOf_launched hlater hroot, rfl, hroot⟩

theorem scanRuns_unmarked (fingerprint : Option String) (oldest : Option NativeRun) (saw : Bool)
    (h : ∀ run ∈ page, run.rootMarker = none) :
    ∃ oldest', scanRuns fingerprint page oldest saw = .more oldest' saw := by
  induction page generalizing oldest with
  | nil => exact ⟨oldest, rfl⟩
  | cons run rest ih =>
    rw [scanRuns, h run mem_cons_self]
    exact ih (some run) fun r hr => h r (mem_cons_of_mem run hr)

theorem scanRuns_marked (h : ∀ run ∈ before, run.rootMarker = none)
    (hroot : root.rootMarker = some (.str f)) :
    scanRuns (some f) (before ++ root :: after) oldest saw = .found root := by
  induction before generalizing oldest with
  | nil => simp only [nil_append, scanRuns, hroot, any_some, BEq.rfl, if_true]
  | cons run rest ih =>
    rw [cons_append, scanRuns, h run mem_cons_self]
    exact ih fun r hr => h r (mem_cons_of_mem run hr)

def markedRun (page : List NativeRun) : Option NativeRun := page.find? (·.rootMarker.isSome)

theorem markedRun_none (h : ∀ run ∈ page, run.rootMarker = none) :
    markedRun page = none := by
  refine find?_eq_none.mpr fun run hrun => ?_
  rw [h run hrun]
  exact Bool.false_ne_true

theorem markedRun_some (h : ∀ run ∈ before, run.rootMarker = none)
    (hroot : root.rootMarker = some (.str f)) :
    markedRun (before ++ root :: after) = some root := by
  rw [markedRun, find?_append, find?_cons]
  have hnone := markedRun_none h
  rw [markedRun] at hnone
  rw [hnone, hroot]
  rfl

def pageOf (runs : List NativeRun) (limit offset : Nat) : List NativeRun :=
  (runs.drop offset).take limit

/-- A page that is asked for within the runs of a launched thread has the marked run at
    its end, or is full of later runs and leaves the marked one to later pages. -/
theorem pageOf_launched (root : NativeRun) (limit : Nat) (hoffset : offset ≤ later.length) :
    (∃ before, before <+: later.drop offset ∧
      pageOf (later ++ [root]) limit offset = before ∧ before.length = limit ∧
      offset + limit ≤ later.length) ∨
    pageOf (later ++ [root]) limit offset = later.drop offset ++ [root] := by
  have hdrop : (later ++ [root]).drop offset = later.drop offset ++ [root] :=
    drop_append_of_le_length hoffset
  rcases Nat.lt_or_ge (later.length - offset) limit with hlt | hge
  · refine Or.inr ?_
    rw [pageOf, hdrop, take_of_length_le]
    rw [length_append, length_drop, length_singleton]
    omega
  · refine Or.inl ⟨(later.drop offset).take limit, List.take_prefix limit _, ?_, ?_, by omega⟩
    · rw [pageOf, hdrop, take_append_of_le_length]
      rwa [length_drop]
    · rw [length_take, length_drop]
      omega

theorem pageOf_unmarked (hist : History (some (.str f)) runs)
    (hnone : markedRun (pageOf runs limit offset) = none)
    (hne : (pageOf runs limit offset).isEmpty = false) :
    offset + (pageOf runs limit offset).length + 1 ≤ runs.length := by
  generalize hstamp : some (Json.str f) = stamp at hist
  cases hist with
  | untouched =>
    rw [pageOf, drop_nil, take_nil] at hne
    exact nomatch hne
  | foreign hforeign => exact absurd hstamp.symm (hforeign f)
  | @launched g later root hlater hroot =>
    rcases Nat.lt_or_ge later.length offset with hpast | hle
    · -- A page past the end has no runs.
      rw [pageOf, drop_eq_nil_of_le, take_nil] at hne
      · exact nomatch hne
      · rw [length_append, length_singleton]
        exact hpast
    · rcases pageOf_launched root limit hle with
        ⟨before, _, hpage, hlength, hfits⟩ | hpage
      · rw [hpage, hlength, length_append, length_singleton]
        exact Nat.add_le_add_right hfits 1
      · rw [hpage, markedRun_some (fun run hrun => hlater run (mem_of_mem_drop hrun)) hroot]
          at hnone
        exact nomatch hnone

/-- What a call may amount to: the launch of its configuration, or of that configuration
    with a recovered target. -/
def Amounts (env : LaunchEnv) (a : StartRun) (launch : Launch) : Prop :=
  ∃ configurable, baseConfigurable env a = .ok configurable ∧
    (assembleLaunch env a configurable = .ok launch ∨ a.recoveryOnly = true ∧
      ∃ old, assembleLaunch env a (recoveredTarget old configurable) = .ok launch)

/-- What a caller knows: its call and the number of it, the thread of its key, whether it
    holds the lock, the stamp it was shown, whether it was shown one under the lock,
    whether it saw that the thread has no run, how many runs there are at least, and the
    id of the marked run. -/
structure LaunchSeat where
  call : Option (StartRun × Nat)
  threadId : String
  locked : Bool
  told : Option (Option Json)
  answered : Bool
  empty : Bool
  seen : Nat
  root : Option String

namespace LaunchSeat

def fresh (env : LaunchEnv) (a : StartRun) (number : Nat) : LaunchSeat where
  call := some (a, number)
  threadId := launchThreadId env a (a.idempotencyKey.getD "")
  locked := false
  told := none
  answered := false
  empty := false
  seen := 0
  root := none

/-- The stamp of a launch, if that is what the caller was shown. -/
def stamped (l : LaunchSeat) : Option String :=
  match l.told with
  | some (some (.str f)) => some f
  | _ => none

theorem told_of_stamped {l : LaunchSeat} {f : String} (h : l.stamped = some f) :
    l.told = some (some (.str f)) := by
  unfold stamped at h
  rcases htold : l.told with _ | _ | j
  · simp only [htold, reduceCtorEq] at h
  · simp only [htold, reduceCtorEq] at h
  · cases j with
    | str g =>
      simp only [htold, some.injEq] at h
      rw [h]
    | _ => simp only [htold, reduceCtorEq] at h

/-- The stamp of the thread is the digest of what the call amounts to. -/
def Owns (env : LaunchEnv) (l : LaunchSeat) (f : String) : Prop :=
  l.stamped = some f ∧ ∃ a number launch, l.call = some (a, number) ∧ Amounts env a launch ∧
    launch.fingerprint = some f

def shown (env : LaunchEnv) (l : LaunchSeat) (thread : NativeThread) : LaunchSeat :=
  { l with
    told := if thread.threadId = l.threadId then some thread.fingerprint else l.told
    answered := l.answered || (l.locked && threadFieldsOk env thread) }

/-- What a page of runs of a launched thread teaches. -/
def listed (l : LaunchSeat) (offset : Nat) (page : List NativeRun) : LaunchSeat :=
  if l.stamped.isSome then
    match markedRun page with
    | some root => { l with root := some root.runId }
    | none =>
      if page.isEmpty then { l with empty := l.empty || (l.locked && offset == 0) }
      else { l with seen := max l.seen (offset + page.length + 1) }
  else l

def move (env : LaunchEnv) (l : LaunchSeat) : (r : LaunchRequest) → r.Answer → LaunchSeat
  | .acquire _, .ok _ => { l with locked := true }
  | .release _, _ => { l with locked := false, empty := false }
  | .getThread _, .ok thread => l.shown env thread
  | .createThread _ _, .ok thread => l.shown env thread
  | .listRuns _ _ offset, .ok page => l.listed offset page
  | .createRun _ _ _ _ _ _, .ok runId => { l with empty := false, root := some runId }
  | .createRun _ _ _ _ _ _, .error _ => { l with empty := false }
  | _, _ => l

/-- What may be asked. Only a caller that saw an empty thread stamped with the digest of
    its own request creates a run. -/
def allowed (env : LaunchEnv) (l : LaunchSeat) : LaunchRequest → Prop
  | .acquire scope => scope = l.threadId ∧ l.locked = false
  | .release scope => scope = l.threadId
  | .getThread threadId => threadId = l.threadId
  | .createThread threadId _ => threadId = some l.threadId
  | .deleteThread _ => False
  | .listRuns threadId limit _ => threadId = l.threadId ∧ 0 < limit
  | .createRun threadId _ _ _ _ marker =>
    threadId = l.threadId ∧ l.empty = true ∧ ∃ f, marker = some f ∧ l.Owns env f
  | _ => True

/-- What may be answered: a page is one of a history of the runs. -/
def possible (l : LaunchSeat) : (r : LaunchRequest) → r.Answer → Prop
  | .listRuns _ limit offset, a => ∀ page, a = .ok page → ∃ runs, page = pageOf runs limit offset ∧
      l.seen ≤ runs.length ∧ ∀ stamp, l.told = some stamp → History stamp runs
  | _, _ => True

end LaunchSeat

def launchDiscipline (env : LaunchEnv) : Discipline LaunchRequest LaunchRequest.Answer LaunchSeat where
  allowed := LaunchSeat.allowed env
  possible := LaunchSeat.possible
  move := LaunchSeat.move env

structure LaunchSeat.Keeps (l l' : LaunchSeat) : Prop where
  call : l'.call = l.call
  threadId : l'.threadId = l.threadId
  locked : l'.locked = l.locked
  told : l'.told = l.told
  answered : l'.answered = l.answered
  empty : l.locked = false → l'.empty = l.empty

theorem LaunchSeat.Keeps.refl (l : LaunchSeat) : l.Keeps l := ⟨rfl, rfl, rfl, rfl, rfl, fun _ => rfl⟩

theorem LaunchSeat.Keeps.trans {l₁ l₂ l₃ : LaunchSeat} (h12 : l₁.Keeps l₂) (h23 : l₂.Keeps l₃) :
    l₁.Keeps l₃ where
  call := h23.call.trans h12.call
  threadId := h23.threadId.trans h12.threadId
  locked := h23.locked.trans h12.locked
  told := h23.told.trans h12.told
  answered := h23.answered.trans h12.answered
  empty h := (h23.empty (h12.locked.trans h)).trans (h12.empty h)

theorem LaunchSeat.Keeps.stamped (h : l.Keeps l') : l'.stamped = l.stamped := by
  unfold LaunchSeat.stamped
  rw [h.told]

theorem LaunchSeat.Keeps.owns (h : l.Keeps l') (howns : l.Owns env f) : l'.Owns env f := by
  rcases howns with ⟨hstamped, a, number, launch, hcall, hrest⟩
  exact ⟨h.stamped.trans hstamped, a, number, launch, h.call.trans hcall, hrest⟩

theorem listed_keeps (l : LaunchSeat) (offset : Nat) (page : List NativeRun) :
    l.Keeps (l.listed offset page) := by
  unfold LaunchSeat.listed
  cases l.stamped.isSome with
  | false => exact LaunchSeat.Keeps.refl l
  | true =>
    rcases markedRun page with _ | root
    · cases page.isEmpty with
      | true => exact ⟨rfl, rfl, rfl, rfl, rfl, fun h => by simp only [if_true, h, Bool.false_and, Bool.or_false]⟩
      | false => exact ⟨rfl, rfl, rfl, rfl, rfl, fun _ => rfl⟩
    · exact ⟨rfl, rfl, rfl, rfl, rfl, fun _ => rfl⟩

/-- What a scan of the runs for a stamp tells, if the thread is stamped so. -/
def LaunchSeat.Scanned (l : LaunchSeat) : Option NativeRun → Prop
  | some run => l.root = some run.runId
  | none => l.locked = true → l.empty = true

/-- How far a scan got: nothing was listed, or the runs go on after what was. -/
def LaunchSeat.Scanning (l : LaunchSeat) (offset : Nat) (oldest : Option NativeRun)
    (saw : Bool) : Prop :=
  saw = false ∧ (offset = 0 ∧ oldest = none ∨ offset < l.seen)

theorem listRunPage_follows (hid : threadId = l.threadId) (hlimit : 0 < limit) :
    (listRunPage threadId limit offset).run.follows (launchDiscipline env)
      (either (fun l' page => l' = l.listed offset page ∧
          ∃ runs, page = pageOf runs limit offset ∧ l.seen ≤ runs.length ∧
            ∀ stamp, l.told = some stamp → History stamp runs)
        (fun l' _ => l.Keeps l')) l := by
  refine ask_bind_follows ⟨hid, hlimit⟩ fun a ha => ?_
  cases a with
  | error e => cases e <;> exact LaunchSeat.Keeps.refl l
  | ok page =>
    refine bind_either (m := fun l' p => l' = l.listed offset page ∧ p = page) ⟨rfl, rfl⟩
      fun l' p h => ?_
    rcases h with ⟨rfl, rfl⟩
    refine bind_either (m := fun l' _ => l' = l.listed offset p)
      (raiseWhen_either (fun _ => rfl) fun _ => listed_keeps l offset p) fun l' _ h => ?_
    exact ⟨h, ha p rfl⟩

/-- One page of a thread with the stamp: it has the marked run, or the thread has no run,
    or the page is full and the runs go on after it. -/
theorem listed_scan (hstamped : l.stamped = some f) (hlimit : 0 < limit)
    (hscan : l.Scanning offset oldest saw) (hseen : l.seen ≤ runs.length)
    (hhist : History (some (.str f)) runs) :
    (∃ root, scanRuns (some f) (pageOf runs limit offset) oldest saw = .found root ∧
      (l.listed offset (pageOf runs limit offset)).root = some root.runId) ∨
    (pageOf runs limit offset = [] ∧ oldest = none ∧ saw = false ∧
      (l.listed offset (pageOf runs limit offset)).empty = (l.empty || l.locked)) ∨
    ((pageOf runs limit offset).length = limit ∧
      ∃ oldest', scanRuns (some f) (pageOf runs limit offset) oldest saw = .more oldest' false ∧
        (l.listed offset (pageOf runs limit offset)).Scanning (offset + limit) oldest' false) := by
  have hsome : l.stamped.isSome = true := by rw [hstamped]; rfl
  rcases hscan with ⟨rfl, hoffset⟩
  generalize hstamp : some (Json.str f) = stamp at hhist
  cases hhist with
  | untouched =>
    have hzero : offset = 0 ∧ oldest = none := by
      rcases hoffset with h | h
      · exact h
      · exact absurd (Nat.lt_of_lt_of_le h hseen) (Nat.not_lt_zero offset)
    rcases hzero with ⟨rfl, rfl⟩
    have hpage : pageOf [] limit 0 = [] := by rw [pageOf, drop_nil, take_nil]
    refine Or.inr (Or.inl ⟨hpage, rfl, rfl, ?_⟩)
    rw [hpage]
    simp only [LaunchSeat.listed, hsome, if_true, markedRun, find?_nil, isEmpty_nil,
      BEq.rfl, Bool.and_true]
  | foreign hforeign => exact absurd hstamp.symm (hforeign f)
  | @launched g later root hlater hroot =>
    cases hstamp
    have hle : offset ≤ later.length := by
      rw [length_append, length_singleton] at hseen
      rcases hoffset with ⟨rfl, _⟩ | h
      · exact Nat.zero_le _
      · omega
    have hdropped : ∀ run ∈ later.drop offset, run.rootMarker = none :=
      fun run hrun => hlater run (mem_of_mem_drop hrun)
    rcases pageOf_launched root limit hle with
      ⟨before, hbefore, hpage, hlength, hfits⟩ | hpage
    · have hunmarked : ∀ run ∈ before, run.rootMarker = none :=
        fun run hrun => hdropped run (hbefore.subset hrun)
      rcases scanRuns_unmarked (some f) oldest false hunmarked with ⟨oldest', hmore⟩
      refine Or.inr (Or.inr ⟨by rw [hpage, hlength], oldest', by rw [hpage, hmore], rfl, ?_⟩)
      have hnonempty : before.isEmpty = false := by
        cases before with
        | nil => exact absurd hlength (Nat.ne_of_lt hlimit)
        | cons => rfl
      rw [hpage]
      simp only [LaunchSeat.listed, hsome, if_true, markedRun_none hunmarked, hnonempty,
        Bool.false_eq_true, if_false, hlength]
      exact Or.inr (Nat.lt_of_lt_of_le (Nat.lt_succ_self _) (Nat.le_max_right _ _))
    · refine Or.inl ⟨root, ?_, ?_⟩
      · rw [hpage]
        exact scanRuns_marked hdropped hroot
      · rw [hpage]
        simp only [LaunchSeat.listed, hsome, if_true, markedRun_some hdropped hroot]

theorem endOfScan_follows {ok : LaunchSeat → Option NativeRun → Prop}
    {failed : LaunchSeat → LaunchError → Prop} (hok : saw = false → ok l oldest)
    (hfailed : ∀ e, failed l e) :
    (endOfScan oldest saw).run.follows (launchDiscipline env) (either ok failed) l := by
  cases saw with
  | true => exact hfailed _
  | false => exact hok rfl

theorem findLaunchRootRunFrom_follows {fuel : Nat} (hid : threadId = l.threadId)
    (hscan : l.stamped = some f → l.Scanning offset oldest saw) :
    (findLaunchRootRunFrom threadId (some f) fuel offset oldest saw).run.follows
      (launchDiscipline env)
      (either (fun l' found => l.Keeps l' ∧ (l.stamped = some f → l'.Scanned found))
        (fun l' _ => l.Keeps l')) l := by
  induction fuel generalizing offset oldest saw l with
  | zero => exact LaunchSeat.Keeps.refl l
  | succ fuel ih =>
    rw [findLaunchRootRunFrom]
    by_cases hmore : offset < maxLaunchRunReconcileRecords
    · rw [if_pos hmore]
      have hlimit : 0 < min runListPageSize (maxLaunchRunReconcileRecords - offset) :=
        Nat.lt_min.mpr ⟨by decide, Nat.sub_pos_of_lt hmore⟩
      refine bind_either (listRunPage_follows hid hlimit) fun l' page h => ?_
      rcases h with ⟨rfl, runs, hpage, hseen, hhist⟩
      have hkeeps := listed_keeps l offset page
      -- What the page tells if the thread has the stamp that is looked for.
      have htells : l.stamped = some f → _ := fun hstamped =>
        listed_scan hstamped hlimit (hscan hstamped) hseen (hhist _ (LaunchSeat.told_of_stamped hstamped))
      rw [← hpage] at htells
      cases hpaged : scanRuns (some f) page oldest saw with
      | found run =>
        refine ⟨hkeeps, fun hstamped => ?_⟩
        rcases htells hstamped with ⟨root, hfound, hroot⟩ | ⟨hempty, _, rfl, _⟩ | ⟨_, o, hmore, _⟩
        · rw [hpaged] at hfound
          rw [RunScan.found.inj hfound]
          exact hroot
        · rw [hempty] at hpaged
          exact nomatch hpaged
        · rw [hpaged] at hmore
          exact nomatch hmore
      | more oldest' saw' =>
        dsimp only
        by_cases hlast : page.length < min runListPageSize (maxLaunchRunReconcileRecords - offset)
        · rw [if_pos hlast]
          refine endOfScan_follows (fun _ => ⟨hkeeps, fun hstamped => ?_⟩) fun _ => hkeeps
          rcases htells hstamped with ⟨root, hfound, _⟩ | ⟨hempty, hnone, rfl, hknown⟩ | ⟨hfull, _⟩
          · rw [hpaged] at hfound
            exact nomatch hfound
          · rw [hempty] at hpaged
            cases hpaged
            subst hnone
            intro hlocked
            rw [hknown, ← hkeeps.locked, hlocked, Bool.or_true]
          · exact absurd hlast (Nat.not_lt.mpr (Nat.le_of_eq hfull.symm))
        · rw [if_neg hlast]
          refine mono_either (ih (hid.trans hkeeps.threadId.symm) fun hstamped => ?_)
            (fun l' found h => ⟨hkeeps.trans h.1, fun hstamped => h.2 (hkeeps.stamped.trans hstamped)⟩)
            fun l' e h => hkeeps.trans h
          rw [hkeeps.stamped] at hstamped
          rcases htells hstamped with ⟨root, hfound, _⟩ | ⟨hempty, _, _, _⟩ | ⟨hfull, o, hmore, hscanning⟩
          · rw [hpaged] at hfound
            exact nomatch hfound
          · rw [hempty] at hlast
            exact absurd hlimit hlast
          · rw [hpaged] at hmore
            cases hmore
            rw [hfull]
            exact hscanning
    · rw [if_neg hmore]
      exact LaunchSeat.Keeps.refl l

theorem findLaunchRootRun_follows (hid : threadId = l.threadId) :
    (findLaunchRootRun threadId (some f)).run.follows (launchDiscipline env)
      (either (fun l' found => l.Keeps l' ∧ (l.stamped = some f → l'.Scanned found))
        (fun l' _ => l.Keeps l')) l :=
  findLaunchRootRunFrom_follows hid fun _ => ⟨rfl, Or.inl ⟨rfl, rfl⟩⟩

/-- What a call that returns promises: the thread of its key, and the marked run of it. -/
def LaunchSeat.Finished (env : LaunchEnv) (l : LaunchSeat) (launched : Launched) : Prop :=
  launched.threadId = l.threadId ∧ l.root = some launched.runId ∧ ∃ f, l.Owns env f

/-- What a call that was shown a thread and raises promises. -/
def LaunchSeat.Failed (env : LaunchEnv) (l : LaunchSeat) (error : LaunchError) : Prop :=
  l.answered = true → (∃ f, l.Owns env f) ∨ ∃ message, error = .idempotencyConflict message

section Owned

variable {env : LaunchEnv} {launch : Launch} {f : String}

variable {l : LaunchSeat}

theorem adoptRun_follows {run : NativeRun} (howns : l.Owns env f)
    (hroot : l.root = some run.runId) :
    (adoptRun env l.threadId run).run.follows (launchDiscipline env)
      (either (LaunchSeat.Finished env) fun l' _ => l'.Owns env f) l := by
  refine bind_either (m := fun l' _ => l' = l) (settle_either (fun _ _ => rfl) fun _ _ => howns)
    fun l' _ hl => ?_
  subst hl
  refine ask_bind_follows trivial fun a _ => ?_
  refine bind_either (m := fun l'' _ => l'' = l') (settle_either (fun _ _ => rfl) fun _ _ => howns)
    fun l'' _ hl => ?_
  subst hl
  exact ⟨rfl, hroot, f, howns⟩

theorem pollForRun_follows {delays : List Nat} (howns : l.Owns env f) :
    (pollForRun env l.threadId (some f) delays).run.follows (launchDiscipline env)
      (either (LaunchSeat.Finished env) fun l' _ => l'.Owns env f) l := by
  induction delays generalizing l with
  | nil => exact howns
  | cons delay rest ih =>
    have hlook : (findLaunchRootRun l.threadId (some f) >>= fun found => match found with
        | some run => adoptRun env l.threadId run
        | none => pollForRun env l.threadId (some f) rest).run.follows (launchDiscipline env)
        (either (LaunchSeat.Finished env) fun l' _ => l'.Owns env f) l := by
      refine bind_either (mono_either (findLaunchRootRun_follows rfl) (fun l' found h => h)
        fun l' e h => h.owns howns) fun l' found h => ?_
      have hmine := h.1.owns howns
      rw [← h.1.threadId]
      cases found with
      | none => exact ih hmine
      | some run => exact adoptRun_follows hmine (h.2 howns.1)
    rw [pollForRun]
    by_cases hdelay : (delay != 0) = true
    · rw [if_pos hdelay]
      refine ask_bind_follows trivial fun a _ => bind_either (m := fun l' _ => l' = l)
        (settle_either (fun _ _ => rfl) fun _ _ => howns) fun l' _ hl => ?_
      subst hl
      exact hlook
    · rw [if_neg hdelay]
      exact hlook

theorem submitRun_follows {input configurable : Dict Json}
    (hthread : launch.threadId.isNone = false) (hfingerprint : launch.fingerprint = some f)
    (howns : l.Owns env f) (hempty : l.empty = true) :
    (submitRun env launch l.threadId input configurable).run.follows (launchDiscipline env)
      (either (LaunchSeat.Finished env) fun l' _ => l'.Owns env f) l := by
  unfold submitRun
  rw [hfingerprint]
  refine ask_bind_follows ⟨rfl, hempty, f, rfl, howns⟩ fun a _ => ?_
  -- Whatever became of the request, the caller no longer knows the thread to be empty.
  have hfails : ∀ error, (do
      if error.definitive && launch.threadId.isNone then removeThread l.threadId
      throw (runCreateFailure error) : LaunchAction Launched).run.follows (launchDiscipline env)
      (either (LaunchSeat.Finished env) fun l' _ => l'.Owns env f) { l with empty := false } := by
    intro error
    rw [hthread, Bool.and_false]
    exact howns
  cases a with
  | ok runId =>
    refine bind_either (m := fun l' _ => l' = { l with empty := false, root := some runId })
      (raiseWhen_either (fun _ => rfl) fun _ => howns) fun l' _ hl => ?_
    subst hl
    refine ask_bind_follows trivial fun a _ => ?_
    refine bind_either (m := fun l' _ => l' = { l with empty := false, root := some runId })
      (settle_either (fun _ _ => rfl) fun _ _ => howns) fun l' _ hl => ?_
    subst hl
    exact ⟨rfl, rfl, f, howns⟩
  | error error =>
    cases error with
    | conflict => exact pollForRun_follows (l := { l with empty := false }) howns
    | cancelled => exact howns
    | notFound => exact hfails _
    | status code => exact hfails _
    | other typeName => exact hfails _

theorem inheritedDefaults_follows :
    (inheritedDefaults launch).run.follows (launchDiscipline env)
      (either (fun l' _ => l' = l) fun l' _ => l' = l) l := by
  unfold inheritedDefaults
  by_cases hscope : (launch.configurable.value "test_scope" == .null) = true
  · rw [if_pos hscope]
    refine ask_bind_follows trivial fun a _ => ?_
    cases a with
    | ok defaults => rfl
    | error e => cases e <;> rfl
  · rw [if_neg hscope]
    rfl

theorem startHook_follows {threadId : String} :
    (startHook launch threadId).run.follows (launchDiscipline env)
      (either (fun l' _ => l' = l) fun l' _ => l' = l) l := by
  unfold startHook
  cases launch.beforeRunStart with
  | none => exact rfl
  | some owner =>
    refine ask_bind_follows trivial fun a _ => ?_
    exact bind_either (m := fun l' _ => l' = l) (settle_either (fun _ _ => rfl) fun _ _ => rfl)
      fun l' packets hl => hl

variable {createThread : Bool}

theorem prepareRun_follows {threadId : String} :
    (prepareRun launch threadId createThread).run.follows (launchDiscipline env)
      (either (fun l' _ => l' = l) fun l' _ => l' = l) l := by
  refine bind_either inheritedDefaults_follows fun l' inherited hl => ?_
  subst hl
  refine ask_bind_follows trivial fun a _ => bind_either (m := fun l'' _ => l'' = l')
    (settle_either (fun _ _ => rfl) fun _ _ => rfl) fun l'' resolved hl => ?_
  subst hl
  by_cases hprepare : launch.prepareConfigurable = true
  · simp only [hprepare, if_true]
    refine ask_bind_follows trivial fun a _ => bind_either (m := fun l' _ => l' = l'')
      (settle_either (fun _ _ => rfl) fun _ _ => rfl) fun l' prepared hl => ?_
    subst hl
    exact bind_either startHook_follows fun _ _ hl => hl
  · simp only [hprepare]
    refine bind_either (m := fun l' _ => l' = l'') (pure_either rfl) fun l' prepared hl => ?_
    subst hl
    exact bind_either startHook_follows fun _ _ hl => hl

theorem prepareAndSubmit_follows (hthread : launch.threadId.isNone = false)
    (hfingerprint : launch.fingerprint = some f) (howns : l.Owns env f) (hempty : l.empty = true) :
    (prepareAndSubmit env launch l.threadId createThread).run.follows (launchDiscipline env)
      (either (LaunchSeat.Finished env) fun l' _ => l'.Owns env f) l := by
  unfold prepareAndSubmit
  by_cases hrecovery : launch.recoveryOnly = true
  · rw [if_pos hrecovery]
    exact howns
  · rw [if_neg hrecovery]
    refine bind_either (m := fun l' _ => l' = l) (tryCatch_either prepareRun_follows
      fun l' e hl => ?_) fun l' prepared hl => ?_
    · subst hl
      rw [hthread, Bool.and_false]
      exact howns
    · subst hl
      refine bind_either (m := fun l'' _ => l'' = l') (settle_either (fun _ _ => rfl)
        fun _ _ => howns) fun l'' input hl => ?_
      subst hl
      exact submitRun_follows hthread hfingerprint howns hempty

theorem adoptOrSubmit_follows (createThread : Bool) (hthread : launch.threadId.isNone = false)
    (hfingerprint : launch.fingerprint = some f) (howns : l.Owns env f)
    (hlocked : l.locked = true) :
    (adoptOrSubmit env launch l.threadId createThread).run.follows (launchDiscipline env)
      (either (LaunchSeat.Finished env) fun l' _ => l'.Owns env f) l := by
  unfold adoptOrSubmit
  rw [hfingerprint]
  refine bind_either (mono_either (findLaunchRootRun_follows rfl) (fun l' found h => h)
    fun l' e h => h.owns howns) fun l' found h => ?_
  have hmine := h.1.owns howns
  rw [← h.1.threadId]
  cases found with
  | none =>
    exact prepareAndSubmit_follows hthread hfingerprint hmine
      (h.2 howns.1 (h.1.locked.trans hlocked))
  | some run => exact adoptRun_follows hmine (h.2 howns.1)

end Owned

section Thread

variable {env : LaunchEnv} {launch : Launch} {f : String}

variable {l : LaunchSeat} {thread : NativeThread}

theorem shown_refused (hanswered : l.answered = false)
    (hbad : threadFieldsOk env thread = false) : (l.shown env thread).answered = false := by
  simp only [LaunchSeat.shown, hanswered, hbad, Bool.and_false, Bool.or_false]

theorem createLaunchThread_follows (hthread : launch.threadId = some l.threadId)
    (hanswered : l.answered = false) :
    (createLaunchThread env launch).run.follows (launchDiscipline env)
      (either (fun l' thread => l' = l.shown env thread) fun l' _ => l'.answered = false) l := by
  refine ask_bind_follows hthread fun a _ => ?_
  cases a with
  | error e => cases e <;> exact hanswered
  | ok thread =>
    refine bind_either (m := fun l' t => l' = l.shown env thread ∧ t = thread) ⟨rfl, rfl⟩
      fun l' t h => ?_
    rcases h with ⟨rfl, rfl⟩
    refine bind_either (m := fun l' _ => l' = l.shown env t) (raiseWhen_either (fun _ => rfl)
      fun hbad => shown_refused hanswered ?_) fun l' _ hl => hl
    rwa [Bool.not_eq_true'] at hbad

theorem launchThread_follows (hthread : launch.threadId = some l.threadId)
    (hanswered : l.answered = false) :
    (launchThread env launch).run.follows (launchDiscipline env)
      (either (fun l' found => l' = l.shown env found.1) fun l' _ => l'.answered = false) l := by
  have hcreate : ((·, true) <$> createLaunchThread env launch).run.follows (launchDiscipline env)
      (either (fun l' found => l' = l.shown env found.1) fun l' _ => l'.answered = false) l :=
    map_either (createLaunchThread_follows hthread hanswered) fun _ _ h => h
  unfold launchThread
  rw [hthread]
  dsimp only
  by_cases hreuse : (launch.reuseExistingThread || launch.recoveryOnly) = true
  · rw [if_pos hreuse]
    refine ask_bind_follows rfl fun a _ => ?_
    cases a with
    | ok thread =>
      refine bind_either (m := fun l' _ => l' = l.shown env thread) (raiseWhen_either
        (fun _ => rfl) fun hbad => shown_refused hanswered ?_) fun l' _ hl => hl
      rwa [Bool.not_eq_true'] at hbad
    | error e =>
      cases e with
      | notFound =>
        by_cases hrecovery : launch.recoveryOnly = true
        · simp only [hrecovery, if_true]
          exact hanswered
        · simp only [hrecovery]
          exact hcreate
      | conflict => exact hanswered
      | status code => exact hanswered
      | other typeName => exact hanswered
      | cancelled => exact hanswered
  · rw [if_neg hreuse]
    exact hcreate

theorem threadRefusal_none {threadId : String} (hthread : launch.threadId = some threadId)
    (hfingerprint : launch.fingerprint = some f) (h : threadRefusal launch thread = none) :
    thread.threadId = threadId ∧ thread.fingerprint = some (.str f) := by
  unfold threadRefusal at h
  rw [hthread, hfingerprint] at h
  by_cases hid : (thread.threadId != threadId) = true
  · simp only [any_some, hid, if_true, reduceCtorEq] at h
  · by_cases hstamp : (thread.fingerprint != some (.str f)) = true
    · simp only [any_some, hid, hstamp, if_true, Bool.false_eq_true, if_false, reduceCtorEq] at h
    · exact ⟨by simpa using hid, by simpa using hstamp⟩

theorem threadRefusal_conflict {error : LaunchError}
    (h : threadRefusal launch thread = some error) :
    ∃ message, error = .idempotencyConflict message := by
  unfold threadRefusal at h
  by_cases hid : (launch.threadId.any fun threadId => thread.threadId != threadId) = true
  · rw [if_pos hid] at h
    exact ⟨_, (some.inj h).symm⟩
  · rw [if_neg hid] at h
    by_cases hstamp : (launch.fingerprint.any fun f => thread.fingerprint != some (.str f)) = true
    · rw [if_pos hstamp] at h
      exact ⟨_, (some.inj h).symm⟩
    · rw [if_neg hstamp] at h
      exact nomatch h

variable {number : Nat}

variable {a : StartRun}

theorem shown_owns (hcall : l.call = some (a, number)) (hamounts : Amounts env a launch)
    (hfingerprint : launch.fingerprint = some f) (hid : thread.threadId = l.threadId)
    (hstamp : thread.fingerprint = some (.str f)) : (l.shown env thread).Owns env f := by
  refine ⟨?_, a, number, launch, hcall, hamounts, hfingerprint⟩
  simp only [LaunchSeat.stamped, LaunchSeat.shown, hid, hstamp, if_true]

theorem createOrGetRun_follows (hcall : l.call = some (a, number)) (hamounts : Amounts env a launch)
    (hthread : launch.threadId = some l.threadId) (hfingerprint : launch.fingerprint = some f)
    (hanswered : l.answered = false) (hlocked : l.locked = true) :
    (createOrGetRun env launch).run.follows (launchDiscipline env)
      (either (LaunchSeat.Finished env) (LaunchSeat.Failed env)) l := by
  refine bind_either (mono_either (launchThread_follows hthread hanswered) (fun _ _ h => h)
    fun l' e h hyes => ?_) fun l' found hshown => ?_
  · rw [h] at hyes
    exact nomatch hyes
  · cases hrefusal : threadRefusal launch found.1 with
    | some error => exact fun _ => Or.inr (threadRefusal_conflict hrefusal)
    | none =>
      rcases threadRefusal_none hthread hfingerprint hrefusal with ⟨hid, hstamp⟩
      have howns := shown_owns hcall hamounts hfingerprint hid hstamp
      have hsubmit := adoptOrSubmit_follows found.2 (by rw [hthread]; rfl) hfingerprint howns
        hlocked
      subst hshown
      rw [hid]
      exact mono_either hsubmit (fun _ _ h => h) fun _ _ h _ => Or.inl ⟨f, h⟩

theorem holdingLock_follows {body : LaunchAction Launched} (hlocked : l.locked = false)
    (hanswered : l.answered = false) (hbody : ∀ l' : LaunchSeat, l' = { l with locked := true } →
      body.run.follows (launchDiscipline env) (either (fun l' launched => l'.threadId = l.threadId ∧
        l'.Finished env launched) fun l' e => l'.threadId = l.threadId ∧ l'.Failed env e) l') :
    (holdingLock l.threadId body).run.follows (launchDiscipline env)
      (either (LaunchSeat.Finished env) (LaunchSeat.Failed env)) l := by
  have hfailed : ∀ e, l.Failed env e := fun e hyes => by
    rw [hanswered] at hyes
    exact nomatch hyes
  refine ask_bind_follows ⟨rfl, hlocked⟩ fun a _ => ?_
  cases a with
  | error e => exact hfailed e
  | ok u =>
    refine bind_either (m := fun l' _ => l' = { l with locked := true })
      (settle_either (fun _ _ => rfl) fun _ h => nomatch h) fun l' _ hl => ?_
    refine bind_either (tryCatch_either (hbody l' hl) fun l'' e h => ?_) fun l'' launched h => ?_
    · exact ask_bind_follows h.1.symm fun _ _ => h.2
    · exact ask_bind_follows h.1.symm fun _ _ => h.2

end Thread

theorem move_call (l : LaunchSeat) (r : LaunchRequest) (a : r.Answer) :
    (l.move env r a).call = l.call ∧ (l.move env r a).threadId = l.threadId := by
  cases r
  case acquire scope => cases a <;> exact ⟨rfl, rfl⟩
  case getThread threadId => cases a <;> exact ⟨rfl, rfl⟩
  case createThread threadId metadata => cases a <;> exact ⟨rfl, rfl⟩
  case listRuns threadId limit offset =>
    rcases a with e | page
    · exact ⟨rfl, rfl⟩
    · exact ⟨(listed_keeps l offset page).call, (listed_keeps l offset page).threadId⟩
  case createRun threadId assistantId input configurable recursionLimit marker =>
    cases a <;> exact ⟨rfl, rfl⟩
  all_goals exact ⟨rfl, rfl⟩

/-- The seat of a call that has not asked for its lock yet. -/
structure LaunchSeat.Outside (l₀ l : LaunchSeat) : Prop where
  call : l.call = l₀.call
  threadId : l.threadId = l₀.threadId
  locked : l.locked = false
  answered : l.answered = false

theorem LaunchSeat.Outside.keeps {l₀ : LaunchSeat} (h : l₀.Outside l) (hkeeps : l.Keeps l') :
    l₀.Outside l' :=
  ⟨hkeeps.call.trans h.call, hkeeps.threadId.trans h.threadId, hkeeps.locked.trans h.locked,
    hkeeps.answered.trans h.answered⟩

section Call

variable {env : LaunchEnv} {a : StartRun}

variable {l : LaunchSeat} {key : String}

variable {l₀ : LaunchSeat} {configurable : Dict Json} {number : Nat}

theorem recoverRunConfig_follows {thread : NativeThread} (h : l₀.Outside l) :
    (recoverRunConfig env l₀.threadId thread).run.follows (launchDiscipline env)
      (either (fun l' _ => l₀.Outside l') fun l' _ => l₀.Outside l') l := by
  unfold recoverRunConfig
  cases hstamp : thread.fingerprint with
  | none => exact h
  | some stamp =>
    cases stamp with
    | str f =>
      refine bind_either (mono_either (findLaunchRootRun_follows h.threadId.symm)
        (fun l' _ hk => h.keeps hk.1) fun l' _ hk => h.keeps hk) fun l' found h => ?_
      cases found with
      | none => exact h
      | some root =>
        refine bind_either (m := fun l'' _ => l₀.Outside l'') (settle_either (fun _ _ => h)
          fun _ _ => h) fun l'' _ h => ask_bind_follows trivial fun a _ => ?_
        refine bind_either (m := fun l'' _ => l₀.Outside l'') (settle_either (fun _ _ => h)
          fun _ _ => h) fun l'' stored h => ?_
        by_cases hbinding : (stored.threadId != l₀.threadId || stored.runId != root.runId) = true
        · rw [if_pos hbinding]
          exact h
        · rw [if_neg hbinding]
          cases stored.configurable with
          | none => exact h
          | some configurable => exact h
    | _ => exact h

theorem recoverTarget_follows (hkey : a.idempotencyKey = some key)
    (hid : l₀.threadId = launchThreadId env a key) (h : l₀.Outside l) :
    (recoverTarget env a configurable).run.follows (launchDiscipline env)
      (either (fun l' c => l₀.Outside l' ∧ (c = configurable ∨
          ∃ old, c = recoveredTarget old configurable)) fun l' _ => l₀.Outside l') l := by
  unfold recoverTarget
  rw [hkey]
  cases a.principalId with
  | none => exact h
  | some principal =>
    refine ask_bind_follows (hid.symm.trans h.threadId.symm) fun answer _ => ?_
    cases answer with
    | error e => cases e <;> exact h
    | ok thread =>
      have hshown : l₀.Outside (l.shown env thread) :=
        ⟨h.call, h.threadId, h.locked, by
          simp only [LaunchSeat.shown, h.answered, h.locked, Bool.false_and, Bool.or_false]⟩
      dsimp only
      split_ifs
      · exact hshown
      · refine ask_bind_follows trivial fun checkpointed _ => ?_
        refine bind_either (m := fun l' _ => l₀.Outside l') (settle_either (fun _ _ => hshown)
          fun _ _ => hshown) fun l' checkpointed h => ?_
        have hchecked : ∀ (l' : LaunchSeat) (old : Dict Json), l₀.Outside l' →
            (if old.value "environment_id" != configurable.value "environment_id"
                || old.value "project_id" != textJson a.projectId
                || old.value "app_id" != textJson a.appId then
              throw (.idempotencyConflict "Legacy target snapshot is unavailable")
            else pure (recoveredTarget old configurable) :
              LaunchAction (Dict Json)).run.follows (launchDiscipline env)
            (either (fun l' c => l₀.Outside l' ∧ (c = configurable ∨
              ∃ old, c = recoveredTarget old configurable)) fun l' _ => l₀.Outside l') l' := by
          intro l' old h
          split_ifs
          · exact h
          · exact ⟨h, Or.inr ⟨old, rfl⟩⟩
        cases checkpointed with
        | some old => exact hchecked l' old h
        | none =>
          rw [← hid]
          exact bind_either (recoverRunConfig_follows h) hchecked
      · exact ⟨hshown, Or.inl rfl⟩

variable {launch : Launch}

theorem assembleLaunch_claim (hkey : a.idempotencyKey = some key)
    (h : assembleLaunch env a configurable = .ok launch) :
    launch.threadId = some (launchThreadId env a key) ∧ ∃ f, launch.fingerprint = some f := by
  unfold assembleLaunch at h
  cases hvalid : env.modelValidate configurable with
  | none =>
    rw [hvalid] at h
    exact nomatch h
  | some config =>
    rw [hvalid] at h
    simp only [bind_ok] at h
    rcases h with ⟨input, _, _, _, h⟩
    rw [← Except.ok.inj h]
    simp only [hkey, map_some, some.injEq, exists_eq', and_self]

theorem runLaunch_follows {f : String} (hcall : l.call = some (a, number))
    (hamounts : Amounts env a launch) (hthread : launch.threadId = some l.threadId)
    (hfingerprint : launch.fingerprint = some f) (hlocked : l.locked = false)
    (hanswered : l.answered = false) :
    (runLaunch env launch).run.follows (launchDiscipline env)
      (either (LaunchSeat.Finished env) (LaunchSeat.Failed env)) l := by
  unfold runLaunch
  rw [hthread]
  refine holdingLock_follows hlocked hanswered fun l' hl => ?_
  have hbody : (createOrGetRun env launch).run.follows (launchDiscipline env)
      (either (LaunchSeat.Finished env) (LaunchSeat.Failed env)) l' := by
    subst hl
    exact createOrGetRun_follows hcall hamounts hthread hfingerprint hanswered rfl
  have hframe : (createOrGetRun env launch).run.follows (launchDiscipline env)
      (fun l'' result => either (LaunchSeat.Finished env) (LaunchSeat.Failed env) l'' result ∧
        l'.threadId = l''.threadId) l' :=
    @follows_frame _ _ _ _ _ _ (fun l₁ l₂ : LaunchSeat => l₁.threadId = l₂.threadId)
      (fun _ => rfl) (fun h12 h23 => h12.trans h23) (fun l r a => (move_call l r a).2.symm) _ _ hbody
  refine follows_mono hframe fun l'' result h => ?_
  have hsame : l''.threadId = l.threadId := h.2.symm.trans (by rw [hl])
  cases result with
  | ok launched => exact ⟨hsame, h.1⟩
  | error e => exact ⟨hsame, h.1⟩

/-- Every keyed launch follows the discipline: it returns the marked run of its thread,
    and once it was shown the thread of another request it ends in a conflict. -/
theorem startRun_follows (hkey : a.idempotencyKey = some key) :
    (PipelineRead.startRun env a).run.follows (launchDiscipline env)
      (either (LaunchSeat.Finished env) (LaunchSeat.Failed env)) (LaunchSeat.fresh env a number) := by
  have hid : (LaunchSeat.fresh env a number).threadId = launchThreadId env a key := by
    simp only [LaunchSeat.fresh, hkey, getD_some]
  have hfailed : ∀ (l : LaunchSeat) e, (LaunchSeat.fresh env a number).Outside l →
      l.Failed env e := fun l e h hyes => by
    rw [h.answered] at hyes
    exact nomatch hyes
  have houtside : (LaunchSeat.fresh env a number).Outside (LaunchSeat.fresh env a number) :=
    ⟨rfl, rfl, rfl, rfl⟩
  have hrun : ∀ (l : LaunchSeat) (configurable : Dict Json),
      (LaunchSeat.fresh env a number).Outside l →
      (∀ launch, assembleLaunch env a configurable = .ok launch → Amounts env a launch) →
      (settle (assembleLaunch env a configurable) >>= runLaunch env).run.follows
        (launchDiscipline env) (either (LaunchSeat.Finished env) (LaunchSeat.Failed env)) l := by
    intro l configurable h hamounts
    refine bind_either (m := fun l' launch => l' = l ∧ assembleLaunch env a configurable = .ok launch)
      (settle_either (fun launch hlaunch => ⟨rfl, hlaunch⟩) fun e _ => hfailed l e h)
      fun l' launch hl => ?_
    rcases hl with ⟨rfl, hlaunch⟩
    rcases assembleLaunch_claim hkey hlaunch with ⟨hthread, f, hfingerprint⟩
    refine runLaunch_follows h.call (hamounts launch hlaunch) ?_ hfingerprint h.locked h.answered
    rw [hthread, h.threadId, hid]
  refine bind_either (m := fun l' c => (LaunchSeat.fresh env a number).Outside l' ∧
      baseConfigurable env a = .ok c)
    (settle_either (fun c hc => ⟨houtside, hc⟩) fun e _ => hfailed _ e houtside) fun l base h => ?_
  rcases h with ⟨h, hbase⟩
  by_cases hrecovery : a.recoveryOnly = true
  · rw [if_pos hrecovery]
    refine bind_either (mono_either (recoverTarget_follows hkey hid h) (fun _ _ h => h) hfailed)
      fun l' c hc => hrun l' c hc.1 fun launch hlaunch => ?_
    rcases hc.2 with rfl | ⟨old, rfl⟩
    · exact ⟨c, hbase, Or.inl hlaunch⟩
    · exact ⟨base, hbase, Or.inr ⟨hrecovery, old, hlaunch⟩⟩
  · rw [if_neg hrecovery]
    exact hrun l base h fun launch hlaunch => ⟨base, hbase, Or.inl hlaunch⟩

end Call

end Apex.Services
