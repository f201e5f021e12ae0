import Apex.Theory.Launches.Callers

/-!
# The Runtime That Launches Share

The threads of the runtime with their runs, and the locks, as the callers of a
launch share them. A request that fails may have taken effect: a thread may have
been created although the answer was lost, and so may a run. Between answers the
users of the runtime go on with the runs of a thread, and they may create threads
of their own under any id; the stamp of a launch and the mark of a first run are
fields they cannot set.

## Main definitions

* `RuntimeThread`, `LaunchStore`: The threads and the locks.
* `LaunchStore.Elapses`: What others do meanwhile.
* `LaunchStore.Answers`: How requests are answered.

## Theorems

* `elapses_histories`, `elapses_later`: What others do leaves histories alone.
* `answers_step`: What an answer to an allowed request does to every thread.
-/

namespace Apex.Services

open List Option Function
open Apex.Action hiding ask

/-- A thread of the runtime: its stamp, and its runs, the newest first. -/
structure RuntimeThread where
  fingerprint : Option Json
  runs : List NativeRun

/-- The threads of the runtime by id, and who holds the lock of each. -/
structure LaunchStore (ι : Type) where
  threads : String → Option RuntimeThread
  holder : String → Option ι

namespace LaunchStore

variable {ι : Type} [DecidableEq ι]

def empty : LaunchStore ι where
  threads _ := none
  holder _ := none

/-- The stamp of a thread, if the thread exists. -/
def stamp (s : LaunchStore ι) (threadId : String) : Option (Option Json) :=
  (s.threads threadId).map (·.fingerprint)

def runs (s : LaunchStore ι) (threadId : String) : List NativeRun :=
  ((s.threads threadId).map (·.runs)).getD []

def roots (s : LaunchStore ι) (threadId : String) : List NativeRun := rootsOf (s.runs threadId)

/-- A worker lets go of a lock, if it is the holder. -/
def released (s : LaunchStore ι) (i : ι) (scope : String) : LaunchStore ι :=
  if s.holder scope = some i then { s with holder := Function.update s.holder scope none } else s

def dropped (s : LaunchStore ι) (i : ι) : LaunchStore ι :=
  { s with holder := fun scope => if s.holder scope = some i then none else s.holder scope }

def put (s : LaunchStore ι) (threadId : String) (thread : Option RuntimeThread) : LaunchStore ι :=
  { s with threads := Function.update s.threads threadId thread }

/-- A thread is created unless it exists. -/
def created (s : LaunchStore ι) (threadId : String) (metadata : Dict Json) : LaunchStore ι :=
  match s.threads threadId with
  | some _ => s
  | none => s.put threadId (some ⟨metadata.get? launchFingerprintKey, []⟩)

def ran (s : LaunchStore ι) (threadId : String) (thread : RuntimeThread) (run : NativeRun) :
    LaunchStore ι :=
  s.put threadId (some { thread with runs := run :: thread.runs })

/-- A response about the thread that was asked for tells its stamp. -/
def Shows (s : LaunchStore ι) (threadId : String) (thread : NativeThread) : Prop :=
  thread.threadId = threadId → s.stamp threadId = some thread.fingerprint

/-- A marked or unmarked run was created on a thread. -/
def RunCreated (s : LaunchStore ι) (threadId : String) (marker : Option String)
    (run : NativeRun) (s' : LaunchStore ι) : Prop :=
  run.rootMarker = marker.map .str ∧
    ∃ thread, s.threads threadId = some thread ∧ s' = s.ran threadId thread run

/-- How a request of a worker is answered. What fails may have happened. -/
def Answers (s : LaunchStore ι) (i : ι) :
    (r : LaunchRequest) → r.Answer → LaunchStore ι → Prop
  | .acquire scope, .ok _, s' =>
    s.holder scope = none ∧ s' = { s with holder := Function.update s.holder scope (some i) }
  | .release scope, _, s' => s' = s.released i scope
  | .getThread threadId, .ok thread, s' => s' = s ∧ s.Shows threadId thread
  | .createThread (some threadId) metadata, .ok thread, s' =>
    s' = s.created threadId metadata ∧ s'.Shows threadId thread
  | .createThread (some threadId) metadata, .error _, s' =>
    s' = s ∨ s' = s.created threadId metadata
  | .createThread none metadata, .ok thread, s' =>
    s.threads thread.threadId = none ∧ s' = s.created thread.threadId metadata
  | .createThread none metadata, .error _, s' =>
    s' = s ∨ ∃ threadId, s.threads threadId = none ∧ s' = s.created threadId metadata
  | .deleteThread threadId, _, s' => s' = s ∨ s' = s.put threadId none
  | .listRuns threadId limit offset, .ok page, s' =>
    s' = s ∧ page = pageOf (s.runs threadId) limit offset
  | .createRun threadId _ _ _ _ marker, .ok runId, s' =>
    ∃ run, run.runId = runId ∧ s.RunCreated threadId marker run s'
  | .createRun threadId _ _ _ _ marker, .error _, s' =>
    s' = s ∨ ∃ run, s.RunCreated threadId marker run s'
  | _, _, s' => s' = s

end LaunchStore

/-- What others do with a thread: they create one without a stamp, or they put unmarked
    runs on one that has runs, or that has no stamp. -/
inductive ThreadGrows : Option RuntimeThread → Option RuntimeThread → Prop
  | same (thread : Option RuntimeThread) : ThreadGrows thread thread
  | native {thread : RuntimeThread} (hstamp : ∀ f, thread.fingerprint ≠ some (.str f))
      (hunmarked : ∀ run ∈ thread.runs, run.rootMarker = none) : ThreadGrows none (some thread)
  | continued {thread : RuntimeThread} {newer : List NativeRun}
      (hunmarked : ∀ run ∈ newer, run.rootMarker = none)
      (h : thread.runs ≠ [] ∨ ∀ f, thread.fingerprint ≠ some (.str f)) :
      ThreadGrows (some thread) (some { thread with runs := newer ++ thread.runs })

namespace LaunchStore

variable {ι : Type}

def Elapses (s s' : LaunchStore ι) : Prop :=
  s'.holder = s.holder ∧ ∀ threadId, ThreadGrows (s.threads threadId) (s'.threads threadId)

/-- The runs of every thread are a history under its stamp. -/
def Histories (s : LaunchStore ι) : Prop :=
  ∀ threadId thread, s.threads threadId = some thread → History thread.fingerprint thread.runs

/-- No thread is lost or stamped again, and no run is lost. -/
def Later (s s' : LaunchStore ι) : Prop :=
  ∀ threadId thread, s.threads threadId = some thread →
    ∃ newer, s'.threads threadId = some { thread with runs := newer ++ thread.runs }

theorem Later.refl (s : LaunchStore ι) : s.Later s := fun _ _ h => ⟨[], h⟩

theorem Later.trans {s₁ s₂ s₃ : LaunchStore ι} (h12 : s₁.Later s₂) (h23 : s₂.Later s₃) :
    s₁.Later s₃ := by
  intro threadId thread h
  rcases h12 threadId thread h with ⟨newer, h2⟩
  rcases h23 threadId _ h2 with ⟨newest, h3⟩
  refine ⟨newest ++ newer, ?_⟩
  rw [h3, append_assoc]

theorem Later.stamp {s s' : LaunchStore ι} (h : s.Later s') {threadId : String}
    {stamp : Option Json} (hstamp : s.stamp threadId = some stamp) :
    s'.stamp threadId = some stamp := by
  unfold LaunchStore.stamp at hstamp ⊢
  rcases map_eq_some_iff.mp hstamp with ⟨thread, hthread, rfl⟩
  rcases h threadId thread hthread with ⟨newer, h'⟩
  rw [h', map_some]

variable {s s' : LaunchStore ι} {threadId : String}

theorem Later.runs (h : s.Later s') (threadId : String) :
    ∃ newer, s'.runs threadId = newer ++ s.runs threadId := by
  unfold LaunchStore.runs
  cases hthread : s.threads threadId with
  | none => exact ⟨_, (append_nil _).symm⟩
  | some thread =>
    rcases h threadId thread hthread with ⟨newer, h'⟩
    exact ⟨newer, by rw [h']; rfl⟩

theorem Histories.runs (h : s.Histories) {stamp : Option Json}
    (hstamp : s.stamp threadId = some stamp) :
    History stamp (s.runs threadId) := by
  unfold LaunchStore.stamp at hstamp
  rcases map_eq_some_iff.mp hstamp with ⟨thread, hthread, rfl⟩
  have := h threadId thread hthread
  rwa [LaunchStore.runs, hthread]

theorem Histories.roots (h : s.Histories) (threadId : String) :
    s.roots threadId = [] ∨ ∃ root f, s.roots threadId = [root] ∧
      s.stamp threadId = some (some (.str f)) ∧ root.rootMarker = some (.str f) := by
  cases hthread : s.threads threadId with
  | none =>
    refine Or.inl ?_
    rw [LaunchStore.roots, LaunchStore.runs, hthread]
    rfl
  | some thread =>
    have hruns : s.runs threadId = thread.runs := by rw [LaunchStore.runs, hthread]; rfl
    have hstamp : s.stamp threadId = some thread.fingerprint := by
      rw [LaunchStore.stamp, hthread, map_some]
    unfold LaunchStore.roots
    rw [hruns, hstamp]
    rcases (h threadId thread hthread).roots with hnone | ⟨root, f, hroot, hf, hmark⟩
    · exact Or.inl hnone
    · exact Or.inr ⟨root, f, hroot, congrArg some hf, hmark⟩

theorem Later.roots (h : s.Later s') (hist : s'.Histories) {root : NativeRun}
    (hroot : s.roots threadId = [root]) :
    s'.roots threadId = [root] := by
  rcases h.runs threadId with ⟨newer, hruns⟩
  have happend : s'.roots threadId = rootsOf newer ++ [root] := by
    rw [LaunchStore.roots, hruns, rootsOf, filter_append]
    exact congrArg (rootsOf newer ++ ·) hroot
  rcases hist.roots threadId with hnone | ⟨root', f, hone, _, _⟩
  · rw [happend] at hnone
    exact absurd (append_eq_nil_iff.mp hnone).2 (cons_ne_nil root [])
  · rw [happend] at hone
    have hnil : rootsOf newer = [] := by
      have hlength := congrArg List.length hone
      rw [length_append, length_singleton, length_singleton] at hlength
      exact eq_nil_of_length_eq_zero (Nat.add_right_cancel (hlength.trans (Nat.zero_add 1).symm))
    rw [happend, hnil, nil_append]

end LaunchStore

theorem History.grown {stamp : Option Json} {newer runs : List NativeRun} (h : History stamp runs)
    (hunmarked : ∀ run ∈ newer, run.rootMarker = none)
    (hopen : runs ≠ [] ∨ ∀ f, stamp ≠ some (.str f)) : History stamp (newer ++ runs) := by
  cases h with
  | untouched =>
    rcases hopen with hne | hforeign
    · exact absurd rfl hne
    · rw [append_nil]
      exact .foreign hforeign hunmarked
  | foreign hforeign hruns =>
    exact .foreign hforeign fun run hrun =>
      (mem_append.mp hrun).elim (hunmarked run) (hruns run)
  | launched hlater hroot =>
    rw [← append_assoc]
    exact .launched (fun run hrun => (mem_append.mp hrun).elim (hunmarked run) (hlater run)) hroot

section Elapses

variable {ι : Type} {s s' : LaunchStore ι}

theorem elapses_refl (s : LaunchStore ι) : s.Elapses s := ⟨rfl, fun _ => .same _⟩

theorem elapses_later (h : s.Elapses s') : s.Later s' := by
  intro threadId thread hthread
  have hgrows := h.2 threadId
  rw [hthread] at hgrows
  generalize hafter : s'.threads threadId = after at hgrows
  cases hgrows with
  | same => exact ⟨[], rfl⟩
  | @continued _ newer _ _ => exact ⟨newer, rfl⟩

theorem elapses_histories (h : s.Elapses s') (hist : s.Histories) : s'.Histories := by
  intro threadId thread hthread
  have hgrows := h.2 threadId
  rw [hthread] at hgrows
  generalize hbefore : s.threads threadId = before at hgrows
  cases hgrows with
  | same => exact hist threadId thread hbefore
  | native hstamp hunmarked => exact .foreign hstamp hunmarked
  | @continued old newer hunmarked hopen => exact (hist threadId old hbefore).grown hunmarked hopen

theorem elapses_quiet (h : s.Elapses s') {threadId f : String}
    (hstamp : s.stamp threadId = some (some (.str f))) (hempty : s.runs threadId = []) :
    s'.runs threadId = [] := by
  unfold LaunchStore.stamp at hstamp
  rcases map_eq_some_iff.mp hstamp with ⟨thread, hthread, hf⟩
  have hnone : thread.runs = [] := by rwa [LaunchStore.runs, hthread] at hempty
  have hgrows := h.2 threadId
  rw [hthread] at hgrows
  unfold LaunchStore.runs
  generalize hafter : s'.threads threadId = after at hgrows
  cases hgrows with
  | same => exact hnone
  | continued hunmarked hopen =>
    rcases hopen with hne | hforeign
    · exact absurd hnone hne
    · exact absurd hf (hforeign f)

theorem elapses_roots (h : s.Elapses s') (threadId : String) :
    s'.roots threadId = s.roots threadId := by
  have hgrows := h.2 threadId
  unfold LaunchStore.roots LaunchStore.runs
  generalize s.threads threadId = before at hgrows
  generalize s'.threads threadId = after at hgrows
  cases hgrows with
  | same => rfl
  | @native thread hstamp hunmarked =>
    refine filter_eq_nil_iff.mpr fun run hrun => ?_
    rw [hunmarked run hrun]
    exact Bool.false_ne_true
  | continued hunmarked hopen => exact rootsOf_append_unmarked hunmarked

end Elapses

structure LaunchSeat.Knows {ι : Type} (l : LaunchSeat) (s : LaunchStore ι) (i : ι) : Prop where
  lock : ∀ scope, s.holder scope = some i ↔ l.locked = true ∧ scope = l.threadId
  told : ∀ stamp, l.told = some stamp → s.stamp l.threadId = some stamp
  seen : l.seen ≤ (s.runs l.threadId).length
  empty : l.empty = true → l.locked = true ∧ l.stamped.isSome = true ∧ s.runs l.threadId = []
  root : ∀ runId, l.root = some runId → ∃ run, s.roots l.threadId = [run] ∧ run.runId = runId

theorem LaunchSeat.Knows.later {ι : Type} {l : LaunchSeat} {s s' : LaunchStore ι} {i : ι}
    (h : l.Knows s i) (hlock : ∀ scope, s'.holder scope = some i ↔ s.holder scope = some i)
    (hlater : s.Later s') (hist : s'.Histories)
    (hquiet : l.empty = true → s'.runs l.threadId = []) : l.Knows s' i where
  lock scope := (hlock scope).trans (h.lock scope)
  told stamp hstamp := hlater.stamp (h.told stamp hstamp)
  seen := by
    rcases hlater.runs l.threadId with ⟨newer, hruns⟩
    rw [hruns, length_append]
    exact Nat.le_trans h.seen (Nat.le_add_left _ _)
  empty hempty := ⟨(h.empty hempty).1, (h.empty hempty).2.1, hquiet hempty⟩
  root runId hroot := by
    rcases h.root runId hroot with ⟨run, hone, hid⟩
    exact ⟨run, hlater.roots hist hone, hid⟩

variable {l : LaunchSeat}

theorem LaunchSeat.Knows.stamp {ι : Type} {s : LaunchStore ι} {i : ι} {f : String} (h : l.Knows s i)
    (hstamped : l.stamped = some f) :
    s.stamp l.threadId = some (some (.str f)) := h.told _ (LaunchSeat.told_of_stamped hstamped)

theorem knows_elapsed {ι : Type} {s s' : LaunchStore ι} {i : ι} (h : l.Knows s i)
    (helapses : s.Elapses s') (hist : s.Histories) : l.Knows s' i := by
  refine h.later (fun scope => by rw [helapses.1]) (elapses_later helapses)
    (elapses_histories helapses hist) fun hempty => ?_
  rcases h.empty hempty with ⟨_, hstamped, hruns⟩
  rcases isSome_iff_exists.mp hstamped with ⟨f, hf⟩
  exact elapses_quiet helapses (h.stamp hf) hruns

section Effects

variable {ι : Type} {s : LaunchStore ι}

theorem created_threads (s : LaunchStore ι) (threadId : String) (metadata : Dict Json) :
    s.created threadId metadata = s ∨ s.threads threadId = none ∧ s.created threadId metadata =
      s.put threadId (some ⟨metadata.get? launchFingerprintKey, []⟩) := by
  unfold LaunchStore.created
  cases hthread : s.threads threadId with
  | none => exact Or.inr ⟨rfl, rfl⟩
  | some thread => exact Or.inl rfl

theorem put_threads_self (s : LaunchStore ι) (threadId : String) (thread : Option RuntimeThread) :
    (s.put threadId thread).threads threadId = thread := update_self ..

variable {other : String}

theorem put_threads_of_ne (s : LaunchStore ι) {threadId : String} (thread : Option RuntimeThread)
    (h : other ≠ threadId) :
    (s.put threadId thread).threads other = s.threads other := update_of_ne h ..

theorem created_later (threadId : String) (metadata : Dict Json) :
    s.Later (s.created threadId metadata) := by
  rcases created_threads s threadId metadata with h | ⟨hnone, h⟩
  · rw [h]
    exact .refl s
  · intro other thread hthread
    have hne : other ≠ threadId := by
      rintro rfl
      rw [hnone] at hthread
      exact nomatch hthread
    exact ⟨[], by rw [h, put_threads_of_ne s _ hne]; exact hthread⟩

theorem created_histories (hist : s.Histories) (threadId : String) (metadata : Dict Json) :
    (s.created threadId metadata).Histories := by
  rcases created_threads s threadId metadata with h | ⟨hnone, h⟩
  · rwa [h]
  · intro other thread hthread
    rw [h] at hthread
    by_cases hother : other = threadId
    · subst hother
      rw [put_threads_self] at hthread
      rw [← some.inj hthread]
      exact .untouched _
    · rw [put_threads_of_ne s _ hother] at hthread
      exact hist other thread hthread

theorem created_runs (threadId : String) (metadata : Dict Json) (other : String) :
    (s.created threadId metadata).runs other = s.runs other := by
  rcases created_threads s threadId metadata with h | ⟨hnone, h⟩
  · rw [h]
  · unfold LaunchStore.runs
    rw [h]
    by_cases hother : other = threadId
    · subst hother
      rw [put_threads_self, hnone]
      rfl
    · rw [put_threads_of_ne s _ hother]

theorem created_holder (threadId : String) (metadata : Dict Json) :
    (s.created threadId metadata).holder = s.holder := by
  rcases created_threads s threadId metadata with h | ⟨_, h⟩ <;> rw [h]
  rfl

/-- The first run of a stamped thread that has none. -/
structure FirstRun (s : LaunchStore ι) (threadId f : String) (run : NativeRun)
    (s' : LaunchStore ι) : Prop where
  stamp : s.stamp threadId = some (some (.str f))
  empty : s.runs threadId = []
  mark : run.rootMarker = some (.str f)
  ran : ∃ thread, s.threads threadId = some thread ∧ s' = s.ran threadId thread run

variable {s' : LaunchStore ι} {threadId f : String} {run : NativeRun}

section

variable (h : FirstRun s threadId f run s')

include h

theorem FirstRun.threads :
    s'.threads threadId = some ⟨some (.str f), [run]⟩ ∧
      ∀ other, other ≠ threadId → s'.threads other = s.threads other := by
  rcases h.ran with ⟨thread, hthread, rfl⟩
  have hstamp := h.stamp
  have hempty := h.empty
  rw [LaunchStore.stamp, hthread, map_some, some.injEq] at hstamp
  rw [LaunchStore.runs, hthread] at hempty
  have hnone : thread.runs = [] := hempty
  refine ⟨?_, fun other hother => put_threads_of_ne s _ hother⟩
  rw [LaunchStore.ran, put_threads_self, hstamp, hnone]

theorem FirstRun.holder : s'.holder = s.holder := by
  rcases h.ran with ⟨thread, _, rfl⟩
  rfl

theorem FirstRun.later : s.Later s' := by
  intro other thread hthread
  by_cases hother : other = threadId
  · subst hother
    have hstamp := h.stamp
    have hempty := h.empty
    rw [LaunchStore.stamp, hthread, map_some, some.injEq] at hstamp
    rw [LaunchStore.runs, hthread] at hempty
    have hnone : thread.runs = [] := hempty
    refine ⟨[run], ?_⟩
    rw [h.threads.1, hstamp, hnone]
    rfl
  · exact ⟨[], (h.threads.2 other hother).trans hthread⟩

theorem FirstRun.histories (hist : s.Histories) :
    s'.Histories := by
  intro other thread hthread
  by_cases hother : other = threadId
  · subst hother
    rw [h.threads.1] at hthread
    rw [← some.inj hthread]
    exact History.first h.mark
  · rw [h.threads.2 other hother] at hthread
    exact hist other thread hthread

theorem FirstRun.runs_of_ne
    (hother : other ≠ threadId) : s'.runs other = s.runs other := by
  unfold LaunchStore.runs
  rw [h.threads.2 other hother]

theorem FirstRun.roots : s'.roots threadId = [run] := by
  rw [LaunchStore.roots, LaunchStore.runs, h.threads.1]
  exact filter_eq_self.mpr fun marked hmem => by
    rw [mem_singleton.mp hmem, h.mark]
    rfl

end

end Effects

section Answers

variable {ι : Type} {env : LaunchEnv} {s s' : LaunchStore ι} {i : ι} {l : LaunchSeat}
  {r : LaunchRequest}

theorem firstRun_of_created {marker : Option String} {f : String} {run : NativeRun}
    (hknows : l.Knows s i) (hempty : l.empty = true) (howns : l.Owns env f)
    (hmarker : marker = some f) (h : s.RunCreated l.threadId marker run s') :
    FirstRun s l.threadId f run s' where
  stamp := hknows.stamp howns.1
  empty := (hknows.empty hempty).2.2
  mark := by rw [h.1, hmarker, map_some]
  ran := h.2

variable [DecidableEq ι]

inductive Effect (env : LaunchEnv) (l : LaunchSeat) (i : ι) (s : LaunchStore ι) :
    LaunchRequest → LaunchStore ι → Prop
  | none {r : LaunchRequest} : Effect env l i s r s
  | locked (hfree : s.holder l.threadId = none) :
      Effect env l i s (.acquire l.threadId)
        { s with holder := Function.update s.holder l.threadId (some i) }
  | released : Effect env l i s (.release l.threadId) (s.released i l.threadId)
  | created (metadata : Dict Json) :
      Effect env l i s (.createThread (some l.threadId) metadata) (s.created l.threadId metadata)
  | ran {assistantId : String} {input configurable : Dict Json} {recursionLimit : Nat} {f : String}
      {run : NativeRun} {s' : LaunchStore ι} (hempty : l.empty = true) (howns : l.Owns env f)
      (hfirst : FirstRun s l.threadId f run s') :
      Effect env l i s
        (.createRun l.threadId assistantId input configurable recursionLimit (some f)) s'

variable {a : r.Answer} {j : ι}

theorem answers_effect (hknows : l.Knows s i) (hallowed : l.allowed env r)
    (h : s.Answers i r a s') : Effect env l i s r s' := by
  cases r
  case acquire scope =>
    rcases hallowed with ⟨rfl, _⟩
    cases a with
    | ok u =>
      rcases h with ⟨hfree, rfl⟩
      exact .locked hfree
    | error e =>
      cases h
      exact .none
  case release scope =>
    cases show scope = l.threadId from hallowed
    cases h
    exact .released
  case getThread threadId =>
    cases a with
    | ok thread =>
      cases h.1
      exact .none
    | error e =>
      cases h
      exact .none
  case createThread threadId metadata =>
    cases show threadId = some l.threadId from hallowed
    cases a with
    | ok thread =>
      cases h.1
      exact .created metadata
    | error e =>
      rcases h with rfl | rfl
      · exact .none
      · exact .created metadata
  case deleteThread threadId => exact hallowed.elim
  case listRuns threadId limit offset =>
    cases a with
    | ok page =>
      cases h.1
      exact .none
    | error e =>
      cases h
      exact .none
  case createRun threadId assistantId input configurable recursionLimit marker =>
    rcases hallowed with ⟨rfl, hempty, f, rfl, howns⟩
    cases a with
    | ok runId =>
      rcases h with ⟨run, _, hcreated⟩
      exact .ran hempty howns (firstRun_of_created hknows hempty howns rfl hcreated)
    | error e =>
      rcases h with rfl | ⟨run, hcreated⟩
      · exact .none
      · exact .ran hempty howns (firstRun_of_created hknows hempty howns rfl hcreated)
  all_goals
    cases h
    exact .none

theorem released_threads (s : LaunchStore ι) (i : ι) (scope : String) :
    (s.released i scope).threads = s.threads := by
  unfold LaunchStore.released
  split_ifs <;> rfl

theorem released_holder (s : LaunchStore ι) (i j : ι) (requested scope : String) :
    (s.released i requested).holder scope = some j ↔
      s.holder scope = some j ∧ (j = i → scope ≠ requested) := by
  unfold LaunchStore.released
  by_cases hmine : s.holder requested = some i
  · rw [if_pos hmine]
    by_cases hscope : scope = requested
    · subst hscope
      simp only [update_self, hmine, reduceCtorEq, some.injEq, false_iff, not_and]
      exact fun hij hne => hne hij.symm rfl
    · simp only [update_of_ne hscope]
      exact ⟨fun h => ⟨h, fun _ => hscope⟩, fun h => h.1⟩
  · rw [if_neg hmine]
    refine ⟨fun h => ⟨h, fun hij hscope => hmine ?_⟩, fun h => h.1⟩
    rw [← hscope, h, hij]

theorem Effect.later (h : Effect env l i s r s') : s.Later s' := by
  cases h with
  | none => exact .refl s
  | locked => exact fun _ _ hthread => ⟨[], hthread⟩
  | released => exact fun _ _ hthread => ⟨[], (congrFun (released_threads s i _) _).trans hthread⟩
  | created metadata => exact created_later _ metadata
  | ran hempty howns hfirst => exact hfirst.later

theorem Effect.histories (h : Effect env l i s r s') (hist : s.Histories) : s'.Histories := by
  cases h with
  | none => exact hist
  | locked => exact hist
  | released =>
    exact fun threadId thread hthread => hist threadId thread
      ((congrFun (released_threads s i _) _).symm.trans hthread)
  | created metadata => exact created_histories hist _ metadata
  | ran hempty howns hfirst => exact hfirst.histories hist

theorem Effect.runs (h : Effect env l i s r s') (threadId : String) :
    s'.runs threadId = s.runs threadId ∨
      threadId = l.threadId ∧ l.empty = true ∧
        ∃ f run, l.Owns env f ∧ FirstRun s l.threadId f run s' := by
  cases h with
  | none => exact Or.inl rfl
  | locked => exact Or.inl rfl
  | released => exact Or.inl (by rw [LaunchStore.runs, released_threads]; rfl)
  | created metadata => exact Or.inl (created_runs _ metadata _)
  | @ran _ _ _ _ f run _ hempty howns hfirst =>
    by_cases hid : threadId = l.threadId
    · exact Or.inr ⟨hid, hempty, f, run, howns, hfirst⟩
    · exact Or.inl (hfirst.runs_of_ne hid)

theorem Effect.holder (h : Effect env l i s r s') (hj : j ≠ i) (scope : String) :
    s'.holder scope = some j ↔ s.holder scope = some j := by
  cases h with
  | none => exact Iff.rfl
  | locked hfree =>
    by_cases hscope : scope = l.threadId
    · subst hscope
      simp only [update_self, hfree, some.injEq, hj.symm, reduceCtorEq]
    · simp only [update_of_ne hscope]
  | released =>
    rw [released_holder]
    exact ⟨fun h => h.1, fun h => ⟨h, fun hij => absurd hij hj⟩⟩
  | created metadata => rw [created_holder]
  | ran hempty howns hfirst => rw [hfirst.holder]

/-- What another caller knows is not touched: it does not hold the lock of a thread that
    a run is created on. -/
theorem knows_other {l' : LaunchSeat} (hj : j ≠ i) (hknows : l.Knows s i) (hother : l'.Knows s j)
    (hist : s.Histories) (h : Effect env l i s r s') : l'.Knows s' j := by
  refine hother.later (h.holder hj) h.later (h.histories hist) fun hnone => ?_
  rcases hother.empty hnone with ⟨hlocked, _, hruns⟩
  rcases h.runs l'.threadId with hsame | ⟨hid, hempty, _⟩
  · rw [hsame, hruns]
  · have hmine := (hknows.lock l.threadId).mpr ⟨(hknows.empty hempty).1, rfl⟩
    have htheirs := (hother.lock l'.threadId).mpr ⟨hlocked, rfl⟩
    rw [hid, hmine] at htheirs
    exact absurd (some.inj htheirs).symm hj

theorem answers_possible (hknows : l.Knows s i) (hist : s.Histories) (hallowed : l.allowed env r)
    (h : s.Answers i r a s') : l.possible r a := by
  cases r
  case listRuns threadId limit offset =>
    rintro page rfl
    cases show threadId = l.threadId from hallowed.1
    exact ⟨s.runs l.threadId, h.2, hknows.seen, fun stamp htold => hist.runs (hknows.told stamp htold)⟩
  all_goals exact trivial

end Answers

section Teaching

variable {ι : Type} {env : LaunchEnv} {s s' : LaunchStore ι} {i : ι} {l : LaunchSeat}

theorem knows_shown {thread : NativeThread} (hknows : l.Knows s i)
    (hshows : s.Shows l.threadId thread) : (l.shown env thread).Knows s i where
  lock := hknows.lock
  told := by
    intro stamp hstamp
    by_cases hid : thread.threadId = l.threadId
    · simp only [LaunchSeat.shown, hid, if_true, some.injEq] at hstamp
      rw [← hstamp]
      exact hshows hid
    · simp only [LaunchSeat.shown, hid, if_false] at hstamp
      exact hknows.told stamp hstamp
  seen := hknows.seen
  empty := by
    intro hempty
    rcases hknows.empty hempty with ⟨hlocked, hstamped, hruns⟩
    refine ⟨hlocked, ?_, hruns⟩
    rcases isSome_iff_exists.mp hstamped with ⟨f, hf⟩
    by_cases hid : thread.threadId = l.threadId
    · -- The runtime shows the stamp that was known.
      have hsame : some thread.fingerprint = some (some (.str f)) :=
        (hshows hid).symm.trans (hknows.stamp hf)
      simp only [LaunchSeat.stamped, LaunchSeat.shown, hid, if_true, some.inj hsame, isSome_some]
    · simp only [LaunchSeat.stamped, LaunchSeat.shown, hid, if_false]
      exact hstamped
  root := hknows.root

variable {limit offset : Nat} {run : NativeRun}

theorem markedRun_mem {runs : List NativeRun}
    (hmarked : markedRun (pageOf runs limit offset) = some run) : run ∈ rootsOf runs :=
  mem_filter.mpr
    ⟨mem_of_mem_drop (mem_of_mem_take (mem_of_find?_eq_some hmarked)),
      find?_some (p := fun run : NativeRun => run.rootMarker.isSome) hmarked⟩

theorem knows_listed (hlimit : 0 < limit) (hknows : l.Knows s i) (hist : s.Histories) :
    (l.listed offset (pageOf (s.runs l.threadId) limit offset)).Knows s i := by
  unfold LaunchSeat.listed
  cases hstamped : l.stamped.isSome with
  | false => exact hknows
  | true =>
    rcases isSome_iff_exists.mp hstamped with ⟨f, hf⟩
    have hhistory := hist.runs (hknows.stamp hf)
    cases hmarked : markedRun (pageOf (s.runs l.threadId) limit offset) with
    | some run =>
      refine { hknows with root := fun runId hid => ?_ }
      have hmem := markedRun_mem hmarked
      rcases hhistory.roots with hnone | ⟨root, _, hone, _, _⟩
      · rw [hnone] at hmem
        exact (not_mem_nil hmem).elim
      · rw [hone, mem_singleton] at hmem
        rw [hmem] at hid
        exact ⟨root, hone, some.inj hid⟩
    | none =>
      cases hempty : (pageOf (s.runs l.threadId) limit offset).isEmpty with
      | true =>
        refine { hknows with empty := fun h => ?_ }
        simp only [if_true, Bool.or_eq_true, Bool.and_eq_true, beq_iff_eq] at h
        rcases h with h | ⟨hlocked, rfl⟩
        · exact hknows.empty h
        · refine ⟨hlocked, hstamped, ?_⟩
          rw [List.isEmpty_iff, pageOf, drop_zero, take_eq_nil_iff] at hempty
          exact hempty.resolve_left (Nat.ne_of_gt hlimit)
      | false =>
        exact { hknows with
          seen := Nat.max_le.mpr ⟨hknows.seen, pageOf_unmarked hhistory hmarked hempty⟩ }

theorem knows_ran {f : String} {root : Option String} (hknows : l.Knows s i)
    (hfirst : FirstRun s l.threadId f run s') (hist : s.Histories)
    (hroot : ∀ runId, root = some runId → run.runId = runId) :
    ({ l with empty := false, root := root } : LaunchSeat).Knows s' i := by
  have hlater : ({ l with empty := false } : LaunchSeat).Knows s' i :=
    LaunchSeat.Knows.later { hknows with empty := fun h => nomatch h }
      (fun scope => by rw [hfirst.holder]) hfirst.later (hfirst.histories hist) fun h => nomatch h
  exact { hlater with root := fun runId h => ⟨run, hfirst.roots, hroot runId h⟩ }

theorem knows_created {metadata : Dict Json} (hknows : l.Knows s i) (hist : s.Histories) :
    l.Knows (s.created l.threadId metadata) i := by
  refine hknows.later (fun scope => by rw [created_holder]) (created_later _ _)
    (created_histories hist _ _) fun hempty => ?_
  rw [created_runs]
  exact (hknows.empty hempty).2.2

theorem knows_released [DecidableEq ι] (hknows : l.Knows s i) :
    ({ l with locked := false, empty := false } : LaunchSeat).Knows (s.released i l.threadId) i where
  lock scope := by
    refine ⟨fun h => ?_, fun h => nomatch h.1⟩
    rcases (released_holder s i i l.threadId scope).mp h with ⟨hheld, hne⟩
    exact absurd ((hknows.lock scope).mp hheld).2 (hne rfl)
  told stamp htold := by
    have hstamp := hknows.told stamp htold
    rwa [LaunchStore.stamp, released_threads]
  seen := by
    have hseen := hknows.seen
    rwa [LaunchStore.runs, released_threads]
  empty h := nomatch h
  root runId hroot := by
    have hknown := hknows.root runId hroot
    rwa [LaunchStore.roots, LaunchStore.runs, released_threads]

theorem knows_answered [DecidableEq ι] {r : LaunchRequest} {a : r.Answer} (hknows : l.Knows s i)
    (hist : s.Histories) (hallowed : l.allowed env r) (h : s.Answers i r a s') :
    (l.move env r a).Knows s' i := by
  cases r
  case acquire scope =>
    rcases hallowed with ⟨rfl, hunlocked⟩
    cases a with
    | error e =>
      cases h
      exact hknows
    | ok u =>
      rcases h with ⟨hfree, rfl⟩
      refine { hknows with lock := fun scope => ?_, empty := fun hempty => ?_ }
      · by_cases hscope : scope = l.threadId
        · subst hscope
          simp only [update_self, LaunchSeat.move, and_self]
        · simp only [update_of_ne hscope, LaunchSeat.move, true_and, hscope, iff_false]
          exact fun hmine => hscope ((hknows.lock scope).mp hmine).2
      · exact ⟨rfl, (hknows.empty hempty).2⟩
  case release scope =>
    cases show scope = l.threadId from hallowed
    cases h
    exact knows_released hknows
  case getThread threadId =>
    cases show threadId = l.threadId from hallowed
    cases a with
    | error e =>
      cases h
      exact hknows
    | ok thread =>
      rcases h with ⟨rfl, hshows⟩
      exact knows_shown hknows hshows
  case createThread threadId metadata =>
    cases show threadId = some l.threadId from hallowed
    cases a with
    | error e =>
      rcases h with rfl | rfl
      · exact hknows
      · exact knows_created hknows hist
    | ok thread =>
      rcases h with ⟨rfl, hshows⟩
      exact knows_shown (knows_created hknows hist) hshows
  case deleteThread threadId => exact hallowed.elim
  case listRuns threadId limit offset =>
    rcases hallowed with ⟨rfl, hlimit⟩
    cases a with
    | error e =>
      cases h
      exact hknows
    | ok page =>
      rcases h with ⟨rfl, rfl⟩
      exact knows_listed hlimit hknows hist
  case createRun threadId assistantId input configurable recursionLimit marker =>
    rcases hallowed with ⟨rfl, hempty, f, rfl, howns⟩
    cases a with
    | ok runId =>
      rcases h with ⟨run, hid, hcreated⟩
      have hfirst := firstRun_of_created hknows hempty howns rfl hcreated
      exact knows_ran hknows hfirst hist fun _ h => hid.trans (some.inj h)
    | error e =>
      rcases h with rfl | ⟨run, hcreated⟩
      · exact { hknows with empty := fun h => nomatch h }
      · have hfirst := firstRun_of_created hknows hempty howns rfl hcreated
        refine knows_ran hknows hfirst hist fun runId hroot => ?_
        -- A thread without runs has no marked run that could be known.
        rcases hknows.root runId hroot with ⟨known, hone, _⟩
        rw [LaunchStore.roots, (hknows.empty hempty).2.2] at hone
        exact nomatch hone
  all_goals
    cases h
    exact hknows

end Teaching

end Apex.Services
