import Apex.Theory.Tenancy.Surfaces

/-!
# Threads And Runs Of One Tenant

The requests that create threads and runs arrive in any order, from any identities. A
thread keeps the metadata it was created with; a run is admitted on a thread that its
filter lets through.

The filter of a run compares the project, and the app if the run has one. So a run of an
app is admitted on the threads of the app only, while a run of a project as a whole is
admitted on every thread of the project.

## Main definitions

* `Request`, `threadsAfter`: A sequence of requests, and the threads they leave.

## Theorems

* `onThreadsCreate_thread`: What is known of a thread.
* `tenantFilter_matches`: The threads a run is admitted on.
-/

namespace Apex.Auth.Handlers

open List Option
open Domain

/-- A thread, with who created it and what for. -/
structure StoredThread where
  creator : ConsumerIdentity
  requested : Dict Json
  metadata : Dict Json

inductive Request where
  | createThread (world : ThreadWorld) (identity : ConsumerIdentity) (trustedLoopback : Bool)
      (value : ThreadsCreate)
  | createRun (world : RunWorld) (identity : ConsumerIdentity) (trustedLoopback : Bool)
      (value : RunsCreate)

/-- What a request leaves. A run does not touch the metadata of the threads. -/
def serve (threads : List StoredThread) : Request → List StoredThread
  | .createThread world identity trusted value =>
    match onThreadsCreate world identity trusted value with
    | .ok (metadata, _) => threads ++ [⟨identity, value.metadata.getD ∅, metadata⟩]
    | .error _ => threads
  | .createRun _ _ _ _ => threads

def threadsAfter (requests : List Request) : List StoredThread := requests.foldl serve []

/-- What is known of a thread: whether it is for direct runs, and whose it is. -/
structure StoredThread.Sound (thread : StoredThread) : Prop where
  marker : thread.metadata.get? directRunsAllowedMetadataKey =
    some (.bool !(ofLaunch thread.requested))
  tenant : (∃ tenant, tenantOf thread.metadata = tenantJson (some tenant) ∧
      covers thread.creator tenant = true) ∨
    (thread.creator.isUnscoped = true ∧ thread.metadata.value "project_id" = .null)

theorem get?_serverMetadata (identity : ConsumerIdentity) (metadata : Dict Json) :
    (serverMetadata identity metadata).get? directRunsAllowedMetadataKey =
      some (.bool !(ofLaunch metadata)) := by
  rw [serverMetadata, Dict.get?_set_ne _ _ (by decide), Dict.get?_set_self]

variable {metadata : Dict Json} {trusted : Bool} {tenant : ScopeRef}

variable {metadata' : Dict Json} {identity : ConsumerIdentity} {world : ThreadWorld}
  {threads : List StoredThread} {requests : List Request} {thread : StoredThread}

theorem pinField_marker {field expected : String} (hfield : directRunsAllowedMetadataKey ≠ field)
    (h : pinField metadata field expected = .ok metadata') :
    metadata'.get? directRunsAllowedMetadataKey = metadata.get? directRunsAllowedMetadataKey := by
  rcases bind_ok.mp h with ⟨_, _, h⟩
  cases h
  rw [Dict.get?_set_ne _ _ hfield]

theorem admitTopology_marker {threadId : Json} {bound : Option (String × TestScopeV1)}
    (h : admitTopology world identity threadId metadata = .ok (metadata', bound)) :
    metadata'.get? directRunsAllowedMetadataKey = metadata.get? directRunsAllowedMetadataKey := by
  simp only [admitTopology] at h
  split at h
  · rcases bind_ok.mp h with ⟨_, _, h⟩
    rcases bind_ok.mp h with ⟨_, _, h⟩
    rcases bind_ok.mp h with ⟨_, _, h⟩
    rcases bind_ok.mp h with ⟨_, hproject, h⟩
    rcases bind_ok.mp h with ⟨_, happ, h⟩
    have hmarker := (pinField_marker (by decide) happ).trans (pinField_marker (by decide) hproject)
    cases threadId with
    | str thread =>
      rcases bind_ok.mp h with ⟨_, _, h⟩
      cases h
      exact hmarker
    | null => cases h
    | bool b => cases h
    | int n => cases h
    | float x => cases h
    | list xs => cases h
    | dict items => cases h
  · cases h
    rfl

theorem onThreadsCreate_thread {value : ThreadsCreate} {result : HandlerResult}
    (h : onThreadsCreate world identity trusted value = .ok (metadata, result)) :
    StoredThread.Sound ⟨identity, value.metadata.getD ∅, metadata⟩ := by
  rcases bind_ok.mp h with ⟨_, _, h⟩
  rcases bind_ok.mp h with ⟨_, _, h⟩
  rcases bind_ok.mp h with ⟨_, _, h⟩
  rcases bind_ok.mp h with ⟨⟨admitted, bound⟩, hadmitted, h⟩
  rcases bind_ok.mp h with ⟨_, hscoped, h⟩
  rcases bind_ok.mp h with ⟨_, _, h⟩
  rcases bind_ok.mp h with ⟨_, _, h⟩
  cases h
  have hmarker := (admitTopology_marker hadmitted).trans
    (get?_serverMetadata identity (value.metadata.getD ∅))
  rcases ensureThreadScope_tenant hscoped with
    ⟨hunscoped, rfl, ⟨project, hproject⟩, app, happ⟩ | ⟨tenant, rfl, hcovers⟩
  · refine ⟨hmarker, ?_⟩
    rcases projectId_ok hproject with ⟨hnull, _⟩ | ⟨pid, hp, _⟩
    · exact .inr ⟨hunscoped, hnull⟩
    · rcases projectId_ok happ with ⟨hnull, _⟩ | ⟨aid, ha, _⟩
      · refine .inl ⟨⟨pid, none⟩, ?_, covers_iff.mpr (.inl hunscoped)⟩
        rw [tenantOf, hp, hnull]
        rfl
      · refine .inl ⟨⟨pid, some aid⟩, ?_, covers_iff.mpr (.inl hunscoped)⟩
        rw [tenantOf, hp, ha]
        rfl
  · refine ⟨(get?_stamp (by decide) (by decide) _ _ _).trans hmarker, .inl ⟨tenant, ?_, hcovers⟩⟩
    exact tenantOf_stamp _ _ _

theorem serve_sound (h : ∀ thread ∈ threads, thread.Sound)
    (request : Request) : ∀ thread ∈ serve threads request, thread.Sound := by
  cases request with
  | createRun world identity trusted value => exact h
  | createThread world identity trusted value =>
    simp only [serve]
    split
    · rename_i metadata result hcreated
      intro thread hthread
      rcases mem_append.mp hthread with hold | hnew
      · exact h thread hold
      · rw [mem_singleton.mp hnew]
        exact onThreadsCreate_thread hcreated
    · exact h

theorem foldl_sound (h : ∀ thread ∈ threads, thread.Sound) :
    ∀ thread ∈ requests.foldl serve threads, thread.Sound := by
  induction requests generalizing threads with
  | nil => exact h
  | cons request requests ih => exact ih (serve_sound h request)

theorem threadsAfter_sound (h : thread ∈ threadsAfter requests) : thread.Sound :=
  foldl_sound (fun _ hnil => absurd hnil not_mem_nil) thread h

theorem tenantCondition_holds :
    conditionHolds (tenantCondition tenant) metadata = true ↔
      metadata.value "project_id" = .str tenant.projectId.value ∧
        ∀ a, tenant.appId = some a → metadata.value "app_id" = .str a.value := by
  rw [tenantCondition, metadataFilter_holds]
  refine and_congr_right fun _ => ⟨fun h a ha => h a.value (by rw [ha, map_some]), ?_⟩
  intro h a ha
  rcases map_eq_some_iff.mp ha with ⟨aid, haid, rfl⟩
  exact h aid haid

theorem get?_tenantCondition (tenant : ScopeRef) {key : String} (hproject : key ≠ "project_id")
    (happ : key ≠ "app_id") : (tenantCondition tenant).get? key = none := by
  rcases tenant with ⟨project, _ | app⟩
  · exact (Dict.get?_single _ _ _).trans (if_neg hproject)
  · refine (Dict.get?_set _ _ _ _).trans ((if_neg happ).trans ?_)
    exact (Dict.get?_single _ _ _).trans (if_neg hproject)

theorem tenantFilter_holds :
    (tenantFilter trusted (some tenant)).matches metadata = true ↔
      conditionHolds (tenantCondition tenant) metadata = true ∧
        (trusted = false → metadata.get? directRunsAllowedMetadataKey = some (.bool true)) := by
  cases trusted with
  | true =>
    simp only [tenantFilter, HandlerResult.matches, Filter.matches, all_none,
      Bool.and_true, if_true, Bool.true_eq_false, false_implies, and_true]
  | false =>
    simp only [tenantFilter, requireDirectRunsAllowed, HandlerResult.matches, Filter.matches,
      all_none, Bool.and_true, Bool.false_eq_true, if_false, true_implies]
    exact conditionHolds_set (get?_tenantCondition tenant (by decide) (by decide))

theorem tenantFilter_matches (hthread : thread.Sound) :
    (tenantFilter trusted (some tenant)).matches thread.metadata = true ↔
      ∃ owner : ScopeRef, tenantOf thread.metadata = tenantJson (some owner) ∧
        owner.projectId = tenant.projectId ∧
        (tenant.appId.isSome = true → owner.appId = tenant.appId) ∧
        (trusted = false → ofLaunch thread.requested = false) := by
  have hmarker : thread.metadata.get? directRunsAllowedMetadataKey = some (.bool true) ↔
      ofLaunch thread.requested = false := by
    rw [hthread.marker, some_inj, Json.bool.injEq, Bool.not_eq_true']
  rw [tenantFilter_holds, tenantCondition_holds, hmarker]
  constructor
  · rintro ⟨⟨hproject, happ⟩, hdirect⟩
    rcases hthread.tenant with ⟨owner, howner, _⟩ | ⟨_, hnull⟩
    · have hp : owner.projectId = tenant.projectId :=
        ScopeId.value_injective (Json.str.inj ((congrArg Prod.fst howner).symm.trans hproject))
      refine ⟨owner, howner, hp, fun hsome => ?_, hdirect⟩
      rcases isSome_iff_exists.mp hsome with ⟨a, ha⟩
      have hvalue := (congrArg Prod.snd howner).symm.trans (happ a ha)
      rcases owner with ⟨project, _ | own⟩
      · exact Json.noConfusion hvalue
      · rw [ha, ScopeId.value_injective (Json.str.inj hvalue)]
    · exact Json.noConfusion (hnull.symm.trans hproject)
  · rintro ⟨owner, howner, hp, ha, hdirect⟩
    refine ⟨⟨?_, fun a happ => ?_⟩, hdirect⟩
    · rw [← hp]
      exact congrArg Prod.fst howner
    · have hown := (ha (by rw [happ, isSome_some])).trans happ
      refine (congrArg Prod.snd howner).trans ?_
      simp only [tenantJson, hown]
      rfl

/-- **Stamps and filters agree.** A thread has a tenant that its creator covers, unless a platform
    administrator gave it no project; its creator may read it, and whoever covers its tenant. An
    admitted run carries one covered tenant on all of its surfaces, unless a platform administrator
    gave it none. It is admitted on exactly the threads of its project, of its app if it has one,
    and for a direct run only on those that are not of a launch. -/
theorem tenants_agree (requests : List Request) :
    (∀ thread ∈ threadsAfter requests, (scopeFilter thread.creator).matches thread.metadata = true ∧
      ((∃ tenant, tenantOf thread.metadata = tenantJson (some tenant) ∧
          covers thread.creator tenant = true) ∨
        (thread.creator.isUnscoped = true ∧ thread.metadata.value "project_id" = .null)) ∧
      ∀ (reader : ConsumerIdentity) (tenant : ScopeRef),
        tenantOf thread.metadata = tenantJson (some tenant) →
        ((scopeFilter reader).matches thread.metadata = true ↔ reader.isUnscoped = true ∨
          (∃ scope ∈ reader.scopes, scope.projectId = tenant.projectId ∧ scope.appId = none) ∨
          (tenant.appId.isSome = true ∧ tenant ∈ reader.scopes))) ∧
    ∀ (world : RunWorld) (identity : ConsumerIdentity) (trusted : Bool) (value run : RunsCreate)
      (result : HandlerResult),
      onThreadsCreateRun world identity trusted value = .ok (run, result) →
      ∃ tenant : Option ScopeRef, (∀ surface ∈ run.surfaces, tenantOf surface = tenantJson tenant) ∧
        (∀ t, tenant = some t → covers identity t = true) ∧
        (tenant = none → identity.isUnscoped = true) ∧
        ∀ t, tenant = some t → ∀ thread ∈ threadsAfter requests,
          (result.matches thread.metadata = true ↔
            ∃ owner : ScopeRef, tenantOf thread.metadata = tenantJson (some owner) ∧
              owner.projectId = t.projectId ∧
              (t.appId.isSome = true → owner.appId = t.appId) ∧
              (trusted = false → ofLaunch thread.requested = false)) := by
  constructor
  · intro thread hthread
    have hsound := threadsAfter_sound hthread
    refine ⟨?_, hsound.tenant, fun reader tenant htenant =>
      (scopeFilter_matches htenant).trans covers_iff⟩
    rcases hsound.tenant with ⟨tenant, htenant, hcovers⟩ | ⟨hunscoped, _⟩
    · exact (scopeFilter_matches htenant).mpr hcovers
    · rw [scopeFilter, if_pos hunscoped]
      rfl
  · intro world identity trusted value run result hrun
    rcases onThreadsCreateRun_tenant hrun with ⟨tenant, hcarries, rfl, hcovers, hnone⟩
    refine ⟨tenant, hcarries, hcovers, hnone, ?_⟩
    rintro t rfl thread hthread
    exact tenantFilter_matches (threadsAfter_sound hthread)

def sampleProject : ScopeId := ⟨"p", by decide, by decide, by decide, by decide⟩

def sampleApp : ScopeId := ⟨"x", by decide, by decide, by decide, by decide⟩

def sampleOperator (scope : ScopeRef) : ConsumerIdentity where
  consumerId := "c"
  name := "c"
  consumerType := .headless
  role := .operator
  scopes := [scope]

/-- Surroundings of a thread in which nothing is refused. -/
def sampleThreadWorld : ThreadWorld where
  checkMetadata := fun _ => .ok ()
  validateAdmission := fun _ => .ok ()
  application := fun _ => some ⟨false, ["p"]⟩
  contexts := fun _ _ => .ok ∅
  persistTestScope := fun _ _ => .ok ()

/-- Surroundings of a run in which nothing is refused. -/
def sampleRunWorld : RunWorld where
  schema := ⟨fun _ v => some v, fun _ => true, fun _ => true⟩
  digest := fun _ => ""
  checkPersisted := fun _ => .ok ()
  checkRuntime := fun _ => .ok ()
  checkInput := fun _ _ => .ok ()
  checkCommand := fun _ => .ok ()
  nativeDefaults := fun _ _ => .ok ("context", ∅, ∅)
  application := fun _ => some ⟨false, ["p"]⟩
  contexts := fun _ _ => .ok ∅
  binding := fun _ => none
  participants := fun _ => []
  environmentContext := fun _ _ _ => .error .notFound
  environmentTarget := fun _ _ _ => .error .notFound
  analysisReady := fun _ => .ok ()
  admitModels := fun _ _ _ _ _ => .ok (.dict [])
  aifxSnapshot := fun _ => .ok none
  promptManifest := fun _ _ => .ok .null
  checkSize := fun _ => .ok ()

/-- A run of the context graph that says nothing about its tenant. -/
def sampleRun : RunsCreate where
  threadId := .str "t"
  assistantId := .str "context"
  payload := ∅
  metadata := ∅
  arguments := ∅
  input := some (.single "subject" (.str "s"))
  configurable := ∅
  configMetadata := ∅
  context := none

def sampleRequests : List Request :=
  [.createThread sampleThreadWorld (sampleOperator ⟨sampleProject, some sampleApp⟩) false
    ⟨.str "t", none⟩]

/-- Whether a handler returned, with something that passes a test. -/
def passes {α : Type} (test : α → Bool) : Handler α → Bool
  | .ok a => test a
  | .error _ => false

theorem passes_elim {α : Type} {test : α → Bool} {x : Handler α} (h : passes test x = true) :
    ∃ a, x = .ok a ∧ test a = true := by
  cases x with
  | ok a => exact ⟨a, rfl, h⟩
  | error e => exact Bool.noConfusion h

/-- The operator may read the thread that it creates. -/
theorem tenants_agree_created : ∃ thread ∈ threadsAfter sampleRequests,
    (scopeFilter thread.creator).matches thread.metadata = true := by
  have hcreated : (threadsAfter sampleRequests).length = 1 := by decide +kernel
  rcases length_eq_one_iff.mp hcreated with ⟨thread, hthread⟩
  have hmem : thread ∈ threadsAfter sampleRequests := by
    rw [hthread]
    exact mem_cons_self
  exact ⟨thread, hmem, ((tenants_agree sampleRequests).1 thread hmem).1⟩

/-- Whether a run carries a tenant and is admitted on a thread with another one. -/
def strays (tenant : ScopeRef) (admitted : RunsCreate × HandlerResult) (thread : StoredThread) :
    Bool :=
  admitted.1.surfaces.all (fun surface => tenantOf surface == tenantJson (some tenant))
    && admitted.2.matches thread.metadata
    && tenantOf thread.metadata != tenantJson (some tenant)

/-- A run of a whole project is admitted on a thread of an app of the project. -/
theorem project_run_strays :
    ¬ ∀ (requests : List Request) (thread : StoredThread), thread ∈ threadsAfter requests →
      ∀ (world : RunWorld) (identity : ConsumerIdentity) (trusted : Bool) (value run : RunsCreate)
        (result : HandlerResult) (tenant : ScopeRef),
        onThreadsCreateRun world identity trusted value = .ok (run, result) →
        (∀ surface ∈ run.surfaces, tenantOf surface = tenantJson (some tenant)) →
        result.matches thread.metadata = true →
        tenantOf thread.metadata = tenantJson (some tenant) := by
  intro hall
  have hstrays : (threadsAfter sampleRequests).any (fun thread =>
      passes (strays ⟨sampleProject, none⟩ · thread)
        (onThreadsCreateRun sampleRunWorld (sampleOperator ⟨sampleProject, none⟩) false
          sampleRun)) = true := by decide +kernel
  rcases List.any_eq_true.mp hstrays with ⟨thread, hthread, hpasses⟩
  rcases passes_elim hpasses with ⟨⟨run, result⟩, hrun, hstray⟩
  simp only [strays, Bool.and_eq_true, List.all_eq_true, beq_iff_eq, bne_iff_ne] at hstray
  exact hstray.2 (hall _ thread hthread _ _ _ _ run result _ hrun hstray.1.1 hstray.1.2)

end Apex.Auth.Handlers
