import Apex.Services.EngineRuns

/-!
# The Projection Only Moves Forward

Writers of the engine-run table are replayed, race each other and arrive late.
Whatever they do, in any order, a stored row only advances: its status never
moves down, its first terminal form is final, its engine and a known owner
never change, and a writer of an earlier stage leaves the handle of a later
stage alone.

A call is first reduced to what it does to the table: nothing, one upsert, or
one insertion followed by a row lock that at most binds the ownership of a
quarantined row. The run lemma then composes the steps, since `Advances` is
reflexive and transitive.

## Main definitions

* `EngineRunPhase.stage`: The order of the statuses.
* `Advances`: How a stored row may change.

## Theorems

* `recordEngineRun_table`, `prepareEngineProvision_table`: What a call does to
  the table.
* `advances_upsert`: An allowed upsert advances the row.
* `calls_advance`: A run of calls advances the row.
* `engine_runs_monotone`: The projection is monotone.
-/

namespace Apex.Services

open Option Function
open Domain
open EngineRunValues (transitionAllowed keepsStored caseColumn updatedRow normalizeScopeProvenance)

/-- The place of a status in the life of a run. The terminal ones share the
    last. -/
def EngineRunPhase.stage (status : EngineRunPhase) : Nat := status.nonterminalOrder.getD 5

structure Advances (row row' : EngineRun) : Prop where
  stage : row.status.stage ≤ row'.status.stage
  terminal : row.status.isTerminal = true → row' = row
  engine : row'.engine = row.engine
  project : ∀ p, row.projectId = some p → row'.projectId = some p
  app : ∀ a, row.appId = some a → row'.appId = some a
  owned : row.ownershipKnown = true → row'.ownershipKnown = true
  scope : row.scopeOwnershipKnown = true →
    row'.scopeOwnershipKnown = true ∧ row'.projectId = row.projectId ∧ row'.appId = row.appId

theorem Advances.refl (row : EngineRun) : Advances row row :=
  ⟨Nat.le_refl _, fun _ => rfl, rfl, fun _ h => h, fun _ h => h, id, fun h => ⟨h, rfl, rfl⟩⟩

theorem Advances.trans {r1 r2 r3 : EngineRun} (h12 : Advances r1 r2) (h23 : Advances r2 r3) :
    Advances r1 r3 where
  stage := Nat.le_trans h12.stage h23.stage
  terminal h := by
    have h2 := h12.terminal h
    rw [← h2] at h
    rw [h23.terminal h, h2]
  engine := h23.engine.trans h12.engine
  project p h := h23.project p (h12.project p h)
  app a h := h23.app a (h12.app a h)
  owned h := h23.owned (h12.owned h)
  scope h := by
    rcases h12.scope h with ⟨h2, hp, ha⟩
    rcases h23.scope h2 with ⟨h3, hp', ha'⟩
    exact ⟨h3, hp'.trans hp, ha'.trans ha⟩

variable {row bound : EngineRun} {values : EngineRunValues} {known : Bool} {handle : Dict Json}
  {ids : NormalizedIds} {summary : Option (Dict Json)} {env : ProjectionEnv} {s : Surroundings}
  {operation : String} {a : ReservationArgs} {runs : EngineRuns} {key : RunKey}

theorem stage_le_of_not_kept (hallowed : values.transitionAllowed row = true)
    (hkeep : values.keepsStored row = false) :
    row.status.stage ≤ values.status.stage ∧ row.status.isTerminal = false := by
  simp only [transitionAllowed, Bool.and_eq_true] at hallowed
  have htransition := hallowed.1.1.1
  unfold keepsStored at hkeep
  revert htransition hkeep
  cases values.status <;> cases row.status <;> decide

theorem updatedRow_kept (hkeep : values.keepsStored row = true) : values.updatedRow row = row := by
  have hcase : ∀ {α : Type} (stored : α) (o : Option α),
      caseColumn true stored o = stored := by
    intro α stored o
    cases o <;> rfl
  unfold updatedRow
  simp only [hkeep, hcase, ite_self]

theorem owner_unchanged {stored named : Option String}
    (h : (stored == named || (!known && stored.isNone)) = true) (x : String)
    (hstored : stored = some x) : named = some x := by
  rw [Bool.or_eq_true, Bool.and_eq_true, beq_iff_eq] at h
  rcases h with heq | ⟨_, hnone⟩
  · rw [← heq, hstored]
  · rw [hstored] at hnone
    simp only [isNone_some, Bool.false_eq_true] at hnone

theorem advances_upsert (hown : values.scopeOwnershipKnown = true → values.ownershipKnown = true)
    (hallowed : values.transitionAllowed row = true) : Advances row (values.updatedRow row) := by
  cases hkeep : values.keepsStored row with
  | true =>
    rw [updatedRow_kept hkeep]
    exact Advances.refl row
  | false =>
    rcases stage_le_of_not_kept hallowed hkeep with ⟨hstage, hopen⟩
    simp only [transitionAllowed, Bool.and_eq_true, beq_iff_eq] at hallowed
    rcases hallowed with ⟨⟨⟨_, hengine⟩, hproject⟩, happ⟩
    have hstatus : (values.updatedRow row).status = values.status := by
      simp only [updatedRow, caseColumn, hkeep,
        Bool.false_eq_true, if_false]
    have hengine' : (values.updatedRow row).engine = values.engine := by
      simp only [updatedRow, caseColumn, hkeep,
        Bool.false_eq_true, if_false]
    -- The four ownership columns are written by an authoritative statement only.
    cases hscope : values.scopeOwnershipKnown with
    | false =>
      have hcols : (values.updatedRow row).projectId = row.projectId ∧
          (values.updatedRow row).appId = row.appId ∧
          (values.updatedRow row).ownershipKnown = row.ownershipKnown ∧
          (values.updatedRow row).scopeOwnershipKnown = row.scopeOwnershipKnown := by
        simp only [updatedRow, hscope, Bool.false_eq_true, if_false, and_self]
      rcases hcols with ⟨hp, ha, ho, hs⟩
      refine ⟨?_, ?_, ?_, ?_, ?_, ?_, ?_⟩
      · rw [hstatus]
        exact hstage
      · rw [hopen]
        exact fun h => absurd h Bool.false_ne_true
      · rw [hengine', hengine]
      · rw [hp]
        exact fun _ h => h
      · rw [ha]
        exact fun _ h => h
      · rw [ho]
        exact id
      · rw [hs, hp, ha]
        exact fun h => ⟨h, rfl, rfl⟩
    | true =>
      have hcols : (values.updatedRow row).projectId = values.projectId ∧
          (values.updatedRow row).appId = values.appId ∧
          (values.updatedRow row).ownershipKnown = values.ownershipKnown ∧
          (values.updatedRow row).scopeOwnershipKnown = true := by
        simp only [updatedRow, caseColumn, hscope, hkeep,
          Bool.false_eq_true, if_true, if_false, and_self]
      rcases hcols with ⟨hp, ha, ho, hs⟩
      refine ⟨?_, ?_, ?_, ?_, ?_, ?_, ?_⟩
      · rw [hstatus]
        exact hstage
      · rw [hopen]
        exact fun h => absurd h Bool.false_ne_true
      · rw [hengine', hengine]
      · rw [hp]
        exact owner_unchanged hproject
      · rw [ha]
        exact owner_unchanged happ
      · rw [ho]
        exact fun _ => hown hscope
      · intro hknown
        rw [hknown] at hproject happ
        simp only [Bool.not_true, Bool.false_and, Bool.or_false, beq_iff_eq] at hproject happ
        exact ⟨hs, hp.trans hproject.symm, ha.trans happ.symm⟩

/-- A session either raises and leaves the table alone, or commits what its body
    wrote, and then returns the body's result if it returns at all. -/
theorem session_cases {α : Type} (env : ProjectionEnv) (s : Surroundings) (operation : String)
    (runs : EngineRuns) (body : Except ProjectionFailure (α × EngineRuns)) :
    ((session env s operation runs body).2 = runs ∧
      ∃ failure, (session env s operation runs body).1 = .error failure) ∨
    ∃ result, body = .ok (result, (session env s operation runs body).2) ∧
      ∀ answer, (session env s operation runs body).1 = .ok answer → answer = result := by
  unfold session
  rcases hfault : s.fault with _ | _ | _ <;> rcases hbody : body with failure | ⟨result, after⟩
  · exact Or.inl ⟨rfl, _, rfl⟩
  · exact Or.inr ⟨result, rfl, fun answer h => (Except.ok.inj h).symm⟩
  · exact Or.inl ⟨rfl, _, rfl⟩
  · exact Or.inl ⟨rfl, _, rfl⟩
  · exact Or.inl ⟨rfl, _, rfl⟩
  · exact Or.inr ⟨result, rfl, fun answer h => by simp only [reduceCtorEq] at h⟩

theorem session_table {α : Type} (env : ProjectionEnv) (s : Surroundings) (operation : String)
    (runs : EngineRuns) (body : Except ProjectionFailure (α × EngineRuns)) :
    (session env s operation runs body).2 = runs ∨
      ∃ result, body = .ok (result, (session env s operation runs body).2) := by
  rcases session_cases env s operation runs body with ⟨hsame, _⟩ | ⟨result, hbody, _⟩
  · exact Or.inl hsame
  · exact Or.inr ⟨result, hbody⟩

theorem recordValues_ok {a : RecordArgs}
    (h : recordValues env s a handle summary ids known = .ok values) :
    values.key = (a.threadId, a.attempt) ∧ values.status = a.status ∧
      values.ownershipKnown = values.scopeOwnershipKnown ∧ values.handle = handle := by
  unfold recordValues at h
  simp only [bind_ok, pure_ok] at h
  rcases h with ⟨_, _, rfl⟩
  exact ⟨rfl, rfl, rfl, rfl⟩

theorem validateEngineRunProjectionInput_ok {newId : FreshId} {a : ProjectionInput}
    (h : validateEngineRunProjectionInput env newId a = .ok (handle, summary)) :
    validatedProjectionHandle env newId a.handle a.engine (a.status == .failed) = .ok handle := by
  unfold validateEngineRunProjectionInput at h
  simp only [bind_ok, raiseIf_ok, pure_ok, exists_const, Prod.mk.injEq] at h
  rcases h with ⟨_, _, _, _, _, _, _, _, _, _, _, _, _, _, _, _, _, _, hhandle, _, _, _, _, rfl, _⟩
  exact hhandle

theorem recordPrelude_handle {a : RecordArgs}
    (h : recordPrelude env s a = .ok (some (handle, summary, ids, known))) :
    validatedProjectionHandle env s.newId a.handle a.engine (a.status == .failed) = .ok handle := by
  unfold recordPrelude at h
  simp only [bind_ok] at h
  rcases h with ⟨⟨handle', summary'⟩, hinput, h⟩
  have hvalid := validateEngineRunProjectionInput_ok hinput
  generalize normalizeDevelopmentConnectionIds handle' a.connectionId a.connectionVersion
    a.artifactConnectionId s.isLockedDown = normalized at h
  cases hskip : normalized.skipProjection with
  | true => simp only [hskip, if_true, pure_ok, reduceCtorEq] at h
  | false =>
    simp only [hskip, Bool.false_eq_true, if_false, bind_ok, raiseIf_ok, pure_ok, exists_const,
      some.injEq, Prod.mk.injEq] at h
    rcases h with ⟨_, _, _, _, _, rfl, _⟩
    exact hvalid

theorem recordEngineRun_table (env : ProjectionEnv) (s : Surroundings) (runs : EngineRuns)
    (a : RecordArgs) :
    (recordEngineRun env s runs a).2 = runs ∨
      ∃ values : EngineRunValues, values.key = (a.threadId, a.attempt) ∧
        values.status = a.status ∧ values.ownershipKnown = values.scopeOwnershipKnown ∧
        validatedProjectionHandle env s.newId a.handle a.engine (a.status == .failed)
          = .ok values.handle ∧
        (recordEngineRun env s runs a).2 = (upsert env runs values).2 := by
  have houtcome : (recordEngineRun env s runs a).2 = (recordOutcome env s runs a).2 := by
    unfold recordEngineRun
    cases a.required <;> rfl
  rw [houtcome]
  unfold recordOutcome
  rcases hprelude : recordPrelude env s a with failure | _ | ⟨handle, summary, ids, known⟩
  · exact Or.inl rfl
  · exact Or.inl rfl
  · rcases session_table env s "record" runs
      (recordSession env s runs a handle summary ids known) with hsame | ⟨result, hbody⟩
    · exact Or.inl hsame
    · right
      unfold recordSession at hbody
      simp only [bind_ok, raiseIf_ok, pure_ok, exists_const, Prod.mk.injEq] at hbody
      rcases hbody with ⟨_, _, values, hvalues, _, _, hafter⟩
      rcases recordValues_ok hvalues with ⟨hkey, hstatus, hown, hhandle⟩
      refine ⟨values, hkey, hstatus, hown, ?_, hafter.symm⟩
      rw [hhandle]
      exact recordPrelude_handle hprelude

/-- How a row lock may change a row: it binds the ownership of a quarantined one. -/
structure Binds (row bound : EngineRun) : Prop where
  advances : Advances row bound
  status : bound.status = row.status
  handle : bound.handle = row.handle
  nonterminal : row.status.isTerminal = false

theorem bindLockedRunOwnership_ok {projectId appId : Option String}
    (h : bindLockedRunOwnership env row projectId appId operation = .ok bound) :
    (row.projectId = projectId ∨ row.scopeOwnershipKnown = false ∧ row.projectId = none) ∧
      (row.appId = appId ∨ row.scopeOwnershipKnown = false ∧ row.appId = none) ∧
      bound = { row with
        projectId := projectId, appId := appId, scopeOwnershipKnown := true
        ownershipKnown := row.ownershipKnown || !row.scopeOwnershipKnown } := by
  unfold bindLockedRunOwnership at h
  simp only [bind_ok, raiseIf_ok, exists_const, Bool.and_eq_false_iff, bne_eq_false_iff_eq,
    Bool.not_eq_false', Bool.and_eq_true, Bool.not_eq_true', isNone_iff_eq_none] at h
  rcases h with ⟨_, _, hproject, happ, _, hbound⟩
  refine ⟨?_, ?_, ?_⟩
  · rcases hproject with heq | ⟨hquarantined, _⟩
    · exact Or.inl heq
    · exact Or.inr hquarantined
  · rcases happ with heq | ⟨hquarantined, _⟩
    · exact Or.inl heq
    · exact Or.inr hquarantined
  · cases hscope : row.scopeOwnershipKnown with
    | false =>
      rw [hscope, if_neg Bool.false_ne_true, pure_ok] at hbound
      rw [← hbound, Bool.not_false, Bool.or_true]
    | true =>
      rw [hscope, if_pos rfl, pure_ok] at hbound
      rw [← hbound, Bool.not_true, Bool.or_false]

theorem verifyLockedRow_ok {rowHandle : Dict Json}
    (h : verifyLockedRow env s a handle ids row operation = .ok (bound, rowHandle)) :
    row.engine = a.engine ∧
      bindLockedRunOwnership env row a.projectId a.appId operation = .ok bound ∧
      verifyReservationConnectionGeneration bound ids.connectionId ids.connectionVersion operation
        = .ok () ∧
      lockedHandle env s bound a.engine operation = .ok rowHandle ∧
      verifyReservationHandleIdentity rowHandle a.engine (handleText handle "idempotency_key")
        ids.connectionId operation = .ok () ∧
      bound.status.isTerminal = false := by
  unfold verifyLockedRow at h
  simp only [bind_ok, raiseIf_ok, pure_ok, exists_const, bne_eq_false_iff_eq, Prod.mk.injEq] at h
  rcases h with ⟨hengine, _, hbind, _, hgeneration, _, _, hhandle, _, hidentity, hopen, rfl, rfl⟩
  exact ⟨hengine, hbind, hgeneration, hhandle, hidentity, hopen⟩

theorem binds_of_verifyLockedRow {rowHandle : Dict Json}
    (h : verifyLockedRow env s a handle ids row operation = .ok (bound, rowHandle)) :
    Binds row bound := by
  rcases verifyLockedRow_ok h with ⟨_, hbind, _, _, _, hopen⟩
  rcases bindLockedRunOwnership_ok hbind with ⟨hproject, happ, rfl⟩
  have hkept : ∀ {stored named : Option String},
      (stored = named ∨ row.scopeOwnershipKnown = false ∧ stored = none) →
      ∀ x, stored = some x → named = some x := by
    rintro stored named (rfl | ⟨_, rfl⟩) x hx
    · exact hx
    · simp only [reduceCtorEq] at hx
  refine ⟨⟨Nat.le_refl _, fun hterm => ?_, rfl, hkept hproject, hkept happ, fun hown => ?_,
    fun hscope => ⟨rfl, ?_, ?_⟩⟩, rfl, rfl, hopen⟩
  · exact absurd (hterm.symm.trans hopen) (by decide)
  · simp only [hown, Bool.true_or]
  · rcases hproject with heq | ⟨hquarantined, _⟩
    · exact heq.symm
    · exact absurd (hscope.symm.trans hquarantined) (by decide)
  · rcases happ with heq | ⟨hquarantined, _⟩
    · exact heq.symm
    · exact absurd (hscope.symm.trans hquarantined) (by decide)

/-- The row under a reservation's lock, before its checks: the stored one, or the
    one a provision just inserted. -/
theorem provisionSession_table {after : EngineRuns} {recovered : Option (Dict Json)}
    (h : provisionSession env s runs a handle ids = .ok (recovered, after)) :
    ∃ row bound rowHandle, insertReservation env runs (provisionValues a handle ids) a.key = some row ∧
      verifyLockedRow env s a handle ids row "provision" = .ok (bound, rowHandle) ∧
      provisionDecision bound rowHandle = .ok recovered ∧
      after = Function.update (insertReservation env runs (provisionValues a handle ids)) a.key
        (some bound) := by
  unfold provisionSession at h
  simp only [bind_ok] at h
  rcases h with ⟨_, _, h⟩
  cases hrow : insertReservation env runs (provisionValues a handle ids) a.key with
  | none =>
    rw [hrow] at h
    simp only [reduceCtorEq] at h
  | some row =>
    rw [hrow] at h
    simp only [bind_ok, pure_ok, Prod.mk.injEq] at h
    rcases h with ⟨⟨bound, rowHandle⟩, hlocked, _, hdecision, rfl, rfl⟩
    exact ⟨row, bound, rowHandle, rfl, hlocked, hdecision, rfl⟩

theorem startSession_table {after : EngineRuns} {recovered : Option (Dict Json)}
    (h : startSession env s runs a handle ids = .ok (recovered, after)) :
    ∃ row bound rowHandle, runs a.key = some row ∧
      verifyLockedRow env s a handle ids row "start" = .ok (bound, rowHandle) ∧
      startDecision bound rowHandle = .ok recovered ∧
      after = Function.update runs a.key (some bound) := by
  unfold startSession at h
  simp only [bind_ok] at h
  rcases h with ⟨_, _, h⟩
  cases hrow : runs a.key with
  | none =>
    rw [hrow] at h
    simp only [reduceCtorEq] at h
  | some row =>
    rw [hrow] at h
    simp only [bind_ok, pure_ok, Prod.mk.injEq] at h
    rcases h with ⟨⟨bound, rowHandle⟩, hlocked, _, hdecision, rfl, rfl⟩
    exact ⟨row, bound, rowHandle, rfl, hlocked, hdecision, rfl⟩

theorem insertReservation_stored (h : runs key = some row) :
    insertReservation env runs values key = some row := by
  unfold insertReservation
  cases hkey : runs (values.normalizeScopeProvenance env).key with
  | some other => exact h
  | none =>
    refine (update_of_ne ?_ _ _).trans h
    intro heq
    rw [heq, hkey] at h
    simp only [reduceCtorEq] at h

/-- How a stored row relates to the one under its key afterwards: it advances,
    and where the writer's stage has passed its handle stays. -/
def StoredAdvances (stage : Nat) (row : EngineRun) (after : Option EngineRun) : Prop :=
  ∃ row', after = some row' ∧ Advances row row' ∧
    (stage < row.status.stage → row'.handle = row.handle)

theorem storedAdvances_self (stage : Nat) (row : EngineRun) : StoredAdvances stage row (some row) :=
  ⟨row, rfl, Advances.refl row, fun _ => rfl⟩

theorem normalizeScopeProvenance_known (env : ProjectionEnv) (values : EngineRunValues) :
    (values.normalizeScopeProvenance env).scopeOwnershipKnown = true →
      (values.normalizeScopeProvenance env).ownershipKnown = true := by
  unfold normalizeScopeProvenance
  by_cases hauth : values.isAuthoritative env = true
  · rw [if_pos hauth]
    simp only [EngineRunValues.isAuthoritative, Bool.and_eq_true] at hauth
    exact fun _ => hauth.1.1.1
  · rw [if_neg hauth]
    exact id

theorem normalizeScopeProvenance_same (env : ProjectionEnv) (values : EngineRunValues) :
    (values.normalizeScopeProvenance env).key = values.key ∧
      (values.normalizeScopeProvenance env).status = values.status ∧
      (values.normalizeScopeProvenance env).handle = values.handle := by
  unfold normalizeScopeProvenance
  cases values.isAuthoritative env <;> exact ⟨rfl, rfl, rfl⟩

theorem keepsStored_of_stage_lt (hallowed : values.transitionAllowed row = true)
    (hlt : values.status.stage < row.status.stage) : values.keepsStored row = true := by
  cases hkeep : values.keepsStored row with
  | true => rfl
  | false =>
    have hle := (stage_le_of_not_kept hallowed hkeep).1
    omega

theorem storedAdvances_upsert (env : ProjectionEnv) (runs : EngineRuns) (values : EngineRunValues)
    (h : runs key = some row) :
    StoredAdvances values.status.stage row ((upsert env runs values).2 key) := by
  rcases normalizeScopeProvenance_same env values with ⟨_, hstatus, _⟩
  have hown := normalizeScopeProvenance_known env values
  unfold upsert
  generalize values.normalizeScopeProvenance env = normalized at hstatus hown
  rw [← hstatus]
  cases hstored : runs normalized.key with
  | none =>
    have hne : key ≠ normalized.key := by
      intro heq
      rw [heq, hstored] at h
      simp only [reduceCtorEq] at h
    simp only [hstored, update_of_ne hne, h]
    exact storedAdvances_self _ row
  | some other =>
    by_cases hallowed : normalized.transitionAllowed other = true
    · simp only [hstored, if_pos hallowed]
      by_cases hkey : key = normalized.key
      · rw [hkey, hstored, some.injEq] at h
        subst h
        rw [hkey, update_self]
        refine ⟨_, rfl, advances_upsert hown hallowed, fun hlt => ?_⟩
        rw [updatedRow_kept (keepsStored_of_stage_lt hallowed hlt)]
      · rw [update_of_ne hkey, h]
        exact storedAdvances_self _ row
    · simp only [hstored, if_neg hallowed, h]
      exact storedAdvances_self _ row

theorem storedAdvances_lock {lockKey : RunKey} {locked : EngineRun} (stage : Nat)
    (h : runs key = some row) (hlocked : runs lockKey = some locked) (hbinds : Binds locked bound) :
    StoredAdvances stage row (Function.update runs lockKey (some bound) key) := by
  by_cases hkey : key = lockKey
  · rw [← hkey, h, some.injEq] at hlocked
    subst hlocked
    rw [hkey, update_self]
    exact ⟨bound, rfl, hbinds.advances, fun _ => hbinds.handle⟩
  · rw [update_of_ne hkey, h]
    exact storedAdvances_self _ row

/-- One call by one writer, in its own surroundings. -/
inductive ProjectionCall where
  | record (s : Surroundings) (a : RecordArgs)
  | provision (s : Surroundings) (a : ReservationArgs)
  | start (s : Surroundings) (a : ReservationArgs)

namespace ProjectionCall

def stage : ProjectionCall → Nat
  | record _ a => a.status.stage
  | provision _ _ => EngineRunPhase.provisioning.stage
  | start _ _ => EngineRunPhase.provisioning.stage

def apply (env : ProjectionEnv) (runs : EngineRuns) : ProjectionCall → EngineRuns
  | record s a => (recordEngineRun env s runs a).2
  | provision s a => (prepareEngineProvision env s runs a).2
  | start s a => (prepareEngineStart env s runs a).2

def run (env : ProjectionEnv) (runs : EngineRuns) (calls : List ProjectionCall) : EngineRuns :=
  calls.foldl (apply env) runs

theorem run_append (env : ProjectionEnv) (runs : EngineRuns) (xs ys : List ProjectionCall) :
    run env runs (xs ++ ys) = run env (run env runs xs) ys := List.foldl_append

end ProjectionCall

theorem call_advances (env : ProjectionEnv) (runs : EngineRuns) (call : ProjectionCall)
    (h : runs key = some row) :
    StoredAdvances call.stage row (call.apply env runs key) := by
  cases call with
  | record s a =>
    rcases recordEngineRun_table env s runs a with
      hsame | ⟨values, _, hstatus, _, _, hafter⟩
    · rw [ProjectionCall.apply, hsame, h]
      exact storedAdvances_self _ row
    · rw [ProjectionCall.apply, hafter, ProjectionCall.stage, ← hstatus]
      exact storedAdvances_upsert env runs values h
  | provision s a =>
    rw [ProjectionCall.apply]
    unfold prepareEngineProvision
    rcases reservationPrelude env s a .provisioning "provision" with failure | _ | ⟨handle, ids⟩
    · simp only [h]
      exact storedAdvances_self _ row
    · simp only [h]
      exact storedAdvances_self _ row
    · rcases session_table env s "provision reservation" runs
        (provisionSession env s runs a handle ids) with hsame | ⟨recovered, hbody⟩
      · simp only [hsame, h]
        exact storedAdvances_self _ row
      · rcases provisionSession_table hbody with ⟨locked, bound, _, hstored, hlocked, _, hafter⟩
        simp only [hafter]
        exact storedAdvances_lock _ (insertReservation_stored h) hstored
          (binds_of_verifyLockedRow hlocked)
  | start s a =>
    rw [ProjectionCall.apply]
    unfold prepareEngineStart
    simp only
    rcases reservationPrelude env s { a with artifactNamespace := none } .ready "start" with
      failure | _ | ⟨handle, ids⟩
    · simp only [h]
      exact storedAdvances_self _ row
    · simp only [h]
      exact storedAdvances_self _ row
    · rcases session_table env s "start reservation" runs
        (startSession env s runs { a with artifactNamespace := none } handle ids) with
        hsame | ⟨recovered, hbody⟩
      · simp only [hsame, h]
        exact storedAdvances_self _ row
      · rcases startSession_table hbody with ⟨locked, bound, _, hstored, hlocked, _, hafter⟩
        simp only [hafter]
        exact storedAdvances_lock _ h hstored (binds_of_verifyLockedRow hlocked)

theorem calls_advance (env : ProjectionEnv) (key : RunKey) :
    ∀ (calls : List ProjectionCall) (runs : EngineRuns) (row : EngineRun), runs key = some row →
      ∃ row', ProjectionCall.run env runs calls key = some row' ∧ Advances row row' := by
  intro calls
  induction calls with
  | nil =>
    intro runs row h
    exact ⟨row, h, Advances.refl row⟩
  | cons call calls ih =>
    intro runs row h
    rcases call_advances env runs call h with ⟨row1, h1, hadv, _⟩
    rcases ih _ row1 h1 with ⟨row2, h2, hadv2⟩
    exact ⟨row2, h2, hadv.trans hadv2⟩

/-- Whatever was stored under a key after some of the calls of a run advances
    through the rest of it, and the next call, if it is of an earlier stage,
    leaves its handle alone. -/
theorem engine_runs_monotone (env : ProjectionEnv) (runs : EngineRuns) (key : RunKey)
    (earlier later : List ProjectionCall) (row : EngineRun)
    (hrow : ProjectionCall.run env runs earlier key = some row) :
    (∃ row', ProjectionCall.run env runs (earlier ++ later) key = some row' ∧ Advances row row') ∧
      ∀ call : ProjectionCall, call.stage < row.status.stage →
        ∃ row', ProjectionCall.run env runs (earlier ++ [call]) key = some row' ∧
          row'.handle = row.handle := by
  refine ⟨?_, fun call hlt => ?_⟩
  · rw [ProjectionCall.run_append]
    exact calls_advance env key later _ row hrow
  · rw [ProjectionCall.run_append]
    rcases call_advances env _ call hrow with ⟨row', hrow', _, hhandle⟩
    exact ⟨row', hrow', hhandle hlt⟩

/-- An environment that redacts nothing and reads no summary. -/
def sampleProjectionEnv : ProjectionEnv where
  rules := sampleRules
  sha256 key := key
  reprText text := text
  testResultSummary _ := none

/-- Surroundings without a connection registry in which nothing breaks. -/
def sampleSurroundings : Surroundings where
  isLockedDown := false
  connections _ := none
  trafficEntryProject _ := none
  now := 0
  newId := ⟨"f", by decide⟩
  fault := none

/-- A handle of the engine `e` for a given provider run. -/
def sampleHandle (externalRunId : Option String) : EngineHandle :=
  ⟨"e", none, externalRunId, "k", ∅⟩

/-- The reservation of the attempt `("t", 1)`. -/
def sampleReservation : ReservationArgs where
  threadId := "t"
  attempt := 1
  engine := "e"
  handle := (sampleHandle none).modelDump
  projectId := some "p"
  appId := some "a"
  connectionId := none
  connectionVersion := none

/-- A required write of a status together with a handle. -/
def sampleRecord (status : EngineRunPhase) (externalRunId : Option String) : RecordArgs where
  threadId := "t"
  attempt := 1
  engine := "e"
  handle := (sampleHandle externalRunId).modelDump
  status := status
  projectId := some "p"
  appId := some "a"
  required := true

/-- The row after a reservation and a write of a status. -/
def sampleRow (status : EngineRunPhase) (externalRunId : Option String) : EngineRun where
  threadId := "t"
  attempt := 1
  projectId := some "p"
  appId := some "a"
  ownershipKnown := true
  scopeOwnershipKnown := true
  engine := "e"
  externalRunId := none
  artifactNamespace := some "engine-runs/k"
  artifactConnectionId := none
  connectionId := none
  executionConnectionVersion := none
  artifactConnectionVersion := none
  completionKind := none
  handle := (sampleHandle externalRunId).modelDump
  status := status
  endedAt := none
  summary := none

/-- A reservation followed by a run that got as far as collecting. -/
def sampleCalls : List ProjectionCall :=
  [.provision sampleSurroundings sampleReservation,
    .record sampleSurroundings (sampleRecord .collecting (some "r"))]

/-- A run that is collecting is neither set back nor given another handle by the
    late acknowledgement of its start. -/
theorem engine_runs_monotone_collecting :
    (∃ row', ProjectionCall.run sampleProjectionEnv (fun _ => none)
        (sampleCalls ++ [.record sampleSurroundings (sampleRecord .running none)]) ("t", 1)
          = some row' ∧ Advances (sampleRow .collecting (some "r")) row') ∧
      ∀ call : ProjectionCall, call.stage < (sampleRow .collecting (some "r")).status.stage →
        ∃ row', ProjectionCall.run sampleProjectionEnv (fun _ => none) (sampleCalls ++ [call])
            ("t", 1) = some row' ∧ row'.handle = (sampleRow .collecting (some "r")).handle :=
  engine_runs_monotone sampleProjectionEnv (fun _ => none) ("t", 1) sampleCalls
    [.record sampleSurroundings (sampleRecord .running none)] (sampleRow .collecting (some "r"))
    (by decide +kernel)

end Apex.Services
