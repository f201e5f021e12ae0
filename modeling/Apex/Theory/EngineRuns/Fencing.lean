import Apex.Graphs.Pipeline.ExecutionPhase
import Apex.Theory.EngineRuns.Monotone

/-!
# Provider Calls Are Fenced

Two workers may replay `engine_provision` and `engine_start` of one attempt at
the same time, each from a checkpoint of its own, and either may die between any
two of its requests. What keeps the provider safe is the row: before a provider
call a node locks it, and goes on only if the row still belongs to this attempt
and no run has been recorded yet.

The workers are `Workers` over the table, and everything else they ask is
answered arbitrarily. What is needed of the code of the two nodes is little: no
write of theirs puts a row back into its first status, and no reservation of
theirs names a provider run. The rest is the row itself.

## Main definitions

* `respond`: The answers of the table, and of anything else.
* `CanonicalTable`: Every stored handle is one that validation produced.

## Theorems

* `engineProvision_uses`, `engineStart_uses`: The requests of the nodes.
* `prepareEngineProvision_none`, `prepareEngineStart_none`: When a provider call
  is authorised.
-/

namespace Apex.Services

open List Function
open Option hiding or_self
open Domain Graphs

variable {d handle rowHandle : Dict Json} {newId : FreshId} {engine operation : String}
  {rules : CredentialRules} {row bound : EngineRun} {s : Surroundings} {a : ReservationArgs}
  {runs after : EngineRuns} {values : EngineRunValues} {key : RunKey} {lockedDown : Bool}

variable {env : ProjectionEnv} {r : EngineRequest} {c : NodeCall} {connectionId : String}

theorem validatedProjectionHandle_ok
    (h : validatedProjectionHandle env newId d engine false = .ok handle) :
    ∃ validated, EngineHandle.modelValidate env.rules newId d = some validated ∧
      validated.engine = engine ∧ handle = validated.modelDump := by
  unfold validatedProjectionHandle at h
  rw [if_neg (fun hempty => Bool.false_ne_true hempty.2)] at h
  simp only [bind_ok, raiseIf_ok, exists_const] at h
  rcases h with ⟨_, h⟩
  cases hread : EngineHandle.modelValidate env.rules newId d with
  | none =>
    rw [hread] at h
    simp only [reduceCtorEq] at h
  | some validated =>
    rw [hread] at h
    simp only [bind_ok, raiseIf_ok, pure_ok, exists_const, bne_eq_false_iff_eq] at h
    exact ⟨validated, rfl, h.1, h.2.symm⟩

theorem handleText_textJson (d : Dict Json) (field : String) (s : Option String)
    (h : d.value field = textJson s) : handleText d field = s := by
  unfold Dict.value at h
  unfold handleText
  cases hget : d.get? field with
  | none =>
    rw [hget] at h
    cases s with
    | none => rfl
    | some t => simp only [getD_none, textJson, reduceCtorEq] at h
  | some v =>
    rw [hget, getD_some] at h
    rw [h]
    cases s <;> rfl

theorem optionalTextField_value {hi : Nat} {v : Json} {s : Option String}
    (h : optionalTextField hi v = some s) : v = textJson s := by
  cases v with
  | null =>
    simp only [optionalTextField, some.injEq] at h
    rw [← h]
    rfl
  | str t =>
    simp only [optionalTextField, textField] at h
    by_cases hok : 0 ≤ t.length ∧ t.length ≤ hi ∧ hasNul t = false
    · rw [if_pos hok, map_some, some.injEq] at h
      rw [← h]
      rfl
    · rw [if_neg hok, map_none] at h
      simp only [reduceCtorEq] at h
  | _ => simp only [optionalTextField, textField, map_none, reduceCtorEq] at h

variable {h : EngineHandle} {ids : NormalizedIds} {a' : ReservationArgs} {persisted : Bool}
  {version : Option String} {resolved : ResolvedAdapter} {artifactNamespace : String}

theorem modelValidate_fields (hd : EngineHandle.modelValidate rules newId d = some h) :
    handleText d "connection_id" = h.connectionId ∧
      ∀ k, handleText d "idempotency_key" = some k → h.idempotencyKey = k := by
  unfold EngineHandle.modelValidate at hd
  simp only [bind_eq_bind, bind_eq_some_iff, ite_none_right_eq_some, some.injEq] at hd
  rcases hd with ⟨engine, _, conn, hconn, run, _, key, hkey, extras, _, _, rfl⟩
  refine ⟨handleText_textJson d _ _ (optionalTextField_value hconn), fun k hk => ?_⟩
  unfold handleText at hk
  cases hget : d.get? "idempotency_key" with
  | none =>
    rw [hget] at hk
    simp only [reduceCtorEq] at hk
  | some v =>
    rw [hget] at hk hkey
    cases v with
    | str s =>
      simp only [some.injEq] at hk
      subst hk
      simp only [EngineHandle.readKey, textField] at hkey
      by_cases hok : 1 ≤ s.length ∧ s.length ≤ 256 ∧ hasNul s = false
      · rw [if_pos hok, some.injEq] at hkey
        exact hkey.symm
      · rw [if_neg hok] at hkey
        simp only [reduceCtorEq] at hkey
    | _ => simp only [reduceCtorEq] at hk

/-- A handle validation produced, or the empty one of an attempt without a run. -/
def CanonicalHandle (rules : CredentialRules) (d : Dict Json) : Prop :=
  d = ∅ ∨ ∃ h : EngineHandle, h.ok rules = true ∧ d = h.modelDump

def CanonicalTable (rules : CredentialRules) (runs : EngineRuns) : Prop :=
  ∀ key row, runs key = some row → CanonicalHandle rules row.handle

theorem canonicalTable_empty (rules : CredentialRules) : CanonicalTable rules (fun _ => none) := by
  intro key row h
  simp only [reduceCtorEq] at h

theorem canonicalHandle_of_validated {allowEmpty : Bool}
    (h : validatedProjectionHandle env newId d engine allowEmpty = .ok handle) :
    CanonicalHandle env.rules handle := by
  by_cases hempty : d.length = 0 ∧ allowEmpty = true
  · unfold validatedProjectionHandle at h
    rw [if_pos hempty, Except.ok.injEq] at h
    exact Or.inl h.symm
  · have hread : validatedProjectionHandle env newId d engine false = .ok handle := by
      unfold validatedProjectionHandle at h ⊢
      rw [if_neg hempty] at h
      rw [if_neg (fun hfalse => Bool.false_ne_true hfalse.2)]
      exact h
    rcases validatedProjectionHandle_ok hread with ⟨validated, hvalid, _, rfl⟩
    exact Or.inr ⟨validated, EngineHandle.modelValidate_ok hvalid, rfl⟩

theorem lockedHandle_canonical (hcanonical : CanonicalHandle env.rules row.handle)
    (h : lockedHandle env s row engine operation = .ok rowHandle) : rowHandle = row.handle := by
  unfold lockedHandle at h
  cases hread : validatedProjectionHandle env s.newId row.handle engine false with
  | error failure =>
    rw [hread] at h
    simp only [reduceCtorEq] at h
  | ok handle =>
    rw [hread, Except.ok.injEq] at h
    subst h
    rcases validatedProjectionHandle_ok hread with ⟨validated, hvalid, _, rfl⟩
    rcases hcanonical with hempty | ⟨stored, hok, hdump⟩
    · -- The empty handle has no engine, so it cannot have been read.
      rw [hempty] at hvalid
      have hnone : EngineHandle.modelValidate env.rules s.newId ∅ = none := rfl
      rw [hnone] at hvalid
      simp only [reduceCtorEq] at hvalid
    · rw [hdump, EngineHandle.modelValidate_modelDump s.newId hok, some.injEq] at hvalid
      rw [hdump, hvalid]

/-- Whether a reservation is on one of the synthetic connections of development. -/
def onDevelopmentConnection (a : ReservationArgs) : Bool :=
  ((a.connectionId.filter (· != "")).or (handleText a.handle "connection_id")).any isDevelopmentId

theorem isDevelopmentId_ne {id : String} (h : isDevelopmentId id = true) : id ≠ "" := by
  rintro rfl
  exact absurd h (by decide)

theorem normalizeDevelopmentConnectionIds_reservation (handle : Dict Json)
    (connectionId : Option String) (version : Option Instant) (lockedDown : Bool) :
    let ids := normalizeDevelopmentConnectionIds handle connectionId version none lockedDown
    (ids.skipProjection = true → lockedDown = false ∧
      ((connectionId.filter (· != "")).or (handleText handle "connection_id")).any isDevelopmentId
        = true) ∧
    (ids.skipProjection = false → ids.connectionId = connectionId ∧
      ids.connectionVersion = version) := by
  unfold normalizeDevelopmentConnectionIds
  cases lockedDown with
  | true => exact ⟨fun h => absurd h Bool.false_ne_true, fun _ => ⟨rfl, rfl⟩⟩
  | false =>
    simp only [Bool.false_eq_true, if_false, filter_none, isNone_none, Bool.and_true]
    by_cases hdev : connectionId.any isDevelopmentId = true
    · rw [if_pos hdev]
      refine ⟨fun h => ⟨trivial, h⟩, fun h => ?_⟩
      -- A call that names a development connection has nothing to write.
      cases connectionId with
      | none => simp only [any_none, Bool.false_eq_true] at hdev
      | some id =>
        have hne : (id != "") = true := bne_iff_ne.mpr (isDevelopmentId_ne hdev)
        have hfilter : (some id).filter (fun x => x != "") = some id := by
          rw [filter_some, if_pos hne]
        simp only [hfilter, some_or, any_some] at h
        exact absurd (hdev.symm.trans h) (by decide)
    · rw [if_neg hdev]
      exact ⟨fun h => ⟨trivial, h⟩, fun _ => ⟨rfl, rfl⟩⟩

/-- A handle that names no provider run, as a reservation is made with. -/
def NamesNoRun (d : Dict Json) : Prop :=
  d.get? "external_run_id" = none ∧ d.get? "extras" = some (.ofDict ∅)

theorem handleNamesRun_of_namesNoRun (hd : EngineHandle.modelValidate rules newId d = some h)
    (hnone : NamesNoRun d) : handleNamesRun h.modelDump = false := by
  unfold EngineHandle.modelValidate at hd
  simp only [bind_eq_bind, bind_eq_some_iff, ite_none_right_eq_some, some.injEq] at hd
  rcases hd with ⟨engine, _, conn, _, run, hrun, key, _, extras, hextras, _, rfl⟩
  have hvalue : d.value "external_run_id" = .null := by
    rw [Dict.value, hnone.1]
    rfl
  rw [hvalue, optionalTextField, some.injEq] at hrun
  have hempty : extras = ∅ := by
    rw [hnone.2] at hextras
    exact (some.inj hextras).symm
  rw [← hrun, hempty]
  rfl

theorem reservationPrelude_ok {status : EngineRunPhase} (hstatus : (status == .failed) = false)
    {settled : Option (Dict Json × NormalizedIds)}
    (h : reservationPrelude env s a status operation = .ok settled) :
    (settled = none ∧ s.isLockedDown = false ∧ onDevelopmentConnection a = true) ∨
      ∃ handle ids, settled = some (handle, ids) ∧ ids.connectionId = a.connectionId ∧
        ids.connectionVersion = a.connectionVersion ∧
        (a.connectionId.isSome = true → a.connectionVersion.isSome = true) ∧
        CanonicalHandle env.rules handle ∧ handleText handle "engine" = some a.engine ∧
        (∀ k, handleText a.handle "idempotency_key" = some k →
          handleText handle "idempotency_key" = some k) ∧
        (NamesNoRun a.handle → handleNamesRun handle = false) := by
  unfold reservationPrelude at h
  simp only [bind_ok] at h
  rcases h with ⟨⟨handle, summary⟩, hinput, h⟩
  have hvalid := validateEngineRunProjectionInput_ok hinput
  simp only [hstatus] at hvalid
  rcases validatedProjectionHandle_ok hvalid with ⟨validated, hread, hengine, rfl⟩
  rcases modelValidate_fields hread with ⟨hconn, hkey⟩
  have hdump : handleText validated.modelDump "connection_id" = validated.connectionId :=
    handleText_textJson _ _ _ rfl
  have hids := normalizeDevelopmentConnectionIds_reservation validated.modelDump a.connectionId
    a.connectionVersion s.isLockedDown
  revert hids h
  generalize normalizeDevelopmentConnectionIds validated.modelDump a.connectionId
    a.connectionVersion none s.isLockedDown = ids
  intro h hids
  cases hskip : ids.skipProjection with
  | true =>
    left
    simp only [hskip, if_true, pure_ok] at h
    rcases hids.1 hskip with ⟨hopen, hdev⟩
    rw [hdump, ← hconn] at hdev
    exact ⟨h.symm, hopen, hdev⟩
  | false =>
    right
    rcases hids.2 hskip with ⟨hid, hversion⟩
    simp only [hskip, Bool.false_eq_true, if_false, bind_ok, raiseIf_ok, pure_ok, exists_const] at h
    rcases h with ⟨_, _, hversioned, rfl⟩
    refine ⟨_, ids, rfl, hid, hversion, fun hsome => ?_,
      Or.inr ⟨validated, EngineHandle.modelValidate_ok hread, rfl⟩, ?_, fun k hk => ?_,
      handleNamesRun_of_namesNoRun hread⟩
    · rw [hid, hversion, hsome, Bool.true_and, isNone_eq_false_iff] at hversioned
      exact hversioned
    · rw [← hengine]
      rfl
    · rw [← hkey k hk]
      rfl

/-- What is known of the row when a provider call is authorised: its run has not
    started, and it is that of the call. A call that names no connection has no
    generation to compare. -/
structure Fenced (a : ReservationArgs) (row : EngineRun) : Prop where
  nonterminal : row.status.isTerminal = false
  notStarted : row.status.stage < EngineRunPhase.running.stage
  engine : row.engine = a.engine
  owner : row.projectId = a.projectId ∧ row.appId = a.appId ∧ row.scopeOwnershipKnown = true
  idempotencyKey : ∀ k, handleText a.handle "idempotency_key" = some k →
    handleText row.handle "idempotency_key" = some k
  generation : a.connectionId.isSome = true → row.connectionId = a.connectionId ∧
    row.executionConnectionVersion = a.connectionVersion ∧ a.connectionVersion.isSome = true

/-- A row whose attempt has a run: one was named, or its first status was left. -/
def Provisioned (row : EngineRun) : Prop :=
  row.status ≠ .provisioning ∨ handleNamesRun row.handle = true

theorem startable_iff (status : EngineRunPhase) :
    status.isStartable = true ↔ status.isTerminal = false ∧
      status.stage < EngineRunPhase.running.stage := by
  cases status <;> decide

theorem fenced_of_verifyLockedRow
    (h : verifyLockedRow env s a' handle ids row operation = .ok (bound, rowHandle))
    (hsame : a'.engine = a.engine ∧ a'.projectId = a.projectId ∧ a'.appId = a.appId)
    (hid : ids.connectionId = a.connectionId)
    (hversion : ids.connectionVersion = a.connectionVersion)
    (hkey : ∀ k, handleText a.handle "idempotency_key" = some k →
      handleText handle "idempotency_key" = some k) (hrow : rowHandle = bound.handle)
    (hstart : bound.status.isStartable = true) :
    Fenced a bound := by
  rcases verifyLockedRow_ok h with ⟨hengine, hbind, hgeneration, _, hidentity, _⟩
  rcases bindLockedRunOwnership_ok hbind with ⟨_, _, hbound⟩
  rcases (startable_iff _).mp hstart with ⟨hopen, hearly⟩
  refine ⟨hopen, hearly, ?_, ?_, fun k hk => ?_, fun hsome => ?_⟩
  · rw [hbound]
    exact hengine.trans hsame.1
  · rw [hbound]
    exact ⟨hsame.2.1, hsame.2.2, rfl⟩
  · unfold verifyReservationHandleIdentity at hidentity
    simp only [bind_ok, raiseIf_ok, exists_const, bne_eq_false_iff_eq] at hidentity
    rw [← hrow, hidentity.2.1]
    exact hkey k hk
  · unfold verifyReservationConnectionGeneration at hgeneration
    rw [hid, hversion, isNone_eq_false_iff.mpr hsome, if_neg Bool.false_ne_true] at hgeneration
    simp only [bind_ok, raiseIf_ok, exists_const, bne_eq_false_iff_eq, Bool.or_eq_false_iff,
      isNone_eq_false_iff] at hgeneration
    exact ⟨hgeneration.1, hgeneration.2.2, hgeneration.2.1⟩

/-- A row a call locked: it advanced at most by its owner, and it is fenced as long
    as it has not started. -/
structure LockedFor (env : ProjectionEnv) (a : ReservationArgs) (row bound : EngineRun) : Prop where
  binds : Binds row bound
  fenced : CanonicalHandle env.rules row.handle → bound.status.isStartable = true → Fenced a bound

theorem lockedFor_of_verifyLockedRow
    (h : verifyLockedRow env s a' handle ids row operation = .ok (bound, rowHandle))
    (hsame : a'.engine = a.engine ∧ a'.projectId = a.projectId ∧ a'.appId = a.appId)
    (hid : ids.connectionId = a.connectionId)
    (hversion : ids.connectionVersion = a.connectionVersion)
    (hkey : ∀ k, handleText a.handle "idempotency_key" = some k →
      handleText handle "idempotency_key" = some k) :
    LockedFor env a row bound ∧ (CanonicalHandle env.rules row.handle → rowHandle = row.handle) := by
  have hbinds := binds_of_verifyLockedRow h
  have hread : CanonicalHandle env.rules row.handle → rowHandle = row.handle := by
    intro hrow
    rw [← hbinds.handle] at hrow
    rw [lockedHandle_canonical hrow (verifyLockedRow_ok h).2.2.2.1, hbinds.handle]
  exact ⟨⟨hbinds, fun hrow hstart => fenced_of_verifyLockedRow h hsame hid hversion hkey
    ((hread hrow).trans hbinds.handle.symm) hstart⟩, hread⟩

/-- What a provision reservation committed, whatever it answered. -/
structure ProvisionCommit (env : ProjectionEnv) (runs after : EngineRuns) (a : ReservationArgs)
    (values : EngineRunValues) (row bound : EngineRun) : Prop where
  key : values.key = a.key
  status : values.status = .provisioning
  handle : CanonicalHandle env.rules values.handle
  noRun : NamesNoRun a.handle → handleNamesRun values.handle = false
  stored : insertReservation env runs values a.key = some row
  locked : LockedFor env a row bound
  after : after = Function.update (insertReservation env runs values) a.key (some bound)

/-- What `prepare_engine_provision` does: it raises or has nothing to write, or it
    locks a row, and then answers what it decided of that row if it answers. -/
theorem prepareEngineProvision_cases (env : ProjectionEnv) (s : Surroundings) (runs : EngineRuns)
    (a : ReservationArgs) :
    ((prepareEngineProvision env s runs a).2 = runs ∧
      ∀ answer, (prepareEngineProvision env s runs a).1 = .ok answer →
        answer = none ∧ s.isLockedDown = false ∧ onDevelopmentConnection a = true) ∨
    ∃ values row bound rowHandle answered,
      ProvisionCommit env runs (prepareEngineProvision env s runs a).2 a values row bound ∧
        (CanonicalHandle env.rules row.handle → rowHandle = row.handle) ∧
        provisionDecision bound rowHandle = .ok answered ∧
        ∀ answer, (prepareEngineProvision env s runs a).1 = .ok answer → answer = answered := by
  unfold prepareEngineProvision
  cases hprelude : reservationPrelude env s a .provisioning "provision" with
  | error failure => exact Or.inl ⟨rfl, fun answer h => by simp only [reduceCtorEq] at h⟩
  | ok settled =>
    rcases reservationPrelude_ok (by decide) hprelude with
      ⟨rfl, hdev⟩ | ⟨handle, ids, rfl, hid, hversion, _, hcanonical, _, hkey, hrun⟩
    · exact Or.inl ⟨rfl, fun answer h => ⟨(Except.ok.inj h).symm, hdev⟩⟩
    · simp only
      rcases session_cases env s "provision reservation" runs
        (provisionSession env s runs a handle ids) with ⟨hsame, failure, hfailed⟩ | ⟨answered, hbody, hanswer⟩
      · exact Or.inl ⟨hsame, fun answer h => by simp only [hfailed, reduceCtorEq] at h⟩
      · right
        rcases provisionSession_table hbody with
          ⟨row, bound, rowHandle, hrow, hlocked, hdecision, hafter⟩
        rcases lockedFor_of_verifyLockedRow hlocked ⟨rfl, rfl, rfl⟩ hid hversion hkey with
          ⟨hfor, hread⟩
        exact ⟨_, row, bound, rowHandle, answered,
          ⟨rfl, rfl, hcanonical, hrun, hrow, hfor, hafter⟩, hread, hdecision, hanswer⟩

theorem prepareEngineStart_cases (env : ProjectionEnv) (s : Surroundings) (runs : EngineRuns)
    (a : ReservationArgs) :
    ((prepareEngineStart env s runs a).2 = runs ∧
      ∀ answer, (prepareEngineStart env s runs a).1 = .ok answer →
        answer = none ∧ s.isLockedDown = false ∧ onDevelopmentConnection a = true) ∨
    ∃ row bound rowHandle answered, runs a.key = some row ∧ LockedFor env a row bound ∧
      (prepareEngineStart env s runs a).2 = Function.update runs a.key (some bound) ∧
      (CanonicalHandle env.rules row.handle → rowHandle = row.handle) ∧
      startDecision bound rowHandle = .ok answered ∧
      ∀ answer, (prepareEngineStart env s runs a).1 = .ok answer → answer = answered := by
  unfold prepareEngineStart
  simp only
  cases hprelude : reservationPrelude env s { a with artifactNamespace := none } .ready "start" with
  | error failure => exact Or.inl ⟨rfl, fun answer h => by simp only [reduceCtorEq] at h⟩
  | ok settled =>
    rcases reservationPrelude_ok (by decide) hprelude with
      ⟨rfl, hdev⟩ | ⟨handle, ids, rfl, hid, hversion, _, _, _, hkey, _⟩
    · exact Or.inl ⟨rfl, fun answer h => ⟨(Except.ok.inj h).symm, hdev⟩⟩
    · simp only
      rcases session_cases env s "start reservation" runs
        (startSession env s runs { a with artifactNamespace := none } handle ids) with
        ⟨hsame, failure, hfailed⟩ | ⟨answered, hbody, hanswer⟩
      · exact Or.inl ⟨hsame, fun answer h => by simp only [hfailed, reduceCtorEq] at h⟩
      · right
        rcases startSession_table hbody with
          ⟨row, bound, rowHandle, hrow, hlocked, hdecision, hafter⟩
        rcases lockedFor_of_verifyLockedRow (a := a) hlocked ⟨rfl, rfl, rfl⟩ hid hversion hkey with
          ⟨hfor, hread⟩
        exact ⟨row, bound, rowHandle, answered, hrow, hfor, hafter, hread, hdecision, hanswer⟩

theorem canonicalTable_update (key : RunKey) (hruns : CanonicalTable rules runs)
    (hrow : CanonicalHandle rules row.handle) :
    CanonicalTable rules (Function.update runs key (some row)) := by
  intro key' row' h
  by_cases hkey : key' = key
  · rw [hkey, update_self, some.injEq] at h
    rw [← h]
    exact hrow
  · rw [update_of_ne hkey] at h
    exact hruns key' row' h

theorem canonicalTable_insert (hruns : CanonicalTable env.rules runs)
    (hvalues : CanonicalHandle env.rules values.handle) :
    CanonicalTable env.rules (insertReservation env runs values) := by
  have hnormal : CanonicalHandle env.rules (values.normalizeScopeProvenance env).handle := by
    rw [(normalizeScopeProvenance_same env values).2.2]
    exact hvalues
  unfold insertReservation
  generalize values.normalizeScopeProvenance env = normalized at hnormal
  cases hstored : runs normalized.key with
  | some row =>
    simp only [hstored]
    exact hruns
  | none =>
    simp only [hstored]
    exact canonicalTable_update _ hruns hnormal

theorem updatedRow_handle (values : EngineRunValues) (row : EngineRun) :
    (values.updatedRow row).handle = if values.keepsStored row then row.handle else values.handle :=
  rfl

theorem updatedRow_status (values : EngineRunValues) (row : EngineRun) :
    (values.updatedRow row).status = if values.keepsStored row then row.status else values.status :=
  rfl

theorem canonicalTable_upsert (hruns : CanonicalTable env.rules runs)
    (hvalues : CanonicalHandle env.rules values.handle) :
    CanonicalTable env.rules (upsert env runs values).2 := by
  have hnormal : CanonicalHandle env.rules (values.normalizeScopeProvenance env).handle := by
    rw [(normalizeScopeProvenance_same env values).2.2]
    exact hvalues
  unfold upsert
  generalize values.normalizeScopeProvenance env = normalized at hnormal
  cases hstored : runs normalized.key with
  | none =>
    simp only [hstored]
    exact canonicalTable_update _ hruns hnormal
  | some row =>
    by_cases hallowed : normalized.transitionAllowed row = true
    · simp only [hstored, if_pos hallowed]
      refine canonicalTable_update _ hruns ?_
      rw [updatedRow_handle]
      by_cases hkeep : normalized.keepsStored row = true
      · rw [if_pos hkeep]
        exact hruns _ row hstored
      · rw [if_neg hkeep]
        exact hnormal
    · simp only [hstored, if_neg hallowed]
      exact hruns

theorem LockedFor.keeps (h : LockedFor env a row bound) :
    (CanonicalHandle env.rules row.handle → CanonicalHandle env.rules bound.handle) ∧
      (Provisioned row → Provisioned bound) := by
  unfold Provisioned
  rw [h.binds.handle, h.binds.status]
  exact ⟨id, id⟩

def HasRun (runs : EngineRuns) (key : RunKey) : Prop :=
  ∃ row, runs key = some row ∧ Provisioned row

theorem hasRun_lock (hrow : runs a.key = some row) (hlocked : LockedFor env a row bound)
    (h : HasRun runs key) :
    HasRun (Function.update runs a.key (some bound)) key := by
  rcases h with ⟨old, hold, hprov⟩
  by_cases hkey : key = a.key
  · rw [hkey, hrow, some.injEq] at hold
    rw [hkey]
    refine ⟨bound, update_self _ _ _, hlocked.keeps.2 ?_⟩
    rw [hold]
    exact hprov
  · exact ⟨old, (update_of_ne hkey _ _).trans hold, hprov⟩

theorem hasRun_insert (h : HasRun runs key) : HasRun (insertReservation env runs values) key := by
  rcases h with ⟨old, hold, hprov⟩
  exact ⟨old, insertReservation_stored hold, hprov⟩

theorem hasRun_upsert (hstatus : values.status ≠ .provisioning) (h : HasRun runs key) :
    HasRun (upsert env runs values).2 key := by
  rcases h with ⟨old, hold, hprov⟩
  have hnormal : (values.normalizeScopeProvenance env).status ≠ .provisioning := by
    rw [(normalizeScopeProvenance_same env values).2.1]
    exact hstatus
  unfold upsert
  generalize values.normalizeScopeProvenance env = normalized at hnormal
  cases hstored : runs normalized.key with
  | none =>
    have hne : key ≠ normalized.key := by
      intro heq
      rw [heq, hstored] at hold
      simp only [reduceCtorEq] at hold
    simp only [hstored]
    exact ⟨old, (update_of_ne hne _ _).trans hold, hprov⟩
  | some row =>
    by_cases hallowed : normalized.transitionAllowed row = true
    · simp only [hstored, if_pos hallowed]
      by_cases hkey : key = normalized.key
      · rw [hkey, hstored, some.injEq] at hold
        rw [hkey]
        refine ⟨_, update_self _ _ _, ?_⟩
        unfold Provisioned
        rw [updatedRow_status, updatedRow_handle]
        by_cases hkeep : normalized.keepsStored row = true
        · rw [if_pos hkeep, if_pos hkeep, hold]
          exact hprov
        · rw [if_neg hkeep]
          exact Or.inl hnormal
      · exact ⟨old, (update_of_ne hkey _ _).trans hold, hprov⟩
    · simp only [hstored, if_neg hallowed]
      exact ⟨old, hold, hprov⟩

/-- The requests that cannot take an attempt back: no reservation names a provider
    run, and no write has the first status. -/
def fencedRequest : EngineRequest → Prop
  | .prepareProvision a => NamesNoRun a.handle
  | .record a => a.status ≠ .provisioning
  | _ => True

section Nodes

variable (env : ExecutionEnv) (c : NodeCall)

variable (r : ProvisionRead) (connectionId : String)

theorem namesNoRun_provisionReservation (version : Option Instant) (artifactNamespace : String) :
    NamesNoRun (provisionReservation c r connectionId version artifactNamespace).handle :=
  ⟨rfl, rfl⟩

theorem compensateUnsafeProvision_uses (h : EngineHandle) :
    (compensateUnsafeProvision h).uses fencedRequest := by
  refine Program.uses_request trivial (fun aborted => ?_)
  rcases aborted with _ | left
  · trivial
  · refine Program.uses_request trivial (fun status => ?_)
    cases provesEnded status with
    | error e => trivial
    | ok u =>
      refine Program.uses_request trivial (fun tornDown => ?_)
      rcases tornDown with _ | _ <;> trivial

theorem provisionedHandle_uses (raw : Json) :
    (provisionedHandle env c r connectionId raw).uses fencedRequest := by
  unfold provisionedHandle
  cases validatedEngineHandle env c.newId true raw with
  | error e => trivial
  | ok h =>
    by_cases hcredentials : unsafeHandle env h = true
    · simp only [hcredentials, if_true]
      refine Program.uses_bind (compensateUnsafeProvision_uses _) (fun compensated => ?_)
      rcases compensated with _ | _ <;> trivial
    · simp only [hcredentials]
      trivial

theorem validateAndProvision_uses (source : Option String) :
    (validateAndProvision env c r connectionId source).uses fencedRequest := by
  refine Program.uses_request trivial (fun report => ?_)
  rcases report with e | report
  · trivial
  · simp only
    by_cases hok : report.ok = true
    · rw [if_pos hok]
      refine Program.uses_request trivial (fun raw => ?_)
      rcases raw with e | raw
      · trivial
      · exact provisionedHandle_uses env c r connectionId raw
    · rw [if_neg hok]
      trivial

theorem provisionProvider_uses (resolved : ResolvedAdapter) :
    (provisionProvider env c r connectionId resolved).uses fencedRequest := by
  unfold provisionProvider
  by_cases hcycle : c.cfg.cycleDispatchId.isSome = true
  · rw [if_pos hcycle]
    refine Program.uses_request trivial (fun binding => ?_)
    rcases binding with e | ⟨spec, source⟩
    · trivial
    · simp only
      by_cases hchanged : (spec != r.spec || !resolved.approvedScripts || source.isNone) = true
      · rw [if_pos hchanged]
        trivial
      · rw [if_neg hchanged]
        exact validateAndProvision_uses env c r connectionId source
  · rw [if_neg hcycle]
    exact validateAndProvision_uses env c r connectionId none

theorem reserveAndProvision_uses (resolved : ResolvedAdapter) :
    (reserveAndProvision env c r connectionId resolved).uses fencedRequest := by
  unfold reserveAndProvision
  cases engineArtifactNamespace env.toProjectionEnv r.spec.idempotencyKey with
  | error failure => trivial
  | ok artifactNamespace =>
    refine Program.uses_request (namesNoRun_provisionReservation c r connectionId _ _) (fun reserved => ?_)
    rcases reserved with failure | _ | recovered
    · trivial
    · exact provisionProvider_uses env c r connectionId resolved
    · simp only
      cases validatedEngineHandle env c.newId false (.ofDict recovered) <;> trivial

theorem provision_uses (version : Option String) (persisted : Bool) :
    (provision env c r connectionId version persisted).uses fencedRequest := by
  refine Program.uses_request trivial (fun answer => ?_)
  rcases answer with e | resolved
  · trivial
  · simp only
    by_cases hstaged : (!isStaged env connectionId version persisted resolved) = true
    · rw [if_pos hstaged]
      trivial
    · rw [if_neg hstaged]
      by_cases hversion : (resolved.persisted && resolved.connectionVersion.isNone) = true
      · rw [if_pos hversion]
        trivial
      · rw [if_neg hversion]
        exact reserveAndProvision_uses env c r connectionId resolved

theorem failProvision_uses (issues : List String) :
    (failProvision env c r issues).uses fencedRequest := by
  unfold failProvision
  cases engineArtifactNamespace env.toProjectionEnv r.spec.idempotencyKey with
  | error failure => trivial
  | ok artifactNamespace =>
    refine Program.uses_request (by simp only [fencedRequest, failedRecord, ne_eq, reduceCtorEq,
      not_false_eq_true]) (fun written => ?_)
    rcases written with _ | _ <;> trivial

theorem projectProvisioned_uses (h : EngineHandle) (projected : Bool) :
    (projectProvisioned env c r h projected).uses fencedRequest := by
  unfold projectProvisioned
  cases projected with
  | true => trivial
  | false =>
    cases engineArtifactNamespace env.toProjectionEnv h.idempotencyKey with
    | error failure => trivial
    | ok artifactNamespace =>
      refine Program.uses_request (by simp only [fencedRequest, readyRecord, ne_eq,
        reduceCtorEq, not_false_eq_true]) (fun written => ?_)
      rcases written with (_ | _ | _) | _ <;> trivial

theorem stageConnectionAffinity_uses (connectionId : Option String) :
    (stageConnectionAffinity env c r connectionId).uses fencedRequest := by
  refine Program.uses_request trivial (fun answer => ?_)
  cases Except.bind answer (checkStaged env c connectionId) <;> trivial

theorem engineProvision_uses : (engineProvision env c).uses fencedRequest := by
  unfold engineProvision
  cases provisionRead env c with
  | error e => trivial
  | ok r =>
    rcases checkpointedAffinity env c with
      e | ⟨e, fields⟩ | connectionId | ⟨connectionId, version, persisted⟩
    · trivial
    · trivial
    · exact stageConnectionAffinity_uses env c r connectionId
    · refine Program.uses_bind (provision_uses env c r connectionId version persisted)
        (fun outcome => ?_)
      rcases outcome with (e | e | e) | issues | ⟨h, projected⟩
      · trivial
      · exact failProvision_uses env c r _
      · trivial
      · exact failProvision_uses env c r issues
      · exact projectProvisioned_uses env c r h projected

theorem invalidStart_uses (r : StartRead) (startError : Option String) (left : Json) (e : String) :
    (invalidStart env c r startError left e).uses fencedRequest := by
  unfold invalidStart
  simp only
  cases validatedStartedHandle env c.newId true left r.handle with
  | error e => trivial
  | ok h =>
    by_cases hcredentials : unsafeHandle env h = true
    · simp only [hcredentials, if_true]
      refine Program.uses_bind (compensateUnsafeProvision_uses _) (fun compensated => ?_)
      rcases compensated with _ | _ <;> trivial
    · simp only [hcredentials]
      trivial

theorem finishStart_uses (r : StartRead) (startError : Option String) (left : Json) :
    (finishStart env c r startError left).uses fencedRequest := by
  unfold finishStart
  cases validatedStartedHandle env c.newId false left r.handle with
  | ok h => trivial
  | error e => exact invalidStart_uses env c r startError left e

theorem startRun_uses (r : StartRead) : (startRun env c r).uses fencedRequest := by
  refine Program.uses_bind (Program.uses_request trivial (fun _ => trivial)) (fun resolved => ?_)
  rcases resolved with e | resolved
  · trivial
  · simp only
    unfold callStart
    by_cases hcycle : c.cfg.cycleDispatchId.isSome = true
    · rw [if_pos hcycle]
      refine Program.uses_request trivial (fun binding => ?_)
      rcases binding with e | binding
      · exact finishStart_uses env c r _ _
      · exact Program.uses_request trivial (fun answer => finishStart_uses env c r _ _)
    · rw [if_neg hcycle]
      exact Program.uses_request trivial (fun answer => finishStart_uses env c r _ _)

theorem recordStart_uses (r : StartRead) (h : EngineHandle) {status : EngineRunPhase}
    (command : Command) (hstatus : status ≠ .provisioning) :
    (recordStart env c r h status command).uses fencedRequest := by
  unfold recordStart
  cases engineArtifactNamespace env.toProjectionEnv h.idempotencyKey with
  | error failure => trivial
  | ok artifactNamespace =>
    refine Program.uses_request hstatus (fun written => ?_)
    rcases written with _ | _ <;> trivial

theorem engineStart_uses : (engineStart env c).uses fencedRequest := by
  unfold engineStart
  cases startRead env c with
  | error e => trivial
  | ok r =>
    refine Program.uses_request trivial (fun reserved => ?_)
    rcases reserved with failure | _ | recovered
    · trivial
    · refine Program.uses_bind (startRun_uses env c r) (fun started => ?_)
      unfold settleStart
      cases EngineHandle.modelValidate env.rules c.newId started.handle.modelDump with
      | none => trivial
      | some h =>
        cases hcompensated : started.compensated with
        | true =>
          simp only [if_true]
          exact recordStart_uses env c r h _ (by decide)
        | false =>
          simp only [Bool.false_eq_true, if_false]
          cases started.error with
          | some error => trivial
          | none => exact recordStart_uses env c r h _ (by decide)
    · simp only
      cases validatedStartedHandle env c.newId false (.ofDict recovered) r.handle <;> trivial

end Nodes

/-- The answers of the table, given what a deployment's settings are, and arbitrary
    ones of anything else. -/
def respond (env : ProjectionEnv) (lockedDown : Bool) (runs : EngineRuns) :
    (r : EngineRequest) → r.Answer → EngineRuns → Prop
  | .prepareProvision a, answer, after =>
    ∃ s : Surroundings, s.isLockedDown = lockedDown ∧
      prepareEngineProvision env s runs a = (answer, after)
  | .prepareStart a, answer, after =>
    ∃ s : Surroundings, s.isLockedDown = lockedDown ∧
      prepareEngineStart env s runs a = (answer, after)
  | .record a, answer, after =>
    ∃ s : Surroundings, s.isLockedDown = lockedDown ∧ recordEngineRun env s runs a = (answer, after)
  | _, _, after => after = runs

/-- The programs a worker runs: one of the two nodes, called with any checkpoint. -/
def runsExecutionNode (env : ExecutionEnv) (p : Steps (Except String Command)) : Prop :=
  ∃ c : NodeCall, p = engineProvision env c ∨ p = engineStart env c

theorem runsExecutionNode_provision (env : ExecutionEnv) (c : NodeCall) :
    runsExecutionNode env (engineProvision env c) := ⟨c, Or.inl rfl⟩

abbrev TableEvent := Workers.Event EngineRuns EngineRequest EngineRequest.Answer

/-- What holds of an answer: a provider call is authorised only over a fenced row,
    unless it goes to a synthetic connection of development, and a recovered handle
    is the recorded one. -/
structure FencedEvent (lockedDown : Bool) (e : TableEvent) : Prop where
  provision : ∀ before a after, e = ⟨before, .prepareProvision a, .ok none, after⟩ →
    (lockedDown = false ∧ onDevelopmentConnection a = true) ∨
      ∃ row, after a.key = some row ∧ Fenced a row ∧ row.status = .provisioning ∧
        handleNamesRun row.handle = false ∧ ¬ HasRun before a.key
  start : ∀ before a after, e = ⟨before, .prepareStart a, .ok none, after⟩ →
    (lockedDown = false ∧ onDevelopmentConnection a = true) ∨
      ∃ row, after a.key = some row ∧ Fenced a row
  recovery : ∀ before a handle after,
    e = ⟨before, .prepareProvision a, .ok (some handle), after⟩ ∨
      e = ⟨before, .prepareStart a, .ok (some handle), after⟩ →
    ∃ row, before a.key = some row ∧ row.handle = handle

/-- The row under a key had a run before an answer. -/
def RunBefore (key : RunKey) (e : TableEvent) : Prop := HasRun e.before key

theorem provisionDecision_none (h : provisionDecision row rowHandle = .ok none) :
    row.status = .provisioning ∧ handleNamesRun rowHandle = false := by
  unfold provisionDecision at h
  cases hstatus : row.status <;>
    simp only [hstatus, reduceCtorEq, or_self, or_true, true_or, if_true, if_false,
      Except.ok.injEq] at h
  cases hrun : handleNamesRun rowHandle with
  | false => exact ⟨rfl, rfl⟩
  | true => simp only [hrun, if_true, reduceCtorEq] at h

theorem provisionDecision_some (h : provisionDecision row rowHandle = .ok (some handle)) :
    handle = rowHandle ∧ (row.status = .provisioning → handleNamesRun rowHandle = true) := by
  unfold provisionDecision at h
  cases hstatus : row.status <;>
    simp only [hstatus, reduceCtorEq, or_self, or_true, true_or, if_true, if_false,
      Except.ok.injEq, some.injEq] at h
  · cases hrun : handleNamesRun rowHandle with
    | false => simp only [hrun, Bool.false_eq_true, if_false, reduceCtorEq] at h
    | true =>
      simp only [hrun, if_true, some.injEq] at h
      exact ⟨h.symm, fun _ => rfl⟩
  · exact ⟨h.symm, fun hfirst => by simp only [reduceCtorEq] at hfirst⟩
  · exact ⟨h.symm, fun hfirst => by simp only [reduceCtorEq] at hfirst⟩

theorem startDecision_none
    (h : startDecision row rowHandle = .ok none) : row.status.isStartable = true := by
  unfold startDecision at h
  cases hstatus : row.status <;>
    simp only [hstatus, reduceCtorEq, if_true, if_false, EngineRunPhase.isStartable,
      Bool.false_eq_true, Except.ok.injEq] at h ⊢

theorem startDecision_some
    (h : startDecision row rowHandle = .ok (some handle)) : handle = rowHandle := by
  unfold startDecision at h
  cases hstatus : row.status <;>
    simp only [hstatus, reduceCtorEq, if_true, if_false, EngineRunPhase.isStartable,
      Bool.false_eq_true, Except.ok.injEq, some.injEq] at h
  exact h.symm

/-- What is kept of the table by every answer: the handles are canonical, and the
    attempts that have a run keep it. -/
structure KeepsTable (rules : CredentialRules) (before after : EngineRuns) : Prop where
  canonical : CanonicalTable rules before → CanonicalTable rules after
  hasRun : ∀ key, HasRun before key → HasRun after key

theorem KeepsTable.refl (rules : CredentialRules) (runs : EngineRuns) : KeepsTable rules runs runs :=
  ⟨id, fun _ => id⟩

theorem ProvisionCommit.keeps
    (h : ProvisionCommit env runs after a values row bound) : KeepsTable env.rules runs after := by
  refine ⟨fun hruns => ?_, fun key hrun => ?_⟩
  · have hinserted := canonicalTable_insert hruns h.handle
    rw [h.after]
    exact canonicalTable_update _ hinserted (h.locked.keeps.1 (hinserted _ _ h.stored))
  · rw [h.after]
    exact hasRun_lock h.stored h.locked (hasRun_insert hrun)

theorem ProvisionCommit.recorded (h : ProvisionCommit env runs after a values row bound)
    (hnone : NamesNoRun a.handle) (hprov : Provisioned row) : runs a.key = some row := by
  have hstored := h.stored
  rcases normalizeScopeProvenance_same env values with ⟨hkey, hvalues, hhandle⟩
  rw [h.key] at hkey
  unfold insertReservation at hstored
  generalize values.normalizeScopeProvenance env = normalized at hstored hkey hvalues hhandle
  cases hruns : runs normalized.key with
  | some old =>
    simp only [hruns] at hstored
    exact hstored
  | none =>
    -- The row that was just inserted is in its first status and names no run.
    simp only [hruns] at hstored
    rw [hkey, update_self, some.injEq] at hstored
    have hstatus : row.status = .provisioning := by
      rw [← hstored]
      exact hvalues.trans h.status
    have hhandle : row.handle = values.handle := by
      rw [← hstored]
      exact hhandle
    rcases hprov with hlater | hrun
    · exact absurd hstatus hlater
    · rw [hhandle, h.noRun hnone] at hrun
      exact absurd hrun Bool.false_ne_true

theorem provision_keeps (env : ProjectionEnv) (s : Surroundings) (runs : EngineRuns)
    (a : ReservationArgs) : KeepsTable env.rules runs (prepareEngineProvision env s runs a).2 := by
  rcases prepareEngineProvision_cases env s runs a with ⟨hsame, _⟩ | ⟨_, _, _, _, _, hcommit, _⟩
  · rw [hsame]
    exact KeepsTable.refl _ _
  · exact hcommit.keeps

theorem start_keeps (env : ProjectionEnv) (s : Surroundings) (runs : EngineRuns)
    (a : ReservationArgs) : KeepsTable env.rules runs (prepareEngineStart env s runs a).2 := by
  rcases prepareEngineStart_cases env s runs a with
    ⟨hsame, _⟩ | ⟨row, bound, _, _, hrow, hlocked, hafter, _⟩
  · rw [hsame]
    exact KeepsTable.refl _ _
  · rw [hafter]
    exact ⟨fun hruns => canonicalTable_update _ hruns (hlocked.keeps.1 (hruns _ _ hrow)),
      fun key hrun => hasRun_lock hrow hlocked hrun⟩

theorem record_keeps (env : ProjectionEnv) (s : Surroundings) (runs : EngineRuns) {a : RecordArgs}
    (hstatus : a.status ≠ .provisioning) :
    KeepsTable env.rules runs (recordEngineRun env s runs a).2 := by
  rcases recordEngineRun_table env s runs a with hsame | ⟨values, _, hvalues, _, hhandle, hafter⟩
  · rw [hsame]
    exact KeepsTable.refl _ _
  · rw [hafter]
    refine ⟨fun hruns => canonicalTable_upsert hruns (canonicalHandle_of_validated hhandle),
      fun key hrun => hasRun_upsert ?_ hrun⟩
    rw [hvalues]
    exact hstatus

theorem respond_keeps {answer : r.Answer} (hr : fencedRequest r)
    (h : respond env lockedDown runs r answer after) : KeepsTable env.rules runs after := by
  cases r with
  | prepareProvision a =>
    rcases h with ⟨s, _, h⟩
    have hkeeps := provision_keeps env s runs a
    rw [h] at hkeeps
    exact hkeeps
  | prepareStart a =>
    rcases h with ⟨s, _, h⟩
    have hkeeps := start_keeps env s runs a
    rw [h] at hkeeps
    exact hkeeps
  | record a =>
    rcases h with ⟨s, _, h⟩
    have hkeeps := record_keeps env s runs hr
    rw [h] at hkeeps
    exact hkeeps
  | _ =>
    have hsame : after = runs := h
    rw [hsame]
    exact KeepsTable.refl _ _

section

variable (hruns : CanonicalTable env.rules runs)

include hruns

theorem provision_fenced
    (h : prepareEngineProvision env s runs a = (.ok none, after)) :
    (s.isLockedDown = false ∧ onDevelopmentConnection a = true) ∨
      ∃ row, after a.key = some row ∧ Fenced a row ∧ row.status = .provisioning ∧
        handleNamesRun row.handle = false ∧ ¬ HasRun runs a.key := by
  rcases prepareEngineProvision_cases env s runs a with
    ⟨_, hdev⟩ | ⟨values, row, bound, rowHandle, answered, hcommit, hread, hdecision, hanswer⟩
  · rw [h] at hdev
    exact Or.inl (hdev none rfl).2
  · rw [h] at hcommit hanswer
    right
    have hinserted := canonicalTable_insert hruns hcommit.handle
    have hrow := hinserted _ _ hcommit.stored
    rw [← hanswer none rfl] at hdecision
    rcases provisionDecision_none hdecision with ⟨hstatus, hrun⟩
    rw [hread hrow, ← hcommit.locked.binds.handle] at hrun
    have hbound : after a.key = some bound := by
      have hafter : after = _ := hcommit.after
      rw [hafter, update_self]
    refine ⟨bound, hbound, hcommit.locked.fenced hrow (by rw [hstatus]; rfl), hstatus, hrun,
      fun hhas => ?_⟩
    -- A run the row had would still be there under the lock.
    rcases hcommit.keeps.hasRun _ hhas with ⟨row', hrow', hprov⟩
    simp only at hrow'
    rw [hbound, some.injEq] at hrow'
    rw [← hrow'] at hprov
    rcases hprov with hlater | hnamed
    · exact hlater hstatus
    · rw [hrun] at hnamed
      exact Bool.false_ne_true hnamed

theorem start_fenced
    (h : prepareEngineStart env s runs a = (.ok none, after)) :
    (s.isLockedDown = false ∧ onDevelopmentConnection a = true) ∨
      ∃ row, after a.key = some row ∧ Fenced a row := by
  rcases prepareEngineStart_cases env s runs a with
    ⟨_, hdev⟩ | ⟨row, bound, rowHandle, answered, hrow, hlocked, hafter, _, hdecision, hanswer⟩
  · rw [h] at hdev
    exact Or.inl (hdev none rfl).2
  · rw [h] at hafter hanswer
    rw [← hanswer none rfl] at hdecision
    have hbound : after = Function.update runs a.key (some bound) := hafter
    refine Or.inr ⟨bound, ?_, hlocked.fenced (hruns _ _ hrow) (startDecision_none hdecision)⟩
    rw [hbound, update_self]

theorem provision_recovery (hnone : NamesNoRun a.handle)
    (h : prepareEngineProvision env s runs a = (.ok (some handle), after)) :
    ∃ row, runs a.key = some row ∧ row.handle = handle := by
  rcases prepareEngineProvision_cases env s runs a with
    ⟨_, hdev⟩ | ⟨values, row, bound, rowHandle, answered, hcommit, hread, hdecision, hanswer⟩
  · rw [h] at hdev
    exact absurd (hdev (some handle) rfl).1 (by simp only [reduceCtorEq, not_false_eq_true])
  · rw [h] at hcommit hanswer
    have hrow := canonicalTable_insert hruns hcommit.handle _ _ hcommit.stored
    rw [← hanswer (some handle) rfl] at hdecision
    rcases provisionDecision_some hdecision with ⟨hhandle, hrun⟩
    rw [hread hrow] at hhandle hrun
    rw [hcommit.locked.binds.status] at hrun
    refine ⟨row, hcommit.recorded hnone ?_, hhandle.symm⟩
    by_cases hfirst : row.status = .provisioning
    · exact Or.inr (hrun hfirst)
    · exact Or.inl hfirst

theorem start_recovery
    (h : prepareEngineStart env s runs a = (.ok (some handle), after)) :
    ∃ row, runs a.key = some row ∧ row.handle = handle := by
  rcases prepareEngineStart_cases env s runs a with
    ⟨_, hdev⟩ | ⟨row, bound, rowHandle, answered, hrow, hlocked, _, hread, hdecision, hanswer⟩
  · rw [h] at hdev
    exact absurd (hdev (some handle) rfl).1 (by simp only [reduceCtorEq, not_false_eq_true])
  · rw [h] at hanswer
    rw [← hanswer (some handle) rfl] at hdecision
    refine ⟨row, hrow, ?_⟩
    rw [startDecision_some hdecision, hread (hruns _ _ hrow)]

theorem respond_fenced {answer : r.Answer}
    (hr : fencedRequest r) (h : respond env lockedDown runs r answer after) :
    FencedEvent lockedDown ⟨runs, r, answer, after⟩ := by
  refine ⟨?_, ?_, ?_⟩
  · rintro before a after' heq
    cases heq
    rcases h with ⟨s, rfl, h⟩
    exact provision_fenced hruns h
  · rintro before a after' heq
    cases heq
    rcases h with ⟨s, rfl, h⟩
    exact start_fenced hruns h
  · rintro before a handle after' (heq | heq)
    · cases heq
      rcases h with ⟨s, _, h⟩
      exact provision_recovery hruns hr h
    · cases heq
      rcases h with ⟨s, _, h⟩
      exact start_recovery hruns h

end

theorem engineProvision_reserves {env : ExecutionEnv} {r : ProvisionRead}
    (hread : provisionRead env c = .ok r)
    (haffinity : checkpointedAffinity env c = .ok (.staged connectionId version persisted))
    (hstaged : isStaged env connectionId version persisted resolved = true)
    (hversion : (resolved.persisted && resolved.connectionVersion.isNone) = false)
    (hnamespace : engineArtifactNamespace env.toProjectionEnv r.spec.idempotencyKey
      = .ok artifactNamespace) :
    ∃ id next, engineProvision env c
        = .ask (.resolveEngine id c.cfg.trafficProjectId c.cfg.engine r.options) next ∧
      ∃ next', next (.ok resolved) = .ask (.prepareProvision (provisionReservation c r connectionId
        resolved.connectionVersion artifactNamespace)) next' := by
  unfold engineProvision
  rw [hread]
  simp only
  rw [haffinity]
  refine ⟨_, _, rfl, ?_⟩
  simp only [Program.bind, hstaged, hversion, Bool.not_true, Bool.false_eq_true, if_false]
  unfold reserveAndProvision
  rw [hnamespace]
  exact ⟨_, rfl⟩

theorem reservation_run {ι : Type} [DecidableEq ι] (i : ι) {env : ExecutionEnv} {r : ProvisionRead}
    {answer : Except ProjectionFailure (Option (Dict Json))} (hread : provisionRead env c = .ok r)
    (haffinity : checkpointedAffinity env c = .ok (.staged connectionId version persisted))
    (hstaged : isStaged env connectionId version persisted resolved = true)
    (hversion : (resolved.persisted && resolved.connectionVersion.isNone) = false)
    (hnamespace : engineArtifactNamespace env.toProjectionEnv r.spec.idempotencyKey
      = .ok artifactNamespace) (s : Surroundings) (hs : s.isLockedDown = lockedDown)
    (hanswer : prepareEngineProvision env.toProjectionEnv s runs (provisionReservation c r connectionId
      resolved.connectionVersion artifactNamespace) = (answer, after)) :
    ∃ (events : List TableEvent) (w : Workers EngineRuns ι EngineRequest EngineRequest.Answer
        (Except String Command)),
      Workers.Run (respond env.toProjectionEnv lockedDown) (runsExecutionNode env)
        ⟨runs, fun _ => engineProvision env c⟩ events w ∧ w.state = after ∧
      ⟨runs, .prepareProvision (provisionReservation c r connectionId resolved.connectionVersion
        artifactNamespace), answer, after⟩ ∈ events := by
  rcases engineProvision_reserves hread haffinity hstaged hversion hnamespace with
    ⟨id, next, hfirst, next', hsecond⟩
  have hstart : Workers.Run (respond env.toProjectionEnv lockedDown) (runsExecutionNode env)
      ⟨runs, fun _ : ι => engineProvision env c⟩ [] _ := Workers.Run.refl _
  have hresolve := Workers.Run.answer i _ next (.ok resolved) runs hstart hfirst rfl
  have hreserve := Workers.Run.answer i _ next' answer after hresolve
    (by simp only [update_self, hsecond]) ⟨s, hs, hanswer⟩
  exact ⟨_, _, hreserve, rfl, mem_append_right _ mem_cons_self⟩

/-- In every interleaving of any number of workers that replay the two nodes, each
    from any checkpoint and each dying between any two requests, a provider call is
    authorised only over a row that is fenced for it, and a recovered handle is the
    recorded one; and once a row has a run, no later provision of its attempt is
    authorised. A call on a synthetic connection of development is exempt. -/
theorem provider_calls_fenced {ι : Type} [DecidableEq ι] (env : ExecutionEnv) (lockedDown : Bool)
    {w w1 w2 : Workers EngineRuns ι EngineRequest EngineRequest.Answer (Except String Command)}
    {events later : List TableEvent}
    (hstarted : ∀ i, runsExecutionNode env (w.running i))
    (hcanonical : CanonicalTable env.rules w.state)
    (hrun : Workers.Run (respond env.toProjectionEnv lockedDown) (runsExecutionNode env) w events w1)
    (hlater : Workers.Run (respond env.toProjectionEnv lockedDown) (runsExecutionNode env) w1 later
      w2) :
    (∀ e ∈ events ++ later, FencedEvent lockedDown e) ∧
      ∀ key, HasRun w1.state key → ∀ before a after,
        (⟨before, .prepareProvision a, .ok none, after⟩ : TableEvent) ∈ later → a.key = key →
          lockedDown = false ∧ onDevelopmentConnection a = true := by
  have huses : ∀ p, runsExecutionNode env p → p.uses fencedRequest := by
    rintro p ⟨c, rfl | rfl⟩
    · exact engineProvision_uses env c
    · exact engineStart_uses env c
  have hfenced : ∀ runs r answer after, CanonicalTable env.rules runs → fencedRequest r →
      respond env.toProjectionEnv lockedDown runs r answer after →
      CanonicalTable env.rules after ∧ FencedEvent lockedDown ⟨runs, r, answer, after⟩ :=
    fun runs r answer after hruns hr h =>
      ⟨(respond_keeps hr h).canonical hruns, respond_fenced hruns hr h⟩
  rcases hrun.invariant huses hfenced (fun i => huses _ (hstarted i)) hcanonical with
    ⟨hcanonical1, huses1, hgood⟩
  rcases hlater.invariant huses hfenced huses1 hcanonical1 with ⟨_, _, hgood1⟩
  refine ⟨fun e he => ?_, fun key hhas before a after he hkey => ?_⟩
  · rcases mem_append.mp he with hearly | hlate
    · exact hgood e hearly
    · exact hgood1 e hlate
  · -- From here on the row has a run, before every answer.
    have hstep : ∀ runs r answer after, HasRun runs key → fencedRequest r →
        respond env.toProjectionEnv lockedDown runs r answer after →
        HasRun after key ∧ RunBefore key ⟨runs, r, answer, after⟩ :=
      fun runs r answer after hruns hr h => ⟨(respond_keeps hr h).hasRun key hruns, hruns⟩
    rcases hlater.invariant huses hstep huses1 hhas with ⟨_, _, hkept⟩
    rcases (hgood1 _ he).provision before a after rfl with hdev | ⟨_, _, _, _, _, hno⟩
    · exact hdev
    · rw [hkey] at hno
      exact absurd (hkept _ he) hno

/-- An environment in which every moment is written alike. -/
def sampleExecutionEnv : ExecutionEnv where
  toProjectionEnv := sampleProjectionEnv
  isoformat _ := "v"
  fromisoformat text := if text = "v" then some (0, true) else none

/-- A call with a staged connection, and its version if it is stored. -/
def sampleCall (connectionId : String) (version : Json) : NodeCall where
  cfg := { projectId := some "p", appId := some "a", engine := "e" }
  threadId := "t"
  isLockedDown := false
  utcnow := "n"
  newId := sampleSurroundings.newId
  state :=
    { phaseResults := Dict.single "execution" (updateOf 1
        [("load_test_spec", .ofDict (dictOf [("title", .str "l"), ("idempotency_key", .str "k")])),
          ("engine_connection_id", .str connectionId), ("engine_connection_version", version),
          ("engine_connection_persisted", .bool (version != .null)),
          ("engine_connection_affinity_staged", .bool true)])
      engineHandle := .null
      title := .null }

def sampleRead : ProvisionRead where
  attempt := 1
  threadId := "t"
  spec :=
    { idempotencyKey := "k", title := "l", scriptRefs := [], vusers := 10
      rampS := PyFloat.ofNat 5, durationS := PyFloat.ofNat 2, slas := ∅, targetEnvironment := none
      releaseId := none, mappingRevision := none }
  options := ∅

/-- Surroundings with one connection of the engine `e`. -/
def sampleRegistry : Surroundings :=
  { sampleSurroundings with
    connections := fun id => if id = "c" then some ⟨"execution_engine", "e", none, true, 0⟩ else none }

def sampleProvision (c : NodeCall) (connectionId : String) (version : Option Instant) :
    Except ProjectionFailure (Option (Dict Json)) × EngineRuns :=
  prepareEngineProvision sampleExecutionEnv.toProjectionEnv sampleRegistry (fun _ => none)
    (provisionReservation c sampleRead connectionId version "engine-runs/k")

theorem sampleProvision_stored :
    (sampleProvision (sampleCall "c" (.str "v")) "c" (some 0)).1 = .ok none := by decide +kernel

theorem sampleProvision_development :
    (sampleProvision (sampleCall "dev-e" .null) "dev-e" none).1 = .ok none ∧
      (sampleProvision (sampleCall "dev-e" .null) "dev-e" none).2 ("t", 1) = none := by
  decide +kernel

/-- Two workers start from the same checkpoint, and one gets its reservation. -/
theorem provider_calls_fenced_reserved :
    ∃ (events : List TableEvent) (w1 : Workers EngineRuns Bool EngineRequest EngineRequest.Answer
        (Except String Command)),
      (∃ a, ⟨fun _ => none, .prepareProvision a, .ok none, w1.state⟩ ∈ events) ∧
      (∀ e ∈ events ++ [], FencedEvent false e) ∧
        ∀ key, HasRun w1.state key → ∀ before a after,
          (⟨before, .prepareProvision a, .ok none, after⟩ : TableEvent) ∈ [] → a.key = key →
            false = false ∧ onDevelopmentConnection a = true := by
  have hread : provisionRead sampleExecutionEnv (sampleCall "c" (.str "v")) = .ok sampleRead := by
    decide +kernel
  have haffinity : checkpointedAffinity sampleExecutionEnv (sampleCall "c" (.str "v"))
      = .ok (.staged "c" (some "v") true) := by decide +kernel
  have hstaged : isStaged sampleExecutionEnv "c" (some "v") true ⟨"c", some 0, true, false⟩
      = true := by decide +kernel
  have hnamespace : engineArtifactNamespace sampleExecutionEnv.toProjectionEnv
      sampleRead.spec.idempotencyKey = .ok "engine-runs/k" := by decide +kernel
  rcases reservation_run false hread haffinity hstaged rfl hnamespace sampleRegistry rfl
    (Prod.ext sampleProvision_stored rfl) with ⟨events, w1, hrun, hstate, hmem⟩
  refine ⟨events, w1, ⟨provisionReservation (sampleCall "c" (.str "v")) sampleRead "c" (some 0)
    "engine-runs/k", ?_⟩, ?_⟩
  · rw [hstate]
    exact hmem
  · refine provider_calls_fenced sampleExecutionEnv false ?_ (canonicalTable_empty _) hrun
      (Workers.Run.refl _)
    intro i
    dsimp only
    exact runsExecutionNode_provision sampleExecutionEnv (sampleCall "c" (.str "v"))

/-- On a synthetic connection of development, two workers that start from the same
    checkpoint are both free to create the run: there is no row at all. -/
theorem development_provision_unfenced :
    ∃ (events : List TableEvent) (w1 : Workers EngineRuns Bool EngineRequest EngineRequest.Answer
        (Except String Command)) (a : ReservationArgs),
      Workers.Run (respond sampleProjectionEnv false) (runsExecutionNode sampleExecutionEnv)
        ⟨fun _ => none, fun _ => engineProvision sampleExecutionEnv (sampleCall "dev-e" .null)⟩
        events w1 ∧
      ⟨fun _ => none, .prepareProvision a, .ok none, w1.state⟩ ∈ events ∧ w1.state a.key = none := by
  have hread : provisionRead sampleExecutionEnv (sampleCall "dev-e" .null) = .ok sampleRead := by
    decide +kernel
  have haffinity : checkpointedAffinity sampleExecutionEnv (sampleCall "dev-e" .null)
      = .ok (.staged "dev-e" none false) := by decide +kernel
  have hstaged : isStaged sampleExecutionEnv "dev-e" none false ⟨"dev-e", none, false, false⟩
      = true := by decide +kernel
  have hnamespace : engineArtifactNamespace sampleExecutionEnv.toProjectionEnv
      sampleRead.spec.idempotencyKey = .ok "engine-runs/k" := by decide +kernel
  rcases reservation_run false hread haffinity hstaged rfl hnamespace sampleRegistry rfl
    (Prod.ext sampleProvision_development.1 rfl) with ⟨events, w1, hrun, hstate, hmem⟩
  refine ⟨events, w1, provisionReservation (sampleCall "dev-e" .null) sampleRead "dev-e" none
    "engine-runs/k", hrun, ?_, ?_⟩
  · rw [hstate]
    exact hmem
  · exact (congrFun hstate ("t", 1)).trans sampleProvision_development.2

end Apex.Services
