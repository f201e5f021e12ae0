import Apex.Core.Talk
import Apex.Theory.CycleRows.Offers
import Apex.Theory.CycleRows.Seats
import Apex.Theory.Cycles.Executions

/-!
# Edits Are Serial

Any number of workers edit, review, prepare and list the same cycles. Every edit that is stored
was computed from the history that was stored at the revision it names, and the revision after
it is the next. So what one edit has written every later one starts from, and none is lost.

Progress is never stored but for the history beside it. A preparation, though, raises the
revision of a row without looking at its progress, and a row that was stored before there was
progress has none until a list fills it in.

## Main definitions

* `rowSystem`: The workers and the tables.
* `SerialRun`: What is told of an interleaving.

## Theorems

* `serialRun`: It is told of every interleaving.
* `offers_exact_edits_serial`: Offers are exact and edits are serial.
-/

namespace Apex.Routers.CycleRows

open List Option Function
open Auth Domain Persistence

open Domain.CycleExecutions (executionEnv preparedVersions sampleSnapshot ExecutionSnapshot)

open Apex.Action hiding ask

variable {ι : Type} [DecidableEq ι]

/-- The tables, and the call each worker was given last. -/
structure RowDesk (ι : Type) where
  store : RowStore
  calls : ι → RowCall

abbrev RowEvent (ι : Type) := System.Event (RowDesk ι) ι RowRequest RowRequest.Answer

/-- The tables answer the workers. A worker may be given a call at any moment. -/
def rowSystem (env : CyclesEnv) (ι : Type) [DecidableEq ι] :
    System (RowDesk ι) ι RowRequest RowRequest.Answer (Except CycleError RowReply) where
  respond _ w r a w' := w.store.Answers r a w'.store ∧ w'.calls = w.calls
  start i w p w' := ∃ identity job, p = (handleRow env identity job).run ∧
    w' = ⟨w.store, Function.update w.calls i (some (identity, job))⟩

def newDesk (ι : Type) (s : RowStore) : RowDesk ι := ⟨s, fun _ => none⟩

/-- What a worker does to the rows when it is answered. -/
def RowEvent.Steps (env : CyclesEnv) (e : RowEvent ι) : Prop :=
  List.Forall₂ (RowStep env (e.before.calls e.worker)) e.before.store.rows e.after.store.rows

/-- An edit or a review of a row is stored, from a revision. -/
def RowEvent.Edits (env : CyclesEnv) (e : RowEvent ι) (revision : Nat) (written : TestCycle) :
    Prop :=
  ∃ row ∈ e.before.store.rows, ∃ versions, row.cycle.revision = revision ∧
    Computed env (e.before.calls e.worker) row.cycle versions ∧
    row.edited versions (cycleProgress env versions) ∈ e.after.store.rows ∧
    written = (row.edited versions (cycleProgress env versions)).cycle

structure SerialRun (env : CyclesEnv) (s : RowStore) (events : List (RowEvent ι))
    (t : Team (RowDesk ι) ι RowRequest RowRequest.Answer (Except CycleError RowReply)) : Prop where
  /-- Every write was computed from the row as it was at that moment. -/
  steps : ∀ e ∈ events, e.Steps env
  /-- What one write has left every later one finds, or more. -/
  pairwise : events.Pairwise fun e e' =>
    List.Forall₂ (CycleRow.Later env) e.after.store.rows e'.before.store.rows
  /-- Nothing that was written is lost. -/
  kept : ∀ e ∈ events, List.Forall₂ (CycleRow.Later env) e.after.store.rows t.state.store.rows
  /-- What has become of the rows that were there at first. -/
  rows : List.Forall₂ (CycleRow.Later env) s.rows t.state.store.rows
  /-- An edit or a review that is successful was stored, from the revision it names. -/
  successful : ∀ i reply identity job, t.running i = some (.done (.ok reply)) →
    t.state.calls i = some (identity, job) → ∀ id revision, job.edits = some (id, revision) →
      ∃ e ∈ events, e.worker = i ∧ e.before.calls i = some (identity, job) ∧
        ∃ written, written.id = id ∧ e.Edits env revision written ∧
          reply = .cycle (view env written (some identity))

/-- A cycle that was read is that of the row, or the row is later. -/
def Known (env : CyclesEnv) (s : RowStore) (c : TestCycle) : Prop :=
  ∃ old cur, old.cycle = c ∧ cur ∈ s.rows ∧ CycleRow.Later env old cur

/-- What holds between the tables, the events and what the workers know. -/
structure Serial (env : CyclesEnv) (s : RowStore) (events : List (RowEvent ι)) (w : RowDesk ι)
    (places : ι → RowSeat) : Prop where
  ids : (w.store.rows.map fun row => row.cycle.id).Nodup
  calls : ∀ i, (places i).call = w.calls i
  known : ∀ i, ∀ c ∈ (places i).rows, Known env w.store c
  saved : ∀ i, ∀ pair ∈ (places i).saved, ∃ e ∈ events, e.worker = i ∧
    e.before.calls i = w.calls i ∧ e.Edits env pair.1 pair.2
  steps : ∀ e ∈ events, e.Steps env
  pairwise : events.Pairwise fun e e' =>
    List.Forall₂ (CycleRow.Later env) e.after.store.rows e'.before.store.rows
  kept : ∀ e ∈ events, List.Forall₂ (CycleRow.Later env) e.after.store.rows w.store.rows
  rows : List.Forall₂ (CycleRow.Later env) s.rows w.store.rows

section Writes

variable {env : CyclesEnv} {s s' : RowStore} {call : RowCall}

variable {revision : Nat} {id : String} {c : TestCycle} {r : RowRequest} {seat : RowSeat}

theorem change_steps {f : CycleRow → CycleRow}
    (h : ∀ row ∈ s.rows, row.cycle.id = id → row.cycle.revision = revision →
      RowStep env call row (f row)) :
    Forall₂ (RowStep env call) s.rows (s.change id revision f).rows := by
  rw [RowStore.change, forall₂_map_right_iff, forall₂_same]
  intro row hrow
  by_cases hcurrent : row.cycle.id = id ∧ row.cycle.revision = revision
  · rw [if_pos hcurrent]
    exact h row hrow hcurrent.1 hcurrent.2
  · rw [if_neg hcurrent]
    exact .same

theorem same_steps (s : RowStore) : Forall₂ (RowStep env call) s.rows s.rows :=
  forall₂_same.mpr fun _ _ => .same

theorem Known.eq (hids : (s.rows.map fun row => row.cycle.id).Nodup) (h : Known env s c)
    {row : CycleRow} (hrow : row ∈ s.rows) (hid : row.cycle.id = c.id)
    (hrevision : row.cycle.revision = c.revision) : row.cycle = c := by
  rcases h with ⟨old, cur, rfl, hcur, hlater⟩
  have heq : row = cur := inj_on_of_nodup_map hids hrow hcur (hid.trans hlater.id.symm)
  rw [heq] at hrevision ⊢
  exact hlater.same hrevision.symm

theorem known_of_mem (hc : c ∈ s.rows.map CycleRow.cycle) : Known env s c := by
  rcases List.mem_map.mp hc with ⟨row, hrow, rfl⟩
  exact ⟨row, row, rfl, hrow, CycleRow.Later.refl row⟩

theorem Known.later (h : Known env s c)
    (hrows : Forall₂ (CycleRow.Later env) s.rows s'.rows) : Known env s' c := by
  rcases h with ⟨old, cur, hold, hcur, hlater⟩
  rcases forall₂_mem hrows hcur with ⟨row, hrow, hnext⟩
  exact ⟨old, row, hold, hrow, hlater.trans hnext⟩

theorem steps_of_wrote {α : Type} {refused : Prop} {written : Option (RowStore × α)}
    {a : WriteAnswer α} (h : s.Wrote refused written a s')
    (hwritten : ∀ row, written = some (s', row) → Forall₂ (RowStep env call) s.rows s'.rows) :
    Forall₂ (RowStep env call) s.rows s'.rows := by
  cases a with
  | saved row => exact hwritten row h
  | conflict => rw [h.2]; exact same_steps s
  | lost =>
    rcases h with rfl | ⟨row, hrow⟩
    · exact same_steps s'
    · exact hwritten row hrow

theorem current?_some {row : CycleRow} (h : s.current? id revision = some row) :
    row ∈ s.rows ∧ row.cycle.id = id ∧ row.cycle.revision = revision := by
  have htest := find?_some h
  rw [Bool.and_eq_true, beq_iff_eq, beq_iff_eq] at htest
  exact ⟨mem_of_find?_eq_some h, htest⟩

theorem answers_steps (hids : (s.rows.map fun row => row.cycle.id).Nodup)
    (hknown : ∀ c ∈ seat.rows, Known env s c) {a : r.Answer} (hallowed : seat.allowed env r)
    (h : s.Answers r a s') :
    Forall₂ (RowStep env seat.call) s.rows s'.rows := by
  cases r with
  | saveVersions id revision versions progress =>
    rcases hallowed with ⟨rfl, c, hc, rfl, rfl, hcomputed⟩
    refine steps_of_wrote h fun row hwritten => ?_
    rcases map_eq_some_iff.mp hwritten with ⟨_, _, hpair⟩
    cases hpair
    refine change_steps fun row hrow hid hrevision => ?_
    have heq := (hknown c hc).eq hids hrow hid hrevision
    exact .edited (heq ▸ hcomputed)
  | savePreparation revision p =>
    rcases hallowed with ⟨c, hc, rfl, hprepared⟩
    have hcycle : p.cycleId = c.id := by
      rcases hprepared with ⟨_, _, _, _, _, _, hid, _⟩
      exact hid
    refine steps_of_wrote h fun row hwritten => ?_
    rw [RowStore.withPreparation] at hwritten
    split at hwritten
    · cases hwritten
    · rcases map_eq_some_iff.mp hwritten with ⟨_, _, hpair⟩
      cases hpair
      refine change_steps (f := CycleRow.reserved) fun row hrow hid hrevision => ?_
      have heq := (hknown c hc).eq hids hrow (hid.trans hcycle) hrevision
      exact .prepared (heq ▸ hprepared)
  | saveArchive revision p =>
    rcases hallowed with ⟨identity, hcall⟩
    refine steps_of_wrote h fun row hwritten => ?_
    rcases map_eq_some_iff.mp hwritten with ⟨_, _, hpair⟩
    cases hpair
    refine change_steps (f := CycleRow.reserved) fun row hrow hid hrevision => ?_
    rw [← hid, ← hrevision] at hcall
    exact .archived hcall
  | saveProgress id revision progress =>
    rcases hallowed with ⟨c, hc, rfl, rfl, rfl⟩
    cases a with
    | false => rw [h.2]; exact same_steps s
    | true =>
      rcases h.2 with rfl | rfl
      · refine change_steps fun row hrow hid hrevision => ?_
        rw [← (hknown c hc).eq hids hrow hid hrevision]
        exact .filled
      · exact same_steps s'
  | find identity id => rw [h.2]; exact same_steps s
  | preparationOf id key => rw [h.2]; exact same_steps s
  | preparationCount id => rw [h.2]; exact same_steps s
  | preparation id preparationId => rw [h.2]; exact same_steps s
  | histories identity ids => rw [h.2]; exact same_steps s
  | uuid4 => rw [show s' = s from h]; exact same_steps s
  | now => rw [show s' = s from h]; exact same_steps s
  | context cycle => rw [show s' = s from h]; exact same_steps s
  | scriptArtifact id snapshot => rw [show s' = s from h]; exact same_steps s
  | activeDispatch id => rw [show s' = s from h]; exact same_steps s

theorem answers_possible {a : r.Answer} (h : s.Answers r a s') :
    RowSeat.possible r a := by
  cases r with
  | find identity id =>
    cases a with
    | none => trivial
    | some c =>
      rcases filter_eq_some_iff.mp h.1.symm with ⟨hfind, _⟩
      have htest := find?_some hfind
      exact beq_iff_eq.mp htest
  | preparation id preparationId =>
    cases a with
    | none => trivial
    | some p =>
      have htest := find?_some h.1.symm
      rw [Bool.and_eq_true, beq_iff_eq, beq_iff_eq] at htest
      exact ⟨htest.2, htest.1⟩
  | saveVersions id revision versions progress =>
    cases a with
    | saved c =>
      rcases map_eq_some_iff.mp h with ⟨row, hrow, hpair⟩
      cases hpair
      exact (current?_some hrow).2.1
    | conflict => trivial
    | lost => trivial
  | _ => trivial

theorem told_known (hknown : ∀ c ∈ seat.rows, Known env s c) {a : r.Answer} (h : s.Answers r a s')
    (hrows : Forall₂ (CycleRow.Later env) s.rows s'.rows) :
    ∀ c ∈ (seat.told r a).rows, Known env s' c := by
  have hold : ∀ c ∈ seat.rows, Known env s' c := fun c hc => (hknown c hc).later hrows
  cases r with
  | find identity id =>
    cases a with
    | none => exact hold
    | some found =>
      intro c hc
      rcases mem_cons.mp hc with rfl | hc
      · rcases filter_eq_some_iff.mp h.1.symm with ⟨hfind, _⟩
        exact (known_of_mem (mem_of_find?_eq_some hfind)).later hrows
      · exact hold c hc
  | histories identity ids =>
    intro c hc
    rcases mem_append.mp hc with hnew | hc
    · have hmem := h.1.mem_iff.mp hnew
      exact (known_of_mem (mem_of_mem_filter hmem)).later hrows
    · exact hold c hc
  | saveVersions id revision versions progress =>
    cases a with
    | saved c => exact hold
    | conflict => exact hold
    | lost => exact hold
  | _ => exact hold

theorem told_call (seat : RowSeat) (r : RowRequest) (a : r.Answer) :
    (seat.told r a).call = seat.call := by
  cases r with
  | find identity id => cases a <;> rfl
  | saveVersions id revision versions progress => cases a <;> rfl
  | _ => rfl

theorem saved_edits (hids : (s.rows.map fun row => row.cycle.id).Nodup)
    (hknown : ∀ c ∈ seat.rows, Known env s c) {versions : List Version} {progress : CycleProgress}
    (hallowed : seat.allowed env (.saveVersions id revision versions progress))
    (h : s.withVersions id revision versions progress = some (s', c)) :
    ∃ row ∈ s.rows, ∃ versions, row.cycle.revision = revision ∧
      Computed env seat.call row.cycle versions ∧
      row.edited versions (cycleProgress env versions) ∈ s'.rows ∧
      c = (row.edited versions (cycleProgress env versions)).cycle := by
  rcases hallowed with ⟨rfl, read, hread, rfl, rfl, hcomputed⟩
  rcases map_eq_some_iff.mp h with ⟨row, hcurrent, hpair⟩
  cases hpair
  rcases current?_some hcurrent with ⟨hrow, hid, hrevision⟩
  have heq := (hknown read hread).eq hids hrow hid hrevision
  refine ⟨row, hrow, versions, hrevision, heq ▸ hcomputed, ?_, rfl⟩
  exact List.mem_map.mpr ⟨row, hrow, if_pos ⟨hid, hrevision⟩⟩

end Writes

section Runs

variable {env : CyclesEnv} {s : RowStore} {events : List (RowEvent ι)} {w w' : RowDesk ι}
  {places : ι → RowSeat} {i : ι}

theorem Serial.given (h : Serial env s events w places) (identity : ConsumerIdentity)
    (job : RowJob) :
    Serial env s events ⟨w.store, Function.update w.calls i (some (identity, job))⟩
      (Function.update places i ⟨some (identity, job), [], []⟩) := by
  refine ⟨h.ids, fun j => ?_, fun j c hc => ?_, fun j pair hpair => ?_, h.steps, h.pairwise, h.kept,
    h.rows⟩
  · by_cases hj : j = i
    · subst hj
      rw [update_self]
      exact (update_self j _ w.calls).symm
    · rw [update_of_ne hj]
      exact (h.calls j).trans (update_of_ne hj _ w.calls).symm
  · by_cases hj : j = i
    · subst hj
      rw [update_self] at hc
      exact absurd hc not_mem_nil
    · rw [update_of_ne hj] at hc
      exact h.known j c hc
  · by_cases hj : j = i
    · subst hj
      rw [update_self] at hpair
      exact absurd hpair not_mem_nil
    · rw [update_of_ne hj] at hpair
      rcases h.saved j pair hpair with ⟨e, he, hworker, hcall, hedits⟩
      exact ⟨e, he, hworker, hcall.trans (update_of_ne hj _ w.calls).symm, hedits⟩

omit [DecidableEq ι] in
theorem Serial.told_saved (h : Serial env s events w places) {r : RowRequest} {a : r.Answer}
    (hallowed : (places i).allowed env r) (hresp : w.store.Answers r a w'.store)
    (hcalls : w'.calls = w.calls) : ∀ pair ∈ ((places i).told r a).saved,
      ∃ e ∈ events ++ [⟨i, w, r, a, w'⟩], e.worker = i ∧ e.before.calls i = w'.calls i ∧
        RowEvent.Edits env e pair.1 pair.2 := by
  have hold : ∀ pair ∈ (places i).saved, ∃ e ∈ events ++ [⟨i, w, r, a, w'⟩], e.worker = i ∧
      e.before.calls i = w'.calls i ∧ RowEvent.Edits env e pair.1 pair.2 := by
    intro pair hpair
    rcases h.saved i pair hpair with ⟨e, he, hworker, hcall, hedits⟩
    exact ⟨e, mem_append_left _ he, hworker, hcalls ▸ hcall, hedits⟩
  cases r with
  | saveVersions id revision versions progress =>
    cases a with
    | saved c =>
      intro pair hpair
      rcases mem_cons.mp hpair with rfl | hpair
      · refine ⟨_, mem_append_right _ mem_cons_self, rfl, congrFun hcalls.symm i, ?_⟩
        have hedits := saved_edits h.ids (h.known i) hallowed hresp
        rw [h.calls i] at hedits
        exact hedits
      · exact hold pair hpair
    | conflict => exact hold
    | lost => exact hold
  | find identity id => cases a <;> exact hold
  | _ => exact hold

theorem Serial.answered (h : Serial env s events w places) {r : RowRequest} {a : r.Answer}
    (hallowed : (places i).allowed env r) (hresp : w.store.Answers r a w'.store)
    (hcalls : w'.calls = w.calls) :
    Serial env s (events ++ [⟨i, w, r, a, w'⟩]) w'
      (Function.update places i ((places i).told r a)) := by
  have hsteps := answers_steps h.ids (h.known i) hallowed hresp
  have hlater : Forall₂ (CycleRow.Later env) w.store.rows w'.store.rows :=
    hsteps.imp fun _ _ hstep => hstep.later
  have hids : w'.store.rows.map (fun row => row.cycle.id) =
      w.store.rows.map fun row => row.cycle.id := by
    have hall : Forall₂ (fun x y => x = y) (w.store.rows.map fun row => row.cycle.id)
        (w'.store.rows.map fun row => row.cycle.id) := by
      rw [forall₂_map_left_iff, forall₂_map_right_iff]
      exact hlater.imp fun _ _ hrow => hrow.id.symm
    exact (forall₂_eq_eq_eq ▸ hall).symm
  have hevent : RowEvent.Steps env (⟨i, w, r, a, w'⟩ : RowEvent ι) := by
    rw [h.calls i] at hsteps
    exact hsteps
  refine ⟨hids ▸ h.ids, fun j => ?_, fun j c hc => ?_, fun j pair hpair => ?_, ?_, ?_, ?_,
    forall₂_trans h.rows hlater⟩
  · by_cases hj : j = i
    · subst hj
      rw [update_self, told_call, h.calls j, hcalls]
    · rw [update_of_ne hj, h.calls j, hcalls]
  · by_cases hj : j = i
    · subst hj
      rw [update_self] at hc
      exact told_known (h.known j) hresp hlater c hc
    · rw [update_of_ne hj] at hc
      exact (h.known j c hc).later hlater
  · by_cases hj : j = i
    · subst hj
      rw [update_self] at hpair
      exact h.told_saved hallowed hresp hcalls pair hpair
    · rw [update_of_ne hj] at hpair
      rcases h.saved j pair hpair with ⟨e, he, hworker, hcall, hedits⟩
      exact ⟨e, mem_append_left _ he, hworker, hcalls ▸ hcall, hedits⟩
  · intro e he
    rcases mem_append.mp he with he | he
    · exact h.steps e he
    · rw [mem_singleton.mp he]
      exact hevent
  · refine pairwise_append.mpr ⟨h.pairwise, pairwise_singleton _ _, fun e he e' he' => ?_⟩
    rw [mem_singleton.mp he']
    exact h.kept e he
  · intro e he
    rcases mem_append.mp he with he | he
    · exact forall₂_trans (h.kept e he) hlater
    · rw [mem_singleton.mp he]
      exact forall₂_self w'.store.rows

theorem serialRun {t : Team (RowDesk ι) ι RowRequest RowRequest.Answer (Except CycleError RowReply)}
    (hids : (s.rows.map fun row => row.cycle.id).Nodup)
    (hrun : (rowSystem env ι).Run (newDesk ι s) events t) : SerialRun env s events t := by
  have hinit : Serial env s [] (newDesk ι s) fun _ => ⟨none, [], []⟩ :=
    ⟨hids, fun _ => rfl, fun _ _ hc => absurd hc not_mem_nil,
      fun _ _ hpair => absurd hpair not_mem_nil, fun _ he => absurd he not_mem_nil,
      Pairwise.nil, fun _ he => absurd he not_mem_nil, forall₂_self s.rows⟩
  have hinv := @System.Run.invariant _ _ _ _ _ _ _ _ (rowDiscipline env) (whenOk (Shows env))
    (Serial env s) _ _ hinit ?_ ?_ _ _ hrun
  · rcases hinv with ⟨places, hserial, hfollows⟩
    refine ⟨hserial.steps, hserial.pairwise, hserial.kept, hserial.rows,
      fun i reply identity job hdone hcall id revision hedits => ?_⟩
    have hshows := hfollows i _ hdone reply rfl
    rcases hshows identity job ((hserial.calls i).trans hcall) id revision hedits with
      ⟨row, hsaved, hid, hreply⟩
    rcases hserial.saved i _ hsaved with ⟨e, he, hworker, hcalls, hwritten⟩
    exact ⟨e, he, hworker, hcalls.trans hcall, row, hid, hwritten, hreply⟩
  · rintro events w places i p w' h ⟨identity, job, rfl, rfl⟩
    exact ⟨⟨some (identity, job), [], []⟩, handleRow_follows job, h.given identity job⟩
  · intro events w places i r a w' h hallowed hresp
    exact ⟨answers_possible hresp.1, h.answered hallowed hresp.1 hresp.2⟩

end Runs

/-- Whoever is an operator is offered exactly the reviews of a version that are accepted, and one
    of archiving and restoring, which always are; nobody else is offered anything. And in every
    interleaving the edits are serial. -/
theorem offers_exact_edits_serial (env : CyclesEnv) :
    (∀ (row : TestCycle), SourceHistory env row.versions → ∀ v ∈ row.versions,
      (∀ (actor : ConsumerIdentity) (a : CycleAction) (time : String),
        actor.role.atLeast .operator = true → a.versionId = v.id →
          ((∃ versions', transition env row.versions a actor.consumerId time row.independentReview
              = .ok versions') ↔
            a.action ∈ (versionView env row v (some actor)).availableActions
              ∨ a.action = .archive ∨ a.action = .restore)) ∧
      (∀ actor : ConsumerIdentity, actor.role.atLeast .operator = true →
        (.archive ∈ (versionView env row v (some actor)).availableActions ↔ v.archived = false) ∧
        (.restore ∈ (versionView env row v (some actor)).availableActions ↔ v.archived = true)) ∧
      (∀ actor : ConsumerIdentity, actor.role.atLeast .operator = false →
        (versionView env row v (some actor)).availableActions = []) ∧
      (versionView env row v none).availableActions = []) ∧
    ∀ (ι : Type) [DecidableEq ι] (s : RowStore) (events : List (RowEvent ι))
      (t : Team (RowDesk ι) ι RowRequest RowRequest.Answer (Except CycleError RowReply)),
      (s.rows.map fun row => row.cycle.id).Nodup →
        (rowSystem env ι).Run (newDesk ι s) events t → SerialRun env s events t := by
  refine ⟨fun row hrow v hv => ⟨fun actor a time hrole ha => ?_, fun actor hrole => ?_,
    fun actor hrole => ?_, rfl⟩, fun ι _ s events t hids hrun => serialRun hids hrun⟩
  · exact offered_iff_accepted hrow.sound hv hrole ha time
  · exact ⟨archive_offered hrole, restore_offered hrole⟩
  · exact if_neg (hrole ▸ Bool.false_ne_true)

theorem written_or_first {env : CyclesEnv} {s : RowStore} {events : List (RowEvent ι)}
    {t : Team (RowDesk ι) ι RowRequest RowRequest.Answer (Except CycleError RowReply)}
    {P : CycleRow → Prop} (hrun : (rowSystem env ι).Run (newDesk ι s) events t)
    (h : ∀ e ∈ events, ∀ row ∈ e.after.store.rows, row ∉ e.before.store.rows → P row) :
    ∀ row ∈ t.state.store.rows, row ∈ s.rows ∨ P row := by
  induction hrun with
  | idle => exact fun row hrow => Or.inl hrow
  | @answer events t i r next a w hrun hask hresp ih =>
    have hbefore := ih fun e he => h e (mem_append_left _ he)
    intro row hrow
    by_cases hthere : row ∈ t.state.store.rows
    · exact hbefore row hthere
    · exact Or.inr (h _ (mem_append_right _ mem_cons_self) row hrow hthere)
  | start _ hstart ih =>
    rcases hstart with ⟨_, _, _, rfl⟩
    exact ih h

theorem archivePreparation_converses {identity : ConsumerIdentity}
    {cycleId preparationId : String} {revision : Nat} {row : TestCycle}
    {p saved : CycleExecutionPreparation} {time : Timestamp}
    (hrole : identity.role.atLeast .operator = true) (hp : p.archivedAt = none) :
    (archivePreparation identity cycleId preparationId revision).run.converses
      [⟨.find identity cycleId, some row⟩, ⟨.preparation row.id preparationId, some p⟩,
        ⟨.activeDispatch p.id, false⟩, ⟨.now, time⟩,
        ⟨.saveArchive revision
          { p with archivedAt := some time.text, archivedBy := some identity.consumerId },
          .saved saved⟩] (.done (.ok ⟨saved.id, revision + 1⟩)) := by
  refine raiseWhen_converses (by rw [hrole]; rfl) ⟨_, rfl, ?_⟩
  refine ask_converses (settle_converses (someOr_ok.mpr rfl) ?_)
  rw [if_neg (by rw [hp]; exact Bool.false_ne_true)]
  refine ask_converses (raiseWhen_converses rfl (ask_converses (ask_converses ?_)))
  exact settle_converses rfl rfl

/-- A cycle that was stored before there was progress, at a revision. -/
def legacyRow (revision : Nat) : CycleRow where
  cycle := {
    id := "c1"
    name := "Spring"
    projectId := "shop"
    appId := "web"
    environmentId := "test"
    mode := .simulation
    owner := "ann"
    revision := revision
    independentReview := true
    versions := preparedVersions
    originCycleId := none
    originRequestKey := none
    originFingerprint := none }
  progress := none

def legacyPreparation (snapshot : ExecutionSnapshot) (archived : Option String) :
    CycleExecutionPreparation where
  id := "e1"
  cycleId := "c1"
  idempotencyKey := "prepare"
  requestFingerprint := "76d7fe40d1922745fbef51bfbadb84b8349bd4beb333355fea993d78feae6c8c"
  snapshot := snapshot
  createdBy := "ann"
  archivedAt := archived
  archivedBy := archived.map fun _ => "lead"

def legacyStore (snapshot : ExecutionSnapshot) (revision : Nat) (archived : Option String) :
    RowStore :=
  ⟨[legacyRow revision], [legacyPreparation snapshot archived]⟩

def lead : ConsumerIdentity := ⟨"lead", "Lead", .dashboard, .admin, []⟩

def archiveTime : Timestamp := ⟨0, "2026-01-02T12:00:00+00:00"⟩

/-- The call that archives the preparation, and how it is answered. -/
def archiveJob : RowJob := .archivePreparation "c1" "e1" 8

def archiveTalk (snapshot : ExecutionSnapshot) : List ((r : RowRequest) × r.Answer) :=
  [⟨.find lead "c1", some (legacyRow 8).cycle⟩,
    ⟨.preparation "c1" "e1", some (legacyPreparation snapshot none)⟩,
    ⟨.activeDispatch "e1", false⟩, ⟨.now, archiveTime⟩,
    ⟨.saveArchive 8 (legacyPreparation snapshot (some archiveTime.text)),
      .saved (legacyPreparation snapshot (some archiveTime.text))⟩]

/-- A preparation of a row without progress is archived. The revision of the row is raised, and
    it has no progress still. -/
theorem progress_missing :
    ¬ ∀ (s : RowStore) (events : List (RowEvent Unit))
      (t : Team (RowDesk Unit) Unit RowRequest RowRequest.Answer (Except CycleError RowReply)),
      (s.rows.map fun row => row.cycle.id).Nodup →
        (rowSystem executionEnv Unit).Run (newDesk Unit s) events t →
        ∀ e ∈ events, ∀ row ∈ e.after.store.rows, row ∉ e.before.store.rows →
          row.progress = some (cycleProgress executionEnv row.cycle.versions) := by
  intro h
  have hok : sampleSnapshot.isOk = true := by decide +kernel
  rcases hsnapshot : sampleSnapshot with _ | snapshot
  · rw [hsnapshot] at hok
    exact Bool.noConfusion hok
  have hidle : (rowSystem executionEnv Unit).Run (newDesk Unit (legacyStore snapshot 8 none)) []
      ⟨newDesk Unit (legacyStore snapshot 8 none), Function.update (fun _ => none) () none⟩ := by
    rw [Function.update_eq_self]
    exact .idle
  let asked : RowDesk Unit := ⟨legacyStore snapshot 8 none, fun _ => some (lead, archiveJob)⟩
  let after : RowDesk Unit :=
    ⟨legacyStore snapshot 9 (some archiveTime.text), fun _ => some (lead, archiveJob)⟩
  have hstart : (rowSystem executionEnv Unit).start ()
      (newDesk Unit (legacyStore snapshot 8 none)) (handleRow executionEnv lead archiveJob).run
      asked :=
    ⟨lead, archiveJob, rfl, congrArg (RowDesk.mk _) (funext fun _ => rfl)⟩
  have htalk : (archivePreparation lead "c1" "e1" 8).run.converses (archiveTalk snapshot)
      (.done (.ok ⟨"e1", 9⟩)) := archivePreparation_converses rfl rfl
  have hhears : (rowSystem executionEnv Unit).Hears () asked (archiveTalk snapshot) after :=
    ⟨asked, ⟨⟨rfl, rfl⟩, rfl⟩, asked, ⟨⟨rfl, rfl⟩, rfl⟩, asked, ⟨rfl, rfl⟩, asked, ⟨rfl, rfl⟩,
      after, ⟨rfl, rfl⟩, rfl⟩
  rcases hidle.call hstart (map_converses htalk) hhears with ⟨later, hrun, -⟩
  have hids : ((legacyStore snapshot 8 none).rows.map fun row => row.cycle.id).Nodup :=
    nodup_singleton _
  have hwritten := written_or_first hrun (h _ _ _ hids hrun) (legacyRow 9) mem_cons_self
  rcases hwritten with hfirst | hprogress
  · have heq := congrArg (fun row => row.cycle.revision) (mem_singleton.mp hfirst)
    exact absurd heq (by decide)
  · exact absurd hprogress.symm (some_ne_none _)

end Apex.Routers.CycleRows
