import Apex.Routers.CycleRows
import Apex.Theory.Cycles.Evolution
import Apex.Theory.Cycles.Seats

/-!
# What The Writers Of A Row Write

What is asked of the tables is told from what a worker has been told: the versions it writes
were computed from those of a row it has read, at the revision that row had, and the progress
it writes is that of the versions beside it. Only an archived preparation is not computed from
the row, and its revision is the one the call names.

Every row that is written is later than it was: its versions are still there, and where its
revision is as it was, so is the whole cycle.

## Main definitions

* `Computed`, `PreparedFrom`: What is computed from a row.
* `RowStep`: What a worker does to a row.
* `CycleRow.Later`: What becomes of a row.

## Theorems

* `RowStep.later`: A row that is written is later.
* `handleRow_follows`: The handlers keep the discipline.
-/

namespace Apex.Routers.CycleRows

open List
open Auth Domain Persistence

open Domain.CycleExecutions (PrepareExecution)

open Apex.Action hiding ask

abbrev RowCall := Option (ConsumerIdentity × RowJob)

/-- What an edit or a review makes of the versions of a row, at the revision it names. -/
inductive Computed (env : CyclesEnv) (call : RowCall) (row : TestCycle) : List Version → Prop
  | created {identity : ConsumerIdentity} {body : VersionCreate} {id createdAt : String}
      {v : Version} (hcall : call = some (identity, .createVersion row.id body))
      (hrevision : row.revision = body.expectedRevision)
      (hadd : addVersion env row.versions body identity.consumerId false id createdAt = .ok v) :
      Computed env call row (row.versions ++ [v])
  | reviewed {identity : ConsumerIdentity} {body : CycleAction} {time : String}
      {versions : List Version} (hcall : call = some (identity, .act row.id body))
      (hrevision : row.revision = body.expectedRevision)
      (htransition : transition env row.versions body identity.consumerId time
        row.independentReview = .ok versions) : Computed env call row versions

/-- What is prepared from a row, at the revision the call names. -/
def PreparedFrom (env : CyclesEnv) (call : RowCall) (row : TestCycle)
    (p : CycleExecutionPreparation) : Prop :=
  ∃ identity body context snapshot artifact,
    call = some (identity, .prepareExecution row.id body) ∧ p.cycleId = row.id ∧
      row.revision = body.expectedRevision ∧ prepared env row body context = .ok snapshot ∧
      p.snapshot = withStored snapshot artifact

inductive RowStep (env : CyclesEnv) (call : RowCall) (row : CycleRow) : CycleRow → Prop
  | same : RowStep env call row row
  | edited {versions : List Version} (h : Computed env call row.cycle versions) :
      RowStep env call row (row.edited versions (cycleProgress env versions))
  | prepared {p : CycleExecutionPreparation} (h : PreparedFrom env call row.cycle p) :
      RowStep env call row row.reserved
  | archived {identity : ConsumerIdentity} {preparationId : String}
      (hcall : call = some (identity,
        .archivePreparation row.cycle.id preparationId row.cycle.revision)) :
      RowStep env call row row.reserved
  | filled : RowStep env call row (row.filled (cycleProgress env row.cycle.versions))

structure CycleRow.Later (env : CyclesEnv) (row row' : CycleRow) : Prop where
  id : row'.cycle.id = row.cycle.id
  kept : Grown row.cycle.versions row'.cycle.versions
  revision : row.cycle.revision ≤ row'.cycle.revision
  same : row.cycle.revision = row'.cycle.revision → row'.cycle = row.cycle
  progress : row'.progress = some (cycleProgress env row'.cycle.versions) ∨
    (row'.cycle.versions = row.cycle.versions ∧ row'.progress = row.progress)

section Later

variable {env : CyclesEnv} {call : RowCall} {row row' : CycleRow}

theorem CycleRow.Later.refl (row : CycleRow) : CycleRow.Later env row row :=
  ⟨rfl, Extends.refl _, le_rfl, fun _ => rfl, Or.inr ⟨rfl, rfl⟩⟩

theorem CycleRow.Later.trans {row'' : CycleRow} (h : CycleRow.Later env row row')
    (h' : CycleRow.Later env row' row'') : CycleRow.Later env row row'' where
  id := h'.id.trans h.id
  kept := h.kept.trans h'.kept
  revision := h.revision.trans h'.revision
  same heq := by
    have hfirst := Nat.le_antisymm h.revision (heq ▸ h'.revision)
    exact (h'.same (hfirst.symm.trans heq)).trans (h.same hfirst)
  progress := by
    rcases h'.progress with hnew | ⟨hversions, hprogress⟩
    · exact Or.inl hnew
    · rcases h.progress with hcomputed | ⟨hversions', hprogress'⟩
      · exact Or.inl (by rw [hprogress, hversions, hcomputed])
      · exact Or.inr ⟨hversions.trans hversions', hprogress.trans hprogress'⟩

instance : Std.Refl (CycleRow.Later env) := ⟨CycleRow.Later.refl⟩

instance : IsTrans CycleRow (CycleRow.Later env) := ⟨fun _ _ _ => CycleRow.Later.trans⟩

theorem Computed.grown {c : TestCycle} {versions : List Version}
    (h : Computed env call c versions) :
    Grown c.versions versions := by
  cases h with
  | created _ _ _ => exact Extends.append _ _
  | reviewed _ _ htransition =>
    rcases transition_split htransition with ⟨before, target, after, hsplit, _, hcheck, rfl⟩
    rw [hsplit]
    exact Extends.change before after (evolved_reviewed hcheck)

theorem RowStep.later (h : RowStep env call row row') : CycleRow.Later env row row' := by
  cases h with
  | same => exact CycleRow.Later.refl row
  | edited h =>
    exact ⟨rfl, h.grown, Nat.le_succ _, fun heq => absurd heq (Nat.ne_of_lt (Nat.lt_succ_self _)),
      Or.inl rfl⟩
  | prepared h =>
    exact ⟨rfl, Extends.refl _, Nat.le_succ _,
      fun heq => absurd heq (Nat.ne_of_lt (Nat.lt_succ_self _)), Or.inr ⟨rfl, rfl⟩⟩
  | archived hcall =>
    exact ⟨rfl, Extends.refl _, Nat.le_succ _,
      fun heq => absurd heq (Nat.ne_of_lt (Nat.lt_succ_self _)), Or.inr ⟨rfl, rfl⟩⟩
  | filled => exact ⟨rfl, Extends.refl _, le_rfl, fun _ => rfl, Or.inl rfl⟩

end Later

/-- The call of a worker, the cycles it has read, and those it was told are written, with the
    revision they were written from. -/
structure RowSeat where
  call : RowCall
  rows : List TestCycle
  saved : List (Nat × TestCycle)

def RowSeat.allowed (env : CyclesEnv) (seat : RowSeat) : RowRequest → Prop
  | .saveVersions id revision versions progress => progress = cycleProgress env versions ∧
      ∃ row ∈ seat.rows, row.id = id ∧ row.revision = revision ∧ Computed env seat.call row versions
  | .savePreparation revision p =>
    ∃ row ∈ seat.rows, row.revision = revision ∧ PreparedFrom env seat.call row p
  | .saveArchive revision p =>
    ∃ identity, seat.call = some (identity, .archivePreparation p.cycleId p.id revision)
  | .saveProgress id revision progress =>
    ∃ row ∈ seat.rows, row.id = id ∧ row.revision = revision ∧
      progress = cycleProgress env row.versions
  | _ => True

def RowSeat.possible : (r : RowRequest) → r.Answer → Prop
  | .find _ id, some row => row.id = id
  | .preparation id preparationId, some p => p.cycleId = id ∧ p.id = preparationId
  | .saveVersions id _ _ _, .saved row => row.id = id
  | _, _ => True

def RowSeat.told (seat : RowSeat) : (r : RowRequest) → r.Answer → RowSeat
  | .find _ _, some row => { seat with rows := row :: seat.rows }
  | .histories _ _, rows => { seat with rows := rows ++ seat.rows }
  | .saveVersions _ revision _ _, .saved row => { seat with saved := (revision, row) :: seat.saved }
  | _, _ => seat

/-- What a worker may write, and what it is told. -/
def rowDiscipline (env : CyclesEnv) : Discipline RowRequest RowRequest.Answer RowSeat where
  allowed := RowSeat.allowed env
  possible _ r a := RowSeat.possible r a
  move := RowSeat.told

/-- The cycle that a call edits or reviews, and the revision it names. -/
def RowJob.edits : RowJob → Option (String × Nat)
  | .createVersion cycleId body => some (cycleId, body.expectedRevision)
  | .act cycleId body => some (cycleId, body.expectedRevision)
  | _ => none

/-- What an edit or a review that is successful returns: the cycle it has written. -/
def Shows (env : CyclesEnv) (seat : RowSeat) (reply : RowReply) : Prop :=
  ∀ identity job, seat.call = some (identity, job) → ∀ id revision,
    job.edits = some (id, revision) → ∃ row, (revision, row) ∈ seat.saved ∧ row.id = id ∧
      reply = .cycle (view env row (some identity))

section Follow

variable {env : CyclesEnv} {identity : ConsumerIdentity}

variable {seat : RowSeat} {cycleId : String}

theorem find_follows {α : Type} {ok : RowSeat → α → Prop} {f : TestCycle → RowHandler α}
    (h : ∀ row, row.id = cycleId → (f row).run.follows (rowDiscipline env) (whenOk ok)
      { seat with rows := row :: seat.rows }) :
    (find identity cycleId >>= f).run.follows (rowDiscipline env) (whenOk ok) seat := by
  refine bind_follows (m := fun after row => row.id = cycleId ∧
    after = { seat with rows := row :: seat.rows }) ?_ ?_
  · refine ask_bind_follows (d := rowDiscipline env) trivial fun a ha => ?_
    refine settle_follows fun row hrow => ?_
    rw [someOr_ok] at hrow
    subst hrow
    exact ⟨ha, rfl⟩
  · rintro after row ⟨hid, rfl⟩
    exact h row hid

theorem requireOperator_follows {α : Type} {ok : RowSeat → α → Prop} {f : Unit → RowHandler α}
    (h : (f ()).run.follows (rowDiscipline env) (whenOk ok) seat) :
    (requireOperator identity >>= f).run.follows (rowDiscipline env) (whenOk ok) seat :=
  raiseWhen_bind_follows fun _ => h

theorem saveVersions_follows {call : RowCall} {row : TestCycle} {revision : Nat}
    {versions : List Version} (hcall : seat.call = call) (hrow : row ∈ seat.rows)
    (hrevision : row.revision = revision) (h : Computed env call row versions) :
    (saveVersions env identity row.id revision versions).run.follows (rowDiscipline env)
      (whenOk fun after read => after.call = call ∧ ∃ saved, (revision, saved) ∈ after.saved ∧
        saved.id = row.id ∧ read = view env saved (some identity)) seat := by
  refine raiseWhen_bind_follows fun _ => ?_
  refine ask_bind_follows (d := rowDiscipline env) ⟨rfl, row, hrow, rfl, hrevision, ?_⟩
    fun answer hanswer => ?_
  · exact hcall ▸ h
  refine settle_bind_follows fun saved hsaved => ?_
  cases answer with
  | saved written =>
    cases hsaved
    exact whenOk_ok ⟨hcall, saved, mem_cons_self, hanswer, rfl⟩
  | conflict => cases hsaved
  | lost => cases hsaved

theorem createVersion_follows {body : VersionCreate}
    (hcall : seat.call = some (identity, .createVersion cycleId body)) :
    (createVersion env identity cycleId body).run.follows (rowDiscipline env)
      (whenOk fun after read => after.call = seat.call ∧
        ∃ saved, (body.expectedRevision, saved) ∈ after.saved ∧ saved.id = cycleId ∧
          read = view env saved (some identity)) seat := by
  refine requireOperator_follows (find_follows fun row hid => ?_)
  refine raiseWhen_bind_follows fun hrevision => ?_
  refine raiseWhen_bind_follows fun _ => ?_
  refine ask_bind_follows (d := rowDiscipline env) trivial fun id _ => ?_
  refine ask_bind_follows (d := rowDiscipline env) trivial fun createdAt _ => ?_
  refine settle_bind_follows fun v hv => ?_
  have hexpected := bne_eq_false_iff_eq.mp hrevision
  subst hid
  exact saveVersions_follows rfl mem_cons_self hexpected (.created hcall hexpected (refusal_ok hv))

theorem act_follows {body : CycleAction} (hcall : seat.call = some (identity, .act cycleId body)) :
    (act env identity cycleId body).run.follows (rowDiscipline env)
      (whenOk fun after read => after.call = seat.call ∧
        ∃ saved, (body.expectedRevision, saved) ∈ after.saved ∧ saved.id = cycleId ∧
          read = view env saved (some identity)) seat := by
  refine requireOperator_follows (find_follows fun row hid => ?_)
  refine raiseWhen_bind_follows fun hrevision => ?_
  refine ask_bind_follows (d := rowDiscipline env) trivial fun time _ => ?_
  refine settle_bind_follows fun versions hversions => ?_
  have hexpected := bne_eq_false_iff_eq.mp hrevision
  subst hid
  exact saveVersions_follows rfl mem_cons_self hexpected
    (.reviewed hcall hexpected (refusal_ok hversions))

/-- Nothing is promised of what is returned, but for whose call it was. -/
abbrev Returning {α : Type} (call : RowCall) : RowSeat → Except CycleError α → Prop :=
  whenOk fun after _ => after.call = call

theorem prepareExecution_follows {body : PrepareExecution}
    (hcall : seat.call = some (identity, .prepareExecution cycleId body)) :
    (prepareExecution env identity cycleId body).run.follows (rowDiscipline env)
      (Returning seat.call) seat := by
  refine requireOperator_follows (find_follows fun row hid => ?_)
  refine ask_bind_follows (d := rowDiscipline env) trivial fun existing _ => ?_
  cases existing with
  | some p => exact raiseWhen_bind_follows fun _ => pure_follows rfl
  | none =>
    refine raiseWhen_bind_follows fun hrevision => ?_
    refine ask_bind_follows (d := rowDiscipline env) trivial fun count _ => ?_
    refine raiseWhen_bind_follows fun _ => ?_
    refine ask_bind_follows (d := rowDiscipline env) trivial fun context _ => ?_
    refine settle_bind_follows fun snapshot hsnapshot => ?_
    refine ask_bind_follows (d := rowDiscipline env) trivial fun artifact _ => ?_
    refine ask_bind_follows (d := rowDiscipline env) trivial fun id _ => ?_
    have hexpected := bne_eq_false_iff_eq.mp hrevision
    subst hid
    refine ask_bind_follows (d := rowDiscipline env) ⟨row, mem_cons_self, hexpected,
      identity, body, context, snapshot, artifact, hcall, rfl, hexpected, hsnapshot, rfl⟩
      fun answer _ => ?_
    exact settle_bind_follows fun _ _ => pure_follows rfl

theorem archivePreparation_follows {preparationId : String} {expectedRevision : Nat}
    (hcall : seat.call = some (identity,
      .archivePreparation cycleId preparationId expectedRevision)) :
    (archivePreparation identity cycleId preparationId expectedRevision).run.follows
      (rowDiscipline env) (Returning seat.call) seat := by
  refine requireOperator_follows (find_follows fun row hid => ?_)
  refine ask_bind_follows (d := rowDiscipline env) trivial fun found hfound => ?_
  refine settle_bind_follows fun p hp => ?_
  rw [someOr_ok] at hp
  subst hp
  by_cases harchived : p.archivedAt.isSome = true
  · rw [if_pos harchived]
    exact pure_follows rfl
  · rw [if_neg harchived]
    refine ask_bind_follows (d := rowDiscipline env) trivial fun active _ => ?_
    refine raiseWhen_bind_follows fun _ => ?_
    refine ask_bind_follows (d := rowDiscipline env) trivial fun time _ => ?_
    refine ask_bind_follows (d := rowDiscipline env) ⟨identity, ?_⟩ fun answer _ => ?_
    · rw [hfound.1, hfound.2, hid]
      exact hcall
    · exact settle_bind_follows fun _ _ => pure_follows rfl

theorem fillHistories_follows {batch : List PageRow} {call : RowCall} :
    ∀ {histories : List TestCycle} {page : List PageRow} {seat : RowSeat}, seat.call = call →
      (∀ c ∈ histories, c ∈ seat.rows) →
        (fillHistories env batch histories page).run.follows (rowDiscipline env)
          (Returning call) seat
  | [], page, seat, hcall, _ => pure_follows hcall
  | history :: rest, page, seat, hcall, hrows => by
    have hrest : ∀ c ∈ rest, c ∈ seat.rows := fun c hc => hrows c (mem_cons_of_mem _ hc)
    rw [fillHistories]
    split
    · exact fillHistories_follows hcall hrest
    · refine ask_bind_follows (d := rowDiscipline env)
        ⟨history, hrows history mem_cons_self, rfl, rfl, rfl⟩ fun saved _ => ?_
      exact fillHistories_follows hcall hrest

theorem fillBatches_follows {call : RowCall} :
    ∀ {batches : List (List PageRow)} {page : List PageRow} {seat : RowSeat}, seat.call = call →
      (fillBatches env identity batches page).run.follows (rowDiscipline env) (Returning call) seat
  | [], page, seat, hcall => pure_follows hcall
  | batch :: rest, page, seat, hcall => by
    refine ask_bind_follows (d := rowDiscipline env) trivial fun histories _ => ?_
    refine bind_follows (fillHistories_follows hcall fun c hc => mem_append_left _ hc) ?_
    exact fun after _ hafter => fillBatches_follows hafter

theorem handleRow_follows (job : RowJob) :
    (handleRow env identity job).run.follows (rowDiscipline env) (whenOk (Shows env))
      ⟨some (identity, job), [], []⟩ := by
  cases job with
  | createVersion cycleId body =>
    refine map_follows (createVersion_follows rfl) ?_
    rintro after read ⟨hcall, saved, hsaved, hid, rfl⟩ _ _ hjob id revision hedits
    rw [hcall] at hjob
    cases hjob
    cases hedits
    exact ⟨saved, hsaved, hid, rfl⟩
  | act cycleId body =>
    refine map_follows (act_follows rfl) ?_
    rintro after read ⟨hcall, saved, hsaved, hid, rfl⟩ _ _ hjob id revision hedits
    rw [hcall] at hjob
    cases hjob
    cases hedits
    exact ⟨saved, hsaved, hid, rfl⟩
  | prepareExecution cycleId body =>
    refine map_follows (prepareExecution_follows rfl) ?_
    intro after read hcall _ _ hjob id revision hedits
    rw [hcall] at hjob
    cases hjob
    cases hedits
  | archivePreparation cycleId preparationId expectedRevision =>
    refine map_follows (archivePreparation_follows rfl) ?_
    intro after read hcall _ _ hjob id revision hedits
    rw [hcall] at hjob
    cases hjob
    cases hedits
  | fillMissingProgress page =>
    refine map_follows (fillBatches_follows rfl) ?_
    intro after read hcall _ _ hjob id revision hedits
    rw [hcall] at hjob
    cases hjob
    cases hedits

end Follow

end Apex.Routers.CycleRows
