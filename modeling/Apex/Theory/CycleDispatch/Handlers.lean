import Apex.Routers.CycleDispatch
import Apex.Theory.Launches.Hook

/-!
# What A Handler Of A Dispatch Knows

The calls around a dispatch, walked through once. The status of a row is only ever
compared and set from one that is not terminal; a row is inserted with its
environment and without a thread; a run for a dispatch is created only after the
thread was bound to it in the same call; and the check of a binding succeeds only
on a row that was read in that call.

## Main definitions

* `DispatchSeat`: What a worker knows.
* `dispatchDiscipline`: What it may ask, and what it learns.

## Theorems

* `action_follows`: Every call follows the discipline.
-/

namespace Apex.Routers

open Graphs Services Program

open Apex.Action hiding ask

/-- What a worker knows: its call and the number of it, the dispatch whose thread it has
    bound, and the row it has read for a binding. -/
structure DispatchSeat where
  call : Option (DispatchCall × Nat)
  bound : Option String
  read : Option CycleDispatch

namespace DispatchSeat

def allowed (l : DispatchSeat) : DispatchRequest → Prop
  | .syncStatus _ before _ => before.isTerminal = false
  | .insert row => row.status = .reserved ∧ row.activeEnvironmentId.isSome = true ∧
      row.threadId = none ∧ row.canceledBy = none
  | .launch id r => r.createsRun = true → l.bound = some id
  | _ => True

def possible : (r : DispatchRequest) → r.Answer → Prop
  | .bindingRow id, a => ∀ row, a = .ok (some row) → row.id = id
  | _, _ => True

def move (l : DispatchSeat) : (r : DispatchRequest) → r.Answer → DispatchSeat
  | .launch id (.beforeRunStart _ _), .ok _ => { l with bound := some id }
  | .bindingRow _, .ok (some row) => { l with read := some row }
  | _, _ => l

/-- What a finished call promises: a binding is of a row that was read, still owned its
    environment, and named the thread, and the attempt is the first. -/
def returned (l : DispatchSeat) : DispatchResult → Prop
  | .workspace _ => True
  | .binding _ _ => ∃ cfg threadId attempt readSource number row,
      l.call = some (.load cfg threadId attempt readSource, number) ∧ attempt = 1 ∧
        l.read = some row ∧ cfg.cycleDispatchId = some row.id ∧ row.threadId = some threadId ∧
        row.activeEnvironmentId.isSome = true

end DispatchSeat

def dispatchDiscipline : Discipline DispatchRequest DispatchRequest.Answer DispatchSeat where
  allowed := DispatchSeat.allowed
  possible _ := DispatchSeat.possible
  move := DispatchSeat.move

/-- Nothing is promised of how a part of a handler ends. -/
abbrev Whatever {α : Type} : DispatchSeat → Except DispatchError α → Prop :=
  either (fun _ _ => True) fun _ _ => True

section Parts

variable {l : DispatchSeat}

theorem settle_whatever {α : Type} {x : Except DispatchError α} :
    (settle x : DispatchAction α).run.follows dispatchDiscipline Whatever l :=
  settle_either (fun _ _ => trivial) fun _ _ => trivial

theorem raiseWhen_whatever {bad : Bool} {error : DispatchError} :
    (raiseWhen bad error : DispatchAction Unit).run.follows dispatchDiscipline Whatever l :=
  raiseWhen_either (fun _ => trivial) fun _ => trivial

variable {row : CycleDispatch} {cycleId preparationId : String} {caller : DispatchCaller}
  {body : DispatchBody} {env : DispatchEnv}

theorem engineOf_follows :
    (engineOf row).run.follows dispatchDiscipline Whatever l := by
  unfold engineOf
  cases row.threadId with
  | none => exact trivial
  | some threadId => exact ask_bind_follows trivial fun _ _ => settle_whatever

variable {pipeline : Bool} {id : String}

theorem syncedStatus_follows {engine : Option EngineRun} :
    (syncedStatus row engine pipeline).run.follows dispatchDiscipline Whatever l := by
  unfold syncedStatus
  cases engine with
  | some engine => exact trivial
  | none =>
    cases row.threadId with
    | none => exact trivial
    | some threadId =>
      cases pipeline with
      | false => exact trivial
      | true =>
        refine ask_bind_follows trivial fun a _ => ?_
        cases a with
        | ok view => exact trivial
        | error e => cases e <;> exact trivial

theorem syncDispatch_follows :
    (syncDispatch row pipeline).run.follows dispatchDiscipline Whatever l := by
  refine bind_either engineOf_follows fun l engine _ => ?_
  cases hterminal : row.status.isTerminal with
  | true => exact trivial
  | false =>
    refine bind_either syncedStatus_follows fun l status _ => ?_
    by_cases hsame : (status == row.status) = true
    · rw [if_pos hsame]
      exact trivial
    · rw [if_neg hsame]
      refine ask_bind_follows hterminal fun a _ => bind_either settle_whatever fun l _ _ => ?_
      refine ask_bind_follows trivial fun a _ => bind_either settle_whatever fun l _ _ => ?_
      exact trivial

theorem currentRow_follows :
    (currentRow cycleId preparationId).run.follows dispatchDiscipline Whatever l := by
  refine ask_bind_follows trivial fun a _ => bind_either settle_whatever fun l found _ => ?_
  cases found with
  | none => exact trivial
  | some row => exact map_either syncDispatch_follows fun _ _ _ => trivial

theorem environmentOccupied_follows {environmentId : String} :
    (environmentOccupied environmentId preparationId).run.follows dispatchDiscipline Whatever l := by
  refine ask_bind_follows trivial fun a _ => bind_either settle_whatever fun l found _ => ?_
  cases found with
  | none => exact trivial
  | some row => exact bind_either syncDispatch_follows fun _ _ _ => trivial

theorem workspace_follows :
    (workspace caller cycleId preparationId).run.follows dispatchDiscipline Whatever l := by
  refine ask_bind_follows trivial fun a _ => bind_either settle_whatever fun l ctx _ => ?_
  refine bind_either currentRow_follows fun l current _ => ?_
  exact bind_either environmentOccupied_follows fun _ _ _ => trivial

theorem readDispatch_follows :
    (readDispatch caller cycleId preparationId).run.follows dispatchDiscipline Whatever l :=
  ask_bind_follows trivial fun _ _ => bind_either settle_whatever fun _ _ _ => workspace_follows

theorem reserveDispatch_follows :
    (reserveDispatch caller cycleId preparationId body).run.follows dispatchDiscipline Whatever
      l := by
  refine ask_bind_follows trivial fun a _ => bind_either settle_whatever fun l ctx _ => ?_
  cases ctx.target with
  | none => exact trivial
  | some target =>
    cases ctx.artifact with
    | none => exact trivial
    | some artifact =>
      refine ask_bind_follows trivial fun identifier _ => ask_bind_follows trivial fun a _ => ?_
      refine bind_either settle_whatever fun l _ _ => ?_
      refine ask_bind_follows ⟨rfl, rfl, rfl, rfl⟩ fun a _ => ?_
      cases a with
      | committed row => exact ask_bind_follows trivial fun _ _ => settle_whatever
      | integrityError => exact trivial
      | raised error => exact trivial

theorem startFor_follows {start : StartRun} (hhook : start.beforeRunStart.isSome = true) :
    (startFor env id start).run.follows dispatchDiscipline Whatever l := by
  refine follows_run_lift.mpr (follows_mono (follows_embed
    (fun hooked (l : DispatchSeat) => hooked = true → l.bound = some id)
    (startRun_hooked hhook) (fun h => absurd h Bool.false_ne_true) ?_ ?_) fun _ _ _ => trivial)
  · exact fun hooked l r hmatch hallowed hcreates => hmatch (hallowed hcreates)
  · intro hooked l r a hmatch _
    refine ⟨trivial, ?_⟩
    cases r
    case beforeRunStart owner threadId =>
      cases a with
      | ok packets => exact fun _ => rfl
      | error e => exact hmatch
    all_goals exact hmatch

theorem recordUncertain_follows :
    (recordUncertain id).run.follows dispatchDiscipline Whatever l :=
  ask_bind_follows trivial fun _ _ => settle_whatever

theorem launchDispatch_follows :
    (launchDispatch env caller preparationId row).run.follows dispatchDiscipline Whatever l := by
  refine bind_either (startFor_follows rfl) fun l result _ => ?_
  cases result with
  | ok launched =>
    refine ask_bind_follows trivial fun a _ => ?_
    cases a with
    | committed => exact trivial
    | statementFailed => exact recordUncertain_follows
    | raised error => exact trivial
  | error e =>
    cases e with
    | cancelled =>
      refine ask_bind_follows trivial fun a _ => ?_
      cases a with
      | true => exact recordUncertain_follows
      | false => exact trivial
    | _ => exact recordUncertain_follows

theorem dispatchTarget_follows {current : Workspace} :
    (dispatchTarget caller cycleId preparationId body current).run.follows dispatchDiscipline
      Whatever l := by
  unfold dispatchTarget
  cases current.attempt with
  | none =>
    refine bind_either raiseWhen_whatever fun l _ _ => ?_
    exact map_either reserveDispatch_follows fun _ _ _ => trivial
  | some attempt =>
    refine bind_either raiseWhen_whatever fun l _ _ => ?_
    cases attempt.status.isOpen with
    | false => exact trivial
    | true =>
      refine bind_either raiseWhen_whatever fun l _ _ => ?_
      refine ask_bind_follows trivial fun a _ => bind_either settle_whatever fun l found _ => ?_
      cases found with
      | none => exact trivial
      | some row => exact trivial

theorem dispatch_follows :
    (dispatch env caller cycleId preparationId body).run.follows dispatchDiscipline Whatever l := by
  refine ask_bind_follows trivial fun _ _ => bind_either settle_whatever fun l _ _ => ?_
  refine bind_either workspace_follows fun l current _ => ?_
  refine bind_either dispatchTarget_follows fun l target _ => ?_
  cases target with
  | inl current => exact trivial
  | inr row => exact bind_either launchDispatch_follows fun _ _ _ => workspace_follows

theorem cancelDispatch_follows {dispatchId : String} :
    (cancelDispatch caller cycleId preparationId dispatchId).run.follows dispatchDiscipline
      Whatever l := by
  refine ask_bind_follows trivial fun _ _ => bind_either settle_whatever fun l _ _ => ?_
  refine ask_bind_follows trivial fun _ _ => bind_either settle_whatever fun l _ _ => ?_
  exact bind_either raiseWhen_whatever fun _ _ _ => workspace_follows

end Parts

abbrev Staying {α : Type} (l : DispatchSeat) : DispatchSeat → Except DispatchError α → Prop :=
  either (fun l' _ => l' = l) fun _ _ => True

variable {l : DispatchSeat} {env : DispatchEnv}

theorem settle_staying {α : Type} {x : Except DispatchError α} :
    (settle x : DispatchAction α).run.follows dispatchDiscipline (Staying l) l :=
  settle_either (fun _ _ => rfl) fun _ _ => trivial

theorem raiseWhen_staying {bad : Bool} {error : DispatchError} :
    (raiseWhen bad error : DispatchAction Unit).run.follows dispatchDiscipline
      (either (fun l' _ => l' = l ∧ bad = false) fun _ _ => True) l :=
  raiseWhen_either (fun h => ⟨rfl, h⟩) fun _ => trivial

/-- The check of a binding succeeds only for the first attempt, on a row it has read that
    names the thread and owns an environment. -/
theorem loadDispatchBinding_follows {cfg : PipelineConfigurable} {threadId : String} {attempt : Int}
    {readSource : Bool} :
    (loadDispatchBinding env cfg threadId attempt readSource).run.follows dispatchDiscipline
      (either (fun l' _ => l'.call = l.call ∧ attempt = 1 ∧ ∃ row, l'.read = some row ∧
          cfg.cycleDispatchId = some row.id ∧ row.threadId = some threadId ∧
          row.activeEnvironmentId.isSome = true)
        fun _ _ => True) l := by
  unfold loadDispatchBinding
  cases hid : cfg.cycleDispatchId with
  | none => exact trivial
  | some id =>
    refine bind_either raiseWhen_staying fun l₁ _ h => ?_
    rcases h with ⟨rfl, hattempt⟩
    rw [Bool.or_eq_false_iff, bne_eq_false_iff_eq] at hattempt
    refine ask_bind_follows trivial fun a ha => ?_
    cases a with
    | error e => exact trivial
    | ok found =>
      cases found with
      | none => exact trivial
      | some row =>
        have hrow : row.id = id := ha row rfl
        let read : DispatchSeat := { l₁ with read := some row }
        refine bind_either (m := fun l' seen => l' = read ∧ seen = some row) ⟨rfl, rfl⟩
          fun l₂ seen h => ?_
        rcases h with ⟨rfl, rfl⟩
        refine bind_either raiseWhen_staying fun l₃ _ h => ?_
        rcases h with ⟨rfl, howned⟩
        rw [Bool.or_eq_false_iff, bne_eq_false_iff_eq, Option.isNone_eq_false_iff] at howned
        -- The rest of the check asks for nothing that the seat records.
        refine mono_either (m := fun l' _ => l' = read) ?_ (fun l' _ hl => ?_) fun _ _ h => h
        · refine ask_bind_follows trivial fun a _ => bind_either settle_staying fun l' _ h => ?_
          subst h
          refine ask_bind_follows trivial fun a _ => bind_either settle_staying fun l' ctx h => ?_
          subst h
          refine bind_either raiseWhen_staying fun l' _ h => ?_
          rcases h with ⟨rfl, _⟩
          refine bind_either raiseWhen_staying fun l' _ h => ?_
          rcases h with ⟨rfl, _⟩
          cases ctx.target with
          | none => exact trivial
          | some target =>
            cases ctx.artifact with
            | none => exact trivial
            | some artifact =>
              refine bind_either settle_staying fun l' spec h => ?_
              subst h
              cases readSource with
              | false => exact rfl
              | true =>
                refine ask_bind_follows trivial fun a _ => bind_either settle_staying
                  fun l' source h => ?_
                subst h
                exact rfl
        · subst hl
          exact ⟨rfl, hattempt.2, row, rfl, congrArg some hrow.symm, howned⟩

theorem action_follows {call : DispatchCall} {number : Nat} (hcall : l.call = some (call, number)) :
    (call.action env).run.follows dispatchDiscipline
      (either DispatchSeat.returned fun _ _ => True) l := by
  cases call with
  | read caller cycleId preparationId => exact map_either readDispatch_follows fun _ _ _ => trivial
  | dispatch caller cycleId preparationId body =>
    exact map_either dispatch_follows fun _ _ _ => trivial
  | cancel caller cycleId preparationId dispatchId =>
    exact map_either cancelDispatch_follows fun _ _ _ => trivial
  | load cfg threadId attempt readSource =>
    refine map_either loadDispatchBinding_follows fun l' loaded h => ?_
    rcases h with ⟨hsame, hattempt, row, hread, hid, hthread, howned⟩
    exact ⟨cfg, threadId, attempt, readSource, number, row, hsame.trans hcall, hattempt, hread,
      hid, hthread, howned⟩

end Apex.Routers
