import Apex.Domain.Cycles

/-!
# The Progress Of A Cycle

What the list of cycles shows of a history: for each kind of document the status of the
version that was recorded last, and one status for all of them. It is stored beside the
history, since lists never load histories.

## Main definitions

* `ProgressStatus`, `DeliverableProgress`, `CycleProgress`: The data.
* `cycleProgress`: The progress of a history.

## Theorems

* `cycleProgress_consistent`: What is computed is valid.
-/

namespace Apex.Domain

/-- The status of a kind of document, or of all of them. -/
inductive ProgressStatus where
  | notStarted
  | draft
  | inReview
  | approved
  | stale
  | archived
  deriving DecidableEq, Repr

structure DeliverableProgress where
  kind : Kind
  versionId : Option String
  status : ProgressStatus
  deriving DecidableEq, Repr

/-- `CycleProgress`. There are always six kinds in all. -/
structure CycleProgress where
  status : ProgressStatus
  approved : Nat
  deliverables : List DeliverableProgress
  deriving DecidableEq, Repr

def kinds : List Kind := [.scope, .testPlan, .readiness, .script, .report, .postmortem]

def progressStatus (states : List ProgressStatus) : ProgressStatus :=
  if states.all (· == .notStarted) then .notStarted
  else if states.all (fun s => s == .notStarted || s == .archived) then .archived
  else if states.contains .stale then .stale
  else if states.contains .inReview then .inReview
  else if states.all (· == .approved) then .approved
  else .draft

def approvedCount (items : List DeliverableProgress) : Nat :=
  items.countP fun item => item.status == .approved

/-- `CycleProgress.consistent`, with the constraints on the fields. -/
def CycleProgress.consistent (p : CycleProgress) : Bool :=
  p.deliverables.map DeliverableProgress.kind == kinds
    && p.deliverables.all (fun item => item.versionId.isNone == (item.status == .notStarted))
    && p.approved == approvedCount p.deliverables
    && p.status == progressStatus (p.deliverables.map DeliverableProgress.status)

variable (env : CyclesEnv) (versions : List Version)

/-- The version of a kind that was recorded last. -/
def latestOf (kind : Kind) : Option Version :=
  versions.reverse.find? fun v => v.kind == kind

def VersionStatus.progress : VersionStatus → ProgressStatus
  | draft => .draft
  | inReview => .inReview
  | approved => .approved

def deliverableProgress (kind : Kind) :
    DeliverableProgress :=
  match latestOf versions kind with
  | none => ⟨kind, none, .notStarted⟩
  | some v =>
    ⟨kind, some v.id, if v.archived then .archived
      else if v.status == .approved then
        if approvalCurrent env versions v.id then .approved else .stale
      else v.status.progress⟩

def cycleProgress : CycleProgress :=
  let items := kinds.map (deliverableProgress env versions)
  ⟨progressStatus (items.map DeliverableProgress.status), approvedCount items, items⟩

theorem deliverableProgress_kind (kind : Kind) :
    (deliverableProgress env versions kind).kind = kind := by
  unfold deliverableProgress
  cases latestOf versions kind <;> rfl

theorem deliverableProgress_started (kind : Kind) :
    ((deliverableProgress env versions kind).versionId.isNone
      == ((deliverableProgress env versions kind).status == .notStarted)) = true := by
  unfold deliverableProgress
  cases latestOf versions kind with
  | none => rfl
  | some v =>
    dsimp only
    split_ifs
    iterate 3 rfl
    cases v.status <;> rfl

theorem cycleProgress_consistent :
    (cycleProgress env versions).consistent = true := by
  unfold CycleProgress.consistent cycleProgress
  simp only [Bool.and_eq_true, beq_iff_eq, and_true]
  refine ⟨?_, List.all_eq_true.mpr fun item hitem => ?_⟩
  · rw [List.map_map]
    exact (List.map_congr_left fun kind _ => deliverableProgress_kind env versions kind).trans
      (List.map_id kinds)
  · rcases List.mem_map.mp hitem with ⟨kind, _, rfl⟩
    exact deliverableProgress_started env versions kind

end Apex.Domain
