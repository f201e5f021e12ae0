import Apex.Theory.CycleDispatch.Handlers

/-!
# A Dispatch Owns Its Environment

Operators dispatch, resume, cancel and read in any order, a worker may stop at any
point, and every update may take effect although its answer was lost. The engine-run
rows, the threads and the launches answer whatever they like. Then a row owns its
environment exactly while it is not finished, an environment has one owner, and a
finished row never changes again.

Cancelling and binding a thread compare and set the same row. So a dispatch that was
cancelled has no thread, no run was ever asked for on its behalf, and no cancellation
succeeds once a thread is bound.

## Main definitions

* `DispatchRows.Answers`: How requests are answered.
* `dispatchSystem`: The workers and the rows they share.
* `OwnershipInv`: What every interleaving keeps.

## Theorems

* `rowLater_write`: What a compare-and-set does to a row.
* `dispatch_ownership`: Ownership in every interleaving.
-/

namespace Apex.Routers

open List Option Function
open Domain Services Program

open Apex.Action hiding ask

/-- A compare-and-set: the row, the condition and the change. -/
structure RowWrite where
  id : String
  fits : CycleDispatch → Bool
  write : CycleDispatch → CycleDispatch

variable (id : String)

def syncWrite (before status : DispatchStatus) : RowWrite where
  id := id
  fits row := row.status == before
  write row := { row with
    status := status
    activeEnvironmentId := if status.isTerminal then none else row.activeEnvironmentId }

def bindWrite (threadId : String) : RowWrite where
  id := id
  fits row := row.status.isOpen
  write row := { row with threadId := some threadId }

def submitWrite (threadId runId : String) : RowWrite where
  id := id
  fits row := row.status.isOpen
  write row := { row with
    status := .submitted, threadId := some threadId, runId := some runId }

def uncertainWrite : RowWrite where
  id := id
  fits row := row.status.isOpen
  write row := { row with status := .uncertain }

def cancelWrite (cycleId preparationId canceledBy : String) : RowWrite where
  id := id
  fits row := row.status.isOpen && row.threadId.isNone && row.cycleId == cycleId
    && row.preparationId == preparationId
  write row := { row with
    status := .aborted, activeEnvironmentId := none, canceledBy := some canceledBy }

def rowWrite : DispatchRequest → Option RowWrite
  | .syncStatus id before status => some (syncWrite id before status)
  | .launch id (.beforeRunStart _ threadId) => some (bindWrite id threadId)
  | .markSubmitted id threadId runId => some (submitWrite id threadId runId)
  | .markUncertain id => some (uncertainWrite id)
  | .cancel id cycleId preparationId canceledBy =>
    some (cancelWrite id cycleId preparationId canceledBy)
  | _ => none

abbrev DispatchRows := String → Option CycleDispatch

namespace DispatchRows

variable (s : DispatchRows)

def Fits (w : RowWrite) : Prop := ∃ row, s w.id = some row ∧ w.fits row = true

def written (w : RowWrite) : DispatchRows :=
  match s w.id with
  | some row => if w.fits row then Function.update s w.id (some (w.write row)) else s
  | none => s

def Admits (row : CycleDispatch) : Prop :=
  s row.id = none ∧ ∀ id other, s id = some other → other.preparationId ≠ row.preparationId ∧
    ¬ (other.cycleId = row.cycleId ∧ other.requestKey = row.requestKey) ∧
    (other.activeEnvironmentId.isSome = true → other.activeEnvironmentId ≠ row.activeEnvironmentId)

def inserted (row : CycleDispatch) : DispatchRows :=
  Function.update s row.id (some row)

/-- A session shows a row as it is, or as it once was: the fields that are never written
    are those of the stored row. -/
def Seen (row : CycleDispatch) : Prop :=
  ∃ stored, s row.id = some stored ∧ row.cycleId = stored.cycleId ∧
    row.preparationId = stored.preparationId ∧ row.requestKey = stored.requestKey ∧
    row.pipelineConfig = stored.pipelineConfig ∧ row.createdBy = stored.createdBy

/-- How requests are answered. A compare-and-set that fails may have been committed. -/
def Answers : (r : DispatchRequest) → r.Answer → DispatchRows → Prop
  | .insert row, .committed stored, s' => stored = row ∧ s.Admits row ∧ s' = s.inserted row
  | .insert _, .integrityError, s' => s' = s
  | .insert row, .raised _, s' => s' = s ∨ s.Admits row ∧ s' = s.inserted row
  | .syncStatus id before status, .ok _, s' => s' = s.written (syncWrite id before status)
  | .syncStatus id before status, .error _, s' =>
    s' = s ∨ s' = s.written (syncWrite id before status)
  | .launch id (.beforeRunStart _ threadId), .ok packets, s' =>
    packets = none ∧ s.Fits (bindWrite id threadId) ∧ s' = s.written (bindWrite id threadId)
  | .launch id (.beforeRunStart _ threadId), .error _, s' =>
    s' = s ∨ s' = s.written (bindWrite id threadId)
  | .markSubmitted id threadId runId, .committed, s' =>
    s' = s.written (submitWrite id threadId runId)
  | .markSubmitted _ _ _, .statementFailed, s' => s' = s
  | .markSubmitted id threadId runId, .raised _, s' =>
    s' = s ∨ s' = s.written (submitWrite id threadId runId)
  | .markUncertain id, .ok _, s' => s' = s.written (uncertainWrite id)
  | .markUncertain id, .error _, s' => s' = s ∨ s' = s.written (uncertainWrite id)
  | .cancel id cycleId preparationId canceledBy, .ok found, s' =>
    (found = true ↔ s.Fits (cancelWrite id cycleId preparationId canceledBy)) ∧
      s' = s.written (cancelWrite id cycleId preparationId canceledBy)
  | .cancel id cycleId preparationId canceledBy, .error _, s' =>
    s' = s ∨ s' = s.written (cancelWrite id cycleId preparationId canceledBy)
  | .bindingRow id, .ok found, s' => s' = s ∧ found = s id
  | .rowOfPreparation cycleId preparationId, .ok (some row), s' =>
    s' = s ∧ s.Seen row ∧ row.cycleId = cycleId ∧ row.preparationId = preparationId
  | .rowOccupying _ preparationId, .ok (some row), s' =>
    s' = s ∧ s.Seen row ∧ row.preparationId ≠ preparationId
  | .rowById id, .ok (some row), s' => s' = s ∧ s.Seen row ∧ row.id = id
  | .refresh id, .ok row, s' => s' = s ∧ s id = some row
  | _, _, s' => s' = s

end DispatchRows

/-- A row that owns its environment exactly while it is not finished, and that has no
    thread if it was cancelled. -/
structure Sound (row : CycleDispatch) : Prop where
  owner : row.activeEnvironmentId.isSome = true ↔ row.status.isTerminal = false
  cancelled : row.canceledBy.isSome = true → row.status = .aborted ∧ row.threadId = none

/-- What a row can become: a finished row stays as it is, a thread stays bound, and a
    cancelled row stays cancelled. -/
structure RowLater (old new : CycleDispatch) : Prop where
  id : new.id = old.id
  final : old.status.isTerminal = true → new = old
  bound : old.threadId.isSome = true → new.threadId.isSome = true
  cancelled : old.canceledBy.isSome = true → new.canceledBy.isSome = true
  environment : new.activeEnvironmentId = old.activeEnvironmentId ∨ new.activeEnvironmentId = none

theorem RowLater.refl (row : CycleDispatch) : RowLater row row :=
  ⟨rfl, fun _ => rfl, fun h => h, fun h => h, Or.inl rfl⟩

theorem RowLater.trans {a b c : CycleDispatch} (hab : RowLater a b) (hbc : RowLater b c) :
    RowLater a c where
  id := hbc.id.trans hab.id
  final h := by
    have hb := hab.final h
    rw [hb] at hbc
    exact hbc.final h
  bound h := hbc.bound (hab.bound h)
  cancelled h := hbc.cancelled (hab.cancelled h)
  environment := by
    rcases hbc.environment with h | h
    · rw [h]
      exact hab.environment
    · exact Or.inr h

variable {row : CycleDispatch} {r : DispatchRequest} {s : DispatchRows}

theorem Sound.not_cancelled (h : Sound row)
    (hstatus : row.status.isTerminal = false) : row.canceledBy.isSome = false := by
  by_contra hcancelled
  rw [Bool.not_eq_false] at hcancelled
  rw [(h.cancelled hcancelled).1] at hstatus
  exact absurd hstatus.symm Bool.false_ne_true

variable {new : CycleDispatch} {l : DispatchSeat} {s' : DispatchRows} {a : r.Answer}
  {env : DispatchEnv}

theorem rowLater_of_running (hsound : Sound row) (hstatus : row.status.isTerminal = false)
    (hid : new.id = row.id) (hbound : row.threadId.isSome = true → new.threadId.isSome = true)
    (henvironment : new.activeEnvironmentId =
      if new.status.isTerminal then none else row.activeEnvironmentId)
    (hcancelled : new.canceledBy = row.canceledBy ∨ new.status = .aborted ∧ new.threadId = none) :
    RowLater row new ∧ Sound new := by
  refine ⟨⟨hid, fun h => ?_, hbound, fun h => ?_, ?_⟩, ⟨?_, fun h => ?_⟩⟩
  · rw [hstatus] at h
    exact absurd h Bool.false_ne_true
  · rw [hsound.not_cancelled hstatus] at h
    exact absurd h Bool.false_ne_true
  · rw [henvironment]
    split_ifs
    · exact Or.inr rfl
    · exact Or.inl rfl
  · rw [henvironment]
    cases hnew : new.status.isTerminal with
    | true => exact ⟨fun h => absurd h Bool.false_ne_true, fun h => absurd h.symm Bool.false_ne_true⟩
    | false => exact ⟨fun _ => rfl, fun _ => hsound.owner.mpr hstatus⟩
  · rcases hcancelled with hsame | haborted
    · rw [hsame, hsound.not_cancelled hstatus] at h
      exact absurd h Bool.false_ne_true
    · exact haborted

theorem rowLater_write {w : RowWrite} (hallowed : l.allowed r) (hwrite : rowWrite r = some w)
    (hfits : w.fits row = true) (hsound : Sound row) :
    RowLater row (w.write row) ∧ Sound (w.write row) := by
  -- An open row keeps its environment through every change that leaves it unfinished.
  have hopen : row.status.isOpen = true → ∀ new : CycleDispatch, new.id = row.id →
      (row.threadId.isSome = true → new.threadId.isSome = true) →
      new.status.isTerminal = false → new.activeEnvironmentId = row.activeEnvironmentId →
      new.canceledBy = row.canceledBy → RowLater row new ∧ Sound new := by
    intro hopen new hid hbound hstatus henvironment hcancelled
    refine rowLater_of_running hsound (DispatchStatus.not_terminal_of_open hopen) hid hbound ?_
      (Or.inl hcancelled)
    rw [hstatus, henvironment]
    rfl
  cases r
  case syncStatus id before status =>
    cases hwrite
    have hbefore : row.status = before := eq_of_beq hfits
    refine rowLater_of_running hsound ?_ rfl (fun h => h) rfl (Or.inl rfl)
    rw [hbefore]
    exact hallowed
  case launch id request =>
    cases request
    case beforeRunStart owner threadId =>
      cases hwrite
      exact hopen hfits _ rfl (fun _ => rfl) (DispatchStatus.not_terminal_of_open hfits) rfl rfl
    all_goals exact nomatch hwrite
  case markSubmitted id threadId runId =>
    cases hwrite
    exact hopen hfits _ rfl (fun _ => rfl) rfl rfl rfl
  case markUncertain id =>
    cases hwrite
    exact hopen hfits _ rfl (fun h => h) rfl rfl rfl
  case cancel id cycleId preparationId canceledBy =>
    cases hwrite
    have hfit : row.status.isOpen = true ∧ row.threadId = none := by
      simp only [cancelWrite, Bool.and_eq_true, isNone_iff_eq_none] at hfits
      exact hfits.1.1
    exact rowLater_of_running hsound (DispatchStatus.not_terminal_of_open hfit.1) rfl (fun h => h)
      rfl (Or.inr ⟨rfl, hfit.2⟩)
  all_goals exact nomatch hwrite

/-- The rows are stored under their ids, are sound, and share no environment. -/
structure SoundRows (s : DispatchRows) : Prop where
  sound : ∀ id row, s id = some row → row.id = id ∧ Sound row
  owners : ∀ id id' row row', s id = some row → s id' = some row' →
    row.activeEnvironmentId.isSome = true → row.activeEnvironmentId = row'.activeEnvironmentId →
    id = id'

/-- No row is lost, and every row only becomes what it can. -/
def RowsLater (s s' : DispatchRows) : Prop :=
  ∀ id row, s id = some row → ∃ row', s' id = some row' ∧ RowLater row row'

theorem RowsLater.refl (s : DispatchRows) : RowsLater s s := fun _ row h => ⟨row, h, .refl row⟩

theorem RowsLater.trans {s₁ s₂ s₃ : DispatchRows} (h12 : RowsLater s₁ s₂)
    (h23 : RowsLater s₂ s₃) : RowsLater s₁ s₃ := by
  intro id row h
  rcases h12 id row h with ⟨row₂, h2, hlater⟩
  rcases h23 id row₂ h2 with ⟨row₃, h3, hlater'⟩
  exact ⟨row₃, h3, hlater.trans hlater'⟩

/-- What an answer does to the rows: nothing, a compare-and-set, or an insertion. -/
inductive RowsEffect (s : DispatchRows) (r : DispatchRequest) : DispatchRows → Prop
  | none : RowsEffect s r s
  | written {w : RowWrite} (hwrite : rowWrite r = some w) : RowsEffect s r (s.written w)
  | inserted {row : CycleDispatch} (hr : r = .insert row) (hadmits : s.Admits row) :
      RowsEffect s r (s.inserted row)

theorem answers_effect (h : s.Answers r a s') : RowsEffect s r s' := by
  cases r
  case insert row =>
    cases a with
    | committed stored =>
      rcases h with ⟨_, hadmits, rfl⟩
      exact .inserted rfl hadmits
    | integrityError =>
      cases h
      exact .none
    | raised error =>
      rcases h with rfl | ⟨hadmits, rfl⟩
      · exact .none
      · exact .inserted rfl hadmits
  case syncStatus id before status =>
    cases a with
    | ok u =>
      cases h
      exact .written rfl
    | error e =>
      rcases h with rfl | rfl
      · exact .none
      · exact .written rfl
  case launch id request =>
    cases request
    case beforeRunStart owner threadId =>
      cases a with
      | ok packets =>
        rcases h with ⟨_, _, rfl⟩
        exact .written rfl
      | error e =>
        rcases h with rfl | rfl
        · exact .none
        · exact .written rfl
    all_goals
      cases h
      exact .none
  case markSubmitted id threadId runId =>
    cases a with
    | committed =>
      cases h
      exact .written rfl
    | statementFailed =>
      cases h
      exact .none
    | raised error =>
      rcases h with rfl | rfl
      · exact .none
      · exact .written rfl
  case markUncertain id =>
    cases a with
    | ok u =>
      cases h
      exact .written rfl
    | error e =>
      rcases h with rfl | rfl
      · exact .none
      · exact .written rfl
  case cancel id cycleId preparationId canceledBy =>
    cases a with
    | ok found =>
      rcases h with ⟨_, rfl⟩
      exact .written rfl
    | error e =>
      rcases h with rfl | rfl
      · exact .none
      · exact .written rfl
  case bindingRow id =>
    cases a with
    | ok found =>
      cases h.1
      exact .none
    | error e =>
      cases h
      exact .none
  case refresh id =>
    cases a with
    | ok row =>
      cases h.1
      exact .none
    | error e =>
      cases h
      exact .none
  case rowOfPreparation cycleId preparationId =>
    rcases a with e | _ | row
    · cases h
      exact .none
    · cases h
      exact .none
    · cases h.1
      exact .none
  case rowOccupying environmentId preparationId =>
    rcases a with e | _ | row
    · cases h
      exact .none
    · cases h
      exact .none
    · cases h.1
      exact .none
  case rowById id =>
    rcases a with e | _ | row
    · cases h
      exact .none
    · cases h
      exact .none
    · cases h.1
      exact .none
  all_goals
    cases h
    exact .none

theorem written_cases (s : DispatchRows) (w : RowWrite) :
    s.written w = s ∨ ∃ row, s w.id = some row ∧ w.fits row = true ∧
      s.written w = Function.update s w.id (some (w.write row)) := by
  unfold DispatchRows.written
  cases hrow : s w.id with
  | none => exact Or.inl rfl
  | some row =>
    cases hfits : w.fits row with
    | true => exact Or.inr ⟨row, rfl, hfits, by simp only [hfits, if_true]⟩
    | false => exact Or.inl (by simp only [hfits, Bool.false_eq_true, if_false])

theorem soundRows_update {id : String} (hrows : SoundRows s) (hrow : s id = some row)
    (hlater : RowLater row new) (hsound : Sound new) :
    SoundRows (Function.update s id (some new)) ∧
      RowsLater s (Function.update s id (some new)) := by
  -- The environment of the new row is the one it owned before, if it owns one.
  have henvironment : new.activeEnvironmentId.isSome = true →
      new.activeEnvironmentId = row.activeEnvironmentId := by
    rcases hlater.environment with h | h
    · exact fun _ => h
    · rw [h]
      exact fun h => absurd h Bool.false_ne_true
  refine ⟨⟨fun other found hfound => ?_, fun other other' found found' hfound hfound' => ?_⟩, ?_⟩
  · by_cases hother : other = id
    · subst hother
      rw [update_self, some.injEq] at hfound
      rw [← hfound]
      exact ⟨hlater.id.trans (hrows.sound other row hrow).1, hsound⟩
    · rw [update_of_ne hother] at hfound
      exact hrows.sound other found hfound
  · intro howns hsame
    by_cases hother : other = id
    · by_cases hother' : other' = id
      · rw [hother, hother']
      · subst hother
        rw [update_self, some.injEq] at hfound
        rw [update_of_ne hother'] at hfound'
        rw [← hfound] at howns hsame
        have hkept := henvironment howns
        rw [hkept] at howns hsame
        exact hrows.owners other other' row found' hrow hfound' howns hsame
    · rw [update_of_ne hother] at hfound
      by_cases hother' : other' = id
      · subst hother'
        rw [update_self, some.injEq] at hfound'
        rw [← hfound'] at hsame
        rw [henvironment (by rw [← hsame]; exact howns)] at hsame
        exact hrows.owners other other' found row hfound hrow howns hsame
      · rw [update_of_ne hother'] at hfound'
        exact hrows.owners other other' found found' hfound hfound' howns hsame
  · intro other found hfound
    by_cases hother : other = id
    · subst hother
      rw [hrow, some.injEq] at hfound
      exact ⟨new, update_self .., hfound ▸ hlater⟩
    · exact ⟨found, (update_of_ne hother _ s).trans hfound, .refl found⟩

theorem soundRows_inserted (hrows : SoundRows s) (hadmits : s.Admits row) (hsound : Sound row) :
    SoundRows (s.inserted row) ∧ RowsLater s (s.inserted row) := by
  unfold DispatchRows.inserted
  refine ⟨⟨fun other found hfound => ?_, fun other other' found found' hfound hfound' => ?_⟩, ?_⟩
  · by_cases hother : other = row.id
    · subst hother
      rw [update_self, some.injEq] at hfound
      rw [← hfound]
      exact ⟨rfl, hsound⟩
    · rw [update_of_ne hother] at hfound
      exact hrows.sound other found hfound
  · intro howns hsame
    by_cases hother : other = row.id
    · by_cases hother' : other' = row.id
      · rw [hother, hother']
      · subst hother
        rw [update_self, some.injEq] at hfound
        rw [update_of_ne hother'] at hfound'
        rw [← hfound] at howns hsame
        exact absurd hsame.symm
          ((hadmits.2 other' found' hfound').2.2 (by rw [← hsame]; exact howns))
    · rw [update_of_ne hother] at hfound
      by_cases hother' : other' = row.id
      · subst hother'
        rw [update_self, some.injEq] at hfound'
        rw [← hfound'] at hsame
        exact absurd hsame ((hadmits.2 other found hfound).2.2 howns)
      · rw [update_of_ne hother'] at hfound'
        exact hrows.owners other other' found found' hfound hfound' howns hsame
  · intro other found hfound
    have hother : other ≠ row.id := by
      rintro rfl
      rw [hadmits.1] at hfound
      exact nomatch hfound
    exact ⟨found, (update_of_ne hother _ s).trans hfound, .refl found⟩

/-- Every answer to an allowed request leaves the rows sound, and only lets them become
    what they can. -/
theorem rows_answered (hrows : SoundRows s) (hallowed : l.allowed r) (h : s.Answers r a s') :
    SoundRows s' ∧ RowsLater s s' := by
  cases answers_effect h with
  | none => exact ⟨hrows, .refl s⟩
  | @written w hwrite =>
    rcases written_cases s w with hsame | ⟨row, hrow, hfits, hnew⟩
    · rw [hsame]
      exact ⟨hrows, .refl s⟩
    · rcases rowLater_write hallowed hwrite hfits (hrows.sound w.id row hrow).2 with
        ⟨hlater, hsound⟩
      rw [hnew]
      exact soundRows_update hrows hrow hlater hsound
  | @inserted row hr hadmits =>
    subst hr
    rcases hallowed with ⟨hstatus, howns, _, hcancelled⟩
    refine soundRows_inserted hrows hadmits ⟨⟨fun _ => ?_, fun _ => howns⟩, fun h => ?_⟩
    · rw [hstatus]
      rfl
    · rw [hcancelled] at h
      exact absurd h Bool.false_ne_true

/-- The rows, the call each worker is in with its number, and how many were begun. -/
structure DispatchWorld (ι : Type) where
  rows : DispatchRows
  calls : ι → Option (DispatchCall × Nat)
  started : Nat

def DispatchWorld.initial {ι : Type} : DispatchWorld ι where
  rows _ := none
  calls _ := none
  started := 0

/-- A worker begins a call; whatever it was doing has ended. -/
def DispatchWorld.entered {ι : Type} [DecidableEq ι] (w : DispatchWorld ι) (i : ι)
    (call : DispatchCall) : DispatchWorld ι where
  rows := w.rows
  calls := Function.update w.calls i (some (call, w.started))
  started := w.started + 1

def dispatchSystem (ι : Type) [DecidableEq ι] (env : DispatchEnv) :
    System (DispatchWorld ι) ι DispatchRequest DispatchRequest.Answer
      (Except DispatchError DispatchResult) where
  respond _ w r a w' := w.rows.Answers r a w'.rows ∧ w'.calls = w.calls ∧ w'.started = w.started
  start i w p w' := ∃ call, p = (call.action env).run ∧ w' = w.entered i call

abbrev DispatchEvent (ι : Type) :=
  System.Event (DispatchWorld ι) ι DispatchRequest DispatchRequest.Answer

/-- An answer acknowledged the cancellation of a dispatch. -/
def Cancels {ι : Type} (e : DispatchEvent ι) (id : String) : Prop :=
  ∃ cycleId preparationId canceledBy,
    (⟨e.request, e.answer⟩ : Σ r : DispatchRequest, r.Answer)
      = ⟨.cancel id cycleId preparationId canceledBy, .ok true⟩

/-- A run was asked for on behalf of a dispatch. -/
def CreatesRunFor {ι : Type} (e : DispatchEvent ι) (id : String) : Prop :=
  ∃ r : LaunchRequest, e.request = .launch id r ∧ r.createsRun = true

structure OwnershipInv {ι : Type} (events : List (DispatchEvent ι)) (w : DispatchWorld ι)
    (places : ι → DispatchSeat) : Prop where
  rows : SoundRows w.rows
  call : ∀ i, (places i).call = w.calls i
  bound : ∀ i id, (places i).bound = some id →
    ∃ row, w.rows id = some row ∧ row.threadId.isSome = true
  read : ∀ i row, (places i).read = some row → ∃ e ∈ events, e.worker = i ∧
    e.before.calls i = w.calls i ∧ e.before.rows row.id = some row
  later : ∀ e ∈ events, RowsLater e.after.rows w.rows
  ordered : ∀ before e, before ++ [e] <+: events → ∀ e' ∈ before,
    RowsLater e'.after.rows e.before.rows
  created : ∀ e ∈ events, ∀ id, CreatesRunFor e id →
    ∃ row, w.rows id = some row ∧ row.threadId.isSome = true
  cancelled : ∀ e ∈ events, ∀ id, Cancels e id → (∀ row, e.before.rows id = some row →
    row.threadId = none) ∧ ∃ row, e.after.rows id = some row ∧ row.canceledBy.isSome = true

section Steps

variable {ι : Type} {events : List (DispatchEvent ι)} {w w' : DispatchWorld ι}
  {places : ι → DispatchSeat} {i : ι}

theorem inv_initial : OwnershipInv (ι := ι) [] .initial fun _ => ⟨none, none, none⟩ where
  rows := ⟨fun _ _ h => (nomatch h), fun _ _ _ _ h => (nomatch h)⟩
  call _ := rfl
  bound _ _ h := nomatch h
  read _ _ h := nomatch h
  later _ h := (not_mem_nil h).elim
  ordered before e h := by
    have hlength := h.length_le
    rw [length_append, length_singleton, length_nil] at hlength
    exact absurd hlength (Nat.not_succ_le_zero _)
  created _ h := (not_mem_nil h).elim
  cancelled _ h := (not_mem_nil h).elim

variable [DecidableEq ι]

theorem inv_entered {call : DispatchCall} (hinv : OwnershipInv events w places) :
    OwnershipInv events (w.entered i call)
      (Function.update places i ⟨some (call, w.started), none, none⟩) where
  rows := hinv.rows
  call := (forall_update_iff places (fun j l => l.call = (w.entered i call).calls j)).mpr
    ⟨(update_self i _ w.calls).symm, fun j hj =>
      (hinv.call j).trans (update_of_ne hj _ w.calls).symm⟩
  bound := (forall_update_iff places (fun _ l => ∀ id, l.bound = some id →
      ∃ row, w.rows id = some row ∧ row.threadId.isSome = true)).mpr
    ⟨fun _ h => (nomatch h), fun j _ => hinv.bound j⟩
  read := by
    intro j row hread
    by_cases hj : j = i
    · rw [hj, update_self] at hread
      exact nomatch hread
    · rw [update_of_ne hj] at hread
      rcases hinv.read j row hread with ⟨e, he, hworker, hcall, hrow⟩
      exact ⟨e, he, hworker, hcall.trans (update_of_ne hj _ w.calls).symm, hrow⟩
  later := hinv.later
  ordered := hinv.ordered
  created := hinv.created
  cancelled := hinv.cancelled

theorem bound_answered {s s' : DispatchRows} {l : DispatchSeat} {r : DispatchRequest}
    {a : r.Answer} (h : s.Answers r a s') (hlater : RowsLater s s')
    (hbound : ∀ id, l.bound = some id → ∃ row, s id = some row ∧ row.threadId.isSome = true) :
    ∀ id, (l.move r a).bound = some id → ∃ row, s' id = some row ∧ row.threadId.isSome = true := by
  have hkept : ∀ id, l.bound = some id → ∃ row, s' id = some row ∧ row.threadId.isSome = true := by
    intro id hid
    rcases hbound id hid with ⟨row, hrow, hthread⟩
    rcases hlater id row hrow with ⟨row', hrow', hrowLater⟩
    exact ⟨row', hrow', hrowLater.bound hthread⟩
  cases r
  case launch id request =>
    cases request
    case beforeRunStart owner threadId =>
      cases a with
      | error e => exact hkept
      | ok packets =>
        rcases h with ⟨_, ⟨row, hrow, hfits⟩, rfl⟩
        intro id' hid'
        cases hid'
        refine ⟨(bindWrite id threadId).write row, ?_, rfl⟩
        have hstored : s (bindWrite id threadId).id = some row := hrow
        unfold DispatchRows.written
        rw [hstored]
        simp only [hfits, if_true]
        exact update_self id _ s
    all_goals exact hkept
  case bindingRow id =>
    rcases a with e | _ | row
    · exact hkept
    · exact hkept
    · exact hkept
  all_goals exact hkept

theorem move_call (l : DispatchSeat) (r : DispatchRequest) (a : r.Answer) :
    (l.move r a).call = l.call := by
  cases r
  case launch id request =>
    cases request
    case beforeRunStart owner threadId => cases a <;> rfl
    all_goals rfl
  case bindingRow id => rcases a with e | _ | row <;> rfl
  all_goals rfl

theorem move_read (l : DispatchSeat) (r : DispatchRequest) (a : r.Answer) {row : CycleDispatch}
    (h : (l.move r a).read = some row) : l.read = some row ∨
      ∃ id, (⟨r, a⟩ : Σ r : DispatchRequest, r.Answer) = ⟨.bindingRow id, .ok (some row)⟩ := by
  cases r
  case launch id request =>
    cases request
    case beforeRunStart owner threadId => cases a <;> exact Or.inl h
    all_goals exact Or.inl h
  case bindingRow id =>
    rcases a with e | _ | found
    · exact Or.inl h
    · exact Or.inl h
    · cases h
      exact Or.inr ⟨id, rfl⟩
  all_goals exact Or.inl h

theorem inv_answered {env : DispatchEnv} {r : DispatchRequest} {a : r.Answer}
    (hinv : OwnershipInv events w places) (hallowed : (places i).allowed r)
    (hresp : (dispatchSystem ι env).respond i w r a w') :
    DispatchSeat.possible r a ∧ OwnershipInv (events ++ [⟨i, w, r, a, w'⟩]) w'
      (Function.update places i ((places i).move r a)) := by
  rcases hresp with ⟨hanswers, hcalls, _⟩
  rcases rows_answered hinv.rows hallowed hanswers with ⟨hrows, hlater⟩
  have hpossible : DispatchSeat.possible r a := by
    cases r
    case bindingRow id =>
      rintro row rfl
      exact (hinv.rows.sound id row hanswers.2.symm).1
    all_goals exact trivial
  refine ⟨hpossible, ?_⟩
  exact {
    rows := hrows
    call := by
      rw [hcalls]
      exact (forall_update_iff places (fun j l => l.call = w.calls j)).mpr
        ⟨(move_call _ r a).trans (hinv.call i), fun j _ => hinv.call j⟩
    bound := (forall_update_iff places (fun _ l => ∀ id, l.bound = some id →
        ∃ row, w'.rows id = some row ∧ row.threadId.isSome = true)).mpr
      ⟨bound_answered hanswers hlater (hinv.bound i), fun j _ id hid => by
        rcases hinv.bound j id hid with ⟨row, hrow, hthread⟩
        rcases hlater id row hrow with ⟨row', hrow', hrowLater⟩
        exact ⟨row', hrow', hrowLater.bound hthread⟩⟩
    read := by
      intro j row hread
      rw [hcalls]
      by_cases hj : j = i
      · rw [hj, update_self] at hread
        rcases move_read _ r a hread with hold | ⟨id, hevent⟩
        · rcases hinv.read i row hold with ⟨e, he, hworker, hcall, hrow⟩
          exact ⟨e, mem_append_left _ he, hj ▸ hworker, hj ▸ hcall, hrow⟩
        · cases hevent
          refine ⟨_, mem_append_right _ mem_cons_self, hj.symm, rfl, ?_⟩
          have hstored : w.rows id = some row := hanswers.2.symm
          rw [(hinv.rows.sound id row hstored).1]
          exact hstored
      · rw [update_of_ne hj] at hread
        rcases hinv.read j row hread with ⟨e, he, hrest⟩
        exact ⟨e, mem_append_left _ he, hrest⟩
    later := by
      intro e he
      rcases mem_append.mp he with hold | hnew
      · exact (hinv.later e hold).trans hlater
      · rw [mem_singleton.mp hnew]
        exact .refl w'.rows
    ordered := by
      intro before e hprefix e' he'
      rcases prefix_concat_iff.mp hprefix with heq | hprefix
      · rcases append_inj' heq rfl with ⟨rfl, hlast⟩
        cases hlast
        exact hinv.later e' he'
      · exact hinv.ordered before e hprefix e' he'
    created := by
      intro e he id hcreates
      rcases mem_append.mp he with hold | hnew
      · rcases hinv.created e hold id hcreates with ⟨row, hrow, hthread⟩
        rcases hlater id row hrow with ⟨row', hrow', hrowLater⟩
        exact ⟨row', hrow', hrowLater.bound hthread⟩
      · rw [mem_singleton.mp hnew] at hcreates
        rcases hcreates with ⟨request, hr, hrun⟩
        cases show r = .launch id request from hr
        rcases hinv.bound i id (hallowed hrun) with ⟨row, hrow, hthread⟩
        rcases hlater id row hrow with ⟨row', hrow', hrowLater⟩
        exact ⟨row', hrow', hrowLater.bound hthread⟩
    cancelled := by
      intro e he id hcancels
      rcases mem_append.mp he with hold | hnew
      · exact hinv.cancelled e hold id hcancels
      · rw [mem_singleton.mp hnew] at hcancels ⊢
        rcases hcancels with ⟨cycleId, preparationId, canceledBy, hevent⟩
        cases hevent
        rcases hanswers with ⟨hfound, hwritten⟩
        rcases hfound.mp rfl with ⟨row, hrow, hfits⟩
        have hstored : w.rows id = some row := hrow
        refine ⟨fun row' hrow' => ?_, (cancelWrite id cycleId preparationId canceledBy).write row,
          ?_, rfl⟩
        · rw [hstored, some.injEq] at hrow'
          simp only [cancelWrite, Bool.and_eq_true, isNone_iff_eq_none] at hfits
          rw [← hrow']
          exact hfits.1.1.2
        · change w'.rows id = _
          rw [hwritten]
          unfold DispatchRows.written
          rw [hrow]
          simp only [hfits, if_true]
          exact update_self id _ w.rows }

end Steps

section Ownership

variable {ι : Type}

/-- A row names an environment exactly while it is not finished. -/
def OwnsUntilFinished (w : DispatchWorld ι) : Prop :=
  ∀ id row, w.rows id = some row →
    (row.activeEnvironmentId.isSome = true ↔ row.status.isTerminal = false)

def OneOwner (w : DispatchWorld ι) : Prop :=
  ∀ id id' row row', w.rows id = some row → w.rows id' = some row' →
    row.activeEnvironmentId.isSome = true → row.activeEnvironmentId = row'.activeEnvironmentId →
    id = id'

variable (events : List (DispatchEvent ι))

/-- A row that was finished once is still what it was then. -/
def FinishedStays (w : DispatchWorld ι) : Prop :=
  ∀ e ∈ events, ∀ id row, e.after.rows id = some row → row.status.isTerminal = true →
    w.rows id = some row

/-- No run is asked for on behalf of a dispatch that was cancelled, before or after. -/
def CancelledNeverRuns : Prop :=
  ∀ e ∈ events, ∀ id, Cancels e id → ∀ e' ∈ events, ¬ CreatesRunFor e' id

/-- No cancellation succeeds after a thread was bound. -/
def BoundNeverCancelled : Prop :=
  ∀ before e, before ++ [e] <+: events → ∀ id, Cancels e id → ∀ e' ∈ before, ∀ row,
    e'.after.rows id = some row → row.threadId = none

/-- A binding that was loaded was for the first attempt, of a row that the call found with
    this thread and with its environment. -/
def BindingOwned (t : Team (DispatchWorld ι) ι DispatchRequest DispatchRequest.Answer
      (Except DispatchError DispatchResult)) : Prop :=
  ∀ i spec source, t.running i = some (.done (.ok (.binding spec source))) →
    ∃ cfg threadId attempt readSource number id,
      t.state.calls i = some (.load cfg threadId attempt readSource, number) ∧ attempt = 1 ∧
      cfg.cycleDispatchId = some id ∧ ∃ e ∈ events, e.worker = i ∧
        e.before.calls i = t.state.calls i ∧ ∃ row, e.before.rows id = some row ∧
          row.threadId = some threadId ∧ row.activeEnvironmentId.isSome = true

/-- In every interleaving of dispatches, resumptions, cancellations, reads and checks, a
    dispatch owns its environment exactly until it is finished, and alone; what is finished
    stays; and what is cancelled is never started. -/
theorem dispatch_ownership [DecidableEq ι] {env : DispatchEnv} {events : List (DispatchEvent ι)}
    {t : Team (DispatchWorld ι) ι DispatchRequest DispatchRequest.Answer
      (Except DispatchError DispatchResult)}
    (hrun : (dispatchSystem ι env).Run .initial events t) :
    OwnsUntilFinished t.state ∧ OneOwner t.state ∧ FinishedStays events t.state ∧
      CancelledNeverRuns events ∧ BoundNeverCancelled events ∧ BindingOwned events t := by
  have hinvariant : ∃ places, OwnershipInv events t.state places ∧ ∀ i p, t.running i = some p →
      p.follows dispatchDiscipline (either DispatchSeat.returned fun _ _ => True) (places i) := by
    refine System.Run.invariant inv_initial ?_ ?_ hrun
    · rintro events w places i p w' hinv ⟨call, rfl, rfl⟩
      exact ⟨_, action_follows rfl, inv_entered hinv⟩
    · exact fun hinv hallowed hresp => inv_answered hinv hallowed hresp
  rcases hinvariant with ⟨places, hinv, hfollows⟩
  refine ⟨fun id row hrow => (hinv.rows.sound id row hrow).2.owner, hinv.rows.owners,
    fun e he id row hrow hfinal => ?_, fun e he id hcancels e' he' hcreates => ?_,
    fun before e hprefix id hcancels e' he' row hrow => ?_, fun i spec source hdone => ?_⟩
  · rcases hinv.later e he id row hrow with ⟨row', hrow', hlater⟩
    rw [hrow', hlater.final hfinal]
  · -- A cancelled row has no thread, and a run is asked for only once there is one.
    rcases hinv.cancelled e he id hcancels with ⟨_, row, hrow, hcancelled⟩
    rcases hinv.later e he id row hrow with ⟨row', hrow', hlater⟩
    rcases hinv.created e' he' id hcreates with ⟨bound, hbound, hthread⟩
    have hnone := ((hinv.rows.sound id row' hrow').2.cancelled (hlater.cancelled hcancelled)).2
    rw [hrow', some.injEq] at hbound
    rw [← hbound, hnone] at hthread
    exact absurd hthread Bool.false_ne_true
  · have hmem : e ∈ events := hprefix.subset (mem_append_right _ mem_cons_self)
    rcases hinv.ordered before e hprefix e' he' id row hrow with ⟨row', hrow', hlater⟩
    have hnone := (hinv.cancelled e hmem id hcancels).1 row' hrow'
    by_contra hthread
    have hbound := hlater.bound (isSome_iff_ne_none.mpr hthread)
    rw [hnone] at hbound
    exact absurd hbound Bool.false_ne_true
  · rcases (hfollows i _ hdone : (places i).returned (.binding spec source)) with
      ⟨cfg, threadId, attempt, readSource, number, row, hcall, hattempt, hread, hid, hthread,
        howned⟩
    rcases hinv.read i row hread with ⟨e, he, hworker, hsame, hrow⟩
    exact ⟨cfg, threadId, attempt, readSource, number, row.id, (hinv.call i).symm.trans hcall,
      hattempt, hid, e, he, hworker, hsame, row, hrow, hthread, howned⟩

end Ownership

def sampleDispatchEnv : DispatchEnv where
  launch := {
    rules := sampleRules
    sha256 := fun text => text
    uuid5 := fun name => name
    asciiJson := fun _ => ""
    utf8Json := fun _ => ""
    validateJsonObject := fun _ _ => none
    modelValidate := fun _ => some ⟨∅, false, 100⟩
    validateExternalResults := some
    validateContextPackets := some
    nativeIdentifierOk := fun _ => true
    quote := fun text => text }
  validateSpec _ := .error "invalid"

def sampleContext : DispatchContext where
  cycle := ⟨"p", "a", "env", 1⟩
  snapshot := ⟨"plan", ∅, "env", 1, "engine", "checksum"⟩
  artifact := some ⟨"store", "key"⟩
  target := some ⟨"https://target.example", 1⟩
  checks := []

def sampleOperator : DispatchCaller := ⟨"u", true⟩

theorem dispatchSystem_asked {ι : Type} [DecidableEq ι] {events : List (DispatchEvent ι)}
    {w : DispatchWorld ι} {i : ι}
    {running : ι → Option (Program DispatchRequest DispatchRequest.Answer
      (Except DispatchError DispatchResult))}
    {p : Program DispatchRequest DispatchRequest.Answer (Except DispatchError DispatchResult)}
    {next : r.Answer → Program DispatchRequest DispatchRequest.Answer
      (Except DispatchError DispatchResult)} {rows : DispatchRows}
    (hrun : (dispatchSystem ι env).Run .initial events ⟨w, Function.update running i (some p)⟩)
    (hp : p = .ask r next) (a : r.Answer) (h : w.rows.Answers r a rows) :
    ∃ e : DispatchEvent ι, (⟨e.request, e.answer⟩ : Σ r : DispatchRequest, r.Answer) = ⟨r, a⟩ ∧
      (dispatchSystem ι env).Run .initial (events ++ [e])
        ⟨{ w with rows := rows }, Function.update running i (some (next a))⟩ :=
  ⟨_, rfl, hrun.asked hp ⟨h, rfl, rfl⟩⟩

theorem dispatchSystem_called {ι : Type} [DecidableEq ι] {events : List (DispatchEvent ι)}
    {w : DispatchWorld ι} {running : ι → Option (Program DispatchRequest DispatchRequest.Answer
      (Except DispatchError DispatchResult))} (i : ι) (call : DispatchCall)
    (hrun : (dispatchSystem ι env).Run .initial events ⟨w, running⟩) :
    (dispatchSystem ι env).Run .initial events
      ⟨w.entered i call, Function.update running i (some (call.action env).run)⟩ :=
  .start hrun ⟨call, rfl, rfl⟩

theorem sampleCancelled :
    ∃ events t e, (dispatchSystem Nat sampleDispatchEnv).Run .initial events t ∧ e ∈ events ∧
      Cancels e "d" := by
  let body : DispatchBody := ⟨1, "k"⟩
  let row := reservedRow sampleOperator "c" "prep" "d" body sampleContext
    (dispatchConfig "d" sampleContext ⟨"https://target.example", 1⟩ ⟨"store", "key"⟩)
  have hidle : (dispatchSystem Nat sampleDispatchEnv).Run .initial [] ⟨.initial, fun _ => none⟩ :=
    .idle
  have h0 := dispatchSystem_called 0 (.dispatch sampleOperator "c" "prep" body) hidle
  obtain ⟨e1, _, h1⟩ := dispatchSystem_asked h0 rfl (.ok ()) rfl
  obtain ⟨e2, _, h2⟩ := dispatchSystem_asked h1 rfl (.ok sampleContext) rfl
  obtain ⟨e3, _, h3⟩ := dispatchSystem_asked h2 rfl (.ok none) rfl
  obtain ⟨e4, _, h4⟩ := dispatchSystem_asked h3 rfl (.ok none) rfl
  obtain ⟨e5, _, h5⟩ := dispatchSystem_asked h4 rfl (.ok sampleContext) rfl
  obtain ⟨e6, _, h6⟩ := dispatchSystem_asked h5 rfl "d" rfl
  obtain ⟨e7, _, h7⟩ := dispatchSystem_asked h6 rfl (.ok ()) rfl
  obtain ⟨e8, _, h8⟩ := dispatchSystem_asked h7 rfl (.committed row)
    ⟨rfl, ⟨rfl, fun _ _ h => (nomatch h)⟩, rfl⟩
  have h9 := dispatchSystem_called 1 (.cancel sampleOperator "c" "prep" "d") h8
  obtain ⟨e10, _, h10⟩ := dispatchSystem_asked h9 rfl (.ok ()) rfl
  obtain ⟨e11, hcancel, h11⟩ := dispatchSystem_asked h10 rfl (.ok true)
    ⟨⟨fun _ => ⟨row, rfl, rfl⟩, fun _ => rfl⟩, rfl⟩
  exact ⟨_, _, e11, h11, mem_append_right _ mem_cons_self, "c", "prep", "u", hcancel⟩

/-- At a dispatch that is reserved and then cancelled. -/
theorem dispatch_ownership_cancelled : ∃ (events : List (DispatchEvent Nat)) (t : _),
    OwnsUntilFinished t.state ∧ OneOwner t.state ∧ FinishedStays events t.state ∧
      BoundNeverCancelled events ∧ BindingOwned events t ∧
      ∃ e ∈ events, Cancels e "d" ∧ ∀ e' ∈ events, ¬ CreatesRunFor e' "d" := by
  obtain ⟨events, t, e, hrun, he, hcancels⟩ := sampleCancelled
  have hall := dispatch_ownership hrun
  exact ⟨events, t, hall.1, hall.2.1, hall.2.2.1, hall.2.2.2.2.1, hall.2.2.2.2.2, e, he, hcancels,
    hall.2.2.2.1 e he "d" hcancels⟩

end Apex.Routers
