import Apex.Domain.CycleHandoff
import Apex.Theory.Cycles.Evolution

/-!
# Follow-Up Actions Are Written Once

The key of a request is looked for in all histories before anything else, and every write
that is carried out puts it into one of them. So a key is in the histories at most once, and
whoever repeats a request meets the write of that very request: the answer is the list as it
is, or a refusal if something else is asked under the key.

## Main definitions

* `FollowupCall`, `serve`, `serveAll`: Requests that are carried out or refused, in order.
* `Continues`: What an action keeps.

## Theorems

* `writeFollowup_cases`: What a request does.
* `SoundFollowups.write`, `SoundFollowups.serveAll`: What requests keep.
* `SoundFollowups.replay`: A repeated request.
-/

namespace Apex.Domain

open List

variable {env : CyclesEnv} {actions result : List Followup} {body : FollowupWrite}
  {actor id now : String}

/-- A write that is not repeated is recorded: in the action that is named, or in a new one. -/
inductive Recorded (event : FollowupEvent) (id : String) : List Followup → List Followup → Prop
  | changed {before after : List Followup} {action : Followup} (hroom : action.history.length < 100) :
      Recorded event id (before ++ action :: after) (before ++ recorded event action :: after)
  | created {actions : List Followup} (hroom : actions.length < 200) :
      Recorded event id actions (actions ++ [recorded event (newFollowup event id)])

variable {event : FollowupEvent}

theorem recordFollowup_ok
    (h : recordFollowup actions body event id = .ok result) : Recorded event id actions result := by
  rw [recordFollowup] at h
  cases hfind : actions.find? body.names with
  | some action =>
    rw [hfind] at h
    rcases bind_ok.mp h with ⟨_, hroom, h⟩
    rw [raiseIf_ok, decide_eq_false_iff_not, Nat.not_le] at hroom
    rcases changeFirst_split (recorded event) hfind with
      ⟨before, after, hsplit, hchanged⟩
    rw [← pure_ok.mp h, hchanged, hsplit]
    exact .changed hroom
  | none =>
    rw [hfind] at h
    rcases bind_ok.mp h with ⟨_, _, h⟩
    rcases bind_ok.mp h with ⟨_, hroom, h⟩
    rw [raiseIf_ok, decide_eq_false_iff_not, Nat.not_le] at hroom
    rw [← pure_ok.mp h]
    exact .created hroom

theorem writeFollowup_cases {replayed : Bool}
    (h : writeFollowup env actions body actor id now = .ok (result, replayed)) :
    result = actions ∨ ((∀ e ∈ followupEvents actions, e.requestKey ≠ body.idempotencyKey) ∧
      Recorded (writtenEvent env body actor now) id actions result) := by
  rw [writeFollowup] at h
  cases hfind : (followupEvents actions).find? fun e => e.requestKey == body.idempotencyKey with
  | some event =>
    rw [hfind] at h
    rcases bind_ok.mp h with ⟨_, _, h⟩
    exact Or.inl (congrArg Prod.fst (pure_ok.mp h)).symm
  | none =>
    rw [hfind] at h
    rcases bind_ok.mp h with ⟨written, hwritten, h⟩
    cases pure_ok.mp h
    refine Or.inr ⟨fun e he hkey => ?_, recordFollowup_ok hwritten⟩
    exact find?_eq_none.mp hfind e he (beq_iff_eq.mpr hkey)

/-- An action goes on: it is the same one, and its history has only grown. -/
structure Continues (a b : Followup) : Prop where
  id : b.id = a.id
  createdBy : b.createdBy = a.createdBy
  createdAt : b.createdAt = a.createdAt
  history : a.history <+: b.history

instance : Std.Refl Continues := ⟨fun _ => ⟨rfl, rfl, rfl, List.prefix_rfl⟩⟩

instance : IsTrans Followup Continues := ⟨fun _ _ _ hab hbc =>
  ⟨hbc.id.trans hab.id, hbc.createdBy.trans hab.createdBy, hbc.createdAt.trans hab.createdAt,
    hab.history.trans hbc.history⟩⟩

theorem continues_recorded (event : FollowupEvent) (action : Followup) :
    Continues action (recorded event action) :=
  ⟨rfl, rfl, rfl, prefix_append _ _⟩

theorem Recorded.extends (h : Recorded event id actions result) :
    Extends Continues actions result := by
  cases h with
  | changed _ => exact Extends.change _ _ (continues_recorded _ _)
  | created _ => exact Extends.append _ _

theorem Recorded.events (h : Recorded event id actions result) :
    (followupEvents result).Perm (event :: followupEvents actions) := by
  cases h with
  | @changed before after action _ =>
    rw [followupEvents, followupEvents, flatMap_append, flatMap_append, flatMap_cons, flatMap_cons]
    have hhistory : (recorded event action).history = action.history ++ [event] := rfl
    rw [hhistory, append_assoc, singleton_append, ← append_assoc, ← append_assoc]
    exact perm_middle
  | created _ =>
    rw [followupEvents, followupEvents, flatMap_append, flatMap_singleton]
    exact perm_append_comm

/-- What an action shows is what its last write said. -/
structure Shows (action : Followup) (event : FollowupEvent) : Prop where
  last : action.history.getLast? = some event
  title : action.title = event.title
  owner : action.owner = event.owner
  status : action.status = event.status
  note : action.note = event.note

theorem shows_recorded (event : FollowupEvent) (action : Followup) :
    Shows (recorded event action) event :=
  ⟨getLast?_concat, rfl, rfl, rfl, rfl⟩

/-- What is told of the actions: a key is in the histories once, every action shows its last
    write, and there are no more actions and writes than allowed. -/
structure SoundFollowups (actions : List Followup) : Prop where
  keys : ((followupEvents actions).map FollowupEvent.requestKey).Nodup
  shows : ∀ a ∈ actions, ∃ event, Shows a event
  number : actions.length ≤ 200
  histories : ∀ a ∈ actions, a.history.length ≤ 100

theorem soundFollowups_nil : SoundFollowups [] :=
  ⟨nodup_nil, fun _ h => absurd h not_mem_nil, Nat.zero_le _,
    fun _ h => absurd h not_mem_nil⟩

theorem SoundFollowups.recorded (h : SoundFollowups actions)
    (hnew : ∀ e ∈ followupEvents actions, e.requestKey ≠ event.requestKey)
    (hrecorded : Recorded event id actions result) : SoundFollowups result := by
  have hkeys : ((followupEvents result).map FollowupEvent.requestKey).Nodup := by
    rw [(hrecorded.events.map _).nodup_iff, map_cons, nodup_cons]
    refine ⟨fun hmem => ?_, h.keys⟩
    rcases List.mem_map.mp hmem with ⟨e, he, hkey⟩
    exact hnew e he hkey
  cases hrecorded with
  | @changed before after action hroom =>
    have hmem : ∀ a ∈ before ++ Domain.recorded event action :: after,
        a ∈ before ++ action :: after ∨ a = Domain.recorded event action := by
      intro a ha
      rw [mem_append, mem_cons] at ha
      rw [mem_append, mem_cons]
      rcases ha with ha | rfl | ha
      · exact Or.inl (Or.inl ha)
      · exact Or.inr rfl
      · exact Or.inl (Or.inr (Or.inr ha))
    refine ⟨hkeys, fun a ha => ?_, ?_, fun a ha => ?_⟩
    · rcases hmem a ha with hold | rfl
      · exact h.shows a hold
      · exact ⟨event, shows_recorded event action⟩
    · have hnumber := h.number
      rw [length_append, length_cons] at hnumber ⊢
      exact hnumber
    · rcases hmem a ha with hold | rfl
      · exact h.histories a hold
      · rw [Domain.recorded, length_append]
        exact hroom
  | created hroom =>
    refine ⟨hkeys, fun a ha => ?_, ?_, fun a ha => ?_⟩
    · rcases mem_append.mp ha with hold | hlast
      · exact h.shows a hold
      · rw [mem_singleton.mp hlast]
        exact ⟨event, shows_recorded event _⟩
    · rw [length_append]
      exact hroom
    · rcases mem_append.mp ha with hold | hlast
      · exact h.histories a hold
      · rw [mem_singleton.mp hlast]
        exact Nat.le_of_ble_eq_true rfl

theorem SoundFollowups.write (h : SoundFollowups actions) {replayed : Bool}
    (hok : writeFollowup env actions body actor id now = .ok (result, replayed)) :
    SoundFollowups result ∧ Extends Continues actions result := by
  rcases writeFollowup_cases hok with rfl | ⟨hnew, hrecorded⟩
  · exact ⟨h, Extends.refl _⟩
  · exact ⟨h.recorded hnew hrecorded, hrecorded.extends⟩

theorem SoundFollowups.replay (h : SoundFollowups actions) (hevent : event ∈ followupEvents actions)
    (hkey : event.requestKey = body.idempotencyKey) :
    writeFollowup env actions body actor id now =
      if event.fingerprint = body.fingerprint env then .ok (actions, true)
      else .error "Operation key was already used for a different action change" := by
  have hfind : (followupEvents actions).find? (fun e => e.requestKey == body.idempotencyKey) =
      some event := by
    cases hfind : (followupEvents actions).find? fun e => e.requestKey == body.idempotencyKey with
    | none =>
      rw [find?_eq_none] at hfind
      exact absurd (beq_iff_eq.mpr hkey) (hfind event hevent)
    | some other =>
      have htest := find?_some hfind
      have hother := mem_of_find?_eq_some hfind
      rw [inj_on_of_nodup_map h.keys hother hevent ((beq_iff_eq.mp htest).trans hkey.symm)]
  rw [writeFollowup, hfind]
  by_cases hsame : event.fingerprint = body.fingerprint env
  · simp only [hsame, bne_self_eq_false, raiseIf, Bool.false_eq_true, if_false]
    rfl
  · simp only [if_neg hsame, bne_iff_ne.mpr hsame, raiseIf, if_true]
    rfl

/-- A request, who makes it, and the id and time it is carried out with. -/
structure FollowupCall where
  body : FollowupWrite
  actor : String
  id : String
  now : String

/-- A call: what is refused leaves the actions as they are. -/
def serve (env : CyclesEnv) (actions : List Followup) (call : FollowupCall) : List Followup :=
  match writeFollowup env actions call.body call.actor call.id call.now with
  | .ok (result, _) => result
  | .error _ => actions

def serveAll (env : CyclesEnv) (actions : List Followup) (calls : List FollowupCall) :
    List Followup :=
  calls.foldl (serve env) actions

theorem serve_refused {call : FollowupCall} {message : String}
    (h : writeFollowup env actions call.body call.actor call.id call.now = .error message) :
    serve env actions call = actions := by
  rw [serve, h]

theorem SoundFollowups.serve (env : CyclesEnv) (h : SoundFollowups actions) (call : FollowupCall) :
    SoundFollowups (serve env actions call) ∧ Extends Continues actions (serve env actions call) := by
  cases hok : writeFollowup env actions call.body call.actor call.id call.now with
  | ok answer =>
    have hserve : Domain.serve env actions call = answer.1 := by rw [Domain.serve, hok]
    rw [hserve]
    exact h.write hok
  | error message =>
    rw [serve_refused hok]
    exact ⟨h, Extends.refl _⟩

theorem SoundFollowups.serveAll (env : CyclesEnv) :
    ∀ (calls : List FollowupCall) {actions : List Followup},
    SoundFollowups actions → SoundFollowups (serveAll env actions calls) ∧
      Extends Continues actions (serveAll env actions calls)
  | [], _, h => ⟨h, Extends.refl _⟩
  | call :: calls, _, h => by
    have hstep := h.serve env call
    have hrest := SoundFollowups.serveAll env calls hstep.1
    exact ⟨hrest.1, hstep.2.trans hrest.2⟩

/-- Over any sequence of requests, carried out or refused: a key is in the histories once; a
    request under such a key changes nothing and is refused if it asks for something else; no
    write is lost or altered later; every action shows its last write; there are at most 200
    actions of at most 100 writes; and what is refused leaves the actions as they are. -/
theorem followups_idempotent (env : CyclesEnv) (calls : List FollowupCall) :
    ((followupEvents (serveAll env [] calls)).map FollowupEvent.requestKey).Nodup ∧
    (∀ a ∈ serveAll env [] calls, ∀ event ∈ a.history, ∀ (body : FollowupWrite)
      (actor id now : String), event.requestKey = body.idempotencyKey →
        writeFollowup env (serveAll env [] calls) body actor id now =
          if event.fingerprint = body.fingerprint env then .ok (serveAll env [] calls, true)
          else .error "Operation key was already used for a different action change") ∧
    (∀ more, Extends Continues (serveAll env [] calls) (serveAll env [] (calls ++ more))) ∧
    (∀ a ∈ serveAll env [] calls, ∃ event, Shows a event) ∧
    ((serveAll env [] calls).length ≤ 200 ∧ ∀ a ∈ serveAll env [] calls, a.history.length ≤ 100) ∧
    ∀ (call : FollowupCall) (message : String), writeFollowup env (serveAll env [] calls) call.body
      call.actor call.id call.now = .error message →
        serveAll env [] (calls ++ [call]) = serveAll env [] calls := by
  have hsound := (soundFollowups_nil.serveAll env calls).1
  refine ⟨hsound.keys, fun a ha event hevent body actor id now hkey => ?_, fun more => ?_,
    hsound.shows, ⟨hsound.number, hsound.histories⟩, fun call message hrefused => ?_⟩
  · exact hsound.replay (mem_flatMap.mpr ⟨a, ha, hevent⟩) hkey
  · rw [serveAll, serveAll, foldl_append]
    exact (hsound.serveAll env more).2
  · rw [serveAll, foldl_append]
    exact serve_refused hrefused

end Apex.Domain
