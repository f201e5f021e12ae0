import Apex.Adapters.RemoteIdempotency
import Apex.Core.Talk

/-!
# Exclusion By The Creation Guard

What a caller holds is told from its own answers: a lease, the lock, a database slot, a
granted advisory lock. The guard is walked along once, and shows that it only ever gives
back what it holds and ends with nothing. A process then keeps its books: the users of an
entry are the callers that lease it, the owner of a lock is the caller that holds it, and
the slots that are missing are held.

## Main definitions

* `Place`, `holds`: What a caller holds, and how its answers change that.
* `Kept`: The books of a process.
* `Inside`: A caller is in the guarded body.

## Theorems

* `remote_create_guarded`: What holds of every interleaving.
* `remote_create_drained`: What is left once all callers have ended.
-/

namespace Apex.Adapters.RemoteIdempotency

open Option Function

/-- A lease of an entry under a key, a lock, a slot, and an advisory lock it was granted. -/
@[ext]
structure Place where
  entry : Option (String × Nat) := none
  lock : Option Nat := none
  slot : Bool := false
  granted : Bool := false

variable (sha256 : String → List (Fin 256))

/-- Only what is held is given back, and the body is entered with all that it asks for. -/
def holds : Discipline Req Ans Place where
  allowed l
    | .lease _ => l = {}
    | .returnLease key entry => l = { entry := some (key, entry) }
    | .tryLock entry => ∃ key, l = { entry := some (key, entry) }
    | .unlock entry => l.lock = some entry
    | .tryAdmission => l.slot = false
    | .giveAdmission => l.slot = true
    | .begin => l.granted = false
    | .lockAdvisory k => ∃ key entry, l.entry = some (key, entry) ∧ k = advisoryKey sha256 key
    | .body key distributed => (∃ entry, l.entry = some (key, entry) ∧ l.lock = some entry) ∧
        (distributed = true → l.granted = true)
    | _ => True
  possible _
    | .unlock _, outcome | .giveAdmission, outcome => outcome = .ok ()
    | _, _ => True
  move l
    | .lease key, entry => { l with entry := some (key, entry) }
    | .returnLease _ _, _ => { l with entry := none }
    | .tryLock entry, got => if got then { l with lock := some entry } else l
    | .unlock _, _ => { l with lock := none }
    | .tryAdmission, got => if got then { l with slot := true } else l
    | .giveAdmission, _ => { l with slot := false }
    | .lockAdvisory _, .ok _ => { l with granted := true }
    | .endTransaction, _ => { l with granted := false }
    | _, _ => l

section Walk

open Program Apex.Action

variable {sha256} {l : Place} {key : String}

theorem poll_follows {attempt : Guard Bool} (l' : Place)
    (h : attempt.run.follows (holds sha256)
      (either (fun m got => m = if got then l' else l) (fun _ _ => False)) l) (patience : Nat) :
    (poll attempt patience).run.follows (holds sha256)
      (either (fun m _ => m = l') (fun m _ => m = l)) l := by
  induction patience with
  | zero => exact ask_bind_follows trivial fun a => a.elim
  | succ patience ih =>
    refine follows_run_bind.mpr (follows_mono h fun m outcome hm => ?_)
    rcases outcome with e | got
    · exact hm.elim
    · cases got with
      | true => exact hm
      | false =>
        rw [show m = l from hm]
        refine ask_bind_follows trivial fun a _ => settle_bind_either (fun _ _ => ih) ?_
        exact fun e _ => rfl

/-- A body that holds what it held before, however it ends. -/
def keeps (l : Place) : Place → Except Raised Unit → Prop := fun m _ => m = l

theorem settle_keeps {x : Except Raised Unit} :
    (settle x : Guard Unit).run.follows (holds sha256) (keeps l) l := by
  cases x <;> exact rfl

theorem transaction_follows {entry : Nat} {body : Guard Unit} (hl : l.granted = false)
    (hkey : l.entry = some (key, entry))
    (hbody : body.run.follows (holds sha256) (keeps { l with granted := true })
      { l with granted := true }) :
    (inTransaction sha256 key body).run.follows (holds sha256) (keeps l) l := by
  -- What is left of the transaction where it ends.
  have hend : ∀ m outcome, (m = l ∨ m = { l with granted := true }) →
      (ask Req.endTransaction >>= settle : Guard Unit).run.follows (holds sha256)
        (either (fun m _ => keeps l m outcome) (fun m e => keeps l m (.error e))) m := by
    rintro m outcome (rfl | rfl)
    all_goals
      refine ask_bind_follows trivial fun a _ => ?_
      rcases a with e | u <;> exact Place.ext rfl rfl rfl hl.symm
  refine ask_bind_follows hl fun a _ => settle_bind_either (fun _ _ => ?_) fun _ _ => rfl
  refine ensuring_follows ?_
  refine ask_bind_follows trivial fun a _ => settle_bind_either (fun _ _ => ?_)
    fun e _ => hend _ (.error e) (.inl rfl)
  refine ask_bind_follows trivial fun a _ => settle_bind_either (fun _ _ => ?_)
    fun e _ => hend _ (.error e) (.inl rfl)
  refine ask_bind_follows ⟨key, entry, hkey, rfl⟩ fun a _ => ?_
  rcases a with e | u
  · exact hend _ (.error e) (.inl rfl)
  · exact follows_mono hbody fun m outcome hm => hend m outcome (.inr hm)

theorem postgres_follows {entry patience : Nat} {body : Guard Unit} (hl : l.granted = false)
    (hslot : l.slot = false) (hkey : l.entry = some (key, entry))
    (hbody : body.run.follows (holds sha256) (keeps { l with slot := true, granted := true })
      { l with slot := true, granted := true }) :
    (postgresGuard sha256 key patience body).run.follows (holds sha256) (keeps l) l := by
  have hback : ∀ outcome, (ask Req.giveAdmission >>= settle : Guard Unit).run.follows (holds sha256)
      (either (fun m _ => keeps l m outcome) (fun m e => keeps l m (.error e)))
      { l with slot := true } := by
    refine fun outcome => ask_bind_follows rfl fun a ha => ?_
    rw [show a = .ok () from ha]
    exact Place.ext rfl rfl hslot.symm rfl
  refine follows_run_bind.mpr (follows_mono (poll_follows { l with slot := true }
    (ask_follows hslot fun got _ => rfl) patience) fun m outcome hm => ?_)
  rcases outcome with e | u
  · exact hm
  · rw [show m = { l with slot := true } from hm]
    refine ensuring_follows ?_
    refine ask_bind_follows trivial fun a _ => settle_bind_either (fun _ _ => ?_)
      fun e _ => hback (.error e)
    refine ensuring_follows (follows_mono (transaction_follows hl hkey hbody) ?_)
    rintro m outcome rfl
    refine ask_bind_follows trivial fun a _ => ?_
    rcases a with e | u
    · exact hback (.error e)
    · exact hback outcome

/-- The guard gives back what it takes, however it ends. -/
theorem guard_follows (key : String) (patience : Nat) :
    (remoteCreateGuard sha256 key patience).run.follows (holds sha256) (keeps {}) {} := by
  refine ask_bind_follows rfl fun entry _ => follows_run_bind.mpr (follows_run_lift.mpr ?_)
  refine follows_mono (poll_follows { entry := some (key, entry), lock := some entry }
    (ask_follows ?_ fun got _ => rfl) patience) fun m acquired hm => ?_
  · exact ⟨key, rfl⟩
  rcases acquired with e | u
  · rw [show m = { entry := some (key, entry) } from hm]
    exact ask_bind_follows rfl fun _ _ => rfl
  · rw [show m = { entry := some (key, entry), lock := some entry } from hm]
    have hback : ∀ outcome, (do
          ask (Req.unlock entry) >>= settle
          ask (Req.returnLease key entry) : Guard Unit).run.follows (holds sha256)
        (either (fun m _ => keeps {} m outcome) (fun m e => keeps {} m (.error e)))
        { entry := some (key, entry), lock := some entry } := by
      refine fun outcome => ask_bind_follows rfl fun a ha => ?_
      rw [show a = .ok () from ha]
      exact ask_bind_follows rfl fun _ _ => rfl
    refine ensuring_follows (ask_bind_follows trivial fun a _ => ?_)
    refine settle_bind_either (fun distributed _ => ?_) fun e _ => hback (.error e)
    cases distributed with
    | true =>
      refine follows_mono (postgres_follows rfl rfl rfl ?_) fun m outcome hm => hm ▸ hback outcome
      exact ask_bind_follows ⟨⟨entry, rfl, rfl⟩, fun _ => rfl⟩ fun _ _ => settle_keeps
    | false =>
      refine ask_bind_follows ⟨⟨entry, rfl, rfl⟩, nofun⟩ fun a _ => ?_
      rcases a with e | u
      · exact hback (.error e)
      · exact hback (.ok u)

end Walk

def Place.share (entry : Nat) (l : Place) : ℕ := if l.entry.map (·.2) = some entry then 1 else 0

def Place.slots (l : Place) : ℕ := if l.slot = true then 1 else 0

section Books

variable {ι : Type}

/-- An entry has as many users as callers lease it, and is registered as long as there are any; a
    lock is owned by who holds it; the slots that are not free are held. -/
structure Kept (places : ι → Place) (s : Process ι) : Prop where
  fresh : ∀ key entry, s.registry key = some entry → entry < s.made
  alone : ∀ key key' entry, s.registry key = some entry → s.registry key' = some entry → key = key'
  leased : ∀ i key entry, (places i).entry = some (key, entry) → s.registry key = some entry
  live : ∀ key entry, s.registry key = some entry → s.users entry ≠ 0
  users : ∀ entry, Total (fun i => (places i).share entry) (s.users entry)
  locked : ∀ entry i, s.lock entry = some i ↔ (places i).lock = some entry
  admitted : Total (fun i => (places i).slots) (postgresGuardCapacity - s.postgresAdmission)

theorem Kept.initial : Kept (fun _ => {}) ({} : Process ι) where
  fresh _ _ h := nomatch h
  alone _ _ _ h := nomatch h
  leased _ _ _ h := nomatch h
  live _ _ h := nomatch h
  users _ := Total.zero fun _ => rfl
  locked _ _ := ⟨nofun, nofun⟩
  admitted := Total.zero fun _ => rfl

variable {places : ι → Place} {s : Process ι} {i : ι} {key : String} {entry e : Nat}

theorem share_self : ({ entry := some (key, entry) } : Place).share entry = 1 := if_pos rfl

theorem share_ne (h : e ≠ entry) : ({ entry := some (key, entry) } : Place).share e = 0 :=
  if_neg fun hc => h (some.inj hc).symm

theorem entry_of_share {l : Place} (h : l.share entry ≠ 0) :
    ∃ key, l.entry = some (key, entry) := by
  rw [Place.share] at h
  cases hentry : l.entry with
  | none =>
    rw [hentry] at h
    exact absurd rfl h
  | some pair =>
    rw [hentry] at h
    by_contra hne
    exact h (if_neg fun hc => hne ⟨pair.1, by rw [← some.inj hc]⟩)

variable [DecidableEq ι]

section

variable (h : Kept places s)

include h

/-- What a caller does not change about what it holds is owned as before. -/
theorem locked_update {l : Place} (hlock : l.lock = (places i).lock)
    (entry : Nat) (j : ι) :
    s.lock entry = some j ↔ (update places i l j).lock = some entry := by
  rw [h.locked]
  by_cases hj : j = i
  · rw [hj, update_self, hlock]
  · rw [update_of_ne hj]

theorem Kept.lease (hplace : places i = {}) :
    Kept (update places i { entry := some (key, (s.lease key).1) }) (s.lease key).2 := by
  obtain ⟨entry, hentry⟩ : ∃ entry, entry = (s.getOrCreate key).1 := ⟨_, rfl⟩
  -- Who had registered what still has, and the key has the entry.
  have hnew : (s.getOrCreate key).2.registry key = some entry ∧ entry < (s.getOrCreate key).2.made ∧
      ∀ key' e, (s.getOrCreate key).2.registry key' = some e →
        (key' = key ∧ e = entry) ∨ (s.registry key' = some e ∧ e ≠ entry) := by
    rw [hentry, Process.getOrCreate]
    cases hreg : s.registry key with
    | some entry =>
      refine ⟨hreg, h.fresh key entry hreg, fun key' e hreg' => ?_⟩
      by_cases he : e = entry
      · exact .inl ⟨h.alone key' key entry (he ▸ hreg') hreg, he⟩
      · exact .inr ⟨hreg', he⟩
    | none =>
      refine ⟨update_self .., Nat.lt_succ_self _, fun key' e hreg' => ?_⟩
      dsimp only at hreg'
      by_cases hkey : key' = key
      · rw [hkey, update_self] at hreg'
        exact .inl ⟨hkey, (some.inj hreg').symm⟩
      · rw [update_of_ne hkey] at hreg'
        exact .inr ⟨hreg', Nat.ne_of_lt (h.fresh key' e hreg')⟩
  have hold : ∀ key' e, s.registry key' = some e → (s.getOrCreate key).2.registry key' = some e ∧
      e < (s.getOrCreate key).2.made := by
    intro key' e hreg'
    rw [Process.getOrCreate]
    cases hreg : s.registry key with
    | some entry => exact ⟨hreg', h.fresh key' e hreg'⟩
    | none =>
      have hkey : key' ≠ key := fun hkey => by rw [hkey, hreg] at hreg'; cases hreg'
      exact ⟨(update_of_ne hkey ..).trans hreg', Nat.lt_succ_of_lt (h.fresh key' e hreg')⟩
  have hrest : (s.getOrCreate key).2.users = s.users ∧ (s.getOrCreate key).2.lock = s.lock ∧
      (s.getOrCreate key).2.postgresAdmission = s.postgresAdmission := by
    rw [Process.getOrCreate]
    split <;> exact ⟨rfl, rfl, rfl⟩
  have hstep : s.lease key = (entry, { (s.getOrCreate key).2 with
      users := update s.users entry (s.users entry + 1) }) := by
    rw [Process.lease, hentry, ← hrest.1]
  rw [hstep]
  refine ⟨fun key' e hreg' => ?_, fun key' key'' e hreg' hreg'' => ?_, fun j key' e hj => ?_,
    fun key' e hreg' => ?_, fun e => h.users e |>.moved ?_, fun e j => ?_, ?_⟩
  · rcases hnew.2.2 key' e hreg' with ⟨-, rfl⟩ | ⟨hreg, -⟩
    · exact hnew.2.1
    · exact (hold key' e hreg).2
  · rcases hnew.2.2 key' e hreg' with ⟨rfl, rfl⟩ | ⟨hreg, hne⟩
    · exact (hnew.2.2 key'' e hreg'').elim (·.1.symm) fun hc => absurd rfl hc.2
    · exact h.alone key' key'' e hreg ((hnew.2.2 key'' e hreg'').resolve_left (hne ·.2)).1
  · by_cases hji : j = i
    · rw [hji, update_self] at hj
      cases hj
      exact hnew.1
    · rw [update_of_ne hji] at hj
      exact (hold key' e (h.leased j key' e hj)).1
  · dsimp only
    rcases hnew.2.2 key' e hreg' with ⟨-, rfl⟩ | ⟨hreg, hne⟩
    · have hpos := (h.users e).nonneg
      rw [update_self]
      omega
    · rw [update_of_ne hne]
      exact h.live key' e hreg
  · rw [hplace]
    dsimp only
    by_cases he : e = entry
    · rw [he, update_self, share_self]
      exact (Int.sub_zero _ ▸ rfl)
    · rw [update_of_ne he, share_ne he]
      exact (Int.sub_zero _ ▸ (Int.add_zero _).symm)
  · exact hrest.2.1 ▸ locked_update h (by rw [hplace]) e j
  · dsimp only
    rw [hrest.2.2]
    exact h.admitted.moved (by rw [hplace]; exact (Int.sub_zero _ ▸ (Int.add_zero _).symm))

theorem Kept.returnLease (hplace : places i = { entry := some (key, entry) }) :
    Kept (update places i {}) (s.returnLease key entry) := by
  have hreg : s.registry key = some entry := h.leased i key entry (by rw [hplace])
  have husers : ∀ e, Total (fun j => (update places i {} j).share e)
      (update s.users entry (s.users entry - 1) e) := by
    refine fun e => (h.users e).moved ?_
    rw [hplace]
    by_cases he : e = entry
    · rw [he, update_self, share_self]
      exact (Int.add_zero _).symm
    · rw [update_of_ne he, share_ne he]
      exact (Int.sub_zero _ ▸ (Int.add_zero _).symm)
  have hslots := h.admitted.moved (i := i) (l := {})
    (m := postgresGuardCapacity - s.postgresAdmission)
    (by rw [hplace]; exact (Int.sub_zero _ ▸ (Int.add_zero _).symm))
  have hother : ∀ j key' e, (update places i ({} : Place) j).entry = some (key', e) →
      s.registry key' = some e := by
    intro j key' e hj
    by_cases hji : j = i
    · rw [hji, update_self] at hj
      cases hj
    · rw [update_of_ne hji] at hj
      exact h.leased j key' e hj
  have hlive : ∀ key' e, s.registry key' = some e → e ≠ entry →
      update s.users entry (s.users entry - 1) e ≠ 0 := by
    intro key' e hreg' he
    rw [update_of_ne he]
    exact h.live key' e hreg'
  have hlocked := locked_update h (i := i) (l := {}) (by rw [hplace])
  rw [Process.returnLease]
  split
  · next hlast =>
      have hkept : ∀ key' e, update s.registry key none key' = some e →
          key' ≠ key ∧ s.registry key' = some e := by
        intro key' e hreg'
        by_cases hkey : key' = key
        · rw [hkey, update_self] at hreg'
          cases hreg'
        · rw [update_of_ne hkey] at hreg'
          exact ⟨hkey, hreg'⟩
      refine ⟨fun key' e hreg' => h.fresh key' e (hkept key' e hreg').2,
        fun key' key'' e hreg' hreg'' => h.alone key' key'' e (hkept key' e hreg').2
          (hkept key'' e hreg'').2, fun j key' e hj => ?_, fun key' e hreg' => ?_, husers,
        hlocked, hslots⟩
      · have hreg' := hother j key' e hj
        refine (update_of_ne (fun hkey => ?_) ..).trans hreg'
        -- Whoever else leases the entry keeps it from being dropped.
        rw [hkey] at hreg' hj
        cases hreg.symm.trans hreg'
        have hshare := (husers entry).share_le j
        have hzero : update s.users entry (s.users entry - 1) entry = 0 := hlast.1
        have hone : (update places i {} j).share entry = 1 := by
          rw [Place.share, hj]
          exact if_pos rfl
        omega
      · rcases hkept key' e hreg' with ⟨hkey, hold⟩
        exact hlive key' e hold fun he => hkey (h.alone key' key e hold (he ▸ hreg))
  · next hmore =>
      refine ⟨h.fresh, h.alone, hother, fun key' e hreg' => ?_, husers, hlocked, hslots⟩
      by_cases he : e = entry
      · exact fun hzero => hmore ⟨he ▸ hzero, hreg⟩
      · exact hlive key' e hreg' he

/-- Only a lock changes, and who holds it. -/
theorem Kept.relock {lock : Nat → Option ι} {l : Place}
    (hentry : l.entry = (places i).entry) (hslot : l.slot = (places i).slot)
    (hlocked : ∀ e j, lock e = some j ↔ (update places i l j).lock = some e) :
    Kept (update places i l) { s with lock := lock } := by
  refine ⟨h.fresh, h.alone, fun j key e hj => ?_, h.live, fun e => (h.users e).moved ?_, hlocked,
    h.admitted.moved ?_⟩
  · by_cases hji : j = i
    · rw [hji, update_self, hentry] at hj
      exact h.leased i key e hj
    · rw [update_of_ne hji] at hj
      exact h.leased j key e hj
  · rw [Place.share, Place.share, hentry]
    exact (Int.sub_add_cancel _ _).symm
  · rw [Place.slots, Place.slots, hslot]
    exact (Int.sub_add_cancel _ _).symm

theorem Kept.tryLock (hplace : (places i).lock = none)
    (hfree : s.lock entry = none) :
    Kept (update places i { places i with lock := some entry })
      { s with lock := update s.lock entry (some i) } := by
  refine h.relock rfl rfl fun e j => ?_
  by_cases he : e = entry
  · rw [he, update_self]
    by_cases hj : j = i
    · rw [hj, update_self]
      exact ⟨fun _ => rfl, fun _ => rfl⟩
    · rw [update_of_ne hj, ← h.locked, hfree]
      exact ⟨fun hc => absurd (some.inj hc).symm hj, nofun⟩
  · rw [update_of_ne he, h.locked]
    by_cases hj : j = i
    · rw [hj, update_self, hplace]
      exact ⟨nofun, fun hc => absurd (some.inj hc).symm he⟩
    · rw [update_of_ne hj]

theorem Kept.unlock (hplace : (places i).lock = some entry) :
    Kept (update places i { places i with lock := none })
      { s with lock := update s.lock entry none } := by
  refine h.relock rfl rfl fun e j => ?_
  by_cases hj : j = i
  · rw [hj, update_self]
    refine ⟨fun hc => ?_, nofun⟩
    by_cases he : e = entry
    · rw [he, update_self] at hc
      cases hc
    · rw [update_of_ne he, h.locked, hplace] at hc
      exact absurd (some.inj hc).symm he
  · rw [update_of_ne hj, ← h.locked]
    by_cases he : e = entry
    · rw [he, update_self, (h.locked entry i).mpr hplace]
      exact ⟨nofun, fun hc => absurd (some.inj hc).symm hj⟩
    · rw [update_of_ne he]

/-- Only the free slots change, and who holds one. -/
theorem Kept.admit {n : ℕ} {slot : Bool}
    (hn : (n : ℤ) + Place.slots { slot := slot } = s.postgresAdmission + (places i).slots) :
    Kept (update places i { places i with slot := slot })
      { s with postgresAdmission := n } := by
  refine ⟨h.fresh, h.alone, fun j key e hj => ?_, h.live, fun e => (h.users e).moved ?_,
    locked_update (s := s) h rfl, h.admitted.moved ?_⟩
  · by_cases hji : j = i
    · rw [hji, update_self] at hj
      exact h.leased i key e hj
    · rw [update_of_ne hji] at hj
      exact h.leased j key e hj
  · exact (Int.sub_add_cancel _ _).symm
  · rw [show Place.slots { places i with slot := slot } = Place.slots { slot := slot } from rfl]
    dsimp only
    omega

end

end Books

section Runs

variable {ι π : Type} [DecidableEq π] (home : ι → π)

def here (p : π) (places : ι → Place) (i : ι) : Place := if home i = p then places i else {}

/-- The books of all processes, and what callers and the database know of advisory locks. -/
structure Guarded (places : ι → Place) (w : World ι π) : Prop where
  kept : ∀ p, Kept (here home p places) (w.processes p)
  uncalled : ∀ i, w.called i = false → places i = {}
  granted : ∀ i, (places i).granted = true → ∃ key entry, (places i).entry = some (key, entry) ∧
    (w.database.opened i = true → w.database.advisory (advisoryKey sha256 key) = some i)

variable {sha256 home} {places : ι → Place} {w w' : World ι π} {i : ι} {l : Place} {p : π}

theorem here_home : here home (home i) places i = places i := if_pos rfl

theorem Guarded.initial : Guarded sha256 home (fun _ => {}) ({} : World ι π) where
  kept p := by
    have hnobody : here home p (fun _ => {}) = fun _ => {} := funext fun i => ite_self _
    rw [hnobody]
    exact Kept.initial
  uncalled _ _ := rfl
  granted _ h := nomatch h

theorem Guarded.ending (h : Guarded sha256 home places w) (ended : ι → Bool) :
    Guarded sha256 home places { w with database := w.database.ending ended } := by
  refine ⟨h.kept, h.uncalled, fun i hi => ?_⟩
  rcases h.granted i hi with ⟨key, entry, hentry, hheld⟩
  refine ⟨key, entry, hentry, fun hopened => ?_⟩
  rcases Bool.and_eq_true_iff.mp hopened with ⟨hwas, hstill⟩
  rw [Database.ending]
  dsimp only
  rw [hheld hwas, filter_some, if_pos hstill]

theorem here_iff {P : Place → Prop} (hP : ¬P {}) :
    P (here home p places i) ↔ home i = p ∧ P (places i) := by
  rw [here]
  split
  · next hp => exact (and_iff_right hp).symm
  · next hp => exact ⟨fun h => absurd h hP, fun h => absurd h.1 hp⟩

variable [DecidableEq ι]

theorem here_update : here home p (update places i l) =
    if home i = p then update (here home p places) i l else here home p places := by
  funext j
  by_cases hj : j = i
  · subst hj
    by_cases hp : home j = p
    · rw [if_pos hp, here, if_pos hp, update_self, update_self]
    · rw [if_neg hp, here, here, if_neg hp, if_neg hp]
  · by_cases hp : home i = p
    · rw [if_pos hp, update_of_ne hj, here, update_of_ne hj, here]
    · rw [if_neg hp, here, update_of_ne hj, here]

/-- A step in the caller's process. -/
theorem Guarded.inProcess {α : Type} {step : Process ι → α × Process ι} {a : α}
    (h : Guarded sha256 home places w) (hcalled : w.called i = true)
    (hstep : w.inProcess (home i) step a w')
    (hkept : ∀ mine, mine i = places i → Kept mine (w.processes (home i)) →
      Kept (update mine i l) (step (w.processes (home i))).2)
    (hgranted : l.granted = true → (places i).granted = true ∧ l.entry = (places i).entry) :
    Guarded sha256 home (update places i l) w' := by
  rcases hstep with ⟨-, rfl⟩
  refine ⟨fun p => ?_, fun j hj => ?_, fun j hj => ?_⟩
  · rw [here_update]
    dsimp only
    by_cases hp : home i = p
    · rw [if_pos hp, ← hp, update_self]
      exact hkept _ here_home (h.kept _)
    · rw [if_neg hp, update_of_ne (Ne.symm hp)]
      exact h.kept p
  · have hji : j ≠ i := fun hji => by rw [hji, hcalled] at hj; cases hj
    rw [update_of_ne hji]
    exact h.uncalled j hj
  · by_cases hji : j = i
    · subst hji
      rw [update_self] at hj ⊢
      rw [(hgranted hj).2]
      exact h.granted j (hgranted hj).1
    · rw [update_of_ne hji] at hj ⊢
      exact h.granted j hj

/-- A step in the database. -/
theorem Guarded.inDatabase (db : Database ι) (granted : Bool) (h : Guarded sha256 home places w)
    (hcalled : w.called i = true)
    (hother : ∀ j, j ≠ i → db.opened j = true → w.database.opened j = true ∧
      ∀ k, w.database.advisory k = some j → db.advisory k = some j)
    (hgranted : granted = true → ∃ key entry, (places i).entry = some (key, entry) ∧
      db.advisory (advisoryKey sha256 key) = some i) :
    Guarded sha256 home (update places i { places i with granted := granted })
      { w with database := db } := by
  refine ⟨fun p => ?_, fun j hj => ?_, fun j hj => ?_⟩
  · rw [here_update]
    split
    · next hp =>
        rw [← hp]
        exact (h.kept _).relock (by rw [here_home]) (by rw [here_home])
          (locked_update (h.kept _) (by rw [here_home]))
    · exact h.kept p
  · have hji : j ≠ i := fun hji => by rw [hji, hcalled] at hj; cases hj
    rw [update_of_ne hji]
    exact h.uncalled j hj
  · by_cases hji : j = i
    · subst hji
      rw [update_self] at hj ⊢
      rcases hgranted hj with ⟨key, entry, hentry, hheld⟩
      exact ⟨key, entry, hentry, fun _ => hheld⟩
    · rw [update_of_ne hji] at hj ⊢
      rcases h.granted j hj with ⟨key, entry, hentry, hheld⟩
      refine ⟨key, entry, hentry, fun hopened => ?_⟩
      rcases hother j hji hopened with ⟨hwas, hstill⟩
      exact hstill _ (hheld hwas)

theorem Guarded.answer {r : Req} {a : Ans r} (h : Guarded sha256 home places w)
    (hcalled : w.called i = true) (hallowed : (holds sha256).allowed (places i) r)
    (hanswer : answers home i w r a w') :
    (holds sha256).possible (places i) r a ∧
      Guarded sha256 home (update places i ((holds sha256).move (places i) r a)) w' := by
  have hmine : Kept (here home (home i) places) (w.processes (home i)) := h.kept (home i)
  -- An answer that changes neither what is held nor the world.
  have hnothing : w' = w → Guarded sha256 home (update places i (places i)) w' := by
    rintro rfl
    rwa [update_eq_self]
  cases r with
  | lease key =>
    have hanswer : w.inProcess (home i) (·.lease key) a w' := hanswer
    have hplace : places i = {} := hallowed
    refine ⟨trivial, h.inProcess hcalled hanswer (fun mine hi hmine => ?_) fun hg => ?_⟩
    · rw [show a = _ from hanswer.1, hplace]
      exact hmine.lease (hi.trans hplace)
    · rw [hplace] at hg
      cases hg
  | returnLease key entry =>
    have hplace : places i = { entry := some (key, entry) } := hallowed
    have hanswer : w.inProcess (home i) (fun p => ((), p.returnLease key entry)) a w' := hanswer
    refine ⟨trivial, h.inProcess hcalled hanswer (fun mine hi hmine => ?_) fun hg => ?_⟩
    · rw [hplace]
      exact hmine.returnLease (hi.trans hplace)
    · rw [hplace] at hg
      cases hg
  | tryLock entry =>
    rcases hallowed with ⟨key, hplace⟩
    have hanswer : w.inProcess (home i) (·.tryLock entry i) a w' := hanswer
    refine ⟨trivial, h.inProcess hcalled hanswer (fun mine hi hmine => ?_) fun hg => ?_⟩
    · rw [show a = _ from hanswer.1, ← hi]
      dsimp only [holds]
      unfold Process.tryLock
      split
      · next hfree =>
          exact hmine.tryLock (by rw [hi, hplace]) (isNone_iff_eq_none.mp hfree)
      · rw [if_neg Bool.false_ne_true, update_eq_self]
        exact hmine
    · cases a <;> exact ⟨hg, rfl⟩
  | unlock entry =>
    have hlock : (places i).lock = some entry := hallowed
    have hanswer : w.inProcess (home i) (·.unlock entry) a w' := hanswer
    have hown : (w.processes (home i)).lock entry = some i :=
      (hmine.locked entry i).mpr (by rw [here_home, hlock])
    have hstep : (w.processes (home i)).unlock entry = (.ok (), { w.processes (home i) with
        lock := update (w.processes (home i)).lock entry none }) :=
      if_pos (by rw [hown]; rfl)
    refine ⟨hanswer.1.trans (congrArg _ hstep),
      h.inProcess hcalled hanswer (fun mine hi hmine => ?_) fun hg => ⟨hg, rfl⟩⟩
    rw [hstep, ← hi]
    exact hmine.unlock (by rw [hi, hlock])
  | tryAdmission =>
    have hslot : (places i).slot = false := hallowed
    refine ⟨trivial, h.inProcess hcalled hanswer (fun mine hi hmine => ?_) fun hg => ?_⟩
    · rw [show a = _ from hanswer.1, ← hi]
      dsimp only [holds]
      unfold Process.tryAdmission
      split
      · refine hmine.admit ?_
        rw [hi, Place.slots, Place.slots, hslot, if_pos rfl, if_neg Bool.false_ne_true]
        omega
      · rw [if_neg Bool.false_ne_true, update_eq_self]
        exact hmine
    · cases a <;> exact ⟨hg, rfl⟩
  | giveAdmission =>
    have hslot : (places i).slots = 1 := if_pos hallowed
    have htaken : (w.processes (home i)).postgresAdmission < postgresGuardCapacity := by
      have hshare := hmine.admitted.share_le i
      rw [here_home, hslot] at hshare
      omega
    have hstep : (w.processes (home i)).giveAdmission = (.ok (), { w.processes (home i) with
        postgresAdmission := (w.processes (home i)).postgresAdmission + 1 }) := if_pos htaken
    refine ⟨hanswer.1.trans (congrArg _ hstep),
      h.inProcess hcalled hanswer (fun mine hi hmine => ?_) fun hg => ⟨hg, rfl⟩⟩
    rw [hstep, ← hi]
    exact hmine.admit (by rw [hi, hslot]; rfl)
  | begin =>
    have hgranted : (places i).granted = false := hallowed
    rcases a with e | u
    · exact ⟨trivial, hnothing hanswer⟩
    · rw [show w' = _ from hanswer]
      refine ⟨trivial, h.inDatabase _ _ hcalled (fun j hj hopened => ⟨?_, fun _ => id⟩)
        fun hg => ?_⟩
      · exact (update_of_ne hj ..).symm.trans hopened
      · cases hgranted.symm.trans hg
  | lockAdvisory k =>
    rcases hallowed with ⟨key, entry, hentry, rfl⟩
    rcases hanswer with ⟨-, halone, rfl⟩ | ⟨hfailed, rfl⟩
    · have hother : ∀ granted,
          Guarded sha256 home (update places i { places i with granted := granted })
            { w with database := w.database.grant i (advisoryKey sha256 key) } := by
        refine fun granted => h.inDatabase _ _ hcalled
          (fun j hj hopened => ⟨hopened, fun k hk => ?_⟩)
          fun _ => ⟨key, entry, hentry, update_self ..⟩
        -- Whoever else holds a lock holds another one.
        have hne : k ≠ advisoryKey sha256 key := fun hc => hj (halone j (hc ▸ hk))
        exact (update_of_ne hne ..).trans hk
      refine ⟨trivial, ?_⟩
      cases a with
      | ok u => exact hother true
      | error e => exact hother (places i).granted
    · rcases a with e | u
      · exact ⟨trivial, hnothing rfl⟩
      · exact absurd rfl hfailed
  | endTransaction =>
    have hover := h.inDatabase w.database false hcalled
      (fun j _ hopened => ⟨hopened, fun _ => id⟩) nofun
    refine ⟨trivial, ?_⟩
    rcases hanswer with rfl | rfl
    · exact hover.ending _
    · exact hover
  | stall => exact a.elim
  | _ => exact ⟨trivial, hnothing hanswer⟩

/-- What a caller has taken in a run and not given back. -/
abbrev held (sha256 : String → List (Fin 256))
    (events : List (System.Event (World ι π) ι Req Ans)) : ι → Place :=
  (holds sha256).place {} events

def Inside (t : Team (World ι π) ι Req Ans (Except Raised Unit)) (i : ι) (key : String)
    (distributed : Bool) : Prop :=
  ∃ next, t.running i = some (.ask (.body key distributed) next)

variable {events : List (System.Event (World ι π) ι Req Ans)}
  {t : Team (World ι π) ι Req Ans (Except Raised Unit)}

theorem run_guarded (hrun : (system sha256 home).Run {} events t) :
    Guarded sha256 home (held sha256 events) t.state ∧ ∀ i p, t.running i = some p →
      p.follows (holds sha256) (keeps {}) (held sha256 events i) := by
  refine hrun.holding (fun events w => Guarded sha256 home (held sha256 events) w)
    Guarded.initial (fun {events w i p w'} h hstart => ?_)
    (fun {events w i r a w'} h hallowed hresp => ?_)
  · rcases hstart with ⟨hnew, rfl, key, patience, rfl⟩
    have hplace : (holds sha256).place {} events i = {} := h.uncalled i hnew
    refine ⟨by rw [hplace]; exact guard_follows key patience, h.kept, fun j hj => h.uncalled j ?_,
      h.granted⟩
    by_cases hji : j = i
    · rw [hji, hnew]
    · exact (update_of_ne hji ..).symm.trans hj
  · rcases hresp with ⟨hcalled, ended, hanswer⟩
    rcases (h.ending ended).answer hcalled hallowed hanswer with ⟨hpossible, hnext⟩
    refine ⟨hpossible, ?_⟩
    rw [held, Discipline.place_append]
    exact hnext

/-- Callers of one key in a process exclude each other in the body and share an entry; with the
    distributed lock they do in all processes, while their transactions are open. An entry is
    registered as long as it has users, a lock is owned by who holds it and is released by
    nobody else, and whoever has ended, in whatever way, holds nothing. -/
theorem remote_create_guarded (hrun : (system sha256 home).Run {} events t) :
    (∀ i j key d d', Inside t i key d → Inside t j key d' → home i = home j → i = j) ∧
    (∀ i key, Inside t i key true → t.state.database.opened i = true →
      t.state.database.advisory (advisoryKey sha256 key) = some i) ∧
    (∀ i j key, Inside t i key true → Inside t j key true → t.state.database.opened i = true →
      t.state.database.opened j = true → i = j) ∧
    (∀ p key entry, (t.state.processes p).registry key = some entry ↔
      ∃ i, home i = p ∧ (held sha256 events i).entry = some (key, entry)) ∧
    (∀ p key entry, (t.state.processes p).registry key = some entry →
      (t.state.processes p).users entry =
        {i | home i = p ∧ (held sha256 events i).entry.map (·.2) = some entry}.ncard) ∧
    (∀ p entry i, (t.state.processes p).lock entry = some i ↔
      home i = p ∧ (held sha256 events i).lock = some entry) ∧
    (∀ p, ((t.state.processes p).postgresAdmission : ℤ) +
      {i | home i = p ∧ (held sha256 events i).slot = true}.ncard = postgresGuardCapacity) ∧
    (∀ i outcome, t.running i = some (.done outcome) → held sha256 events i = {}) ∧
    (∀ i entry next, t.running i = some (.ask (.unlock entry) next) →
      (t.state.processes (home i)).lock entry = some i) := by
  rcases run_guarded hrun with ⟨h, hfollows⟩
  have hinside : ∀ {i key d}, Inside t i key d →
      (∃ entry, (held sha256 events i).entry = some (key, entry) ∧
        (held sha256 events i).lock = some entry) ∧
      (d = true → (held sha256 events i).granted = true) :=
    fun ⟨next, hi⟩ => (hfollows _ _ hi).1
  have hleased : ∀ i key entry, (held sha256 events i).entry = some (key, entry) →
      (t.state.processes (home i)).registry key = some entry :=
    fun i key entry hentry => (h.kept (home i)).leased i key entry (by rw [here_home, hentry])
  have hlocked : ∀ p entry i, (t.state.processes p).lock entry = some i ↔
      home i = p ∧ (held sha256 events i).lock = some entry :=
    fun p entry i => ((h.kept p).locked entry i).trans
      (here_iff (P := fun l => l.lock = some entry) nofun)
  have hopened : ∀ i key, Inside t i key true → t.state.database.opened i = true →
      t.state.database.advisory (advisoryKey sha256 key) = some i := by
    intro i key hi hopen
    rcases hinside hi with ⟨⟨entry, hentry, -⟩, hgranted⟩
    rcases h.granted i (hgranted rfl) with ⟨key', entry', hentry', hheld⟩
    cases hentry.symm.trans hentry'
    exact hheld hopen
  refine ⟨fun i j key d d' hi hj hhome => ?_, hopened, fun i j key hi hj hopen hopen' => ?_,
    fun p key entry => ⟨fun hreg => ?_, fun ⟨i, hi, hentry⟩ => hi ▸ hleased i key entry hentry⟩,
    fun p key entry _ => ?_, hlocked, fun p => ?_, fun i outcome hi => hfollows _ _ hi,
    fun i entry next hi => (hlocked _ _ _).mpr ⟨rfl, (hfollows _ _ hi).1⟩⟩
  · -- They lease the same entry, and its lock has one owner.
    rcases hinside hi with ⟨⟨entry, hentry, hlock⟩, -⟩
    rcases hinside hj with ⟨⟨entry', hentry', hlock'⟩, -⟩
    have hreg := hleased i key entry hentry
    rw [hhome, hleased j key entry' hentry'] at hreg
    cases hreg
    have hown := (hlocked (home j) entry i).mpr ⟨hhome, hlock⟩
    rw [(hlocked (home j) entry j).mpr ⟨rfl, hlock'⟩] at hown
    exact (some.inj hown).symm
  · exact some.inj ((hopened i key hi hopen).symm.trans (hopened j key hj hopen'))
  · rcases ((h.kept p).users entry).exists_share ((h.kept p).live key entry hreg) with ⟨i, hi⟩
    rcases entry_of_share hi with ⟨key', hentry⟩
    have hkey := (h.kept p).alone key key' entry hreg ((h.kept p).leased i key' entry hentry)
    exact ⟨i, (here_iff (P := fun l => l.entry = some (key, entry)) nofun).mp (hkey ▸ hentry)⟩
  · rw [((h.kept p).users entry).eq_ncard]
    exact congrArg (fun s : Set ι => (s.ncard : ℤ)) (Set.ext fun i =>
      here_iff (P := fun l => l.entry.map (·.2) = some entry) nofun)
  · have hcount := (h.kept p).admitted.eq_ncard
    rw [show {i | (here home p (held sha256 events) i).slot = true} =
      {i | home i = p ∧ (held sha256 events i).slot = true} from Set.ext fun i =>
        here_iff (P := fun l => l.slot = true) nofun] at hcount
    omega

/-- One caller is in the body while another, of the same key, has tried the lock in vain. -/
theorem remote_create_guarded_two : ∃ events, ∃ t : Team (World Bool Unit) Bool Req Ans _,
    (system (fun _ => []) fun _ : Bool => ()).Run {} events t ∧ Inside t false "create" false ∧
      (∃ next, t.running true = some (.ask .sleep next)) ∧
      ∀ i d, Inside t i "create" d → i = false := by
  have hfirst : ((system (fun _ => []) fun _ : Bool => ()).Run ({} : World Bool Unit) [] _) := .idle
  rcases hfirst.begun (i := false) ⟨rfl, rfl, "create", 1, rfl⟩
      (show Program.converses _ [⟨.lease "create", 0⟩, ⟨.tryLock 0, true⟩,
        ⟨.settings, .ok false⟩] _ from ⟨_, rfl, _, rfl, _, rfl, rfl⟩)
      ⟨_, ⟨rfl, fun _ => false, rfl, rfl⟩, _, ⟨rfl, fun _ => false, rfl, rfl⟩,
        _, ⟨rfl, fun _ => false, rfl⟩, rfl⟩ with ⟨events, hinside⟩
  rcases hinside.begun (i := true) ⟨rfl, rfl, "create", 1, rfl⟩
      (show Program.converses _ [⟨.lease "create", 0⟩, ⟨.tryLock 0, false⟩] _ from
        ⟨_, rfl, _, rfl, rfl⟩)
      ⟨_, ⟨rfl, fun _ => false, rfl, rfl⟩, _, ⟨rfl, fun _ => false, rfl, rfl⟩, rfl⟩
    with ⟨later, hrun⟩
  exact ⟨_, _, hrun, ⟨_, rfl⟩, ⟨_, rfl⟩,
    fun i d hi => (remote_create_guarded hrun).1 i false "create" d false hi ⟨_, rfl⟩ rfl⟩

/-- Once every caller of a process has ended, in whatever way, the process has no entry, no owned
    lock and all its slots. -/
theorem remote_create_drained (hrun : (system sha256 home).Run {} events t) (p : π)
    (hended : ∀ i, home i = p → t.state.called i = true →
      ∃ outcome, t.running i = some (.done outcome)) :
    (∀ key, (t.state.processes p).registry key = none) ∧
      (∀ entry, (t.state.processes p).lock entry = none) ∧
      (t.state.processes p).postgresAdmission = postgresGuardCapacity := by
  rcases run_guarded hrun with ⟨h, hfollows⟩
  have hnothing : ∀ i, here home p (held sha256 events) i = {} := by
    intro i
    rw [here]
    split
    · next hp =>
      cases hcalled : t.state.called i with
      | false => exact h.uncalled i hcalled
      | true =>
        rcases hended i hp hcalled with ⟨outcome, hi⟩
        exact hfollows _ _ hi
    · rfl
  refine ⟨fun key => ?_, fun entry => ?_, ?_⟩
  · cases hreg : (t.state.processes p).registry key with
    | none => rfl
    | some entry =>
      rcases ((h.kept p).users entry).exists_share ((h.kept p).live key entry hreg) with ⟨i, hi⟩
      exact absurd (by rw [hnothing]; rfl) hi
  · cases hlock : (t.state.processes p).lock entry with
    | none => rfl
    | some i =>
      have hown := ((h.kept p).locked entry i).mp hlock
      rw [hnothing] at hown
      cases hown
  · by_contra hne
    rcases (h.kept p).admitted.exists_share (by omega) with ⟨i, hi⟩
    exact hi (by rw [hnothing]; rfl)

theorem remote_create_drained_one : ∃ events, ∃ t : Team (World Unit Unit) Unit Req Ans _,
    (system (fun _ => []) id).Run {} events t ∧ (∃ e, t.running () = some (.done (.error e))) ∧
      (t.state.processes ()).registry "create" = none := by
  let quiet : Unit → Bool := fun _ => false
  have hfirst : ((system (fun _ => []) id).Run ({} : World Unit Unit) [] _) := .idle
  rcases hfirst.begun (i := ()) ⟨rfl, rfl, "create", 1, rfl⟩
      (show Program.converses _ [⟨.lease "create", 0⟩, ⟨.tryLock 0, true⟩, ⟨.settings, .ok false⟩,
        ⟨.body "create" false, .error .cancelled⟩, ⟨.unlock 0, .ok ()⟩,
        ⟨.returnLease "create" 0, ()⟩] _ from
        ⟨_, rfl, _, rfl, _, rfl, _, rfl, _, rfl, _, rfl, rfl⟩)
      ⟨_, ⟨rfl, quiet, rfl, rfl⟩, _, ⟨rfl, quiet, rfl, rfl⟩, _, ⟨rfl, quiet, rfl⟩,
        _, ⟨rfl, quiet, rfl⟩, _, ⟨rfl, quiet, rfl, rfl⟩, _, ⟨rfl, quiet, rfl, rfl⟩, rfl⟩
    with ⟨events, hrun⟩
  exact ⟨_, _, hrun, ⟨_, rfl⟩, (remote_create_drained hrun () fun _ _ _ => ⟨_, rfl⟩).1 "create"⟩

end Runs

end Apex.Adapters.RemoteIdempotency
