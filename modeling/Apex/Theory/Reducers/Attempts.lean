import Apex.Theory.Reducers.Merge

/-!
# Attempts and Terminal Statuses

The rule of reruns, over whole histories of the `phase_results` channel. A
history is the fold of the reducer over the updates it accepted. Along it, an
entry that records an attempt keeps recording one; the number stays or goes up
by one at each update; and while it stays, a terminal status stays as well.

One update does one of two things to an entry, which `EntryStep` spells out:
it leaves the attempt alone and respects a terminal status, or it replaces the
entry by the next attempt. `Follows` is what survives any number of updates;
it is transitive because an attempt, once recorded, can only grow.

## Main definitions

* `recordedAttempt`: The attempt an entry records.
* `EntryStep`: What one update does to an entry.
* `Follows`: What any number of updates does to an entry.

## Theorems

* `follows_of_fold`: A sequence of them is a chain of steps.
* `phase_results_attempts`: Attempts grow by one, terminal statuses stay within
  an attempt, and an entry names the phase it is stored under.
-/

namespace Apex.Graphs

open List Option
open Domain

/-- The channel after a sequence of updates, if each is accepted. -/
def foldUpdates (env : ReducerEnv) (start : PhaseResults) (updates : List Json) :
    Except String PhaseResults :=
  updates.foldlM (fun channel update => mergePhaseResults env channel.toJson update) start

variable {env : ReducerEnv} {e b e' : PhaseEntry} {phase : String}

variable {update : Json} {final start s t : PhaseResults} {n : Int} {m : PhaseEntry}
  {r : Option Json}

theorem foldUpdates_cons_ok {updates : List Json} :
    foldUpdates env start (update :: updates) = .ok final ↔
      ∃ next, mergePhaseResults env start.toJson update = .ok next ∧
        foldUpdates env next updates = .ok final := by
  rw [foldUpdates, foldlM_cons, bind_ok]
  rfl

theorem foldUpdates_nil_ok :
    foldUpdates env start [] = .ok final ↔ start = final := by
  rw [foldUpdates, foldlM_nil, pure_ok]

@[simp] theorem dict?_toJson (m : PhaseResults) :
    m.toJson.dict? = some (m.map (fun _ e => Json.ofDict e)) := Json.dict?_ofDict _

@[simp] theorem entryAt_toJson (m : PhaseResults) (phase : String) :
    entryAt m.toJson phase = (m.get? phase).map Json.ofDict := by
  rw [entryAt, dict?_toJson, bind_some, Dict.get?_map]

def recordedAttempt (e : PhaseEntry) : Option Int :=
  match e.value "attempt" with
  | .int n => some n
  | _ => none

theorem recordedAttempt_eq_some :
    recordedAttempt e = some n ↔ e.value "attempt" = .int n := by
  unfold recordedAttempt
  split
  · rename_i k hk
    rw [hk, some.injEq, Json.int.injEq]
  · rename_i hk
    simp only [reduceCtorEq, false_iff]
    exact hk n

theorem recordedAttempt_eq_none (hok : attemptOk (e.value "attempt") = true) :
    recordedAttempt e = none ↔ e.value "attempt" = .null := by
  constructor
  · intro h
    rw [attemptOk, Bool.or_eq_true, beq_iff_eq] at hok
    refine hok.resolve_right (fun hatt => ?_)
    cases hv : e.value "attempt" with
    | int n =>
      rw [recordedAttempt_eq_some.mpr hv] at h
      simp only [reduceCtorEq] at h
    | _ =>
      rw [hv] at hatt
      exact absurd hatt Bool.false_ne_true
  · intro h
    rw [recordedAttempt, h]

inductive EntryStep (e e' : PhaseEntry) : Prop
  | same (hattempt : e'.value "attempt" = e.value "attempt")
      (hstatus : isTerminal (e.value "status") = true → e'.value "status" = e.value "status")
  | next (hadv : notMonotonic (e.value "attempt") (e'.value "attempt") = false)
      (hne : e'.value "attempt" ≠ e.value "attempt")

/-- What holds of every entry the reducer stores. -/
structure Recorded (phase : String) (e : PhaseEntry) : Prop where
  attempt : attemptOk (e.value "attempt") = true
  phase : boundElsewhere phase e = false

theorem attemptOk_of_entryOk (h : EntryOk env e) :
    attemptOk (e.value "attempt") = true := by
  have hfields := h.fields
  rw [fieldsOk, Bool.and_eq_true, Bool.and_eq_true] at hfields
  exact hfields.2.2

theorem recorded_of_validated {raw : Json}
    (h : validatedEntry env phase raw = .ok b) : Recorded phase b := by
  rcases (validatedEntry_ok env phase raw b).mp h with ⟨e, _, hphase, hb⟩
  rcases (boundedPhaseEntry_ok env e b).mp hb with ⟨⟨hok, _⟩, rfl⟩
  refine ⟨?_, by rw [boundElsewhere_boundedEntry]; exact hphase⟩
  rw [value_boundedEntry env e (by decide)]
  exact attemptOk_of_entryOk hok

theorem value_unionEntry (env : ReducerEnv) (current incoming : PhaseEntry) {k : String}
    (hk : k ∉ listFields) : (unionEntry env current incoming).value k =
      ((incoming.get? k).or (current.get? k)).getD .null := by
  rw [Dict.value, unionEntry, Dict.get?_assignAll, if_neg hk, Dict.get?_update]

theorem entryStep_of_mergeEntry {current : PhaseEntry} (hb : Recorded phase b)
    (hc : boundElsewhere phase current = false) (h : mergePhaseEntry env current b = .ok m) :
    Recorded phase m ∧ EntryStep current m := by
  rcases (mergePhaseEntry_ok env current b m).mp h with ⟨_, hcase⟩
  rcases hcase with ⟨hne, hadv, hbound⟩ | ⟨heq, hterm, _, rfl, hok⟩
  · rcases (boundedPhaseEntry_ok env b m).mp hbound with ⟨_, rfl⟩
    have hattempt := value_boundedEntry env b (k := "attempt") (by decide)
    refine ⟨⟨hattempt ▸ hb.attempt, by rw [boundElsewhere_boundedEntry]; exact hb.phase⟩, ?_⟩
    exact .next (hattempt ▸ hadv) (hattempt ▸ hne)
  · have hval := fun k hk => value_unionEntry env current b (k := k) hk
    refine ⟨⟨attemptOk_of_entryOk hok, ?_⟩, .same ?_ (fun ht => ?_)⟩
    · -- The phase is the update's if it names one, else the inherited one.
      have hbp := hb.phase
      rw [boundElsewhere, hval "phase" (by decide)]
      simp only [boundElsewhere, Dict.value] at hbp hc
      cases hp : b.get? "phase" with
      | none => exact hc
      | some v =>
        rw [hp] at hbp
        exact hbp
    · rw [hval "attempt" (by decide)]
      simp only [Dict.value] at heq
      cases ha : b.get? "attempt" with
      | none => rfl
      | some v =>
        rw [ha] at heq
        exact heq
    · have hasked := hterm ht
      rw [hval "status" (by decide)]
      rw [askedStatus] at hasked
      cases hs : b.get? "status" with
      | none => rfl
      | some v =>
        rw [hs] at hasked
        exact hasked

theorem StoredAt.recorded {l : Option Json}
    (h : StoredAt env phase l r (some m)) : Recorded phase m := by
  cases h with
  | fresh hb => exact recorded_of_validated hb
  | inherited hb => exact recorded_of_validated hb
  | merged hb _ hphase hm => exact (entryStep_of_mergeEntry (recorded_of_validated hb) hphase hm).1

theorem StoredAt.step {o : Option PhaseEntry} (h : StoredAt env phase (some (Json.ofDict e)) r o) :
    ∃ e', o = some e' ∧ EntryStep e e' := by
  cases h with
  | inherited hb =>
    rename_i b
    rcases (validatedEntry_ok env phase _ b).mp hb with ⟨e0, hd, _, hbound⟩
    rw [Json.dict?_ofDict, some.injEq] at hd
    subst hd
    rcases (boundedPhaseEntry_ok env _ b).mp hbound with ⟨_, rfl⟩
    exact ⟨_, rfl, .same (value_boundedEntry env _ (by decide))
      (fun _ => value_boundedEntry env _ (by decide))⟩
  | merged hb hd hphase hm =>
    rw [Json.dict?_ofDict, some.injEq] at hd
    subst hd
    exact ⟨_, rfl, (entryStep_of_mergeEntry (recorded_of_validated hb) hphase hm).2⟩

/-- One accepted update is one step of each entry, and stores only entries that
    name their own phase. -/
theorem entryStep_of_merge (h : mergePhaseResults env s.toJson update = .ok t) (phase : String) :
    (∀ e', t.get? phase = some e' → Recorded phase e') ∧
      ∀ e, s.get? phase = some e → ∃ e', t.get? phase = some e' ∧ EntryStep e e' := by
  have hstored := (mergePhaseResults_stored h).2 phase
  refine ⟨fun e' he' => (he' ▸ hstored).recorded, fun e he => ?_⟩
  rw [entryAt_toJson, he, map_some] at hstored
  exact hstored.step

structure Follows (e e' : PhaseEntry) : Prop where
  grows : ∀ n, recordedAttempt e = some n → ∃ n', recordedAttempt e' = some n' ∧ n ≤ n'
  terminal : recordedAttempt e' = recordedAttempt e → isTerminal (e.value "status") = true →
    e'.value "status" = e.value "status"

theorem Follows.refl (e : PhaseEntry) : Follows e e :=
  ⟨fun n hn => ⟨n, hn, Int.le_refl n⟩, fun _ _ => rfl⟩

theorem Follows.trans {a c : PhaseEntry} (hab : Follows a b) (hbc : Follows b c) :
    Follows a c := by
  refine ⟨fun n hn => ?_, fun heq hterm => ?_⟩
  · rcases hab.grows n hn with ⟨n', hn', hle⟩
    rcases hbc.grows n' hn' with ⟨n'', hn'', hle'⟩
    exact ⟨n'', hn'', Int.le_trans hle hle'⟩
  · have hmid : recordedAttempt b = recordedAttempt a := by
      cases ha : recordedAttempt a with
      | some n =>
        rcases hab.grows n ha with ⟨n', hn', hle⟩
        rcases hbc.grows n' hn' with ⟨n'', hn'', hle'⟩
        rw [ha, hn'', some.injEq] at heq
        rw [hn', some.injEq]
        omega
      | none =>
        cases hb : recordedAttempt b with
        | none => rfl
        | some n =>
          rcases hbc.grows n hb with ⟨n', hn', _⟩
          rw [ha, hn'] at heq
          exact absurd heq (by simp only [reduceCtorEq, not_false_eq_true])
    have hstatus := hab.terminal hmid hterm
    rw [← hstatus] at hterm ⊢
    exact hbc.terminal (heq.trans hmid.symm) hterm

theorem recordedAttempt_congr
    (h : e'.value "attempt" = e.value "attempt") : recordedAttempt e' = recordedAttempt e := by
  rw [recordedAttempt, recordedAttempt, h]

theorem EntryStep.attempt (h : EntryStep e e') (hn : recordedAttempt e = some n) :
    recordedAttempt e' = some n ∨ recordedAttempt e' = some (n + 1) := by
  cases h with
  | same hattempt _ => exact Or.inl ((recordedAttempt_congr hattempt).trans hn)
  | next hadv hne =>
    rw [recordedAttempt_eq_some] at hn
    rw [hn] at hadv
    unfold notMonotonic at hadv
    split at hadv
    · simp_all only [reduceCtorEq]
    · rename_i k m hk hm
      rw [Json.int.injEq] at hk
      rw [bne_eq_false_iff_eq] at hadv
      refine Or.inr (recordedAttempt_eq_some.mpr ?_)
      rw [hm, hadv, hk]
    · simp only [Bool.true_eq_false] at hadv

theorem EntryStep.follows (h : EntryStep e e') (hr : attemptOk (e.value "attempt") = true)
    (hr' : Recorded phase e') : Follows e e' := by
  refine ⟨fun n hn => ?_, fun heq hterm => ?_⟩
  · rcases h.attempt hn with hsame | hnext
    · exact ⟨n, hsame, Int.le_refl n⟩
    · exact ⟨n + 1, hnext, by omega⟩
  · cases h with
    | same _ hstatus => exact hstatus hterm
    | next hadv hne =>
      exfalso
      refine hne ?_
      cases ha : recordedAttempt e with
      | some n => rw [recordedAttempt_eq_some.mp (heq.trans ha), recordedAttempt_eq_some.mp ha]
      | none =>
        rw [(recordedAttempt_eq_none hr'.attempt).mp (heq.trans ha),
          (recordedAttempt_eq_none hr).mp ha]

/-- Every entry of the channel is a recorded one. -/
def AllRecorded (s : PhaseResults) : Prop := ∀ phase e, s.get? phase = some e → Recorded phase e

theorem allRecorded_empty : AllRecorded ∅ := by
  intro phase e he
  exact absurd he (by simp only [Dict.get?_empty, reduceCtorEq, not_false_eq_true])

theorem follows_of_fold (updates : List Json) (hs : AllRecorded s)
    (h : foldUpdates env s updates = .ok t) :
    AllRecorded t ∧ ∀ phase e, s.get? phase = some e →
      ∃ e', t.get? phase = some e' ∧ Follows e e' := by
  induction updates generalizing s with
  | nil =>
    rw [foldUpdates_nil_ok] at h
    subst h
    exact ⟨hs, fun phase e he => ⟨e, he, Follows.refl e⟩⟩
  | cons update updates ih =>
    rcases foldUpdates_cons_ok.mp h with ⟨next, hnext, hrest⟩
    have hnextRecorded : AllRecorded next :=
      fun phase e he => (entryStep_of_merge hnext phase).1 e he
    rcases ih hnextRecorded hrest with ⟨ht, hfollows⟩
    refine ⟨ht, fun phase e he => ?_⟩
    rcases (entryStep_of_merge hnext phase).2 e he with ⟨e1, he1, hstep⟩
    rcases hfollows phase e1 he1 with ⟨e', he', hf⟩
    exact ⟨e', he', (hstep.follows (hs phase e he).attempt (hnextRecorded phase e1 he1)).trans hf⟩

/-- Along any sequence of accepted updates of a channel that starts empty: an
    entry once there stays there; the attempt it records never decreases, and at
    one update it stays or grows by one; while it is the same, a terminal status
    is the same; and an entry names no other phase than its own. -/
theorem phase_results_attempts (env : ReducerEnv) (before after : List Json)
    (s t : PhaseResults) (hs : foldUpdates env ∅ before = .ok s)
    (ht : foldUpdates env s after = .ok t) (phase : String) (e : PhaseEntry)
    (he : s.get? phase = some e) :
    (e.value "phase" = .null ∨ e.value "phase" = .str phase) ∧
      ∃ e', t.get? phase = some e' ∧
        (∀ n, recordedAttempt e = some n → ∃ n', recordedAttempt e' = some n' ∧ n ≤ n' ∧
          (after.length = 1 → n' = n ∨ n' = n + 1)) ∧
        (recordedAttempt e' = recordedAttempt e → isTerminal (e.value "status") = true →
          e'.value "status" = e.value "status") := by
  have hrecorded := (follows_of_fold before allRecorded_empty hs).1
  rcases (follows_of_fold after hrecorded ht).2 phase e he with ⟨e', he', hf⟩
  refine ⟨?_, e', he', fun n hn => ?_, hf.terminal⟩
  · have hphase := (hrecorded phase e he).phase
    rw [boundElsewhere, Bool.and_eq_false_iff, bne_eq_false_iff_eq, bne_eq_false_iff_eq] at hphase
    exact hphase
  · rcases hf.grows n hn with ⟨n', hn', hle⟩
    refine ⟨n', hn', hle, fun hone => ?_⟩
    -- A single update is a single step.
    rcases length_eq_one_iff.mp hone with ⟨update, rfl⟩
    rcases foldUpdates_cons_ok.mp ht with ⟨next, hnext, hrest⟩
    rw [foldUpdates_nil_ok] at hrest
    subst hrest
    rcases (entryStep_of_merge hnext phase).2 e he with ⟨e1, he1, hstep⟩
    rw [he', some.injEq] at he1
    subst he1
    rcases hstep.attempt hn with h0 | h1
    · rw [hn', some.injEq] at h0
      exact Or.inl h0
    · rw [hn', some.injEq] at h1
      exact Or.inr h1

/-- An environment to evaluate statements in. The digest is good for a single
    record without an `id`. -/
def sampleEnv : ReducerEnv where
  rules := sampleRules
  digest _ := ⟨"0123456789abcdef01234567", by decide, by decide⟩

/-- An entry of the execution phase with a status and an attempt. -/
def sampleEntry (status : String) (attempt : Int) : PhaseEntry :=
  ⟨[("phase", .str "execution"), ("status", .str status), ("attempt", .int attempt)],
    (by decide : ["phase", "status", "attempt"].Nodup)⟩

def sampleChannel (status : String) (attempt : Int) : PhaseResults :=
  .single "execution" (sampleEntry status attempt)

theorem phase_results_attempts_rerun :
    ∃ e', (sampleChannel "running" 2).get? "execution" = some e' ∧
      ∃ n', recordedAttempt e' = some n' ∧ (n' = 1 ∨ n' = 1 + 1) := by
  have h := phase_results_attempts sampleEnv [(sampleChannel "failed" 1).toJson]
    [(sampleChannel "running" 2).toJson] (sampleChannel "failed" 1) (sampleChannel "running" 2)
    (by decide +kernel) (by decide +kernel) "execution" (sampleEntry "failed" 1) rfl
  rcases h.2 with ⟨e', he', hgrows, _⟩
  rcases hgrows 1 rfl with ⟨n', hn', _, hone⟩
  exact ⟨e', he', n', hn', hone rfl⟩

end Apex.Graphs
