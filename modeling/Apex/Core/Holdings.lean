import Mathlib.Data.Set.Card
import Apex.Core.Action

/-!
# Holdings

What a worker holds is what it took and has not given back, and that is read off the
events of a run: the place a discipline has led it to. Where a shared state counts
what is held, the count is a sum over all workers, and one worker moving changes it by
what that worker holds more or less than before.

## Main definitions

* `Total`: The sum over all workers, almost all of which hold nothing.
* `Owned`: Numbers that are one worker's own.
* `Action.ensuring`: A coroutine with a part that is run however it ends.

## Theorems

* `Total.moved`: One worker moves.
* `Action.ensuring_follows`: The last part is run from wherever the first may end.
-/

namespace Apex

open Function

section Places

variable {σ ι Req α L : Type} {Ans : Req → Type} [DecidableEq ι]
  {d : Discipline Req Ans L} {l₀ : L} {events : List (System.Event σ ι Req Ans)}

/-- The place a worker's answers have led it to. -/
def Discipline.place (d : Discipline Req Ans L) (l₀ : L) (events : List (System.Event σ ι Req Ans))
    (i : ι) : L :=
  events.foldl (fun l e => if e.worker = i then d.move l e.request e.answer else l) l₀

theorem Discipline.place_append (e : System.Event σ ι Req Ans) :
    d.place l₀ (events ++ [e]) = Function.update (d.place l₀ events) e.worker
      (d.move (d.place l₀ events e.worker) e.request e.answer) := by
  funext i
  rw [place, List.foldl_append, update_apply]
  change (if e.worker = i then _ else _) = _
  by_cases h : e.worker = i
  · rw [if_pos h, if_pos h.symm, h]
    rfl
  · rw [if_neg h, if_neg (Ne.symm h)]
    rfl

/-- What every start and every answer to an allowed request keeps holds of every run, and
    every worker is at a place its program can go on from. -/
theorem System.Run.holding {sys : System σ ι Req Ans α} {returns : L → α → Prop} {s₀ : σ}
    (Inv : List (System.Event σ ι Req Ans) → σ → Prop) (hinit : Inv [] s₀)
    (hstart : ∀ {events s i p s'}, Inv events s → sys.start i s p s' →
      p.follows d returns (d.place l₀ events i) ∧ Inv events s')
    (hanswer : ∀ {events s i r a s'}, Inv events s → d.allowed (d.place l₀ events i) r →
      sys.respond i s r a s' → d.possible (d.place l₀ events i) r a ∧
      Inv (events ++ [⟨i, s, r, a, s'⟩]) s')
    {t : Team σ ι Req Ans α} (hrun : sys.Run s₀ events t) :
    Inv events t.state ∧
      ∀ i p, t.running i = some p → p.follows d returns (d.place l₀ events i) := by
  have hinv := @System.Run.invariant _ _ _ _ _ _ _ _ d returns
    (fun events s places => Inv events s ∧ places = d.place l₀ events) _ (fun _ => l₀)
    ⟨hinit, rfl⟩ ?_ ?_ _ _ hrun
  · rcases hinv with ⟨places, ⟨hinv, rfl⟩, h⟩
    exact ⟨hinv, h⟩
  · intro events s places i p s' h hs
    rcases hstart h.1 hs with ⟨hfollows, hinv⟩
    exact ⟨_, hfollows, hinv, by rw [h.2, Function.update_eq_self]⟩
  · intro events s places i r a s' h hallowed hresp
    rw [h.2] at hallowed ⊢
    rcases hanswer h.1 hallowed hresp with ⟨hpossible, hinv⟩
    exact ⟨hpossible, hinv, (Discipline.place_append ⟨i, s, r, a, s'⟩).symm⟩

end Places

/-- The sum of what the workers hold, of whom only finitely many hold anything. -/
def Total {ι : Type} (w : ι → ℕ) (n : ℤ) : Prop :=
  ∃ s : Finset ι, (∀ i, i ∉ s → w i = 0) ∧ ((∑ i ∈ s, w i : ℕ) : ℤ) = n

namespace Total

variable {ι : Type} {w : ι → ℕ} {n : ℤ} {i : ι}

theorem zero (h : ∀ i, w i = 0) : Total w 0 := ⟨∅, fun i _ => h i, rfl⟩

/-- One worker moves from its place to another. -/
theorem moved {L : Type} [DecidableEq ι] {w : L → ℕ} {places : ι → L} {l : L} {m : ℤ}
    (h : Total (fun i => w (places i)) n) (hm : m = n - w (places i) + w l) :
    Total (fun j => w (Function.update places i l j)) m := by
  rcases h with ⟨s, hout, hsum⟩
  refine ⟨insert i s, fun j hj => ?_, ?_⟩ <;> dsimp only at hout hsum ⊢
  · rw [Finset.mem_insert, not_or] at hj
    rw [update_of_ne hj.1, hout j hj.2]
  · have hold : ∑ j ∈ insert i s, w (places j) = ∑ j ∈ s, w (places j) :=
      (Finset.sum_subset (Finset.subset_insert i s) fun j _ hj => hout j hj).symm
    rw [← Finset.add_sum_erase _ _ (Finset.mem_insert_self i s)] at hold ⊢
    have hrest : ∑ j ∈ (insert i s).erase i, w (Function.update places i l j) =
        ∑ j ∈ (insert i s).erase i, w (places j) := Finset.sum_congr rfl fun j hj => by
      rw [update_of_ne (Finset.ne_of_mem_erase hj)]
    rw [hrest, update_self]
    omega

theorem nonneg (h : Total w n) : 0 ≤ n := by
  rcases h with ⟨s, -, hsum⟩
  omega

theorem share_le (h : Total w n) (i : ι) : (w i : ℤ) ≤ n := by
  classical
  rcases h with ⟨s, hout, hsum⟩
  by_cases hi : i ∈ s
  · rw [← Finset.add_sum_erase s w hi] at hsum
    omega
  · rw [hout i hi]
    omega

theorem exists_share (h : Total w n) (hn : n ≠ 0) : ∃ i, w i ≠ 0 := by
  rcases h with ⟨s, -, hsum⟩
  by_contra hnone
  push Not at hnone
  rw [Finset.sum_eq_zero fun i _ => hnone i] at hsum
  exact hn hsum.symm

/-- Where nobody holds more than one, the sum is the number of those who hold one. -/
theorem eq_ncard {P : ι → Prop} [DecidablePred P] (h : Total (fun i => if P i then 1 else 0) n) :
    n = ({i | P i}.ncard : ℤ) := by
  rcases h with ⟨s, hout, hsum⟩
  have hset : {i | P i} = ((s.filter P : Finset ι) : Set ι) := by
    ext i
    rw [Finset.mem_coe, Finset.mem_filter, Set.mem_ofPred_eq]
    refine ⟨fun hP => ⟨?_, hP⟩, fun h => h.2⟩
    by_contra hi
    have hzero : (if P i then 1 else 0) = 0 := hout i hi
    rw [if_pos hP] at hzero
    cases hzero
  rw [hset, Set.ncard_coe_finset, Finset.card_filter]
  exact hsum.symm

/-- Where the sum is one at most, nobody else has what one has. -/
theorem unique {P : ι → Prop} [DecidablePred P] (h : Total (fun i => if P i then 1 else 0) n)
    (hn : n ≤ 1) {j : ι} (hi : P i) (hj : P j) : i = j := by
  have hshare := h.share_le i
  rw [if_pos hi] at hshare
  have hcard : {i | P i}.ncard = 1 := by
    have hcount := h.eq_ncard
    omega
  rcases Set.ncard_eq_one.mp hcard with ⟨k, hk⟩
  exact (show i ∈ ({k} : Set ι) from hk ▸ hi).trans (show j ∈ ({k} : Set ι) from hk ▸ hj).symm

end Total

/-- What a worker owns was made, and is nobody else's. -/
structure Owned {ι L : Type} (own : L → Option ℕ) (places : ι → L) (made : ℕ) : Prop where
  made : ∀ i n, own (places i) = some n → n < made
  alone : ∀ i j n, own (places i) = some n → own (places j) = some n → i = j

/-- One worker moves, and keeps what it owns or has it made. -/
theorem Owned.moved {ι L : Type} [DecidableEq ι] {own : L → Option ℕ} {places : ι → L}
    {made made' : ℕ} {i : ι} {l : L} (h : Owned own places made) (hmade : made ≤ made')
    (hnew : ∀ n, own l = some n → own (places i) = some n ∨ made ≤ n ∧ n < made') :
    Owned own (update places i l) made' := by
  have hother : ∀ j n, j ≠ i → own (places j) = some n → own l ≠ some n := by
    intro j n hj hold hl
    rcases hnew n hl with hi | hi
    · exact hj (h.alone j i n hold hi)
    · exact absurd (h.made j n hold) (Nat.not_lt.mpr hi.1)
  refine ⟨fun j n hj => ?_, fun j k n hj hk => ?_⟩
  · by_cases hji : j = i
    · rw [hji, update_self] at hj
      exact (hnew n hj).elim (fun hold => (h.made i n hold).trans_le hmade) (·.2)
    · rw [update_of_ne hji] at hj
      exact (h.made j n hj).trans_le hmade
  · by_cases hji : j = i <;> by_cases hki : k = i
    · rw [hji, hki]
    · rw [hji, update_self] at hj
      rw [update_of_ne hki] at hk
      exact absurd hj (hother k n hki hk)
    · rw [hki, update_self] at hk
      rw [update_of_ne hji] at hj
      exact absurd hk (hother j n hji hj)
    · rw [update_of_ne hji] at hj
      rw [update_of_ne hki] at hk
      exact h.alone j k n hj hk

namespace Action

open Program

variable {Req ε α L : Type} {Ans : Req → Type} {d : Discipline Req Ans L}

/-- Run a coroutine and, however it ends, another: what the other raises is raised, and what
    the first returned or raised otherwise. -/
def ensuring (x : Action Req Ans ε α) (cleanup : Action Req Ans ε Unit) : Action Req Ans ε α := do
  let outcome ← (liftM x.run : Action Req Ans ε (Except ε α))
  cleanup
  settle outcome

theorem ensuring_follows {x : Action Req Ans ε α} {cleanup : Action Req Ans ε Unit}
    {R : L → Except ε α → Prop} {l : L}
    (h : x.run.follows d (fun l outcome => cleanup.run.follows d
      (either (fun l _ => R l outcome) (fun l e => R l (.error e))) l) l) :
    (ensuring x cleanup).run.follows d R l := by
  refine follows_run_bind.mpr (follows_run_lift.mpr (follows_mono h fun l outcome ho => ?_))
  refine follows_run_bind.mpr (follows_mono ho fun l done hdone => ?_)
  cases done with
  | error e => exact hdone
  | ok u =>
    cases outcome with
    | ok a => exact hdone
    | error e => exact hdone

end Action

end Apex
