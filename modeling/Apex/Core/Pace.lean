import Mathlib.Data.List.Basic
import Mathlib.Order.Nat

/-!
# Paces

How often something happens, told by the times at which it happened. What counts at a
time are the times of the last window; a time may only be noted while fewer than a
limit count.

The times that count can be kept in several ways: by dropping old times from the
front of a queue, or by removing them wherever they are. Where the times are in order
these are the same, and what is dropped never counts again.

## Main definitions

* `recent`: The times that count.
* `Tracks`: A queue of times that counts what a history counts.
* `Paced`: Times that were noted while fewer than a limit counted.

## Theorems

* `dropWhile_eq_recent`: Dropping old times from the front of a queue.
* `recent_later`: What counts the same now counts the same later.
-/

namespace Apex

open List

def recent (window now : Nat) (times : List Nat) : List Nat :=
  times.filter fun t => decide (now < t + window)

section

variable {window now now' : Nat}

theorem mem_recent {times : List Nat} {t : Nat} :
    t ∈ recent window now times ↔ t ∈ times ∧ now < t + window := by
  rw [recent, mem_filter, decide_eq_true_eq]

theorem recent_append (times times' : List Nat) :
    recent window now (times ++ times') = recent window now times ++ recent window now times' :=
  filter_append ..

theorem recent_now (hwindow : 0 < window) : recent window now [now] = [now] := by
  rw [recent, filter_cons, if_pos (decide_eq_true (by omega)), filter_nil]

theorem recent_recent (hle : now ≤ now') (times : List Nat) :
    recent window now' (recent window now times) = recent window now' times := by
  rw [recent, recent, recent, List.filter_filter]
  refine filter_congr fun t _ => ?_
  by_cases hnew : now' < t + window
  · rw [decide_eq_true hnew, decide_eq_true (by omega : now < t + window)]
    rfl
  · rw [decide_eq_false hnew]
    rfl

theorem recent_later {times times' : List Nat} (hle : now ≤ now')
    (h : recent window now times = recent window now times') :
    recent window now' times = recent window now' times' := by
  rw [← recent_recent hle times, h, recent_recent hle]

theorem dropWhile_eq_recent (hwindow : 0 < window) : ∀ {times : List Nat},
    times.Pairwise (· ≤ ·) →
      times.dropWhile (fun t => decide (window ≤ now - t)) = recent window now times
  | [], _ => rfl
  | t :: times, hsorted => by
    rcases pairwise_cons.mp hsorted with ⟨hfirst, hrest⟩
    by_cases hold : window ≤ now - t
    · have hgone : ¬ now < t + window := by omega
      rw [dropWhile_cons, if_pos (decide_eq_true hold), dropWhile_eq_recent hwindow hrest,
        recent, recent, filter_cons, if_neg (by rw [decide_eq_true_eq]; exact hgone)]
    · rw [dropWhile_cons, if_neg (by rw [decide_eq_true_eq]; exact hold), recent,
        filter_eq_self.mpr]
      intro t' ht'
      rcases mem_cons.mp ht' with rfl | ht'
      · exact decide_eq_true (by omega)
      · have := hfirst t' ht'
        exact decide_eq_true (by omega)

structure Tracks (window now : Nat) (queue history : List Nat) : Prop where
  sorted : queue.Pairwise (· ≤ ·)
  past : ∀ t ∈ queue, t ≤ now
  same : recent window now queue = recent window now history

variable {queue history : List Nat}

theorem tracks_nil : Tracks window now [] [] :=
  ⟨Pairwise.nil, fun _ h => absurd h not_mem_nil, rfl⟩

section

variable (h : Tracks window now queue history)

include h

theorem Tracks.later (hle : now ≤ now') :
    Tracks window now' queue history :=
  ⟨h.sorted, fun t ht => (h.past t ht).trans hle, recent_later hle h.same⟩

theorem Tracks.pruned :
    Tracks window now (recent window now queue) history :=
  ⟨h.sorted.filter _, fun t ht => h.past t (mem_recent.mp ht).1,
    (recent_recent le_rfl queue).trans h.same⟩

theorem Tracks.dropped
    (hold : recent window now queue = []) : Tracks window now [] history :=
  ⟨Pairwise.nil, fun _ ht => absurd ht not_mem_nil, hold.symm.trans h.same⟩

theorem Tracks.noted :
    Tracks window now (queue ++ [now]) (history ++ [now]) := by
  refine ⟨pairwise_append.mpr ⟨h.sorted, pairwise_singleton _ _, ?_⟩, ?_, ?_⟩
  · intro t ht t' ht'
    rw [mem_singleton.mp ht']
    exact h.past t ht
  · intro t ht
    rcases mem_append.mp ht with ht | ht
    · exact h.past t ht
    · exact (mem_singleton.mp ht).le
  · rw [recent_append, recent_append, h.same]

end

inductive Paced (window limit : Nat) : List Nat → Prop where
  | nil : Paced window limit []
  | snoc {times : List Nat} {now : Nat} (hpaced : Paced window limit times)
      (hpast : ∀ t ∈ times, t ≤ now) (hroom : (recent window now times).length < limit) :
      Paced window limit (times ++ [now])

/-- No window holds more times than the limit: those before the last one still counted when
    it was noted. -/
theorem Paced.window_le {limit : Nat} {times : List Nat} (h : Paced window limit times)
    (start : Nat) :
    (times.filter fun t => decide (start ≤ t) && decide (t < start + window)).length ≤ limit := by
  induction h with
  | nil => exact Nat.zero_le _
  | @snoc times now hpaced hpast hroom ih =>
    rw [filter_append, length_append]
    by_cases hin : start ≤ now ∧ now < start + window
    · have hsub : (times.filter fun t => decide (start ≤ t) && decide (t < start + window)).length
          ≤ (recent window now times).length := by
        refine (monotone_filter_right times fun t ht => ?_).length_le
        rw [Bool.and_eq_true, decide_eq_true_eq, decide_eq_true_eq] at ht
        exact decide_eq_true (by omega)
      have hone := length_filter_le
        (fun t => decide (start ≤ t) && decide (t < start + window)) [now]
      rw [length_singleton] at hone
      omega
    · rw [filter_cons_of_neg (by
        rw [Bool.and_eq_true, decide_eq_true_eq, decide_eq_true_eq]; exact hin),
        filter_nil, length_nil]
      exact ih

end

end Apex
