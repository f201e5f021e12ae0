import Mathlib.Data.List.Nodup

/-!
# Reservations

A call that must not be repeated is reserved under a key before it is made. Whoever
made the reservation may make the call, once, and waits for its return; whoever is
lost on the way leaves a key that is reserved and cannot be used again.

Every list here only grows. That a key is called at most once, and returns at most
once, is kept by each of the steps, whoever takes them in whatever order.

## Main definitions

* `Reservations`: The keys that were reserved, called and returned, and who may call or
  waits.
* `Reservations.Once`: What every step keeps.

## Theorems

* `Once.reserved`, `Once.called`, `Once.returned`, `Once.dropped`: The steps keep it.
-/

namespace Apex

open List Option Function

/-- The keys that were reserved, called and returned, the key each worker may call, and the
    one it waits for. -/
structure Reservations (κ ι : Type) where
  reserved : List κ
  called : List κ
  returned : List κ
  held : ι → Option κ
  awaited : ι → Option κ

namespace Reservations

variable {κ ι : Type}

/-- A key is called at most once and returns at most once; whoever may still call, or waits,
    is the only one. -/
structure Once (s : Reservations κ ι) : Prop where
  reserved_nodup : s.reserved.Nodup
  called_nodup : s.called.Nodup
  returned_nodup : s.returned.Nodup
  called_reserved : ∀ k ∈ s.called, k ∈ s.reserved
  returned_called : ∀ k ∈ s.returned, k ∈ s.called
  held_uncalled : ∀ i k, s.held i = some k → k ∈ s.reserved ∧ k ∉ s.called
  held_alone : ∀ i j k, s.held i = some k → s.held j = some k → i = j
  awaited_called : ∀ i k, s.awaited i = some k → k ∈ s.called ∧ k ∉ s.returned
  awaited_alone : ∀ i j k, s.awaited i = some k → s.awaited j = some k → i = j

theorem once_empty : Once (⟨[], [], [], fun _ => none, fun _ => none⟩ : Reservations κ ι) :=
  ⟨nodup_nil, nodup_nil, nodup_nil, fun _ h => absurd h not_mem_nil,
    fun _ h => absurd h not_mem_nil, fun _ _ h => (nomatch h), fun _ _ _ h => (nomatch h),
    fun _ _ h => (nomatch h), fun _ _ _ h => (nomatch h)⟩

variable {s : Reservations κ ι}

theorem Once.lost {k : κ} (h : s.Once) (hk : k ∉ s.reserved) :
    Once { s with reserved := s.reserved ++ [k] } := by
  refine { h with
    reserved_nodup := ?_
    called_reserved := fun k' hk' => mem_append_left _ (h.called_reserved k' hk')
    held_uncalled := fun i k' hk' => ?_ }
  · exact nodup_append_comm.mp (nodup_cons.mpr ⟨hk, h.reserved_nodup⟩)
  · exact ⟨mem_append_left _ (h.held_uncalled i k' hk').1, (h.held_uncalled i k' hk').2⟩

variable [DecidableEq ι]

theorem update_some {f : ι → Option κ} {i j : ι} {o : Option κ} {k : κ}
    (h : update f i o j = some k) : (j = i ∧ o = some k) ∨ (j ≠ i ∧ f j = some k) := by
  by_cases hj : j = i
  · subst hj
    rw [update_self] at h
    exact Or.inl ⟨rfl, h⟩
  · rw [update_of_ne hj] at h
    exact Or.inr ⟨hj, h⟩

theorem Once.dropped (h : s.Once) (i : ι) :
    Once { s with held := update s.held i none,
                  awaited := update s.awaited i none } := by
  have hheld : ∀ j k, update s.held i none j = some k → s.held j = some k := by
    intro j k hj
    rcases update_some hj with ⟨_, hnone⟩ | ⟨_, hj⟩
    · cases hnone
    · exact hj
  have hawaited : ∀ j k, update s.awaited i none j = some k → s.awaited j = some k := by
    intro j k hj
    rcases update_some hj with ⟨_, hnone⟩ | ⟨_, hj⟩
    · cases hnone
    · exact hj
  exact { h with
    held_uncalled := fun j k hj => h.held_uncalled j k (hheld j k hj)
    held_alone := fun j j' k hj hj' => h.held_alone j j' k (hheld j k hj) (hheld j' k hj')
    awaited_called := fun j k hj => h.awaited_called j k (hawaited j k hj)
    awaited_alone := fun j j' k hj hj' =>
      h.awaited_alone j j' k (hawaited j k hj) (hawaited j' k hj') }

theorem Once.reserve {i : ι} {k : κ} (h : s.Once) (hk : k ∉ s.reserved) :
    Once { s with reserved := s.reserved ++ [k], held := update s.held i (some k) } := by
  have hfresh : ∀ j, s.held j ≠ some k := fun j hj => hk (h.held_uncalled j k hj).1
  refine { h.lost hk with
    held_uncalled := fun j k' hj => ?_
    held_alone := fun j j' k' hj hj' => ?_ }
  · rcases update_some hj with ⟨_, hsome⟩ | ⟨_, hj⟩
    · rw [← some.inj hsome]
      exact ⟨mem_append_right _ (mem_singleton_self k),
        fun hcalled => hk (h.called_reserved k hcalled)⟩
    · exact (h.lost hk).held_uncalled j k' hj
  · rcases update_some hj with ⟨rfl, hsome⟩ | ⟨_, hold⟩
    · rcases update_some hj' with ⟨rfl, _⟩ | ⟨_, hold'⟩
      · rfl
      · exact absurd (hsome ▸ hold') (hfresh j')
    · rcases update_some hj' with ⟨rfl, hsome⟩ | ⟨_, hold'⟩
      · exact absurd (hsome ▸ hold) (hfresh j)
      · exact h.held_alone j j' k' hold hold'

theorem Once.call {i : ι} {k : κ} (h : s.Once) (hi : s.held i = some k) :
    Once { s with called := s.called ++ [k], held := update s.held i none,
                  awaited := update s.awaited i (some k) } := by
  have huncalled := (h.held_uncalled i k hi).2
  have hfresh : ∀ j, s.awaited j ≠ some k := fun j hj => huncalled (h.awaited_called j k hj).1
  refine { h with
    called_nodup := nodup_append_comm.mp (nodup_cons.mpr ⟨huncalled, h.called_nodup⟩)
    called_reserved := fun k' hk' => ?_
    returned_called := fun k' hk' => mem_append_left _ (h.returned_called k' hk')
    held_uncalled := fun j k' hj => ?_
    held_alone := fun j j' k' hj hj' => ?_
    awaited_called := fun j k' hj => ?_
    awaited_alone := fun j j' k' hj hj' => ?_ }
  · rcases mem_append.mp hk' with hk' | hk'
    · exact h.called_reserved k' hk'
    · rw [mem_singleton.mp hk']
      exact (h.held_uncalled i k hi).1
  · rcases update_some hj with ⟨_, hnone⟩ | ⟨hne, hj⟩
    · cases hnone
    · refine ⟨(h.held_uncalled j k' hj).1, fun hk' => ?_⟩
      rcases mem_append.mp hk' with hk' | hk'
      · exact (h.held_uncalled j k' hj).2 hk'
      · rw [mem_singleton.mp hk'] at hj
        exact hne (h.held_alone j i k hj hi)
  · rcases update_some hj with ⟨_, hnone⟩ | ⟨_, hj⟩
    · cases hnone
    · rcases update_some hj' with ⟨_, hnone⟩ | ⟨_, hj'⟩
      · cases hnone
      · exact h.held_alone j j' k' hj hj'
  · rcases update_some hj with ⟨_, hsome⟩ | ⟨_, hj⟩
    · rw [← some.inj hsome]
      exact ⟨mem_append_right _ (mem_singleton_self k),
        fun hreturned => huncalled (h.returned_called k hreturned)⟩
    · exact ⟨mem_append_left _ (h.awaited_called j k' hj).1, (h.awaited_called j k' hj).2⟩
  · rcases update_some hj with ⟨rfl, hsome⟩ | ⟨_, hold⟩
    · rcases update_some hj' with ⟨rfl, _⟩ | ⟨_, hold'⟩
      · rfl
      · exact absurd (hsome ▸ hold') (hfresh j')
    · rcases update_some hj' with ⟨rfl, hsome⟩ | ⟨_, hold'⟩
      · exact absurd (hsome ▸ hold) (hfresh j)
      · exact h.awaited_alone j j' k' hold hold'

theorem Once.return {i : ι} {k : κ} (h : s.Once) (hi : s.awaited i = some k) :
    Once { s with returned := s.returned ++ [k], awaited := update s.awaited i none } := by
  have hopen := (h.awaited_called i k hi).2
  refine { h with
    returned_nodup := nodup_append_comm.mp (nodup_cons.mpr ⟨hopen, h.returned_nodup⟩)
    returned_called := fun k' hk' => ?_
    awaited_called := fun j k' hj => ?_
    awaited_alone := fun j j' k' hj hj' => ?_ }
  · rcases mem_append.mp hk' with hk' | hk'
    · exact h.returned_called k' hk'
    · rw [mem_singleton.mp hk']
      exact (h.awaited_called i k hi).1
  · rcases update_some hj with ⟨_, hnone⟩ | ⟨hne, hj⟩
    · cases hnone
    · refine ⟨(h.awaited_called j k' hj).1, fun hk' => ?_⟩
      rcases mem_append.mp hk' with hk' | hk'
      · exact (h.awaited_called j k' hj).2 hk'
      · rw [mem_singleton.mp hk'] at hj
        exact hne (h.awaited_alone j i k hj hi)
  · rcases update_some hj with ⟨_, hnone⟩ | ⟨_, hj⟩
    · cases hnone
    · rcases update_some hj' with ⟨_, hnone⟩ | ⟨_, hj'⟩
      · cases hnone
      · exact h.awaited_alone j j' k' hj hj'

end Reservations

end Apex
