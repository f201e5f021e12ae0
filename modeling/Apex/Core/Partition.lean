import Mathlib.Data.List.Basic

/-!
# Partition at a Separator

Cutting a list at the first place a separator stands.

A list that was put together from a front, the separator and a rest is cut
there again exactly when the front is `Clean`: the separator does not already
stand somewhere in the front, nor begin in it and end in the separator that
follows. The rest does not matter (`partition_append`), and nothing else is
ever cut off (`partition_eq_some_iff`).

## Main definitions

* `partition`: What is in front of the first separator and what is behind it.
* `Clean`: A front that does not make the separator stand earlier.

## Theorems

* `partition_append`: When a front is found again.
* `partition_eq_some_iff`: What is cut off.
-/

namespace Apex

open List Option

section

variable {α : Type} [DecidableEq α]

/-- `text.partition(sep)`, or nothing when the separator is not there. -/
def partition (sep : List α) : List α → Option (List α × List α)
  | [] => none
  | c :: rest =>
    if sep.isPrefixOf (c :: rest) then some ([], (c :: rest).drop sep.length)
    else (partition sep rest).map fun cut => (c :: cut.1, cut.2)

/-- Behind this front, the separator stands for the first time. -/
def Clean (sep front : List α) : Prop := partition sep (front ++ sep) = some (front, [])

theorem isPrefixOf_append (sep front rest : List α) (h : sep.length ≤ front.length) :
    sep.isPrefixOf (front ++ rest) = sep.isPrefixOf front := by
  rw [Bool.eq_iff_iff, List.isPrefixOf_iff_prefix, List.isPrefixOf_iff_prefix]
  refine ⟨fun hpre => ?_, fun hpre => hpre.trans (prefix_append front rest)⟩
  exact prefix_of_prefix_length_le hpre (prefix_append front rest) h

/-- A front is found again exactly when it is clean, whatever is behind the
    separator. -/
theorem partition_append (sep front rest : List α) (hsep : sep ≠ []) :
    partition sep (front ++ sep ++ rest) = some (front, rest) ↔ Clean sep front := by
  unfold Clean
  induction front with
  | nil =>
    rcases sep with _ | ⟨s, more⟩
    · exact absurd rfl hsep
    have hself : ∀ tail, partition (s :: more) ([] ++ (s :: more) ++ tail) = some ([], tail) := by
      intro tail
      have hpre : (s :: more).isPrefixOf (s :: more ++ tail) = true :=
        List.isPrefixOf_iff_prefix.mpr (prefix_append _ _)
      simp only [nil_append, cons_append] at hpre ⊢
      rw [partition, if_pos hpre, ← cons_append, drop_left]
    have hnil := hself []
    rw [append_nil] at hnil
    exact ⟨fun _ => hnil, fun _ => hself rest⟩
  | cons c front ih =>
    have hsame := isPrefixOf_append sep (c :: front ++ sep) rest (by
      rw [length_append, length_cons]
      omega)
    simp only [cons_append, partition] at hsame ⊢
    rw [hsame]
    by_cases hpre : sep.isPrefixOf (c :: (front ++ sep)) = true
    · simp only [if_pos hpre, some.injEq, Prod.mk.injEq, nil_eq, reduceCtorEq, false_and]
    · simp only [if_neg hpre, map_eq_some_iff, Prod.exists, Prod.mk.injEq, cons.injEq, true_and]
      constructor
      · rintro ⟨_, _, hcut, rfl, rfl⟩
        exact ⟨_, _, ih.mp hcut, rfl, rfl⟩
      · rintro ⟨_, _, hcut, rfl, rfl⟩
        exact ⟨_, _, ih.mpr hcut, rfl, rfl⟩

theorem partition_eq_some_iff (sep text front rest : List α) (hsep : sep ≠ []) :
    partition sep text = some (front, rest) ↔ text = front ++ sep ++ rest ∧ Clean sep front := by
  have htext : ∀ text front rest, partition sep text = some (front, rest) →
      text = front ++ sep ++ rest := by
    intro text
    induction text with
    | nil => exact fun _ _ h => absurd h (by simp [partition])
    | cons c more ih =>
      intro front rest h
      unfold partition at h
      split at h
      · next hpre =>
          rcases List.isPrefixOf_iff_prefix.mp hpre with ⟨tail, htail⟩
          cases h
          rw [← htail, drop_left, nil_append]
      · rcases map_eq_some_iff.mp h with ⟨⟨front', rest'⟩, hcut, heq⟩
        cases heq
        rw [ih _ _ hcut]
        rfl
  constructor
  · intro h
    have heq := htext text front rest h
    refine ⟨heq, (partition_append sep front rest hsep).mp ?_⟩
    rw [← heq]
    exact h
  · rintro ⟨rfl, hclean⟩
    exact (partition_append sep front rest hsep).mpr hclean

end

end Apex
