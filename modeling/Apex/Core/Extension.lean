import Mathlib.Data.List.Forall2

/-!
# Lists That Are Extended

A record that is only added to: every element is still there, in its place, and is related
to what it was; other elements may follow. If the relation is reflexive and transitive, so
is this one, and it is kept by a change of one element and by an element that is appended.

## Main definitions

* `Extends`: A list is the beginning of another, up to a relation of its elements.

## Theorems

* `forall₂_of_mem`, `forall₂_mem`, `forall₂_at`: The element at the same place.
* `Extends.trans`, `Extends.append`, `Extends.change`: How records are extended.
-/

namespace Apex

open List

variable {α : Type} {R : α → α → Prop} {xs ys zs : List α}

theorem forall₂_self [Std.Refl R] (xs : List α) : Forall₂ R xs xs :=
  forall₂_same.mpr fun x _ => Std.Refl.refl x

theorem forall₂_trans [IsTrans α R] :
    ∀ {xs ys zs : List α}, Forall₂ R xs ys → Forall₂ R ys zs → Forall₂ R xs zs
  | _, _, _, .nil, .nil => Forall₂.nil
  | _, _, _, .cons hxy hxs, .cons hyz hys =>
    Forall₂.cons (IsTrans.trans _ _ _ hxy hyz) (forall₂_trans hxs hys)

theorem forall₂_change [Std.Refl R] (before after : List α) {x y : α} (h : R x y) :
    Forall₂ R (before ++ x :: after) (before ++ y :: after) :=
  rel_append (forall₂_self before) (Forall₂.cons h (forall₂_self after))

theorem forall₂_of_mem (h : Forall₂ R xs ys) {y : α} (hy : y ∈ ys) : ∃ x ∈ xs, R x y := by
  induction h with
  | nil => exact absurd hy not_mem_nil
  | cons hxy _ ih =>
    rcases mem_cons.mp hy with rfl | hrest
    · exact ⟨_, mem_cons_self, hxy⟩
    · rcases ih hrest with ⟨x, hx, hr⟩
      exact ⟨x, mem_cons_of_mem _ hx, hr⟩

theorem forall₂_mem (h : Forall₂ R xs ys) {x : α} (hx : x ∈ xs) : ∃ y ∈ ys, R x y := by
  rcases forall₂_of_mem h.flip hx with ⟨y, hy, hr⟩
  exact ⟨y, hy, hr⟩

theorem forall₂_at {before after : List α} {y : α} (h : Forall₂ R xs (before ++ y :: after)) :
    ∃ before₀ x after₀, xs = before₀ ++ x :: after₀ ∧ Forall₂ R before₀ before ∧ R x y := by
  have hbefore := forall₂_take_append xs before (y :: after) h
  have hrest := forall₂_drop_append xs before (y :: after) h
  rcases forall₂_cons_right_iff.mp hrest with ⟨x, after₀, hx, _, hsplit⟩
  refine ⟨xs.take before.length, x, after₀, ?_, hbefore, hx⟩
  rw [← hsplit, take_append_drop]

/-- Every element is still there, in its place, related to what it was; others may follow. -/
def Extends (R : α → α → Prop) (xs ys : List α) : Prop :=
  ∃ kept added, ys = kept ++ added ∧ List.Forall₂ R xs kept

theorem Extends.of_forall₂ (h : Forall₂ R xs ys) : Extends R xs ys :=
  ⟨ys, [], (append_nil ys).symm, h⟩

theorem Extends.refl [Std.Refl R] (xs : List α) : Extends R xs xs :=
  Extends.of_forall₂ (forall₂_self xs)

theorem Extends.append [Std.Refl R] (xs added : List α) : Extends R xs (xs ++ added) :=
  ⟨xs, added, rfl, forall₂_self xs⟩

theorem Extends.change [Std.Refl R] (before after : List α) {x y : α} (h : R x y) :
    Extends R (before ++ x :: after) (before ++ y :: after) :=
  Extends.of_forall₂ (forall₂_change before after h)

theorem Extends.trans [IsTrans α R] (h : Extends R xs ys)
    (h' : Extends R ys zs) : Extends R xs zs := by
  rcases h with ⟨kept, added, rfl, hkept⟩
  rcases h' with ⟨kept', added', rfl, hkept'⟩
  have hfirst : Forall₂ R kept (kept'.take kept.length) := by
    have htake := forall₂_take kept.length hkept'
    rwa [take_left] at htake
  refine ⟨kept'.take kept.length, kept'.drop kept.length ++ added', ?_, forall₂_trans hkept hfirst⟩
  rw [← append_assoc, take_append_drop]

end Apex
