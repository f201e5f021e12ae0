import Mathlib.Data.List.Forall2

/-!
# Checks That Raise

A function that may raise is an `Except`. A check is one that returns nothing,
and a sequence of checks is a `do` block. The lemmas here take such a block
apart: a block returned exactly when each line did.

## Main definitions

* `raiseIf`: Raise an error if a condition holds.
* `checkSome`: Check a value that may be absent.
* `someOr`: A value, or the error that it is not there.

## Theorems

* `bind_ok`: A block returned exactly when its first line and the rest did.
* `raiseIf_ok`: A check passed exactly when its condition was false.
* `mapM_ok`: A list was rewritten exactly when each element was.
-/

namespace Apex

open List

universe u v w

variable {ε : Type u} {α : Type v} {β : Type v}

def raiseIf (bad : Bool) (error : ε) : Except ε Unit :=
  if bad then .error error else .ok ()

def checkSome (check : α → Except ε Unit) : Option α → Except ε Unit
  | none => .ok ()
  | some a => check a

def someOr (error : ε) : Option α → Except ε α
  | some a => .ok a
  | none => .error error

@[simp] theorem raiseIf_ok (bad : Bool) (error : ε) (r : Unit) :
    raiseIf bad error = .ok r ↔ bad = false := by
  cases bad <;> simp only [raiseIf, if_true, Bool.false_eq_true, if_false, reduceCtorEq]

variable {x : Except ε α} {r a : α} {f : α → Except ε β} {xs : List α}

theorem ite_error_ok {c : Prop} [Decidable c] {e : ε} :
    (if c then .error e else x) = .ok r ↔ ¬ c ∧ x = .ok r := by
  by_cases h : c
  · simp only [h, if_true, reduceCtorEq, not_true_eq_false, false_and]
  · simp only [h, if_false, not_false_eq_true, true_and]

theorem bind_ok {r : β} :
    (x >>= f) = .ok r ↔ ∃ a, x = .ok a ∧ f a = .ok r := by
  cases x with
  | error e =>
    constructor
    · intro h
      exact absurd (show Except.error e = Except.ok r from h) (by simp only [reduceCtorEq,
        not_false_eq_true])
    · rintro ⟨a, ha, _⟩
      simp only [reduceCtorEq] at ha
  | ok a =>
    constructor
    · intro h
      exact ⟨a, rfl, h⟩
    · rintro ⟨b, hb, hf⟩
      rw [Except.ok.injEq] at hb
      subst hb
      exact hf

theorem map_ok {f : α → β} {r : β} :
    (f <$> x) = .ok r ↔ ∃ a, x = .ok a ∧ f a = r := by
  cases x with
  | error e =>
    constructor
    · intro h
      exact absurd (show Except.error e = Except.ok r from h) (by simp only [reduceCtorEq,
        not_false_eq_true])
    · rintro ⟨a, ha, _⟩
      simp only [reduceCtorEq] at ha
  | ok a =>
    constructor
    · intro h
      exact ⟨a, rfl, Except.ok.inj h⟩
    · rintro ⟨b, hb, hf⟩
      rw [Except.ok.injEq] at hb
      subst hb
      rw [← hf]
      rfl

@[simp] theorem pure_ok : (pure a : Except ε α) = .ok r ↔ a = r :=
  ⟨Except.ok.inj, fun h => h ▸ rfl⟩

theorem mapM_ok : ∀ {xs : List α} {ys : List β},
    xs.mapM f = .ok ys ↔ Forall₂ (fun x y => f x = .ok y) xs ys
  | [], ys => by
    rw [mapM_nil, pure_ok, forall₂_nil_left_iff]
    exact eq_comm
  | x :: xs, ys => by
    rw [mapM_cons, bind_ok, forall₂_cons_left_iff]
    constructor
    · rintro ⟨y, hy, hrest⟩
      rcases bind_ok.mp hrest with ⟨ys', hys', heq⟩
      exact ⟨y, ys', hy, mapM_ok.mp hys', (pure_ok.mp heq).symm⟩
    · rintro ⟨y, ys', hy, hys', rfl⟩
      exact ⟨y, hy, bind_ok.mpr ⟨ys', mapM_ok.mpr hys', rfl⟩⟩

theorem someOr_ok {error : ε} {o : Option α} : someOr error o = .ok a ↔ o = some a := by
  cases o with
  | none => exact ⟨fun h => (nomatch h), fun h => (nomatch h)⟩
  | some b => exact ⟨fun h => congrArg some (Except.ok.inj h), fun h => congrArg _ (Option.some.inj h)⟩

theorem mapM_mem {ys : List β} (h : xs.mapM f = .ok ys) {y : β}
    (hy : y ∈ ys) : ∃ x ∈ xs, f x = .ok y := by
  have hall := mapM_ok.mp h
  clear h
  induction hall with
  | nil => exact absurd hy not_mem_nil
  | @cons x z xs ys hxz _ ih =>
    rcases mem_cons.mp hy with rfl | hy
    · exact ⟨x, mem_cons_self, hxz⟩
    · rcases ih hy with ⟨x', hx', hok⟩
      exact ⟨x', mem_cons_of_mem _ hx', hok⟩

theorem mapM_exists (h : ∀ x ∈ xs, ∃ y, f x = .ok y) :
    ∃ ys, xs.mapM f = .ok ys := by
  induction xs with
  | nil => exact ⟨[], mapM_ok.mpr Forall₂.nil⟩
  | cons x xs ih =>
    rcases h x mem_cons_self with ⟨y, hy⟩
    rcases ih (fun z hz => h z (mem_cons_of_mem _ hz)) with ⟨ys, hys⟩
    exact ⟨y :: ys, mapM_ok.mpr (Forall₂.cons hy (mapM_ok.mp hys))⟩

end Apex
