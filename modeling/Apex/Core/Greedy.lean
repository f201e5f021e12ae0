import Mathlib.Data.List.Basic

/-!
# Greedy Insertion

A result is filled from a list of candidates: each one that is eligible is put in, the
result is measured, and the candidate is taken out again when the result no longer fits.

Nothing is assumed about the measure, so a candidate that does not fit says nothing about
those after it. What can be said is that whatever went in did fit at that moment, that
what goes in keeps the order of the candidates, and that something goes in as soon as one
candidate fits where the filling started.

## Main definitions

* `greedy`: Put in what fits.

## Theorems

* `greedy_induction`: What every insertion that fits preserves.
* `greedy_frame`: What no insertion touches.
* `greedy_append`, `greedy_prepend`: What goes in is a sublist of the candidates.
* `greedy_reaches`: Something goes in when a candidate fits.
-/

namespace Apex

open List

universe u v

variable {σ : Type u} {α : Type v}

/-- Put in each eligible candidate with which the result still fits. -/
def greedy (fits : σ → Bool) (eligible : α → Bool) (place : σ → α → σ) : List α → σ → σ
  | [], result => result
  | entry :: entries, result =>
    greedy fits eligible place entries
      (if eligible entry && fits (place result entry) then place result entry else result)

variable {fits : σ → Bool} {eligible : α → Bool} {place : σ → α → σ}

@[simp] theorem greedy_nil (result : σ) : greedy fits eligible place [] result = result := rfl

theorem greedy_cons_taken {entry : α} {result : σ} (he : eligible entry = true)
    (hf : fits (place result entry) = true) (entries : List α) :
    greedy fits eligible place (entry :: entries) result
      = greedy fits eligible place entries (place result entry) := by
  rw [greedy, he, hf, Bool.and_self, if_pos rfl]

theorem greedy_cons_left {entry : α} {result : σ}
    (h : ¬ (eligible entry = true ∧ fits (place result entry) = true)) (entries : List α) :
    greedy fits eligible place (entry :: entries) result
      = greedy fits eligible place entries result := by
  rw [greedy, if_neg (by rwa [Bool.and_eq_true])]

theorem greedy_induction {P : σ → Prop} : ∀ {entries : List α} {result : σ},
    (∀ r, ∀ e ∈ entries, eligible e = true → fits (place r e) = true → P r → P (place r e)) →
      P result → P (greedy fits eligible place entries result)
  | [], _, _, h => h
  | entry :: entries, result, hstep, h => by
    have hrest := fun r e he => hstep r e (mem_cons_of_mem entry he)
    by_cases htaken : eligible entry = true ∧ fits (place result entry) = true
    · rw [greedy_cons_taken htaken.1 htaken.2]
      exact greedy_induction hrest (hstep result entry mem_cons_self htaken.1 htaken.2 h)
    · rw [greedy_cons_left htaken]
      exact greedy_induction hrest h

theorem greedy_frame {β : Type*} (f : σ → β) (h : ∀ r e, f (place r e) = f r)
    (entries : List α) (result : σ) :
    f (greedy fits eligible place entries result) = f result :=
  greedy_induction (P := fun r => f r = f result) (fun r e _ _ _ hr => (h r e).trans hr) rfl

theorem greedy_append (f : σ → List α) (h : ∀ r e, f (place r e) = f r ++ [e]) :
    ∀ (entries : List α) (result : σ), ∃ l : List α, l.Sublist entries ∧
      f (greedy fits eligible place entries result) = f result ++ l
  | [], result => ⟨[], Sublist.refl _, (append_nil _).symm⟩
  | entry :: entries, result => by
    by_cases htaken : eligible entry = true ∧ fits (place result entry) = true
    · rcases greedy_append f h entries (place result entry) with ⟨l, hl, hf⟩
      refine ⟨entry :: l, hl.cons_cons entry, ?_⟩
      rw [greedy_cons_taken htaken.1 htaken.2, hf, h, append_assoc, singleton_append]
    · rcases greedy_append f h entries result with ⟨l, hl, hf⟩
      refine ⟨l, hl.cons entry, ?_⟩
      rw [greedy_cons_left htaken, hf]

theorem greedy_prepend (f : σ → List α) (h : ∀ r e, f (place r e) = e :: f r) :
    ∀ (entries : List α) (result : σ), ∃ l : List α, l.Sublist entries ∧
      f (greedy fits eligible place entries result) = l.reverse ++ f result
  | [], result => ⟨[], Sublist.refl _, rfl⟩
  | entry :: entries, result => by
    by_cases htaken : eligible entry = true ∧ fits (place result entry) = true
    · rcases greedy_prepend f h entries (place result entry) with ⟨l, hl, hf⟩
      refine ⟨entry :: l, hl.cons_cons entry, ?_⟩
      rw [greedy_cons_taken htaken.1 htaken.2, hf, h, reverse_cons, append_assoc, singleton_append]
    · rcases greedy_prepend f h entries result with ⟨l, hl, hf⟩
      refine ⟨l, hl.cons entry, ?_⟩
      rw [greedy_cons_left htaken, hf]

/-- Nothing went in, or something did: then what each insertion establishes, and each
    insertion preserves, holds of the result. -/
theorem greedy_eq_or {P : σ → Prop} {entries : List α} {result : σ}
    (hstep : ∀ r, ∀ e ∈ entries, eligible e = true → fits (place r e) = true → P (place r e)) :
    greedy fits eligible place entries result = result ∨
      P (greedy fits eligible place entries result) :=
  greedy_induction (P := fun r => r = result ∨ P r)
    (fun r e he hel hf _ => .inr (hstep r e he hel hf)) (.inl rfl)

theorem greedy_reaches {P : σ → Prop} : ∀ {entries : List α} {result : σ},
    (∀ r, ∀ e ∈ entries, eligible e = true → fits (place r e) = true → P (place r e)) →
      (∃ e ∈ entries, eligible e = true ∧ fits (place result e) = true) →
        P (greedy fits eligible place entries result)
  | [], _, _, h => by
    rcases h with ⟨e, he, _⟩
    exact absurd he not_mem_nil
  | entry :: entries, result, hstep, h => by
    have hrest := fun r e he => hstep r e (mem_cons_of_mem entry he)
    by_cases htaken : eligible entry = true ∧ fits (place result entry) = true
    · rw [greedy_cons_taken htaken.1 htaken.2]
      exact greedy_induction (fun r e he hel hf _ => hrest r e he hel hf)
        (hstep result entry mem_cons_self htaken.1 htaken.2)
    · rw [greedy_cons_left htaken]
      refine greedy_reaches hrest ?_
      rcases h with ⟨e, he, hel, hf⟩
      rcases mem_cons.mp he with rfl | he
      · exact absurd ⟨hel, hf⟩ htaken
      · exact ⟨e, he, hel, hf⟩

end Apex
