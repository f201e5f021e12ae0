import Apex.Core.Action

/-!
# States That Only Grow

Some facts about a shared state, once true, stay true whatever the workers do. What a
worker has learned of them it may rely on later, without any place that says what it has
learned: a program assures something if it returns it after every answer, where between
two requests the state may have become any later one.

A program that assures something at a state still does so later. That is why each
program can be looked at alone, and why `System.Run.assured` needs no invariant that
speaks of several workers.

## Main definitions

* `Growth`: Which states are sound, and which are later.
* `Program.assures`: What a program returns, whatever the others do.

## Theorems

* `Program.assures_later`: What is assured is assured later.
* `Action.ask_assures`, `Action.settle_assures`, `Action.raiseWhen_assures`: Walking along a
  coroutine.
* `System.Run.assured`: In every interleaving the state grows and every worker returns what
  its program assures.
-/

namespace Apex

open List Option Function

structure Growth (σ : Type) where
  sound : σ → Prop
  later : σ → σ → Prop
  refl : ∀ s, later s s
  trans : ∀ {s s' s''}, later s s' → later s' s'' → later s s''

namespace Program

variable {σ Req : Type} {Ans : Req → Type} {α : Type} (g : Growth σ)
  (answers : σ → (r : Req) → Ans r → σ → Prop) (fits : Req → Prop)

/-- A program makes only requests that fit, and what it returns holds, whatever the others did
    to the state before each answer. -/
def assures (returns : σ → α → Prop) : Program Req Ans α → σ → Prop
  | done a, s => returns s a
  | ask r next, s => fits r ∧ ∀ s' a s'', g.sound s' → g.later s s' → answers s' r a s'' →
      g.sound s'' → g.later s' s'' → (next a).assures returns s''

variable {g answers fits} {returns : σ → α → Prop}

theorem assures_later (hreturns : ∀ s s' a, g.later s s' → returns s a → returns s' a)
    {p : Program Req Ans α} {s s' : σ} (h : p.assures g answers fits returns s)
    (hlater : g.later s s') : p.assures g answers fits returns s' := by
  cases p with
  | done a => exact hreturns s s' a hlater h
  | ask r next => exact ⟨h.1, fun _ a _ hsound hlater' => h.2 _ a _ hsound (g.trans hlater hlater')⟩

theorem assures_of_uses {p : Program Req Ans α} (hp : p.uses fits) (hreturns : ∀ s a, returns s a)
    (s : σ) : p.assures g answers fits returns s := by
  induction p generalizing s with
  | done a => exact hreturns s a
  | ask r next ih => exact ⟨hp.1, fun _ a s'' _ _ _ _ _ => ih a (hp.2 a) s''⟩

end Program

namespace Action

variable {σ Req : Type} {Ans : Req → Type} {ε α β : Type} {g : Growth σ}
  {answers : σ → (r : Req) → Ans r → σ → Prop} {fits : Req → Prop}

theorem ask_assures {returns : σ → Except ε β → Prop} {r : Req} {f : Ans r → Action Req Ans ε β}
    {s : σ} (hfits : fits r)
    (h : ∀ s' a s'', g.sound s' → g.later s s' → answers s' r a s'' → g.sound s'' →
      g.later s' s'' → (f a).run.assures g answers fits returns s'') :
    (ask r >>= f).run.assures g answers fits returns s := ⟨hfits, h⟩

theorem settle_assures {ok : σ → β → Prop} {x : Except ε α} {f : α → Action Req Ans ε β} {s : σ}
    (h : ∀ a, x = .ok a → (f a).run.assures g answers fits (whenOk ok) s) :
    (settle x >>= f).run.assures g answers fits (whenOk ok) s := by
  cases x with
  | ok a => exact h a rfl
  | error e => exact whenOk_error

theorem raiseWhen_assures {ok : σ → Unit → Prop} {bad : Bool} {e : ε} {s : σ}
    (h : bad = false → ok s ()) :
    (raiseWhen bad e : Action Req Ans ε Unit).run.assures g answers fits (whenOk ok) s := by
  cases bad with
  | true => exact whenOk_error
  | false => exact whenOk_ok (h rfl)

end Action

namespace System

open Program

variable {σ ι Req : Type} {Ans : Req → Type} {α : Type} [DecidableEq ι] {g : Growth σ}

/-- What is known of an event of a run that has come to a state. -/
structure Event.Grown (g : Growth σ) (sys : System σ ι Req Ans α) (fits : ι → Req → Prop)
    (e : Event σ ι Req Ans) (last : σ) : Prop where
  fits : fits e.worker e.request
  answered : sys.respond e.worker e.before e.request e.answer e.after
  sound : g.sound e.before
  grown : g.later e.before e.after
  later : g.later e.after last

theorem Run.assured {sys : System σ ι Req Ans α} {fits : ι → Req → Prop}
    {returns : ι → σ → α → Prop} {s₀ : σ} (hinit : g.sound s₀)
    (hreturns : ∀ i s s' a, g.later s s' → returns i s a → returns i s' a)
    (hstart : ∀ i s p s', g.sound s → sys.start i s p s' →
      s' = s ∧ p.assures g (sys.respond i) (fits i) (returns i) s)
    (hanswer : ∀ i s r a s', g.sound s → fits i r → sys.respond i s r a s' →
      g.sound s' ∧ g.later s s')
    {events : List (Event σ ι Req Ans)} {t : Team σ ι Req Ans α} (hrun : sys.Run s₀ events t) :
    g.sound t.state ∧ (∀ e ∈ events, e.Grown g sys fits t.state) ∧
      ∀ i p, t.running i = some p → p.assures g (sys.respond i) (fits i) (returns i) t.state := by
  induction hrun with
  | idle => exact ⟨hinit, fun e he => absurd he not_mem_nil, fun i p h => nomatch h⟩
  | @answer events t i r next a s hrun hask hresp ih =>
    rcases ih with ⟨hsound, hevents, hassured⟩
    have hi := hassured i _ hask
    rcases hanswer i _ r a s hsound hi.1 hresp with ⟨hsound', hlater⟩
    refine ⟨hsound', fun e he => ?_, fun j p hp => ?_⟩
    · rcases mem_append.mp he with hold | hnew
      · have h := hevents e hold
        exact ⟨h.fits, h.answered, h.sound, h.grown, g.trans h.later hlater⟩
      · rw [mem_singleton.mp hnew]
        exact ⟨hi.1, hresp, hsound, hlater, g.refl s⟩
    · by_cases hj : j = i
      · subst hj
        simp only [update_self, some.injEq] at hp
        rw [← hp]
        exact hi.2 t.state a s hsound (g.refl _) hresp hsound' hlater
      · simp only [update_of_ne hj] at hp
        exact assures_later (hreturns j) (hassured j p hp) hlater
  | @start events t i p s hrun hstarted ih =>
    rcases ih with ⟨hsound, hevents, hassured⟩
    rcases hstart i _ p s hsound hstarted with ⟨rfl, hp⟩
    refine ⟨hsound, hevents, fun j q hq => ?_⟩
    by_cases hj : j = i
    · subst hj
      simp only [update_self, some.injEq] at hq
      rw [← hq]
      exact hp
    · simp only [update_of_ne hj] at hq
      exact hassured j q hq

end System

end Apex
