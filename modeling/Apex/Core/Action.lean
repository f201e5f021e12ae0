import Apex.Core.Team

/-!
# Actions

A coroutine asks, and returns or raises: a program whose result is a value or an
exception. Only what it returns is usually promised, since an exception ends the
work; `whenOk` is such a promise, and the rules here carry it along a coroutine.

## Main definitions

* `Action`: Coroutines.
* `Action.ask`, `Action.settle`: Asking, and passing an outcome on.
* `Action.handling`: Handling what is raised.
* `Action.whenOk`: A promise about what is returned.

## Theorems

* `Action.bind_uses`: What a sequence asks, its parts ask.
* `Action.bind_follows`: A sequence returns what its second part promises.
* `Action.bind_either`: The same where something is promised of a failure too.
* `Action.tryCatch_follows`: A handler takes over with what it knows.
-/

namespace Apex

abbrev Action (Req : Type) (Ans : Req → Type) (ε α : Type) := ExceptT ε (Program Req Ans) α

namespace Action

open Program

variable {Req : Type} {Ans : Req → Type} {ε α β L : Type}

def ask (r : Req) : Action Req Ans ε (Ans r) := liftM (Program.request r : Program Req Ans (Ans r))

def settle : Except ε α → Action Req Ans ε α
  | .ok a => pure a
  | .error e => throw e

/-- Return an outcome, or raise what a handler makes of the exception. -/
def settleWith (handle : ε → ε) : Except ε α → Action Req Ans ε α
  | .ok a => pure a
  | .error e => throw (handle e)

def raiseWhen (bad : Bool) (error : ε) : Action Req Ans ε Unit :=
  if bad then throw error else pure ()

/-- Handle whatever a coroutine raises, by one that may raise something else. -/
def handling {ε' : Type} (x : Action Req Ans ε α) (handle : ε → Action Req Ans ε' α) :
    Action Req Ans ε' α :=
  ExceptT.mk (x.run >>= fun result => match result with
    | .ok a => .done (.ok a)
    | .error e => (handle e).run)

section Uses

variable {fits : Req → Prop}

theorem ask_uses {r : Req} {f : Ans r → Action Req Ans ε β} (hr : fits r)
    (hf : ∀ a, (f a).run.uses fits) : (ask r >>= f).run.uses fits := ⟨hr, hf⟩

variable {x : Action Req Ans ε α}

theorem bind_uses {f : α → Action Req Ans ε β} (hx : x.run.uses fits)
    (hf : ∀ a, (f a).run.uses fits) : (x >>= f).run.uses fits := by
  rw [ExceptT.run_bind]
  refine uses_bind hx fun result => ?_
  cases result with
  | ok a => exact hf a
  | error e => exact trivial

theorem map_uses {f : α → β} (hx : x.run.uses fits) :
    (f <$> x).run.uses fits := by
  refine uses_bind hx fun result => ?_
  cases result with
  | ok a => exact trivial
  | error e => exact trivial

theorem settle_uses {x : Except ε α} :
    (settle x : Action Req Ans ε α).run.uses fits := by
  cases x with
  | ok a => exact trivial
  | error e => exact trivial

theorem raiseWhen_uses {bad : Bool} {e : ε} :
    (raiseWhen bad e : Action Req Ans ε Unit).run.uses fits := by
  cases bad with
  | true => exact trivial
  | false => exact trivial

theorem ite_uses {c : Prop} [Decidable c] {y : Action Req Ans ε α} (hx : x.run.uses fits)
    (hy : y.run.uses fits) : (if c then x else y).run.uses fits := by
  by_cases h : c
  · rwa [if_pos h]
  · rwa [if_neg h]

end Uses

variable {d : Discipline Req Ans L}

/-- A promise about what is returned, when something is. -/
def whenOk (ok : L → α → Prop) (l : L) (result : Except ε α) : Prop :=
  ∀ a, result = .ok a → ok l a

variable {l : L} {ok m : L → α → Prop} {a : α} {e : ε} {R : L → Except ε β → Prop} {bad : Bool}
  {x : Action Req Ans ε α} {f : α → Action Req Ans ε β} {failed raised : L → ε → Prop}
  {handle : ε → Action Req Ans ε α}

theorem whenOk_ok (h : ok l a) :
    whenOk ok l (.ok a : Except ε α) := by
  intro b hb
  rw [← Except.ok.inj hb]
  exact h

theorem whenOk_error :
    whenOk ok l (.error e : Except ε α) := fun _ hb => nomatch hb

theorem ask_follows {R : L → Except ε (Ans r) → Prop} (hr : d.allowed l r)
    (h : ∀ a, d.possible l r a → R (d.move l r a) (.ok a)) :
    (ask r : Action Req Ans ε (Ans r)).run.follows d R l := ⟨hr, h⟩

theorem ask_bind_follows {r : Req} {f : Ans r → Action Req Ans ε β} (hr : d.allowed l r)
    (h : ∀ a, d.possible l r a → (f a).run.follows d R (d.move l r a)) :
    (ask r >>= f).run.follows d R l := follows_run_ask.mpr ⟨hr, h⟩

theorem pure_follows (h : ok l a) :
    (pure a : Action Req Ans ε α).run.follows d (whenOk ok) l := whenOk_ok h

theorem throw_follows :
    (throw e : Action Req Ans ε α).run.follows d (whenOk ok) l := whenOk_error

theorem settle_follows {x : Except ε α} (h : ∀ a, x = .ok a → ok l a) :
    (settle x : Action Req Ans ε α).run.follows d (whenOk ok) l := by
  cases x with
  | ok a => exact whenOk_ok (h a rfl)
  | error e => exact whenOk_error

theorem settleWith_follows {handle : ε → ε} {x : Except ε α} (h : ∀ a, x = .ok a → ok l a) :
    (settleWith handle x : Action Req Ans ε α).run.follows d (whenOk ok) l := by
  cases x with
  | ok a => exact whenOk_ok (h a rfl)
  | error e => exact whenOk_error

theorem raiseWhen_follows {ok : L → Unit → Prop} (h : bad = false → ok l ()) :
    (raiseWhen bad e : Action Req Ans ε Unit).run.follows d (whenOk ok) l := by
  cases bad with
  | true => exact whenOk_error
  | false => exact whenOk_ok (h rfl)

section

variable {ok : L → β → Prop}

theorem bind_follows (hx : x.run.follows d (whenOk m) l)
    (hf : ∀ l a, m l a → (f a).run.follows d (whenOk ok) l) :
    (x >>= f).run.follows d (whenOk ok) l := by
  refine follows_run_bind.mpr (follows_mono hx fun l result hresult => ?_)
  cases result with
  | ok a => exact hf l a (hresult a rfl)
  | error e => exact whenOk_error

theorem bind_follows_frame {Rel : L → L → Prop} (hrefl : ∀ l, Rel l l)
    (htrans : ∀ {l₁ l₂ l₃}, Rel l₁ l₂ → Rel l₂ l₃ → Rel l₁ l₃)
    (hmove : ∀ l r a, Rel l (d.move l r a)) (hx : x.run.follows d (whenOk m) l)
    (hf : ∀ l' a, m l' a → Rel l l' → (f a).run.follows d (whenOk ok) l') :
    (x >>= f).run.follows d (whenOk ok) l := by
  refine follows_run_bind.mpr (follows_mono (follows_frame hrefl htrans hmove hx)
    fun l result hresult => ?_)
  cases result with
  | ok a => exact hf l a (hresult.1 a rfl) hresult.2
  | error e => exact whenOk_error

theorem settle_bind_follows {x : Except ε α}
    (h : ∀ a, x = .ok a → (f a).run.follows d (whenOk ok) l) :
    (settle x >>= f).run.follows d (whenOk ok) l := by
  cases x with
  | ok a => exact h a rfl
  | error e => exact whenOk_error

theorem raiseWhen_bind_follows {f : Unit → Action Req Ans ε β}
    (h : bad = false → (f ()).run.follows d (whenOk ok) l) :
    (raiseWhen bad e >>= f).run.follows d (whenOk ok) l := by
  cases bad with
  | true => exact whenOk_error
  | false => exact h rfl

theorem map_follows {f : α → β} (hx : x.run.follows d (whenOk m) l)
    (hf : ∀ l a, m l a → ok l (f a)) :
    (f <$> x).run.follows d (whenOk ok) l := by
  refine follows_run_map.mpr (follows_mono hx fun l result hresult => ?_)
  cases result with
  | ok a => exact whenOk_ok (hf l a (hresult a rfl))
  | error e => exact whenOk_error

end

theorem mono_follows (hx : x.run.follows d (whenOk m) l) (h : ∀ l a, m l a → ok l a) :
    x.run.follows d (whenOk ok) l :=
  follows_mono hx fun l _ hresult a ha => h l a (hresult a ha)

theorem either_of_whenOk (hx : x.run.follows d (whenOk ok) l) :
    x.run.follows d (either ok (fun _ _ => True)) l := by
  refine follows_mono hx fun l result hresult => ?_
  cases result with
  | ok a => exact hresult a rfl
  | error e => trivial

/-! ## Promises about exceptions

The same rules where something is also promised of a failure. -/

theorem bind_either {ok : L → β → Prop} (hx : x.run.follows d (either m failed) l)
    (hf : ∀ l a, m l a → (f a).run.follows d (either ok failed) l) :
    (x >>= f).run.follows d (either ok failed) l := by
  refine follows_run_bind.mpr (follows_mono hx fun l result hresult => ?_)
  cases result with
  | ok a => exact hf l a hresult
  | error e => exact hresult

theorem settle_bind_either {x : Except ε α} (hok : ∀ a, x = .ok a → (f a).run.follows d R l)
    (hfailed : ∀ e, x = .error e → R l (.error e)) : (settle x >>= f).run.follows d R l := by
  cases x with
  | ok a => exact hok a rfl
  | error e => exact hfailed e rfl

theorem raiseWhen_bind_either {f : Unit → Action Req Ans ε β}
    (hok : bad = false → (f ()).run.follows d R l)
    (hfailed : bad = true → R l (.error e)) : (raiseWhen bad e >>= f).run.follows d R l := by
  cases bad with
  | true => exact hfailed rfl
  | false => exact hok rfl

theorem map_either {ok : L → β → Prop} {f : α → β} (hx : x.run.follows d (either m failed) l)
    (hf : ∀ l a, m l a → ok l (f a)) : (f <$> x).run.follows d (either ok failed) l := by
  refine follows_run_map.mpr (follows_mono hx fun l result hresult => ?_)
  cases result with
  | ok a => exact hf l a hresult
  | error e => exact hresult

theorem pure_either (h : ok l a) :
    (pure a : Action Req Ans ε α).run.follows d (either ok failed) l := h

theorem settle_either {x : Except ε α} (hok : ∀ a, x = .ok a → ok l a)
    (hfailed : ∀ e, x = .error e → failed l e) :
    (settle x : Action Req Ans ε α).run.follows d (either ok failed) l := by
  cases x with
  | ok a => exact hok a rfl
  | error e => exact hfailed e rfl

theorem raiseWhen_either {ok : L → Unit → Prop} (hok : bad = false → ok l ())
    (hfailed : bad = true → failed l e) :
    (raiseWhen bad e : Action Req Ans ε Unit).run.follows d (either ok failed) l := by
  cases bad with
  | true => exact hfailed rfl
  | false => exact hok rfl

theorem mono_either {n : L → ε → Prop} (hx : x.run.follows d (either m n) l)
    (hok : ∀ l a, m l a → ok l a)
    (hfailed : ∀ l e, n l e → failed l e) : x.run.follows d (either ok failed) l := by
  refine follows_mono hx fun l result hresult => ?_
  cases result with
  | ok a => exact hok l a hresult
  | error e => exact hfailed l e hresult

theorem tryCatch_either (hx : x.run.follows d (either ok raised) l)
    (hhandle : ∀ l e, raised l e → (handle e).run.follows d (either ok failed) l) :
    (tryCatch x handle).run.follows d (either ok failed) l := by
  refine follows_run_tryCatch.mpr (follows_mono hx fun l result hresult => ?_)
  cases result with
  | ok a => exact hresult
  | error e => exact hhandle l e hresult

theorem tryCatch_follows (hx : x.run.follows d (either ok raised) l)
    (hhandle : ∀ l e, raised l e → (handle e).run.follows d (whenOk ok) l) :
    (tryCatch x handle).run.follows d (whenOk ok) l := by
  refine follows_run_tryCatch.mpr (follows_mono hx fun l result hresult => ?_)
  cases result with
  | ok a => exact whenOk_ok hresult
  | error e => exact hhandle l e hresult

theorem handling_follows {ε' : Type} {handle : ε → Action Req Ans ε' α}
    (hx : x.run.follows d (either ok raised) l)
    (hhandle : ∀ l e, raised l e → (handle e).run.follows d (whenOk ok) l) :
    (x.handling handle).run.follows d (whenOk ok) l := by
  refine follows_bind.mpr (follows_mono hx fun l result hresult => ?_)
  cases result with
  | ok a => exact whenOk_ok hresult
  | error e => exact hhandle l e hresult

end Action

end Apex
