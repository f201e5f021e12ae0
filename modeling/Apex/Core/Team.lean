import Apex.Core.Program

/-!
# Workers That Share A State

Any number of workers run programs over one shared state. A worker asks, and
the state answers and changes; or a worker is given a program, at any moment
and whatever it was doing, so that everything it had learned is gone while what
its requests did to the state stays. That is a crash, a cancellation or a new
call, and a worker that is never heard of again needs no rule.

What a worker has learned is told apart from what the state holds by giving it
a place: a discipline says which requests are allowed at a place, which answers
to expect there and where an answer moves it. A program follows the discipline
from a place if it only ever makes allowed requests, and that is a statement
about the program alone, proved by walking along it. An invariant of all
interleavings then relates the state, the places and the events so far, and is
proved request by request, without looking at any program again.

## Main definitions

* `Program.follows`: A program keeps a discipline and returns as promised.
* `Program.embed`: A program asked through another interface.
* `System`: How a state answers, and which programs are given to workers.
* `System.restrict`: The system whose every answer passes a test.
* `System.Run`: The interleavings, with the answers given.

## Theorems

* `Program.follows_bind`, `Program.follows_run_bind`: Following is walked along
  a program.
* `Program.follows_embed`: A program asked through another interface.
* `System.Run.invariant`: What every start and every allowed answer keeps, every
  interleaving keeps.
-/

namespace Apex

open Option Function

/-- Which requests are allowed at a place, which answers may come there, and where an
    answer leads. -/
structure Discipline (Req : Type) (Ans : Req → Type) (L : Type) where
  allowed : L → Req → Prop
  possible : L → (r : Req) → Ans r → Prop
  move : L → (r : Req) → Ans r → L

namespace Program

variable {Req : Type} {Ans : Req → Type} {L α β ε : Type} {d : Discipline Req Ans L}

/-- From a place, a program makes only allowed requests and returns as promised. -/
def follows (d : Discipline Req Ans L) (returns : L → α → Prop) : Program Req Ans α → L → Prop
  | done a, l => returns l a
  | ask r next, l =>
    d.allowed l r ∧ ∀ a, d.possible l r a → (next a).follows d returns (d.move l r a)

theorem follows_mono {returns promised : L → α → Prop} {p : Program Req Ans α} {l : L}
    (hp : p.follows d returns l) (h : ∀ l a, returns l a → promised l a) :
    p.follows d promised l := by
  induction p generalizing l with
  | done a => exact h l a hp
  | ask r next ih => exact ⟨hp.1, fun a ha => ih a (hp.2 a ha)⟩

theorem follows_frame {returns : L → α → Prop} {Rel : L → L → Prop} (hrefl : ∀ l, Rel l l)
    (htrans : ∀ {l₁ l₂ l₃}, Rel l₁ l₂ → Rel l₂ l₃ → Rel l₁ l₃)
    (hmove : ∀ l r a, Rel l (d.move l r a)) {p : Program Req Ans α} {l : L}
    (hp : p.follows d returns l) : p.follows d (fun l' a => returns l' a ∧ Rel l l') l := by
  induction p generalizing l with
  | done a => exact ⟨hp, hrefl l⟩
  | ask r next ih =>
    refine ⟨hp.1, fun a ha => follows_mono (ih a (hp.2 a ha)) fun l' b h => ?_⟩
    exact ⟨h.1, htrans (hmove l r a) h.2⟩

/-- A sequence is followed if its first part leads to where its second part can
    be followed from. -/
theorem follows_bind {returns : L → β → Prop} {p : Program Req Ans α}
    {f : α → Program Req Ans β} {l : L} :
    (p >>= f).follows d returns l ↔ p.follows d (fun l a => (f a).follows d returns l) l := by
  induction p generalizing l with
  | done a => exact Iff.rfl
  | ask r next ih =>
    exact and_congr_right fun _ => forall_congr' fun a => imp_congr_right fun _ => ih a

/-- A promise about a result, told for values and for failures. -/
def either (ok : L → α → Prop) (failed : L → ε → Prop) : L → Except ε α → Prop
  | l, .ok a => ok l a
  | l, .error e => failed l e

theorem follows_run_bind {returns : L → Except ε β → Prop} {x : ExceptT ε (Program Req Ans) α}
    {f : α → ExceptT ε (Program Req Ans) β} {l : L} :
    (x >>= f).run.follows d returns l ↔
      x.run.follows d (either (fun l a => (f a).run.follows d returns l)
        (fun l e => returns l (.error e))) l := by
  rw [ExceptT.run_bind, follows_bind]
  constructor
  · refine fun h => follows_mono h fun l result hresult => ?_
    cases result with
    | ok a => exact hresult
    | error e => exact hresult
  · refine fun h => follows_mono h fun l result hresult => ?_
    cases result with
    | ok a => exact hresult
    | error e => exact hresult

theorem follows_run_tryCatch {returns : L → Except ε α → Prop}
    {x : ExceptT ε (Program Req Ans) α} {handle : ε → ExceptT ε (Program Req Ans) α} {l : L} :
    (tryCatch x handle).run.follows d returns l ↔
      x.run.follows d (either (fun l a => returns l (.ok a))
        (fun l e => (handle e).run.follows d returns l)) l := by
  have hrun : (tryCatch x handle).run.follows d returns l ↔ _ := follows_bind
  rw [hrun]
  constructor
  · refine fun h => follows_mono h fun l result hresult => ?_
    cases result with
    | ok a => exact hresult
    | error e => exact hresult
  · refine fun h => follows_mono h fun l result hresult => ?_
    cases result with
    | ok a => exact hresult
    | error e => exact hresult

theorem follows_run_ask {returns : L → Except ε β → Prop} {r : Req}
    {f : Ans r → ExceptT ε (Program Req Ans) β} {l : L} :
    ((liftM (request r : Program Req Ans (Ans r)) : ExceptT ε (Program Req Ans) (Ans r))
        >>= f).run.follows d returns l ↔
      d.allowed l r ∧ ∀ a, d.possible l r a → (f a).run.follows d returns (d.move l r a) :=
  Iff.rfl

theorem follows_run_map {returns : L → Except ε β → Prop} {x : ExceptT ε (Program Req Ans) α}
    {f : α → β} {l : L} :
    (f <$> x).run.follows d returns l ↔
      x.run.follows d (either (fun l a => returns l (.ok (f a)))
        (fun l e => returns l (.error e))) l := by
  have hrun : (f <$> x).run.follows d returns l ↔ _ := follows_bind
  rw [hrun]
  constructor
  · refine fun h => follows_mono h fun l result hresult => ?_
    cases result with
    | ok a => exact hresult
    | error e => exact hresult
  · refine fun h => follows_mono h fun l result hresult => ?_
    cases result with
    | ok a => exact hresult
    | error e => exact hresult

theorem follows_run_lift {returns : L → Except ε α → Prop} {p : Program Req Ans α} {l : L} :
    (liftM p : ExceptT ε (Program Req Ans) α).run.follows d returns l ↔
      p.follows d (fun l a => returns l (.ok a)) l := by
  have hrun : (liftM p : ExceptT ε (Program Req Ans) α).run = p >>= fun a => pure (.ok a) := rfl
  rw [hrun, follows_bind]
  rfl

/-- The requests of a program, asked through another interface. -/
def embed {Req' : Type} {Ans' : Req' → Type} (f : Req → Req') :
    Program Req (fun r => Ans' (f r)) α → Program Req' Ans' α
  | done a => done a
  | ask r next => ask (f r) fun a => (next a).embed f

/-- A discipline of the one interface serves for the other if what is known there
    matches what is known here, before and after every answer. -/
theorem follows_embed {Req' : Type} {Ans' : Req' → Type} {L' : Type} {f : Req → Req'}
    {d : Discipline Req (fun r => Ans' (f r)) L} {d' : Discipline Req' Ans' L'}
    {returns : L → α → Prop} {p : Program Req (fun r => Ans' (f r)) α} {l : L} {l' : L'}
    (Matches : L → L' → Prop) (hp : p.follows d returns l)
    (hmatch : Matches l l')
    (hallowed : ∀ l l' r, Matches l l' → d.allowed l r → d'.allowed l' (f r))
    (hmove : ∀ l l' r a, Matches l l' → d'.possible l' (f r) a →
      d.possible l r a ∧ Matches (d.move l r a) (d'.move l' (f r) a)) :
    (p.embed f).follows d' (fun l' a => ∃ l, Matches l l' ∧ returns l a) l' := by
  induction p generalizing l l' with
  | done a => exact ⟨l, hmatch, hp⟩
  | ask r next ih =>
    refine ⟨hallowed l l' r hmatch hp.1, fun a ha => ?_⟩
    rcases hmove l l' r a hmatch ha with ⟨hpossible, hmatch'⟩
    exact ih a (hp.2 a hpossible) hmatch'

theorem follows_of_uses {fits : Req → Prop} {R : L → L → Prop} {p : Program Req Ans α} {l : L}
    (hp : p.uses fits) (hallowed : ∀ l r, fits r → d.allowed l r) (hrefl : ∀ l, R l l)
    (htrans : ∀ {l₁ l₂ l₃}, R l₁ l₂ → R l₂ l₃ → R l₁ l₃)
    (hmove : ∀ l r a, fits r → R l (d.move l r a)) : p.follows d (fun l' _ => R l l') l := by
  induction p generalizing l with
  | done a => exact hrefl l
  | ask r next ih =>
    refine ⟨hallowed l r hp.1, fun a _ => ?_⟩
    exact follows_mono (ih a (hp.2 a)) fun l' b h => htrans (hmove l r a hp.1) h

end Program

/-- A discipline with a further place, where nothing is allowed. -/
def Discipline.withIdle {Req : Type} {Ans : Req → Type} {L : Type} (d : Discipline Req Ans L) :
    Discipline Req Ans (Option L) where
  allowed place r := ∃ l, place = some l ∧ d.allowed l r
  possible place r a := ∀ l, place = some l → d.possible l r a
  move place r a := place.map fun l => d.move l r a

theorem Program.follows_withIdle {Req : Type} {Ans : Req → Type} {L α : Type}
    {d : Discipline Req Ans L} {returns : L → α → Prop} {p : Program Req Ans α} {l : L}
    (hp : p.follows d returns l) :
    p.follows d.withIdle (fun place a => ∃ l, place = some l ∧ returns l a) (some l) := by
  induction p generalizing l with
  | done a => exact ⟨l, rfl, hp⟩
  | ask r next ih => exact ⟨⟨l, rfl, hp.1⟩, fun a ha => ih a (hp.2 a (ha l rfl))⟩

structure System (σ ι : Type) (Req : Type) (Ans : Req → Type) (α : Type) where
  respond : ι → σ → (r : Req) → Ans r → σ → Prop
  start : ι → σ → Program Req Ans α → σ → Prop

/-- The shared state, and what each worker has left to do. -/
structure Team (σ ι : Type) (Req : Type) (Ans : Req → Type) (α : Type) where
  state : σ
  running : ι → Option (Program Req Ans α)

namespace System

variable {σ ι Req : Type} {Ans : Req → Type} {α L : Type} [DecidableEq ι]

/-- One answer a worker was given, with the states around it. -/
structure Event (σ ι Req : Type) (Ans : Req → Type) where
  worker : ι
  before : σ
  request : Req
  answer : Ans request
  after : σ

/-- The system whose every answer passes a test. -/
def restrict (sys : System σ ι Req Ans α) (passes : Event σ ι Req Ans → Prop) :
    System σ ι Req Ans α where
  respond i s r a s' := sys.respond i s r a s' ∧ passes ⟨i, s, r, a, s'⟩
  start := sys.start

/-- The interleavings of workers that all begin idle. -/
inductive Run (sys : System σ ι Req Ans α) (s₀ : σ) :
    List (Event σ ι Req Ans) → Team σ ι Req Ans α → Prop
  | idle : Run sys s₀ [] ⟨s₀, fun _ => none⟩
  | answer {events : List (Event σ ι Req Ans)} {t : Team σ ι Req Ans α} {i : ι} {r : Req}
      {next : Ans r → Program Req Ans α} {a : Ans r} {s : σ} (hrun : Run sys s₀ events t)
      (hask : t.running i = some (.ask r next)) (hresp : sys.respond i t.state r a s) :
      Run sys s₀ (events ++ [⟨i, t.state, r, a, s⟩])
        ⟨s, update t.running i (some (next a))⟩
  | start {events : List (Event σ ι Req Ans)} {t : Team σ ι Req Ans α} {i : ι}
      {p : Program Req Ans α} {s : σ} (hrun : Run sys s₀ events t)
      (hstart : sys.start i t.state p s) :
      Run sys s₀ events ⟨s, update t.running i (some p)⟩

theorem Run.of_restrict {sys : System σ ι Req Ans α} {passes : Event σ ι Req Ans → Prop} {s₀ : σ}
    {events : List (Event σ ι Req Ans)} {t : Team σ ι Req Ans α}
    (hrun : (sys.restrict passes).Run s₀ events t) : sys.Run s₀ events t := by
  induction hrun with
  | idle => exact .idle
  | answer _ hask hresp ih => exact .answer ih hask hresp.1
  | start _ hstart ih => exact .start ih hstart

theorem Run.asked {sys : System σ ι Req Ans α} {s₀ s s' : σ} {events : List (Event σ ι Req Ans)}
    {running : ι → Option (Program Req Ans α)} {i : ι} {p : Program Req Ans α} {r : Req}
    {next : Ans r → Program Req Ans α} {a : Ans r}
    (hrun : sys.Run s₀ events ⟨s, update running i (some p)⟩) (hp : p = .ask r next)
    (hresp : sys.respond i s r a s') :
    sys.Run s₀ (events ++ [⟨i, s, r, a, s'⟩]) ⟨s', update running i (some (next a))⟩ := by
  have hask : (⟨s, update running i (some p)⟩ : Team σ ι Req Ans α).running i
      = some (.ask r next) := by
    rw [← hp]
    exact update_self i (some p) running
  have hnext := Run.answer hrun hask hresp
  rw [update_idem] at hnext
  exact hnext

theorem Run.restarted {sys : System σ ι Req Ans α} {s₀ s s' : σ}
    {events : List (Event σ ι Req Ans)} {running : ι → Option (Program Req Ans α)} {i : ι}
    {last : Option (Program Req Ans α)} {p : Program Req Ans α}
    (hrun : sys.Run s₀ events ⟨s, update running i last⟩) (hstart : sys.start i s p s') :
    sys.Run s₀ events ⟨s', update running i (some p)⟩ := by
  have hnext := Run.start hrun hstart
  rw [update_idem] at hnext
  exact hnext

/-- What every start and every answer to an allowed request keeps, every
    interleaving of programs that follow the discipline keeps. -/
theorem Run.invariant {sys : System σ ι Req Ans α} {d : Discipline Req Ans L}
    {returns : L → α → Prop} {Inv : List (Event σ ι Req Ans) → σ → (ι → L) → Prop} {s₀ : σ}
    {places₀ : ι → L} (hinit : Inv [] s₀ places₀)
    (hstart : ∀ {events s places i p s'}, Inv events s places → sys.start i s p s' →
      ∃ l, p.follows d returns l ∧ Inv events s' (update places i l))
    (hanswer : ∀ {events s places i r a s'}, Inv events s places → d.allowed (places i) r →
      sys.respond i s r a s' → d.possible (places i) r a ∧
      Inv (events ++ [⟨i, s, r, a, s'⟩]) s' (update places i (d.move (places i) r a)))
    {events : List (Event σ ι Req Ans)} {t : Team σ ι Req Ans α} (hrun : sys.Run s₀ events t) :
    ∃ places, Inv events t.state places ∧
      ∀ i p, t.running i = some p → p.follows d returns (places i) := by
  induction hrun with
  | idle => exact ⟨places₀, hinit, fun i p h => nomatch h⟩
  | @answer events t i r next a s hrun hask hresp ih =>
    rcases ih with ⟨places, hinv, hfollows⟩
    have hi := hfollows i _ hask
    rcases hanswer hinv hi.1 hresp with ⟨hpossible, hinv'⟩
    refine ⟨_, hinv', fun j p hp => ?_⟩
    by_cases hj : j = i
    · subst hj
      simp only [update_self, some.injEq] at hp ⊢
      rw [← hp]
      exact hi.2 a hpossible
    · simp only [update_of_ne hj] at hp ⊢
      exact hfollows j p hp
  | @start events t i p s hrun hstarted ih =>
    rcases ih with ⟨places, hinv, hfollows⟩
    rcases hstart hinv hstarted with ⟨l, hp, hinv'⟩
    refine ⟨_, hinv', fun j q hq => ?_⟩
    by_cases hj : j = i
    · subst hj
      simp only [update_self, some.injEq] at hq ⊢
      rw [← hq]
      exact hp
    · simp only [update_of_ne hj] at hq ⊢
      exact hfollows j q hq

end System

end Apex
