import Apex.Core.Action

/-!
# Talks

A talk is what a program asks and is answered, in order, from one point of it to
another. Where a discipline tells what every talk of a program keeps, this tells that a
talk takes place: it is how a run is built step by step from the programs that take
part in it.

## Main definitions

* `Program.converses`: A program has a talk and is then another program.
* `Program.talks`: The discipline whose places are the talks so far.
* `System.Hears`: A state answers as a talk goes and is then another state.
* `System.Event.exchange`: What was asked and answered in an event.

## Theorems

* `Program.converses_talks`: What is followed is kept along every talk.
* `Action.ask_converses`, `Action.raiseWhen_converses`, `Action.settle_converses`: A talk along a coroutine.
* `System.Run.talk`: A talk takes place in a run.
-/

namespace Apex

namespace Program

open List

variable {Req : Type} {Ans : Req → Type} {α : Type}

/-- A program asks and is answered as a talk goes, and is then another program. -/
def converses : Program Req Ans α → List ((r : Req) × Ans r) → Program Req Ans α → Prop
  | p, [], q => p = q
  | p, ⟨r, a⟩ :: rest, q => ∃ next, p = .ask r next ∧ (next a).converses rest q

/-- The discipline whose places are the talks so far. -/
def talks (allowed : List ((r : Req) × Ans r) → Req → Prop) :
    Discipline Req Ans (List ((r : Req) × Ans r)) where
  allowed := allowed
  possible _ _ _ := True
  move talk r a := talk ++ [⟨r, a⟩]

theorem converses_talks {allowed : List ((r : Req) × Ans r) → Req → Prop}
    {returns : List ((r : Req) × Ans r) → α → Prop} {q : Program Req Ans α} :
    ∀ {talk before : List ((r : Req) × Ans r)} {p : Program Req Ans α},
      p.follows (talks allowed) returns before → p.converses talk q →
        q.follows (talks allowed) returns (before ++ talk) ∧
          ∀ earlier x later, talk = earlier ++ x :: later → allowed (before ++ earlier) x.1
  | [], before, p, hp, htalk => by
    have hsame : p = q := htalk
    refine ⟨?_, fun earlier x later h => ?_⟩
    · rw [append_nil, ← hsame]
      exact hp
    · rcases append_eq_nil_iff.mp h.symm with ⟨_, hnil⟩
      cases hnil
  | ⟨r, a⟩ :: rest, before, p, hp, ⟨next, hask, htalk⟩ => by
    rw [hask] at hp
    rcases converses_talks (hp.2 a trivial) htalk with ⟨hrest, hallowed⟩
    have hassoc : ∀ l : List ((r : Req) × Ans r),
        (talks allowed).move before r a ++ l = before ++ ⟨r, a⟩ :: l :=
      fun l => append_assoc before [⟨r, a⟩] l
    refine ⟨hassoc rest ▸ hrest, fun earlier x later h => ?_⟩
    cases earlier with
    | nil =>
      rw [nil_append, cons.injEq] at h
      rw [← h.1, append_nil]
      exact hp.1
    | cons y earlier =>
      rw [cons_append, cons.injEq] at h
      rw [← h.1, ← hassoc]
      exact hallowed earlier x later h.2

end Program

namespace Action

variable {Req : Type} {Ans : Req → Type} {ε α β : Type} {talk : List ((r : Req) × Ans r)}
  {q : Program Req Ans (Except ε β)}

theorem ask_converses {r : Req} {a : Ans r} {f : Ans r → Action Req Ans ε β}
    (h : (f a).run.converses talk q) : (ask r >>= f).run.converses (⟨r, a⟩ :: talk) q :=
  ⟨fun a => (f a).run, rfl, h⟩

theorem raiseWhen_converses {bad : Bool} {e : ε} {f : Unit → Action Req Ans ε β} (hbad : bad = false)
    (h : (f ()).run.converses talk q) : (raiseWhen bad e >>= f).run.converses talk q := by
  subst hbad
  exact h

variable {a : α} {f : α → Action Req Ans ε β} {x : Action Req Ans ε α}

theorem settle_converses {x : Except ε α} (hx : x = .ok a)
    (h : (f a).run.converses talk q) : (settle x >>= f).run.converses talk q := by
  subst hx
  exact h

theorem settle_done {x : Except ε β} : (settle x : Action Req Ans ε β).run.converses [] (.done x) := by
  cases x with
  | ok a => rfl
  | error e => rfl

theorem map_converses {γ : Type} {f : α → γ} {result : Except ε α} :
    ∀ {talk : List ((r : Req) × Ans r)}, x.run.converses talk (.done result) →
      (f <$> x).run.converses talk (.done (f <$> result)) := by
  intro talk h
  have hrun : (f <$> x).run = x.run >>= fun r => .done (f <$> r) := by
    refine (congrArg (x.run >>= ·) ?_ : _)
    funext r
    cases r with
    | ok a => rfl
    | error e => rfl
  rw [hrun]
  generalize x.run = p at h
  induction talk generalizing p with
  | nil =>
    have hp : p = .done result := h
    rw [hp]
    rfl
  | cons pair rest ih =>
    rcases h with ⟨next, hp, hrest⟩
    rw [hp]
    exact ⟨fun a => next a >>= fun r => .done (f <$> r), rfl, ih _ hrest⟩

theorem bind_converses {later : List ((r : Req) × Ans r)} (hf : (f a).run.converses later q) :
    ∀ {talk : List ((r : Req) × Ans r)}, x.run.converses talk (.done (.ok a)) →
      (x >>= f).run.converses (talk ++ later) q := by
  intro talk h
  rw [ExceptT.run_bind]
  generalize x.run = p at h
  induction talk generalizing p with
  | nil =>
    have hp : p = .done (.ok a) := h
    rw [hp]
    exact hf
  | cons pair rest ih =>
    rcases h with ⟨next, hp, hrest⟩
    rw [hp]
    exact ⟨_, rfl, ih _ hrest⟩

theorem bind_done_converses (h : x.run.converses talk (.done (.ok a)))
    (hf : (f a).run.converses [] q) :
    (x >>= f).run.converses talk q := by
  have hnext := bind_converses hf h
  rwa [List.append_nil] at hnext

theorem handling_converses {ε' : Type} {handle : ε → Action Req Ans ε' α} :
    ∀ {talk : List ((r : Req) × Ans r)}, x.run.converses talk (.done (.ok a)) →
      (x.handling handle).run.converses talk (.done (.ok a)) := by
  intro talk h
  rw [handling, ExceptT.run_mk]
  generalize x.run = p at h
  induction talk generalizing p with
  | nil =>
    have hp : p = .done (.ok a) := h
    rw [hp]
    rfl
  | cons pair rest ih =>
    rcases h with ⟨next, hp, hrest⟩
    rw [hp]
    exact ⟨_, rfl, ih _ hrest⟩

end Action

namespace System

variable {σ ι Req : Type} {Ans : Req → Type} {α : Type} [DecidableEq ι]

/-- A state answers a worker as a talk goes, and is then another state. -/
def Hears (sys : System σ ι Req Ans α) (i : ι) : σ → List ((r : Req) × Ans r) → σ → Prop
  | s, [], s' => s = s'
  | s, ⟨r, a⟩ :: rest, s' => ∃ between, sys.respond i s r a between ∧ sys.Hears i between rest s'

def Event.exchange (e : Event σ ι Req Ans) : (r : Req) × Ans r := ⟨e.request, e.answer⟩

theorem Run.talk {sys : System σ ι Req Ans α} {s₀ : σ} {running : ι → Option (Program Req Ans α)}
    {i : ι} {q : Program Req Ans α} {s' : σ} : ∀ {talk : List ((r : Req) × Ans r)}
    {events : List (Event σ ι Req Ans)} {p : Program Req Ans α} {s : σ},
    sys.Run s₀ events ⟨s, Function.update running i (some p)⟩ → p.converses talk q →
    sys.Hears i s talk s' →
    ∃ later, sys.Run s₀ (events ++ later) ⟨s', Function.update running i (some q)⟩ ∧
      later.map Event.exchange = talk
  | [], events, p, s, hrun, hconverses, hhears => by
    have hp : p = q := hconverses
    have hs : s = s' := hhears
    rw [← hp, ← hs]
    exact ⟨[], (List.append_nil events).symm ▸ hrun, rfl⟩
  | ⟨r, a⟩ :: rest, events, p, s, hrun, ⟨next, hp, hconverses⟩, ⟨between, hresp, hhears⟩ => by
    rcases Run.talk (hrun.asked hp hresp) hconverses hhears with ⟨later, hlater, hexchange⟩
    rw [List.append_assoc] at hlater
    refine ⟨_, hlater, ?_⟩
    rw [List.map_append, hexchange]
    rfl

theorem Run.call {sys : System σ ι Req Ans α} {s₀ s s' : σ} {events : List (Event σ ι Req Ans)}
    {running : ι → Option (Program Req Ans α)} {i : ι} {last : Option (Program Req Ans α)}
    {p q : Program Req Ans α} {m : σ} {talk : List ((r : Req) × Ans r)}
    (hrun : sys.Run s₀ events ⟨s, Function.update running i last⟩) (hstart : sys.start i s p m)
    (hconverses : p.converses talk q) (hhears : sys.Hears i m talk s') :
    ∃ later, sys.Run s₀ (events ++ later) ⟨s', Function.update running i (some q)⟩ ∧
      later.map Event.exchange = talk :=
  (hrun.restarted hstart).talk hconverses hhears

theorem Run.resumed {sys : System σ ι Req Ans α} {s₀ s' : σ} {events : List (Event σ ι Req Ans)}
    {t : Team σ ι Req Ans α} {i : ι} {p q : Program Req Ans α} {talk : List ((r : Req) × Ans r)}
    (hrun : sys.Run s₀ events t) (hi : t.running i = some p) (hconverses : p.converses talk q)
    (hhears : sys.Hears i t.state talk s') :
    ∃ later, sys.Run s₀ (events ++ later) ⟨s', Function.update t.running i (some q)⟩ := by
  have hsame : t = ⟨t.state, Function.update t.running i (some p)⟩ := by
    rw [← hi, Function.update_eq_self]
  rw [hsame] at hrun
  rcases hrun.talk hconverses hhears with ⟨later, hlater, -⟩
  exact ⟨later, hlater⟩

theorem Run.begun {sys : System σ ι Req Ans α} {s₀ m s' : σ} {events : List (Event σ ι Req Ans)}
    {t : Team σ ι Req Ans α} {i : ι} {p q : Program Req Ans α} {talk : List ((r : Req) × Ans r)}
    (hrun : sys.Run s₀ events t) (hstart : sys.start i t.state p m)
    (hconverses : p.converses talk q) (hhears : sys.Hears i m talk s') :
    ∃ later, sys.Run s₀ (events ++ later) ⟨s', Function.update t.running i (some q)⟩ := by
  have hnext := hrun.start hstart
  rcases hnext.talk hconverses hhears with ⟨later, hlater, -⟩
  exact ⟨later, hlater⟩

end System

end Apex
