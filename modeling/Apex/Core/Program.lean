import Mathlib.Data.List.Basic

/-!
# Programs That Ask

A program is done, or asks its environment and continues with whatever the
answer is. The tree of all answers is the program; nothing is assumed of the
environment until it is given.

Programs are sequenced as usual: `request r` asks and returns the answer, and
`bind` continues with it.

There are two ways to give the environment. An oracle answers each request as a function,
and `eval` is the value the program then computes. Or the environment is a
shared state that any number of workers ask in turn: `respond` says which
answers a state may give and what it becomes. A worker may be restarted at any
moment with any program it can be started with, so whatever it had not been
told is lost while what its requests did to the state stays.

An invariant of such a system needs no induction over programs: it suffices
that the requests a program can make at all (`uses`) keep it.

## Main definitions

* `Program`: The programs.
* `Program.bind`: Their sequencing.
* `Program.eval`: The value under an oracle.
* `Program.uses`: Which requests a program can make.
* `Workers.Run`: Their interleavings, with the answers given.

## Theorems

* `Workers.Run.invariant`: What every answer keeps, every interleaving keeps.
-/

namespace Apex

open List Function

inductive Program (Req : Type) (Ans : Req → Type) (α : Type) : Type where
  | done (a : α)
  | ask (r : Req) (next : Ans r → Program Req Ans α)

namespace Program

variable {Req : Type} {Ans : Req → Type} {α β : Type}

def bind (p : Program Req Ans α) (f : α → Program Req Ans β) : Program Req Ans β :=
  match p with
  | done a => f a
  | ask r next => ask r (fun a => (next a).bind f)

instance : Monad (Program Req Ans) where
  pure := done
  bind := bind

def request (r : Req) : Program Req Ans (Ans r) := ask r done

def eval (oracle : ∀ r, Ans r) : Program Req Ans α → α
  | done a => a
  | ask r next => (next (oracle r)).eval oracle

/-- Every request a program can make is allowed. -/
def uses (allowed : Req → Prop) : Program Req Ans α → Prop
  | done _ => True
  | ask r next => allowed r ∧ ∀ a, (next a).uses allowed

theorem uses_bind {allowed : Req → Prop} {p : Program Req Ans α} {f : α → Program Req Ans β}
    (hp : p.uses allowed) (hf : ∀ a, (f a).uses allowed) : (p >>= f).uses allowed := by
  induction p with
  | done a => exact hf a
  | ask r next ih => exact ⟨hp.1, fun a => ih a (hp.2 a)⟩

theorem uses_request {allowed : Req → Prop} {r : Req} {f : Ans r → Program Req Ans α}
    (hr : allowed r) (hf : ∀ a, (f a).uses allowed) : (request r >>= f).uses allowed :=
  ⟨hr, hf⟩

end Program

/-- Some workers over a shared state: the state, and what each has left to do. -/
structure Workers (σ ι : Type) (Req : Type) (Ans : Req → Type) (α : Type) where
  state : σ
  running : ι → Program Req Ans α

namespace Workers

variable {σ ι Req : Type} {Ans : Req → Type} {α : Type} [DecidableEq ι]

/-- One answer a state gave: the state it was given in, and the request. -/
structure Event (σ Req : Type) (Ans : Req → Type) where
  before : σ
  request : Req
  answer : Ans request
  after : σ

/-- The interleavings of some workers, with the answers they were given. A worker
    asks, or is started again with a program it may run. -/
inductive Run (respond : σ → (r : Req) → Ans r → σ → Prop) (starts : Program Req Ans α → Prop) :
    Workers σ ι Req Ans α → List (Event σ Req Ans) → Workers σ ι Req Ans α → Prop
  | refl (w : Workers σ ι Req Ans α) : Run respond starts w [] w
  | answer {w w' : Workers σ ι Req Ans α} {events : List (Event σ Req Ans)} (i : ι) (r : Req)
      (next : Ans r → Program Req Ans α) (a : Ans r) (s : σ)
      (hrun : Run respond starts w events w') (hask : w'.running i = .ask r next)
      (hresp : respond w'.state r a s) :
      Run respond starts w (events ++ [⟨w'.state, r, a, s⟩])
        ⟨s, Function.update w'.running i (next a)⟩
  | restart {w w' : Workers σ ι Req Ans α} {events : List (Event σ Req Ans)} (i : ι)
      (p : Program Req Ans α) (hrun : Run respond starts w events w') (hp : starts p) :
      Run respond starts w events ⟨w'.state, Function.update w'.running i p⟩

/-- What every answer to an allowed request keeps, every interleaving of programs
    that make no others keeps. -/
theorem Run.invariant {respond : σ → (r : Req) → Ans r → σ → Prop}
    {starts : Program Req Ans α → Prop} {allowed : Req → Prop} {Inv : σ → Prop}
    {Good : Event σ Req Ans → Prop} (hstarts : ∀ p, starts p → p.uses allowed)
    (hstep : ∀ s r a s', Inv s → allowed r → respond s r a s' → Inv s' ∧ Good ⟨s, r, a, s'⟩)
    {w w' : Workers σ ι Req Ans α} {events : List (Event σ Req Ans)}
    (hrun : Run respond starts w events w') (hw : ∀ i, (w.running i).uses allowed)
    (hinv : Inv w.state) :
    Inv w'.state ∧ (∀ i, (w'.running i).uses allowed) ∧ ∀ e ∈ events, Good e := by
  induction hrun with
  | refl => exact ⟨hinv, hw, fun e he => absurd he not_mem_nil⟩
  | @answer w' events i r next a s hrun hask hresp ih =>
    rcases ih with ⟨hs, huses, hgood⟩
    have hi := huses i
    rw [hask] at hi
    rcases hstep _ r a s hs hi.1 hresp with ⟨hs', hg⟩
    refine ⟨hs', fun j => ?_, fun e he => ?_⟩
    · change Program.uses allowed (Function.update w'.running i (next a) j)
      by_cases hj : j = i
      · subst hj
        rw [update_self]
        exact hi.2 a
      · rw [update_of_ne hj]
        exact huses j
    · rcases mem_append.mp he with hold | hnew
      · exact hgood e hold
      · rw [mem_singleton.mp hnew]
        exact hg
  | @restart w' events i p hrun hp ih =>
    rcases ih with ⟨hs, huses, hgood⟩
    refine ⟨hs, fun j => ?_, hgood⟩
    change Program.uses allowed (Function.update w'.running i p j)
    by_cases hj : j = i
    · subst hj
      rw [update_self]
      exact hstarts p hp
    · rw [update_of_ne hj]
      exact huses j

end Workers

end Apex
