import Apex.Core.Text

/-!
# Trails

Procedures that write to a state piece by piece, given by the states they pass
through: one after every write.

What a procedure leaves is the last state of its trail, so a trail says both
what the procedure computes and what holds while it runs. A bound that every
single write keeps is kept by every state of every trail built from such
writes (`keeps_andThen`, `keeps_look`, `keeps_each`), however the procedure
chooses its writes.

## Main definitions

* `Trail.last`: The state it leaves.
* `Trail.Keeps`: Whether a property holds of every state it passes through.

## Theorems

* `last_andThen`: One procedure after another.
* `last_eq_or_mem`: What is left was there before or passed through.
* `last_each`: A procedure for each element of a list.
* `keeps_andThen`: What both procedures keep, both together keep.
* `keeps_each`: The same for a list.
-/

namespace Apex

open List

/-- A procedure on a state, given by the states after each of its writes. -/
def Trail (σ : Type) : Type := σ → List σ

namespace Trail

variable {σ α : Type}

def last (t : Trail σ) (s : σ) : σ := (t s).getLast?.getD s

def skip : Trail σ := fun _ => []

def write (f : σ → σ) : Trail σ := fun s => [f s]

def andThen (t u : Trail σ) : Trail σ := fun s => t s ++ u (t.last s)

/-- A procedure that depends on the state it starts in. -/
def look (f : σ → Trail σ) : Trail σ := fun s => f s s

/-- A procedure for each element of a list, in order. -/
def each (f : α → Trail σ) : List α → Trail σ
  | [] => skip
  | a :: rest => (f a).andThen (each f rest)

@[simp] theorem last_skip (s : σ) : (skip : Trail σ).last s = s := rfl

@[simp] theorem last_write (f : σ → σ) (s : σ) : (write f).last s = f s := rfl

@[simp] theorem last_look (f : σ → Trail σ) (s : σ) : (look f).last s = (f s).last s := rfl

@[simp] theorem last_andThen (t u : Trail σ) (s : σ) :
    (t.andThen u).last s = u.last (t.last s) := by
  show ((t s ++ u (t.last s)).getLast?).getD s = ((u (t.last s)).getLast?).getD (t.last s)
  rw [getLast?_append]
  cases (u (t.last s)).getLast? with
  | none => rfl
  | some s' => rfl

theorem last_each (f : α → Trail σ) (items : List α) (s : σ) :
    (each f items).last s = items.foldl (fun s a => (f a).last s) s := by
  induction items generalizing s with
  | nil => rfl
  | cons a rest ih =>
    rw [each, last_andThen, ih]
    rfl

/-- Whether a procedure started where `P` holds passes only through states
    where it holds. -/
def Keeps (P : σ → Prop) (t : Trail σ) : Prop := ∀ s, P s → ∀ s' ∈ t s, P s'

variable {P : σ → Prop}

theorem last_eq_or_mem (t : Trail σ) (s : σ) : t.last s = s ∨ t.last s ∈ t s := by
  unfold last
  cases hlast : (t s).getLast? with
  | none => exact Or.inl rfl
  | some s' => exact Or.inr (mem_of_getLast? hlast)

theorem Keeps.last {t : Trail σ} (h : Keeps P t) (s : σ) (hs : P s) : P (t.last s) := by
  rcases t.last_eq_or_mem s with heq | hmem
  · rw [heq]
    exact hs
  · exact h s hs _ hmem

theorem keeps_skip : Keeps P (skip : Trail σ) := fun _ _ _ h => absurd h not_mem_nil

theorem keeps_write {f : σ → σ} (h : ∀ s, P s → P (f s)) : Keeps P (write f) := by
  intro s hs s' hs'
  rw [mem_singleton.mp hs']
  exact h s hs

theorem keeps_andThen {t u : Trail σ} (ht : Keeps P t) (hu : Keeps P u) :
    Keeps P (t.andThen u) := by
  intro s hs s' hs'
  rcases mem_append.mp hs' with hfirst | hsecond
  · exact ht s hs s' hfirst
  · exact hu _ (ht.last s hs) s' hsecond

theorem keeps_look {f : σ → Trail σ} (h : ∀ s, P s → Keeps P (f s)) : Keeps P (look f) :=
  fun s hs => h s hs s hs

theorem keeps_each {f : α → Trail σ} (items : List α) (h : ∀ a ∈ items, Keeps P (f a)) :
    Keeps P (each f items) := by
  induction items with
  | nil => exact keeps_skip
  | cons a rest ih =>
    exact keeps_andThen (h a mem_cons_self) (ih fun b hb => h b (mem_cons_of_mem _ hb))

end Trail

end Apex
