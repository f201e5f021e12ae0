import Apex.Core.Json

/-!
# Budgeted Walks

A check that empties an explicit stack, one value per turn, and gives up when
it has seen too many values. Validators written against hostile documents
have this form, since a recursive one could be driven out of stack space.

The walk is indifferent to the order in which it meets the values: it
succeeds exactly when the values fit the budget and every one of them passes
the test at its depth. `walk_ok_iff` says so, and it is the only fact about
the loop anything else uses. The budget is what the loop recurses on, so no
separate termination argument is needed.

## Main definitions

* `walk`: The loop over the stack.
* `stackNodes`: The number of values still to be seen.

## Theorems

* `walk_ok_iff`: A walk succeeds exactly when the values fit and pass.
-/

namespace Apex

open List
open Json

/-- Pop a value, let `visit` judge it at its depth and name what is below it,
    and go on. The values below are pushed in order, so the last one is on
    top. -/
def walk {ε : Type} (tooLarge : ε) (visit : Nat → Json → Except ε (List Json)) :
    Nat → List (Json × Nat) → Except ε Unit
  | _, [] => .ok ()
  | 0, _ :: _ => .error tooLarge
  | budget + 1, (current, depth) :: stack =>
    match visit depth current with
    | .error e => .error e
    | .ok below =>
      walk tooLarge visit budget ((below.map (fun v => (v, depth + 1))).reverse ++ stack)

/-- The number of values still to be seen, the ones below included. -/
def stackNodes (stack : List (Json × Nat)) : Nat := (stack.map (fun vd => vd.1.nodes)).sum

theorem stackNodes_push (below : List Json) (depth : Nat) (stack : List (Json × Nat)) :
    stackNodes ((below.map (fun v => (v, depth + 1))).reverse ++ stack)
      = (below.map nodes).sum + stackNodes stack := by
  rw [stackNodes, stackNodes, map_append, sum_append, map_reverse, sum_reverse, List.map_map]
  rfl

/-- Two visits that agree from some depth on give the same walk of a stack that
    starts there. -/
theorem walk_congr {ε : Type} (tooLarge : ε) {f g : Nat → Json → Except ε (List Json)} {n : Nat}
    (hfg : ∀ d v, n ≤ d → f d v = g d v) :
    ∀ (budget : Nat) (stack : List (Json × Nat)), (∀ vd ∈ stack, n ≤ vd.2) →
      walk tooLarge f budget stack = walk tooLarge g budget stack
  | _, [], _ => by rw [walk, walk]
  | 0, _ :: _, _ => by rw [walk, walk]
  | budget + 1, (v, d) :: stack, h => by
    rw [forall_mem_cons] at h
    rw [walk, walk, hfg d v h.1]
    cases g d v with
    | error e => rfl
    | ok below =>
      refine walk_congr tooLarge hfg budget _ (fun vd hvd => ?_)
      rcases mem_append.mp hvd with hpushed | hstack
      · rcases List.mem_map.mp (mem_reverse.mp hpushed) with ⟨w, _, rfl⟩
        exact Nat.le_succ_of_le h.1
      · exact h.2 vd hstack

/-- Whether a visit at this depth accepts the value. -/
def accepts {ε : Type} (visit : Nat → Json → Except ε (List Json)) (depth : Nat) (v : Json) :
    Bool := (visit depth v).toBool

/-- A walk over a visit that names exactly the values below succeeds when they
    all fit the budget and all pass. -/
theorem walk_ok_iff {ε : Type} (tooLarge : ε) (visit : Nat → Json → Except ε (List Json))
    (hvisit : ∀ d v below, visit d v = .ok below → below = v.children) :
    ∀ (budget : Nat) (stack : List (Json × Nat)),
      walk tooLarge visit budget stack = .ok () ↔ stackNodes stack ≤ budget ∧
        ∀ vd ∈ stack, vd.1.everyAt (accepts visit) vd.2 = true
  | budget, [] => by
    simp only [walk, stackNodes, map_nil, sum_nil, Nat.zero_le, not_mem_nil,
      false_implies, implies_true, and_self]
  | 0, (v, d) :: stack => by
    have hpos := nodes_pos v
    simp only [walk, stackNodes, map_cons, sum_cons, reduceCtorEq, false_iff, not_and]
    intro hle
    omega
  | budget + 1, (v, d) :: stack => by
    rw [forall_mem_cons, everyAt_eq]
    have hsplit : stackNodes ((v, d) :: stack)
        = 1 + (v.children.map nodes).sum + stackNodes stack := by
      rw [stackNodes, map_cons, sum_cons, nodes_eq]
      rfl
    rw [hsplit]
    cases hv : visit d v with
    | error e =>
      have hacc : accepts visit d v = false := by rw [accepts, hv]; rfl
      simp only [walk, hv, hacc, reduceCtorEq, Bool.false_eq_true, false_and, and_false]
    | ok below =>
      have hacc : accepts visit d v = true := by rw [accepts, hv]; rfl
      have hbelow := hvisit d v below hv
      subst hbelow
      simp only [walk, hv]
      rw [walk_ok_iff tooLarge visit hvisit budget, stackNodes_push]
      simp only [hacc, true_and, mem_append, mem_reverse, List.mem_map]
      constructor
      · rintro ⟨hle, hall⟩
        refine ⟨by omega, fun c hc => ?_, fun vd hvd => hall vd (Or.inr hvd)⟩
        exact hall (c, d + 1) (Or.inl ⟨c, hc, rfl⟩)
      · rintro ⟨hle, hbelow, hstack⟩
        refine ⟨by omega, ?_⟩
        rintro vd (⟨c, hc, rfl⟩ | hvd)
        · exact hbelow c hc
        · exact hstack vd hvd

end Apex
