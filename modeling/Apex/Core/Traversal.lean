import Mathlib.Algebra.BigOperators.Fin
import Mathlib.Algebra.Order.BigOperators.Group.Finset

/-!
# Traversing A Web Of Objects

Objects hold entries, and an entry may refer to an object; references may be shared and may
go round. A traversal keeps the entries it has still to look at and the objects it has
entered, and enters an object no second time.

What such a traversal has ahead of it depends on these two alone: the objects that can be
reached from a pending entry without passing through one that was entered. Looking at an
entry that leads nowhere new removes this entry and nothing else from what is ahead, and
entering an object turns one object ahead into its entries, pending. So whatever is summed
over everything ahead goes down by what the entry at hand costs, and whatever is required of
everything ahead is required of the entry at hand and of the rest.

## Main definitions

* `Web.Ahead`: The objects a traversal has still to enter.
* `Web.left`: A sum over these.
* `Web.total`: What all entries ahead cost.
* `Web.Meets`: All entries ahead have a property.

## Theorems

* `Web.ahead_enter`: Entering an object.
* `Web.total_skip`, `Web.total_enter`: What an entry takes from the costs ahead.
* `Web.meets_skip`, `Web.meets_enter`: What an entry takes from what is required.
-/

namespace Apex

open List

/-- What objects hold, and the object an entry refers to. -/
structure Web (ρ ε : Type) where
  held : ρ → List ε
  target : ε → Option ρ

namespace Web

section

variable {ρ ε : Type}

/-- The objects that are reached from what is pending, past none that was entered. -/
inductive Ahead (web : Web ρ ε) (pending : List ε) (seen : Finset ρ) : ρ → Prop
  | here {e : ε} {r : ρ} (hmem : e ∈ pending) (ht : web.target e = some r) (hr : r ∉ seen) :
      Ahead web pending seen r
  | there {e : ε} {r t : ρ} (h : Ahead web pending seen r) (hmem : e ∈ web.held r)
      (ht : web.target e = some t) (hr : t ∉ seen) : Ahead web pending seen t

def Meets (web : Web ρ ε) (P : ε → Prop) (pending : List ε) (seen : Finset ρ) : Prop :=
  (∀ e ∈ pending, P e) ∧ ∀ r, Ahead web pending seen r → ∀ e ∈ web.held r, P e

variable {web : Web ρ ε} {pending fewer : List ε} {seen : Finset ρ} {e e' : ε} {r t : ρ}

theorem ahead_unseen (h : Ahead web pending seen r) : r ∉ seen := by
  cases h with
  | here _ _ hr => exact hr
  | there _ _ _ hr => exact hr

theorem not_ahead_nil : ¬ Ahead web [] seen r := by
  intro h
  induction h with
  | here hmem => exact not_mem_nil hmem
  | there _ _ _ _ ih => exact ih

theorem ahead_of_targets
    (hsub : ∀ e ∈ pending, ∀ r, web.target e = some r → r ∉ seen →
      Ahead web fewer seen r) (h : Ahead web pending seen t) : Ahead web fewer seen t := by
  induction h with
  | here hmem ht hr => exact hsub _ hmem _ ht hr
  | there _ hmem ht hr ih => exact .there ih hmem ht hr

theorem ahead_skip (h : ∀ r, web.target e = some r → r ∈ seen) :
    Ahead web (e :: pending) seen t ↔ Ahead web pending seen t := by
  constructor
  · refine ahead_of_targets fun d hd r ht hr => ?_
    rcases mem_cons.mp hd with rfl | hd
    · exact absurd (h r ht) hr
    · exact .here hd ht hr
  · exact ahead_of_targets fun d hd r ht hr => .here (mem_cons_of_mem e hd) ht hr

theorem ahead_swap {e e' : ε} (h : web.target e = web.target e') :
    Ahead web (e :: pending) seen t ↔ Ahead web (e' :: pending) seen t := by
  have hone : ∀ {d d' : ε}, web.target d = web.target d' →
      Ahead web (d :: pending) seen t → Ahead web (d' :: pending) seen t := by
    intro d d' hd
    refine ahead_of_targets fun c hc r ht hr => ?_
    rcases mem_cons.mp hc with rfl | hc
    · exact .here mem_cons_self (hd ▸ ht) hr
    · exact .here (mem_cons_of_mem d' hc) ht hr
  exact ⟨hone h, hone h.symm⟩

theorem ahead_enter [DecidableEq ρ] (ht : web.target e = some r) (hr : r ∉ seen) :
    Ahead web (e :: pending) seen t ↔
      t = r ∨ Ahead web (web.held r ++ pending) (insert r seen) t := by
  constructor
  · intro h
    -- A path that meets `r` again is cut there: what follows begins at an entry of `r`.
    induction h with
    | @here d u hmem hd hu =>
      rcases eq_or_ne u r with rfl | hne
      · exact Or.inl rfl
      · refine Or.inr ?_
        rcases mem_cons.mp hmem with rfl | hmem
        · exact absurd (Option.some.inj (hd.symm.trans ht)) hne
        · exact .here (mem_append_right _ hmem) hd
            (fun hin => (Finset.mem_insert.mp hin).elim hne hu)
    | @there d u v _ hmem hd hv ih =>
      rcases eq_or_ne v r with rfl | hne
      · exact Or.inl rfl
      · have hfresh : v ∉ insert r seen := fun hin => (Finset.mem_insert.mp hin).elim hne hv
        rcases ih with rfl | ih
        · exact Or.inr (.here (mem_append_left _ hmem) hd hfresh)
        · exact Or.inr (.there ih hmem hd hfresh)
  · have hself : Ahead web (e :: pending) seen r := .here mem_cons_self ht hr
    rintro (rfl | h)
    · exact hself
    · induction h with
      | @here d u hmem hd hu =>
        have hfresh : u ∉ seen := fun hin => hu (Finset.mem_insert_of_mem hin)
        rcases mem_append.mp hmem with hmem | hmem
        · exact .there hself hmem hd hfresh
        · exact .here (mem_cons_of_mem e hmem) hd hfresh
      | @there d u v _ hmem hd hv ih =>
        exact .there ih hmem hd (fun hin => hv (Finset.mem_insert_of_mem hin))

variable {P : ε → Prop}

theorem meets_nil : Meets web P [] seen :=
  ⟨fun _ h => absurd h not_mem_nil, fun _ h => absurd h not_ahead_nil⟩

theorem meets_skip (P : ε → Prop) (pending : List ε) (h : ∀ r, web.target e = some r → r ∈ seen) :
    Meets web P (e :: pending) seen ↔ P e ∧ Meets web P pending seen := by
  simp only [Meets, forall_mem_cons, ahead_skip h, and_assoc]

theorem meets_swap (P : ε → Prop) (pending : List ε) (seen : Finset ρ)
    (h : web.target e = web.target e') (hP : P e → P e') :
    Meets web P (e :: pending) seen ↔ P e ∧ Meets web P (e' :: pending) seen := by
  simp only [Meets, forall_mem_cons, ahead_swap h, and_assoc]
  exact ⟨fun hall => ⟨hall.1, hP hall.1, hall.2⟩, fun hall => ⟨hall.1, hall.2.2⟩⟩

theorem meets_enter [DecidableEq ρ] (P : ε → Prop) (pending : List ε)
    (ht : web.target e = some r) (hr : r ∉ seen) :
    Meets web P (e :: pending) seen ↔
      P e ∧ Meets web P (web.held r ++ pending) (insert r seen) := by
  simp only [Meets, forall_mem_cons, ahead_enter ht hr, forall_mem_append,
    forall_eq_or_imp, and_assoc]
  exact ⟨fun ⟨h1, h2, h3, h4⟩ => ⟨h1, h3, h2, h4⟩, fun ⟨h1, h2, h3, h4⟩ => ⟨h1, h3, h2, h4⟩⟩

end

section

open scoped Classical in
noncomputable def left {ρ ε : Type} [Fintype ρ] (web : Web ρ ε) (f : ρ → Nat)
    (pending : List ε) (seen : Finset ρ) : Nat :=
  ∑ r with Ahead web pending seen r, f r

noncomputable def total {ρ ε : Type} [Fintype ρ] (web : Web ρ ε) (cost : ε → Nat)
    (pending : List ε) (seen : Finset ρ) : Nat :=
  (pending.map cost).sum + web.left (fun r => ((web.held r).map cost).sum) pending seen

variable {ρ ε : Type} [Fintype ρ] {web : Web ρ ε} {pending fewer : List ε}
  {seen : Finset ρ} {e e' : ε} {r : ρ} {f : ρ → Nat} {cost : ε → Nat}

theorem left_congr {later : Finset ρ}
    (h : ∀ t, Ahead web pending seen t ↔ Ahead web fewer later t) :
    web.left f pending seen = web.left f fewer later := by
  rw [left, left]
  refine Finset.sum_congr (Finset.ext fun t => ?_) fun _ _ => rfl
  simp only [Finset.mem_filter, Finset.mem_univ, true_and, h t]

theorem left_nil : web.left f [] seen = 0 := by
  simp only [left, not_ahead_nil, Finset.filter_false, Finset.sum_empty]

theorem left_enter [DecidableEq ρ] (ht : web.target e = some r) (hr : r ∉ seen) :
    web.left f (e :: pending) seen = f r + web.left f (web.held r ++ pending) (insert r seen) := by
  classical
  have hsplit : (Finset.univ.filter fun t => Ahead web (e :: pending) seen t) =
      insert r (Finset.univ.filter fun t =>
        Ahead web (web.held r ++ pending) (insert r seen) t) := by
    ext t
    simp only [Finset.mem_filter, Finset.mem_univ, true_and, Finset.mem_insert, ahead_enter ht hr]
  rw [left, hsplit, Finset.sum_insert, left]
  simp only [Finset.mem_filter, Finset.mem_univ, true_and]
  exact fun h => ahead_unseen h (Finset.mem_insert_self r seen)

theorem total_nil : web.total cost [] seen = 0 := by
  rw [total, left_nil, map_nil, sum_nil]

theorem total_skip (cost : ε → Nat) (pending : List ε) (h : ∀ r, web.target e = some r → r ∈ seen) :
    web.total cost (e :: pending) seen = cost e + web.total cost pending seen := by
  rw [total, total, map_cons, sum_cons, Nat.add_assoc, left_congr fun t => ahead_skip (t := t) h]

theorem total_swap (cost : ε → Nat) (pending : List ε) (seen : Finset ρ)
    (h : web.target e = web.target e') :
    web.total cost (e :: pending) seen + cost e' =
      cost e + web.total cost (e' :: pending) seen := by
  rw [total, total, map_cons, sum_cons, map_cons, sum_cons,
    left_congr fun t => ahead_swap (t := t) h]
  omega

theorem total_enter [DecidableEq ρ] (cost : ε → Nat) (pending : List ε)
    (ht : web.target e = some r) (hr : r ∉ seen) :
    web.total cost (e :: pending) seen =
      cost e + web.total cost (web.held r ++ pending) (insert r seen) := by
  rw [total, total, left_enter ht hr, map_cons, sum_cons, map_append, sum_append]
  omega

theorem cost_le_total (cost : ε → Nat)
    (hpart : e ∈ pending ∨ ∃ r, Ahead web pending seen r ∧ e ∈ web.held r) :
    cost e ≤ web.total cost pending seen := by
  classical
  rw [total]
  rcases hpart with hmem | ⟨r, hr, hmem⟩
  · exact Nat.le_trans (single_le_sum (fun _ _ => Nat.zero_le _) _
      (List.mem_map_of_mem hmem)) (Nat.le_add_right _ _)
  · refine Nat.le_trans (single_le_sum (fun _ _ => Nat.zero_le _) _
      (List.mem_map_of_mem hmem)) (Nat.le_trans ?_ (Nat.le_add_left _ _))
    exact Finset.single_le_sum (f := fun r => ((web.held r).map cost).sum)
      (fun _ _ => Nat.zero_le _) (Finset.mem_filter.mpr ⟨Finset.mem_univ r, hr⟩)

end

end Web

end Apex
