import Mathlib.Data.Fintype.Order
import Mathlib.Order.FixedPoints
import Mathlib.Order.CompletePartialOrder

/-!
# Searches That Remember

A property of a key that rests on its children: the key is good, and so is
everything below it. It is decided by a search in depth that remembers every key it
opens, at first as a failure, so that a key that is met again while it is still open
counts as one.

Such a failure is read by whoever meets the key meanwhile, and stays in what is
remembered of them. It is right all the same: what meets an open key lies below it,
so it is on a cycle, and nothing on a cycle holds.

## Main definitions

* `resting`: What it is the least fixed point of.
* `search`: The search that remembers.

## Theorems

* `setOf_holds_eq_lfp`: It is a least fixed point.
* `Holds.frame`, `holds_without`, `holds_with`: What a change of one key changes.
* `search_eq_true_iff`: The search decides it.
-/

namespace Apex.Search

open List Option

variable {κ : Type}

/-- A key that is good and whose children hold: the least such property. -/
inductive Holds (good : κ → Prop) (children : κ → List κ) : κ → Prop where
  | intro (key : κ) (hgood : good key)
      (hchildren : ∀ child ∈ children key, Holds good children child) : Holds good children key

def Child (children : κ → List κ) (key child : κ) : Prop := child ∈ children key

variable {good : κ → Prop} {children : κ → List κ}

theorem Holds.holds_good {key : κ} (h : Holds good children key) : good key := by
  cases h with
  | intro _ hgood _ => exact hgood

theorem Holds.child {key child : κ} (h : Holds good children key)
    (hchild : Child children key child) : Holds good children child := by
  cases h with
  | intro _ _ hchildren => exact hchildren child hchild

theorem Holds.reaches {key below : κ} (h : Holds good children key)
    (hreach : Relation.ReflTransGen (Child children) key below) : Holds good children below := by
  induction hreach with
  | refl => exact h
  | tail _ hchild ih => exact ih.child hchild

/-- What holds is on no cycle: a cycle through it is also one through each child, and
    the children come first. -/
theorem Holds.not_cyclic {key : κ} (h : Holds good children key) :
    ¬ Relation.TransGen (Child children) key key := by
  induction h with
  | intro key _ _ ih =>
    intro hcycle
    rcases Relation.TransGen.head'_iff.mp hcycle with ⟨child, hchild, hback⟩
    exact ih child hchild (Relation.TransGen.tail' hback hchild)

/-- The keys that are good and look at keys of a set only. -/
def resting (good : κ → Prop) (children : κ → List κ) : Set κ →o Set κ where
  toFun keys := { key | good key ∧ ∀ child ∈ children key, child ∈ keys }
  monotone' _ _ hle _ hkey := ⟨hkey.1, fun child hchild => hle (hkey.2 child hchild)⟩

theorem setOf_holds_eq_lfp : { key | Holds good children key } = (resting good children).lfp := by
  apply le_antisymm
  · intro key h
    induction h with
    | intro key hgood _ ih =>
      rw [← OrderHom.map_lfp]
      exact ⟨hgood, ih⟩
  · exact OrderHom.lfp_le _ fun key hkey => Holds.intro key hkey.1 hkey.2

/-- Where only finitely many keys are good, the property holds exactly where all that lies
    below is good and on no cycle. -/
theorem holds_iff {known : List κ} (hknown : ∀ key, good key → key ∈ known) (key : κ) :
    Holds good children key ↔
      ∀ below, Relation.ReflTransGen (Child children) key below →
        good below ∧ ¬ Relation.TransGen (Child children) below below := by
  constructor
  · intro h below hreach
    exact ⟨(h.reaches hreach).holds_good, (h.reaches hreach).not_cyclic⟩
  · intro h
    -- Below the key the relation is finite and without cycles, so it is well-founded.
    let Below := { below : κ // Relation.ReflTransGen (Child children) key below }
    have hfinite : Finite Below := by
      refine Set.Finite.subset (finite_toSet known) ?_
      intro below hreach
      exact hknown below (h below hreach).1
    let under : Below → Below → Prop := fun a b => Relation.TransGen (Child children) b.1 a.1
    have : IsTrans Below under := ⟨fun _ _ _ hab hbc => hbc.trans hab⟩
    have : Std.Irrefl under := ⟨fun a => (h a.1 a.2).2⟩
    have hwf : WellFounded under := Finite.wellFounded_of_trans_of_irrefl under
    have hall : ∀ a : Below, Holds good children a.1 := by
      intro a
      induction a using hwf.induction with
      | _ a ih =>
        refine Holds.intro a.1 (h a.1 a.2).1 fun child hchild => ?_
        exact ih ⟨child, a.2.tail hchild⟩ (Relation.TransGen.single hchild)
    exact hall ⟨key, Relation.ReflTransGen.refl⟩

section Changes

variable {good' : κ → Prop} {children' : κ → List κ}

theorem Holds.frame {changed key : κ} (hgood : ∀ k, good k → k ≠ changed → good' k)
    (hchildren : ∀ k, good k → children' k = children k) (h : Holds good children key)
    (hreach : ¬ Relation.ReflTransGen (Child children) key changed) :
    Holds good' children' key := by
  induction h with
  | intro key hkey _ ih =>
    have hne : key ≠ changed := by
      rintro rfl
      exact hreach Relation.ReflTransGen.refl
    refine Holds.intro key (hgood key hkey hne) fun child hchild => ?_
    rw [hchildren key hkey] at hchild
    exact ih child hchild fun hbelow => hreach (Relation.ReflTransGen.head hchild hbelow)

theorem Holds.restrict {key : κ} (hgood : ∀ k, good' k → good k)
    (hchildren : ∀ k, good' k → children' k = children k) (h : Holds good' children' key) :
    Holds good children key := by
  induction h with
  | intro key hkey _ ih =>
    refine Holds.intro key (hgood key hkey) fun child hchild => ?_
    rw [← hchildren key hkey] at hchild
    exact ih child hchild

theorem holds_congr (hgood : ∀ k, good' k ↔ good k)
    (hchildren : ∀ k, good k → children' k = children k) (key : κ) :
    Holds good' children' key ↔ Holds good children key := by
  constructor
  · exact Holds.restrict (fun k => (hgood k).mp) fun k hk => hchildren k ((hgood k).mp hk)
  · exact Holds.restrict (fun k => (hgood k).mpr) fun k hk => (hchildren k hk).symm

theorem holds_without {lost : κ} (hgood : ∀ k, good' k ↔ good k ∧ k ≠ lost)
    (hchildren : ∀ k, good k → children' k = children k) (key : κ) :
    Holds good' children' key ↔
      Holds good children key ∧ ¬ Relation.ReflTransGen (Child children) key lost := by
  constructor
  · intro h
    have hold : Holds good children key :=
      h.restrict (fun k hk => ((hgood k).mp hk).1) fun k hk => hchildren k ((hgood k).mp hk).1
    refine ⟨hold, fun hreach => ?_⟩
    -- Along the way to the lost key everything is good in both senses, so it is reached in both.
    have hreach' : Relation.ReflTransGen (Child children') key lost := by
      induction hreach using Relation.ReflTransGen.head_induction_on with
      | refl => exact Relation.ReflTransGen.refl
      | head hchild _ ih =>
        have hchild' := hchild
        rw [Child, ← hchildren _ hold.holds_good] at hchild'
        exact Relation.ReflTransGen.head hchild' (ih (h.child hchild') (hold.child hchild))
    exact ((hgood lost).mp (h.reaches hreach').holds_good).2 rfl
  · rintro ⟨h, hreach⟩
    exact h.frame (fun k hk hne => (hgood k).mpr ⟨hk, hne⟩) hchildren hreach

theorem holds_with {gained : κ} (hgood : ∀ k, good' k ↔ good k ∨ k = gained)
    (hgained : ¬ good gained) (hchildren : children' = children)
    (hunused : ∀ k, good k → gained ∉ children k)
    (hrests : ∀ child ∈ children gained, Holds good children child) (key : κ) :
    Holds good' children' key ↔ Holds good children key ∨ key = gained := by
  subst hchildren
  have hmono : ∀ {k}, Holds good children' k → Holds good' children' k :=
    Holds.restrict (fun k hk => (hgood k).mpr (Or.inl hk)) (fun _ _ => rfl)
  constructor
  · intro h
    induction h with
    | intro key hkey _ ih =>
      rcases (hgood key).mp hkey with hkey | rfl
      · refine Or.inl (Holds.intro key hkey fun child hchild => ?_)
        refine (ih child hchild).resolve_right ?_
        rintro rfl
        exact hunused key hkey hchild
      · exact Or.inr rfl
  · rintro (h | rfl)
    · exact hmono h
    · exact Holds.intro key ((hgood key).mpr (Or.inr rfl)) fun child hchild =>
        hmono (hrests child hchild)

end Changes

/-- Test one key after the other, up to the first that fails. -/
def searchAll {σ : Type} (test : σ → κ → Bool × σ) : σ → List κ → Bool × σ
  | memo, [] => (true, memo)
  | memo, key :: keys =>
    let result := test memo key
    if result.1 then searchAll test result.2 keys else result

variable [DecidableEq κ]

/-- The search: every key that is opened is remembered, as a failure until its children
    are done. -/
def search (good : κ → Bool) (children : κ → List κ) :
    Nat → List (κ × Bool) → κ → Bool × List (κ × Bool)
  | 0, memo, key => ((memo.lookup key).getD false, memo)
  | fuel + 1, memo, key =>
    match memo.lookup key with
    | some known => (known, memo)
    | none =>
      if good key then
        let result := searchAll (search good children fuel) ((key, false) :: memo) (children key)
        (result.1, (key, result.1) :: result.2)
      else (false, (key, false) :: memo)

variable {test : κ → Bool}

/-- What is remembered while some keys are open: these as failures, and of all others what
    is the case. -/
structure Remembers (test : κ → Bool) (children : κ → List κ) (opened : List κ)
    (memo : List (κ × Bool)) : Prop where
  pending : ∀ key ∈ opened, memo.lookup key = some false
  closed : ∀ key b, key ∉ opened → memo.lookup key = some b →
    (b = true ↔ Holds (fun k => test k = true) children key)

theorem lookup_cons_self (key : κ) (b : Bool) (memo : List (κ × Bool)) :
    ((key, b) :: memo).lookup key = some b := by
  rw [lookup_cons, beq_self_eq_true]

theorem lookup_cons_ne {key other : κ} (h : other ≠ key) (b : Bool) (memo : List (κ × Bool)) :
    ((key, b) :: memo).lookup other = memo.lookup other := by
  rw [lookup_cons, beq_false_of_ne h]

theorem remembers_nil : Remembers test children [] [] :=
  ⟨fun _ h => absurd h not_mem_nil, fun _ _ _ h => nomatch h⟩

variable {opened : List κ} {memo : List (κ × Bool)} {key : κ}

theorem Remembers.opening (h : Remembers test children opened memo) :
    Remembers test children (key :: opened) ((key, false) :: memo) := by
  constructor
  · intro other hother
    by_cases heq : other = key
    · rw [heq, lookup_cons_self]
    · rw [lookup_cons_ne heq]
      exact h.pending other ((mem_cons.mp hother).resolve_left heq)
  · intro other b hnot hlookup
    have hne : other ≠ key := fun heq => hnot (heq ▸ mem_cons_self)
    rw [lookup_cons_ne hne] at hlookup
    exact h.closed other b (fun hold => hnot (mem_cons_of_mem _ hold)) hlookup

theorem remembers_settled {b : Bool} (hpending : ∀ k ∈ opened, memo.lookup k = some false)
    (hclosed : ∀ k b, k ≠ key → k ∉ opened → memo.lookup k = some b →
      (b = true ↔ Holds (fun k => test k = true) children k))
    (hnew : key ∉ opened) (hb : b = true ↔ Holds (fun k => test k = true) children key) :
    Remembers test children opened ((key, b) :: memo) := by
  constructor
  · intro other hother
    have hne : other ≠ key := fun heq => hnew (heq ▸ hother)
    rw [lookup_cons_ne hne]
    exact hpending other hother
  · intro other b' hnot hlookup
    by_cases heq : other = key
    · rw [heq, lookup_cons_self] at hlookup
      rw [heq, ← some.inj hlookup]
      exact hb
    · rw [lookup_cons_ne heq] at hlookup
      exact hclosed other b' heq hnot hlookup

theorem Remembers.closing {b : Bool} (h : Remembers test children (key :: opened) memo)
    (hnew : key ∉ opened) (hb : b = true ↔ Holds (fun k => test k = true) children key) :
    Remembers test children opened ((key, b) :: memo) :=
  remembers_settled (fun k hk => h.pending k (mem_cons_of_mem _ hk))
    (fun k b hne hnot => h.closed k b fun hold => (mem_cons.mp hold).elim hne hnot) hnew hb

theorem Remembers.refused (h : Remembers test children opened memo) (hnew : key ∉ opened)
    (hkey : ¬ Holds (fun k => test k = true) children key) :
    Remembers test children opened ((key, false) :: memo) :=
  remembers_settled h.pending (fun k b _ => h.closed k b) hnew
    ⟨fun hfalse => (nomatch hfalse), fun hholds => absurd hholds hkey⟩

/-- A test of a key tells what is the case and leaves what is remembered right. -/
def Decides (test : κ → Bool) (children : κ → List κ) (opened : List κ)
    (result : Bool × List (κ × Bool)) (key : κ) : Prop :=
  (result.1 = true ↔ Holds (fun k => test k = true) children key) ∧
    Remembers test children opened result.2

theorem searchAll_decides {visit : List (κ × Bool) → κ → Bool × List (κ × Bool)} :
    ∀ (keys : List κ) (memo : List (κ × Bool)), Remembers test children opened memo →
      (∀ key ∈ keys, ∀ memo, Remembers test children opened memo →
        Decides test children opened (visit memo key) key) →
      ((searchAll visit memo keys).1 = true ↔
          ∀ key ∈ keys, Holds (fun k => test k = true) children key) ∧
        Remembers test children opened (searchAll visit memo keys).2
  | [], memo, hmemo, _ => ⟨by simp [searchAll], hmemo⟩
  | key :: keys, memo, hmemo, hvisit => by
    have hfirst := hvisit key mem_cons_self memo hmemo
    rw [searchAll]
    by_cases htrue : (visit memo key).1 = true
    · have hrest := searchAll_decides keys (visit memo key).2 hfirst.2
        fun k hk => hvisit k (mem_cons_of_mem _ hk)
      rw [if_pos htrue, forall_mem_cons]
      exact ⟨hrest.1.trans ⟨fun h => ⟨hfirst.1.mp htrue, h⟩, And.right⟩, hrest.2⟩
    · rw [if_neg htrue, forall_mem_cons]
      exact ⟨⟨fun h => absurd h htrue, fun h => absurd (hfirst.1.mpr h.1) htrue⟩, hfirst.2⟩

/-- The search decides the property of every key, whatever is open above it: an open key
    is met again only from below, and then it is on a cycle. The open keys are good and
    different, so there are not more of them than good keys. -/
theorem search_decides {known : List κ} (hknown : ∀ key, test key = true → key ∈ known) :
    ∀ (fuel : Nat) (opened : List κ) (memo : List (κ × Bool)) (key : κ),
      opened.Nodup → (∀ k ∈ opened, test k = true) → known.length < opened.length + fuel →
      (∀ k ∈ opened, Relation.TransGen (Child children) k key) →
      Remembers test children opened memo →
      Decides test children opened (search test children fuel memo key) key
  | 0, opened, _, _, hnodup, hgood, hfuel, _, _ => by
    have hle : opened.length ≤ known.length :=
      (hnodup.subperm fun k hk => hknown k (hgood k hk)).length_le
    omega
  | fuel + 1, opened, memo, key, hnodup, hgood, hfuel, habove, hmemo => by
    rw [search]
    cases hlookup : memo.lookup key with
    | some b =>
      refine ⟨?_, hmemo⟩
      by_cases hopen : key ∈ opened
      · have hb : b = false := some.inj (hlookup.symm.trans (hmemo.pending key hopen))
        rw [hb]
        exact ⟨fun h => (nomatch h), fun h => absurd (habove key hopen) h.not_cyclic⟩
      · exact hmemo.closed key b hopen hlookup
    | none =>
      have hnew : key ∉ opened := fun hopen => by
        rw [hmemo.pending key hopen] at hlookup
        exact nomatch hlookup
      by_cases htest : test key = true
      · have hall := @searchAll_decides _ _ _ _ _ (search test children fuel) (children key)
          ((key, false) :: memo) hmemo.opening fun child hchild memo' hmemo' =>
            search_decides hknown fuel (key :: opened) memo' child (nodup_cons.mpr ⟨hnew, hnodup⟩)
              (forall_mem_cons.mpr ⟨htest, hgood⟩)
              (by rw [length_cons]; omega)
              (forall_mem_cons.mpr ⟨Relation.TransGen.single hchild,
                fun k hk => (habove k hk).tail hchild⟩) hmemo'
        have hkey : (searchAll (search test children fuel) ((key, false) :: memo)
            (children key)).1 = true ↔ Holds (fun k => test k = true) children key :=
          hall.1.trans ⟨fun h => Holds.intro key htest h, fun h child => h.child⟩
        simp only [if_pos htest]
        exact ⟨hkey, hall.2.closing hnew hkey⟩
      · have hkey : ¬ Holds (fun k => test k = true) children key :=
          fun h => htest h.holds_good
        simp only [if_neg htest]
        exact ⟨⟨fun h => (nomatch h), fun h => absurd h hkey⟩, hmemo.refused hnew hkey⟩

theorem search_eq_true_iff {known : List κ} (hknown : ∀ key, test key = true → key ∈ known)
    (key : κ) :
    (search test children (known.length + 1) [] key).1 = true ↔
      Holds (fun k => test k = true) children key :=
  (search_decides hknown (known.length + 1) [] [] key nodup_nil
    (fun _ h => absurd h not_mem_nil) (by rw [length_nil]; omega)
    (fun _ h => absurd h not_mem_nil) remembers_nil).1

end Apex.Search
