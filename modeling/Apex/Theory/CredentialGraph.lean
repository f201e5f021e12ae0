import Apex.Domain.CredentialGraph

/-!
# The Credential Scanner Is Exact

The scanner's turns are those of a traversal: the entries pending are what the frames of the
stack have still to yield, and an entry is a reference together with the key it is under,
where the key has not been judged yet. A turn that yields an item judges its key and leaves
the entry without it, and a turn that pops a value takes its entry away, or turns the object
it refers to into its entries.

`Passes` says what must hold of what is pending, and of everything ahead of it, for the scan to
go through. A turn keeps it, or answers as it says, so the answer is what `Passes` says of the
first state; and there it is `Clean`. Every turn also takes one from what `work` counts, so
the scan comes to its answer.

## Main definitions

* `Entry`, `webOf`: A heap as a web.
* `Passes`: What is ahead passes, within what is left of the budgets.

## Theorems

* `passes_key`, `passes_skip`, `passes_enter`: What the entry at hand takes from the rest.
* `scanTurn_agrees`: What a turn does.
* `scanFor_sound`, `scanFor_ends`: The loop comes to its answer.
* `passes_start`: What the answer says.
* `clean_part`, `clean_deleted`: What is clean after a value is.
* `scan_exact`: The scanner is exact.
-/

namespace Apex.Domain

open List Option Function

section

variable {ρ : Type}

/-- A reference that is pending, with its key where that has not been judged. -/
abbrev Entry (ρ : Type) : Type := Option GraphKey × GraphValue ρ

def Frame.entries : Frame ρ → List (Entry ρ)
  | .value current => [(none, current)]
  | .sequence rest => rest.map fun nested => (none, nested)
  | .mapping rest => rest.map fun item => (some item.1, item.2)

def GraphValue.target : GraphValue ρ → Option ρ
  | .object r => some r
  | _ => none

variable (rules : CredentialRules) (heap : ρ → GraphObject ρ) (lim : ScanLimits)

def webOf : Web ρ (Entry ρ) where
  held r := (heap r).iter.entries
  target e := e.2.target

def Entry.chars (e : Entry ρ) : Nat :=
  (e.1.map GraphKey.chars).getD 0 + e.2.chars

def GraphKey.Ok (key : GraphKey) : Prop :=
  ∃ name, key = .text name ∧ keyOk rules lim.maxKeyChars name = true

def GraphValue.Ok (value : GraphValue ρ) : Prop :=
  ∀ text, value = .text text → textOk rules lim.maxStringChars text = true

def Entry.Ok (rules : CredentialRules) (lim : ScanLimits) (e : Entry ρ) : Prop :=
  (∀ key, e.1 = some key → key.Ok rules lim) ∧ e.2.Ok rules lim

def pendingIn (stack : List (Frame ρ)) : List (Entry ρ) :=
  stack.flatMap Frame.entries

structure Passes [Fintype ρ] (rules : CredentialRules) (lim : ScanLimits)
    (heap : ρ → GraphObject ρ) (pending : List (Entry ρ)) (seen : Finset ρ)
    (counters : ScanState) : Prop where
  ok : (webOf heap).Meets (Entry.Ok rules lim) pending seen
  nodes : counters.nodes + (webOf heap).total (fun _ => 1) pending seen ≤ lim.maxNodes
  chars : counters.totalChars + (webOf heap).total Entry.chars pending seen ≤ lim.maxTotalChars

def Within (counters : ScanState) : Prop :=
  counters.nodes ≤ lim.maxNodes ∧ counters.totalChars ≤ lim.maxTotalChars

def Frame.turns : Frame ρ → Nat
  | .value _ => 1
  | .sequence rest => 2 * rest.length + 1
  | .mapping rest => 2 * rest.length + 1

noncomputable def work [Fintype ρ] (stack : List (Frame ρ)) (seen : Finset ρ) : Nat :=
  (stack.map Frame.turns).sum +
    (webOf heap).left (fun r => 2 * (heap r).members.length + 1) (pendingIn stack) seen

/-- What a turn is to do: it answers as it should, or leads to a scanner that is to answer the
    same and has one turn less ahead of it. -/
def Agrees [Fintype ρ] (heap : ρ → GraphObject ρ) (s : GraphScan ρ) : Bool ⊕ GraphScan ρ → Prop
  | .inl answer => answer = false ↔ Passes rules lim heap (pendingIn s.stack) s.seen s.counters
  | .inr s' => Within lim s'.counters ∧
      (Passes rules lim heap (pendingIn s'.stack) s'.seen s'.counters ↔
        Passes rules lim heap (pendingIn s.stack) s.seen s.counters) ∧
      work heap s'.stack s'.seen + 1 = work heap s.stack s.seen

variable {rules : CredentialRules} {lim : ScanLimits} {value : GraphValue ρ}

theorem target_eq_some {t : ρ} : value.target = some t ↔ value = .object t := by
  cases value with
  | scalar => simp only [GraphValue.target, reduceCtorEq]
  | text s => simp only [GraphValue.target, reduceCtorEq]
  | object u => simp only [GraphValue.target, some.injEq, GraphValue.object.injEq]

variable {object : GraphObject ρ}

theorem mem_members_iff :
    value ∈ object.members ↔ ∃ key, (key, value) ∈ object.iter.entries := by
  cases object with
  | sequence members =>
    simp only [GraphObject.members, GraphObject.iter, Frame.entries, List.mem_map, Prod.mk.injEq]
    exact ⟨fun h => ⟨none, value, h, rfl, rfl⟩, fun ⟨_, _, h, _, heq⟩ => heq ▸ h⟩
  | mapping items =>
    simp only [GraphObject.members, GraphObject.iter, Frame.entries, List.mem_map, Prod.mk.injEq]
    exact ⟨fun ⟨item, h, heq⟩ => ⟨some item.1, item, h, rfl, heq⟩,
      fun ⟨_, item, h, _, heq⟩ => ⟨item, h, heq⟩⟩

theorem entries_ok_iff :
    (∀ e ∈ object.iter.entries, Entry.Ok rules lim e) ↔
      (∀ key ∈ object.keys, key.Ok rules lim) ∧ ∀ nested ∈ object.members, nested.Ok rules lim := by
  cases object with
  | sequence members =>
    simp only [GraphObject.members, GraphObject.keys, GraphObject.iter, Frame.entries,
      List.forall_mem_map, Entry.Ok, reduceCtorEq, false_implies, implies_true, true_and,
      not_mem_nil]
  | mapping items =>
    simp only [GraphObject.members, GraphObject.keys, GraphObject.iter, Frame.entries,
      List.forall_mem_map, Entry.Ok, some.injEq, forall_eq', forall_and]

theorem sum_entries_one (object : GraphObject ρ) :
    (object.iter.entries.map fun _ => 1).sum = object.members.length := by
  cases object with
  | sequence members =>
    simp only [GraphObject.iter, Frame.entries, GraphObject.members, List.map_map,
      comp_def, map_const', sum_replicate_nat, Nat.mul_one]
  | mapping items =>
    simp only [GraphObject.iter, Frame.entries, GraphObject.members, List.map_map,
      comp_def, map_const', sum_replicate_nat, Nat.mul_one,
      List.length_map]

theorem sum_entries_chars (object : GraphObject ρ) :
    (object.iter.entries.map Entry.chars).sum = object.chars := by
  cases object with
  | sequence members =>
    simp only [GraphObject.iter, Frame.entries, GraphObject.chars, GraphObject.members,
      GraphObject.keys, List.map_map, comp_def, Entry.chars, map_none,
      getD_none, Nat.zero_add, map_nil, sum_nil]
  | mapping items =>
    simp only [GraphObject.iter, Frame.entries, GraphObject.chars, GraphObject.members,
      GraphObject.keys, List.map_map, comp_def, Entry.chars, map_some,
      getD_some, sum_map_add]

theorem ahead_start_iff {r : ρ} :
    (webOf heap).Ahead [(none, value)] ∅ r ↔ Part heap value (.object r) := by
  constructor
  · intro h
    induction h with
    | here hmem ht _ =>
      rw [mem_singleton.mp hmem] at ht
      rw [← target_eq_some.mp ht]
      exact .self
    | @there e _ _ _ hmem ht _ ih =>
      exact .member ih (mem_members_iff.mpr ⟨e.1, target_eq_some.mp ht ▸ hmem⟩)
  · intro h
    generalize hv : GraphValue.object r = v at h
    induction h generalizing r with
    | self => exact .here mem_cons_self (target_eq_some.mpr hv.symm) (Finset.notMem_empty r)
    | member _ hmem ih =>
      rcases mem_members_iff.mp hmem with ⟨key, hkey⟩
      exact .there (ih rfl) hkey (target_eq_some.mpr hv.symm) (Finset.notMem_empty r)

@[simp] theorem turns_iter (object : GraphObject ρ) :
    object.iter.turns = 2 * object.members.length + 1 := by
  cases object with
  | sequence members => rfl
  | mapping items => rw [GraphObject.iter, Frame.turns, GraphObject.members, List.length_map]

end

section

variable {ρ : Type} [Fintype ρ] {rules : CredentialRules} {lim : ScanLimits}
  {heap : ρ → GraphObject ρ} {pending : List (Entry ρ)} {stack : List (Frame ρ)}
  {seen : Finset ρ} {c : ScanState} {value : GraphValue ρ} {key : GraphKey} {r : ρ}

theorem not_passes_of_full {e : Entry ρ} (hfull : lim.maxNodes ≤ c.nodes) :
    ¬ Passes rules lim heap (e :: pending) seen c := by
  intro h
  have hone : 1 ≤ (webOf heap).total (fun _ => 1) (e :: pending) seen :=
    Web.cost_le_total (fun _ => 1) (Or.inl mem_cons_self)
  have hnodes := h.nodes
  omega

theorem passes_key : Passes rules lim heap ((some key, value) :: pending) seen c ↔
    key.Ok rules lim ∧ Passes rules lim heap ((none, value) :: pending) seen
      ⟨c.nodes, c.totalChars + key.chars⟩ := by
  have ht : (webOf heap).target (some key, value) = (webOf heap).target (none, value) := rfl
  have hok : ∀ k : Option GraphKey, Entry.Ok rules lim (k, value) ↔
      (∀ name, k = some name → name.Ok rules lim) ∧ value.Ok rules lim := fun _ => Iff.rfl
  have hmeets := Web.meets_swap (Entry.Ok rules lim) pending seen ht
    (fun h => (hok none).mpr ⟨by simp, h.2⟩)
  have hnodes := Web.total_swap (fun _ => 1) pending seen ht
  have hchars := Web.total_swap Entry.chars pending seen ht
  have hcost : Entry.chars (some key, value) = key.chars + Entry.chars (none, value) := by
    simp only [Entry.chars, map_some, getD_some, map_none, getD_none, Nat.zero_add]
  constructor
  · rintro ⟨h1, h2, h3⟩
    have hboth := hmeets.mp h1
    refine ⟨hboth.1.1 key rfl, hboth.2, ?_, ?_⟩
    · simp only at hnodes ⊢
      omega
    · simp only
      omega
  · rintro ⟨hkey, h1, h2, h3⟩
    simp only at h2 h3
    refine ⟨hmeets.mpr ⟨(hok _).mpr ⟨?_, (h1.1 _ mem_cons_self).2⟩, h1⟩, ?_, ?_⟩
    · rintro name h
      rw [← some.inj h]
      exact hkey
    · omega
    · omega

theorem passes_skip (h : ∀ r, value.target = some r → r ∈ seen) :
    Passes rules lim heap ((none, value) :: pending) seen c ↔
      value.Ok rules lim ∧
        Passes rules lim heap pending seen ⟨c.nodes + 1, c.totalChars + value.chars⟩ := by
  have ht : ∀ r, (webOf heap).target (none, value) = some r → r ∈ seen := h
  have hmeets := Web.meets_skip (Entry.Ok rules lim) pending ht
  have hnodes := Web.total_skip (fun _ => 1) pending ht
  have hchars := Web.total_skip Entry.chars pending ht
  have hcost : Entry.chars (none, value) = value.chars := Nat.zero_add _
  constructor
  · rintro ⟨h1, h2, h3⟩
    have hboth := hmeets.mp h1
    refine ⟨hboth.1.2, hboth.2, ?_, ?_⟩
    · simp only
      omega
    · simp only
      omega
  · rintro ⟨hvalue, h1, h2, h3⟩
    simp only at h2 h3
    exact ⟨hmeets.mpr ⟨⟨by simp, hvalue⟩, h1⟩, by omega, by omega⟩

theorem passes_enter [DecidableEq ρ] (hr : r ∉ seen) :
    Passes rules lim heap ((none, .object r) :: pending) seen c ↔
      Passes rules lim heap ((heap r).iter.entries ++ pending) (insert r seen)
        ⟨c.nodes + 1, c.totalChars⟩ := by
  have ht : (webOf heap).target (none, .object r) = some r := rfl
  have hmeets := Web.meets_enter (Entry.Ok rules lim) pending ht hr
  have hnodes := Web.total_enter (fun _ => 1) pending ht hr
  have hchars := Web.total_enter Entry.chars pending ht hr
  have hcost : Entry.chars (none, GraphValue.object r) = 0 := rfl
  have hok : Entry.Ok rules lim (none, GraphValue.object r) := ⟨by simp, fun _ h => by cases h⟩
  constructor
  · rintro ⟨h1, h2, h3⟩
    refine ⟨(hmeets.mp h1).2, ?_, ?_⟩
    · simp only [webOf] at hnodes h2 ⊢
      omega
    · simp only [webOf] at hchars h3 ⊢
      omega
  · rintro ⟨h1, h2, h3⟩
    refine ⟨hmeets.mpr ⟨hok, h1⟩, ?_, ?_⟩
    · simp only [webOf] at hnodes h2 ⊢
      omega
    · simp only [webOf] at hchars h3 ⊢
      omega

theorem work_skip (h : ∀ r, value.target = some r → r ∈ seen) :
    work heap stack seen + 1 = work heap (.value value :: stack) seen := by
  have hleft : (webOf heap).left (fun r => 2 * (heap r).members.length + 1)
      ((none, value) :: pendingIn stack) seen = _ :=
    Web.left_congr fun t => Web.ahead_skip h
  rw [work, work, map_cons, sum_cons, Frame.turns,
    show pendingIn (.value value :: stack) = (none, value) :: pendingIn stack from rfl, hleft]
  omega

theorem work_enter [DecidableEq ρ] (hr : r ∉ seen) :
    work heap ((heap r).iter :: stack) (insert r seen) + 1 =
      work heap (.value (.object r) :: stack) seen := by
  have hleft : (webOf heap).left (fun r => 2 * (heap r).members.length + 1)
      ((none, .object r) :: pendingIn stack) seen = _ := Web.left_enter rfl hr
  rw [work, work, map_cons, sum_cons, map_cons, sum_cons, Frame.turns,
    show pendingIn (.value (.object r) :: stack) = (none, .object r) :: pendingIn stack from rfl,
    hleft, turns_iter,
    show pendingIn ((heap r).iter :: stack) = (webOf heap).held r ++ pendingIn stack from rfl]
  omega

variable {s s' : ScanState} {turns : Nat}

theorem safeText_eq_some {text : String} :
    safeText rules lim text s = some s' ↔
      (textOk rules lim.maxStringChars text = true ∧
        s.totalChars + text.length ≤ lim.maxTotalChars) ∧
      s' = { s with totalChars := s.totalChars + text.length } :=
  textStep rules lim

theorem safeGraphKey_eq_some :
    safeGraphKey rules lim key s = some s' ↔
      (key.Ok rules lim ∧ s.totalChars + key.chars ≤ lim.maxTotalChars) ∧
      s' = { s with totalChars := s.totalChars + key.chars } := by
  cases key with
  | text name =>
    rw [safeGraphKey, safeKey_eq_some, GraphKey.Ok]
    simp only [GraphKey.text.injEq, exists_eq_left', GraphKey.chars]
  | other => simp only [safeGraphKey, GraphKey.Ok, reduceCtorEq, false_and, exists_false]

theorem scanCurrent_agrees [DecidableEq ρ] (hw : Within lim c) :
    Agrees rules lim heap ⟨.value value :: stack, seen, c⟩
      (scanCurrent rules lim heap value stack seen c) := by
  have hp : pendingIn (.value value :: stack) = (none, value) :: pendingIn stack := rfl
  dsimp only [scanCurrent]
  by_cases hfull : lim.maxNodes < c.nodes + 1
  · rw [if_pos hfull, Agrees]
    simp only [Bool.true_eq_false, false_iff, hp]
    exact not_passes_of_full (by omega)
  · rw [if_neg hfull]
    have hroom : c.nodes + 1 ≤ lim.maxNodes := by omega
    cases value with
    | scalar =>
      have hnew : ∀ r, (GraphValue.scalar : GraphValue ρ).target = some r → r ∈ seen :=
        fun r h => by cases h
      refine ⟨⟨hroom, hw.2⟩, ?_, work_skip hnew⟩
      rw [hp, passes_skip hnew, GraphValue.Ok]
      simp only [reduceCtorEq, false_implies, implies_true, true_and, GraphValue.chars,
        Nat.add_zero]
    | text s =>
      have hnew : ∀ r, (GraphValue.text s : GraphValue ρ).target = some r → r ∈ seen :=
        fun r h => by cases h
      have hok : (GraphValue.text s : GraphValue ρ).Ok rules lim ↔
          textOk rules lim.maxStringChars s = true := by
        simp only [GraphValue.Ok, GraphValue.text.injEq, forall_eq']
      cases ht : safeText rules lim s { c with nodes := c.nodes + 1 } with
      | none =>
        simp only [ht, Agrees, Bool.true_eq_false, false_iff, hp]
        rw [passes_skip hnew, hok]
        rintro ⟨htext, hrest⟩
        have hchars := hrest.chars
        simp only [GraphValue.chars] at hchars
        have hsome := (safeText_eq_some (s := { c with nodes := c.nodes + 1 })).mpr
          ⟨⟨htext, Nat.le_trans (Nat.le_add_right _ _) hchars⟩, rfl⟩
        exact some_ne_none _ (hsome.symm.trans ht)
      | some counters =>
        simp only [ht]
        rcases safeText_eq_some.mp ht with ⟨⟨htext, hchars⟩, rfl⟩
        refine ⟨⟨hroom, hchars⟩, ?_, work_skip hnew⟩
        rw [hp, passes_skip hnew, hok]
        simp only [htext, true_and, GraphValue.chars]
    | object r =>
      by_cases hr : r ∈ seen
      · have hnew : ∀ t, (GraphValue.object r).target = some t → t ∈ seen :=
          fun t h => some.inj h ▸ hr
        simp only [if_pos hr]
        refine ⟨⟨hroom, hw.2⟩, ?_, work_skip hnew⟩
        rw [hp, passes_skip hnew, GraphValue.Ok]
        simp only [reduceCtorEq, false_implies, implies_true, true_and, GraphValue.chars,
          Nat.add_zero]
      · simp only [if_neg hr]
        refine ⟨⟨hroom, hw.2⟩, ?_, work_enter hr⟩
        rw [hp, passes_enter hr]
        rfl

theorem scanTurn_agrees [DecidableEq ρ] {s : GraphScan ρ} (hw : Within lim s.counters) :
    Agrees rules lim heap s (scanTurn rules lim heap s) := by
  rcases s with ⟨stack, seen, c⟩
  cases stack with
  | nil =>
    simp only [scanTurn, Agrees, true_iff]
    refine ⟨Web.meets_nil, ?_, ?_⟩
    · rw [pendingIn, flatMap_nil, Web.total_nil]
      exact hw.1
    · rw [pendingIn, flatMap_nil, Web.total_nil]
      exact hw.2
  | cons frame stack =>
    cases frame with
    | value current => exact scanCurrent_agrees hw
    | sequence rest =>
      cases rest with
      | nil =>
        refine ⟨hw, Iff.rfl, ?_⟩
        simp only [work, map_cons, sum_cons, Frame.turns, length_nil]
        have hp : pendingIn (.sequence [] :: stack) = pendingIn stack := rfl
        rw [hp]
        omega
      | cons child rest =>
        have hp : pendingIn (.sequence (child :: rest) :: stack) =
            (none, child) :: pendingIn (.sequence rest :: stack) := rfl
        by_cases hfull : lim.maxNodes ≤ c.nodes
        · simp only [scanTurn, if_pos hfull, Agrees, Bool.true_eq_false, false_iff, hp]
          exact not_passes_of_full hfull
        · simp only [scanTurn, if_neg hfull]
          refine ⟨hw, Iff.rfl, ?_⟩
          have hsame : pendingIn (.value child :: .sequence rest :: stack) =
            (none, child) :: pendingIn (.sequence rest :: stack) := rfl
          simp only [work, map_cons, sum_cons, Frame.turns, length_cons, hp, hsame]
          omega
    | mapping rest =>
      cases rest with
      | nil =>
        refine ⟨hw, Iff.rfl, ?_⟩
        simp only [work, map_cons, sum_cons, Frame.turns, length_nil]
        have hp : pendingIn (.mapping [] :: stack) = pendingIn stack := rfl
        rw [hp]
        omega
      | cons item rest =>
        rcases item with ⟨rawKey, nested⟩
        have hp : pendingIn (.mapping ((rawKey, nested) :: rest) :: stack) =
            (some rawKey, nested) :: pendingIn (.mapping rest :: stack) := rfl
        have hnext : pendingIn (.value nested :: .mapping rest :: stack) =
            (none, nested) :: pendingIn (.mapping rest :: stack) := rfl
        by_cases hfull : lim.maxNodes ≤ c.nodes
        · simp only [scanTurn, if_pos hfull, Agrees, Bool.true_eq_false, false_iff, hp]
          exact not_passes_of_full hfull
        · simp only [scanTurn, if_neg hfull]
          cases hk : safeGraphKey rules lim rawKey c with
          | none =>
            simp only [Agrees, Bool.true_eq_false, false_iff, hp]
            rw [passes_key]
            rintro ⟨hkey, hrest⟩
            have hsome := safeGraphKey_eq_some.mpr
              ⟨⟨hkey, Nat.le_trans (Nat.le_add_right _ _) hrest.chars⟩, rfl⟩
            exact some_ne_none _ (hsome.symm.trans hk)
          | some counters =>
            rcases safeGraphKey_eq_some.mp hk with ⟨⟨hkey, hchars⟩, rfl⟩
            refine ⟨⟨hw.1, hchars⟩, ?_, ?_⟩
            · rw [hp, passes_key, hnext]
              simp only [hkey, true_and]
            · have hswap : (webOf heap).target (some rawKey, nested) =
                  (webOf heap).target (none, nested) := rfl
              have hleft : (webOf heap).left (fun r => 2 * (heap r).members.length + 1)
                  ((some rawKey, nested) :: pendingIn (.mapping rest :: stack)) seen = _ :=
                Web.left_congr fun t => Web.ahead_swap hswap
              simp only [work, map_cons, sum_cons, Frame.turns, length_cons, hp, hnext, hleft]
              omega

theorem scanFor_sound [DecidableEq ρ] : ∀ (turns : Nat) (s : GraphScan ρ) (answer : Bool),
    Within lim s.counters → scanFor rules lim heap turns s = some answer →
    (answer = false ↔ Passes rules lim heap (pendingIn s.stack) s.seen s.counters)
  | 0, _, _, _, h => absurd h (by simp only [scanFor, reduceCtorEq, not_false_eq_true])
  | turns + 1, s, answer, hw, h => by
    have hagrees : Agrees rules lim heap s _ := scanTurn_agrees hw
    rw [scanFor] at h
    cases hturn : scanTurn rules lim heap s with
    | inl found =>
      rw [hturn] at h hagrees
      rw [← some.inj h]
      exact hagrees
    | inr s' =>
      rw [hturn] at h hagrees
      exact (scanFor_sound turns s' answer hagrees.1 h).trans hagrees.2.1

theorem scanFor_ends [DecidableEq ρ] : ∀ (turns : Nat) (s : GraphScan ρ), Within lim s.counters →
    work heap s.stack s.seen < turns → ∃ answer, scanFor rules lim heap turns s = some answer
  | 0, _, _, h => absurd h (Nat.not_lt_zero _)
  | turns + 1, s, hw, h => by
    have hagrees : Agrees rules lim heap s _ := scanTurn_agrees hw
    rw [scanFor]
    cases hturn : scanTurn rules lim heap s with
    | inl answer => exact ⟨answer, rfl⟩
    | inr s' =>
      rw [hturn] at hagrees
      have hwork := hagrees.2.2
      exact scanFor_ends turns s' hagrees.1 (by omega)

theorem left_start (f : ρ → Nat) [DecidablePred fun r => Part heap value (.object r)] :
    (webOf heap).left f [(none, value)] ∅ = ∑ r with Part heap value (.object r), f r := by
  rw [Web.left]
  refine Finset.sum_congr (Finset.ext fun t => ?_) fun _ _ => rfl
  simp only [Finset.mem_filter, Finset.mem_univ, true_and, ahead_start_iff]

theorem passes_start :
    Passes rules lim heap [(none, value)] ∅ ⟨0, 0⟩ ↔ Clean rules lim heap value := by
  classical
  have hnodes : (webOf heap).total (fun _ => 1) [(none, value)] ∅ =
      visitedReferences heap value := by
    rw [Web.total, left_start, visitedReferences]
    simp only [webOf, sum_entries_one]
    rfl
  have hchars : (webOf heap).total Entry.chars [(none, value)] ∅ = visitedChars heap value := by
    rw [Web.total, left_start, visitedChars]
    simp only [webOf, sum_entries_chars]
    simp only [map_singleton, sum_singleton, Entry.chars, map_none, getD_none, Nat.zero_add]
  have hmeets : (webOf heap).Meets (Entry.Ok rules lim) [(none, value)] ∅ ↔
      value.Ok rules lim ∧ ∀ r, Part heap value (.object r) →
        (∀ key ∈ (heap r).keys, key.Ok rules lim) ∧
        ∀ nested ∈ (heap r).members, nested.Ok rules lim := by
    simp only [Web.Meets, forall_mem_singleton, ahead_start_iff]
    simp only [webOf, entries_ok_iff]
    simp only [Entry.Ok, reduceCtorEq, false_implies, implies_true, true_and]
  constructor
  · rintro ⟨h1, h2, h3⟩
    rw [hnodes, Nat.zero_add] at h2
    rw [hchars, Nat.zero_add] at h3
    have hall := hmeets.mp h1
    refine ⟨fun text htext => ?_, fun r hr => (hall.2 r hr).1, h2, h3⟩
    generalize hv : GraphValue.text text = v at htext
    cases htext with
    | self => exact hall.1 text hv.symm
    | member hr hmem => exact (hall.2 _ hr).2 _ hmem text hv.symm
  · rintro ⟨h1, h2, h3, h4⟩
    refine ⟨hmeets.mpr ⟨fun text h => h1 text (h ▸ .self), fun r hr => ⟨h2 r hr, ?_⟩⟩, ?_, ?_⟩
    · exact fun nested hmem text h => h1 text (h ▸ .member hr hmem)
    · rw [hnodes, Nat.zero_add]
      exact h3
    · rw [hchars, Nat.zero_add]
      exact h4

theorem scan_sound [DecidableEq ρ] {answer : Bool}
    (h : containsCredentialMaterialIn rules lim heap turns value = some answer) :
    answer = false ↔ Clean rules lim heap value :=
  (scanFor_sound turns _ answer ⟨Nat.zero_le _, Nat.zero_le _⟩ h).trans passes_start

theorem scan_ends [DecidableEq ρ] (h : enoughTurns heap ≤ turns) :
    ∃ answer, containsCredentialMaterialIn rules lim heap turns value = some answer := by
  classical
  refine scanFor_ends turns _ ⟨Nat.zero_le _, Nat.zero_le _⟩ (Nat.lt_of_lt_of_le ?_ h)
  have hleft : (webOf heap).left (fun r => 2 * (heap r).members.length + 1)
      [(none, value)] ∅ ≤ ∑ r, (2 * (heap r).members.length + 1) :=
    Finset.sum_le_sum_of_subset (Finset.filter_subset _ _)
  have hwork : work heap [.value value] ∅ = 1 + _ := rfl
  rw [hwork, enoughTurns]
  exact Nat.lt_of_le_of_lt (Nat.add_le_add_left hleft 1) (by omega)

theorem scan_clean [DecidableEq ρ] (hclean : Clean rules lim heap value)
    (h : enoughTurns heap ≤ turns) :
    containsCredentialMaterialIn rules lim heap turns value = some false := by
  obtain ⟨answer, hanswer⟩ : ∃ answer,
      containsCredentialMaterialIn rules lim heap turns value = some answer := scan_ends h
  rw [hanswer, (scan_sound hanswer).mpr hclean]

end

section

variable {ρ : Type} {rules : CredentialRules} {lim : ScanLimits} {heap fewer : ρ → GraphObject ρ}
  {value part nested : GraphValue ρ}

theorem part_trans (hpart : Part heap value part) (h : Part heap part nested) :
    Part heap value nested := by
  induction h with
  | self => exact hpart
  | member _ hmem ih => exact .member ih hmem

theorem part_of_target_none (hnone : value.target = none) (h : Part heap value nested) :
    nested = value := by
  induction h with
  | self => rfl
  | member _ _ ih =>
    rw [← ih, GraphValue.target] at hnone
    cases hnone

variable {lesser object : GraphObject ρ}

theorem deleted_members (h : Deleted lesser object) :
    lesser.members.Sublist object.members := by
  cases h with
  | sequence h => exact h
  | mapping h => exact h.map _

theorem deleted_keys (h : Deleted lesser object) :
    lesser.keys.Sublist object.keys := by
  cases h with
  | sequence h => exact Sublist.refl _
  | mapping h => exact h.map _

theorem deleted_chars (h : Deleted lesser object) :
    lesser.chars ≤ object.chars :=
  Nat.add_le_add (((deleted_keys h).map _).sum_le_sum fun _ _ => Nat.zero_le _)
    (((deleted_members h).map _).sum_le_sum fun _ _ => Nat.zero_le _)

theorem part_of_deleted (h : ∀ r, Deleted (fewer r) (heap r)) (hpart : Part fewer value part) :
    Part heap value part := by
  induction hpart with
  | self => exact .self
  | member _ hmem ih => exact .member ih ((deleted_members (h _)).subset hmem)

variable [Fintype ρ]

open scoped Classical in
theorem objects_le {f g : ρ → Nat} (hf : ∀ r, f r ≤ g r)
    (h : ∀ r, Part fewer part (.object r) → Part heap value (.object r)) :
    (∑ r with Part fewer part (.object r), f r) ≤ ∑ r with Part heap value (.object r), g r := by
  refine Nat.le_trans (Finset.sum_le_sum fun r _ => hf r) ?_
  refine Finset.sum_le_sum_of_subset fun r hr => ?_
  simp only [Finset.mem_filter, Finset.mem_univ, true_and] at hr ⊢
  exact h r hr

theorem visitedChars_part (hpart : Part heap value part) :
    visitedChars heap part ≤ visitedChars heap value := by
  classical
  have hle := objects_le (f := fun r => (heap r).chars) (fun _ => Nat.le_refl _)
    fun r (h : Part heap part (.object r)) => part_trans hpart h
  cases ht : part.target with
  | some r =>
    rw [target_eq_some.mp ht] at hle ⊢
    have hzero : (GraphValue.object r).chars = 0 := rfl
    rw [visitedChars, visitedChars, hzero, Nat.zero_add]
    exact Nat.le_trans hle (Nat.le_add_left _ _)
  | none =>
    -- No object is reachable in the part, so it accounts for its own text only.
    have hnone : ∀ r, ¬ Part heap part (.object r) := by
      intro r h
      rw [← part_of_target_none ht h, GraphValue.target] at ht
      cases ht
    have hsection : visitedChars heap part = part.chars := by
      simp only [visitedChars, hnone, Finset.filter_false, Finset.sum_empty, Nat.add_zero]
    rw [hsection, visitedChars]
    cases hpart with
    | self => exact Nat.le_add_right _ _
    | @member r _ hr hmem =>
      have hobject : part.chars ≤ (heap r).chars :=
        Nat.le_trans (single_le_sum (fun _ _ => Nat.zero_le _) _
          (List.mem_map_of_mem hmem)) (Nat.le_add_left _ _)
      have hmember : r ∈ Finset.univ.filter fun t => Part heap value (.object t) :=
        Finset.mem_filter.mpr ⟨Finset.mem_univ r, hr⟩
      have hsum := Finset.single_le_sum (f := fun t => (heap t).chars)
        (fun _ _ => Nat.zero_le _) hmember
      omega

theorem clean_part (hclean : Clean rules lim heap value) (hpart : Part heap value part) :
    Clean rules lim heap part where
  texts text h := hclean.texts text (part_trans hpart h)
  keys r h := hclean.keys r (part_trans hpart h)
  references := Nat.le_trans (Nat.add_le_add_left
    (objects_le (fun _ => Nat.le_refl _) fun _ h => part_trans hpart h) 1) hclean.references
  chars := Nat.le_trans (visitedChars_part hpart) hclean.chars

theorem clean_deleted (hclean : Clean rules lim heap value)
    (h : ∀ r, Deleted (fewer r) (heap r)) : Clean rules lim fewer value where
  texts text ht := hclean.texts text (part_of_deleted h ht)
  keys r hr key hkey :=
    hclean.keys r (part_of_deleted h hr) key ((deleted_keys (h r)).subset hkey)
  references := Nat.le_trans (Nat.add_le_add_left
    (objects_le (fun r => (deleted_members (h r)).length_le) fun _ => part_of_deleted h) 1)
    hclean.references
  chars := Nat.le_trans (Nat.add_le_add_left
    (objects_le (fun r => deleted_chars (h r)) fun _ => part_of_deleted h) _) hclean.chars

/-- The scan of a value comes to an answer, and the answer is `False` exactly for a clean value;
    where it is, it is for every part of the value, and for the value after members of its
    objects were deleted. -/
theorem scan_exact [DecidableEq ρ] (rules : CredentialRules) (lim : ScanLimits)
    (heap : ρ → GraphObject ρ) (value : GraphValue ρ) :
    (∀ turns, enoughTurns heap ≤ turns →
      ∃ answer, containsCredentialMaterialIn rules lim heap turns value = some answer) ∧
    (∀ turns answer, containsCredentialMaterialIn rules lim heap turns value = some answer →
      (answer = false ↔ Clean rules lim heap value)) ∧
    (∀ turns, containsCredentialMaterialIn rules lim heap turns value = some false →
      (∀ part, Part heap value part → ∀ more, enoughTurns heap ≤ more →
        containsCredentialMaterialIn rules lim heap more part = some false) ∧
      ∀ fewer : ρ → GraphObject ρ, (∀ r, Deleted (fewer r) (heap r)) →
        ∀ more, enoughTurns fewer ≤ more →
          containsCredentialMaterialIn rules lim fewer more value = some false) := by
  refine ⟨fun turns h => scan_ends h, fun turns answer h => scan_sound h, fun turns h => ?_⟩
  have hclean := (scan_sound h).mp rfl
  exact ⟨fun part hpart more hmore => scan_clean (clean_part hclean hpart) hmore,
    fun fewer hfewer more hmore => scan_clean (clean_deleted hclean hfewer) hmore⟩

/-- A list that contains itself is clean, and is gone through once. -/
example : containsCredentialMaterialIn sampleRules plainScanLimits
    (fun _ : Fin 1 => .sequence [.object 0, .text "plain"]) 8 (.object 0) = some false := by
  decide +kernel

end

end Apex.Domain
