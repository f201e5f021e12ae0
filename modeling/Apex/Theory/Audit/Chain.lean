import Apex.Core.Comparison
import Apex.Services.Audit

/-!
# Linked Chains

A chain is linked if its sequence numbers have no gap and each row is hashed after the
row before it. That is what verification checks, so a chain that is accepted and ends
as another one does is that chain: its last hash tells the hash before it, and so on
down to the first row.

## Main definitions

* `Linked`: A chain after a hash, from a sequence number.
* `Numbered`: Sequence numbers without a gap.
* `SameHashed`: Two rows of which the same is hashed.

## Theorems

* `verifyFrom_ok_iff`: Verification accepts linked chains.
* `linked_append`: A chain goes on.
-/

namespace Apex.Services.Audit

open List

variable {η : Type} {env : AuditEnv η}

def Numbered : Int → List (AuditLog η) → Prop
  | _, [] => True
  | seq, row :: rows => row.chainSeq = seq ∧ Numbered (seq + 1) rows

def Linked (env : AuditEnv η) : Option η → Int → List (AuditLog η) → Prop
  | _, _, [] => True
  | previous, seq, row :: rows =>
    row.chainSeq = seq ∧ row.previousHash = previous ∧
      row.eventHash = expectedHash env row previous ∧ Linked env (some row.eventHash) (seq + 1) rows

theorem Linked.numbered : ∀ {rows : List (AuditLog η)} {previous : Option η} {seq : Int},
    Linked env previous seq rows → Numbered seq rows
  | [], _, _, _ => trivial
  | _ :: _, _, _, h => ⟨h.1, h.2.2.2.numbered⟩

theorem verifyFrom_ok_iff [DecidableEq η] : ∀ (rows : List (AuditLog η)) (previous : Option η)
    (seq : Int) (checked : Nat),
    (verifyFrom env previous seq checked rows).ok = true ↔ Linked env previous seq rows
  | [], _, _, _ => ⟨fun _ => trivial, fun _ => rfl⟩
  | row :: rows, previous, seq, checked => by
    rw [verifyFrom]
    by_cases hseq : row.chainSeq = seq
    · by_cases hprevious : row.previousHash = previous
      · by_cases hhash : row.eventHash = expectedHash env row previous
        · rw [if_neg (not_not.mpr hseq), if_neg (not_not.mpr hprevious), if_neg (not_not.mpr hhash),
            verifyFrom_ok_iff rows]
          exact ⟨fun h => ⟨hseq, hprevious, hhash, h⟩, fun h => h.2.2.2⟩
        · rw [if_neg (not_not.mpr hseq), if_neg (not_not.mpr hprevious), if_pos hhash]
          exact ⟨fun h => Bool.noConfusion h, fun h => absurd h.2.2.1 hhash⟩
      · rw [if_neg (not_not.mpr hseq), if_pos hprevious]
        exact ⟨fun h => Bool.noConfusion h, fun h => absurd h.2.1 hprevious⟩
    · rw [if_pos hseq]
      exact ⟨fun h => Bool.noConfusion h, fun h => absurd h.1 hseq⟩

variable {truncated : Bool} {rows table : List (AuditLog η)} {seq : Int}

theorem linked_of_verifyRows [DecidableEq η] (h : (verifyRows env truncated rows).ok = true) :
    ∃ previous seq, Linked env previous seq rows := by
  cases rows with
  | nil => exact ⟨none, 1, trivial⟩
  | cons row rows =>
    rw [verifyRows] at h
    cases truncated with
    | true => exact ⟨_, _, (verifyFrom_ok_iff _ _ _ _).mp h⟩
    | false => exact ⟨_, _, (verifyFrom_ok_iff _ _ _ _).mp h⟩

theorem verifyRows_truncated [DecidableEq η] {previous : Option η}
    (h : Linked env previous seq rows) : (verifyRows env true rows).ok = true := by
  cases rows with
  | nil => rfl
  | cons row rows =>
    refine (verifyFrom_ok_iff _ _ _ _).mpr ?_
    rw [h.1, h.2.1]
    exact h

theorem verifyRows_default [DecidableEq η] :
    (verifyRows env false rows).ok = true ↔ Linked env none 1 rows := by
  cases rows with
  | nil => exact ⟨fun _ => trivial, fun _ => rfl⟩
  | cons row rows => exact verifyFrom_ok_iff _ _ _ _

/-- The hash at the end of a chain that begins after a hash. -/
def lastHash (previous : Option η) (rows : List (AuditLog η)) : Option η :=
  (rows.getLast?.map AuditLog.eventHash).or previous

theorem lastHash_cons (previous : Option η) (row : AuditLog η) (rows : List (AuditLog η)) :
    lastHash previous (row :: rows) = lastHash (some row.eventHash) rows := by
  cases hlast : rows.getLast? with
  | none =>
    rw [getLast?_eq_none_iff.mp hlast]
    rfl
  | some last =>
    have hcons : (row :: rows).getLast? = some last := by
      rw [getLast?_cons, hlast, Option.getD_some]
    rw [lastHash, lastHash, hcons, hlast]
    rfl

theorem linked_append : ∀ (rows more : List (AuditLog η)) (previous : Option η) (seq : Int),
    Linked env previous seq (rows ++ more) ↔ Linked env previous seq rows ∧
      Linked env (lastHash previous rows) (seq + rows.length) more
  | [], more, previous, seq => by
    simp [Linked, lastHash]
  | row :: rows, more, previous, seq => by
    rw [cons_append, Linked, Linked, linked_append rows, lastHash_cons, length_cons]
    have hseq : seq + 1 + (rows.length : Int) = seq + ((rows.length + 1 : Nat) : Int) := by omega
    rw [hseq]
    tauto

theorem numbered_append : ∀ (rows more : List (AuditLog η)) (seq : Int),
    Numbered seq (rows ++ more) ↔ Numbered seq rows ∧ Numbered (seq + rows.length) more
  | [], more, seq => by simp [Numbered]
  | row :: rows, more, seq => by
    rw [cons_append, Numbered, Numbered, numbered_append rows, length_cons]
    have hseq : seq + 1 + (rows.length : Int) = seq + ((rows.length + 1 : Nat) : Int) := by omega
    rw [hseq, and_assoc]

theorem Numbered.bounds : ∀ {rows : List (AuditLog η)} {seq : Int}, Numbered seq rows →
    ∀ row ∈ rows, seq ≤ row.chainSeq ∧ row.chainSeq < seq + rows.length
  | [], _, _, _, hmem => absurd hmem not_mem_nil
  | first :: rows, seq, h, row, hmem => by
    rw [length_cons]
    rcases mem_cons.mp hmem with rfl | hmem
    · have := h.1
      omega
    · have := h.2.bounds row hmem
      omega

theorem Numbered.increasing : ∀ {rows : List (AuditLog η)} {seq : Int}, Numbered seq rows →
    rows.Pairwise fun a b => a.chainSeq < b.chainSeq
  | [], _, _ => Pairwise.nil
  | first :: rows, seq, h => by
    refine pairwise_cons.mpr ⟨fun row hmem => ?_, h.2.increasing⟩
    have hbounds := h.2.bounds row hmem
    have := h.1
    omega

theorem inOrder_eq
    (h : table.Pairwise fun a b => a.chainSeq < b.chainSeq) : inOrder table = table :=
  Pairwise.insertionSort_eq (h.imp fun hlt => le_of_lt hlt)

theorem mem_inOrder {row : AuditLog η} :
    row ∈ inOrder table ↔ row ∈ table := mem_insertionSort _

theorem length_inOrder (table : List (AuditLog η)) : (inOrder table).length = table.length :=
  length_insertionSort _ _

def SameText (v w : Json) : Prop := v = w ∨ Json.canonEq v w = true

/-- Digests tell what they are of: the hash before, and the canonical text of the event. -/
def AuditEnv.Injective (env : AuditEnv η) : Prop :=
  ∀ p v q w, env.digest p v = env.digest q w → p = q ∧ SameText v w

structure SameHashed (env : AuditEnv η) (row other : AuditLog η) : Prop where
  chainSeq : row.chainSeq = other.chainSeq
  previousHash : row.previousHash = other.previousHash
  eventHash : row.eventHash = other.eventHash
  hashed : SameText (hashedJson env row) (hashedJson env other)

theorem expectedHash_eq (row : AuditLog η) (previous : Option η) :
    expectedHash env row previous = env.digest previous (hashedJson env row) := by
  unfold expectedHash hashedJson
  split
  · rfl
  · rfl

/-- Chains of the same length under the same numbers that end in the same hash: of their rows
    the same is hashed. The last hash tells the hash before it. -/
theorem linked_sameHashed (hinj : env.Injective) :
    ∀ (rows others : List (AuditLog η)) (p q : Option η), rows.length = others.length →
      Linked env p seq rows → Linked env q seq others → lastHash p rows = lastHash q others →
      p = q ∧ Forall₂ (SameHashed env) rows others := by
  intro rows
  induction rows using reverseRecOn with
  | nil =>
    intro others p q hlength _ _ hlast
    rw [length_eq_zero_iff.mp hlength.symm] at hlast ⊢
    exact ⟨hlast, Forall₂.nil⟩
  | append_singleton rows row ih =>
    intro others p q hlength hrows hothers hlast
    rcases eq_nil_or_concat others with rfl | ⟨others, other, rfl⟩
    · simp at hlength
    · rw [concat_eq_append] at *
      rw [linked_append] at hrows hothers
      have hsame : row.eventHash = other.eventHash := by
        simpa [lastHash] using hlast
      have hlen : rows.length = others.length := by simpa using hlength
      rcases hrows with ⟨hrows, hseq, hprevious, hhash, _⟩
      rcases hothers with ⟨hothers, hseq', hprevious', hhash', _⟩
      rw [expectedHash_eq] at hhash hhash'
      have hdigest := hinj _ _ _ _ (hhash.symm.trans (hsame.trans hhash'))
      have hbefore := ih others p q hlen hrows hothers hdigest.1
      refine ⟨hbefore.1, rel_append hbefore.2 (Forall₂.cons ?_ Forall₂.nil)⟩
      exact ⟨by rw [hseq, hseq', hlen], by rw [hprevious, hprevious', hdigest.1], hsame, hdigest.2⟩

/-- A table that is got from a chain by changing, removing and reordering rows inside of it: the
    first and the last row are there, and there are not more rows. -/
structure Tampered (rows table : List (AuditLog η)) : Prop where
  first : ∀ row, rows.head? = some row → row ∈ table
  last : ∀ row, rows.getLast? = some row → row ∈ table
  fewer : table.length ≤ rows.length

theorem numbered_same : ∀ {table : List (AuditLog η)} {seq : Int}, Numbered seq table →
    ∀ a ∈ table, ∀ b ∈ table, a.chainSeq = b.chainSeq → a = b
  | [], _, _, _, ha, _, _, _ => absurd ha not_mem_nil
  | row :: rows, seq, h, a, ha, b, hb, hsame => by
    rcases mem_cons.mp ha with rfl | harest
    · rcases mem_cons.mp hb with rfl | hbrest
      · rfl
      · have hbounds := h.2.bounds b hbrest
        have := h.1
        omega
    · rcases mem_cons.mp hb with rfl | hbrest
      · have hbounds := h.2.bounds a harest
        have := h.1
        omega
      · exact numbered_same h.2 a harest b hbrest hsame

theorem numbered_last {last : AuditLog η} (h : Numbered seq rows)
    (hlast : rows.getLast? = some last) :
    last.chainSeq = seq + rows.length - 1 := by
  rcases getLast?_eq_some_iff.mp hlast with ⟨init, rfl⟩
  have hseq := ((numbered_append _ _ _).mp h).2.1
  rw [hseq, length_append, length_singleton]
  omega

/-- Whatever is changed, removed or reordered inside of a chain, if it is accepted, the same is
    hashed of the same rows. -/
theorem tampered_rejected [DecidableEq η] (hinj : env.Injective) {p : Option η}
    (hrows : Linked env p seq rows) (h : Tampered rows table)
    (hok : (verifyRows env truncated (inOrder table)).ok = true) :
    Forall₂ (SameHashed env) (inOrder table) rows := by
  rcases linked_of_verifyRows hok with ⟨q, seq', htable⟩
  have hlength := length_inOrder table
  cases hlast : rows.getLast? with
  | none =>
    rw [getLast?_eq_none_iff.mp hlast] at h ⊢
    have hnil : inOrder table = [] := length_eq_zero_iff.mp (by
      have := h.fewer
      rw [length_nil] at this
      omega)
    rw [hnil]
    exact Forall₂.nil
  | some last =>
    -- The first and the last number leave no room for another block of this length.
    have hmem := mem_inOrder.mpr (h.last last hlast)
    have hlastSeq := numbered_last hrows.numbered hlast
    have hupper := htable.numbered.bounds last hmem
    have hlower : seq' ≤ seq := by
      cases rows with
      | nil => exact nomatch hlast
      | cons first rest =>
        have := htable.numbered.bounds first (mem_inOrder.mpr (h.first first rfl))
        have := hrows.1
        omega
    have hfewer := h.fewer
    have heq : seq' = seq := by omega
    have hsize : (inOrder table).length = rows.length := by omega
    subst heq
    refine (linked_sameHashed hinj _ _ q p hsize htable hrows ?_).2
    cases hlast' : (inOrder table).getLast? with
    | none =>
      rw [getLast?_eq_none_iff.mp hlast'] at hmem
      exact absurd hmem not_mem_nil
    | some last' =>
      have hsame : last' = last := by
        refine numbered_same htable.numbered last' (mem_of_getLast? hlast') last hmem ?_
        rw [numbered_last htable.numbered hlast', hlastSeq, hsize]
      rw [lastHash, lastHash, hlast', hlast, hsame]
      rfl

end Apex.Services.Audit
