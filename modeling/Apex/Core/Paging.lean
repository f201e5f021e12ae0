import Mathlib.Data.List.Nodup

/-!
# Pages

A listing hands a sequence out page by page: the caller asks for page `0`, `1`
and so on, and stops at a page that is short or that says of itself that it may
be incomplete. What the caller sees is the pages asked for so far, one after
the other.

`Covers` says that this is right: what was handed out is always the beginning
of the sequence, and all of it once a short page has not called itself
incomplete. It is a statement about whole walks. `covers_of_page` reduces it to
one page, given that the pages before it were full: such a page has to start
where they ended. In the other direction `Covers.fresh` says what a page cannot
hold: an element that an earlier page has handed out.

## Main definitions

* `Page.Full`: A page after which the caller asks for another.
* `Reached`: Every page before this one is full.
* `handed`: What the pages before this one hold, together.

## Theorems

* `handed_length`: How much full pages hold.
* `Covers.handed_eq`: What was handed out before a page that is reached.
* `Covers.fresh`: A page repeats nothing.
-/

namespace Apex

open List

universe u

variable {α : Type u}

/-- One page of a listing: its items, and whether it may lack some. -/
structure Page (α : Type u) where
  items : List α
  isPartial : Bool
  deriving DecidableEq, Repr

namespace Page

/-- A page after which the caller asks for another. -/
def Full (limit : Nat) (page : Page α) : Prop :=
  page.items.length = limit ∧ page.isPartial = false

end Page

section

variable (answer : Nat → Page α) (limit : Nat)

def Reached (n : Nat) : Prop := ∀ m < n, (answer m).Full limit

def handed (n : Nat) : List α := (List.range n).flatMap fun m => (answer m).items

/-- Walking the pages hands out a sequence: what a walk has seen is always the beginning of
    it, and all of it after a short page that does not call itself incomplete. -/
def Covers (xs : List α) : Prop :=
  ∀ n, Reached answer limit n → handed answer (n + 1) <+: xs ∧
    ((answer n).isPartial = false → (answer n).items.length < limit → handed answer (n + 1) = xs)

end

variable {answer : Nat → Page α} {limit : Nat} {xs : List α}

theorem Reached.mono {n m : Nat} (h : Reached answer limit n) (hle : m ≤ n) :
    Reached answer limit m := fun k hk => h k (Nat.lt_of_lt_of_le hk hle)

@[simp] theorem handed_zero : handed answer 0 = [] := rfl

theorem handed_succ (n : Nat) : handed answer (n + 1) = handed answer n ++ (answer n).items := by
  rw [handed, range_succ, flatMap_append, flatMap_singleton, handed]

theorem handed_length {n : Nat} (h : Reached answer limit n) :
    (handed answer n).length = n * limit := by
  induction n with
  | zero => rw [handed_zero, length_nil, Nat.zero_mul]
  | succ n ih =>
    rw [handed_succ, length_append, ih (h.mono (Nat.le_succ n)),
      (h n (Nat.lt_succ_self n)).1, Nat.succ_mul]

theorem take_append_page {page : List α} {start : Nat} (h : page <+: xs.drop start) :
    xs.take start ++ page <+: xs := by
  rcases h with ⟨rest, hrest⟩
  refine ⟨rest, ?_⟩
  rw [append_assoc, hrest, take_append_drop]

theorem mem_take_middle {before after : List α} {x : α} {k : Nat} (h : before.length < k) :
    x ∈ (before ++ x :: after).take k := by
  obtain ⟨j, rfl⟩ := Nat.exists_eq_add_of_lt h
  rw [Nat.add_assoc, take_length_add_append, take_succ_cons]
  exact mem_append_right _ mem_cons_self

/-- One page at a time is enough: each page that is reached starts where the full pages
    before it ended, and goes to the end of the sequence when it is the last. -/
theorem covers_of_page
    (h : ∀ n, Reached answer limit n → (answer n).items <+: xs.drop (n * limit) ∧
      ((answer n).isPartial = false → (answer n).items.length < limit →
        (answer n).items = xs.drop (n * limit))) :
    Covers answer limit xs := by
  -- Full pages are exactly the beginning of the sequence.
  have hbegin : ∀ n, Reached answer limit n → handed answer n = xs.take (n * limit) := by
    intro n
    induction n with
    | zero =>
      intro _
      rw [handed_zero, Nat.zero_mul, take_zero]
    | succ n ih =>
      intro hreach
      have hbefore := hreach.mono (Nat.le_succ n)
      have hprefix : handed answer (n + 1) <+: xs := by
        rw [handed_succ, ih hbefore]
        exact take_append_page (h n hbefore).1
      rw [prefix_iff_eq_take.mp hprefix, handed_length hreach]
  intro n hreach
  rw [handed_succ, hbegin n hreach]
  refine ⟨take_append_page (h n hreach).1, ?_⟩
  intro hpartial hshort
  rw [(h n hreach).2 hpartial hshort, take_append_drop]

theorem Covers.handed_eq (hc : Covers answer limit xs) {n : Nat} (hreach : Reached answer limit n) :
    handed answer n = xs.take (n * limit) := by
  cases n with
  | zero => rw [handed_zero, Nat.zero_mul, take_zero]
  | succ n =>
    have hprefix := (hc n (hreach.mono (Nat.le_succ n))).1
    rw [prefix_iff_eq_take.mp hprefix, handed_length hreach]

theorem Covers.fresh (hc : Covers answer limit xs) (hnodup : xs.Nodup) {n : Nat}
    (hreach : Reached answer limit n) {x : α} (hx : x ∈ (answer n).items) :
    x ∉ xs.take (n * limit) := by
  have hprefix := (hc n hreach).1
  rw [handed_succ, hc.handed_eq hreach] at hprefix
  have hapart := disjoint_of_nodup_append (hnodup.sublist hprefix.sublist)
  intro hseen
  exact hapart hseen hx

end Apex
