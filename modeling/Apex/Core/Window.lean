import Mathlib.Data.List.DropRight
import Mathlib.Data.List.Nodup

/-!
# Windowed Append

Appending the entries whose key is new, and keeping only the most recent ones.

Appending without duplicates is idempotent on its own, and so is truncation;
the composition is not. An entry that truncation pushed out is no longer
remembered as seen, so presenting it again appends it again and pushes out
another. `windowAppend_replay_iff` says exactly when that does not happen:
when all of the keys presented are still there. `windowAppend_replay_iff_held`
moves that condition from the result to the arguments, where it compares the
keys presented with the entries that keep their place.

## Main definitions

* `appendNew`: Append the entries whose key has not been seen.
* `windowAppend`: The same, keeping the last `n`.

## Theorems

* `appendNew_keys`: The keys afterwards.
* `mem_window_iff_held`: A presented key is there afterwards unless pushed out.
-/

namespace Apex

open List

section

variable {α κ : Type} [DecidableEq κ] (key : α → κ)

/-- Append the entries of `xs`, in order, whose key occurs neither in `acc` nor
    earlier in `xs`. -/
def appendNew (acc xs : List α) : List α :=
  xs.foldl (fun acc x => if key x ∈ acc.map key then acc else acc ++ [x]) acc

@[simp] theorem appendNew_nil (acc : List α) : appendNew key acc [] = acc := rfl

theorem appendNew_cons (acc xs : List α) (x : α) :
    appendNew key acc (x :: xs)
      = appendNew key (if key x ∈ acc.map key then acc else acc ++ [x]) xs := rfl

theorem appendNew_cons_seen (acc xs : List α) (x : α) (h : key x ∈ acc.map key) :
    appendNew key acc (x :: xs) = appendNew key acc xs := by
  rw [appendNew_cons, if_pos h]

theorem appendNew_cons_new (acc xs : List α) (x : α) (h : key x ∉ acc.map key) :
    appendNew key acc (x :: xs) = appendNew key (acc ++ [x]) xs := by
  rw [appendNew_cons, if_neg h]

theorem appendNew_append (acc xs ys : List α) :
    appendNew key acc (xs ++ ys) = appendNew key (appendNew key acc xs) ys := by
  rw [appendNew, foldl_append]
  rfl

theorem appendNew_new_keys (acc xs : List α) : ∃ new, appendNew key acc xs = acc ++ new ∧
    new.Sublist xs ∧ ∀ z ∈ new, key z ∉ acc.map key := by
  induction xs generalizing acc with
  | nil => exact ⟨[], (append_nil acc).symm, Sublist.refl _,
      fun z hz => absurd hz not_mem_nil⟩
  | cons x xs ih =>
    by_cases h : key x ∈ acc.map key
    · rcases ih acc with ⟨new, heq, hsub, hnew⟩
      exact ⟨new, by rw [appendNew_cons_seen key acc xs x h, heq], hsub.cons x, hnew⟩
    · rcases ih (acc ++ [x]) with ⟨new, heq, hsub, hnew⟩
      refine ⟨x :: new, ?_, hsub.cons_cons x, ?_⟩
      · rw [appendNew_cons_new key acc xs x h, heq, append_assoc]
        rfl
      · rw [forall_mem_cons]
        refine ⟨h, fun z hz hacc => hnew z hz ?_⟩
        rw [map_append]
        exact mem_append_left _ hacc

theorem appendNew_keys (acc xs : List α) (k : κ) :
    k ∈ (appendNew key acc xs).map key ↔ k ∈ acc.map key ∨ k ∈ xs.map key := by
  induction xs generalizing acc with
  | nil => simp only [appendNew_nil, map_nil, not_mem_nil, or_false]
  | cons x xs ih =>
    by_cases h : key x ∈ acc.map key
    · rw [appendNew_cons_seen key acc xs x h, ih, map_cons, mem_cons]
      constructor
      · rintro (ha | hx)
        · exact Or.inl ha
        · exact Or.inr (Or.inr hx)
      · rintro (ha | rfl | hx)
        · exact Or.inl ha
        · exact Or.inl h
        · exact Or.inr hx
    · rw [appendNew_cons_new key acc xs x h, ih, map_append, mem_append, map_cons,
        mem_cons, map_cons, map_nil, mem_cons, or_assoc]
      simp only [not_mem_nil, or_false]

theorem appendNew_mem {acc xs : List α} {y : α} (h : y ∈ appendNew key acc xs) :
    y ∈ acc ∨ y ∈ xs := by
  rcases appendNew_new_keys key acc xs with ⟨new, heq, hsub, _⟩
  rw [heq, mem_append] at h
  exact h.imp_right (fun hn => hsub.subset hn)

theorem appendNew_nodup (acc xs : List α) (h : (acc.map key).Nodup) :
    ((appendNew key acc xs).map key).Nodup := by
  induction xs generalizing acc with
  | nil => exact h
  | cons x xs ih =>
    by_cases hx : key x ∈ acc.map key
    · rw [appendNew_cons_seen key acc xs x hx]
      exact ih acc h
    · rw [appendNew_cons_new key acc xs x hx]
      refine ih _ ?_
      rw [map_append, map_cons, map_nil]
      exact h.append (nodup_singleton _) (fun k hk hk' => by
        rw [mem_singleton] at hk'
        exact hx (hk' ▸ hk))

theorem appendNew_eq_self (acc xs : List α) (h : ∀ x ∈ xs, key x ∈ acc.map key) :
    appendNew key acc xs = acc := by
  induction xs with
  | nil => rfl
  | cons x xs ih =>
    rw [forall_mem_cons] at h
    rw [appendNew_cons_seen key acc xs x h.1]
    exact ih h.2

theorem appendNew_self_of_nodup (acc xs : List α) (h : ((acc ++ xs).map key).Nodup) :
    appendNew key acc xs = acc ++ xs := by
  induction xs generalizing acc with
  | nil => rw [appendNew_nil, append_nil]
  | cons x xs ih =>
    have hx : key x ∉ acc.map key := by
      rw [map_append, nodup_append] at h
      intro hmem
      exact h.2.2 _ hmem _ (by rw [map_cons]; exact mem_cons_self) rfl
    rw [appendNew_cons_new key acc xs x hx]
    rw [show acc ++ x :: xs = (acc ++ [x]) ++ xs by rw [append_assoc]; rfl] at h ⊢
    exact ih _ h

theorem appendNew_last_new (acc xs : List α) (h : ¬ ∀ x ∈ xs, key x ∈ acc.map key) :
    ∃ init z, appendNew key acc xs = init ++ [z] ∧ key z ∉ acc.map key := by
  induction xs generalizing acc with
  | nil => exact absurd (fun x hx => absurd hx not_mem_nil) h
  | cons x xs ih =>
    by_cases hx : key x ∈ acc.map key
    · rw [appendNew_cons_seen key acc xs x hx]
      refine ih acc (fun hall => h (fun y hy => ?_))
      rcases mem_cons.mp hy with rfl | hy'
      · exact hx
      · exact hall y hy'
    · rw [appendNew_cons_new key acc xs x hx]
      by_cases hrest : ∀ y ∈ xs, key y ∈ (acc ++ [x]).map key
      · rw [appendNew_eq_self key _ xs hrest]
        exact ⟨acc, x, rfl, hx⟩
      · rcases ih (acc ++ [x]) hrest with ⟨init, z, heq, hz⟩
        refine ⟨init, z, heq, fun hza => hz ?_⟩
        rw [map_append]
        exact mem_append_left _ hza

theorem appendNew_distinct (acc ys xs : List α) :
    appendNew key acc (appendNew key ys xs) = appendNew key (appendNew key acc ys) xs := by
  induction xs generalizing ys with
  | nil => rfl
  | cons x xs ih =>
    by_cases hx : key x ∈ ys.map key
    · have hseen : key x ∈ (appendNew key acc ys).map key :=
        (appendNew_keys key acc ys _).mpr (Or.inr hx)
      rw [appendNew_cons_seen key ys xs x hx, appendNew_cons_seen key _ xs x hseen, ih]
    · rw [appendNew_cons_new key ys xs x hx, ih, appendNew_append, ← appendNew_append,
        singleton_append]

variable (n : Nat)

/-- Append what is new and keep the last `n` entries. -/
def windowAppend (acc xs : List α) : List α := (appendNew key acc xs).rtake n

/-- Presenting entries again changes nothing exactly when all their keys are
    still held. Otherwise the last entry afterwards is one that was not held,
    so the list is not the one before. -/
theorem windowAppend_eq_self_iff (hn : 0 < n) (acc xs : List α) (hacc : acc.length ≤ n) :
    windowAppend key n acc xs = acc ↔ ∀ x ∈ xs, key x ∈ acc.map key := by
  constructor
  · intro heq
    by_contra hnew
    rcases appendNew_last_new key acc xs hnew with ⟨init, z, hlast, hz⟩
    rcases Nat.exists_eq_succ_of_ne_zero (Nat.pos_iff_ne_zero.mp hn) with ⟨m, rfl⟩
    rw [windowAppend, hlast, rtake_concat_succ] at heq
    refine hz ?_
    rw [← heq, map_append, map_cons, map_nil]
    exact mem_append_right _ mem_cons_self
  · intro hall
    rw [windowAppend, appendNew_eq_self key acc xs hall, rtake, Nat.sub_eq_zero_of_le hacc,
      drop_zero]

theorem length_rtake_le (l : List α) : (l.rtake n).length ≤ n := by
  rw [rtake, length_drop]
  omega

theorem windowAppend_replay_iff (hn : 0 < n) (acc xs : List α) :
    windowAppend key n (windowAppend key n acc xs) xs = windowAppend key n acc xs ↔
      ∀ x ∈ xs, key x ∈ (windowAppend key n acc xs).map key :=
  windowAppend_eq_self_iff key n hn _ xs (length_rtake_le n _)

theorem length_windowAppend_le (acc xs : List α) :
    (windowAppend key n acc xs).length ≤ n := length_rtake_le n _

theorem windowAppend_self {n : Nat} {acc : List α} (h : acc.length ≤ n) :
    windowAppend key n acc acc = acc := by
  rw [windowAppend, appendNew_eq_self key acc acc (fun x hx => List.mem_map.mpr ⟨x, hx, rfl⟩),
    rtake, Nat.sub_eq_zero_of_le h, drop_zero]

/-- The entries of `acc` that keeping the last `n` does not push out. -/
def held (acc xs : List α) : List α := acc.drop ((appendNew key acc xs).length - n)

theorem appendNew_new {acc new xs : List α} (h : appendNew key acc xs = acc ++ new) (x : α)
    (hx : x ∈ xs) :
    key x ∈ acc.map key ∨ key x ∈ new.map key := by
  have hkey := (appendNew_keys key acc xs (key x)).mpr (Or.inr (List.mem_map.mpr ⟨x, hx, rfl⟩))
  rw [h, map_append] at hkey
  exact mem_append.mp hkey

/-- When at most `n` entries are presented, all that is new stays, and of what
    was there only the oldest entries go. -/
theorem windowAppend_eq_held (acc xs : List α) (hxs : xs.length ≤ n) :
    ∃ new, windowAppend key n acc xs = held key n acc xs ++ new ∧ new.Sublist xs ∧
      (∀ z ∈ new, key z ∉ acc.map key) ∧
      ∀ x ∈ xs, key x ∈ acc.map key ∨ key x ∈ new.map key := by
  rcases appendNew_new_keys key acc xs with ⟨new, heq, hsub, hnew⟩
  have hlen := hsub.length_le
  refine ⟨new, ?_, hsub, hnew, appendNew_new key heq⟩
  rw [windowAppend, held, rtake, heq, length_append, drop_append_of_le_length (by omega)]

theorem mem_window_iff_held (acc xs : List α) (hxs : xs.length ≤ n) (x : α) (hx : x ∈ xs) :
    key x ∈ (windowAppend key n acc xs).map key ↔
      (key x ∈ acc.map key → key x ∈ (held key n acc xs).map key) := by
  rcases windowAppend_eq_held key n acc xs hxs with ⟨new, heq, _, hnew, hall⟩
  rw [heq, map_append, mem_append]
  constructor
  · rintro (hheld | hin) hacc
    · exact hheld
    · rcases List.mem_map.mp hin with ⟨z, hz, hkey⟩
      exact absurd (hkey ▸ hacc) (hnew z hz)
  · intro h
    exact (hall x hx).imp h (fun hin => hin)

/-- Presenting the same entries a second time changes nothing exactly when none
    of their keys was pushed out. -/
theorem windowAppend_replay_iff_held (hn : 0 < n) (acc xs : List α) (hxs : xs.length ≤ n) :
    windowAppend key n (windowAppend key n acc xs) xs = windowAppend key n acc xs ↔
      ∀ x ∈ xs, key x ∈ acc.map key → key x ∈ (held key n acc xs).map key := by
  rw [windowAppend_replay_iff key n hn]
  exact forall₂_congr (fun x hx => mem_window_iff_held key n acc xs hxs x hx)

theorem windowAppend_nodup (acc xs : List α) (h : (acc.map key).Nodup) :
    ((windowAppend key n acc xs).map key).Nodup := by
  rw [windowAppend, rtake, map_drop]
  exact (appendNew_nodup key acc xs h).sublist (drop_sublist _ _)

end

end Apex
