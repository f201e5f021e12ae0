import Mathlib.Data.List.DropRight
import Mathlib.Data.List.Infix

/-!
# Searching A Text In Segments

A text that comes in segments of any length is searched with bounded memory: what is kept of
the segments that have passed is an end of them, one symbol shorter than what is looked for.
An occurrence is inside of a segment, or it crosses the front of one; then it lies in the end
that was kept together with as many symbols of the segment.

## Main definitions

* `occurs`: Whether a list occurs in another, without gaps.
* `searchSegments`: The search of segments.

## Theorems

* `occurs_iff`: What `occurs` tests.
* `searchSegments_iff`: The search finds what occurs in the segments, joined.
-/

namespace Apex

open List

section

variable {α : Type} [BEq α] [LawfulBEq α]

def occurs (needle : List α) : List α → Bool
  | [] => needle.isEmpty
  | c :: rest => needle.isPrefixOf (c :: rest) || occurs needle rest

theorem occurs_iff {needle : List α} : ∀ {text : List α},
    occurs needle text = true ↔ needle <:+: text
  | [] => by rw [occurs, List.isEmpty_iff, infix_nil]
  | c :: rest => by
    rw [occurs, Bool.or_eq_true, List.isPrefixOf_iff_prefix, occurs_iff, infix_cons_iff]

/-- Search segments, with what is kept of those that have passed. -/
def searchSegments (needle : List α) : List α → List (List α) → Bool
  | _, [] => false
  | kept, segment :: rest =>
    let overlap := needle.length - 1
    occurs needle segment || occurs needle (kept ++ segment.take overlap)
      || searchSegments needle ((kept ++ segment.rtake overlap).rtake overlap) rest

end

section

variable {α : Type} {needle before text : List α}

theorem rtake_append_rtake (k : Nat) (before text : List α) :
    (before ++ text).rtake k = (before.rtake k ++ text.rtake k).rtake k := by
  simp only [rtake_eq_reverse_take_reverse, reverse_append, reverse_reverse]
  rw [take_append, take_append, take_take, take_take, length_take, length_reverse, Nat.min_self]
  congr 3
  omega

theorem rtake_append_of_le {front back : List α} {k : Nat} (h : back.length ≤ k) :
    (front ++ back).rtake k = front.rtake (k - back.length) ++ back := by
  rw [rtake, rtake, length_append, drop_append_of_le_length (by omega)]
  congr 2
  omega

/-- An occurrence that is not in the first text is in the second, or it crosses from the one to
    the other and lies in what is kept of both. -/
theorem infix_append_iff (hbefore : ¬ needle <:+: before) : needle <:+: before ++ text ↔
    needle <:+: text ∨
      needle <:+: before.rtake (needle.length - 1) ++ text.take (needle.length - 1) := by
  constructor
  · rintro ⟨front, back, h⟩
    rw [append_assoc] at h
    rcases append_eq_append_iff.mp h with ⟨skipped, rfl, hrest⟩ | ⟨rest, rfl, htext⟩
    · -- The occurrence begins in the first text, and does not end there.
      rcases append_eq_append_iff.mp hrest with ⟨more, rfl, hback⟩ | ⟨beyond, hneedle, hback⟩
      · exact absurd ⟨front, more, by rw [append_assoc]⟩ hbefore
      · cases skipped with
        | nil => exact Or.inl ⟨[], back, by rw [hback, hneedle, nil_append, nil_append]⟩
        | cons c skipped =>
          cases beyond with
          | nil =>
            refine absurd ⟨front, [], ?_⟩ hbefore
            rw [hneedle, append_nil, append_nil]
          | cons d beyond =>
            refine Or.inr ⟨front.rtake (needle.length - 1 - (skipped.length + 1)),
              back.take (needle.length - 1 - (beyond.length + 1)), ?_⟩
            have hlen : needle.length = skipped.length + 1 + (beyond.length + 1) := by
              rw [hneedle, length_append, length_cons, length_cons]
            have htake : text.take (needle.length - 1) = d :: beyond ++
                back.take (needle.length - 1 - (beyond.length + 1)) := by
              rw [hback, take_append, length_cons, take_of_length_le (by rw [length_cons]; omega)]
            have hkept : (front ++ c :: skipped).rtake (needle.length - 1) =
                front.rtake (needle.length - 1 - (skipped.length + 1)) ++ c :: skipped :=
              rtake_append_of_le (by rw [length_cons]; omega)
            rw [htake, hkept]
            simp only [hneedle, append_assoc]
    · exact Or.inl ⟨rest, back, by rw [htext, append_assoc]⟩
  · rintro (h | h)
    · exact h.trans (suffix_append before text).isInfix
    · refine h.trans ⟨before.take (before.length - (needle.length - 1)),
        text.drop (needle.length - 1), ?_⟩
      rw [rtake, ← append_assoc, take_append_drop, append_assoc, take_append_drop]

end

theorem searchSegments_iff_of_kept {α : Type} [BEq α] [LawfulBEq α] {needle : List α} :
    ∀ {segments : List (List α)} {before : List α}, ¬ needle <:+: before →
      (searchSegments needle (before.rtake (needle.length - 1)) segments = true ↔
        needle <:+: before ++ segments.flatten)
  | [], before, h => by
    rw [flatten_nil, append_nil]
    exact ⟨fun hfalse => Bool.noConfusion hfalse, fun hfound => absurd hfound h⟩
  | segment :: rest, before, h => by
    rw [searchSegments, flatten_cons, ← append_assoc]
    by_cases hhere : needle <:+: before ++ segment
    · have hfound := (infix_append_iff h).mp hhere
      rw [← occurs_iff, ← occurs_iff, ← Bool.or_eq_true] at hfound
      rw [hfound, Bool.true_or]
      exact ⟨fun _ => hhere.trans (prefix_append _ _).isInfix, fun _ => rfl⟩
    · have hmissed := mt (infix_append_iff h).mpr hhere
      rw [← occurs_iff, ← occurs_iff, ← Bool.or_eq_true, Bool.not_eq_true] at hmissed
      rw [hmissed, Bool.false_or, ← rtake_append_rtake]
      exact searchSegments_iff_of_kept hhere

theorem searchSegments_iff {α : Type} [BEq α] [LawfulBEq α] {needle : List α}
    (h : needle ≠ []) (segments : List (List α)) :
    searchSegments needle [] segments = true ↔ needle <:+: segments.flatten := by
  have hkept : ([] : List α).rtake (needle.length - 1) = [] := rtake_nil _
  have hnil : ¬ needle <:+: [] := fun hnil => h (infix_nil.mp hnil)
  rw [← hkept, searchSegments_iff_of_kept hnil, nil_append]

end Apex
