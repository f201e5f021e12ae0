import Apex.Services.TextExtraction

/-!
# The Buffers of the Text Builder

What the three buffers of the text builder hold, when the builder has gathered
a settled text, white space in front of the unfinished line and white space at
its end.

The counts are those of the whole texts; what is kept is the beginning that
the limit leaves room for. The room does not change while white space waits,
since only settled text uses it up. That is why a text that was cut when it
joined one buffer can be moved to the next: the two cuts together are one cut
of the whole (`cap_append`, `keep_parts`).

## Main definitions

* `cap`: The part of a text that a bound leaves.
* `PendingHolds`: What one buffer of white space holds.

## Theorems

* `holds_move`: White space of the unfinished line moves in front of it.
* `holds_commit`: White space that lies inside the text is settled.
* `holds_append`: A text that certainly belongs to the result is settled.
-/

namespace Apex.Services

open List
open Apex.Trail

def cap {α : Type} (room : Option Nat) (text : List α) : List α :=
  match room with
  | none => text
  | some room => text.take room

/-- What is left of a bound when so much is used. -/
def less (room : Option Nat) (used : Nat) : Option Nat := room.map fun room => room - used

theorem cap_nil {α : Type} (room : Option Nat) : cap room ([] : List α) = [] := by
  cases room with
  | none => rfl
  | some n => exact take_nil

theorem less_zero (room : Option Nat) : less room 0 = room := by
  cases room <;> rfl

theorem prefixForPending_eq (text : List Char) (room : Option Nat) (retained : Nat) :
    prefixForPending text room retained = cap (less room retained) text := by
  cases room <;> rfl

theorem cap_append {α : Type} (room : Option Nat) (xs ys : List α) :
    cap room (xs ++ ys) = cap room xs ++ cap (less room (cap room xs).length) ys := by
  cases room with
  | none => rfl
  | some n =>
    show (xs ++ ys).take n = xs.take n ++ ys.take (n - (xs.take n).length)
    rw [take_append, length_take]
    congr 2
    omega

theorem cap_cap {α : Type} (room : Option Nat) (used : Nat) (xs : List α) :
    cap (less room used) (cap room xs) = cap (less room used) xs := by
  cases room with
  | none => rfl
  | some n =>
    show (xs.take n).take (n - used) = xs.take (n - used)
    rw [take_take, Nat.min_eq_left (Nat.sub_le _ _)]

theorem cap_length_le {α : Type} (n : Nat) (xs : List α) : (cap (some n) xs).length ≤ n :=
  length_take_le _ _

structure PendingHolds (room : Option Nat) (text : List Char) (p : Pending) : Prop where
  count : p.count = text.length
  parts : p.parts.flatten = cap room text
  retained : p.retained = (cap room text).length

theorem pendingHolds_empty (room : Option Nat) : PendingHolds room [] .empty where
  count := rfl
  parts := (cap_nil room).symm
  retained := by rw [cap_nil]; rfl

theorem keep_count (p : Pending) (text : List Char) (room : Option Nat) :
    (p.keep text room).count = p.count := by
  unfold Pending.keep
  by_cases h : prefixForPending text room p.retained = [] <;> simp [h]

theorem keep_parts (p : Pending) (text : List Char) (room : Option Nat) :
    (p.keep text room).parts.flatten = p.parts.flatten ++ cap (less room p.retained) text := by
  unfold Pending.keep
  rw [← prefixForPending_eq]
  by_cases h : prefixForPending text room p.retained = [] <;> simp [h]

theorem keep_retained (p : Pending) (text : List Char) (room : Option Nat) :
    (p.keep text room).retained = p.retained + (cap (less room p.retained) text).length := by
  unfold Pending.keep
  rw [← prefixForPending_eq]
  by_cases h : prefixForPending text room p.retained = [] <;> simp [h]

theorem PendingHolds.add {room : Option Nat} {text : List Char} {p : Pending}
    (h : PendingHolds room text p) (more : List Char) :
    PendingHolds room (text ++ more) (p.add more room) := by
  refine ⟨?_, ?_, ?_⟩
  · rw [Pending.add, keep_count, length_append, ← h.count]
  · rw [Pending.add, keep_parts, cap_append, ← h.retained, ← h.parts]
  · rw [Pending.add, keep_retained, cap_append, length_append, ← h.retained]

theorem keep_each (room : Option Nat) (parts : List (List Char)) (p : Pending) (text : List Char)
    (hparts : p.parts.flatten = cap room text) (hretained : p.retained = (cap room text).length) :
    let q := parts.foldl (fun q part => q.keep part room) p
    q.count = p.count ∧ q.parts.flatten = cap room (text ++ parts.flatten)
      ∧ q.retained = (cap room (text ++ parts.flatten)).length := by
  induction parts generalizing p text with
  | nil =>
    simp only [foldl_nil, flatten_nil, append_nil]
    exact ⟨trivial, hparts, hretained⟩
  | cons part rest ih =>
    have h1 : (p.keep part room).parts.flatten = cap room (text ++ part) := by
      rw [keep_parts, cap_append, ← hretained, ← hparts]
    have h2 : (p.keep part room).retained = (cap room (text ++ part)).length := by
      rw [keep_retained, cap_append, length_append, ← hretained]
    have h := ih (p.keep part room) (text ++ part) h1 h2
    rw [append_assoc] at h
    exact ⟨h.1.trans (keep_count p part room), h.2⟩

/-- What a builder with a limit holds when so much has been gathered. -/
structure Holds (limit : Option Nat) (g : Gathered Char) (b : Builder) : Prop where
  bound : b.limit = limit
  parts : b.parts.flatten = cap limit g.settled
  retained : b.retainedChars = (cap limit g.settled).length
  count : b.charCount = g.settled.length
  started : b.started = g.started
  blank : g.started = false → g.settled = []
  outer : PendingHolds (less limit (cap limit g.settled).length) g.outer b.outer
  line : PendingHolds (less limit (cap limit g.settled).length) g.line b.line

section

variable {limit : Option Nat} {g : Gathered Char} {b : Builder}

theorem Holds.room (h : Holds limit g b) :
    b.retentionRoom = less limit (cap limit g.settled).length := by
  rw [Builder.retentionRoom, h.bound, h.retained]
  rfl

theorem holds_new (maxChars : Option Int) :
    Holds (Builder.new maxChars).limit Gathered.fresh (Builder.new maxChars) where
  bound := rfl
  parts := (cap_nil _).symm
  retained := by rw [Gathered.fresh, cap_nil]; rfl
  count := rfl
  started := rfl
  blank := fun _ => rfl
  outer := pendingHolds_empty _
  line := pendingHolds_empty _

theorem holds_discardLine (h : Holds limit g b) :
    Holds limit { g with line := [] } (discardLinePending.last b) :=
  { h with line := pendingHolds_empty _ }

theorem holds_discardOuter (h : Holds limit g b) :
    Holds limit { g with outer := [] } (discardOuterPending.last b) :=
  { h with outer := pendingHolds_empty _ }

theorem holds_addLine (h : Holds limit g b) (text : List Char) :
    Holds limit { g with line := g.line ++ text } ((addLinePending text).last b) := by
  unfold addLinePending
  by_cases htext : text = []
  · rw [if_pos htext, htext, append_nil]
    exact h
  · rw [if_neg htext, last_write, h.room]
    exact { h with line := h.line.add text }

theorem holds_addOuter (h : Holds limit g b) (text : List Char) :
    Holds limit { g with outer := g.outer ++ text } ((addOuterPending text).last b) := by
  unfold addOuterPending
  by_cases htext : text = []
  · rw [if_pos htext, htext, append_nil]
    exact h
  · rw [if_neg htext, last_write, h.room]
    exact { h with outer := h.outer.add text }

theorem keep_outer_foldl (room : Option Nat) (parts : List (List Char)) (b : Builder) :
    parts.foldl (fun c part => c.setOuter (c.outer.keep part room)) b
      = b.setOuter (parts.foldl (fun q part => q.keep part room) b.outer) := by
  induction parts generalizing b with
  | nil => rfl
  | cons part rest ih => exact ih (b.setOuter (b.outer.keep part room))

theorem holds_move (h : Holds limit g b) :
    Holds limit { g with outer := g.outer ++ g.line, line := [] }
      (moveLinePendingToOuter.last b) := by
  unfold moveLinePendingToOuter
  rw [last_look]
  by_cases hcount : b.line.count = 0
  · have hline : g.line = [] := length_eq_zero_iff.mp (h.line.count ▸ hcount)
    have hg : ({ g with outer := g.outer ++ g.line, line := [] } : Gathered Char) = g := by
      cases g
      simp only at hline
      simp only [hline, append_nil]
    rw [if_pos hcount, hg]
    exact h
  · rw [if_neg hcount, last_andThen, last_andThen, last_each]
    simp only [last_write, keep_outer_foldl]
    rw [h.room]
    -- The room is the same for both buffers, so the two cuts are one.
    have hall := keep_each (less limit (cap limit g.settled).length) b.line.parts
      ⟨b.outer.count + b.line.count, b.outer.parts, b.outer.retained⟩ g.outer
      h.outer.parts h.outer.retained
    rw [h.line.parts, cap_append, cap_cap, ← cap_append] at hall
    refine { h with outer := ⟨?_, hall.2.1, hall.2.2⟩, line := pendingHolds_empty _ }
    exact hall.1.trans (by rw [h.outer.count, h.line.count, length_append])

theorem commitPart_foldl (parts : List (List Char)) (b : Builder) :
    let c := parts.foldl (fun c part => c.commitPart part) b
    c.parts.flatten = b.parts.flatten ++ parts.flatten
      ∧ c.retainedChars = b.retainedChars + parts.flatten.length
      ∧ c.limit = b.limit ∧ c.charCount = b.charCount ∧ c.started = b.started
      ∧ c.outer = b.outer ∧ c.line = b.line ∧ c.pendingCr = b.pendingCr := by
  induction parts generalizing b with
  | nil => simp
  | cons part rest ih =>
    have h := ih (b.commitPart part)
    have hpart : (b.commitPart part).parts.flatten = b.parts.flatten ++ part
        ∧ (b.commitPart part).retainedChars = b.retainedChars + part.length := by
      unfold Builder.commitPart
      by_cases hempty : part = [] <;> simp [hempty]
    have hrest : (b.commitPart part).limit = b.limit ∧ (b.commitPart part).charCount = b.charCount
        ∧ (b.commitPart part).started = b.started ∧ (b.commitPart part).outer = b.outer
        ∧ (b.commitPart part).line = b.line ∧ (b.commitPart part).pendingCr = b.pendingCr := by
      unfold Builder.commitPart
      by_cases hempty : part = [] <;> simp [hempty]
    rw [hpart.1, hpart.2, hrest.1, hrest.2.1, hrest.2.2.1, hrest.2.2.2.1, hrest.2.2.2.2.1,
      hrest.2.2.2.2.2, append_assoc, Nat.add_assoc] at h
    rw [flatten_cons, length_append]
    exact h

theorem takeParts_flatten (parts : List (List Char)) (remaining : Nat) :
    (takeParts remaining parts).flatten = parts.flatten.take remaining := by
  induction parts generalizing remaining with
  | nil => exact take_nil.symm
  | cons part rest ih =>
    unfold takeParts
    by_cases hzero : remaining = 0
    · rw [if_pos hzero, hzero, take_zero]
      rfl
    · rw [if_neg hzero]
      simp only [flatten_cons]
      rw [ih, take_append, length_take]
      congr 2
      omega

theorem keptParts_flatten (room : Option Nat) (parts : List (List Char)) :
    (keptParts room parts).flatten = cap room parts.flatten := by
  cases room with
  | none => rfl
  | some n => exact takeParts_flatten parts n

theorem PendingHolds.of_nil {room : Option Nat} {p : Pending} (h : PendingHolds room [] p)
    (room' : Option Nat) : PendingHolds room' [] p where
  count := h.count
  parts := by rw [h.parts, cap_nil, cap_nil]
  retained := by rw [h.retained, cap_nil, cap_nil]

theorem holds_commit (h : Holds limit g b) (hstart : g.started = true) (hline : g.line = []) :
    Holds limit { g with settled := g.settled ++ g.outer, outer := [] }
      (commitOuterPending.last b) := by
  have hblank : ∀ {settled : List Char}, g.started = false → settled = [] := fun h =>
    absurd (hstart.symm.trans h) (by simp)
  unfold commitOuterPending
  rw [last_look]
  by_cases hcount : b.outer.count = 0
  · have houter : g.outer = [] := length_eq_zero_iff.mp (h.outer.count ▸ hcount)
    have hg : ({ g with settled := g.settled ++ g.outer, outer := [] } : Gathered Char) = g := by
      cases g
      simp only at houter
      simp only [houter, append_nil]
    rw [if_pos hcount, hg]
    exact h
  · rw [if_neg hcount, last_andThen, last_andThen, last_each]
    simp only [last_write]
    rcases commitPart_foldl (keptParts b.retentionRoom b.outer.parts)
      (b.countChars b.outer.count) with
      ⟨hparts, hretained, hlimit, hchars, hstarted, _, hpending, _⟩
    have hkept : (keptParts b.retentionRoom b.outer.parts).flatten
        = cap (less limit (cap limit g.settled).length) g.outer := by
      rw [keptParts_flatten, h.outer.parts, h.room]
      have := cap_cap (less limit (cap limit g.settled).length) 0 g.outer
      rwa [less_zero] at this
    rw [hkept] at hparts hretained
    refine ⟨hlimit.trans h.bound, ?_, ?_, ?_, hstarted.trans h.started, hblank,
      pendingHolds_empty _, ?_⟩
    · exact hparts.trans (by rw [cap_append, ← h.parts]; rfl)
    · refine hretained.trans ?_
      rw [cap_append, length_append, ← h.retained]
      rfl
    · refine hchars.trans ?_
      rw [length_append, ← h.outer.count, ← h.count]
      rfl
    · have hnil := h.line
      rw [hline] at hnil ⊢
      exact hpending ▸ hnil.of_nil _

theorem holds_append (h : Holds limit g b) (hstart : g.started = true) (houter : g.outer = [])
    (hline : g.line = []) (text : List Char) :
    Holds limit { g with settled := g.settled ++ text } ((appendCommitted text).last b) := by
  have hblank : ∀ {settled : List Char}, g.started = false → settled = [] := fun h =>
    absurd (hstart.symm.trans h) (by simp)
  unfold appendCommitted
  by_cases htext : text = []
  · rw [if_pos htext, htext, append_nil]
    exact h
  · rw [if_neg htext, last_andThen]
    simp only [last_write]
    have hroom : (b.countChars text.length).retentionRoom
        = less limit (cap limit g.settled).length := h.room
    rcases commitPart_foldl [prefixForPending text (b.countChars text.length).retentionRoom 0]
      (b.countChars text.length) with ⟨hparts, hretained, hlimit, hchars, hstarted, ho, hl, _⟩
    simp only [foldl_cons, foldl_nil, flatten_cons, flatten_nil,
      append_nil, prefixForPending_eq, hroom, less_zero]
      at hparts hretained hlimit hchars hstarted ho hl
    rw [prefixForPending_eq, hroom, less_zero]
    refine ⟨hlimit.trans h.bound, ?_, ?_, ?_, hstarted.trans h.started, hblank, ?_, ?_⟩
    · exact hparts.trans (by rw [cap_append, ← h.parts]; rfl)
    · refine hretained.trans ?_
      rw [cap_append, length_append, ← h.retained]
      rfl
    · refine hchars.trans ?_
      rw [length_append, ← h.count]
      rfl
    · have hnil := h.outer
      rw [houter] at hnil ⊢
      exact ho ▸ hnil.of_nil _
    · have hnil := h.line
      rw [hline] at hnil ⊢
      exact hl ▸ hnil.of_nil _

end

end Apex.Services
