import Apex.Theory.TextExtraction.Normalisation

/-!
# Retention

What the builder keeps while it is fed, and what it gives in the end.

Each of the three buffers is bounded by the limit on its own: the two buffers
of white space by the room that settled text leaves, which is at most the limit,
and the settled text because every piece is cut to that room. `Bounded` is kept
by every single write, so the bound holds in the middle of every method, also
while white space is in two buffers at once.

## Main definitions

* `Bounded`: Each of the three buffers keeps to the limit.

## Theorems

* `bounded_commit`: Settling white space keeps to the limit at every write.
* `bounded_normalizeRun`: A run keeps to the limit.
* `normalise_chunks`: Feeding chunks computes the normal form, within the bound.
* `extractPlaintext_eq`: However a file is cut.
-/

namespace Apex.Services

open List
open Apex.Trail
open String (ofList join)

structure PendingBounded (n : Nat) (p : Pending) : Prop where
  retained : p.retained = p.parts.flatten.length
  le : p.retained ≤ n

structure Bounded (n : Nat) (b : Builder) : Prop where
  limit : b.limit = some n
  retained : b.retainedChars = b.parts.flatten.length
  le : b.retainedChars ≤ n
  outer : PendingBounded n b.outer
  line : PendingBounded n b.line

theorem pendingBounded_empty (n : Nat) : PendingBounded n .empty := ⟨rfl, Nat.zero_le n⟩

theorem PendingBounded.keep {n room : Nat} {p : Pending} (h : PendingBounded n p)
    (hroom : room ≤ n) (text : List Char) : PendingBounded n (p.keep text (some room)) := by
  refine ⟨?_, ?_⟩
  · rw [keep_retained, keep_parts, length_append, h.retained]
  · have hcut : (cap (less (some room) p.retained) text).length ≤ room - p.retained :=
      cap_length_le _ text
    rw [keep_retained]
    have := h.le
    omega

theorem PendingBounded.add {n room : Nat} {p : Pending} (h : PendingBounded n p)
    (hroom : room ≤ n) (text : List Char) : PendingBounded n (p.add text (some room)) :=
  PendingBounded.keep (p := { p with count := p.count + text.length }) ⟨h.retained, h.le⟩ hroom text

variable {n : Nat} {b : Builder}

theorem Bounded.held_le (h : Bounded n b) : b.held ≤ 3 * n := by
  have hparts := h.retained ▸ h.le
  have houter := h.outer.retained ▸ h.outer.le
  have hline := h.line.retained ▸ h.line.le
  unfold Builder.held
  omega

theorem Bounded.room (h : Bounded n b) : b.retentionRoom = some (n - b.retainedChars) := by
  rw [Builder.retentionRoom, h.limit]
  rfl

theorem Bounded.setLine (h : Bounded n b) {p : Pending} (hp : PendingBounded n p) :
    Bounded n (b.setLine p) := { h with line := hp }

theorem Bounded.setOuter (h : Bounded n b) {p : Pending} (hp : PendingBounded n p) :
    Bounded n (b.setOuter p) := { h with outer := hp }

theorem Bounded.commitPart (h : Bounded n b) {kept : List Char}
    (hfits : b.retainedChars + kept.length ≤ n) : Bounded n (b.commitPart kept) := by
  unfold Builder.commitPart
  split
  · exact h
  · refine { h with retained := ?_, le := hfits }
    simp only [flatten_append, flatten_cons, flatten_nil, append_nil, length_append, h.retained]

theorem bounded_discardLine : Keeps (Bounded n) discardLinePending :=
  keeps_write fun _ h => h.setLine (pendingBounded_empty n)

theorem bounded_discardOuter : Keeps (Bounded n) discardOuterPending :=
  keeps_write fun _ h => h.setOuter (pendingBounded_empty n)

variable (text : List Char)

theorem bounded_addLine : Keeps (Bounded n) (addLinePending text) := by
  unfold addLinePending
  split
  · exact keeps_skip
  · refine keeps_write fun b h => h.setLine ?_
    rw [h.room]
    exact h.line.add (Nat.sub_le _ _) text

theorem bounded_addOuter : Keeps (Bounded n) (addOuterPending text) := by
  unfold addOuterPending
  split
  · exact keeps_skip
  · refine keeps_write fun b h => h.setOuter ?_
    rw [h.room]
    exact h.outer.add (Nat.sub_le _ _) text

theorem bounded_move : Keeps (Bounded n) moveLinePendingToOuter := by
  refine keeps_look fun b hb => ?_
  split
  · exact keeps_skip
  · refine keeps_andThen (keeps_write fun c h => ?_)
      (keeps_andThen (keeps_each _ fun part _ => keeps_write fun c h => ?_) bounded_discardLine)
    · exact h.setOuter ⟨h.outer.retained, h.outer.le⟩
    · rw [hb.room]
      exact h.setOuter (h.outer.keep (Nat.sub_le _ _) part)

theorem bounded_append : Keeps (Bounded n) (appendCommitted text) := by
  unfold appendCommitted
  split
  · exact keeps_skip
  · refine keeps_andThen (keeps_write fun b h => { h with }) (keeps_write fun b h => ?_)
    refine h.commitPart ?_
    have hcut : (prefixForPending text b.retentionRoom 0).length ≤ n - b.retainedChars := by
      rw [prefixForPending_eq, less_zero, h.room]
      exact cap_length_le _ text
    have := h.le
    omega

theorem bounded_takeParts (parts : List (List Char)) (remaining : Nat) (h : Bounded n b)
    (hfits : b.retainedChars + remaining ≤ n) :
    ∀ c ∈ each (fun part => write (Builder.commitPart part)) (takeParts remaining parts) b,
      Bounded n c := by
  induction parts generalizing remaining b with
  | nil => exact fun _ h => absurd h not_mem_nil
  | cons part rest ih =>
    unfold takeParts
    split
    · exact fun _ h => absurd h not_mem_nil
    · intro c hc
      have hlength : (part.take remaining).length ≤ remaining := length_take_le _ _
      have hpart : Bounded n (b.commitPart (part.take remaining)) := h.commitPart (by omega)
      rcases mem_append.mp hc with hfirst | hmore
      · rw [mem_singleton.mp hfirst]
        exact hpart
      · refine ih (remaining - (part.take remaining).length) hpart ?_ c hmore
        have hused : (b.commitPart (part.take remaining)).retainedChars
            = b.retainedChars + (part.take remaining).length := by
          unfold Builder.commitPart
          split
          · next hnil => rw [hnil]; rfl
          · rfl
        omega

theorem bounded_commit : Keeps (Bounded n) commitOuterPending := by
  intro b hb c hc
  unfold commitOuterPending look at hc
  by_cases hcount : b.outer.count = 0
  · simp only [if_pos hcount] at hc
    exact absurd hc not_mem_nil
  · simp only [if_neg hcount] at hc
    have hcounted : Bounded n (b.countChars b.outer.count) := { hb with }
    rw [hb.room] at hc
    have hparts := bounded_takeParts b.outer.parts (n - b.retainedChars) hcounted
      (Nat.add_sub_cancel' hb.le).le
    -- The pieces that are kept fit together, and then the buffer is emptied.
    rcases mem_append.mp hc with hfirst | hrest
    · rw [mem_singleton.mp hfirst]
      exact hcounted
    · rcases mem_append.mp hrest with hpiece | hdone
      · exact hparts c hpiece
      · refine bounded_discardOuter _ ?_ c hdone
        rcases last_eq_or_mem (each (fun part => write (Builder.commitPart part))
          (keptParts (some (n - b.retainedChars)) b.outer.parts))
          (b.countChars b.outer.count) with heq | hmem
        · exact heq ▸ hcounted
        · exact hparts _ hmem

theorem bounded_confirm : Keeps (Bounded n) (confirmNonWhitespace text) := by
  refine keeps_andThen bounded_move (keeps_look fun b _ => ?_)
  split
  · exact keeps_andThen bounded_commit (bounded_append text)
  · refine keeps_andThen bounded_discardOuter ?_
    dsimp only
    split
    · exact keeps_skip
    · exact keeps_andThen (keeps_write fun _ h => { h with }) (bounded_append _)

theorem bounded_segment : Keeps (Bounded n) (feedLineSegment text) := by
  unfold feedLineSegment
  split
  · exact keeps_skip
  · refine keeps_andThen ?_ (bounded_addLine _)
    split
    · exact keeps_skip
    · exact bounded_confirm _

theorem bounded_normalized : Keeps (Bounded n) (feedNormalized text) := by
  refine keeps_andThen ?_ (keeps_andThen (keeps_each _ fun pair _ => ?_) (bounded_segment _))
  · split
    · exact keeps_write fun _ h => { h with }
    · exact keeps_skip
  · exact keeps_andThen (bounded_segment _) (keeps_andThen bounded_discardLine (bounded_addOuter _))

theorem bounded_chunk : Keeps (Bounded n) (feedChunk text) := by
  unfold feedChunk
  split
  · exact keeps_skip
  · refine keeps_look fun b _ => ?_
    split
    · dsimp only
      generalize (if text.head? = some '\n' then text.tail else text) = rest
      refine keeps_andThen (keeps_andThen bounded_discardLine (bounded_addOuter _))
        (keeps_andThen (keeps_write fun _ h => { h with }) ?_)
      split
      · exact keeps_skip
      · exact bounded_normalized _
    · exact bounded_normalized text

theorem bounded_normalizeRun (chunks : List String) : Keeps (Bounded n) (normalizeRun chunks) :=
  keeps_andThen (keeps_each _ fun _ _ => keeps_each _ fun part _ => bounded_chunk part)
    (keeps_andThen bounded_discardLine bounded_discardOuter)

theorem pieces_flatten (size : Nat) (hsize : 0 < size) (text : List Char) :
    (pieces size text).flatten = text := by
  have hfirst : ∀ k, ((range k).map fun i => (text.drop (i * size)).take size).flatten
      = text.take (k * size) := by
    intro k
    induction k with
    | zero => rw [Nat.zero_mul, take_zero]; rfl
    | succ k ih =>
      rw [range_succ, map_append, flatten_append, ih, Nat.succ_mul, take_add]
      simp only [map_cons, map_nil, flatten_cons, flatten_nil, append_nil]
  rw [pieces, hfirst]
  refine take_of_length_le ?_
  have h := Nat.div_add_mod (text.length + size - 1) size
  have hmod := Nat.mod_lt (text.length + size - 1) hsize
  rw [Nat.mul_comm] at h
  omega

theorem fed_texts {limit : Option Nat} (chunks : List String) {t : List Char} (h : Fed limit t b) :
    Fed limit (t ++ (chunks.map String.toList).flatten) ((each feed chunks).last b) := by
  induction chunks generalizing t b with
  | nil =>
    rw [map_nil, flatten_nil, append_nil]
    exact h
  | cons chunk rest ih =>
    have hchunk := fed_chunks (pieces normalizeChunkChars chunk.toList) h
    rw [pieces_flatten _ (by decide)] at hchunk
    have hrest := ih hchunk
    rw [append_assoc] at hrest
    rw [each, last_andThen, map_cons, flatten_cons]
    exact hrest

theorem Fed.settled {limit : Option Nat} {t : List Char} (h : Fed limit t b) :
    ∃ g, Holds limit g b ∧ g.settled = trimLines isPySpace '\n' (lineFeeds t) := by
  have hspace : isPySpace '\n' = true := by decide
  rcases h with ⟨_, _, h⟩ | ⟨_, u, rfl, h⟩
  · exact ⟨_, h, settled_eq hspace _⟩
  · -- A line end at the end of the document settles nothing.
    refine ⟨_, h, ?_⟩
    rw [lineFeeds_append u _ (Or.inr (by simp)), ← settled_eq hspace, foldl_append]
    rfl

theorem cap_limit (maxChars : Option Int) (text : List Char) :
    cap (Builder.new maxChars).limit text = firstChars maxChars text := by
  unfold firstChars
  cases maxChars with
  | none => rfl
  | some n =>
    by_cases hn : n < 0
    · have hlimit : (Builder.new (some n)).limit = none := if_neg (Int.not_le.mpr hn)
      rw [hlimit]
      exact (if_pos hn).symm
    · have hlimit : (Builder.new (some n)).limit = some n.toNat := if_pos (Int.not_lt.mp hn)
      rw [hlimit]
      exact (if_neg hn).symm

theorem normalizeChunks_eq (maxChars : Option Int) (chunks : List String) :
    normalizeChunks maxChars chunks
      = ⟨ofList (firstChars maxChars (normalForm (join chunks))),
        (normalForm (join chunks)).length⟩ := by
  have hfresh : Fed (Builder.new maxChars).limit [] (Builder.new maxChars) :=
    Or.inl ⟨rfl, by simp, holds_new maxChars⟩
  rcases (fed_texts chunks hfresh).settled with ⟨g, hholds, hsettled⟩
  have hfinished := holds_discardOuter (holds_discardLine hholds)
  have hform : g.settled = normalForm (join chunks) := by
    rw [hsettled, normalForm, String.toList_join, nil_append, flatMap_def]
    rfl
  have hparts := hfinished.parts
  have hcount := hfinished.count
  simp only [cap_limit, hform] at hparts hcount
  unfold normalizeChunks normalizeRun finish Builder.result
  rw [last_andThen, last_andThen, hparts, hcount]

/-- A plain text file is normalised as one text, however its decoder cuts it; a
    limit that is not positive is none. -/
theorem extractPlaintext_eq (decoded : List String) (maxChars : Int) :
    extractPlaintext decoded maxChars
      = ⟨ofList (if maxChars > 0
          then (normalForm (join decoded)).take maxChars.toNat
          else normalForm (join decoded)), (normalForm (join decoded)).length⟩ := by
  unfold extractPlaintext
  rw [normalizeChunks_eq]
  by_cases hpos : maxChars > 0
  · have hfirst : firstChars (some maxChars) (normalForm (join decoded))
        = (normalForm (join decoded)).take maxChars.toNat := if_neg (by omega)
    rw [if_pos hpos, if_pos hpos, hfirst]
  · rw [if_neg hpos, if_neg hpos]
    rfl

/-- However a text is cut into chunks, the builder gives the first characters
    of its normal form and the length of all of it, and while it is fed its
    buffers never hold more than three times the limit. -/
theorem normalise_chunks (maxChars : Option Int) (chunks : List String) :
    normalizeChunks maxChars chunks
        = ⟨ofList (firstChars maxChars (normalForm (join chunks))),
          (normalForm (join chunks)).length⟩
      ∧ ∀ n : Nat, maxChars = some (n : Int) →
          ∀ b ∈ Builder.new maxChars :: normalizeRun chunks (Builder.new maxChars),
            b.held ≤ 3 * n := by
  refine ⟨normalizeChunks_eq maxChars chunks, fun n hn b hb => ?_⟩
  subst hn
  have hnew : Bounded n (Builder.new (some (n : Int))) := by
    refine ⟨?_, rfl, Nat.zero_le n, pendingBounded_empty n, pendingBounded_empty n⟩
    have hlimit : (Builder.new (some (n : Int))).limit = some (n : Int).toNat := by
      simp only [Builder.new, ge_iff_le, Int.natCast_nonneg, if_true]
    rw [hlimit, Int.toNat_natCast]
  rcases mem_cons.mp hb with rfl | hmem
  · exact hnew.held_le
  · exact (bounded_normalizeRun chunks _ hnew b hmem).held_le

end Apex.Services
