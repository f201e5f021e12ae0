import Mathlib.Data.List.Pairwise
import Mathlib.Data.List.Sort

/-!
# Timelines

A timeline is a list of spans of time, each with a value. A span is half open and may
have no end. As long as the spans are apart it does not matter in which order they are
looked through for the one that covers an instant.

Splicing a span into a timeline cuts away what it covers of the others, which leaves up
to two pieces of each of them, and adds it. What the timeline says at an instant is then
what the new span says where it covers the instant, and what the old one said elsewhere.

## Main definitions

* `Span.covers`, `Span.Proper`: Membership, and that there is any.
* `Apart`, `Before`: Two spans that share no instant, and one that ends before the other.
* `Span.outside`: What another span leaves of a span.

## Theorems

* `Span.covers_outside`: The pieces cover what is not cut away.
* `apart_splice`: A spliced timeline is apart.
* `valueAt_splice`: What it says.
* `isTimeline_of_apart`: Proper spans that are apart form a timeline once they are sorted.
-/

namespace Apex

open List Option

universe u v

/-- A half-open span of time, without an end if `stop` is missing, and its value. -/
structure Span (T : Type u) (V : Type v) where
  start : T
  stop : Option T
  value : V

namespace Span

variable {T : Type u} {V : Type v} [LinearOrder T]

def covers (s : Span T V) (t : T) : Bool := s.start ≤ t && s.stop.all (t < ·)

def Proper (s : Span T V) : Prop := ∀ e ∈ s.stop, s.start < e

variable {s cut p a b : Span T V} {t : T}

theorem covers_iff : s.covers t = true ↔ s.start ≤ t ∧ ∀ e ∈ s.stop, t < e := by
  rw [covers, Bool.and_eq_true, decide_eq_true_eq, Option.all_eq_true]
  simp only [decide_eq_true_eq, mem_def]

theorem Proper.covers_start (h : s.Proper) : s.covers s.start = true :=
  covers_iff.mpr ⟨le_rfl, h⟩

/-- What the span `cut` leaves of a span: the span itself where they do not meet, and
    otherwise what is before the start and what is after the end. -/
def outside (cut s : Span T V) : List (Span T V) :=
  if s.stop.any (· ≤ cut.start) || cut.stop.any (· ≤ s.start) then [s]
  else
    (if s.start < cut.start then [{ s with stop := some cut.start }] else []) ++ match cut.stop with
      | some e => if s.stop.all (e < ·) then [{ s with start := e }] else []
      | none => []

theorem value_outside (h : p ∈ cut.outside s) : p.value = s.value := by
  unfold outside at h
  split at h
  · rw [mem_singleton.mp h]
  · rcases mem_append.mp h with h | h
    · split at h
      · rw [mem_singleton.mp h]
      · exact absurd h not_mem_nil
    · split at h
      · split at h
        · rw [mem_singleton.mp h]
        · exact absurd h not_mem_nil
      · exact absurd h not_mem_nil

theorem meets_iff :
    ¬ (s.stop.any (· ≤ cut.start) || cut.stop.any (· ≤ s.start)) = true ↔
      (∀ e ∈ s.stop, cut.start < e) ∧ ∀ e ∈ cut.stop, s.start < e := by
  simp only [Bool.or_eq_true, Option.any_eq_true, decide_eq_true_eq, not_or, not_exists, not_and,
    not_le, mem_def]

theorem covers_outside :
    (∃ p ∈ cut.outside s, p.covers t = true) ↔ s.covers t = true ∧ ¬ cut.covers t = true := by
  unfold outside
  split
  case isTrue h =>
    simp only [mem_singleton, exists_eq_left]
    refine ⟨fun hs => ⟨hs, fun hc => ?_⟩, And.left⟩
    rw [covers_iff] at hs hc
    rcases Bool.or_eq_true_iff.mp h with h | h
    · rcases (Option.any_eq_true _ _).mp h with ⟨e, he, hle⟩
      exact absurd (hs.2 e he) (not_lt.mpr ((of_decide_eq_true hle).trans hc.1))
    · rcases (Option.any_eq_true _ _).mp h with ⟨e, he, hle⟩
      exact absurd (hc.2 e he) (not_lt.mpr ((of_decide_eq_true hle).trans hs.1))
  case isFalse h =>
    rcases meets_iff.mp h with ⟨hstop, hstart⟩
    constructor
    · rintro ⟨p, hp, hcovers⟩
      rcases mem_append.mp hp with hp | hp
      · -- The piece before the cut.
        split at hp
        · rw [mem_singleton.mp hp, covers_iff] at hcovers
          have hlt := hcovers.2 cut.start rfl
          refine ⟨covers_iff.mpr ⟨hcovers.1, fun e he => hlt.trans (hstop e he)⟩, fun hc => ?_⟩
          exact absurd (covers_iff.mp hc).1 (not_le.mpr hlt)
        · exact absurd hp not_mem_nil
      · -- The piece after the cut.
        split at hp
        · next e he =>
            split at hp
            · rw [mem_singleton.mp hp, covers_iff] at hcovers
              refine ⟨covers_iff.mpr ⟨(hstart e he).le.trans hcovers.1, hcovers.2⟩, fun hc => ?_⟩
              exact absurd ((covers_iff.mp hc).2 e he) (not_lt.mpr hcovers.1)
            · exact absurd hp not_mem_nil
        · exact absurd hp not_mem_nil
    · rintro ⟨hs, hc⟩
      rw [covers_iff] at hs
      by_cases hlt : t < cut.start
      · refine ⟨{ s with stop := some cut.start }, mem_append_left _ ?_, covers_iff.mpr
          ⟨hs.1, fun e he => by rwa [← mem_some.mp he]⟩⟩
        rw [if_pos (hs.1.trans_lt hlt)]
        exact mem_singleton_self _
      · have hend : ∃ e ∈ cut.stop, e ≤ t := by
          by_contra hnone
          push Not at hnone
          exact hc (covers_iff.mpr ⟨not_lt.mp hlt, hnone⟩)
        rcases hend with ⟨e, he, hle⟩
        refine ⟨{ s with start := e }, mem_append_right _ ?_, covers_iff.mpr ⟨hle, hs.2⟩⟩
        rw [mem_def.mp he]
        dsimp only
        rw [if_pos]
        · exact mem_singleton_self _
        · rw [Option.all_eq_true]
          exact fun f hf => decide_eq_true (hle.trans_lt (hs.2 f hf))

theorem Proper.outside (h : s.Proper) : ∀ p ∈ cut.outside s, p.Proper := by
  intro p hp
  unfold Span.outside at hp
  split at hp
  · rwa [mem_singleton.mp hp]
  · rcases mem_append.mp hp with hp | hp
    · split at hp
      · next hlt =>
          rw [mem_singleton.mp hp]
          exact fun e he => by rwa [← mem_some.mp he]
      · exact absurd hp not_mem_nil
    · split at hp
      · split at hp
        · next hall =>
            rw [mem_singleton.mp hp]
            exact fun f hf => of_decide_eq_true ((Option.all_eq_true _ _).mp hall f hf)
        · exact absurd hp not_mem_nil
      · exact absurd hp not_mem_nil

def Apart (a b : Span T V) : Prop := ∀ t, a.covers t = true → b.covers t = true → False

/-- A span that ends before another one starts. -/
def Before (a b : Span T V) : Prop := ∃ e ∈ a.stop, e ≤ b.start

theorem Apart.symm (h : Apart a b) : Apart b a := fun t hb ha => h t ha hb

instance : Std.Symm (Apart : Span T V → Span T V → Prop) := ⟨fun _ _ h => h.symm⟩

theorem Before.apart (h : Before a b) : Apart a b := by
  rcases h with ⟨e, he, hle⟩
  intro t ha hb
  exact absurd ((covers_iff.mp ha).2 e he) (not_lt.mpr (hle.trans (covers_iff.mp hb).1))

theorem Apart.before (h : Apart a b) (hb : b.Proper) (hle : a.start ≤ b.start) :
    Before a b := by
  by_contra hnot
  refine h b.start (covers_iff.mpr ⟨hle, fun e he => ?_⟩) hb.covers_start
  exact lt_of_not_ge fun hge => hnot ⟨e, he, hge⟩

theorem Apart.outside {q : Span T V} (h : Apart a b) (hp : p ∈ cut.outside a)
    (hq : q ∈ cut.outside b) : Apart p q := fun t hpt hqt =>
  h t (covers_outside.mp ⟨p, hp, hpt⟩).1 (covers_outside.mp ⟨q, hq, hqt⟩).1

theorem apart_pieces (hcut : cut.Proper) : (cut.outside s).Pairwise Apart := by
  unfold Span.outside
  split
  · exact pairwise_singleton _ _
  · rw [pairwise_append]
    refine ⟨?_, ?_, fun p hp q hq => ?_⟩
    · split
      · exact pairwise_singleton _ _
      · exact Pairwise.nil
    · split
      · split
        · exact pairwise_singleton _ _
        · exact Pairwise.nil
      · exact Pairwise.nil
    · refine Before.apart ?_
      split at hp
      · rw [mem_singleton.mp hp]
        split at hq
        · next e he =>
            split at hq
            · rw [mem_singleton.mp hq]
              exact ⟨cut.start, rfl, (hcut e he).le⟩
            · exact absurd hq not_mem_nil
        · exact absurd hq not_mem_nil
      · exact absurd hp not_mem_nil

end Span

section Timelines

variable {T : Type u} {V : Type v} [LinearOrder T] {l l' : List (Span T V)} {cut : Span T V}

open Span

/-- Proper spans, each before the next: only the last one can be without an end. -/
structure IsTimeline (l : List (Span T V)) : Prop where
  proper : ∀ s ∈ l, s.Proper
  before : l.Pairwise Before

/-- What is said at an instant: the value of the first span that covers it. -/
def valueAt (l : List (Span T V)) (t : T) : Option V := (l.find? (·.covers t)).map Span.value

def splice (l : List (Span T V)) (cut : Span T V) : List (Span T V) := l.flatMap cut.outside ++ [cut]

theorem IsTimeline.apart (h : IsTimeline l) : l.Pairwise Apart := h.before.imp Before.apart

theorem isTimeline_of_apart (hproper : ∀ s ∈ l, s.Proper) (hapart : l.Pairwise Apart)
    (hsorted : l.Pairwise (·.start ≤ ·.start)) : IsTimeline l := by
  refine ⟨hproper, ?_⟩
  have hmem : l.Pairwise (fun _ b => b ∈ l) := pairwise_of_forall_mem_list fun _ _ b hb => hb
  exact (hapart.and (hsorted.and hmem)).imp fun h => h.1.before (hproper _ h.2.2) h.2.1

theorem valueAt_iff (h : l.Pairwise Apart) {t : T} {v : V} :
    valueAt l t = some v ↔ ∃ s ∈ l, s.covers t = true ∧ s.value = v := by
  rw [valueAt, map_eq_some_iff]
  constructor
  · rintro ⟨s, hs, hv⟩
    exact ⟨s, mem_of_find?_eq_some hs, (find?_eq_some_iff_append.mp hs).1, hv⟩
  · rintro ⟨s, hs, ht, hv⟩
    have hsome : (l.find? (·.covers t)).isSome := find?_isSome.mpr ⟨s, hs, ht⟩
    rcases isSome_iff_exists.mp hsome with ⟨s', hs'⟩
    have heq : s' = s := by
      by_contra hne
      exact h.forall (mem_of_find?_eq_some hs') hs hne t (find?_eq_some_iff_append.mp hs').1 ht
    exact ⟨s', hs', heq ▸ hv⟩

theorem valueAt_perm (h : l.Pairwise Apart) (hperm : l.Perm l') (t : T) :
    valueAt l t = valueAt l' t := by
  have h' : l'.Pairwise Apart := (hperm.pairwise_iff fun h => h.symm).mp h
  refine Option.ext fun v => ?_
  rw [valueAt_iff h, valueAt_iff h']
  simp only [hperm.mem_iff]

theorem proper_splice (h : ∀ s ∈ l, s.Proper) (hcut : cut.Proper) :
    ∀ s ∈ splice l cut, s.Proper := by
  intro s hs
  rcases mem_append.mp hs with hs | hs
  · rcases mem_flatMap.mp hs with ⟨s₀, hs₀, hp⟩
    exact (h s₀ hs₀).outside s hp
  · rwa [mem_singleton.mp hs]

theorem apart_splice (h : l.Pairwise Apart) (hcut : cut.Proper) :
    (splice l cut).Pairwise Apart := by
  have hpieces : l.Pairwise (fun a b => ∀ p ∈ cut.outside a, ∀ q ∈ cut.outside b, Apart p q) :=
    h.imp fun {_ _} (hab : Apart _ _) _ hp _ hq => Apart.outside hab hp hq
  rw [splice, pairwise_append, pairwise_flatMap]
  refine ⟨⟨fun s _ => apart_pieces hcut, hpieces⟩,
    pairwise_singleton _ _, fun p hp q hq t hpt hqt => ?_⟩
  rcases mem_flatMap.mp hp with ⟨s, _, hp⟩
  rw [mem_singleton.mp hq] at hqt
  exact (covers_outside.mp ⟨p, hp, hpt⟩).2 hqt

theorem valueAt_splice (h : l.Pairwise Apart) (hcut : cut.Proper) (t : T) :
    valueAt (splice l cut) t = if cut.covers t then some cut.value else valueAt l t := by
  refine Option.ext fun v => ?_
  rw [valueAt_iff (apart_splice h hcut)]
  by_cases ht : cut.covers t = true
  · rw [if_pos ht, some.injEq]
    constructor
    · rintro ⟨s, hs, hst, hv⟩
      rcases mem_append.mp hs with hs | hs
      · rcases mem_flatMap.mp hs with ⟨s₀, _, hp⟩
        exact absurd ht (covers_outside.mp ⟨s, hp, hst⟩).2
      · rwa [mem_singleton.mp hs] at hv
    · exact fun hv => ⟨cut, mem_append_right _ (mem_singleton_self _), ht, hv⟩
  · rw [if_neg ht, valueAt_iff h]
    constructor
    · rintro ⟨s, hs, hst, hv⟩
      rcases mem_append.mp hs with hs | hs
      · rcases mem_flatMap.mp hs with ⟨s₀, hs₀, hp⟩
        exact ⟨s₀, hs₀, (covers_outside.mp ⟨s, hp, hst⟩).1, value_outside hp ▸ hv⟩
      · rw [mem_singleton.mp hs] at hst
        exact absurd hst ht
    · rintro ⟨s₀, hs₀, hst, hv⟩
      rcases covers_outside.mpr ⟨hst, ht⟩ with ⟨p, hp, hpt⟩
      exact ⟨p, mem_append_left _ (mem_flatMap.mpr ⟨s₀, hs₀, hp⟩), hpt, value_outside hp ▸ hv⟩

end Timelines

end Apex
