import Apex.Theory.TextExtraction.Buffers

/-!
# Normalisation in Chunks

Feeding a text chunk by chunk gathers what reading it as a whole would gather.

Every method of the builder gathers what reading its symbols one by one would
gather (`holds_segment`, `holds_runs`), so it does not matter which symbols come
together. The one thing that looks across a chunk's end is a carriage return:
it is the end of a line by itself, or half of one. The builder defers it, and
`Fed` says what it has gathered then: the text in front of it.

## Main definitions

* `lineFeeds`: A text with LF as its only line end.
* `Fed`: What a builder has gathered of a raw text.

## Theorems

* `holds_segment`: A text without line ends, fed at once.
* `fed_chunk`: One chunk.
* `fed_chunks`: Any number of chunks.
-/

namespace Apex.Services

open List Option
open Apex.Trail

def gather (g : Gathered Char) (text : List Char) : Gathered Char :=
  text.foldl (Gathered.take isPySpace '\n') g

theorem gather_append (g : Gathered Char) (s t : List Char) :
    gather g (s ++ t) = gather (gather g s) t := foldl_append

section

variable {limit : Option Nat} {g : Gathered Char} {b : Builder}

/-- A text that ends in a character that is not white space settles what waits
    in front of it. -/
theorem holds_confirm (h : Holds limit g b) {core : List Char}
    (hcore : core.rdropWhile isPySpace ≠ []) :
    Holds limit ⟨true, if g.started then g.settled ++ g.outer ++ g.line ++ core
        else core.dropWhile isPySpace, [], []⟩ ((confirmNonWhitespace core).last b) := by
  have hmoved := holds_move h
  rw [confirmNonWhitespace, last_andThen, last_look, hmoved.started]
  cases hstarted : g.started with
  | true =>
    simp only [if_true, last_andThen]
    have hcommit := holds_commit hmoved hstarted rfl
    have happend := holds_append hcommit hstarted rfl rfl core
    simp only [hstarted, append_assoc] at happend ⊢
    exact happend
  | false =>
    -- The first character that is not white space is in the text.
    have hne : core.dropWhile isPySpace ≠ [] := by
      intro hnil
      exact hcore (rdropWhile_eq_nil_iff.mpr (dropWhile_eq_nil_iff.mp hnil))
    simp only [Bool.false_eq_true, if_false, last_andThen, if_neg hne, last_write]
    have hdropped := holds_discardOuter hmoved
    have hstart : Holds limit { g with started := true, outer := [], line := [] }
        (Builder.start (discardOuterPending.last (moveLinePendingToOuter.last b))) :=
      { hdropped with started := rfl, blank := fun h => absurd h (by simp) }
    have happend := holds_append hstart rfl rfl rfl (core.dropWhile isPySpace)
    rw [h.blank hstarted, nil_append] at happend
    exact happend

theorem holds_segment (h : Holds limit g b) {text : List Char} (hline : '\n' ∉ text) :
    Holds limit (gather g text) ((feedLineSegment text).last b) := by
  have htail : text.drop (text.rdropWhile isPySpace).length = text.rtakeWhile isPySpace := by
    have hsplit : text.rdropWhile isPySpace ++ text.rtakeWhile isPySpace = text :=
      rdropWhile_append_rtakeWhile
    have h : List.drop (text.rdropWhile isPySpace).length
        (text.rdropWhile isPySpace ++ text.rtakeWhile isPySpace) = text.rtakeWhile isPySpace :=
      drop_left
    rwa [hsplit] at h
  unfold feedLineSegment gather
  rw [take_segment g text hline]
  by_cases htext : text = []
  · subst htext
    simp only [rdropWhile_nil, if_true, rtakeWhile_nil, append_nil, last_skip]
    exact h
  · simp only [if_neg htext, last_andThen, htail]
    by_cases hcore : text.rdropWhile isPySpace = []
    · simp only [if_pos hcore, last_skip]
      exact holds_addLine h _
    · simp only [if_neg hcore]
      have hkept : (text.rdropWhile isPySpace).rdropWhile isPySpace ≠ [] := by
        rw [rdropWhile_idempotent]
        exact hcore
      have hconfirmed := holds_addLine (holds_confirm h hkept) (text.rtakeWhile isPySpace)
      rw [nil_append] at hconfirmed
      exact hconfirmed

theorem holds_run (h : Holds limit g b) {run : List Char} (hne : run ≠ [])
    (hrun : ∀ c ∈ run, c = '\n') :
    Holds limit (gather g run) ((discardLinePending.andThen (addOuterPending run)).last b) := by
  rw [gather, take_newlines g run hne hrun, last_andThen]
  exact holds_addOuter (holds_discardLine h) run

/-- A part of a line and the run of line ends behind it. -/
def LineRun (pair : List Char × List Char) : Prop :=
  '\n' ∉ pair.1 ∧ pair.2 ≠ [] ∧ ∀ c ∈ pair.2, c = '\n'

theorem lineRun_newline : LineRun ([], ['\n']) :=
  ⟨not_mem_nil, cons_ne_nil _ _, fun _ h => mem_singleton.mp h⟩

theorem LineRun.newline {run : List Char} (h : LineRun ([], run)) : LineRun ([], '\n' :: run) := by
  refine ⟨not_mem_nil, cons_ne_nil _ _, fun c hc => ?_⟩
  rcases mem_cons.mp hc with rfl | hmem
  · rfl
  · exact h.2.2 c hmem

theorem not_mem_cons_newline {c : Char} {text : List Char} (hc : c ≠ '\n') (h : '\n' ∉ text) :
    '\n' ∉ c :: text := by
  rw [mem_cons]
  rintro (heq | hmem)
  · exact hc heq.symm
  · exact h hmem

/-- The text that runs and what is behind them were found in. -/
def joinRuns (found : List (List Char × List Char) × List Char) : List Char :=
  (found.1.map fun pair => pair.1 ++ pair.2).flatten ++ found.2

theorem newlineRuns_spec (text : List Char) :
    joinRuns (newlineRuns text) = text ∧ (∀ pair ∈ (newlineRuns text).1, LineRun pair)
      ∧ '\n' ∉ (newlineRuns text).2 := by
  induction text with
  | nil => exact ⟨rfl, fun _ h => absurd h not_mem_nil, not_mem_nil⟩
  | cons c rest ih =>
    rcases hrest : newlineRuns rest with ⟨runs, tail⟩
    rw [hrest] at ih
    rcases ih with ⟨htext, hpairs, htail⟩
    simp only [newlineRuns, hrest]
    cases runs with
    | nil =>
      by_cases hc : c = '\n'
      · simp only [if_pos hc]
        refine ⟨congrArg (c :: ·) htext, ?_, htail⟩
        rw [hc]
        exact forall_mem_singleton.mpr lineRun_newline
      · simp only [if_neg hc]
        exact ⟨congrArg (c :: ·) htext, hpairs, not_mem_cons_newline hc htail⟩
    | cons pair more =>
      rcases pair with ⟨segment, run⟩
      rcases forall_mem_cons.mp hpairs with ⟨hpair, hmore⟩
      by_cases hc : c = '\n'
      · by_cases hsegment : segment = []
        · simp only [if_pos hc, if_pos hsegment]
          subst hsegment
          refine ⟨congrArg (c :: ·) htext, forall_mem_cons.mpr ⟨?_, hmore⟩, htail⟩
          rw [hc]
          exact hpair.newline
        · simp only [if_pos hc, if_neg hsegment]
          refine ⟨congrArg (c :: ·) htext, forall_mem_cons.mpr ⟨?_, hpairs⟩, htail⟩
          rw [hc]
          exact lineRun_newline
      · simp only [if_neg hc]
        exact ⟨congrArg (c :: ·) htext,
          forall_mem_cons.mpr ⟨⟨not_mem_cons_newline hc hpair.1, hpair.2⟩, hmore⟩, htail⟩

theorem holds_runs (runs : List (List Char × List Char)) (h : Holds limit g b)
    (hruns : ∀ pair ∈ runs, LineRun pair) :
    Holds limit (gather g (runs.map fun pair => pair.1 ++ pair.2).flatten)
      ((each (fun (segment, run) =>
        (feedLineSegment segment).andThen (discardLinePending.andThen (addOuterPending run)))
        runs).last b) := by
  induction runs generalizing g b with
  | nil => exact h
  | cons pair more ih =>
    rcases pair with ⟨segment, run⟩
    rcases hruns _ mem_cons_self with ⟨hsegment, hne, hrun⟩
    have hpair := holds_run (holds_segment h hsegment) hne hrun
    have hmore := ih hpair fun pair hpair => hruns pair (mem_cons_of_mem _ hpair)
    rw [← gather_append, ← gather_append] at hmore
    simp only [each, last_andThen, map_cons, flatten_cons, append_assoc] at hmore ⊢
    exact hmore

theorem holds_setPendingCr (h : Holds limit g b) (pending : Bool) :
    Holds limit g (b.setPendingCr pending) :=
  ⟨h.bound, h.parts, h.retained, h.count, h.started, h.blank, h.outer, h.line⟩

theorem holds_found (h : Holds limit g b) (text : List Char) :
    Holds limit (gather g text)
      (((each (fun (segment, run) =>
        (feedLineSegment segment).andThen (discardLinePending.andThen (addOuterPending run)))
        (newlineRuns text).1).andThen (feedLineSegment (newlineRuns text).2)).last b) := by
  rcases newlineRuns_spec text with ⟨htext, hruns, htail⟩
  rw [last_andThen]
  have hall := holds_segment (holds_runs (newlineRuns text).1 h hruns) htail
  rw [← gather_append] at hall
  unfold joinRuns at htext
  rwa [htext] at hall

end

variable (text : List Char)

def lineFeeds : List Char := replaceCr (replaceCrLf text)

theorem replaceCrLf_cons {c : Char} {rest : List Char}
    (h : c ≠ '\r' ∨ rest.head? ≠ some '\n') : replaceCrLf (c :: rest) = c :: replaceCrLf rest := by
  refine replaceCrLf.eq_3 c rest fun more hc hrest => ?_
  rcases h with h | h
  · exact h hc
  · exact h (by rw [hrest]; rfl)

theorem replaceCrLf_append (s t : List Char) (h : s.getLast? ≠ some '\r' ∨ t.head? ≠ some '\n') :
    replaceCrLf (s ++ t) = replaceCrLf s ++ replaceCrLf t := by
  induction s using replaceCrLf.induct with
  | case1 => rfl
  | case2 rest ih =>
    refine congrArg ('\n' :: ·) (ih ?_)
    refine h.imp (fun hlast hrest => hlast ?_) fun hhead => hhead
    rw [getLast?_cons_cons, getLast?_cons, hrest]
    rfl
  | case3 c rest hne ih =>
    have hcut : c ≠ '\r' ∨ (rest ++ t).head? ≠ some '\n' := by
      by_cases hc : c = '\r'
      · refine Or.inr ?_
        cases rest with
        | nil =>
          refine h.resolve_left ?_
          rw [hc]
          exact fun hlast => hlast rfl
        | cons d more =>
          intro hd
          exact hne more hc (congrArg (· :: more) (some.inj hd))
      · exact Or.inl hc
    have hcut' : c ≠ '\r' ∨ rest.head? ≠ some '\n' := by
      refine hcut.imp_right fun happend hrest => happend ?_
      rw [head?_append, hrest]
      rfl
    rw [cons_append, replaceCrLf_cons hcut, replaceCrLf_cons hcut', cons_append, ih]
    refine h.imp_left fun hlast hrest => hlast ?_
    rw [getLast?_cons, hrest]
    rfl

theorem lineFeeds_append (s t : List Char) (h : s.getLast? ≠ some '\r' ∨ t.head? ≠ some '\n') :
    lineFeeds (s ++ t) = lineFeeds s ++ lineFeeds t := by
  rw [lineFeeds, replaceCrLf_append s t h, replaceCr, map_append]
  rfl

/-- What a builder has gathered of a raw text: all of it, or all but the
    carriage return at its end. -/
def Fed (limit : Option Nat) (t : List Char) (b : Builder) : Prop :=
  (b.pendingCr = false ∧ t.getLast? ≠ some '\r' ∧ Holds limit (gather .fresh (lineFeeds t)) b)
  ∨ (b.pendingCr = true ∧ ∃ u, t = u ++ ['\r'] ∧ Holds limit (gather .fresh (lineFeeds u)) b)

def KeepsCr (t : Trail Builder) : Prop := ∀ pending, Keeps (fun b => b.pendingCr = pending) t

theorem keepsCr_addLine : KeepsCr (addLinePending text) := by
  intro pending
  unfold addLinePending
  split
  · exact keeps_skip
  · exact keeps_write fun _ h => h

theorem keepsCr_addOuter : KeepsCr (addOuterPending text) := by
  intro pending
  unfold addOuterPending
  split
  · exact keeps_skip
  · exact keeps_write fun _ h => h

theorem keepsCr_discardLine : KeepsCr discardLinePending := fun _ => keeps_write fun _ h => h

theorem keepsCr_discardOuter : KeepsCr discardOuterPending := fun _ => keeps_write fun _ h => h

theorem commitPart_pendingCr (part : List Char) (b : Builder) :
    (b.commitPart part).pendingCr = b.pendingCr := by
  unfold Builder.commitPart
  split <;> rfl

theorem keepsCr_append : KeepsCr (appendCommitted text) := by
  intro pending
  unfold appendCommitted
  split
  · exact keeps_skip
  · exact keeps_andThen (keeps_write fun _ h => h)
      (keeps_write fun b h => (commitPart_pendingCr _ b).trans h)

theorem keepsCr_move : KeepsCr moveLinePendingToOuter := by
  intro pending
  refine keeps_look fun b _ => ?_
  split
  · exact keeps_skip
  · exact keeps_andThen (keeps_write fun _ h => h)
      (keeps_andThen (keeps_each _ fun _ _ => keeps_write fun _ h => h)
        (keepsCr_discardLine pending))

theorem keepsCr_commit : KeepsCr commitOuterPending := by
  intro pending
  refine keeps_look fun b _ => ?_
  split
  · exact keeps_skip
  · exact keeps_andThen (keeps_write fun _ h => h)
      (keeps_andThen
        (keeps_each _ fun _ _ => keeps_write fun b h => (commitPart_pendingCr _ b).trans h)
        (keepsCr_discardOuter pending))

theorem keepsCr_confirm : KeepsCr (confirmNonWhitespace text) := by
  intro pending
  refine keeps_andThen (keepsCr_move pending) (keeps_look fun b _ => ?_)
  split
  · exact keeps_andThen (keepsCr_commit pending) (keepsCr_append text pending)
  · refine keeps_andThen (keepsCr_discardOuter pending) ?_
    dsimp only
    split
    · exact keeps_skip
    · exact keeps_andThen (keeps_write fun _ h => h) (keepsCr_append _ pending)

theorem keepsCr_segment : KeepsCr (feedLineSegment text) := by
  intro pending
  unfold feedLineSegment
  split
  · exact keeps_skip
  · refine keeps_andThen ?_ (keepsCr_addLine _ pending)
    split
    · exact keeps_skip
    · exact keepsCr_confirm _ pending

theorem keepsCr_found (found : List (List Char × List Char) × List Char) :
    KeepsCr ((each (fun (segment, run) =>
      (feedLineSegment segment).andThen (discardLinePending.andThen (addOuterPending run)))
      found.1).andThen (feedLineSegment found.2)) := by
  intro pending
  refine keeps_andThen (keeps_each _ fun pair _ => ?_) (keepsCr_segment _ pending)
  exact keeps_andThen (keepsCr_segment _ pending)
    (keeps_andThen (keepsCr_discardLine pending) (keepsCr_addOuter _ pending))

variable {limit : Option Nat} {b : Builder}

/-- A chunk, when no carriage return is pending and the chunk does not finish
    one. -/
theorem fed_normalized {t s : List Char} (hs : s ≠ [])
    (hcut : t.getLast? ≠ some '\r' ∨ s.head? ≠ some '\n') (hcr : b.pendingCr = false)
    (h : Holds limit (gather .fresh (lineFeeds t)) b) :
    Fed limit (t ++ s) ((feedNormalized s).last b) := by
  unfold feedNormalized
  by_cases hlast : s.getLast? = some '\r'
  · -- The carriage return at the end waits.
    have hsplit : s.dropLast ++ ['\r'] = s := dropLast_append_getLast? _ hlast
    have hcut' : t.getLast? ≠ some '\r' ∨ s.dropLast.head? ≠ some '\n' := by
      refine hcut.imp_right fun hhead hdrop => hhead ?_
      rw [← hsplit, head?_append, hdrop]
      rfl
    simp only [if_pos hlast]
    rw [last_andThen, last_write]
    have hfound := holds_found (holds_setPendingCr h true) (lineFeeds s.dropLast)
    rw [← gather_append, ← lineFeeds_append t s.dropLast hcut'] at hfound
    refine Or.inr ⟨(keepsCr_found _ true).last _ rfl, t ++ s.dropLast, ?_, hfound⟩
    rw [append_assoc, hsplit]
  · simp only [if_neg hlast]
    rw [last_andThen, last_skip]
    have hfound := holds_found h (lineFeeds s)
    rw [← gather_append, ← lineFeeds_append t s hcut] at hfound
    refine Or.inl ⟨(keepsCr_found _ false).last _ hcr, ?_, hfound⟩
    rw [getLast?_append_of_ne_nil _ hs]
    exact hlast

theorem fed_chunk {t : List Char} (h : Fed limit t b) (s : List Char) :
    Fed limit (t ++ s) ((feedChunk s).last b) := by
  unfold feedChunk
  by_cases hs : s = []
  · rw [if_pos hs, hs, append_nil]
    exact h
  · rw [if_neg hs, last_look]
    rcases h with ⟨hcr, hlast, hholds⟩ | ⟨hcr, u, rfl, hholds⟩
    · rw [hcr]
      exact fed_normalized hs (Or.inl hlast) hcr hholds
    · -- The pending carriage return ends a line, with the LF behind it if there is one.
      have hbreak : Holds limit (gather .fresh (lineFeeds u ++ ['\n']))
          ((lineBreak.last b).setPendingCr false) := by
        rw [gather_append]
        exact holds_setPendingCr (holds_run hholds (cons_ne_nil _ _)
          fun _ h => mem_singleton.mp h) false
      rw [hcr]
      simp only [if_true, last_andThen, last_write]
      have hends : ∀ more,
          lineFeeds (u ++ '\r' :: more) = lineFeeds u ++ lineFeeds ('\r' :: more) :=
        fun more => lineFeeds_append u _ (Or.inr (by simp))
      by_cases hhead : s.head? = some '\n'
      · rcases s with _ | ⟨d, more⟩
        · exact absurd rfl hs
        have hd : d = '\n' := some.inj hhead
        subst hd
        have hread : lineFeeds (u ++ ['\r', '\n']) = lineFeeds u ++ ['\n'] := hends _
        rw [← hread] at hbreak
        have hlast : (u ++ ['\r', '\n']).getLast? ≠ some '\r' := by simp
        simp only [head?_cons, if_true, tail_cons]
        by_cases hmore : more = []
        · rw [if_pos hmore, hmore, last_skip]
          refine Or.inl ⟨rfl, ?_, ?_⟩
          · simp
          · rw [append_assoc]
            exact hbreak
        · rw [if_neg hmore]
          have hfed := fed_normalized hmore (Or.inl hlast) rfl hbreak
          rw [append_assoc] at hfed ⊢
          exact hfed
      · simp only [if_neg hhead, if_neg hs]
        have hread : lineFeeds (u ++ ['\r']) = lineFeeds u ++ ['\n'] := hends _
        rw [← hread] at hbreak
        exact fed_normalized hs (Or.inr hhead) rfl hbreak

theorem fed_chunks (parts : List (List Char)) {t : List Char} (h : Fed limit t b) :
    Fed limit (t ++ parts.flatten) ((each feedChunk parts).last b) := by
  induction parts generalizing t b with
  | nil =>
    rw [flatten_nil, append_nil]
    exact h
  | cons part rest ih =>
    have hrest := ih (fed_chunk h part)
    rw [append_assoc] at hrest
    rw [each, last_andThen]
    exact hrest

end Apex.Services
