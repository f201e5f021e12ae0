import Mathlib.Data.List.DropRight

/-!
# Trimming Lines

Removing the white space at the end of every line of a document and around the
document, all at once and symbol by symbol.

`trimLines` splits the document, trims the lines and joins them again, which
needs the whole document. `Gathered.take` reads one symbol: white space waits,
separately for the unfinished line and for what is in front of it, until a
symbol that is not white space shows that it lies inside the document.
`settled_eq` says that what has been settled after a whole document is the
trimmed document. Nothing is assumed of the symbols except that the line end is
white space.

## Main definitions

* `trim`: A list without the white space around it.
* `trimLines`: A document with its lines and itself trimmed.

## Theorems

* `follows_take`: What a reader knows stays true of one more symbol.
* `settled_eq`: What a reader of a document has settled.
-/

namespace Apex

open List

section

variable {α : Type} [DecidableEq α] (space : α → Bool) (nl : α)

def trim (l : List α) : List α := List.rdropWhile space (List.dropWhile space l)

/-- The lines of a document without the white space at their ends, joined, and
    without the white space around them. -/
def trimLines (t : List α) : List α :=
  trim space ([nl].intercalate ((t.splitOn nl).map (List.rdropWhile space)))

/-- What a reader of a document knows: whether something has been settled, what
    has been, and the white space that waits in front of the unfinished line
    and at the end of it. -/
structure Gathered (α : Type) where
  started : Bool
  settled : List α
  outer : List α
  line : List α

def Gathered.fresh : Gathered α := ⟨false, [], [], []⟩

def Gathered.take (g : Gathered α) (c : α) : Gathered α :=
  if c = nl then { g with outer := g.outer ++ [c], line := [] }
  else if space c then { g with line := g.line ++ [c] }
  else if g.started then ⟨true, g.settled ++ g.outer ++ g.line ++ [c], [], []⟩
  else ⟨true, [c], [], []⟩

variable {l w line t : List α} {lines : List (List α)} {c : α} {g : Gathered α}

omit [DecidableEq α] in
theorem rdropWhile_append_of_all (hw : ∀ c ∈ w, space c = true) :
    rdropWhile space (l ++ w) = rdropWhile space l := by
  rw [rdropWhile, reverse_append, dropWhile_append_of_pos]
  · rfl
  · intro c hc
    exact hw c (mem_reverse.mp hc)

/-- What is left of lines that are finished, with their ends. -/
def closed (lines : List (List α)) : List α :=
  (lines.map fun line => List.rdropWhile space line ++ [nl]).flatten

omit [DecidableEq α] in
theorem closed_append (lines : List (List α)) (line : List α) :
    closed space nl (lines ++ [line]) = closed space nl lines ++ rdropWhile space line ++ [nl] := by
  simp only [closed, map_append, map_cons, map_nil, flatten_append,
    flatten_cons, flatten_nil, append_nil, append_assoc]

omit [DecidableEq α] in
theorem intercalate_eq_closed (lines : List (List α)) (last : List α) :
    [nl].intercalate ((lines ++ [last]).map (rdropWhile space))
      = closed space nl lines ++ rdropWhile space last := by
  induction lines with
  | nil => simp [closed]
  | cons line rest ih =>
    have hne : (rest ++ [last]).map (rdropWhile space) ≠ [] := by simp
    rw [cons_append, map_cons, intercalate_cons_of_ne_nil hne, ih]
    simp [closed]

/-- `t` is finished lines followed by an unfinished one. -/
def Unfinished (t : List α) (lines : List (List α)) (line : List α) : Prop :=
  nl ∉ line ∧ ∃ whole, t = whole ++ line
    ∧ ∀ more, nl ∉ more → (whole ++ more).splitOn nl = lines ++ [more]

theorem unfinished_nil : Unfinished nl [] [] [] :=
  ⟨not_mem_nil, [], rfl, fun _ hmore => splitOn_eq_singleton hmore⟩

theorem Unfinished.splitOn (h : Unfinished nl t lines line) : t.splitOn nl = lines ++ [line] := by
  rcases h with ⟨hline, whole, rfl, hsplit⟩
  exact hsplit line hline

theorem Unfinished.snoc (h : Unfinished nl t lines line) (hc : c ≠ nl) :
    Unfinished nl (t ++ [c]) lines (line ++ [c]) := by
  rcases h with ⟨hline, whole, rfl, hsplit⟩
  refine ⟨?_, whole, append_assoc _ _ _, hsplit⟩
  rw [mem_append, mem_singleton]
  rintro (hmem | rfl)
  · exact hline hmem
  · exact hc rfl

theorem Unfinished.newline
    (h : Unfinished nl t lines line) : Unfinished nl (t ++ [nl]) (lines ++ [line]) [] := by
  refine ⟨not_mem_nil, t ++ [nl], (append_nil _).symm, fun more hmore => ?_⟩
  rw [append_assoc, singleton_append, splitOn_append_cons_self,
    h.splitOn nl, splitOn_eq_singleton hmore]

/-- What a reader knows is true of what it has read: the trimmed document so far
    is white space, what is settled and what waits. -/
structure Follows (t : List α) (g : Gathered α) : Prop where
  reads : ∃ lines line lead, Unfinished nl t lines line
    ∧ closed space nl lines ++ List.rdropWhile space line = lead ++ g.settled ++ g.outer
    ∧ line = List.rdropWhile space line ++ g.line
    ∧ ∀ c ∈ lead, space c = true
  outer : ∀ c ∈ g.outer, space c = true
  line : ∀ c ∈ g.line, space c = true
  started : g.started = true → ∃ a rest, g.settled = a :: rest ∧ space a = false
  settled : List.rdropWhile space g.settled = g.settled
  blank : g.started = false → g.settled = []

theorem follows_fresh : Follows space nl [] Gathered.fresh where
  reads := ⟨[], [], [], unfinished_nil nl, rfl, rfl, fun _ h => absurd h not_mem_nil⟩
  outer := fun _ h => absurd h not_mem_nil
  line := fun _ h => absurd h not_mem_nil
  started := fun h => absurd h Bool.false_ne_true
  settled := rfl
  blank := fun _ => rfl

variable {space nl}

theorem Follows.newline (hnl : space nl = true) (h : Follows space nl t g) :
    Follows space nl (t ++ [nl]) { g with outer := g.outer ++ [nl], line := [] } := by
  rcases h.reads with ⟨lines, line, lead, hline, hread, _, hlead⟩
  refine ⟨⟨lines ++ [line], [], lead, hline.newline nl, ?_, rfl, hlead⟩, ?_,
    fun _ h => absurd h not_mem_nil, h.started, h.settled, h.blank⟩
  · rw [closed_append, hread]
    simp only [rdropWhile_nil, append_nil, append_assoc]
  · intro c hc
    rcases mem_append.mp hc with hmem | hmem
    · exact h.outer c hmem
    · rw [mem_singleton.mp hmem]
      exact hnl

theorem Follows.blank_symbol (hc : c ≠ nl) (hspace : space c = true) (h : Follows space nl t g) :
    Follows space nl (t ++ [c]) { g with line := g.line ++ [c] } := by
  rcases h.reads with ⟨lines, line, lead, hline, hread, hrest, hlead⟩
  refine ⟨⟨lines, line ++ [c], lead, hline.snoc nl hc, ?_, ?_, hlead⟩, h.outer, ?_, h.started,
    h.settled, h.blank⟩
  · rw [rdropWhile_concat_pos _ _ _ hspace]
    exact hread
  · rw [rdropWhile_concat_pos _ _ _ hspace, ← append_assoc, ← hrest]
  · intro d hd
    rcases mem_append.mp hd with hmem | hmem
    · exact h.line d hmem
    · rw [mem_singleton.mp hmem]
      exact hspace

/-- A symbol that is not white space settles what waits, or drops it when it is
    the first one. -/
theorem Follows.symbol (hc : c ≠ nl) (hspace : space c = false) (h : Follows space nl t g) :
    Follows space nl (t ++ [c]) (if g.started
      then ⟨true, g.settled ++ g.outer ++ g.line ++ [c], [], []⟩ else ⟨true, [c], [], []⟩) := by
  rcases h.reads with ⟨lines, line, lead, hline, hread, hrest, hlead⟩
  have hneg : ¬ space c = true := by rw [hspace]; exact Bool.false_ne_true
  have hnew : closed space nl lines ++ rdropWhile space (line ++ [c])
      = lead ++ g.settled ++ g.outer ++ g.line ++ [c] := by
    rw [rdropWhile_concat_neg _ _ _ hneg, ← hread]
    conv_lhs => rw [hrest]
    simp only [append_assoc]
  have hline' : ∃ rest', line ++ [c] = rdropWhile space (line ++ [c]) ++ rest' ∧ rest' = [] :=
    ⟨[], by rw [rdropWhile_concat_neg _ _ _ hneg, append_nil], rfl⟩
  rcases hline' with ⟨_, hline', rfl⟩
  cases hstarted : g.started with
  | true =>
    rcases h.started hstarted with ⟨a, rest, hsettled, ha⟩
    refine ⟨⟨lines, line ++ [c], lead, hline.snoc nl hc, ?_, hline', hlead⟩,
      fun _ h => absurd h not_mem_nil, fun _ h => absurd h not_mem_nil,
      fun _ => ⟨a, rest ++ g.outer ++ g.line ++ [c], ?_, ha⟩, ?_, fun h => absurd h (by simp)⟩
    · rw [hnew]
      simp only [if_true, append_assoc, append_nil]
    · simp only [if_true, hsettled, cons_append]
    · exact rdropWhile_concat_neg _ _ _ hneg
  | false =>
    -- Nothing is settled yet: what waits is white space in front of the document.
    refine ⟨⟨lines, line ++ [c], lead ++ g.outer ++ g.line, hline.snoc nl hc, ?_, hline', ?_⟩,
      fun _ h => absurd h not_mem_nil, fun _ h => absurd h not_mem_nil,
      fun _ => ⟨c, [], rfl, hspace⟩, ?_, fun h => absurd h (by simp)⟩
    · rw [hnew, h.blank hstarted]
      simp only [Bool.false_eq_true, if_false, append_nil]
    · intro d hd
      rcases mem_append.mp hd with hd | hd
      · rcases mem_append.mp hd with hd | hd
        · exact hlead d hd
        · exact h.outer d hd
      · exact h.line d hd
    · exact rdropWhile_concat_neg _ [] _ hneg

theorem follows_take (hnl : space nl = true) (h : Follows space nl t g)
    (c : α) : Follows space nl (t ++ [c]) (g.take space nl c) := by
  unfold Gathered.take
  by_cases hc : c = nl
  · rw [if_pos hc, hc]
    exact h.newline hnl
  · rw [if_neg hc]
    cases hspace : space c with
    | true => exact h.blank_symbol hc hspace
    | false => exact h.symbol hc hspace

theorem follows_foldl (hnl : space nl = true) (more : List α) (h : Follows space nl t g) :
    Follows space nl (t ++ more) (more.foldl (Gathered.take space nl) g) := by
  induction more generalizing t g with
  | nil =>
    rw [append_nil]
    exact h
  | cons c rest ih =>
    have hnext := ih (follows_take hnl h c)
    rw [append_assoc] at hnext
    exact hnext

theorem Follows.settled_eq (h : Follows space nl t g) :
    g.settled = trimLines space nl t := by
  rcases h.reads with ⟨lines, line, lead, hline, hread, _, hlead⟩
  unfold trimLines trim
  rw [hline.splitOn nl, intercalate_eq_closed, hread, append_assoc, dropWhile_append_of_pos hlead]
  cases hstarted : g.started with
  | true =>
    rcases h.started hstarted with ⟨a, rest, hsettled, ha⟩
    have hfirst : dropWhile space (g.settled ++ g.outer) = g.settled ++ g.outer := by
      rw [hsettled, cons_append, dropWhile_cons_of_neg (by rw [ha]; exact Bool.false_ne_true)]
    rw [hfirst, rdropWhile_append_of_all space h.outer, h.settled]
  | false =>
    have hall : dropWhile space g.outer = [] := dropWhile_eq_nil_iff.mpr h.outer
    rw [h.blank hstarted, nil_append, hall]
    rfl

omit [DecidableEq α] in
theorem dropWhile_concat_append (hspace : space c = false) :
    dropWhile space (l ++ [c] ++ w) = dropWhile space (l ++ [c]) ++ w := by
  induction l with
  | nil => simp [hspace]
  | cons a rest ih =>
    simp only [cons_append, dropWhile_cons] at ih ⊢
    split
    · exact ih
    · rfl

/-- A part of a line, read symbol by symbol: what is left of it without the
    white space at its end settles what waits, and that white space waits. -/
theorem take_segment (g : Gathered α) (text : List α) (hline : nl ∉ text) :
    text.foldl (Gathered.take space nl) g
      = if text.rdropWhile space = [] then { g with line := g.line ++ text.rtakeWhile space }
        else ⟨true, if g.started then g.settled ++ g.outer ++ g.line ++ text.rdropWhile space
            else (text.rdropWhile space).dropWhile space, [], text.rtakeWhile space⟩ := by
  induction text using reverseRecOn with
  | nil => simp
  | append_singleton text c ih =>
    have hc : c ≠ nl := fun h => hline (h ▸ mem_append_right _ mem_cons_self)
    have ih := ih fun h => hline (mem_append_left _ h)
    rw [foldl_append, ih, foldl_cons, foldl_nil]
    cases hspace : space c with
    | true =>
      rw [rdropWhile_concat_pos _ _ _ hspace, rtakeWhile_concat_pos _ _ _ hspace]
      by_cases hcore : text.rdropWhile space = [] <;>
        simp [Gathered.take, hc, hspace, hcore, append_assoc]
    | false =>
      have hneg : ¬ space c = true := by rw [hspace]; exact Bool.false_ne_true
      have hsplit : text.rdropWhile space ++ text.rtakeWhile space = text :=
        rdropWhile_append_rtakeWhile
      rw [rdropWhile_concat_neg _ _ _ hneg, rtakeWhile_concat_neg _ _ _ hneg]
      by_cases hcore : text.rdropWhile space = []
      · -- The text so far is white space, which waits or is in front of the document.
        have hall : text.rtakeWhile space = text := by
          rw [hcore] at hsplit
          exact hsplit
        have hdrop : dropWhile space text = [] :=
          dropWhile_eq_nil_iff.mpr (rdropWhile_eq_nil_iff.mp hcore)
        have hfirst : dropWhile space (text ++ [c]) = [c] := by
          rw [dropWhile_append, hdrop]
          simp [hspace]
        cases g.started <;> simp [Gathered.take, hc, hspace, hcore, hall, hfirst]
      · have hfirst : dropWhile space (text ++ [c])
            = dropWhile space (text.rdropWhile space) ++ (text.rtakeWhile space ++ [c]) := by
          have hlast := rdropWhile_last_not space text hcore
          rw [Bool.not_eq_true] at hlast
          have h := dropWhile_concat_append (w := text.rtakeWhile space ++ [c])
            (l := (text.rdropWhile space).dropLast) hlast
          rw [dropLast_append_getLast, ← append_assoc, hsplit] at h
          exact h
        cases g.started <;> simp [Gathered.take, hc, hspace, hcore, hfirst]

theorem take_newlines (g : Gathered α) (run : List α) (hne : run ≠ []) (hrun : ∀ c ∈ run, c = nl) :
    run.foldl (Gathered.take space nl) g = { g with outer := g.outer ++ run, line := [] } := by
  induction run generalizing g with
  | nil => exact absurd rfl hne
  | cons c rest ih =>
    have hc : c = nl := hrun c mem_cons_self
    have hstep : g.take space nl c = { g with outer := g.outer ++ [c], line := [] } := by
      rw [Gathered.take, if_pos hc]
    rw [foldl_cons, hstep]
    cases rest with
    | nil => rfl
    | cons d more =>
      rw [ih _ (cons_ne_nil _ _) fun e he => hrun e (mem_cons_of_mem _ he)]
      simp only [append_assoc, singleton_append]

theorem settled_eq (hnl : space nl = true) (t : List α) :
    (t.foldl (Gathered.take space nl) Gathered.fresh).settled = trimLines space nl t :=
  (follows_foldl hnl t (follows_fresh space nl)).settled_eq

end

end Apex
