import Apex.Adapters.JiraWorkTracking
import Mathlib.Algebra.Order.BigOperators.Group.List
import Mathlib.Algebra.Order.Group.Nat

/-!
# Reading A Stored Text Back

The document of a text has three or four values for each line: the paragraph, its content, the
text unless the line is empty, and the end of the line. The walk visits all of them, and two
more above them, so a text is read back exactly if these are no more than may be visited.
What is read is the text with its lines trimmed: nothing is cut, since a description is no
longer than what is retained.

## Main definitions

* `lineNodes`, `adfNodes`: How many values the document of a text has.
* `lineTexts`: The texts of the paragraph of a line.

## Theorems

* `iterAdfText_paragraphs`, `iterAdfText_paragraphs_short`: The walk of paragraphs.
* `adfToText_textToAdf_iff`: When a text is read back.
-/

namespace Apex.Adapters.Jira

open List

def lineTexts (line : List Char) : List String :=
  if line.isEmpty then ["\n"] else [String.ofList line, "\n"]

/-- How many values the paragraph of a line has. -/
def lineNodes (line : List Char) : Nat := if line.isEmpty then 3 else 4

def adfNodes (text : String) : Nat := 2 + ((text.toList.splitOn '\n').map lineNodes).sum

/-- What the walk says if it has visited too many values. -/
def nodeLimit : Option String := some "jira ADF response exceeds the node limit"

section Walk

variable {budget : Nat} {line : List Char} {rest : List Json} {lines : List (List Char)}

theorem iterAdfText_zero_cons (current : Json) (rest : List Json) :
    iterAdfText 0 (current :: rest) = ([], nodeLimit) := rfl

theorem iterAdfText_nil (budget : Nat) : iterAdfText budget [] = ([], none) := by
  cases budget <;> rfl

theorem iterAdfText_line_end (budget : Nat) (rest : List Json) :
    iterAdfText (budget + 1) (.str "\n" :: rest) =
      ("\n" :: (iterAdfText budget rest).1, (iterAdfText budget rest).2) := rfl

theorem iterAdfText_empty (budget : Nat) (rest : List Json) :
    iterAdfText (budget + 2) (paragraph [] :: rest) = iterAdfText budget (.str "\n" :: rest) := by
  rfl

theorem iterAdfText_full (h : line.isEmpty = false) (budget : Nat) (rest : List Json) :
    iterAdfText (budget + 3) (paragraph line :: rest) =
      (String.ofList line :: (iterAdfText budget (.str "\n" :: rest)).1,
        (iterAdfText budget (.str "\n" :: rest)).2) := by
  unfold paragraph
  rw [h]
  rfl

theorem iterAdfText_unreached (hbudget : budget < 3) (line : List Char) (rest : List Json) :
    iterAdfText budget (paragraph line :: rest) = ([], nodeLimit) := by
  cases hline : line.isEmpty with
  | true =>
    rw [List.isEmpty_iff.mp hline]
    match budget, hbudget with
    | 0, _ => rfl
    | 1, _ => rfl
    | 2, _ => rfl
  | false =>
    unfold paragraph
    rw [hline]
    match budget, hbudget with
    | 0, _ => rfl
    | 1, _ => rfl
    | 2, _ => rfl

theorem iterAdfText_paragraph (budget : Nat) (line : List Char) (rest : List Json) :
    iterAdfText (budget + lineNodes line) (paragraph line :: rest) =
      (lineTexts line ++ (iterAdfText budget rest).1, (iterAdfText budget rest).2) := by
  unfold lineNodes lineTexts
  cases hline : line.isEmpty with
  | true =>
    rw [List.isEmpty_iff.mp hline, if_pos rfl, if_pos rfl]
    exact (iterAdfText_empty (budget + 1) rest).trans (iterAdfText_line_end budget rest)
  | false =>
    rw [if_neg Bool.false_ne_true, if_neg Bool.false_ne_true]
    exact (iterAdfText_full hline (budget + 1) rest).trans
      (by rw [iterAdfText_line_end budget rest]; rfl)

theorem iterAdfText_paragraphs (budget : Nat) : ∀ lines : List (List Char),
    iterAdfText (budget + (lines.map lineNodes).sum) (lines.map paragraph) =
      ((lines.map lineTexts).flatten, none)
  | [] => iterAdfText_nil _
  | line :: rest => by
    rw [map_cons, sum_cons, map_cons, map_cons, flatten_cons,
      Nat.add_comm (lineNodes line), ← Nat.add_assoc, iterAdfText_paragraph,
      iterAdfText_paragraphs budget rest]

theorem iterAdfText_paragraphs_short : ∀ {lines : List (List Char)} {budget : Nat},
    budget < (lines.map lineNodes).sum → (iterAdfText budget (lines.map paragraph)).2 = nodeLimit
  | [], _, h => absurd h (Nat.not_lt_zero _)
  | line :: rest, budget, h => by
    rw [map_cons, sum_cons] at h
    rw [map_cons]
    by_cases hline : budget < lineNodes line
    · by_cases hthree : budget < 3
      · rw [iterAdfText_unreached hthree]
      · cases hempty : line.isEmpty with
        | true => exact absurd (by rwa [lineNodes, if_pos hempty] at hline) hthree
        | false =>
          -- The text of the line is the last value that is visited.
          rw [lineNodes, hempty] at hline
          have hbudget : budget = 0 + 3 := by
            rw [if_neg Bool.false_ne_true] at hline
            omega
          rw [hbudget, iterAdfText_full hempty, iterAdfText_zero_cons]
    · rcases Nat.exists_eq_add_of_le' (Nat.le_of_not_lt hline) with ⟨more, rfl⟩
      rw [iterAdfText_paragraph]
      exact iterAdfText_paragraphs_short (by omega)

theorem iterAdfText_doc (budget : Nat) (text : String) :
    iterAdfText (budget + 2) [textToAdf text] =
      iterAdfText budget ((text.toList.splitOn '\n').map paragraph) := by
  have hlines : ((text.toList.splitOn '\n').map paragraph).isEmpty = false := by
    rw [isEmpty_eq_false_iff]
    exact fun hnil => splitOn_ne_nil _ _ (map_eq_nil_iff.mp hnil)
  unfold textToAdf
  dsimp only
  rw [hlines, if_neg Bool.false_ne_true]
  exact congrArg (iterAdfText budget) (append_nil _)

end Walk

section Read

variable {text : List Char} {lines : List (List Char)}

/-- What is retained is a beginning of the texts, joined. -/
theorem retain_eq : ∀ (room : Nat) (segments : List String),
    retain room segments = ((segments.map String.toList).flatten).take room
  | room, [] => by rw [retain, map_nil, flatten_nil, take_nil]
  | room, segment :: rest => by
    rw [retain, retain_eq, map_cons, flatten_cons, take_append, length_take]
    congr 2
    omega

theorem lineTexts_joined (lines : List (List Char)) :
    (((lines.map lineTexts).flatten).map String.toList).flatten =
      (lines.map (· ++ ['\n'])).flatten := by
  induction lines with
  | nil => rfl
  | cons line rest ih =>
    rw [map_cons, flatten_cons, map_append, flatten_append, ih, map_cons, flatten_cons]
    congr 1
    rw [lineTexts]
    cases hline : line.isEmpty with
    | true => rw [List.isEmpty_iff.mp hline]; rfl
    | false =>
      rw [if_neg Bool.false_ne_true, map_cons, String.toList_ofList]
      rfl

theorem flatten_line_ends : ∀ {lines : List (List Char)}, lines ≠ [] →
    (lines.map (· ++ ['\n'])).flatten = ['\n'].intercalate lines ++ ['\n']
  | [], h => absurd rfl h
  | [line], _ => by simp
  | line :: next :: rest, _ => by
    rw [map_cons, flatten_cons, flatten_line_ends (cons_ne_nil next rest),
      intercalate_cons_of_ne_nil (cons_ne_nil next rest)]
    simp only [append_assoc]

theorem splitOn_joined (text : List Char) :
    ((text.splitOn '\n').map (· ++ ['\n'])).flatten = text ++ ['\n'] := by
  rw [flatten_line_ends (splitOn_ne_nil _ _), intercalate_splitOn]

theorem normalizeLines_line_end (text : List Char) :
    normalizeLines (text ++ ['\n']) = normalizeLines text := by
  have hsplit : (text ++ ['\n']).splitOn '\n' = text.splitOn '\n' ++ [[]] :=
    splitOn_append_cons_self text []
  dsimp only [normalizeLines]
  rw [hsplit, map_append]
  have hempty : (rdropWhile isPySpace []).isEmpty = true := rfl
  rw [show List.map (rdropWhile isPySpace) [[]] = [rdropWhile isPySpace []] from rfl,
    rdropWhile_concat_pos _ _ _ hempty]

def linesLength (lines : List (List Char)) : Nat := (lines.map fun line => line.length + 1).sum

theorem intercalate_length_le (lines : List (List Char)) :
    (['\n'].intercalate lines).length ≤ linesLength lines - 1 := by
  cases lines with
  | nil => exact Nat.zero_le _
  | cons line rest =>
    have hends := congrArg List.length (flatten_line_ends (cons_ne_nil line rest))
    rw [length_flatten, List.map_map, length_append] at hends
    have hsame : ((line :: rest).map (List.length ∘ (· ++ ['\n']))) =
        (line :: rest).map fun line => line.length + 1 :=
      map_congr_left fun line _ => by simp
    rw [hsame] at hends
    rw [linesLength, hends]
    exact Nat.le_refl _

theorem linesLength_append (front back : List (List Char)) :
    linesLength (front ++ back) = linesLength front + linesLength back := by
  rw [linesLength, map_append, sum_append]
  rfl

theorem linesLength_le_of_suffix {part lines : List (List Char)} (h : part <:+ lines) :
    linesLength part ≤ linesLength lines := by
  rcases h with ⟨front, rfl⟩
  rw [linesLength_append]
  exact Nat.le_add_left _ _

theorem linesLength_le_of_prefix {part lines : List (List Char)} (h : part <+: lines) :
    linesLength part ≤ linesLength lines := by
  rcases h with ⟨back, rfl⟩
  rw [linesLength_append]
  exact Nat.le_add_right _ _

theorem linesLength_map_le {f : List Char → List Char} (hf : ∀ line, (f line).length ≤ line.length)
    (lines : List (List Char)) : linesLength (lines.map f) ≤ linesLength lines := by
  rw [linesLength, linesLength, List.map_map]
  exact sum_le_sum fun line _ => Nat.add_le_add_right (hf line) 1

theorem normalizeLines_length_le (text : List Char) :
    (normalizeLines text).length ≤ text.length := by
  have hjoined := congrArg List.length (splitOn_joined text)
  have hlines : linesLength (text.splitOn '\n') = text.length + 1 := by
    rw [length_flatten, List.map_map, length_append] at hjoined
    refine Eq.trans ?_ hjoined
    exact congrArg sum (map_congr_left fun line _ => by simp)
  have htrim := linesLength_map_le (fun line => (List.rdropWhile_prefix isPySpace line).length_le)
    (text.splitOn '\n')
  have hback := linesLength_le_of_prefix
    (List.rdropWhile_prefix isEmpty ((text.splitOn '\n').map (rdropWhile isPySpace)))
  have hfront := linesLength_le_of_suffix (dropWhile_suffix (l := rdropWhile isEmpty
    ((text.splitOn '\n').map (rdropWhile isPySpace))) isEmpty)
  have hlength := intercalate_length_le ((rdropWhile isEmpty
    ((text.splitOn '\n').map (rdropWhile isPySpace))).dropWhile isEmpty)
  dsimp only [normalizeLines]
  omega

theorem adfToText_textToAdf {text : String} (hlength : text.length ≤ maxDescriptionChars)
    (hnodes : adfNodes text ≤ maxAdfNodes) :
    adfToText (textToAdf text) = .ok (String.ofList (normalizeLines text.toList)) := by
  rcases Nat.exists_eq_add_of_le' hnodes with ⟨budget, hbudget⟩
  have hwalk : iterAdfText maxAdfNodes [textToAdf text] =
      (((text.toList.splitOn '\n').map lineTexts).flatten, none) := by
    rw [hbudget, adfNodes, Nat.add_comm 2, ← Nat.add_assoc, iterAdfText_doc, iterAdfText_paragraphs]
  have hchars : text.toList.length ≤ maxDescriptionChars := hlength
  have hretained : retain maxAdfFlattenChars ((text.toList.splitOn '\n').map lineTexts).flatten =
      text.toList ++ ['\n'] := by
    rw [retain_eq, lineTexts_joined, splitOn_joined]
    refine take_of_length_le ?_
    rw [length_append, length_singleton, maxAdfFlattenChars]
    rw [maxDescriptionChars] at hchars ⊢
    omega
  have hcut : cutDescription (normalizeLines text.toList) = normalizeLines text.toList := by
    have hshort := normalizeLines_length_le text.toList
    exact if_neg (by omega)
  rw [adfToText, hwalk]
  dsimp only
  rw [hretained, normalizeLines_line_end, hcut]

theorem adfToText_textToAdf_short {text : String} (hnodes : maxAdfNodes < adfNodes text) :
    ∃ message, adfToText (textToAdf text) = .error message := by
  have hwalk : (iterAdfText maxAdfNodes [textToAdf text]).2 = nodeLimit := by
    rw [show maxAdfNodes = 49998 + 2 from rfl, iterAdfText_doc]
    refine iterAdfText_paragraphs_short ?_
    rw [maxAdfNodes, adfNodes] at hnodes
    omega
  exact ⟨_, by rw [adfToText, hwalk]; rfl⟩

end Read

end Apex.Adapters.Jira
