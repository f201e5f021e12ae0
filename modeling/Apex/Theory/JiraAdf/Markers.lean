import Apex.Theory.JiraAdf.Walking

/-!
# What Was Stored Is Found

A comment is found by its marker if a line in which the marker stands is reached within the
number of values that may be visited. The search itself is exact: it finds what occurs in the
texts of a document, however it is spread over them.

A description and a comment of the length that is admitted may have more values than may be
visited, if they have many empty lines. Such an item is created and cannot be read, and such a
comment is stored and cannot be found.

## Main definitions

* `MarkerReached`: A line with a marker is reached.
* `jiraWith`: Jira with the comments of an item.

## Theorems

* `adfContainsText_exact`: The search of a document.
* `marker_found_iff`: When a stored comment is found.
* `blank_lines_lost`: A text that is not.
-/

namespace Apex.Adapters.Jira

open List
open Graphs (truthy)

open Apex.Action (settle)
open String (toList toList_append ofList)

theorem adfContainsText_exact {node : Json} {segments : List String}
    (hwalk : iterAdfText maxAdfNodes [node] = (segments, none)) (needle : String) :
    ∃ found, adfContainsText node needle = .ok found ∧
      (found = true ↔ needle.toList <:+: (segments.map toList).flatten) := by
  unfold adfContainsText
  cases hempty : needle.isEmpty with
  | true =>
    refine ⟨true, if_pos rfl, fun _ => ?_, fun _ => rfl⟩
    rw [String.isEmpty_iff.mp hempty]
    exact nil_infix
  | false =>
    have hne : needle.toList ≠ [] := by
      intro hnil
      rw [String.toList_eq_nil_iff.mp hnil] at hempty
      exact Bool.noConfusion hempty
    rw [if_neg Bool.false_ne_true, hwalk]
    dsimp only
    rw [← searchSegments_iff hne]
    cases hfound : searchSegments needle.toList [] (segments.map toList) with
    | true => exact ⟨true, if_pos rfl, Iff.rfl⟩
    | false => exact ⟨false, if_neg Bool.false_ne_true, Iff.rfl⟩

section Reached

variable {token line rest : List Char}

theorem infix_line_end (hne : token ≠ []) (hline : '\n' ∉ token) :
    token <:+: line ++ '\n' :: rest ↔ token <:+: line ∨ token <:+: rest := by
  constructor
  · rintro ⟨front, back, h⟩
    rw [append_assoc] at h
    rcases append_eq_append_iff.mp h with ⟨skipped, rfl, hrest⟩ | ⟨beyond, _, hrest⟩
    · rcases append_eq_append_iff.mp hrest with ⟨more, rfl, _⟩ | ⟨more, htoken, hmore⟩
      · exact Or.inl ⟨front, more, by rw [append_assoc]⟩
      · cases more with
        | nil => exact Or.inl ⟨front, [], by rw [htoken, append_nil, append_nil]⟩
        | cons c more =>
          have hc : '\n' = c := (cons.inj hmore).1
          refine absurd ?_ hline
          rw [htoken, hc]
          exact mem_append_right _ mem_cons_self
    · cases beyond with
      | nil =>
        cases token with
        | nil => exact absurd rfl hne
        | cons c token => exact absurd ((cons.inj hrest).1 ▸ mem_cons_self) hline
      | cons c beyond =>
        refine Or.inr ⟨beyond, back, ?_⟩
        rw [append_assoc]
        exact (cons.inj hrest).2.symm
  · rintro (h | h)
    · exact h.trans (prefix_append _ _).isInfix
    · exact h.trans ((suffix_cons '\n' rest).trans (suffix_append line _)).isInfix

/-- A token is in the texts of paragraphs, as far as they are walked, exactly if a line with it
    is reached. -/
theorem infix_paragraphs (hne : token ≠ []) (hline : '\n' ∉ token) :
    ∀ {lines : List (List Char)} {budget : Nat},
      token <:+: ((iterAdfText budget (lines.map paragraph)).1.map toList).flatten ↔
        ∃ before line after, lines = before ++ line :: after ∧ token <:+: line ∧
          (before.map lineNodes).sum + 3 ≤ budget
  | [], budget => by
    rw [map_nil, iterAdfText_nil, map_nil, flatten_nil, infix_nil]
    refine ⟨fun h => absurd h hne, ?_⟩
    rintro ⟨before, line, after, h, _⟩
    exact absurd h.symm (by simp)
  | line :: rest, budget => by
    rw [map_cons]
    by_cases hunreached : budget < 3
    · rw [iterAdfText_unreached hunreached, map_nil, flatten_nil, infix_nil]
      refine ⟨fun h => absurd h hne, ?_⟩
      rintro ⟨before, _, _, _, _, hbudget⟩
      omega
    · by_cases hwhole : lineNodes line ≤ budget
      · rcases Nat.exists_eq_add_of_le' hwhole with ⟨more, rfl⟩
        rw [iterAdfText_paragraph, map_append, flatten_append]
        have htexts : ((lineTexts line).map toList).flatten = line ++ ['\n'] := by
          have hjoined := lineTexts_joined [line]
          simpa using hjoined
        rw [htexts, append_assoc, singleton_append, infix_line_end hne hline,
          infix_paragraphs hne hline]
        constructor
        · rintro (h | ⟨before, found, after, rfl, h, hbudget⟩)
          · refine ⟨[], line, rest, rfl, h, ?_⟩
            rw [map_nil, sum_nil]
            omega
          · refine ⟨line :: before, found, after, rfl, h, ?_⟩
            rw [map_cons, sum_cons]
            omega
        · rintro ⟨before, found, after, hsplit, h, hbudget⟩
          cases before with
          | nil =>
            rw [nil_append, cons.injEq] at hsplit
            exact Or.inl (hsplit.1 ▸ h)
          | cons first before =>
            rw [cons_append, cons.injEq] at hsplit
            rw [map_cons, sum_cons, ← hsplit.1] at hbudget
            exact Or.inr ⟨before, found, after, hsplit.2, h, by omega⟩
      · -- The text of the line is reached, and the end of the line is not.
        cases hempty : line.isEmpty with
        | true =>
          rw [lineNodes, if_pos hempty] at hwhole
          omega
        | false =>
          have hnodes : lineNodes line = 4 := if_neg (hempty ▸ Bool.false_ne_true)
          have hbudget : budget = 0 + 3 := by omega
          rw [hbudget, iterAdfText_full hempty, iterAdfText_zero_cons, map_cons,
            map_nil, String.toList_ofList, flatten_cons, flatten_nil,
            append_nil]
          constructor
          · exact fun h => ⟨[], line, rest, rfl, h, by rw [map_nil, sum_nil]⟩
          · rintro ⟨before, found, after, hsplit, h, hreached⟩
            cases before with
            | nil =>
              rw [nil_append, cons.injEq] at hsplit
              exact hsplit.1 ▸ h
            | cons first before =>
              rw [cons_append, cons.injEq] at hsplit
              rw [map_cons, sum_cons, ← hsplit.1, hnodes] at hreached
              omega

end Reached

/-- A line of a text in which a token stands is reached when the document of the text is walked. -/
def MarkerReached (text token : String) : Prop :=
  ∃ before line after, text.toList.splitOn '\n' = before ++ line :: after ∧
    token.toList <:+: line ∧ 5 + (before.map lineNodes).sum ≤ maxAdfNodes

theorem adfContainsText_textToAdf_iff {text token : String} (hne : token.toList ≠ [])
    (hline : '\n' ∉ token.toList) :
    adfContainsText (textToAdf text) token = .ok true ↔ MarkerReached text token := by
  have hempty : token.isEmpty = false := by
    rw [Bool.eq_false_iff]
    intro h
    rw [String.isEmpty_iff.mp h] at hne
    exact hne rfl
  have hwalk : iterAdfText maxAdfNodes [textToAdf text] =
      iterAdfText 49998 ((text.toList.splitOn '\n').map paragraph) := iterAdfText_doc 49998 text
  have hfound : searchSegments token.toList []
      ((iterAdfText maxAdfNodes [textToAdf text]).1.map toList) = true ↔
        MarkerReached text token := by
    rw [searchSegments_iff hne, hwalk, infix_paragraphs hne hline]
    refine exists_congr fun before => exists_congr fun line => exists_congr fun after => ?_
    refine and_congr_right fun _ => and_congr_right fun _ => ?_
    rw [maxAdfNodes]
    omega
  rw [← hfound, adfContainsText, hempty, if_neg Bool.false_ne_true]
  dsimp only
  cases hsearch : searchSegments token.toList []
      ((iterAdfText maxAdfNodes [textToAdf text]).1.map toList) with
  | true => exact ⟨fun _ => rfl, fun _ => if_pos rfl⟩
  | false =>
    rw [if_neg Bool.false_ne_true]
    cases (iterAdfText maxAdfNodes [textToAdf text]).2 with
    | some message => exact ⟨fun h => absurd h (by simp), fun h => Bool.noConfusion h⟩
    | none => exact ⟨fun h => absurd h (by simp), fun h => Bool.noConfusion h⟩

theorem adfContainsText_ne_false {text token : String} (hne : token.toList ≠ [])
    (htext : token.toList <:+: text.toList ++ ['\n']) :
    adfContainsText (textToAdf text) token ≠ .ok false := by
  intro hfalse
  have hempty : token.isEmpty = false := by
    rw [Bool.eq_false_iff]
    exact fun h => hne (by rw [String.isEmpty_iff.mp h]; rfl)
  by_cases hnodes : adfNodes text ≤ maxAdfNodes
  · rcases Nat.exists_eq_add_of_le' hnodes with ⟨budget, hbudget⟩
    have hwalk : iterAdfText maxAdfNodes [textToAdf text] =
        (((text.toList.splitOn '\n').map lineTexts).flatten, none) := by
      rw [hbudget, adfNodes, Nat.add_comm 2, ← Nat.add_assoc, iterAdfText_doc,
        iterAdfText_paragraphs]
    rcases adfContainsText_exact hwalk token with ⟨found, hfound, hiff⟩
    rw [lineTexts_joined, splitOn_joined] at hiff
    rw [hiff.mpr htext, hfalse] at hfound
    exact absurd hfound (by simp)
  · have hwalk : (iterAdfText maxAdfNodes [textToAdf text]).2 = nodeLimit := by
      rw [show maxAdfNodes = 49998 + 2 from rfl, iterAdfText_doc]
      refine iterAdfText_paragraphs_short ?_
      rw [maxAdfNodes, adfNodes] at hnodes
      omega
    rw [adfContainsText, hempty, if_neg Bool.false_ne_true] at hfalse
    dsimp only at hfalse
    rw [hwalk] at hfalse
    split at hfalse
    · exact absurd hfalse (by simp)
    · exact absurd hfalse (by simp [nodeLimit])

def commentsPage (comments : List Json) (startAt maxResults : Nat) : Json :=
  .dict [("comments", .list ((comments.drop startAt).take maxResults)),
    ("total", .int comments.length)]

def jiraWith (comments : List Json) : ∀ r : JiraRequest, r.Answer
  | .getItem _ => .ok ()
  | .comments _ startAt maxResults => .ok (commentsPage comments startAt maxResults)
  | .addComment .. => .ok ()

/-- A comment is scanned if the pages up to it are. -/
def IsScanned (earlier comments : List Json) : Prop :=
  comments.length ≤ maxCommentScan ∨ earlier.length < commentPageSize

section Scan

variable {key token : String} {comments : List Json} {startAt fuel total : Nat}

theorem scan_raised {e : JiraError} (hstart : startAt < maxCommentScan)
    (h : readPage token startAt (commentsPage comments startAt commentPageSize) = .error e) :
    (scanComments key token (fuel + 1) startAt).run.eval (jiraWith comments) = .error e := by
  rw [scanComments, if_neg (Nat.not_le.mpr hstart)]
  refine (?_ : ((settle (readPage token startAt
    (commentsPage comments startAt commentPageSize)) >>= _ : JiraHandler Bool)).run.eval _ = _)
  rw [h]
  rfl

theorem scan_found {n : Nat} (hstart : startAt < maxCommentScan)
    (h : readPage token startAt (commentsPage comments startAt commentPageSize)
      = .ok (true, n, total)) :
    (scanComments key token (fuel + 1) startAt).run.eval (jiraWith comments) = .ok true := by
  rw [scanComments, if_neg (Nat.not_le.mpr hstart)]
  refine (?_ : ((settle (readPage token startAt
    (commentsPage comments startAt commentPageSize)) >>= _ : JiraHandler Bool)).run.eval _ = _)
  rw [h]
  rfl

theorem scan_next {n : Nat} (hstart : startAt < maxCommentScan) (hn : n ≠ 0)
    (htotal : startAt + n < total)
    (h : readPage token startAt (commentsPage comments startAt commentPageSize)
      = .ok (false, n, total)) :
    (scanComments key token (fuel + 1) startAt).run.eval (jiraWith comments) =
      (scanComments key token fuel (startAt + n)).run.eval (jiraWith comments) := by
  rw [scanComments, if_neg (Nat.not_le.mpr hstart)]
  refine (?_ : ((settle (readPage token startAt
    (commentsPage comments startAt commentPageSize)) >>= fun page => if page.1 then pure true
      else if page.2.1 = 0 ∨ page.2.2 ≤ startAt + page.2.1 then pure false
      else scanComments key token fuel (startAt + page.2.1) : JiraHandler Bool)).run.eval _ = _)
  rw [h]
  have hmore : ¬ (n = 0 ∨ total ≤ startAt + n) := by omega
  refine (?_ : (if n = 0 ∨ total ≤ startAt + n then pure false
      else scanComments key token fuel (startAt + n) : JiraHandler Bool).run.eval _ = _)
  rw [if_neg hmore]

theorem anyContains_append {front back : List Json}
    (hfront : ∀ c ∈ front, adfContainsText (c.field "body") token = .ok false) :
    anyContains token (front ++ back) = anyContains token back := by
  induction front with
  | nil => rfl
  | cons c rest ih =>
    have hrest := ih fun d hd => hfront d (mem_cons_of_mem _ hd)
    rw [cons_append, anyContains, hfront c mem_cons_self, ← hrest]
    rfl

theorem readPage_eq (hdicts : ∀ c ∈ comments, c.isDict = true) (token : String) (startAt : Nat) :
    readPage token startAt (commentsPage comments startAt commentPageSize) = (do
      let page := (comments.drop startAt).take commentPageSize
      let found ← anyContains token page
      if found then .ok (true, page.length, 0)
      else do
        let total ← totalField (commentsPage comments startAt commentPageSize)
          (startAt + page.length)
        .ok (false, page.length, total)) := by
  have hlength : ((comments.drop startAt).take commentPageSize).length ≤ commentPageSize :=
    length_take_le _ _
  have hall : ((comments.drop startAt).take commentPageSize).all Json.isDict = true :=
    List.all_eq_true.mpr fun c hc => hdicts c (mem_of_mem_drop (mem_of_mem_take hc))
  refine (?_ : (raiseIf (decide (commentPageSize <
    ((comments.drop startAt).take commentPageSize).length)) _ >>= _) = _)
  rw [decide_eq_false (Nat.not_lt.mpr hlength)]
  refine (?_ : (raiseIf (!((comments.drop startAt).take commentPageSize).all Json.isDict) _
    >>= _) = _)
  rw [hall]
  rfl

theorem totalField_eq {minimum : Nat} (hminimum : minimum ≤ comments.length)
    (hmaximum : comments.length ≤ maxCommentScan) :
    totalField (commentsPage comments startAt commentPageSize) minimum = .ok comments.length := by
  have hrange : ¬ (((comments.length : Int) < minimum) ∨
      (maxCommentScan : Int) < comments.length) := by omega
  exact if_neg hrange

variable {earlier later : List Json} {ours : Json}

/-- A comment whose search is not in vain is found or its search fails, if the comments before
    it have nothing of it. -/
theorem scan_found_iff (hdicts : ∀ c ∈ comments, c.isDict = true)
    (hsplit : comments = earlier ++ ours :: later)
    (hearlier : ∀ c ∈ earlier, adfContainsText (c.field "body") token = .ok false)
    (hours : adfContainsText (ours.field "body") token ≠ .ok false)
    (hscanned : IsScanned earlier comments) :
    ∀ {fuel startAt : Nat}, startAt ≤ earlier.length → maxCommentScan ≤ fuel + startAt →
      startAt < maxCommentScan →
      ((scanComments key token fuel startAt).run.eval (jiraWith comments) = .ok true ↔
        adfContainsText (ours.field "body") token = .ok true)
  | 0, startAt, _, hfuel, hstart => absurd hstart (by omega)
  | fuel + 1, startAt, hbefore, hfuel, hstart => by
    have hread := readPage_eq hdicts token startAt
    have hdrop : comments.drop startAt = earlier.drop startAt ++ ours :: later := by
      rw [hsplit, drop_append_of_le_length hbefore]
    have hvain : ∀ c ∈ earlier.drop startAt, adfContainsText (c.field "body") token = .ok false :=
      fun c hc => hearlier c (mem_of_mem_drop hc)
    by_cases hpage : earlier.length < startAt + commentPageSize
    · -- The comment is on this page.
      have htake : (comments.drop startAt).take commentPageSize = earlier.drop startAt ++
          ours :: later.take (commentPageSize - (earlier.drop startAt).length - 1) := by
        have hroom : commentPageSize - (earlier.drop startAt).length =
            commentPageSize - (earlier.drop startAt).length - 1 + 1 := by
          rw [length_drop]
          omega
        rw [hdrop, take_append, take_of_length_le, hroom, take_succ_cons]
        · rfl
        · rw [length_drop]
          omega
      have hany : anyContains token ((comments.drop startAt).take commentPageSize) =
          anyContains token (ours :: later.take
            (commentPageSize - (earlier.drop startAt).length - 1)) := by
        rw [htake, anyContains_append hvain]
      dsimp only at hread
      rw [hany, anyContains] at hread
      cases hsearch : adfContainsText (ours.field "body") token with
      | error message =>
        rw [hsearch] at hread
        rw [scan_raised hstart hread]
        exact ⟨fun h => absurd h (by simp), fun h => absurd h (by simp)⟩
      | ok found =>
        cases found with
        | false => exact absurd hsearch hours
        | true =>
          rw [hsearch] at hread
          exact ⟨fun _ => rfl, fun _ => scan_found hstart hread⟩
    · -- The page is full, and nothing is found on it.
      have hfull : ((comments.drop startAt).take commentPageSize).length = commentPageSize := by
        rw [length_take, length_drop, hsplit, length_append, length_cons]
        omega
      have hnone : anyContains token ((comments.drop startAt).take commentPageSize) =
          .ok false := by
        rw [hdrop, take_append_of_le_length (by rw [length_drop]; omega),
          ← append_nil (List.take _ _),
          anyContains_append fun c hc => hvain c (mem_of_mem_take hc)]
        rfl
      have hmany : startAt + commentPageSize < comments.length := by
        rw [hsplit, length_append, length_cons]
        omega
      have hfew : comments.length ≤ maxCommentScan := by
        rcases hscanned with hall | hfirst
        · exact hall
        · omega
      dsimp only at hread
      rw [hnone, hfull] at hread
      have htotal := @totalField_eq comments startAt (startAt + commentPageSize)
        (Nat.le_of_lt hmany) hfew
      have hnext : readPage token startAt (commentsPage comments startAt commentPageSize) =
          .ok (false, commentPageSize, comments.length) := by
        rw [hread]
        refine (?_ : (totalField (commentsPage comments startAt commentPageSize)
          (startAt + commentPageSize) >>= _) = _)
        rw [htotal]
        rfl
      have hpositive : commentPageSize ≠ 0 := by decide
      rw [scan_next hstart hpositive hmany hnext]
      exact scan_found_iff hdicts hsplit hearlier hours hscanned (by omega)
        (by rw [commentPageSize]; omega) (by omega)

end Scan

theorem commentMarker_toList (marker : String) : (commentMarker marker).toList =
    "[APEX-IDEMPOTENCY:".toList ++ marker.toList ++ "]".toList :=
  toList_append.trans (congrArg (· ++ "]".toList) toList_append)

theorem commentMarker_ne_nil (marker : String) : (commentMarker marker).toList ≠ [] := by
  have hfront : "[APEX-IDEMPOTENCY:".toList ≠ [] := by decide +kernel
  rw [commentMarker_toList]
  intro h
  exact hfront (append_eq_nil_iff.mp (append_eq_nil_iff.mp h).1).1

theorem commentMarker_line {marker : String} (h : isMutationMarker marker = true) :
    '\n' ∉ (commentMarker marker).toList := by
  have hfront : '\n' ∉ "[APEX-IDEMPOTENCY:".toList := by decide +kernel
  have hback : '\n' ∉ "]".toList := by decide +kernel
  have hname : '\n' ∉ "apex-idem-".toList := by decide +kernel
  rw [isMutationMarker, Bool.and_eq_true, Bool.and_eq_true, List.isPrefixOf_iff_prefix] at h
  rcases h with ⟨⟨⟨rest, hrest⟩, _⟩, hhex⟩
  have hmarker : '\n' ∉ marker.toList := by
    rw [← hrest, drop_left] at hhex
    rw [← hrest, mem_append]
    rintro (hmem | hmem)
    · exact hname hmem
    · exact absurd (List.all_eq_true.mp hhex _ hmem) (by decide)
  rw [commentMarker_toList, mem_append, mem_append]
  rintro ((hmem | hmem) | hmem)
  · exact hfront hmem
  · exact hmarker hmem
  · exact hback hmem

def markedText (comment marker : String) : String := comment ++ "\n\n" ++ commentMarker marker

theorem markerReached_of_few {comment marker : String} (h : isMutationMarker marker = true)
    (hnodes : adfNodes comment + 6 ≤ maxAdfNodes) :
    MarkerReached (markedText comment marker) (commentMarker marker) := by
  refine ⟨comment.toList.splitOn '\n' ++ [[]], (commentMarker marker).toList, [], ?_, infix_rfl, ?_⟩
  · have htext : (markedText comment marker).toList =
        comment.toList ++ '\n' :: ([] ++ '\n' :: (commentMarker marker).toList) := by
      rw [markedText, toList_append, toList_append, append_assoc]
      rfl
    rw [htext, splitOn_append_cons_self, splitOn_append_cons_self, splitOn_nil,
      splitOn_eq_singleton (commentMarker_line h), append_assoc]
  · rw [map_append, sum_append]
    rw [adfNodes] at hnodes
    have hempty : ([[]].map lineNodes).sum = 3 := rfl
    omega

theorem marker_found_iff {key comment marker : String} {comments earlier later : List Json}
    {ours : Json} (hmarker : isMutationMarker marker = true)
    (hdicts : ∀ c ∈ comments, c.isDict = true) (hsplit : comments = earlier ++ ours :: later)
    (hbody : ours.field "body" = markedComment comment marker)
    (hearlier : ∀ c ∈ earlier, adfContainsText (c.field "body") (commentMarker marker) = .ok false)
    (hscanned : IsScanned earlier comments) :
    (hasCommentIdempotencyMarker key marker).run.eval (jiraWith comments) = .ok true ↔
      MarkerReached (markedText comment marker) (commentMarker marker) := by
  have hline := commentMarker_line hmarker
  have hne := commentMarker_ne_nil marker
  have hours : adfContainsText (ours.field "body") (commentMarker marker) ≠ .ok false := by
    rw [hbody]
    refine adfContainsText_ne_false hne ⟨(comment ++ "\n\n").toList, ['\n'], ?_⟩
    rw [← toList_append]
  have hrun : (hasCommentIdempotencyMarker key marker).run.eval (jiraWith comments) =
      (scanComments key (commentMarker marker) maxCommentScan 0).run.eval (jiraWith comments) := by
    unfold hasCommentIdempotencyMarker
    rw [validateMutationMarker, hmarker]
    rfl
  rw [hrun, scan_found_iff hdicts hsplit hearlier hours hscanned (Nat.zero_le _)
    (Nat.le_add_right maxCommentScan 0) (by decide), hbody, markedComment]
  exact adfContainsText_textToAdf_iff hne hline

/-- Case folding leaves the names of the fields as they are. -/
def FoldsNames (text : JiraText) : Prop :=
  ∀ name ∈ ["summary", "description"], text.casefold name = name

section Items

variable {text : JiraText} {projectKey : Option String} {draft : WorkItemDraft}
  {marker : Option String} {fields posted : Dict Json}

theorem withMarker_get? {name label : String} (hfold : text.casefold name ≠ "labels")
    (hname : name ≠ "labels") (h : withMarker text fields label = .ok posted) :
    posted.get? name = fields.get? name := by
  have hkey : (fields.keys.find? fun key => text.casefold key == "labels").getD "labels"
      ≠ name := by
    cases hfind : fields.keys.find? fun key => text.casefold key == "labels" with
    | none => exact fun heq => hname heq.symm
    | some key =>
      have htest := find?_some hfind
      rintro rfl
      exact hfold (beq_iff_eq.mp htest)
  unfold withMarker at h
  dsimp only at h
  split at h
  · rw [← Except.ok.inj h, Dict.get?_set_ne _ _ hkey.symm]
  · split at h
    · rw [← Except.ok.inj h, Dict.get?_set_ne _ _ hkey.symm]
    · exact absurd h (by simp)
  · exact absurd h (by simp)

theorem issueFields_get? {name : String} (hfold : text.casefold name = name)
    (hlabels : name ≠ "labels") (hproject : name ≠ "project")
    (hown : draft.fields.get? name = none)
    (h : issueFields text projectKey draft marker = .ok posted) :
    posted.get? name = ((((Dict.single "summary" (Json.str draft.title)).set "issuetype"
      (.ofDict (Dict.single "name" (.str ((jqlIssueType draft.kind).getD
        (text.capitalize draft.kind)))))).set "description"
      (textToAdf draft.description)).get? name) := by
  rcases bind_ok.mp h with ⟨_, _, h⟩
  rcases bind_ok.mp h with ⟨key, _, h⟩
  rcases bind_ok.mp h with ⟨labelled, hlabelled, h⟩
  rw [← pure_ok.mp h, Dict.get?_set_ne _ _ hproject]
  have hsame : labelled.get? name = (draftFields text draft).get? name := by
    cases marker with
    | none => rw [← Except.ok.inj hlabelled]
    | some label => exact withMarker_get? (hfold.symm ▸ hlabels) hlabels hlabelled
  rw [hsame, draftFields, Dict.get?_update, hown]
  rfl

/-- An item is read as it was created exactly if the document of its description may be
    walked. -/
theorem readContent_iff (hfold : FoldsNames text)
    (hlength : draft.description.length ≤ maxDescriptionChars)
    (hsummary : draft.fields.get? "summary" = none)
    (hdescription : draft.fields.get? "description" = none)
    (h : issueFields text projectKey draft marker = .ok posted) :
    (∃ content, readContent posted = .ok content) ↔ adfNodes draft.description ≤ maxAdfNodes := by
  have htitle : posted.value "summary" = .str draft.title := by
    rw [Dict.value, issueFields_get? (hfold _ (by simp)) (by decide) (by decide) hsummary h,
      Dict.get?_set_ne _ _ (by decide), Dict.get?_set_ne _ _ (by decide), Dict.get?_single,
      if_pos rfl]
    rfl
  have hbody : posted.value "description" = textToAdf draft.description := by
    rw [Dict.value, issueFields_get? (hfold _ (by simp)) (by decide) (by decide) hdescription h,
      Dict.get?_set_self]
    rfl
  have hread : (∃ content, readContent posted = .ok content) ↔
      ∃ description, adfToText (textToAdf draft.description) = .ok description := by
    have hgiven : (if truthy (.str draft.title) then Json.str draft.title else .str "") =
        .str draft.title := by
      by_cases hempty : draft.title = ""
      · rw [hempty]
        rfl
      · exact if_pos (bne_iff_ne.mpr hempty)
    have hdict : readableContent (textToAdf draft.description) = true := rfl
    unfold readContent
    dsimp only
    rw [htitle, hbody, hgiven, hdict]
    dsimp only
    rw [if_pos rfl]
    cases adfToText (textToAdf draft.description) with
    | ok description => exact ⟨fun _ => ⟨_, rfl⟩, fun _ => ⟨_, rfl⟩⟩
    | error message => exact ⟨fun ⟨_, h⟩ => absurd h (by simp), fun ⟨_, h⟩ => absurd h (by simp)⟩
  rw [hread]
  constructor
  · rintro ⟨description, hdescription⟩
    by_contra hnodes
    rcases adfToText_textToAdf_short (Nat.not_le.mp hnodes) with ⟨message, herror⟩
    rw [herror] at hdescription
    exact absurd hdescription (by simp)
  · exact fun hnodes => ⟨_, adfToText_textToAdf hlength hnodes⟩

end Items

/-- What is stored is read back, searched and found exactly as far as its document may be
    walked: a description by its number of values, a marked comment by the line in which the
    marker stands. A document that is within the limit is searched exactly. -/
theorem adf_read_back (names : JiraText) :
    (∀ text : String, text.length ≤ maxDescriptionChars →
      (adfToText (textToAdf text) = .ok (ofList (normalizeLines text.toList)) ↔
        adfNodes text ≤ maxAdfNodes)) ∧
    (∀ (node : Json) (segments : List String),
      iterAdfText maxAdfNodes [node] = (segments, none) → ∀ needle : String,
        ∃ found, adfContainsText node needle = .ok found ∧
          (found = true ↔ needle.toList <:+: (segments.map toList).flatten)) ∧
    (∀ (key comment marker : String) (earlier later : List Json) (ours : Json),
      isMutationMarker marker = true → (∀ c ∈ earlier ++ ours :: later, c.isDict = true) →
      ours.field "body" = markedComment comment marker →
      (∀ c ∈ earlier, adfContainsText (c.field "body") (commentMarker marker) = .ok false) →
      IsScanned earlier (earlier ++ ours :: later) →
        ((hasCommentIdempotencyMarker key marker).run.eval (jiraWith (earlier ++ ours :: later))
            = .ok true ↔
          MarkerReached (markedText comment marker) (commentMarker marker)) ∧
        (adfNodes comment + 6 ≤ maxAdfNodes →
          MarkerReached (markedText comment marker) (commentMarker marker))) ∧
    ∀ (projectKey marker : Option String) (draft : WorkItemDraft)
      (posted : Dict Json), FoldsNames names → draft.description.length ≤ maxDescriptionChars →
      draft.fields.get? "summary" = none → draft.fields.get? "description" = none →
      issueFields names projectKey draft marker = .ok posted →
        ((∃ content, readContent posted = .ok content) ↔
          adfNodes draft.description ≤ maxAdfNodes) := by
  refine ⟨fun text hlength => ⟨fun hread => ?_, adfToText_textToAdf hlength⟩,
    fun node segments hwalk needle => adfContainsText_exact hwalk needle,
    fun key comment marker earlier later ours hmarker hdicts hbody hearlier hscanned =>
      ⟨marker_found_iff hmarker hdicts rfl hbody hearlier hscanned, markerReached_of_few hmarker⟩,
    fun projectKey marker draft posted hfold hlength hsummary hdescription h =>
      readContent_iff hfold hlength hsummary hdescription h⟩
  by_contra hnodes
  rcases adfToText_textToAdf_short (Nat.not_le.mp hnodes) with ⟨message, herror⟩
  rw [herror] at hread
  exact absurd hread (by simp)

theorem splitOn_replicate (n : Nat) :
    (replicate n '\n').splitOn '\n' = replicate (n + 1) [] := by
  induction n with
  | zero => rfl
  | succ n ih =>
    have hsplit := splitOn_append_cons_self (a := '\n') [] (replicate n '\n')
    rw [nil_append, ih, splitOn_nil] at hsplit
    exact hsplit

/-- A description of twenty thousand empty lines is admitted, and cannot be read back. -/
theorem blank_lines_lost : ¬ ∀ text : String, text.length ≤ maxDescriptionChars →
    hasNul text = false →
      adfToText (textToAdf text) = .ok (ofList (normalizeLines text.toList)) := by
  intro h
  have hlines : (ofList (replicate 20000 '\n')).toList = replicate 20000 '\n' :=
    String.toList_ofList
  have hread := h (ofList (replicate 20000 '\n'))
    (by rw [String.length_ofList, length_replicate, maxDescriptionChars]) (by
      rw [hasNul, hlines, List.any_eq_false]
      intro c hc
      rw [eq_of_mem_replicate hc]
      decide)
  have hnodes : maxAdfNodes < adfNodes (ofList (replicate 20000 '\n')) := by
    rw [adfNodes, hlines, splitOn_replicate, map_replicate, sum_replicate_nat]
    decide
  rcases adfToText_textToAdf_short hnodes with ⟨message, herror⟩
  have herrors : ∀ plain : String, (Except.error message : Except String String) ≠ .ok plain :=
    fun _ h => absurd h (by simp)
  exact herrors _ (herror.symm.trans hread)

end Apex.Adapters.Jira
