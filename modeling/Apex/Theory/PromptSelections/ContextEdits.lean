import Apex.Services.PromptSelections

/-!
# Edits of Contexts

Which edits of the contexts are accepted, and what they make of the entries.

The loop over the headings accepts exactly the texts that admissible contents
compose to, provided that no content makes the heading behind it stand earlier
(`editContexts_ok_iff`); it then gives these contents. The loop over the edits
has no headings to find, but its edits are read first, and reading refuses
U+0000, which the other loop does not.

## Main definitions

* `Admissible`: What is asked of a new content.
* `withContents`: The entries with other contents.
* `Separate`: No content makes the heading behind it stand earlier.
* `contextEdits`: New contents as edits entry by entry.

## Theorems

* `editContexts_ok_iff`: The texts the loop accepts.
* `mapM_contextEdits`: The edits that are read.
* `applyEdits_ok_iff`: What they make of the entries.
-/

namespace Apex.Services

open List

def Admissible (env : PromptEnv) (content : String) : Prop :=
  isBlank content = false ∧ content.length ≤ env.maxPromptPartChars
    ∧ hasCredentials env (.str content) = false

variable (item : ManifestEntry) (contexts : List ManifestEntry)

def withContents (contents : List String) : List ManifestEntry :=
  contexts.zipWith ManifestEntry.withContent contents

def Separate : List ManifestEntry → List String → Prop
  | _ :: following :: contexts, content :: contents =>
    Clean (glue ++ heading following) content.toList ∧ Separate (following :: contexts) contents
  | _, _ => True

theorem checkContent_ok_iff (env : PromptEnv) (content : String) (r : Unit) :
    checkContent env content = .ok r ↔ Admissible env content := by
  simp only [checkContent, bind_ok, raiseIf_ok, Bool.or_eq_false_iff, decide_eq_false_iff_not,
    Nat.not_lt, exists_const, Admissible, and_assoc]

theorem composeContexts_cons (following : ManifestEntry) (contexts : List ManifestEntry) :
    composeContexts (item :: following :: contexts)
      = heading item ++ item.content.toList ++ glue ++ composeContexts (following :: contexts) := by
  rw [composeContexts, map_cons,
    intercalate_cons_of_ne_nil (by simp only [map_cons]; exact cons_ne_nil _ _)]
  rfl

theorem composeContexts_single :
    composeContexts [item] = heading item ++ item.content.toList := by
  simp [composeContexts]

theorem composeContexts_head :
    ∃ rest, composeContexts (item :: contexts) = heading item ++ rest := by
  cases contexts with
  | nil => exact ⟨_, composeContexts_single item⟩
  | cons following more =>
    refine ⟨item.content.toList ++ glue ++ composeContexts (following :: more), ?_⟩
    rw [composeContexts_cons]
    simp only [append_assoc]

theorem heading_withContent (content : String) :
    heading (item.withContent content) = heading item := rfl

/-- The aggregate of entries with other contents: the first content stands
    between its heading and the aggregate of the others. -/
theorem composeContexts_withContents (following : ManifestEntry) (contexts : List ManifestEntry)
    (content : String) (contents : List String)
    (hlength : contents.length = (following :: contexts).length) :
    composeContexts (withContents (item :: following :: contexts) (content :: contents))
      = heading item ++ (content.toList
        ++ (glue ++ composeContexts (withContents (following :: contexts) contents))) := by
  cases contents with
  | nil => exact absurd hlength (by simp)
  | cons d more =>
    have h := composeContexts_cons (item.withContent content) (following.withContent d)
      (withContents contexts more)
    simp only [append_assoc] at h
    exact h

theorem composeContexts_withContents_head (contents : List String)
    (hlength : contents.length = (item :: contexts).length) :
    ∃ rest, composeContexts (withContents (item :: contexts) contents) = heading item ++ rest := by
  cases contents with
  | nil => exact absurd hlength (by simp)
  | cons d more => exact composeContexts_head (item.withContent d) (withContents contexts more)

theorem isPrefixOf_heading_iff (text : List Char) :
    (heading item).isPrefixOf text = true
      ↔ text = heading item ++ text.drop (heading item).length := by
  rw [List.isPrefixOf_iff_prefix, prefix_iff_eq_append]
  exact eq_comm

theorem glue_heading_ne_nil : glue ++ heading item ≠ [] :=
  cons_ne_nil _ _

section

variable (env : PromptEnv)

theorem editContexts_ok_iff (contexts : List ManifestEntry) (text : List Char)
    (out : List ManifestEntry) :
    editContexts env contexts text = .ok out
      ↔ ∃ contents, contents.length = contexts.length ∧ (∀ c ∈ contents, Admissible env c)
        ∧ Separate contexts contents ∧ text = composeContexts (withContents contexts contents)
        ∧ out = withContents contexts contents := by
  induction contexts generalizing text out with
  | nil =>
    unfold editContexts
    constructor
    · intro h
      by_cases htext : text = []
      · rw [if_pos htext] at h
        exact ⟨[], rfl, fun _ h => absurd h not_mem_nil, trivial, htext, (Except.ok.inj h).symm⟩
      · rw [if_neg htext] at h
        exact absurd h (by simp)
    · rintro ⟨contents, _, _, _, rfl, rfl⟩
      rfl
  | cons item contexts ih =>
    cases contexts with
    | nil =>
      unfold editContexts
      constructor
      · intro h
        by_cases hpre : (heading item).isPrefixOf text = true
        · rw [if_pos hpre] at h
          rcases bind_ok.mp h with ⟨u, hcheck, hout⟩
          refine ⟨[String.ofList (text.drop (heading item).length)], rfl, ?_, trivial, ?_,
            (pure_ok.mp hout).symm⟩
          · exact forall_mem_singleton.mpr ((checkContent_ok_iff env _ u).mp hcheck)
          · show text = composeContexts [item.withContent _]
            rw [composeContexts_single, heading_withContent]
            show text = heading item ++ (String.ofList _).toList
            rw [String.toList_ofList]
            exact (isPrefixOf_heading_iff item text).mp hpre
        · rw [if_neg hpre] at h
          exact absurd h (by simp)
      · rintro ⟨contents, hlength, hadmissible, _, htext, rfl⟩
        rcases length_eq_one_iff.mp hlength with ⟨content, rfl⟩
        have heq : text = heading item ++ content.toList := by
          rw [htext]
          exact composeContexts_single (item.withContent content)
        have hpre : (heading item).isPrefixOf text = true :=
          List.isPrefixOf_iff_prefix.mpr ⟨content.toList, heq.symm⟩
        have hdrop : String.ofList (text.drop (heading item).length) = content := by
          rw [heq, drop_left, String.ofList_toList]
        rw [if_pos hpre]
        simp only [hdrop]
        exact bind_ok.mpr ⟨(), (checkContent_ok_iff env content ()).mpr
          (hadmissible content mem_cons_self), rfl⟩
    | cons following contexts =>
      unfold editContexts
      constructor
      · intro h
        by_cases hpre : (heading item).isPrefixOf text = true
        · rw [if_pos hpre] at h
          cases hcut : partition (glue ++ heading following) (text.drop (heading item).length) with
          | none =>
            rw [hcut] at h
            exact absurd h (by simp)
          | some cut =>
            rcases cut with ⟨content, remaining⟩
            rw [hcut] at h
            rcases bind_ok.mp h with ⟨u, hcheck, hrest⟩
            rcases bind_ok.mp hrest with ⟨rest, hedit, hout⟩
            rcases (ih _ _).mp hedit with
              ⟨contents, hlength, hadmissible, hseparate, htext, hwith⟩
            rcases (partition_eq_some_iff _ _ _ _ (glue_heading_ne_nil following)).mp hcut
              with ⟨hdrop, hclean⟩
            refine ⟨String.ofList content :: contents, congrArg Nat.succ hlength,
              forall_mem_cons.mpr ⟨(checkContent_ok_iff env _ u).mp hcheck, hadmissible⟩,
              ⟨by rw [String.toList_ofList]; exact hclean, hseparate⟩, ?_, ?_⟩
            · rw [(isPrefixOf_heading_iff item text).mp hpre, hdrop]
              rw [composeContexts_withContents item following contexts _ contents hlength,
                ← htext, String.toList_ofList]
              simp only [append_assoc]
            · rw [← pure_ok.mp hout, hwith]
              rfl
        · rw [if_neg hpre] at h
          exact absurd h (by simp)
      · rintro ⟨contents, hlength, hadmissible, hseparate, htext, rfl⟩
        cases contents with
        | nil => exact absurd hlength (by simp)
        | cons content contents =>
          have hrest : contents.length = (following :: contexts).length :=
            Nat.succ.inj hlength
          rcases forall_mem_cons.mp hadmissible with ⟨hfirst, hmore⟩
          rcases composeContexts_withContents_head following contexts contents hrest with
            ⟨remaining, hremaining⟩
          rw [composeContexts_withContents item following contexts content contents hrest,
            hremaining] at htext
          have hpre : (heading item).isPrefixOf text = true :=
            List.isPrefixOf_iff_prefix.mpr ⟨_, htext.symm⟩
          have hcut : partition (glue ++ heading following)
              (text.drop (heading item).length) = some (content.toList, remaining) := by
            rw [htext, drop_left, partition_eq_some_iff _ _ _ _ (glue_heading_ne_nil following)]
            exact ⟨by simp only [append_assoc], hseparate.1⟩
          rw [if_pos hpre, hcut]
          simp only [String.ofList_toList]
          refine bind_ok.mpr ⟨(), (checkContent_ok_iff env content ()).mpr hfirst, ?_⟩
          refine bind_ok.mpr ⟨withContents (following :: contexts) contents, ?_, rfl⟩
          exact (ih _ _).mpr ⟨contents, hrest, hmore, hseparate.2, hremaining.symm, rfl⟩

def contextEdits (contexts : List ManifestEntry) (contents : List String) : List Json :=
  contexts.zipWith (fun item content =>
    Json.dict [("prompt_id", .str item.promptId), ("content", .str content)]) contents

theorem readContextEdit_ok_iff (promptId content : String) (edit : ContextEdit) :
    readContextEdit (.dict [("prompt_id", .str promptId), ("content", .str content)]) = .ok edit
      ↔ isRecordId promptId = true ∧ (1 ≤ content.length ∧ content.length ≤ 100000)
        ∧ hasNul content = false ∧ edit = ⟨promptId, content⟩ := by
  have hread : readContextEdit (.dict [("prompt_id", .str promptId), ("content", .str content)])
      = if isRecordId promptId && decide (1 ≤ content.length)
          && decide (content.length ≤ 100000) && !hasNul content then .ok ⟨promptId, content⟩
        else .error validationError := rfl
  rw [hread]
  by_cases h : (isRecordId promptId && decide (1 ≤ content.length)
      && decide (content.length ≤ 100000) && !hasNul content) = true
  · rw [if_pos h, Except.ok.injEq]
    simp only [Bool.and_eq_true, decide_eq_true_eq, Bool.not_eq_true'] at h
    exact ⟨fun heq => ⟨h.1.1.1, ⟨h.1.1.2, h.1.2⟩, h.2, heq.symm⟩, fun heq => heq.2.2.2.symm⟩
  · rw [if_neg h]
    simp only [Bool.and_eq_true, decide_eq_true_eq, Bool.not_eq_true'] at h
    refine ⟨fun heq => absurd heq (by simp), fun heq => absurd ?_ h⟩
    exact ⟨⟨⟨heq.1, heq.2.1.1⟩, heq.2.1.2⟩, heq.2.2.1⟩

theorem applyEdits_ok_iff (contexts : List ManifestEntry) (edits : List ContextEdit)
    (out : List ManifestEntry) (hlength : edits.length = contexts.length) :
    applyEdits env contexts edits = .ok out
      ↔ (∀ edit ∈ edits, Admissible env edit.content)
        ∧ out = withContents contexts (edits.map ContextEdit.content) := by
  induction contexts generalizing edits out with
  | nil =>
    rw [length_eq_zero_iff.mp hlength]
    exact ⟨fun h => ⟨fun _ h => absurd h not_mem_nil, (Except.ok.inj h).symm⟩,
      fun h => congrArg Except.ok h.2.symm⟩
  | cons item contexts ih =>
    cases edits with
    | nil => exact absurd hlength (by simp)
    | cons edit edits =>
      have hrest := Nat.succ.inj hlength
      unfold applyEdits
      constructor
      · intro h
        rcases bind_ok.mp h with ⟨u, hcheck, hmore⟩
        rcases bind_ok.mp hmore with ⟨rest, hedits, hout⟩
        rcases (ih edits rest hrest).mp hedits with ⟨hall, rfl⟩
        exact ⟨forall_mem_cons.mpr ⟨(checkContent_ok_iff env _ u).mp hcheck, hall⟩,
          (pure_ok.mp hout).symm⟩
      · rintro ⟨hall, rfl⟩
        rcases forall_mem_cons.mp hall with ⟨hfirst, hmore⟩
        exact bind_ok.mpr ⟨(), (checkContent_ok_iff env _ ()).mpr hfirst,
          bind_ok.mpr ⟨_, (ih edits _ hrest).mpr ⟨hmore, rfl⟩, rfl⟩⟩

theorem mapM_contextEdits (contexts : List ManifestEntry) (contents : List String)
    (hlength : contents.length = contexts.length)
    (hvalid : ∀ e ∈ contexts, isRecordId e.promptId = true)
    (hcontents : ∀ c ∈ contents, 1 ≤ c.length ∧ c.length ≤ 100000) (edits : List ContextEdit) :
    (contextEdits contexts contents).mapM readContextEdit = .ok edits
      ↔ (∀ c ∈ contents, hasNul c = false)
        ∧ edits = contexts.zipWith (fun e c => ⟨e.promptId, c⟩) contents := by
  induction contexts generalizing contents edits with
  | nil =>
    rw [length_eq_zero_iff.mp hlength]
    exact ⟨fun h => ⟨fun _ h => absurd h not_mem_nil, (Except.ok.inj h).symm⟩,
      fun h => congrArg Except.ok h.2.symm⟩
  | cons item contexts ih =>
    cases contents with
    | nil => exact absurd hlength (by simp)
    | cons content contents =>
      rcases forall_mem_cons.mp hvalid with ⟨hitem, hitems⟩
      rcases forall_mem_cons.mp hcontents with ⟨hcontent, hmore⟩
      have hih := fun edits => ih contents (Nat.succ.inj hlength) hitems hmore edits
      have hcons : contextEdits (item :: contexts) (content :: contents)
          = .dict [("prompt_id", .str item.promptId), ("content", .str content)]
            :: contextEdits contexts contents := rfl
      rw [hcons, mapM_cons]
      constructor
      · intro h
        rcases bind_ok.mp h with ⟨edit, hedit, hrest⟩
        rcases bind_ok.mp hrest with ⟨rest, hedits, hout⟩
        rcases (readContextEdit_ok_iff _ _ _).mp hedit with ⟨_, _, hnul, rfl⟩
        rcases (hih rest).mp hedits with ⟨hnuls, rfl⟩
        exact ⟨forall_mem_cons.mpr ⟨hnul, hnuls⟩, (pure_ok.mp hout).symm⟩
      · rintro ⟨hall, rfl⟩
        rcases forall_mem_cons.mp hall with ⟨hnul, hnuls⟩
        exact bind_ok.mpr ⟨_, (readContextEdit_ok_iff _ _ _).mpr ⟨hitem, hcontent, hnul, rfl⟩,
          bind_ok.mpr ⟨_, (hih _).mpr ⟨hnuls, rfl⟩, rfl⟩⟩

end

end Apex.Services
