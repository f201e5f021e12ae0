import Apex.Theory.PromptSelections.ContextEdits

/-!
# The Aggregate Text

What submitting an aggregate text does, beside submitting the contents one by
one.

The aggregate text of new contents means these contents exactly when it is not
the text the current entries compose to, or the contents are the current ones,
and no content makes the heading behind it stand earlier. A content may hold
any text, the next heading included, so this is a real condition
(`aggregate_ambiguous`). Whatever is accepted composes to the submitted text
again, and apart from the unchanged text only what admissible contents compose
to is accepted.

## Main definitions

* `promptEnv`: Surroundings to evaluate statements in.
* `sampleReview`: A review of two contexts to evaluate statements with.

## Theorems

* `edited_aggregate`: An aggregate edit of a review.
* `aggregate_exact`: The two ways to edit, and what an aggregate text can do.
-/

namespace Apex.Services

open List Option
open Domain

variable (env : PromptEnv)

theorem Admissible.length {env : PromptEnv} {content : String} (h : Admissible env content) :
    1 ≤ content.length ∧ content.length ≤ 100000 := by
  refine ⟨?_, h.2.1.trans env.setting_le⟩
  by_contra hlength
  have hempty : content = "" := String.length_eq_zero_iff.mp (by omega)
  have hblank := h.1
  rw [hempty] at hblank
  exact absurd hblank (by decide)

theorem reviewMetadata_valid {current : Dict Json} {m : ReviewMetadata}
    (h : reviewMetadata env current = .ok (some m)) : ∀ e ∈ m.contexts, validEntry e = true := by
  unfold reviewMetadata at h
  split at h
  · exact absurd h (by simp)
  · split at h
    · next contexts selections _ _ =>
        rcases bind_ok.mp h with ⟨_, _, h⟩
        rcases bind_ok.mp h with ⟨parsed, hparsed, h⟩
        rcases bind_ok.mp h with ⟨_, _, h⟩
        rcases bind_ok.mp h with ⟨_, _, h⟩
        rcases bind_ok.mp h with ⟨_, _, h⟩
        have hm : m = ⟨parsed, selections⟩ := (some.inj (pure_ok.mp h)).symm
        intro e he
        rw [hm] at he
        rcases mapM_mem hparsed he with ⟨item, _, hitem⟩
        unfold readEntry at hitem
        split at hitem
        · exact absurd hitem (by simp)
        · split at hitem
          · next hvalid => exact Except.ok.inj hitem ▸ hvalid
          · exact absurd hitem (by simp)
    · exact absurd h (by simp)

section

variable {env} {current : Dict Json} {m : ReviewMetadata} {system : Option String}

section

variable (h : reviewMetadata env current = .ok (some m)) (hsystem : (jsonText system).same
  (current.value "system") = true) (application : Option String)

include h hsystem application

theorem edited_aggregate :
    editedReviewMetadata env current system application none
      = if (application.getD "").toList = composeContexts m.contexts then .ok (some m)
        else (editContexts env m.contexts (application.getD "").toList).map
          fun contexts => some { m with contexts := contexts } := by
  unfold editedReviewMetadata
  rw [h]
  simp only [hsystem, Bool.not_true, raiseIf, Bool.false_eq_true, if_false]
  show (if (application.getD "").toList = composeContexts m.contexts then _ else _) = _
  by_cases htext : (application.getD "").toList = composeContexts m.contexts
  · rw [if_pos htext, if_pos htext]
    rfl
  · rw [if_neg htext, if_neg htext]
    rfl

theorem edited_entries (items : List Json) (out : Option ReviewMetadata) :
    editedReviewMetadata env current system application (some items) = .ok out
      ↔ ∃ edits contexts, items.mapM readContextEdit = .ok edits
        ∧ edits.map ContextEdit.promptId = m.contexts.map ManifestEntry.promptId
        ∧ applyEdits env m.contexts edits = .ok contexts
        ∧ out = some { m with contexts := contexts } := by
  unfold editedReviewMetadata
  rw [h]
  simp only [hsystem, Bool.not_true]
  show (items.mapM readContextEdit >>= _) = _ ↔ _
  rw [bind_ok]
  refine exists_congr fun edits => ⟨fun hout => ?_, fun hout => ?_⟩
  · rcases hout with ⟨hedits, hout⟩
    rcases bind_ok.mp hout with ⟨u, hids, hout⟩
    rcases bind_ok.mp hout with ⟨contexts, happly, hout⟩
    rw [raiseIf_ok, bne_eq_false_iff_eq] at hids
    exact ⟨contexts, hedits, hids, happly, (pure_ok.mp hout).symm⟩
  · rcases hout with ⟨contexts, hedits, hids, happly, rfl⟩
    refine ⟨hedits, bind_ok.mpr ⟨(), ?_, bind_ok.mpr ⟨contexts, happly, rfl⟩⟩⟩
    rw [raiseIf_ok, bne_eq_false_iff_eq]
    exact hids

theorem edited_contents (contents : List String)
    (hlength : contents.length = m.contexts.length) (hcontents : ∀ c ∈ contents, Admissible env c) :
    editedReviewMetadata env current system application (some (contextEdits m.contexts contents))
        = .ok (some { m with contexts := withContents m.contexts contents })
      ↔ ∀ c ∈ contents, hasNul c = false := by
  have hids : ∀ e ∈ m.contexts, isRecordId e.promptId = true := by
    intro e he
    have hvalid := reviewMetadata_valid env h e he
    simp only [validEntry, Bool.and_eq_true] at hvalid
    tauto
  have hread := mapM_contextEdits m.contexts contents hlength hids fun c hc =>
    (hcontents c hc).length
  have hzip : ∀ (contexts : List ManifestEntry) (contents : List String),
      contents.length = contexts.length →
      (contexts.zipWith (fun e c => (⟨e.promptId, c⟩ : ContextEdit)) contents).map
          ContextEdit.promptId = contexts.map ManifestEntry.promptId
        ∧ (contexts.zipWith (fun e c => (⟨e.promptId, c⟩ : ContextEdit)) contents).map
          ContextEdit.content = contents := by
    intro contexts
    induction contexts with
    | nil => intro contents hlength; exact ⟨rfl, (length_eq_zero_iff.mp hlength).symm⟩
    | cons item contexts ih =>
      intro contents hlength
      cases contents with
      | nil => exact absurd hlength (by simp)
      | cons content contents =>
        have hrest := ih contents (Nat.succ.inj hlength)
        exact ⟨congrArg (item.promptId :: ·) hrest.1, congrArg (content :: ·) hrest.2⟩
  rcases hzip m.contexts contents hlength with ⟨hsame, hback⟩
  rw [edited_entries h hsystem]
  constructor
  · rintro ⟨edits, contexts, hedits, _⟩
    exact ((hread edits).mp hedits).1
  · intro hnul
    refine ⟨_, withContents m.contexts contents, (hread _).mpr ⟨hnul, rfl⟩, hsame, ?_, rfl⟩
    rw [applyEdits_ok_iff env m.contexts _ _ (by simp [hlength]), hback]
    refine ⟨fun edit hedit => ?_, rfl⟩
    have hmem := List.mem_map_of_mem hedit (f := ContextEdit.content)
    rw [hback] at hmem
    exact hcontents edit.content hmem

end

theorem withContents_inj {contexts : List ManifestEntry} : ∀ {xs ys : List String},
    xs.length = contexts.length → ys.length = contexts.length →
    withContents contexts xs = withContents contexts ys → xs = ys := by
  induction contexts with
  | nil =>
    intro xs ys hx hy _
    rw [length_eq_zero_iff.mp hx, length_eq_zero_iff.mp hy]
  | cons item contexts ih =>
    intro xs ys hx hy heq
    rcases xs with _ | ⟨x, xs⟩
    · exact absurd hx (by simp)
    rcases ys with _ | ⟨y, ys⟩
    · exact absurd hy (by simp)
    rcases cons.inj heq with ⟨hfirst, hrest⟩
    have hxy : x = y := congrArg ManifestEntry.content hfirst
    rw [hxy, ih (Nat.succ.inj hx) (Nat.succ.inj hy) hrest]

section

variable (h : reviewMetadata env current = .ok (some m)) (hsystem : (jsonText system).same
  (current.value "system") = true)

include h hsystem

theorem edited_composition (contents : List String)
    (hlength : contents.length = m.contexts.length) (hcontents : ∀ c ∈ contents, Admissible env c) :
    editedReviewMetadata env current system
        (some (String.ofList (composeContexts (withContents m.contexts contents)))) none
        = .ok (some { m with contexts := withContents m.contexts contents })
      ↔ if composeContexts (withContents m.contexts contents) = composeContexts m.contexts
        then withContents m.contexts contents = m.contexts
        else Separate m.contexts contents := by
  rw [edited_aggregate h hsystem, getD_some, String.toList_ofList]
  by_cases htext : composeContexts (withContents m.contexts contents) = composeContexts m.contexts
  · rw [if_pos htext, if_pos htext, Except.ok.injEq, some.injEq]
    refine ⟨fun heq => (congrArg ReviewMetadata.contexts heq).symm, fun heq => ?_⟩
    rw [heq]
  · rw [if_neg htext, if_neg htext]
    constructor
    · intro hout
      cases hedit : editContexts env m.contexts
          (composeContexts (withContents m.contexts contents)) with
      | error e =>
        rw [hedit] at hout
        exact absurd hout (by simp [Except.map])
      | ok contexts =>
        rw [hedit] at hout
        have heq : contexts = withContents m.contexts contents :=
          congrArg ReviewMetadata.contexts (some.inj (Except.ok.inj hout))
        rcases (editContexts_ok_iff env _ _ _).mp hedit with
          ⟨contents', hlength', _, hseparate, _, hwith⟩
        rw [withContents_inj hlength' hlength (hwith.symm.trans heq)] at hseparate
        exact hseparate
    · intro hseparate
      rw [(editContexts_ok_iff env _ _ _).mpr ⟨contents, hlength, hcontents, hseparate, rfl, rfl⟩]
      rfl

/-- What an aggregate text can do: leave the contexts as they are, or set the
    contents it is composed of. -/
theorem edited_text
    (application : Option String) (out : Option ReviewMetadata)
    (hout : editedReviewMetadata env current system application none = .ok out) :
    ∃ contexts, out = some { m with contexts := contexts }
      ∧ composeContexts contexts = (application.getD "").toList
      ∧ (contexts = m.contexts ∨ ∃ contents, contents.length = m.contexts.length
          ∧ (∀ c ∈ contents, Admissible env c) ∧ contexts = withContents m.contexts contents) := by
  rw [edited_aggregate h hsystem] at hout
  by_cases htext : (application.getD "").toList = composeContexts m.contexts
  · rw [if_pos htext] at hout
    exact ⟨m.contexts, (Except.ok.inj hout).symm, htext.symm, Or.inl rfl⟩
  · rw [if_neg htext] at hout
    rcases map_ok.mp hout with ⟨contexts, hedit, heq⟩
    rcases (editContexts_ok_iff env _ _ _).mp hedit with
      ⟨contents, hlength, hadmissible, _, hcompose, rfl⟩
    exact ⟨_, heq.symm, hcompose.symm, Or.inr ⟨contents, hlength, hadmissible, rfl⟩⟩

end

end

/-- Submitting new contents entry by entry gives them, unless one holds U+0000;
    submitting the text they compose to gives them exactly when no content makes
    the heading behind it stand earlier, or when nothing has changed. A text
    that is accepted is composed again from what it gives, and no text but the
    unchanged one and those of admissible contents is accepted. -/
theorem aggregate_exact (current : Dict Json) (m : ReviewMetadata) (system : Option String)
    (h : reviewMetadata env current = .ok (some m))
    (hsystem : (jsonText system).same (current.value "system") = true) :
    (∀ contents, contents.length = m.contexts.length → (∀ c ∈ contents, Admissible env c) →
      (∀ application,
        editedReviewMetadata env current system application
            (some (contextEdits m.contexts contents))
            = .ok (some { m with contexts := withContents m.contexts contents })
          ↔ ∀ c ∈ contents, hasNul c = false)
      ∧ (editedReviewMetadata env current system
            (some (String.ofList (composeContexts (withContents m.contexts contents)))) none
            = .ok (some { m with contexts := withContents m.contexts contents })
          ↔ if composeContexts (withContents m.contexts contents) = composeContexts m.contexts
            then withContents m.contexts contents = m.contexts
            else Separate m.contexts contents))
    ∧ (∀ application out, editedReviewMetadata env current system application none = .ok out →
        ∃ contexts, out = some { m with contexts := contexts }
          ∧ composeContexts contexts = (application.getD "").toList)
    ∧ ∀ application, (application.getD "").toList ≠ composeContexts m.contexts →
        (∀ contents, contents.length = m.contexts.length → (∀ c ∈ contents, Admissible env c) →
          (application.getD "").toList ≠ composeContexts (withContents m.contexts contents)) →
        ∃ e, editedReviewMetadata env current system application none = .error e := by
  refine ⟨fun contents hlength hcontents => ⟨fun application => ?_, ?_⟩,
    fun application out hout => ?_, fun application hcurrent hother => ?_⟩
  · exact edited_contents h hsystem application contents hlength hcontents
  · exact edited_composition h hsystem contents hlength hcontents
  · rcases edited_text h hsystem application out hout with ⟨contexts, heq, hcompose, _⟩
    exact ⟨contexts, heq, hcompose⟩
  · cases hout : editedReviewMetadata env current system application none with
    | error e => exact ⟨e, rfl⟩
    | ok out =>
      rcases edited_text h hsystem application out hout with ⟨contexts, _, hcompose, hcases⟩
      rcases hcases with rfl | ⟨contents, hlength, hadmissible, rfl⟩
      · exact absurd hcompose.symm hcurrent
      · exact absurd hcompose.symm (hother contents hlength hadmissible)

/-- Reading the fields of an entry that has them all. -/
def sampleFields (item : Json) : Option ManifestEntry :=
  match item with
  | .dict fields =>
    let text := fun key => match fields.lookup key with
      | some (.str s) => some s
      | _ => none
    match text "namespace", text "prompt_id", text "version_id", text "key", text "content",
      fields.lookup "version" with
    | some category, some promptId, some versionId, some key, some content, some (.int version) =>
      some
        { namespace_ := category, phase := none, applicationId := text "application_id"
          environmentId := text "environment_id", isShared := false, isDefault := false
          selectionEnabled := true, promptId := promptId, versionId := versionId, key := key
          version := version, content := content, overridden := false }
    | _, _, _, _, _, _ => none
  | _ => none

def promptEnv : PromptEnv where
  readFields := sampleFields
  rules := sampleRules
  floatText := fun _ => ['0', '.', '0']
  maxPromptPartChars := 50000
  setting_ge := by decide
  setting_le := by decide

def applicationContext : ManifestEntry :=
  ⟨"application", none, some "shop", none, false, false, true, "p1", "v1", "orders", 1, "old",
    false⟩

def environmentContext : ManifestEntry :=
  ⟨"environment", none, none, some "e1", false, false, true, "p2", "v2", "perf", 1, "old", false⟩

def contextJson (e : ManifestEntry) : Json :=
  .dict ([("namespace", .str e.namespace_), ("prompt_id", .str e.promptId),
    ("version_id", .str e.versionId), ("key", .str e.key), ("version", .int e.version),
    ("content", .str e.content)]
    ++ (e.applicationId.map fun id => ("application_id", Json.str id)).toList
    ++ (e.environmentId.map fun id => ("environment_id", Json.str id)).toList)

def sampleReview : Dict Json :=
  ⟨[("system_locked", .bool true), ("system", .str "policy"),
    ("contexts", .list [contextJson applicationContext, contextJson environmentContext]),
    ("selections", .list [])], by decide⟩

theorem sampleReview_metadata : ∃ m, reviewMetadata promptEnv sampleReview = .ok (some m)
    ∧ m.contexts = [applicationContext, environmentContext] := by
  have h : ((reviewMetadata promptEnv sampleReview).toOption.bind fun found =>
      found.map ReviewMetadata.contexts) = some [applicationContext, environmentContext] := by
    decide +kernel
  cases hread : reviewMetadata promptEnv sampleReview with
  | error e =>
    rw [hread] at h
    exact absurd h (by simp [Except.toOption])
  | ok found =>
    rw [hread] at h
    cases found with
    | none => exact absurd h (by simp [Except.toOption])
    | some m => exact ⟨m, rfl, some.inj h⟩

theorem aggregate_exact_sample : ∃ m, reviewMetadata promptEnv sampleReview = .ok (some m)
    ∧ ∀ application out,
      editedReviewMetadata promptEnv sampleReview (some "policy") application none = .ok out →
        ∃ contexts, out = some { m with contexts := contexts }
          ∧ composeContexts contexts = (application.getD "").toList := by
  rcases sampleReview_metadata with ⟨m, hm, _⟩
  exact ⟨m, hm, (aggregate_exact promptEnv sampleReview m (some "policy") hm (by decide)).2.1⟩

/-- A content that holds the next heading is cut there: the aggregate text of
    new contents does not always mean them. -/
theorem aggregate_ambiguous :
    ¬ ∀ (env : PromptEnv) (current : Dict Json) (m : ReviewMetadata) (system : Option String),
      reviewMetadata env current = .ok (some m) →
      (jsonText system).same (current.value "system") = true →
      ∀ contents, contents.length = m.contexts.length → (∀ c ∈ contents, Admissible env c) →
        editedReviewMetadata env current system
            (some (String.ofList (composeContexts (withContents m.contexts contents)))) none
          = .ok (some { m with contexts := withContents m.contexts contents }) := by
  intro hall
  rcases sampleReview_metadata with ⟨m, hm, hcontexts⟩
  have hadmissible : ∀ c ∈ ["new\n\n=== ENVIRONMENT CONTEXT: perf ===\nrest", "other"],
      Admissible promptEnv c := by
    intro c hc
    rcases mem_pair.mp hc with rfl | rfl
    · exact ⟨by decide +kernel, by decide, by decide +kernel⟩
    · exact ⟨by decide +kernel, by decide, by decide +kernel⟩
  have hlength : ["new\n\n=== ENVIRONMENT CONTEXT: perf ===\nrest", "other"].length
      = m.contexts.length := by rw [hcontexts]; rfl
  have hsystem : (jsonText (some "policy")).same (sampleReview.value "system") = true := by decide
  have hedited := (edited_composition hm hsystem _ hlength hadmissible).mp
    (hall promptEnv sampleReview m (some "policy") hm hsystem _ hlength hadmissible)
  rw [hcontexts, if_neg (by decide +kernel)] at hedited
  exact absurd hedited.1 (by unfold Clean; decide +kernel)

end Apex.Services
