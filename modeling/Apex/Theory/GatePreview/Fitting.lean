import Apex.Graphs.Pipeline.GatePreview

/-!
# What a Fitted Preview Keeps

A payload that is too large is emptied and filled again under its budget. Whatever is put
in was measured with everything before it, so the payload is within the budget at the end
if it was when it was empty; and the lists are filled in order, so what they hold are
sublists of what they held.

That something can be read at the end is a different matter. A piece is only measured
beside what was put in before it. What is put in before anything that can be read is a
summary, and at the end a text of the preview, without anything to read: blank text is
kept like any other, and a long one leaves no room. `fitted` therefore asks that the piece
fits beside such texts as well as without them. `blank_summary_crowds` is a summary of
blanks that displaces a text which fits on its own.

## Main definitions

* `HasVisible`: A payload in which something can be read.
* `Fitted`: What is asked of a fitted payload.

## Theorems

* `fits_refill`: The payload that is filled again is within the budget.
* `fitted`: Everything that is asked.
-/

namespace Apex.Graphs

open List
open Domain Domain.InputLimits
open PhaseReview (preview setPreview warnings artifacts dialogueTail projectionTruncated)

inductive HasVisible (r : PhaseReview) : Prop where
  | summary (h : isVisible r.summary = true)
  | preview (field : String) (hfield : field ∈ previewFields)
      (h : isVisible (r.preview field) = true)
  | warning (w : Json) (hw : w ∈ r.warnings) (h : isVisible w = true)
  | artifact (a : Dict Json) (ha : a ∈ r.artifacts) (h : isVisibleArtifact a = true)
  | message (e : Dict Json) (he : e ∈ r.dialogueTail) (h : isVisibleMessage e = true)

/-- A piece of a payload that can be read, and how it is put into another. -/
inductive Evidence (env : PreviewEnv) (p : PhaseReview) : (PhaseReview → PhaseReview) → Prop where
  | summary (h : isVisible p.summary = true) :
      Evidence env p fun r => { r with summary := p.summary }
  | preview (field : String) (hfield : field ∈ previewFields)
      (h : isVisible (p.preview field) = true) :
      Evidence env p fun r => r.setPreview field (p.preview field)
  | warning (w : Json) (hw : w ∈ p.warnings) (h : isVisible w = true) :
      Evidence env p fun r => { r with warnings := r.warnings ++ [w] }
  | artifact (a : Dict Json) (ha : a ∈ p.artifacts) (h : isVisibleArtifact a = true) :
      Evidence env p fun r => { r with artifacts := r.artifacts ++ [a] }
  | message (e : Dict Json) (he : e ∈ p.dialogueTail) (h : isVisibleMessage e = true) :
      Evidence env p fun r => { r with dialogueTail := shorten env e :: r.dialogueTail }

/-- The empty payload, with the summary and the digest if nothing can be read in them. -/
def bareWith (p : PhaseReview) (withSummary withDigest : Bool) : PhaseReview :=
  let r := if withSummary && !isVisible p.summary then { bare p with summary := p.summary }
    else bare p
  if withDigest && !isVisible (p.preview "reasoning_digest") then
    r.setPreview "reasoning_digest" (p.preview "reasoning_digest")
  else r

variable {v digest summary : Json} {r : PhaseReview} {field : String}

theorem ne_null_of_isVisible (h : isVisible v = true) : v ≠ .null := by
  rintro rfl
  exact Bool.false_ne_true h

theorem isVisible_of_mem {s : String} {c : Char} (hc : c ∈ s.toList)
    (hblank : isPySpace c = false) : isVisible (.str s) = true := by
  rw [isVisible, bne_iff_ne]
  intro hempty
  have hnil : ((s.toList.dropWhile isPySpace).reverse.dropWhile isPySpace).reverse = [] := by
    have h := congrArg String.toList hempty
    rwa [strip, String.toList_ofList] at h
  have hall : ∀ x ∈ s.toList.dropWhile isPySpace, isPySpace x = true := by
    intro x hx
    exact dropWhile_eq_nil_iff.mp (reverse_eq_nil_iff.mp hnil) x (mem_reverse.mpr hx)
  -- What dropping leaves begins with a character that is no blank, so it leaves nothing.
  have hfront : s.toList.dropWhile isPySpace = [] := by
    rcases hd : s.toList.dropWhile isPySpace with _ | ⟨x, rest⟩
    · rfl
    have hhead := head?_dropWhile_not isPySpace s.toList
    rw [hd] at hhead
    have hx := hall x (by rw [hd]; exact mem_cons_self)
    have hnot : isPySpace x = false := hhead
    rw [hx] at hnot
    exact absurd hnot (by decide)
  have hspace := dropWhile_eq_nil_iff.mp hfront c hc
  rw [hblank] at hspace
  exact absurd hspace (by decide)

variable {e : Dict Json} {env : PreviewEnv} {p : PhaseReview} {c : Char}

theorem shorten_short (h : isLong e = false) :
    shorten env e = e := by
  rw [isLong] at h
  rw [shorten]
  split
  · next content hcontent =>
      rw [hcontent] at h
      exact if_neg (of_decide_eq_false h)
  · rfl

theorem isVisibleMessage_shorten
    (h : isVisibleMessage e = true) : isVisibleMessage (shorten env e) = true := by
  rw [shorten]
  split
  · split_ifs
    · have hdots : isPySpace '…' = false := by decide
      rw [isVisibleMessage, Dict.value, Dict.get?_set_self]
      refine isVisible_of_mem ?_ hdots
      rw [String.toList_append]
      exact mem_append_right _ (mem_singleton.mpr rfl)
    · exact h
  · exact h

/-- The texts of the preview are as in the payload, or not there. -/
def KeepsTexts (p r : PhaseReview) : Prop :=
  ∀ field ∈ previewFields,
    ∃ v, r.resultPreview.get? field = some v ∧ (v = .null ∨ v = p.preview field)

theorem preview_of_get? (h : r.resultPreview.get? field = some v) : r.preview field = v := by
  rw [preview, Dict.value, h]
  rfl

theorem setPreview_self (h : r.resultPreview.get? field = some v) : r.setPreview field v = r := by
  rw [setPreview, Dict.set_eq_self h]

theorem get?_setPreview (r : PhaseReview) (field field' : String) (v : Json) :
    (r.setPreview field v).resultPreview.get? field'
      = if field' = field then some v else r.resultPreview.get? field' := by
  rw [setPreview, Dict.get?_set]

theorem preview_setPreview_self (r : PhaseReview) (field : String) (v : Json) :
    (r.setPreview field v).preview field = v :=
  preview_of_get? (by rw [get?_setPreview, if_pos rfl])

theorem preview_setPreview_ne (r : PhaseReview) {field' : String} (v : Json)
    (h : field' ≠ field) : (r.setPreview field v).preview field' = r.preview field' := by
  rw [preview, Dict.value, get?_setPreview, if_neg h]
  rfl

theorem bare_get? (p : PhaseReview) :
    ∀ field ∈ previewFields, (bare p).resultPreview.get? field = some .null := by
  intro field hfield
  simp only [previewFields, mem_cons, not_mem_nil, or_false] at hfield
  rcases hfield with rfl | rfl <;> rfl

theorem KeepsTexts.set (h : KeepsTexts p r) (field : String) :
    KeepsTexts p (r.setPreview field (p.preview field)) := by
  intro field' hfield'
  rw [get?_setPreview]
  by_cases heq : field' = field
  · exact ⟨p.preview field, if_pos heq, .inr (by rw [heq])⟩
  · rcases h field' hfield' with ⟨v, hv, hcases⟩
    exact ⟨v, (if_neg heq).trans hv, hcases⟩

section

variable {env : PreviewEnv} {p : PhaseReview}

/-- Something can be read in a payload that fits. -/
def Live (env : PreviewEnv) (r : PhaseReview) : Prop :=
  HasVisible r ∧ fitsPhaseReviewPreview env r = true

theorem keepSummary_cases (env : PreviewEnv) (p : PhaseReview) :
    (fitsPhaseReviewPreview env { bare p with summary := p.summary } = true ∧
      keepSummary env p (bare p) = { bare p with summary := p.summary }) ∨
    keepSummary env p (bare p) = bare p := by
  rw [keepSummary]
  split_ifs with hnull hfits
  · exact .inl ⟨hfits, rfl⟩
  · exact .inr rfl
  · exact .inr rfl

theorem keepSummary_put (hnull : p.summary ≠ .null)
    (hfits : fitsPhaseReviewPreview env { bare p with summary := p.summary } = true) :
    keepSummary env p (bare p) = { bare p with summary := p.summary } := by
  rw [keepSummary, if_pos hnull, if_pos hfits]

theorem reservePreview_cases : ∀ {fields : List String} {r : PhaseReview},
    (∀ field ∈ fields, r.resultPreview.get? field = some .null) →
      (∃ field ∈ fields, isVisible (p.preview field) = true ∧
        fitsPhaseReviewPreview env (r.setPreview field (p.preview field)) = true ∧
        reservePreview env p fields r = r.setPreview field (p.preview field)) ∨
      ((∀ field ∈ fields, isVisible (p.preview field) = true →
        fitsPhaseReviewPreview env (r.setPreview field (p.preview field)) = false) ∧
        reservePreview env p fields r = r)
  | [], r, _ => .inr ⟨fun field h => absurd h not_mem_nil, rfl⟩
  | field :: fields, r, hnull => by
    have hrest := reservePreview_cases (r := r) fun g hg =>
      hnull g (mem_cons_of_mem field hg)
    rw [reservePreview]
    by_cases hvisible : isVisible (p.preview field) = true
    · by_cases hfits : fitsPhaseReviewPreview env (r.setPreview field (p.preview field)) = true
      · refine .inl ⟨field, mem_cons_self, hvisible, hfits, ?_⟩
        exact (if_pos hvisible).trans (if_pos hfits)
      · have hskip : (if isVisible (p.preview field) = true then
            if fitsPhaseReviewPreview env (r.setPreview field (p.preview field)) = true then
              r.setPreview field (p.preview field)
            else reservePreview env p fields (r.setPreview field .null)
          else reservePreview env p fields r) = reservePreview env p fields r := by
          rw [if_pos hvisible, if_neg hfits, setPreview_self (hnull field mem_cons_self)]
        refine hrest.imp ?_ ?_
        · rintro ⟨g, hg, hg'⟩
          exact ⟨g, mem_cons_of_mem field hg, hg'.1, hg'.2.1, hskip.trans hg'.2.2⟩
        · rintro ⟨hnone, heq⟩
          refine ⟨fun g hg => ?_, hskip.trans heq⟩
          rcases mem_cons.mp hg with rfl | hg
          · exact fun _ => Bool.eq_false_iff.mpr hfits
          · exact hnone g hg
    · refine hrest.imp ?_ ?_
      · rintro ⟨g, hg, hg'⟩
        exact ⟨g, mem_cons_of_mem field hg, hg'.1, hg'.2.1, (if_neg hvisible).trans hg'.2.2⟩
      · rintro ⟨hnone, heq⟩
        refine ⟨fun g hg => ?_, (if_neg hvisible).trans heq⟩
        rcases mem_cons.mp hg with rfl | hg
        · exact fun h => absurd h hvisible
        · exact hnone g hg

variable {r : PhaseReview}

theorem fillField_cases {field : String} (h : r.resultPreview.get? field = some .null ∨
      (r.resultPreview.get? field = some (p.preview field) ∧ fitsPhaseReviewPreview env r = true)) :
    (p.preview field ≠ .null ∧
      fitsPhaseReviewPreview env (r.setPreview field (p.preview field)) = true ∧
      fillField env p r field = r.setPreview field (p.preview field)) ∨
    ((p.preview field ≠ .null →
      fitsPhaseReviewPreview env (r.setPreview field (p.preview field)) = false) ∧
      fillField env p r field = r) := by
  rw [fillField]
  split_ifs with hnull hput
  · exact .inl ⟨hnull, hput, rfl⟩
  · refine .inr ⟨fun _ => Bool.eq_false_iff.mpr hput, ?_⟩
    rcases h with hv | ⟨hv, hfits⟩
    · exact setPreview_self hv
    · rw [setPreview_self hv] at hput
      exact absurd hfits hput
  · exact .inr ⟨fun h => absurd h hnull, rfl⟩

theorem HasVisible.setText (h : HasVisible r) (hkeeps : KeepsTexts p r)
    (field : String) : HasVisible (r.setPreview field (p.preview field)) := by
  cases h with
  | summary h => exact .summary h
  | warning w hw h => exact .warning w hw h
  | artifact a ha h => exact .artifact a ha h
  | message e he h => exact .message e he h
  | preview g hg h =>
    refine .preview g hg ?_
    by_cases heq : g = field
    · subst heq
      rcases hkeeps g hg with ⟨v, hv, hcases⟩
      rw [preview_of_get? hv] at h
      rw [preview_setPreview_self, ← hcases.resolve_left (ne_null_of_isVisible h)]
      exact h
    · rw [preview_setPreview_ne r _ heq]
      exact h

theorem fillField_fits {field : String} (hfield : field ∈ previewFields) (hkeeps : KeepsTexts p r)
    (hfits : fitsPhaseReviewPreview env r = true) :
    fitsPhaseReviewPreview env (fillField env p r field) = true ∧
      KeepsTexts p (fillField env p r field) ∧
      (HasVisible r → HasVisible (fillField env p r field)) := by
  rcases hkeeps field hfield with ⟨v, hv, hcases⟩
  have hplace : r.resultPreview.get? field = some .null ∨
      (r.resultPreview.get? field = some (p.preview field) ∧
        fitsPhaseReviewPreview env r = true) := by
    rcases hcases with rfl | rfl
    · exact .inl hv
    · exact .inr ⟨hv, hfits⟩
  rcases fillField_cases hplace with ⟨_, hput, heq⟩ | ⟨_, heq⟩
  · rw [heq]
    exact ⟨hput, hkeeps.set field, fun h => h.setText hkeeps field⟩
  · rw [heq]
    exact ⟨hfits, hkeeps, id⟩

theorem fillFields_fits (hkeeps : KeepsTexts p r) (hfits : fitsPhaseReviewPreview env r = true) :
    fitsPhaseReviewPreview env (previewFields.foldl (fillField env p) r) = true ∧
      (HasVisible r → HasVisible (previewFields.foldl (fillField env p) r)) := by
  have hdigest : "reasoning_digest" ∈ previewFields := mem_cons_self
  have hsummary : "summary" ∈ previewFields := mem_cons_of_mem _ mem_cons_self
  rcases fillField_fits hdigest hkeeps hfits with ⟨hfits', hkeeps', hvisible'⟩
  rcases fillField_fits hsummary hkeeps' hfits' with ⟨hfits'', _, hvisible''⟩
  exact ⟨hfits'', fun h => hvisible'' (hvisible' h)⟩

def keepLists (env : PreviewEnv) (p r : PhaseReview) : PhaseReview :=
  keepDialogue env p (keepArtifacts env p (keepWarnings env p r))

theorem keepLists_frame {β : Type} (f : PhaseReview → β)
    (hw : ∀ (r : PhaseReview) ws, f { r with warnings := ws } = f r)
    (ha : ∀ (r : PhaseReview) as, f { r with artifacts := as } = f r)
    (hd : ∀ (r : PhaseReview) es, f { r with dialogueTail := es } = f r) (r : PhaseReview) :
    f (keepLists env p r) = f r := by
  have hwarnings : f (keepWarnings env p r) = f r := by
    refine greedy_frame f ?_ p.warnings r
    exact fun r' w => hw r' _
  have hartifacts : f (keepArtifacts env p (keepWarnings env p r)) = f (keepWarnings env p r) := by
    refine greedy_frame f ?_ p.artifacts _
    exact fun r' a => ha r' _
  have hdialogue : f (keepLists env p r) = f (keepArtifacts env p (keepWarnings env p r)) := by
    refine greedy_frame f ?_ p.dialogueTail.reverse _
    exact fun r' e => hd r' _
  rw [hdialogue, hartifacts, hwarnings]

theorem keepLists_empty (hw : p.warnings = []) (ha : p.artifacts = [])
    (hd : p.dialogueTail = []) : keepLists env p r = r := by
  rw [keepLists, keepDialogue, keepArtifacts, keepWarnings, hw, ha, hd, reverse_nil,
    greedy_nil, greedy_nil, greedy_nil]

theorem keepWarnings_or (r : PhaseReview) :
    keepWarnings env p r = r ∨ Live env (keepWarnings env p r) :=
  greedy_eq_or fun _ e _ hel hf =>
    ⟨.warning e (mem_append_right _ (mem_singleton.mpr rfl)) hel, hf⟩

theorem keepArtifacts_or (r : PhaseReview) :
    keepArtifacts env p r = r ∨ Live env (keepArtifacts env p r) :=
  greedy_eq_or fun _ e _ hel hf =>
    ⟨.artifact e (mem_append_right _ (mem_singleton.mpr rfl)) hel, hf⟩

theorem keepDialogue_or (r : PhaseReview) :
    keepDialogue env p r = r ∨ Live env (keepDialogue env p r) :=
  greedy_eq_or fun _ e _ hel hf => ⟨.message e mem_cons_self hel, hf⟩

theorem keepLists_or (r : PhaseReview) :
    keepLists env p r = r ∨ Live env (keepLists env p r) := by
  rw [keepLists]
  rcases keepDialogue_or (keepArtifacts env p (keepWarnings env p r)) with hd | hd
  · rw [hd]
    rcases keepArtifacts_or (keepWarnings env p r) with ha | ha
    · rw [ha]
      exact keepWarnings_or r
    · exact .inr ha
  · exact .inr hd

theorem keepLists_fits (h : fitsPhaseReviewPreview env r = true) :
    fitsPhaseReviewPreview env (keepLists env p r) = true := by
  rcases @keepLists_or env p r with heq | hlive
  · rw [heq]
    exact h
  · exact hlive.2

theorem Live.keepLists (h : Live env r) : Live env (keepLists env p r) := by
  rcases @keepLists_or env p r with heq | hlive
  · rw [heq]
    exact h
  · exact hlive

theorem keepWarnings_reaches {w : Json} (hw : w ∈ p.warnings) (hvisible : isVisible w = true)
    (hfits : fitsPhaseReviewPreview env { r with warnings := r.warnings ++ [w] } = true) :
    Live env (keepWarnings env p r) :=
  greedy_reaches (fun _ e _ hel hf =>
      ⟨.warning e (mem_append_right _ (mem_singleton.mpr rfl)) hel, hf⟩)
    ⟨w, hw, hvisible, hfits⟩

theorem keepArtifacts_reaches {a : Dict Json} (ha : a ∈ p.artifacts)
    (hvisible : isVisibleArtifact a = true)
    (hfits : fitsPhaseReviewPreview env { r with artifacts := r.artifacts ++ [a] } = true) :
    Live env (keepArtifacts env p r) :=
  greedy_reaches (fun _ e _ hel hf =>
      ⟨.artifact e (mem_append_right _ (mem_singleton.mpr rfl)) hel, hf⟩)
    ⟨a, ha, hvisible, hfits⟩

theorem keepDialogue_reaches {e : Dict Json} (he : e ∈ p.dialogueTail)
    (hvisible : isVisibleMessage e = true)
    (hfits : fitsPhaseReviewPreview env { r with dialogueTail := e :: r.dialogueTail } = true) :
    Live env (keepDialogue env p r) :=
  greedy_reaches (fun _ e _ hel hf => ⟨.message e mem_cons_self hel, hf⟩)
    ⟨e, mem_reverse.mpr he, hvisible, hfits⟩

theorem keepLists_reaches (h : (∃ w ∈ p.warnings, isVisible w = true ∧
        fitsPhaseReviewPreview env { r with warnings := r.warnings ++ [w] } = true) ∨
      (∃ a ∈ p.artifacts, isVisibleArtifact a = true ∧
        fitsPhaseReviewPreview env { r with artifacts := r.artifacts ++ [a] } = true) ∨
      (∃ e ∈ p.dialogueTail, isVisibleMessage e = true ∧
        fitsPhaseReviewPreview env { r with dialogueTail := e :: r.dialogueTail } = true)) :
    Live env (keepLists env p r) := by
  -- Each list is filled where the one before it left nothing, or the payload is live already.
  have hdialogue : ∀ {r' : PhaseReview}, Live env r' → Live env (keepDialogue env p r') := by
    intro r' hlive
    rcases @keepDialogue_or env p r' with heq | hlive'
    · rw [heq]
      exact hlive
    · exact hlive'
  have hartifacts : ∀ {r' : PhaseReview}, Live env r' → Live env (keepArtifacts env p r') := by
    intro r' hlive
    rcases @keepArtifacts_or env p r' with heq | hlive'
    · rw [heq]
      exact hlive
    · exact hlive'
  rw [Apex.Graphs.keepLists]
  rcases h with ⟨w, hw, hvisible, hfits⟩ | h
  · exact hdialogue (hartifacts (keepWarnings_reaches hw hvisible hfits))
  rcases @keepWarnings_or env p r with heq | hlive
  · rw [heq]
    rcases h with ⟨a, ha, hvisible, hfits⟩ | ⟨e, he, hvisible, hfits⟩
    · exact hdialogue (keepArtifacts_reaches ha hvisible hfits)
    · rcases @keepArtifacts_or env p r with heq' | hlive'
      · rw [heq']
        exact keepDialogue_reaches he hvisible hfits
      · exact hdialogue hlive'
  · exact hdialogue (hartifacts hlive)

def started (env : PreviewEnv) (p : PhaseReview) : PhaseReview :=
  if isVisible p.summary then keepSummary env p (bare p)
  else reservePreview env p previewFields (keepSummary env p (bare p))

theorem refill_eq (env : PreviewEnv) (p : PhaseReview) :
    refill env p = previewFields.foldl (fillField env p) (keepLists env p (started env p)) := rfl

theorem keepSummary_texts (env : PreviewEnv) (p : PhaseReview) :
    (keepSummary env p (bare p)).resultPreview = (bare p).resultPreview := by
  rcases keepSummary_cases env p with ⟨_, heq⟩ | heq
  · rw [heq]
  · rw [heq]

theorem keepSummary_get? (env : PreviewEnv) (p : PhaseReview) :
    ∀ field ∈ previewFields,
      (keepSummary env p (bare p)).resultPreview.get? field = some .null := by
  rw [keepSummary_texts]
  exact bare_get? p

/-- What the filling starts with: a text that can be read, or a payload in which nothing
    can be. -/
theorem started_cases (env : PreviewEnv) (p : PhaseReview) :
    (∃ field ∈ previewFields, isVisible (p.preview field) = true ∧
        fitsPhaseReviewPreview env ((keepSummary env p (bare p)).setPreview field
          (p.preview field)) = true ∧
        started env p = (keepSummary env p (bare p)).setPreview field (p.preview field)) ∨
      started env p = keepSummary env p (bare p) := by
  rw [started]
  split_ifs with hsummary
  · exact .inr rfl
  · rcases @reservePreview_cases env p previewFields _ (keepSummary_get? env p) with h | ⟨_, heq⟩
    · exact .inl h
    · exact .inr heq

theorem started_texts (env : PreviewEnv) (p : PhaseReview) : KeepsTexts p (started env p) := by
  have hkeeps : KeepsTexts p (keepSummary env p (bare p)) := fun field hfield =>
    ⟨.null, keepSummary_get? env p field hfield, .inl rfl⟩
  rcases started_cases env p with ⟨field, _, _, _, heq⟩ | heq
  · rw [heq]
    exact hkeeps.set field
  · rw [heq]
    exact hkeeps

theorem keepLists_keepsTexts (env : PreviewEnv) (p : PhaseReview) :
    KeepsTexts p (keepLists env p (started env p)) := by
  intro field hfield
  rw [keepLists_frame PhaseReview.resultPreview (fun _ _ => rfl) (fun _ _ => rfl) (fun _ _ => rfl)]
  exact started_texts env p field hfield

theorem fits_refill (h : fitsPhaseReviewPreview env (bare p) = true) :
    fitsPhaseReviewPreview env (refill env p) = true := by
  have hstarted : fitsPhaseReviewPreview env (started env p) = true := by
    rcases started_cases env p with ⟨_, _, _, hfits, heq⟩ | heq
    · rw [heq]
      exact hfits
    · rw [heq]
      rcases keepSummary_cases env p with ⟨hfits, heq'⟩ | heq'
      · rw [heq']
        exact hfits
      · rw [heq']
        exact h
  rw [refill_eq]
  exact (fillFields_fits (keepLists_keepsTexts env p) (keepLists_fits hstarted)).1

theorem refill_of_live (h : Live env (keepLists env p (started env p))) :
    HasVisible (refill env p) := by
  rw [refill_eq]
  exact (fillFields_fits (keepLists_keepsTexts env p) h.2).2 h.1

theorem keepSummary_bareWith (env : PreviewEnv) (p : PhaseReview) :
    Live env (keepSummary env p (bare p)) ∨
      ∃ withSummary, keepSummary env p (bare p) = bareWith p withSummary false := by
  rcases keepSummary_cases env p with ⟨hfits, heq⟩ | heq
  · rw [heq]
    by_cases hvisible : isVisible p.summary = true
    · exact .inl ⟨.summary hvisible, hfits⟩
    · refine .inr ⟨true, ?_⟩
      rw [bareWith, Bool.eq_false_iff.mpr hvisible]
      rfl
  · exact .inr ⟨false, heq⟩

/-- Before the last texts are put back something can be read, or nothing was put in but a
    summary in which nothing can be. -/
theorem keepLists_bareWith (env : PreviewEnv) (p : PhaseReview) :
    Live env (keepLists env p (started env p)) ∨
      ∃ withSummary, started env p = bareWith p withSummary false ∧
        keepLists env p (started env p) = bareWith p withSummary false := by
  have hstarted : Live env (started env p) ∨
      ∃ withSummary, started env p = bareWith p withSummary false := by
    rcases started_cases env p with ⟨field, hfield, hvisible, hfits, heq⟩ | heq
    · rw [heq]
      refine .inl ⟨.preview field hfield ?_, hfits⟩
      rw [preview_setPreview_self]
      exact hvisible
    · rw [heq]
      exact keepSummary_bareWith env p
  rcases hstarted with hlive | ⟨withSummary, heq⟩
  · exact .inl hlive.keepLists
  · rcases @keepLists_or env p (started env p) with hsame | hlive
    · exact .inr ⟨withSummary, heq, hsame.trans heq⟩
    · exact .inl hlive

end

section

variable {env : PreviewEnv} {p : PhaseReview}

theorem fillFields_reaches {r : PhaseReview} {field : String} (hfield : field ∈ previewFields)
    (hvisible : isVisible (p.preview field) = true)
    (hnull : ∀ field ∈ previewFields, r.resultPreview.get? field = some .null)
    (hfits : fitsPhaseReviewPreview env (r.setPreview field (p.preview field)) = true)
    (hbeside : isVisible (p.preview "reasoning_digest") = false →
      fitsPhaseReviewPreview env ((r.setPreview "reasoning_digest"
        (p.preview "reasoning_digest")).setPreview field (p.preview field)) = true) :
    HasVisible (previewFields.foldl (fillField env p) r) := by
  have hdigest : "reasoning_digest" ∈ previewFields := mem_cons_self
  have hsummary : "summary" ∈ previewFields := mem_cons_of_mem _ mem_cons_self
  have hkeeps : KeepsTexts p r := fun g hg => ⟨.null, hnull g hg, .inl rfl⟩
  -- A text that was put back first stays while the second one is.
  have hsecond : ∀ {r' : PhaseReview}, KeepsTexts p r' → Live env r' →
      HasVisible (fillField env p r' "summary") :=
    fun hkeeps' hlive => (fillField_fits hsummary hkeeps' hlive.2).2.2 hlive.1
  show HasVisible (fillField env p (fillField env p r "reasoning_digest") "summary")
  have hreadable : ∀ (r' : PhaseReview) (g : String), g ∈ previewFields →
      isVisible (p.preview g) = true → HasVisible (r'.setPreview g (p.preview g)) := by
    intro r' g hg h
    exact .preview g hg (by rwa [preview_setPreview_self])
  simp only [previewFields, mem_cons, not_mem_nil, or_false] at hfield
  rcases hfield with rfl | rfl
  · rcases fillField_cases (.inl (hnull _ hdigest)) with ⟨_, hput, heq⟩ | ⟨hnot, _⟩
    · rw [heq]
      exact hsecond (hkeeps.set _) ⟨hreadable r _ hdigest hvisible, hput⟩
    · rw [hnot (ne_null_of_isVisible hvisible)] at hfits
      exact absurd hfits Bool.false_ne_true
  · -- The text is put back last, beside the digest if that fits.
    have hlast : ∀ {r' : PhaseReview}, r'.resultPreview.get? "summary" = some .null →
        fitsPhaseReviewPreview env (r'.setPreview "summary" (p.preview "summary")) = true →
        HasVisible (fillField env p r' "summary") := by
      intro r' hnull' hfits'
      rcases fillField_cases (.inl hnull') with ⟨_, _, heq⟩ | ⟨hnot, _⟩
      · rw [heq]
        exact hreadable r' _ hsummary hvisible
      · rw [hnot (ne_null_of_isVisible hvisible)] at hfits'
        exact absurd hfits' Bool.false_ne_true
    rcases fillField_cases (.inl (hnull _ hdigest)) with ⟨_, hput, heq⟩ | ⟨_, heq⟩
    · rw [heq]
      by_cases hd : isVisible (p.preview "reasoning_digest") = true
      · exact hsecond (hkeeps.set _) ⟨hreadable r _ hdigest hd, hput⟩
      · refine hlast ?_ (hbeside (Bool.eq_false_iff.mpr hd))
        rw [get?_setPreview, if_neg (by decide)]
        exact hnull _ hsummary
    · rw [heq]
      exact hlast (hnull _ hsummary) hfits

theorem keepSummary_blank (hblank : isVisible p.summary = false) :
    ∃ withSummary, keepSummary env p (bare p) = bareWith p withSummary false := by
  rcases keepSummary_cases env p with ⟨_, heq⟩ | heq
  · refine ⟨true, ?_⟩
    rw [heq, bareWith, hblank]
    rfl
  · exact ⟨false, heq⟩

theorem bareWith_get? (p : PhaseReview) (withSummary : Bool) :
    ∀ field ∈ previewFields,
      (bareWith p withSummary false).resultPreview.get? field = some .null := by
  intro field hfield
  have hbare := bare_get? p field hfield
  rw [bareWith, Bool.false_and, if_neg Bool.false_ne_true]
  split_ifs
  · exact hbare
  · exact hbare

theorem bareWith_digest (withSummary : Bool)
    (hblank : isVisible (p.preview "reasoning_digest") = false) :
    bareWith p withSummary true
      = (bareWith p withSummary false).setPreview "reasoning_digest"
          (p.preview "reasoning_digest") := by
  rw [bareWith, bareWith, hblank]
  rfl

/-- A piece that can be read and that fits, also beside texts in which nothing can be read,
    leaves something to read. -/
theorem refill_visible {add : PhaseReview → PhaseReview} (hadd : Evidence env p add)
    (hfits : ∀ withSummary withDigest,
      fitsPhaseReviewPreview env (add (bareWith p withSummary withDigest)) = true) :
    HasVisible (refill env (shortenMessages env p)) := by
  -- Cutting messages changes neither the empty payload nor the texts.
  have hlists := keepLists_bareWith env (shortenMessages env p)
  cases hadd with
  | summary h =>
    have hreadable : isVisible (shortenMessages env p).summary = true := h
    refine refill_of_live (Live.keepLists ?_)
    rw [started, if_pos hreadable]
    rw [keepSummary_put (ne_null_of_isVisible hreadable) (hfits false false)]
    exact ⟨.summary hreadable, hfits false false⟩
  | preview field hfield h =>
    by_cases hsummary : isVisible p.summary = true
    · rcases hlists with hlive | ⟨withSummary, _, heq⟩
      · exact refill_of_live hlive
      · rw [refill_eq, heq]
        refine fillFields_reaches hfield h (bareWith_get? _ withSummary)
          (hfits withSummary false) fun hblank => ?_
        rw [← bareWith_digest withSummary hblank]
        exact hfits withSummary true
    · have hblank : isVisible (shortenMessages env p).summary = false :=
        Bool.eq_false_iff.mpr hsummary
      refine refill_of_live (Live.keepLists ?_)
      rcases @keepSummary_blank env (shortenMessages env p) hblank with ⟨withSummary, heq⟩
      rw [started, hblank, if_neg Bool.false_ne_true]
      rcases @reservePreview_cases env (shortenMessages env p) previewFields _
        (keepSummary_get? env _) with ⟨g, hg, hg', hput, hreserved⟩ | ⟨hnone, _⟩
      · rw [hreserved]
        refine ⟨.preview g hg ?_, hput⟩
        rw [preview_setPreview_self]
        exact hg'
      · have hnot := hnone field hfield h
        rw [heq] at hnot
        exact absurd (hfits withSummary false) (Bool.eq_false_iff.mp hnot)
  | warning w hw h =>
    rcases hlists with hlive | ⟨withSummary, heq, _⟩
    · exact refill_of_live hlive
    · refine refill_of_live (keepLists_reaches (.inl ⟨w, hw, h, ?_⟩))
      rw [heq]
      exact hfits withSummary false
  | artifact a ha h =>
    rcases hlists with hlive | ⟨withSummary, heq, _⟩
    · exact refill_of_live hlive
    · refine refill_of_live (keepLists_reaches (.inr (.inl ⟨a, ha, h, ?_⟩)))
      rw [heq]
      exact hfits withSummary false
  | message e he h =>
    rcases hlists with hlive | ⟨withSummary, heq, _⟩
    · exact refill_of_live hlive
    · refine refill_of_live (keepLists_reaches (.inr (.inr ⟨shorten env e,
        List.mem_map_of_mem he, isVisibleMessage_shorten h, ?_⟩)))
      rw [heq]
      exact hfits withSummary false

end

theorem started_frame {β : Type} (env : PreviewEnv) (p : PhaseReview) (f : PhaseReview → β)
    (hs : ∀ (r : PhaseReview) v, f { r with summary := v } = f r)
    (hp : ∀ (r : PhaseReview) d, f { r with resultPreview := d } = f r) :
    f (started env p) = f (bare p) := by
  have hsummary : f (keepSummary env p (bare p)) = f (bare p) := by
    rcases keepSummary_cases env p with ⟨_, heq⟩ | heq
    · rw [heq]
      exact hs _ _
    · rw [heq]
  rcases started_cases env p with ⟨_, _, _, _, heq⟩ | heq
  · rw [heq]
    exact (hp _ _).trans hsummary
  · rw [heq]
    exact hsummary

theorem fillFields_frame {β : Type} (env : PreviewEnv) (p r : PhaseReview) (f : PhaseReview → β)
    (hp : ∀ (r : PhaseReview) d, f { r with resultPreview := d } = f r) :
    f (previewFields.foldl (fillField env p) r) = f r := by
  have hone : ∀ r' field, f (fillField env p r' field) = f r' := by
    intro r' field
    rw [fillField]
    split_ifs
    · exact hp _ _
    · exact hp _ _
    · rfl
  show f (fillField env p (fillField env p r _) _) = f r
  rw [hone, hone]

theorem keepWarnings_sublist (env : PreviewEnv) (p r : PhaseReview) :
    ∃ l : List Json, l.Sublist p.warnings ∧ (keepWarnings env p r).warnings = r.warnings ++ l := by
  refine greedy_append warnings ?_ p.warnings r
  exact fun _ _ => rfl

theorem keepArtifacts_sublist (env : PreviewEnv) (p r : PhaseReview) :
    ∃ l : List (Dict Json), l.Sublist p.artifacts ∧
      (keepArtifacts env p r).artifacts = r.artifacts ++ l := by
  refine greedy_append artifacts ?_ p.artifacts r
  exact fun _ _ => rfl

theorem keepDialogue_sublist (env : PreviewEnv) (p r : PhaseReview) :
    ∃ l : List (Dict Json), l.Sublist p.dialogueTail.reverse ∧
      (keepDialogue env p r).dialogueTail = l.reverse ++ r.dialogueTail := by
  refine greedy_prepend dialogueTail ?_ p.dialogueTail.reverse r
  exact fun _ _ => rfl

theorem keepLists_sublist (env : PreviewEnv) (hw : r.warnings = []) (ha : r.artifacts = [])
    (hd : r.dialogueTail = []) :
    (keepLists env p r).warnings.Sublist p.warnings ∧
      (keepLists env p r).artifacts.Sublist p.artifacts ∧
      (keepLists env p r).dialogueTail.Sublist p.dialogueTail := by
  -- Filling one list leaves the others alone.
  have hwa : (keepArtifacts env p (keepWarnings env p r)).warnings
      = (keepWarnings env p r).warnings := by
    refine greedy_frame warnings ?_ p.artifacts _
    exact fun _ _ => rfl
  have hwd : (keepLists env p r).warnings
      = (keepArtifacts env p (keepWarnings env p r)).warnings := by
    refine greedy_frame warnings ?_ p.dialogueTail.reverse _
    exact fun _ _ => rfl
  have haw : (keepWarnings env p r).artifacts = r.artifacts := by
    refine greedy_frame artifacts ?_ p.warnings _
    exact fun _ _ => rfl
  have had : (keepLists env p r).artifacts
      = (keepArtifacts env p (keepWarnings env p r)).artifacts := by
    refine greedy_frame artifacts ?_ p.dialogueTail.reverse _
    exact fun _ _ => rfl
  have hdw : (keepWarnings env p r).dialogueTail = r.dialogueTail := by
    refine greedy_frame dialogueTail ?_ p.warnings _
    exact fun _ _ => rfl
  have hda : (keepArtifacts env p (keepWarnings env p r)).dialogueTail
      = (keepWarnings env p r).dialogueTail := by
    refine greedy_frame dialogueTail ?_ p.artifacts _
    exact fun _ _ => rfl
  refine ⟨?_, ?_, ?_⟩
  · rcases keepWarnings_sublist env p r with ⟨l, hl, heq⟩
    rw [hwd, hwa, heq, hw, nil_append]
    exact hl
  · rcases keepArtifacts_sublist env p (keepWarnings env p r) with ⟨l, hl, heq⟩
    rw [had, heq, haw, ha, nil_append]
    exact hl
  · rcases keepDialogue_sublist env p (keepArtifacts env p (keepWarnings env p r))
      with ⟨l, hl, heq⟩
    rw [keepLists, heq, hda, hdw, hd, append_nil]
    exact reverse_reverse p.dialogueTail ▸ hl.reverse

theorem refill_lists (env : PreviewEnv) (p : PhaseReview) :
    (refill env p).warnings.Sublist p.warnings ∧ (refill env p).artifacts.Sublist p.artifacts ∧
      (refill env p).dialogueTail.Sublist p.dialogueTail ∧
      (refill env p).projectionTruncated = true := by
  have hlists := keepLists_sublist (p := p) env
    (started_frame env p warnings (fun _ _ => rfl) (fun _ _ => rfl))
    (started_frame env p artifacts (fun _ _ => rfl) (fun _ _ => rfl))
    (started_frame env p dialogueTail (fun _ _ => rfl) (fun _ _ => rfl))
  rw [refill_eq, fillFields_frame env p _ warnings fun _ _ => rfl,
    fillFields_frame env p _ artifacts fun _ _ => rfl,
    fillFields_frame env p _ dialogueTail fun _ _ => rfl,
    fillFields_frame env p _ projectionTruncated fun _ _ => rfl,
    keepLists_frame projectionTruncated (fun _ _ => rfl) (fun _ _ => rfl)
      (fun _ _ => rfl),
    started_frame env p projectionTruncated (fun _ _ => rfl) (fun _ _ => rfl)]
  exact ⟨hlists.1, hlists.2.1, hlists.2.2, rfl⟩

theorem shortenMessages_unmarked
    (h : (shortenMessages env p).projectionTruncated = false) : shortenMessages env p = p := by
  have hmarks : p.projectionTruncated = false ∧ p.dialogueTail.any isLong = false :=
    Bool.or_eq_false_iff.mp h
  have hsame : p.dialogueTail.map (shorten env) = p.dialogueTail := by
    refine (map_congr_left fun e he => ?_).trans (List.map_id _)
    exact shorten_short (Bool.eq_false_iff.mpr (List.any_eq_false.mp hmarks.2 e he))
  rcases p with ⟨_, _, _, _, _, tail, _, marked⟩
  simp only at hmarks hsame
  simp only [shortenMessages, hsame, hmarks.1, hmarks.2, Bool.or_false]

structure Fitted (env : PreviewEnv) (p r : PhaseReview) : Prop where
  /-- It is within the budget, if the payload without anything optional is. -/
  fits : fitsPhaseReviewPreview env (bare p) = true → fitsPhaseReviewPreview env r = true
  /-- What is kept of the lists is as it was and in order, but for the cut of a message. -/
  warnings : r.warnings.Sublist p.warnings
  artifacts : r.artifacts.Sublist p.artifacts
  dialogue : r.dialogueTail.Sublist (p.dialogueTail.map (shorten env))
  /-- Without a mark nothing is missing and nothing is cut. -/
  marked : r.projectionTruncated = false → r = p
  /-- Something can be read, if a piece that can be read fits, also beside a summary and a
      digest in which nothing can be read. -/
  visible : ∀ add, Evidence env p add →
    (∀ withSummary withDigest,
      fitsPhaseReviewPreview env (add (bareWith p withSummary withDigest)) = true) →
    HasVisible r

/-- Fitting a preview does all that is asked of it. -/
theorem preview_fitted (env : PreviewEnv) (p : PhaseReview) :
    Fitted env p (fitPhaseReviewPreview env p) := by
  rw [fitPhaseReviewPreview]
  split_ifs with hwhole
  · refine ⟨fun _ => hwhole, Sublist.refl _, Sublist.refl _, Sublist.refl _,
      shortenMessages_unmarked, fun add hadd _ => ?_⟩
    cases hadd with
    | summary h => exact .summary h
    | preview field hfield h => exact .preview field hfield h
    | warning w hw h => exact .warning w hw h
    | artifact a ha h => exact .artifact a ha h
    | message e he h =>
      exact .message (shorten env e) (List.mem_map_of_mem he) (isVisibleMessage_shorten h)
  · rcases refill_lists env (shortenMessages env p) with ⟨hw, ha, hd, hmark⟩
    refine ⟨fun h => fits_refill h, hw, ha, hd, fun h => ?_, fun add hadd hfits =>
      refill_visible hadd hfits⟩
    rw [hmark] at h
    exact absurd h (by decide)

/-- A payload with nothing but a summary and a digest. -/
def sampleReview (summary digest : Json) (marked : Bool) : PhaseReview where
  phase := .storyAnalysis
  summary := summary
  resultPreview := ⟨[("summary", .null), ("reasoning_digest", digest)], by
    simp only [List.map_cons, List.map_nil]
    decide⟩
  artifacts := []
  warnings := []
  dialogueTail := []
  error := none
  projectionTruncated := marked

def previewEnv : PreviewEnv where
  rules := sampleRules
  floatText _ := []

def run (c : Char) (n : Nat) : Json := .str (String.ofList (List.replicate n c))

theorem fits_iff (env : PreviewEnv) (r : PhaseReview) :
    fitsPhaseReviewPreview env r = true ↔
      r.toJson.nodes ≤ 4088 ∧ r.toJson.everyAt (nodeOk previewLimits) 0 = true ∧
        r.toJson.bytes env.floatText ≤ 253952 := by
  have hok := @validateJsonObject_ok_iff previewLimits "phase review preview" env.floatText r.toJson
    (by decide)
  have hobject : isObject r.toJson = true := rfl
  rw [hobject] at hok
  rw [fitsPhaseReviewPreview]
  constructor
  · intro h
    cases hv : validateJsonObject previewLimits "phase review preview" env.floatText r.toJson with
    | error e =>
      rw [hv] at h
      exact absurd h Bool.false_ne_true
    | ok u => exact (hok.mp hv).2
  · intro h
    rw [hok.mpr ⟨rfl, h⟩]
    rfl

/-- The items of the sample before and after its texts. -/
def sampleFront : List (String × Json) :=
  [("schema_version", .int 1), ("kind", .str "phase_review"), ("phase", .str "story_analysis")]

def sampleBack (marked : Bool) : List (String × Json) :=
  [("artifacts", .list []), ("warnings", .list []), ("dialogue_tail", .list []),
    ("actions", .list [.str "approve", .str "revise", .str "discuss", .str "abort"])]
    ++ if marked then [("projection_truncated", .bool true)] else []

theorem sample_toJson (summary digest : Json) (marked : Bool) :
    (sampleReview summary digest marked).toJson
      = .dict (sampleFront ++ ("summary", summary) ::
          ("result_preview", .dict [("summary", .null), ("reasoning_digest", digest)]) ::
            sampleBack marked) := by
  cases marked <;> rfl

theorem sample_bytes (summary digest : Json) (marked : Bool) :
    (sampleReview summary digest marked).toJson.bytes previewEnv.floatText
      ≤ summary.bytes previewEnv.floatText + digest.bytes previewEnv.floatText + 1000 := by
  have hfront : (sampleFront.map (Json.itemBytes previewEnv.floatText)).sum ≤ 300 := by decide
  have hback : ((sampleBack marked).map (Json.itemBytes previewEnv.floatText)).sum ≤ 300 := by
    cases marked <;> decide
  have hsummary : escapedBytes "summary".toList = 7 := by decide
  have hpreview : escapedBytes "result_preview".toList = 14 := by decide
  have hdigest : escapedBytes "reasoning_digest".toList = 16 := by decide
  have hnull : Json.bytes previewEnv.floatText .null = 4 := by decide
  have hinner := @Json.bytes_dict previewEnv.floatText
    [("summary", .null), ("reasoning_digest", digest)]
  have houter := @Json.bytes_dict previewEnv.floatText (sampleFront ++ ("summary", summary) ::
    ("result_preview", .dict [("summary", .null), ("reasoning_digest", digest)]) ::
      sampleBack marked)
  simp only [map_append, map_cons, map_nil, sum_append, sum_cons,
    sum_nil, Json.itemBytes, hsummary, hpreview, hdigest, hnull] at hinner houter
  rw [sample_toJson]
  omega

theorem le_sample_bytes (summary digest : Json) (marked : Bool) :
    summary.bytes previewEnv.floatText + digest.bytes previewEnv.floatText
      ≤ (sampleReview summary digest marked).toJson.bytes previewEnv.floatText := by
  have hinner := @Json.bytes_dict previewEnv.floatText
    [("summary", .null), ("reasoning_digest", digest)]
  have houter := @Json.bytes_dict previewEnv.floatText (sampleFront ++ ("summary", summary) ::
    ("result_preview", .dict [("summary", .null), ("reasoning_digest", digest)]) ::
      sampleBack marked)
  simp only [map_append, map_cons, map_nil, sum_append, sum_cons,
    sum_nil, Json.itemBytes] at hinner houter
  rw [sample_toJson]
  omega

theorem sample_nodes (summary digest : Json) (marked : Bool) :
    (sampleReview summary digest marked).toJson.nodes ≤ summary.nodes + digest.nodes + 30 := by
  have hfront : Json.nodesItems sampleFront = 3 := by decide
  have hback : Json.nodesItems (sampleBack marked) ≤ 10 := by cases marked <;> decide
  have hdict : ∀ items, (Json.dict items).nodes = 1 + Json.nodesItems items := fun _ => rfl
  have hitem : ∀ k v items, Json.nodesItems ((k, v) :: items) = v.nodes + Json.nodesItems items :=
    fun _ _ _ => rfl
  have hnull : Json.null.nodes = 1 := rfl
  have hnil : Json.nodesItems [] = 0 := rfl
  rw [sample_toJson, hdict, Json.nodesItems_append, hfront, hitem, hitem, hdict, hitem, hitem, hnil,
    hnull]
  omega

theorem nodeOk_dict (limits : JsonLimits) (depth : Nat) (items : List (String × Json)) :
    nodeOk limits depth (.dict items)
      = (decide (depth ≤ limits.maxDepth) && (items.map Prod.fst).all (keyOk limits)) := by
  rw [nodeOk, leafOk, List.all_map]
  rfl

theorem sample_passes (hs : summary.everyAt (nodeOk previewLimits) 1 = true)
    (hd : digest.everyAt (nodeOk previewLimits) 2 = true) (marked : Bool) :
    (sampleReview summary digest marked).toJson.everyAt (nodeOk previewLimits) 0 = true := by
  have hfront : Json.everyAtItems (nodeOk previewLimits) 1 sampleFront = true := by decide
  have hback : Json.everyAtItems (nodeOk previewLimits) 1 (sampleBack marked) = true := by
    cases marked <;> decide
  have hkeys : ∀ v w : Json, nodeOk previewLimits 0
      (.dict (sampleFront ++ ("summary", v) :: ("result_preview", w) :: sampleBack marked))
        = true := by
    intro v w
    rw [nodeOk_dict, map_append, map_cons, map_cons]
    dsimp only
    cases marked <;> decide
  have hinner : nodeOk previewLimits 1
      (.dict [("summary", .null), ("reasoning_digest", digest)]) = true := by
    rw [nodeOk_dict, map_cons, map_cons]
    dsimp only
    decide
  rw [Json.everyAtItems_iff] at hfront hback
  rw [sample_toJson, Json.everyAt, hkeys, Bool.true_and, Json.everyAtItems_iff]
  intro kv hkv
  rcases mem_append.mp hkv with hkv | hkv
  · exact hfront kv hkv
  rcases mem_cons.mp hkv with rfl | hkv
  · exact hs
  rcases mem_cons.mp hkv with rfl | hkv
  · rw [Json.everyAt, hinner, Bool.true_and, Json.everyAtItems, Json.everyAtItems,
      Json.everyAtItems, hd]
    rfl
  · exact hback kv hkv

theorem run_passes (hc : c ≠ Char.ofNat 0) (n : Nat) {depth : Nat}
    (hdepth : depth ≤ 24) : (run c n).everyAt (nodeOk previewLimits) depth = true := by
  have hnul : hasNul (String.ofList (replicate n c)) = false := by
    rw [hasNul, String.toList_ofList, List.any_eq_false]
    intro x hx
    rw [(mem_replicate.mp hx).2, beq_iff_eq]
    exact hc
  rw [run, Json.everyAt, nodeOk, leafOk, hnul, decide_eq_true (show depth ≤ previewLimits.maxDepth
    from hdepth)]
  rfl

theorem run_bytes (hc : utf8Length (escapeChar c) = 1) (n : Nat) :
    (run c n).bytes previewEnv.floatText = 2 + n := by
  rw [run, Json.bytes_str, String.toList_ofList, escapedBytes_replicate, hc, Nat.mul_one]

theorem sample_fits (marked : Bool) (hnodes : summary.nodes + digest.nodes ≤ 4000)
    (hs : summary.everyAt (nodeOk previewLimits) 1 = true)
    (hd : digest.everyAt (nodeOk previewLimits) 2 = true)
    (hbytes : summary.bytes previewEnv.floatText + digest.bytes previewEnv.floatText ≤ 252000) :
    fitsPhaseReviewPreview previewEnv (sampleReview summary digest marked) = true := by
  have hle := sample_bytes summary digest marked
  have hcount := sample_nodes summary digest marked
  exact (fits_iff _ _).mpr ⟨by omega, sample_passes hs hd marked, by omega⟩

theorem sample_too_large (marked : Bool)
    (hbytes : 253952 < summary.bytes previewEnv.floatText + digest.bytes previewEnv.floatText) :
    fitsPhaseReviewPreview previewEnv (sampleReview summary digest marked) = false := by
  refine Bool.eq_false_iff.mpr fun h => ?_
  have hle := ((fits_iff _ _).mp h).2.2
  have hge := le_sample_bytes summary digest marked
  omega

def sampleBlank : Json := run ' ' 200000

/-- A text that fits on its own, but not beside the blanks. -/
def sampleText : Json := run 'x' 100000

theorem sampleBlank_bytes : sampleBlank.bytes previewEnv.floatText = 200002 :=
  run_bytes (by decide) _

theorem sampleText_bytes : sampleText.bytes previewEnv.floatText = 100002 :=
  run_bytes (by decide) _

theorem sampleBlank_invisible : isVisible sampleBlank = false := by
  have hdrop : (replicate 200000 ' ').dropWhile isPySpace = [] := by
    refine dropWhile_eq_nil_iff.mpr fun c hc => ?_
    rw [(mem_replicate.mp hc).2]
    decide
  rw [sampleBlank, run, isVisible, strip, String.toList_ofList, hdrop]
  rfl

theorem sampleText_visible : isVisible sampleText = true := by
  refine @isVisible_of_mem _ 'x' ?_ (by decide)
  rw [String.toList_ofList]
  exact mem_replicate.mpr ⟨by decide, rfl⟩

theorem sample_fits_blank :
    fitsPhaseReviewPreview previewEnv (sampleReview sampleBlank .null true) = true := by
  refine sample_fits true (Nat.le_of_ble_eq_true rfl) (run_passes (by decide) _ (by decide)) rfl ?_
  rw [sampleBlank_bytes]
  decide

theorem sample_fits_text :
    fitsPhaseReviewPreview previewEnv (sampleReview .null sampleText true) = true := by
  refine sample_fits true (Nat.le_of_ble_eq_true rfl) rfl (run_passes (by decide) _ (by decide)) ?_
  rw [sampleText_bytes]
  decide

theorem sample_fits_both (marked : Bool) :
    fitsPhaseReviewPreview previewEnv (sampleReview sampleBlank sampleText marked) = false := by
  refine sample_too_large marked ?_
  rw [sampleBlank_bytes, sampleText_bytes]
  decide

theorem sample_refill :
    fitPhaseReviewPreview previewEnv (sampleReview sampleBlank sampleText false)
      = sampleReview sampleBlank .null true := by
  -- No text goes in beside the blanks, neither before the lists nor after them.
  have hblank : isVisible (sampleReview sampleBlank sampleText false).summary = false :=
    sampleBlank_invisible
  have hkept : keepSummary previewEnv (sampleReview sampleBlank sampleText false)
      (bare (sampleReview sampleBlank sampleText false)) = sampleReview sampleBlank .null true :=
    keepSummary_put (fun h => by cases h) sample_fits_blank
  have hnull : ∀ field ∈ previewFields,
      (sampleReview sampleBlank .null true).resultPreview.get? field = some .null :=
    hkept ▸ keepSummary_get? previewEnv (sampleReview sampleBlank sampleText false)
  have hstarted : started previewEnv (sampleReview sampleBlank sampleText false)
      = sampleReview sampleBlank .null true := by
    rcases started_cases previewEnv (sampleReview sampleBlank sampleText false)
      with ⟨field, hfield, hvisible, hput, _⟩ | heq
    · rw [hkept] at hput
      simp only [previewFields, mem_cons, not_mem_nil, or_false] at hfield
      rcases hfield with rfl | rfl
      · exact absurd hput (Bool.eq_false_iff.mp (sample_fits_both true))
      · exact absurd hvisible Bool.false_ne_true
    · exact heq.trans hkept
  have hdigest : fillField previewEnv (sampleReview sampleBlank sampleText false)
      (sampleReview sampleBlank .null true) "reasoning_digest"
        = sampleReview sampleBlank .null true := by
    rcases @fillField_cases previewEnv (sampleReview sampleBlank sampleText false)
      (sampleReview sampleBlank .null true) "reasoning_digest"
      (.inl (hnull _ mem_cons_self)) with ⟨_, hput, _⟩ | ⟨_, heq⟩
    · exact absurd hput (Bool.eq_false_iff.mp (sample_fits_both true))
    · exact heq
  rw [fitPhaseReviewPreview]
  refine (if_neg (Bool.eq_false_iff.mp (sample_fits_both false))).trans ?_
  show previewFields.foldl (fillField previewEnv (sampleReview sampleBlank sampleText false))
    (keepLists previewEnv (sampleReview sampleBlank sampleText false)
      (started previewEnv (sampleReview sampleBlank sampleText false))) = _
  rw [hstarted, keepLists_empty rfl rfl rfl, previewFields, foldl_cons, hdigest,
    foldl_cons, foldl_nil, fillField]
  have hnone : (sampleReview sampleBlank sampleText false).preview "summary" = .null := rfl
  exact if_neg (not_not.mpr hnone)

/-- A summary of blanks is kept first and leaves no room for a text that fits on its own. -/
theorem blank_summary_crowds :
    (∃ add, Evidence previewEnv (sampleReview sampleBlank sampleText false) add ∧
      fitsPhaseReviewPreview previewEnv
        (add (bare (sampleReview sampleBlank sampleText false))) = true) ∧
    ¬ HasVisible (fitPhaseReviewPreview previewEnv
        (sampleReview sampleBlank sampleText false)) := by
  refine ⟨⟨_, .preview "reasoning_digest" mem_cons_self sampleText_visible, sample_fits_text⟩, ?_⟩
  rw [sample_refill]
  intro h
  cases h with
  | summary h => exact absurd h (Bool.eq_false_iff.mp sampleBlank_invisible)
  | preview field hfield h =>
    simp only [previewFields, mem_cons, not_mem_nil, or_false] at hfield
    rcases hfield with rfl | rfl <;> exact absurd h Bool.false_ne_true
  | warning w hw h => exact absurd hw not_mem_nil
  | artifact a ha h => exact absurd ha not_mem_nil
  | message e he h => exact absurd he not_mem_nil

end Apex.Graphs
