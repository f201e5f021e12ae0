import Apex.Routers.CycleRows
import Apex.Theory.Cycles.Reuse

/-!
# The Actions That Are Offered

What is offered of a version and what a review checks are written twice. Where the ids of a
history are distinct they agree: an operator is offered exactly the reviews that would be
accepted of it. Archiving and restoring are always accepted, and the one of them is offered
that changes something.

The two differ in how they look at what a version rests on. A review looks at each of those
versions itself and asks that its approval stands; an approval that stands says all of it.

## Theorems

* `accepts_iff`: A review is accepted if its checks pass of the version it names.
* `mem_availableActions`: What is offered.
-/

namespace Apex.Routers

open Auth Domain Persistence
open ReviewAction (noConfusion)

section Offers

variable {env : CyclesEnv} {row : TestCycle} {v : Version} {actor : ConsumerIdentity}
  {a : CycleAction}

theorem accepts_iff (hids : (row.versions.map Version.id).Nodup) (hv : v ∈ row.versions)
    (ha : a.versionId = v.id) {reviewer : String} (time : String) :
    (∃ versions', transition env row.versions a reviewer time row.independentReview
        = .ok versions') ↔
      checkTransition env row.versions a reviewer row.independentReview v = .ok () := by
  constructor
  · rintro ⟨versions', h⟩
    rcases transition_split h with ⟨before, target, after, hsplit, hid, hcheck, _⟩
    have hmem : target ∈ row.versions := hsplit ▸ List.mem_append_right _ List.mem_cons_self
    rwa [eq_of_id hids hmem hv (hid.trans ha)] at hcheck
  · exact transition_exists time hids hv ha.symm

theorem versionIssues_isEmpty : (versionIssues env v).isEmpty = true ↔
    contentIntegrity env v = true ∧ contentIssues env v.kind v.content = [] := by
  rw [versionIssues, List.isEmpty_iff, List.append_eq_nil_iff]
  cases contentIntegrity env v with
  | true => exact ⟨fun h => ⟨rfl, h.1⟩, fun h => ⟨h.2, rfl⟩⟩
  | false => exact ⟨fun h => absurd h.2 (List.cons_ne_nil _ _), fun h => Bool.noConfusion h.1⟩

theorem upstream_iff (hids : (row.versions.map Version.id).Nodup) :
    (∀ d ∈ v.dependencies, upstreamStale env row.versions d = false) ↔
      v.dependencies.all (approvalCurrent env row.versions) = true := by
  rw [List.all_eq_true]
  exact ⟨fun h d hd => upstreamStale_false (h d hd),
    fun h d hd => upstreamStale_of_current hids (h d hd)⟩

theorem approveOffered_iff (hids : (row.versions.map Version.id).Nodup) :
    approveOffered env row v actor = true ↔ (contentIntegrity env v = true
      ∧ contentIssues env v.kind v.content = [])
      ∧ (row.independentReview = true → actor.consumerId ≠ v.createdBy)
      ∧ ∀ d ∈ v.dependencies, upstreamStale env row.versions d = false := by
  rw [approveOffered, Bool.and_eq_true, Bool.and_eq_true, versionIssues_isEmpty, and_assoc,
    upstream_iff hids]
  refine and_congr_right fun _ => and_congr_left fun _ => ?_
  cases row.independentReview with
  | true => exact ⟨fun h _ => bne_iff_ne.mp h, fun h => bne_iff_ne.mpr (h rfl)⟩
  | false => exact ⟨fun _ h => Bool.noConfusion h, fun _ => rfl⟩

theorem mem_offeredReviews {action : ReviewAction} : action ∈ offeredReviews env row v actor ↔
    (action = .submit ∧ v.status = .draft ∧ (versionIssues env v).isEmpty = true)
      ∨ (action = .requestRevision ∧ v.status = .inReview)
      ∨ (action = .approve ∧ v.status = .inReview ∧ approveOffered env row v actor = true) := by
  unfold offeredReviews
  cases hstatus : v.status with
  | draft => cases (versionIssues env v).isEmpty <;> simp
  | inReview => cases approveOffered env row v actor <;> simp
  | approved => simp

theorem mem_availableActions (hrole : actor.role.atLeast .operator = true) {action : ReviewAction} :
    action ∈ availableActions env row v (some actor) ↔ (action = .restore ∧ v.archived = true)
      ∨ (action = .archive ∧ v.archived = false)
      ∨ (v.archived = false ∧ superseded row.versions v.id = false
        ∧ action ∈ offeredReviews env row v actor) := by
  rw [availableActions, if_pos hrole]
  cases v.archived with
  | true => cases superseded row.versions v.id <;> simp
  | false => cases superseded row.versions v.id <;> simp

theorem archive_offered (hrole : actor.role.atLeast .operator = true) :
    .archive ∈ availableActions env row v (some actor) ↔ v.archived = false := by
  rw [mem_availableActions hrole, mem_offeredReviews]
  simp

theorem restore_offered (hrole : actor.role.atLeast .operator = true) :
    .restore ∈ availableActions env row v (some actor) ↔ v.archived = true := by
  rw [mem_availableActions hrole, mem_offeredReviews]
  simp

theorem offered_iff_passed (hids : (row.versions.map Version.id).Nodup)
    (hrole : actor.role.atLeast .operator = true)
    (hreview : ¬ (a.action = .archive ∨ a.action = .restore)) :
    a.action ∈ availableActions env row v (some actor) ↔
      ReviewPassed env row.versions a actor.consumerId row.independentReview v := by
  rw [mem_availableActions hrole, mem_offeredReviews, versionIssues_isEmpty,
    approveOffered_iff hids]
  constructor
  · rintro (⟨h, _⟩ | ⟨h, _⟩ | ⟨hactive, hlatest, hoffered⟩)
    · exact absurd (Or.inr h) hreview
    · exact absurd (Or.inl h) hreview
    · rcases hoffered with ⟨h, hstatus, hintact⟩ | ⟨h, hstatus⟩ |
        ⟨h, hstatus, hintact, hdistinct, hupstream⟩
      · refine ⟨hactive, hlatest, by rw [h]; exact hstatus, fun _ => hintact, ?_, ?_⟩
        · exact fun happrove => noConfusion (h.symm.trans happrove)
        · exact fun happrove => noConfusion (h.symm.trans happrove)
      · refine ⟨hactive, hlatest, by rw [h]; exact hstatus, ?_, ?_, ?_⟩
        · rintro (hsubmit | happrove)
          · exact noConfusion (h.symm.trans hsubmit)
          · exact noConfusion (h.symm.trans happrove)
        · exact fun happrove => noConfusion (h.symm.trans happrove)
        · exact fun happrove => noConfusion (h.symm.trans happrove)
      · exact ⟨hactive, hlatest, by rw [h]; exact hstatus, fun _ => hintact, fun _ => hdistinct,
          fun _ => hupstream⟩
  · rintro ⟨hactive, hlatest, hstatus, hintact, hdistinct, hupstream⟩
    refine Or.inr (Or.inr ⟨hactive, hlatest, ?_⟩)
    cases h : a.action with
    | submit =>
      rw [h] at hstatus
      exact Or.inl ⟨rfl, hstatus, hintact (Or.inl h)⟩
    | approve =>
      rw [h] at hstatus
      exact Or.inr (Or.inr ⟨rfl, hstatus, hintact (Or.inr h), hdistinct h, hupstream h⟩)
    | requestRevision =>
      rw [h] at hstatus
      exact Or.inr (Or.inl ⟨rfl, hstatus⟩)
    | archive => exact absurd (Or.inl h) hreview
    | restore => exact absurd (Or.inr h) hreview

/-- What an operator is offered of a version is what is accepted of it, except that a version
    may be archived and restored in any case. -/
theorem offered_iff_accepted (hsound : SoundHistory env row.versions) (hv : v ∈ row.versions)
    (hrole : actor.role.atLeast .operator = true) (ha : a.versionId = v.id) (time : String) :
    (∃ versions', transition env row.versions a actor.consumerId time row.independentReview
        = .ok versions') ↔ a.action ∈ availableActions env row v (some actor)
      ∨ a.action = .archive ∨ a.action = .restore := by
  rw [accepts_iff hsound.ids hv ha time, checkTransition]
  by_cases hreview : a.action = .archive ∨ a.action = .restore
  · rw [if_pos hreview]
    exact ⟨fun _ => Or.inr hreview, fun _ => rfl⟩
  · rw [if_neg hreview, checkReview_ok_iff, offered_iff_passed hsound.ids hrole hreview]
    exact ⟨Or.inl, fun h => h.elim id fun h => absurd h hreview⟩

end Offers

end Apex.Routers
