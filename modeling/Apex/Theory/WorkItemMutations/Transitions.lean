import Apex.Persistence.WorkItemMutations

/-!
# What A Transaction Can Do To A Mutation

Every write of a row comes from one of nine operations, each of which locks the
row and decides. Seven of them show a token and write only if the row is running
under it; the other two take over a row whose lease has expired, or that has
none. Whichever it is, the row advances: it keeps what it was reserved for,
attempts stay on record, and steps are not undone.

The second half of the story is what an operation returns. It returns a row it
found or wrote, or one it read again after its commit raised, and in each case
the row shows that the operation is done.

## Main definitions

* `Licensed`: Who may change a row.
* `Operation.Done`: What an operation promises of the row it returns.

## Theorems

* `advances_write`: A written row advances.
* `done_of_keep`, `done_of_write`, `done_of_acknowledged`: A returned row is done.
-/

namespace Apex.Persistence

open List Function
open Option hiding or_self
open Domain Services
open Bool (false_eq_true and_eq_true)

structure RowAdvances (row row' : WorkItemMutation) : Prop where
  id : row'.id = row.id
  scope : row'.scope = row.scope
  payload : row'.payload = row.payload
  payloadHash : row'.payloadHash = row.payloadHash
  projectId : row'.projectId = row.projectId
  targetKey : row'.targetKey = row.targetKey
  providerMarker : row'.providerMarker = row.providerMarker
  settled : row.status.isTerminal = true → row' = row
  providerAttempted : ∀ t, row.providerAttemptedAt = some t → row'.providerAttemptedAt = some t
  commentAttempted : ∀ t, row.commentAttemptedAt = some t → row'.commentAttemptedAt = some t
  steps : ∀ step, row'.stepStatus step = row.stepStatus step ∨ row'.stepStatus step = .completed
  updatedAt : row.updatedAt ≤ row'.updatedAt

theorem RowAdvances.refl (row : WorkItemMutation) : RowAdvances row row where
  id := rfl
  scope := rfl
  payload := rfl
  payloadHash := rfl
  projectId := rfl
  targetKey := rfl
  providerMarker := rfl
  settled _ := rfl
  providerAttempted _ h := h
  commentAttempted _ h := h
  steps _ := Or.inl rfl
  updatedAt := Int.le_refl _

theorem RowAdvances.trans {r1 r2 r3 : WorkItemMutation} (h12 : RowAdvances r1 r2)
    (h23 : RowAdvances r2 r3) : RowAdvances r1 r3 where
  id := h23.id.trans h12.id
  scope := h23.scope.trans h12.scope
  payload := h23.payload.trans h12.payload
  payloadHash := h23.payloadHash.trans h12.payloadHash
  projectId := h23.projectId.trans h12.projectId
  targetKey := h23.targetKey.trans h12.targetKey
  providerMarker := h23.providerMarker.trans h12.providerMarker
  settled h := by
    have h2 := h12.settled h
    rw [← h2] at h
    rw [h23.settled h, h2]
  providerAttempted t h := h23.providerAttempted t (h12.providerAttempted t h)
  commentAttempted t h := h23.commentAttempted t (h12.commentAttempted t h)
  steps step := by
    rcases h23.steps step with h | h
    · rw [h]
      exact h12.steps step
    · exact Or.inr h
  updatedAt := Int.le_trans h12.updatedAt h23.updatedAt

/-- A token and a lease are stored exactly while the row is running. -/
structure WorkItemMutation.Consistent (row : WorkItemMutation) : Prop where
  token : row.status = .running ↔ row.claimToken.isSome = true
  lease : row.status = .running ↔ row.claimedAt.isSome = true

namespace Operation

/-- The moment at which an operation that takes over a row looked at the clock. -/
def takeoverAt : Operation → Option Instant
  | claim _ now _ => some now
  | deferResolution now _ _ => some now
  | _ => none

/-- What an operation promises of the row it returns: its own transition holds, or
    the row is settled. -/
def Done (row : WorkItemMutation) : Operation → Prop
  | claim token _ _ => row.status.isTerminal = true ∨ row.ownedBy token = true
  | markStep token step => row.ownedBy token = true ∧ row.stepStatus step = .completed
  | markProviderAttempted token _ =>
    row.ownedBy token = true ∧ row.providerAttemptedAt.isSome = true
  | markCommentAttempted token _ => row.ownedBy token = true ∧ row.commentAttemptedAt.isSome = true
  | renew token now => row.ownedBy token = true ∧ row.claimedAt = some now
  | complete _ result => row.status = .completed ∧ row.result = some result
  | fail _ errorKind _ => row.status = .failed ∧ row.terminalError = some errorKind
  | release _ _ _ => row.status ≠ .running
  | deferResolution _ _ _ => row.status ≠ .running

variable {op : Operation} {token : String} {row : WorkItemMutation}

theorem decide_transition (row : WorkItemMutation)
    (h : op.claimToken = some token) : op.decide row = op.transitionDecision token row := by
  cases op <;> simp only [claimToken, some.injEq, reduceCtorEq] at h <;> subst h <;> rfl

variable {written : WorkItemMutation}

theorem transition_write (h : op.transitionDecision token row = .write written) :
    row.ownedBy token = true ∧ op.resolved row = false ∧ written = op.mutate row := by
  unfold transitionDecision at h
  cases howned : row.ownedBy token <;> cases hresolved : op.resolved row <;>
    cases hrequire : op.requireOwnerForResolution <;>
    simp only [howned, hresolved, hrequire, Bool.not_true, Bool.not_false, Bool.and_true,
      Bool.and_false, false_eq_true, if_true, if_false, reduceCtorEq,
      Decision.write.injEq] at h
  · exact ⟨rfl, rfl, h.symm⟩
  · exact ⟨rfl, rfl, h.symm⟩

theorem ownedBy_iff :
    row.ownedBy token = true ↔ row.status = .running ∧ row.claimToken = some token := by
  unfold WorkItemMutation.ownedBy
  rw [and_eq_true, beq_iff_eq, beq_iff_eq]

/-- What a decision to write means: either the operation owns the running row, or
    it takes over a row that is not settled and not leased. -/
theorem write_cases (h : op.decide row = .write written) :
    written = op.mutate row ∧ row.status.isTerminal = false ∧
      ((∃ token, op.claimToken = some token ∧ row.ownedBy token = true ∧ op.resolved row = false) ∨
        (∃ now, op.takeoverAt = some now ∧ row.leased now = false)) := by
  cases htoken : op.claimToken with
  | some token =>
    rw [decide_transition row htoken] at h
    rcases transition_write h with ⟨howned, hresolved, hwritten⟩
    refine ⟨hwritten, ?_, Or.inl ⟨token, rfl, howned, hresolved⟩⟩
    rw [(ownedBy_iff.mp howned).1]
    rfl
  | none =>
    cases op <;> simp only [claimToken, reduceCtorEq] at htoken
    case claim token now ignoreBackoff =>
      simp only [decide] at h
      cases hterminal : row.status.isTerminal <;> cases hleased : row.leased now <;>
        simp only [hterminal, hleased, false_eq_true, if_true, if_false, reduceCtorEq] at h
      cases hdue : (!ignoreBackoff && row.nextAttemptAt.any (fun t => now < t)) <;>
        simp only [hdue, false_eq_true, if_true, if_false, reduceCtorEq,
          Decision.write.injEq] at h
      exact ⟨h.symm, rfl, Or.inr ⟨now, rfl, hleased⟩⟩
    case deferResolution now error retryAt =>
      simp only [decide] at h
      cases hterminal : row.status.isTerminal <;> cases hleased : row.leased now <;>
        simp only [hterminal, hleased, false_eq_true, if_true, if_false, reduceCtorEq,
          Decision.write.injEq] at h
      exact ⟨h.symm, rfl, Or.inr ⟨now, rfl, hleased⟩⟩

theorem mutate_keeps (op : Operation) (row : WorkItemMutation) :
    (op.mutate row).id = row.id ∧ (op.mutate row).scope = row.scope ∧
      (op.mutate row).payload = row.payload ∧ (op.mutate row).payloadHash = row.payloadHash ∧
      (op.mutate row).projectId = row.projectId ∧ (op.mutate row).targetKey = row.targetKey ∧
      (op.mutate row).providerMarker = row.providerMarker ∧
      (op.mutate row).updatedAt = row.updatedAt := by
  cases op
  case markStep token step => cases step <;> exact ⟨rfl, rfl, rfl, rfl, rfl, rfl, rfl, rfl⟩
  all_goals exact ⟨rfl, rfl, rfl, rfl, rfl, rfl, rfl, rfl⟩

theorem mutate_attempts (h : op.resolved row = false ∨ op.takeoverAt.isSome = true) :
    (∀ t, row.providerAttemptedAt = some t → (op.mutate row).providerAttemptedAt = some t) ∧
      (∀ t, row.commentAttemptedAt = some t → (op.mutate row).commentAttemptedAt = some t) := by
  cases op
  case markStep token step => cases step <;> exact ⟨fun _ h => h, fun _ h => h⟩
  case markProviderAttempted token at' =>
    refine ⟨fun t ht => ?_, fun _ h => h⟩
    simp only [resolved, ht, isSome_some, takeoverAt, isSome_none,
      false_eq_true, reduceCtorEq, or_self] at h
  case markCommentAttempted token at' =>
    refine ⟨fun _ h => h, fun t ht => ?_⟩
    simp only [resolved, ht, isSome_some, takeoverAt, isSome_none,
      false_eq_true, reduceCtorEq, or_self] at h
  all_goals exact ⟨fun _ h => h, fun _ h => h⟩

theorem mutate_steps (op : Operation) (row : WorkItemMutation) (step : Step) :
    (op.mutate row).stepStatus step = row.stepStatus step ∨
      (op.mutate row).stepStatus step = .completed := by
  cases op
  case markStep token done => cases done <;> cases step <;> first | exact Or.inl rfl | exact Or.inr rfl
  all_goals (cases step <;> exact Or.inl rfl)

theorem mutate_consistent (h : row.Consistent)
    (howned : op.takeoverAt.isSome = true ∨ row.status = .running) :
    (op.mutate row).Consistent := by
  have hsome : ∀ {α : Type} (a : α), (some a).isSome = true := fun _ => rfl
  cases op
  case claim => exact ⟨⟨fun _ => rfl, fun _ => rfl⟩, ⟨fun _ => rfl, fun _ => rfl⟩⟩
  case markStep token step => cases step <;> exact ⟨h.token, h.lease⟩
  case markProviderAttempted => exact ⟨h.token, h.lease⟩
  case markCommentAttempted => exact ⟨h.token, h.lease⟩
  case renew =>
    refine ⟨h.token, ⟨fun _ => rfl, fun _ => ?_⟩⟩
    rcases howned with htake | hrunning
    · simp only [takeoverAt, isSome_none, false_eq_true] at htake
    · exact hrunning
  all_goals
    exact ⟨⟨fun hc => (nomatch hc), fun hc => (nomatch hc)⟩,
      ⟨fun hc => (nomatch hc), fun hc => (nomatch hc)⟩⟩

end Operation

variable {now : Instant} {row written : WorkItemMutation} {op : Operation}

theorem flushed_eq (hwritten : written.updatedAt = row.updatedAt) (hclock : row.updatedAt ≤ now) :
    ∃ t, row.flushed written now = { written with updatedAt := t } ∧ row.updatedAt ≤ t ∧
      t ≤ now ∧ (written ≠ row → t = now) := by
  unfold WorkItemMutation.flushed
  by_cases hsame : written = row
  · subst hsame
    exact ⟨written.updatedAt, by rw [if_pos rfl], Int.le_refl _, hclock, fun hne => absurd rfl hne⟩
  · exact ⟨now, by rw [if_neg hsame], hclock, Int.le_refl _, fun _ => rfl⟩

theorem advances_write (h : op.decide row = .write written) (hclock : row.updatedAt ≤ now) :
    RowAdvances row (row.flushed written now) := by
  rcases Operation.write_cases h with ⟨rfl, hopen, hlicence⟩
  rcases op.mutate_keeps row with ⟨hid, hscope, hpayload, hhash, hproject, htarget, hmarker, hat⟩
  rcases flushed_eq hat hclock with ⟨t, ht, hle, _, _⟩
  rw [ht]
  have hattempts : op.resolved row = false ∨ op.takeoverAt.isSome = true := by
    rcases hlicence with ⟨token, _, _, hresolved⟩ | ⟨at', htake, _⟩
    · exact Or.inl hresolved
    · rw [htake]
      exact Or.inr rfl
  rcases Operation.mutate_attempts hattempts with ⟨hprovider, hcomment⟩
  exact {
    id := hid
    scope := hscope
    payload := hpayload
    payloadHash := hhash
    projectId := hproject
    targetKey := htarget
    providerMarker := hmarker
    settled := by
      rw [hopen]
      exact fun hc => absurd hc Bool.false_ne_true
    providerAttempted := hprovider
    commentAttempted := hcomment
    steps := fun step => by
      have := op.mutate_steps row step
      cases step <;> exact this
    updatedAt := hle }

theorem consistent_write (h : op.decide row = .write written) (hclock : row.updatedAt ≤ now)
    (hrow : row.Consistent) : (row.flushed written now).Consistent := by
  rcases Operation.write_cases h with ⟨rfl, _, hlicence⟩
  rcases flushed_eq (op.mutate_keeps row).2.2.2.2.2.2.2 hclock with ⟨t, ht, _, _, _⟩
  rw [ht]
  have howned : op.takeoverAt.isSome = true ∨ row.status = .running := by
    rcases hlicence with ⟨token, _, howned, _⟩ | ⟨at', htake, _⟩
    · exact Or.inr (Operation.ownedBy_iff.mp howned).1
    · rw [htake]
      exact Or.inl rfl
  have hmut := Operation.mutate_consistent hrow howned
  exact ⟨hmut.token, hmut.lease⟩

theorem status_of_terminal {status : MutationStatus} (h : status.isTerminal = true) :
    status ≠ .running := by
  rintro rfl
  exact absurd h Bool.false_ne_true

/-- A transition that was there already is done if it was looked for by its owner,
    or without one. -/
theorem done_of_resolved {token : String} (htoken : op.claimToken = some token)
    (hresolved : op.resolved row = true)
    (howner : op.requireOwnerForResolution = true → row.ownedBy token = true) :
    op.Done row := by
  cases op <;> simp only [Operation.claimToken, some.injEq, reduceCtorEq] at htoken <;>
    subst htoken
  case markStep done step =>
    simp only [Operation.resolved, beq_iff_eq] at hresolved
    exact ⟨howner rfl, hresolved⟩
  case markProviderAttempted => exact ⟨howner rfl, hresolved⟩
  case markCommentAttempted => exact ⟨howner rfl, hresolved⟩
  case renew => exact absurd hresolved Bool.false_ne_true
  case complete =>
    simp only [Operation.resolved, and_eq_true, beq_iff_eq] at hresolved
    exact hresolved
  case fail =>
    simp only [Operation.resolved, and_eq_true, beq_iff_eq] at hresolved
    exact hresolved
  case release =>
    simp only [Operation.resolved, bne_iff_ne] at hresolved
    exact hresolved

theorem done_of_keep (h : op.decide row = .keep) :
    op.Done row := by
  cases htoken : op.claimToken with
  | some token =>
    rw [Operation.decide_transition row htoken] at h
    refine done_of_resolved htoken ?_ ?_
    · unfold Operation.transitionDecision at h
      cases howned : row.ownedBy token <;> cases hresolved : op.resolved row <;>
        cases hrequire : op.requireOwnerForResolution <;>
        simp only [howned, hresolved, hrequire, Bool.not_true, Bool.not_false, Bool.and_true,
          Bool.and_false, false_eq_true, if_true, if_false, reduceCtorEq] at h ⊢
    · unfold Operation.transitionDecision at h
      intro hrequire
      cases howned : row.ownedBy token with
      | true => rfl
      | false =>
        simp only [howned, hrequire, Bool.not_false, Bool.and_true, if_true, reduceCtorEq] at h
  | none =>
    cases op <;> simp only [Operation.claimToken, reduceCtorEq] at htoken
    case claim token now ignoreBackoff =>
      refine Or.inl ?_
      simp only [Operation.decide] at h
      cases hterminal : row.status.isTerminal with
      | true => rfl
      | false =>
        by_cases hleased : row.leased now = true
        · simp only [hterminal, hleased, false_eq_true, if_true, if_false, reduceCtorEq] at h
        · by_cases hdue : (!ignoreBackoff && row.nextAttemptAt.any (fun t => now < t)) = true
          · simp only [hterminal, hleased, hdue, false_eq_true, if_true, if_false,
              reduceCtorEq] at h
          · simp only [hterminal, hleased, hdue, false_eq_true, if_false, reduceCtorEq] at h
    case deferResolution now error retryAt =>
      refine status_of_terminal ?_
      simp only [Operation.decide] at h
      cases hterminal : row.status.isTerminal with
      | true => rfl
      | false =>
        by_cases hleased : row.leased now = true
        · simp only [hterminal, hleased, false_eq_true, if_true, if_false, reduceCtorEq] at h
        · simp only [hterminal, hleased, false_eq_true, if_false, reduceCtorEq] at h

theorem done_mutate (howned : ∀ token, op.claimToken = some token → row.ownedBy token = true) :
    op.Done (op.mutate row) := by
  cases op
  case claim token now ignoreBackoff =>
    exact Or.inr (Operation.ownedBy_iff.mpr ⟨rfl, rfl⟩)
  case markStep token step => cases step <;> exact ⟨howned token rfl, rfl⟩
  case markProviderAttempted token at' => exact ⟨howned token rfl, rfl⟩
  case markCommentAttempted token at' => exact ⟨howned token rfl, rfl⟩
  case renew token now => exact ⟨howned token rfl, rfl⟩
  case complete => exact ⟨rfl, rfl⟩
  case fail => exact ⟨rfl, rfl⟩
  case release => exact fun hc => nomatch hc
  case deferResolution => exact fun hc => nomatch hc

theorem done_of_write (h : op.decide row = .write written) : op.Done (row.flushed written now) := by
  rcases Operation.write_cases h with ⟨hwritten, hopen, hlicence⟩
  have hmut : op.Done (op.mutate row) := by
    refine done_mutate fun token htoken => ?_
    rcases hlicence with ⟨token', htoken', howned, _⟩ | ⟨at', htake, _⟩
    · rw [htoken, some.injEq] at htoken'
      rw [htoken']
      exact howned
    · cases op <;> simp only [Operation.claimToken, Operation.takeoverAt, reduceCtorEq] at htoken htake
  rw [← hwritten] at hmut
  unfold WorkItemMutation.flushed
  by_cases hsame : written = row
  · rw [if_pos hsame, ← hsame]
    exact hmut
  · rw [if_neg hsame]
    cases op
    case markStep token step => cases step <;> exact hmut
    all_goals exact hmut

theorem done_of_acknowledged (h : op.acknowledged row = true) : op.Done row := by
  cases htoken : op.claimToken with
  | some token =>
    have hack : ((!op.requireOwnerForResolution || row.ownedBy token) && op.resolved row)
        = true := by
      cases op <;> simp only [Operation.claimToken, some.injEq, reduceCtorEq] at htoken <;>
        subst htoken <;> exact h
    simp only [and_eq_true, Bool.or_eq_true, Bool.not_eq_true'] at hack
    refine done_of_resolved htoken hack.2 fun hrequire => ?_
    rcases hack.1 with hnot | howned
    · rw [hrequire] at hnot
      exact absurd hnot.symm Bool.false_ne_true
    · exact howned
  | none =>
    cases op <;> simp only [Operation.claimToken, reduceCtorEq] at htoken
    case claim =>
      simp only [Operation.acknowledged, Bool.or_eq_true] at h
      exact h
    case deferResolution => exact absurd h Bool.false_ne_true

namespace MutationStore

variable {ι : Type}

variable {env : WorkItemEnv} {r : MutationRequest}

variable {s s' : MutationStore ι} {a : r.Answer} {i : ι}

/-- Retiring takes the selected rows away, binds their scopes, and touches nothing
    else. -/
theorem retireRows_ok {selected : List WorkItemMutation} (h : retireRows env selected s = .ok s') :
    (∀ id, id ∉ selected.map (·.id) → s'.rows id = s.rows id) ∧
      (∀ row ∈ selected, s'.rows row.id = none) ∧
      (∀ scopeHash, s.tombstones scopeHash ≠ none → s'.tombstones scopeHash ≠ none) ∧
      (∀ row ∈ selected, s'.tombstones (mutationScopeHash env row.scope) ≠ none) ∧
      s'.clock = s.clock ∧ s'.issued = s.issued := by
  induction selected generalizing s with
  | nil =>
    simp only [retireRows, Except.ok.injEq] at h
    subst h
    exact ⟨fun _ _ => rfl, fun _ hr => absurd hr not_mem_nil, fun _ ht => ht,
      fun _ hr => absurd hr not_mem_nil, rfl, rfl⟩
  | cons row rest ih =>
    -- The head is taken away and its scope is bound, whichever branch is taken.
    have hhead : ∃ s₁ : MutationStore ι, retireRows env rest s₁ = .ok s' ∧
        s₁.rows = update s.rows row.id none ∧
        (∀ scopeHash, s.tombstones scopeHash ≠ none → s₁.tombstones scopeHash ≠ none) ∧
        s₁.tombstones (mutationScopeHash env row.scope) ≠ none ∧ s₁.clock = s.clock ∧
        s₁.issued = s.issued := by
      unfold retireRows at h
      rcases ht : s.tombstones (mutationScopeHash env row.scope) with _ | tombstone
      · simp only [ht] at h
        refine ⟨_, h, rfl, fun scopeHash hbound => ?_, ?_, rfl, rfl⟩
        · change update s.tombstones _ _ scopeHash ≠ none
          by_cases heq : scopeHash = mutationScopeHash env row.scope
          · subst heq
            exact absurd ht hbound
          · rw [update_of_ne heq]
            exact hbound
        · change update s.tombstones _ _ _ ≠ none
          rw [update_self]
          exact some_ne_none _
      · cases hbad : (tombstone.payloadHash != row.payloadHash) with
        | true => simp only [ht, hbad, if_true, reduceCtorEq] at h
        | false =>
          simp only [ht, hbad, false_eq_true, if_false] at h
          refine ⟨_, h, rfl, fun _ hbound => hbound, ?_, rfl, rfl⟩
          rw [ht]
          exact some_ne_none _
    rcases hhead with ⟨s₁, hrest, hrows, htombstones, hbound, hclock, hissued⟩
    rcases ih hrest with ⟨hkept, hgone, htombstones', hbound', hclock', hissued'⟩
    refine ⟨fun id hid => ?_, fun r hr => ?_, fun scopeHash ht => ?_, fun r hr => ?_,
      hclock'.trans hclock, hissued'.trans hissued⟩
    · rw [map_cons, mem_cons, not_or] at hid
      rw [hkept id hid.2, hrows, update_of_ne hid.1]
    · by_cases hrest' : r.id ∈ rest.map (·.id)
      · rcases List.mem_map.mp hrest' with ⟨r', hr', heq⟩
        rw [← heq]
        exact hgone r' hr'
      · rcases mem_cons.mp hr with rfl | hmem
        · rw [hkept r.id hrest', hrows, update_self]
        · exact absurd (List.mem_map_of_mem hmem) hrest'
    · exact htombstones' scopeHash (htombstones scopeHash ht)
    · rcases mem_cons.mp hr with rfl | hmem
      · exact htombstones' _ hbound
      · exact hbound' r hmem

/-- An answer leaves the store alone, draws an identifier, or is one of the three
    ways to change the rows. -/
theorem answers_cases [DecidableEq ι] (h : s.answers env i r a s') :
    s' = s ∨
      (r = .uuid4 ∧ ∃ name, s.issued name = none ∧
        s' = { s with issued := update s.issued name (some i) }) ∨
      (∃ row stored, r = .insert row ∧ s.Inserts row stored s') ∨
      (∃ id op stored, r = .change id op ∧ s.Changes id op stored s') ∨
      (∃ cutoff limit selected, r = .retire cutoff limit ∧
        s.Retires env cutoff limit selected s') := by
  cases r
  case now => exact Or.inl h.2
  case uuid4 => exact Or.inr (Or.inl ⟨rfl, a, h⟩)
  case get => exact Or.inl h.2
  case getByScope => exact Or.inl h.2.2
  case getTombstone => exact Or.inl h.2
  case readyIds => exact Or.inl h.2
  case insert row =>
    refine (?_ : s' = s ∨ ∃ stored, s.Inserts row stored s').imp id
      fun ⟨stored, hins⟩ => Or.inr (Or.inl ⟨row, stored, rfl, hins⟩)
    cases a with
    | refused message => exact Or.inl h.2
    | committed stored => exact Or.inr ⟨stored, h⟩
    | broken error => exact h
    | raised error => exact h
  case change id op =>
    refine (?_ : s' = s ∨ ∃ stored, s.Changes id op stored s').imp (fun hs => hs)
      fun ⟨stored, hch⟩ => Or.inr (Or.inr (Or.inl ⟨id, op, stored, rfl, hch⟩))
    cases a with
    | gone => exact Or.inl h.2
    | refused error => exact Or.inl h.2
    | found row => exact Or.inl h.2.2
    | committed stored => exact Or.inr ⟨stored, h⟩
    | broken error => exact h
    | raised error => exact h
  case retire cutoff limit =>
    refine (?_ : s' = s ∨ ∃ selected, s.Retires env cutoff limit selected s').imp (fun hs => hs)
      fun ⟨selected, hret⟩ => Or.inr (Or.inr (Or.inr ⟨cutoff, limit, selected, rfl, hret⟩))
    cases a with
    | committed count => exact Or.inr ⟨h.choose, h.choose_spec.1⟩
    | broken expected error =>
      rcases h with ⟨selected, _, _, h⟩
      exact h.imp (fun hs => hs) fun hret => ⟨selected, hret⟩
    | raised error => exact h
  all_goals exact Or.inl h

theorem answers_keep [DecidableEq ι] (h : s.answers env i r a s') :
    s'.clock = s.clock ∧ (∀ name owner, s.issued name = some owner → s'.issued name = some owner) ∧
      ∀ scopeHash, s.tombstones scopeHash ≠ none → s'.tombstones scopeHash ≠ none := by
  rcases answers_cases h with rfl | ⟨_, name, hfresh, rfl⟩ | ⟨_, _, _, _, _, _, _, rfl⟩ |
      ⟨_, _, _, _, _, _, _, _, _, rfl⟩ | ⟨cutoff, limit, selected, _, hret⟩
  · exact ⟨rfl, fun _ _ hn => hn, fun _ ht => ht⟩
  · refine ⟨rfl, fun other owner hn => ?_, fun _ ht => ht⟩
    refine (update_of_ne (fun heq => ?_) _ _).trans hn
    rw [heq, hfresh] at hn
    nomatch hn
  · exact ⟨rfl, fun _ _ hn => hn, fun _ ht => ht⟩
  · exact ⟨rfl, fun _ _ hn => hn, fun _ ht => ht⟩
  · rcases retireRows_ok hret.2 with ⟨_, _, htombstones, _, hclock, hissued⟩
    exact ⟨hclock, fun _ _ hn => by rw [hissued]; exact hn, htombstones⟩

/-- Where a stored row comes from: it was there, or a transaction wrote it, or it was
    inserted. And what became of a row: it is still there, or it was retired. -/
theorem answers_rows [DecidableEq ι] (h : s.answers env i r a s') :
    (∀ id row', s'.rows id = some row' → s.rows id = some row' ∨
      (∃ op row written, r = .change id op ∧ s.rows id = some row ∧
        op.decide row = .write written ∧ row' = row.flushed written s.clock) ∨
      (∃ row, r = .insert row ∧ row.id = id ∧ s.rows id = none ∧ s.Vacant row.scope ∧
        row' = { row with updatedAt := s.clock })) ∧
    (∀ id row, s.rows id = some row → s'.rows id ≠ none ∨
      (∃ cutoff limit, r = .retire cutoff limit ∧ row.status.isTerminal = true ∧
        row.updatedAt < cutoff ∧ s'.rows id = none ∧
        s'.tombstones (mutationScopeHash env row.scope) ≠ none)) := by
  have hsome : ∀ {id : String} {row : WorkItemMutation} {rows : String → Option WorkItemMutation},
      rows id = some row → rows id ≠ none :=
    fun h => by rw [h]; exact some_ne_none _
  rcases answers_cases h with rfl | ⟨_, name, _, rfl⟩ |
      ⟨row, stored, rfl, _, hfree, hvacant, rfl, rfl⟩ |
      ⟨id, op, stored, rfl, before, written, hbefore, hdecide, rfl, rfl⟩ |
      ⟨cutoff, limit, selected, rfl, ⟨_, _, hselected⟩, hret⟩
  · exact ⟨fun _ _ hrow => Or.inl hrow, fun _ _ hrow => Or.inl (hsome hrow)⟩
  · exact ⟨fun _ _ hrow => Or.inl hrow, fun _ _ hrow => Or.inl (hsome hrow)⟩
  · refine ⟨fun id row' hrow' => ?_, fun id old hold => Or.inl ?_⟩
    · change update s.rows row.id _ id = some row' at hrow'
      by_cases heq : id = row.id
      · subst heq
        rw [update_self, some.injEq] at hrow'
        exact Or.inr (Or.inr ⟨row, rfl, rfl, hfree, hvacant, hrow'.symm⟩)
      · rw [update_of_ne heq] at hrow'
        exact Or.inl hrow'
    · change update s.rows row.id _ id ≠ none
      by_cases heq : id = row.id
      · rw [heq, hfree] at hold
        nomatch hold
      · rw [update_of_ne heq]
        exact hsome hold
  · refine ⟨fun other row' hrow' => ?_, fun other old hold => Or.inl ?_⟩
    · change update s.rows id _ other = some row' at hrow'
      by_cases heq : other = id
      · subst heq
        rw [update_self, some.injEq] at hrow'
        exact Or.inr (Or.inl ⟨op, before, written, rfl, hbefore, hdecide, hrow'.symm⟩)
      · rw [update_of_ne heq] at hrow'
        exact Or.inl hrow'
    · change update s.rows id _ other ≠ none
      by_cases heq : other = id
      · rw [heq, update_self]
        exact some_ne_none _
      · rw [update_of_ne heq]
        exact hsome hold
  · rcases retireRows_ok hret with ⟨hkept, hgone, _, hbound, _, _⟩
    refine ⟨fun id row' hrow' => Or.inl ?_, fun id row hrow => ?_⟩
    · by_cases hmem : id ∈ selected.map (·.id)
      · rcases List.mem_map.mp hmem with ⟨old, hold, rfl⟩
        rw [hgone old hold] at hrow'
        nomatch hrow'
      · rw [← hkept id hmem]
        exact hrow'
    · by_cases hmem : id ∈ selected.map (·.id)
      · rcases List.mem_map.mp hmem with ⟨old, hold, rfl⟩
        rcases hselected old hold with ⟨hstored, hterminal, hcutoff⟩
        rw [hrow, some.injEq] at hstored
        rw [hstored]
        exact Or.inr ⟨cutoff, limit, rfl, hterminal, hcutoff, hgone old hold, hbound old hold⟩
      · rw [hkept id hmem]
        exact Or.inl (hsome hrow)

end MutationStore

variable {alive : Instant → Instant → Prop} {env : WorkItemEnv}

section

variable {ι κ ρ : Type} [DecidableEq ι]
  {program : κ → Program MutationRequest MutationRequest.Answer ρ} {w₀ : MutationWorld ι κ}
  {events : List (System.Event (MutationWorld ι κ) ι MutationRequest MutationRequest.Answer)}
  {calls : ι → Option (κ × Instant)}
  {running : ι → Option (Program MutationRequest MutationRequest.Answer ρ)} {i : ι}

theorem mutationSystem_asked
    {s s' : MutationStore ι} {call : κ} {since : Instant}
    {p : Program MutationRequest MutationRequest.Answer ρ} {r : MutationRequest}
    {next : r.Answer → Program MutationRequest MutationRequest.Answer ρ}
    (hrun : (mutationSystem env program alive).Run w₀ events
      ⟨⟨s, update calls i (some (call, since))⟩, update running i (some p)⟩)
    (hp : p = .ask r next) (a : r.Answer) (halive : alive since s.clock)
    (h : s.answers env i r a s') :
    ∃ e, e.request = r ∧ (mutationSystem env program alive).Run w₀ (events ++ [e])
      ⟨⟨s', update calls i (some (call, since))⟩,
        update running i (some (next a))⟩ :=
  ⟨_, rfl, hrun.asked hp ⟨call, since, s', update_self _ _ _, halive, h,
    ⟨rfl, rfl, rfl, Int.le_refl _⟩, rfl⟩⟩

theorem mutationSystem_called
    {s : MutationStore ι} {last : Option (κ × Instant)}
    {p : Option (Program MutationRequest MutationRequest.Answer ρ)} (call : κ)
    (hrun : (mutationSystem env program alive).Run w₀ events
      ⟨⟨s, update calls i last⟩, update running i p⟩) :
    (mutationSystem env program alive).Run w₀ events
      ⟨⟨s, update calls i (some (call, s.clock))⟩,
        update running i (some (program call))⟩ :=
  hrun.restarted ⟨call, rfl, ⟨rfl, rfl, rfl, Int.le_refl _⟩, (update_idem _ _ _).symm⟩

end

end Apex.Persistence
