import Apex.Services.TestScope

/-!
# Scopes Up To The Order Of Their Participants

The document that is stored lists the participants in the order of their ids, so that it
is the same for scopes that differ in their order only. What is read from it is the scope
that was bound, in that order; and the rows of a scope are complete in any order.

## Main definitions

* `SameScope`: Two scopes that differ in the order of their participants only.
* `sorted`: A scope in the order of its ids.

## Theorems

* `sameScope_of_canonicalScope`: What has the same document is the same scope.
* `modelValidate_canonicalScope`: A document denotes its scope.
* `verifiedBinding_complete`: A header and its rows are verified.
-/

namespace Apex.Services.TestScope

open List
open Domain

variable {digest : Json → String}

structure SameScope (a b : TestScopeV1) : Prop where
  participants : a.participants.Perm b.participants
  primary : a.primaryParticipantId = b.primaryParticipantId
  entry : a.trafficEntryParticipantId = b.trafficEntryParticipantId

theorem inIdOrder_perm (participants : List TestParticipant) :
    (inIdOrder participants).Perm participants := perm_insertionSort _ _

theorem Topology.perm {participants others : List TestParticipant} {primary : ResourceId}
    {entry : Option ResourceId} (h : Topology participants primary entry)
    (hperm : participants.Perm others) : Topology others primary entry where
  nonempty := hperm.length_eq ▸ h.nonempty
  few := hperm.length_eq ▸ h.few
  ids := (hperm.map _).nodup_iff.mp h.ids
  pairs := (hperm.map _).nodup_iff.mp h.pairs
  frontend := hperm.countP_eq _ ▸ h.frontend
  backend := hperm.countP_eq _ ▸ h.backend
  primary := (hperm.map _).mem_iff.mp h.primary
  entry id hid := (hperm.map _).mem_iff.mp (h.entry id hid)

def sorted (scope : TestScopeV1) : TestScopeV1 where
  participants := inIdOrder scope.participants
  primaryParticipantId := scope.primaryParticipantId
  trafficEntryParticipantId := scope.trafficEntryParticipantId
  topology := Topology.perm scope.topology (inIdOrder_perm scope.participants).symm

theorem sorted_same (scope : TestScopeV1) : SameScope (sorted scope) scope :=
  ⟨inIdOrder_perm scope.participants, rfl, rfl⟩

theorem modelValidate_canonicalScope (scope : TestScopeV1) :
    modelValidate (canonicalScope scope) = some (sorted scope) :=
  modelValidate_scopeDict (sorted scope).topology

theorem sameScope_of_canonicalScope {a b : TestScopeV1} (h : canonicalScope a = canonicalScope b) :
    SameScope a b := by
  have hsorted : sorted a = sorted b := by
    have hread := modelValidate_canonicalScope a
    rw [h, modelValidate_canonicalScope b] at hread
    exact (Option.some.inj hread).symm
  have hparticipants : inIdOrder a.participants = inIdOrder b.participants :=
    congrArg TestScopeV1.participants hsorted
  have hprimary : (sorted a).primaryParticipantId = (sorted b).primaryParticipantId :=
    congrArg TestScopeV1.primaryParticipantId hsorted
  have hentry : (sorted a).trafficEntryParticipantId = (sorted b).trafficEntryParticipantId :=
    congrArg TestScopeV1.trafficEntryParticipantId hsorted
  refine ⟨(inIdOrder_perm a.participants).symm.trans ?_, hprimary, hentry⟩
  rw [hparticipants]
  exact inIdOrder_perm b.participants

theorem inIdOrder_eq {a b : TestScopeV1} (h : SameScope a b) :
    inIdOrder a.participants = inIdOrder b.participants := by
  refine Perm.eq_of_pairwise (fun p q hp hq hle hge => ?_) (pairwise_insertionSort _ _)
    (pairwise_insertionSort _ _) (((inIdOrder_perm _).trans h.participants).trans
      (inIdOrder_perm _).symm)
  exact inj_on_of_nodup_map a.topology.ids ((inIdOrder_perm _).mem_iff.mp hp)
    (h.participants.mem_iff.mpr ((inIdOrder_perm _).mem_iff.mp hq))
    (BoundedId.value_injective (le_antisymm hle hge))

theorem canonicalScope_eq_iff {a b : TestScopeV1} :
    canonicalScope a = canonicalScope b ↔ SameScope a b := by
  refine ⟨sameScope_of_canonicalScope, fun h => ?_⟩
  rw [canonicalScope, canonicalScope, inIdOrder_eq h, h.primary, h.entry]

theorem canonicalScope_sorted (scope : TestScopeV1) :
    canonicalScope (sorted scope) = canonicalScope scope := by
  have htwice : inIdOrder (inIdOrder scope.participants) = inIdOrder scope.participants :=
    Pairwise.insertionSort_eq (pairwise_insertionSort _ _)
  rw [canonicalScope, canonicalScope, sorted, htwice]

theorem lookup_perm {τ : Type} {c d : List (String × τ)} (hperm : c.Perm d)
    (hkeys : (c.map Prod.fst).Nodup) (key : String) : c.lookup key = d.lookup key := by
  have hkeys' := (hperm.map Prod.fst).nodup_iff.mp hkeys
  cases hlookup : c.lookup key with
  | some value =>
    have hmem : (key, value) ∈ c := Dict.get?_mem (d := ⟨c, hkeys⟩) hlookup
    exact (Dict.lookup_of_mem hkeys' (hperm.mem_iff.mp hmem)).symm
  | none =>
    cases hother : d.lookup key with
    | none => rfl
    | some value =>
      have hmem : (key, value) ∈ d := Dict.get?_mem (d := ⟨d, hkeys'⟩) hother
      rw [Dict.lookup_of_mem hkeys (hperm.mem_iff.mpr hmem)] at hlookup
      exact nomatch hlookup

theorem sameEntries_of_perm {c d : List (String × Entry)} (hperm : c.Perm d)
    (hkeys : (c.map Prod.fst).Nodup) : sameEntries c d = true := by
  refine List.all_eq_true.mpr fun kv _ => beq_iff_eq.mpr ?_
  refine lookup_perm ((reverse_perm c).trans (hperm.trans (reverse_perm d).symm)) ?_ kv.1
  exact ((reverse_perm c).map Prod.fst).nodup_iff.mpr hkeys

theorem actualRows_participantsOf (threadId : String) (scope : TestScopeV1) :
    actualRows (participantsOf threadId scope) = expectedRows scope := by
  rw [actualRows, participantsOf, List.map_map]
  rfl

theorem expectedRows_keys (scope : TestScopeV1) :
    ((expectedRows scope).map Prod.fst).Nodup := by
  have hkeys : (expectedRows scope).map Prod.fst =
      (scope.participants.map TestParticipant.id).map BoundedId.value := by
    rw [expectedRows, List.map_map, List.map_map]
    rfl
  rw [hkeys]
  exact scope.topology.ids.map BoundedId.value_injective

theorem verifiedBinding_complete {threadId : String} {scope : TestScopeV1}
    {rows : List RunParticipant} (hrows : rows.Perm (participantsOf threadId scope)) :
    verifiedBinding digest (some (bindingOf digest threadId scope)) rows = .ok (sorted scope) := by
  have hread : modelValidate (bindingOf digest threadId scope).scope = some (sorted scope) :=
    modelValidate_canonicalScope scope
  have hcount : (bindingOf digest threadId scope).participantCount =
      (sorted scope).participants.length := (inIdOrder_perm scope.participants).length_eq.symm
  have hdigest : (bindingOf digest threadId scope).scopeDigest = digestOf digest (sorted scope) := by
    rw [digestOf, canonicalScope_sorted]
    rfl
  have hentries : (actualRows rows).Perm (expectedRows (sorted scope)) := by
    have hactual := hrows.map fun p => (p.participantId, p.projectId, p.applicationId,
      p.environmentId, p.layer, p.isPrimary, p.isTrafficEntry)
    refine hactual.trans ?_
    change (actualRows (participantsOf threadId scope)).Perm _
    rw [actualRows_participantsOf]
    exact ((inIdOrder_perm scope.participants).symm).map _
  have hsame := sameEntries_of_perm hentries
    ((hentries.map Prod.fst).nodup_iff.mpr (expectedRows_keys _))
  simp only [verifiedBinding, hread, someOr, hcount, hdigest, hsame, bne_self_eq_false,
    Bool.not_true, Bool.or_false, raiseIf, Bool.false_eq_true, if_false, pure, Except.pure, bind,
    Except.bind]

theorem verifiedBinding_bindingOf {threadId : String} {scope existing : TestScopeV1}
    {rows : List RunParticipant}
    (h : verifiedBinding digest (some (bindingOf digest threadId scope)) rows = .ok existing) :
    existing = sorted scope := by
  rw [verifiedBinding, bind_ok] at h
  rcases h with ⟨read, hread, hrest⟩
  rw [bind_ok] at hrest
  rcases hrest with ⟨_, _, hsame⟩
  have hvalid : modelValidate (bindingOf digest threadId scope).scope = some (sorted scope) :=
    modelValidate_canonicalScope scope
  rw [hvalid] at hread
  exact (Except.ok.inj hsame).symm.trans (Except.ok.inj hread).symm

end Apex.Services.TestScope
