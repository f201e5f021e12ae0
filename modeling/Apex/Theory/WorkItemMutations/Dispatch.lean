import Apex.Theory.WorkItemMutations.Answers
import Apex.Theory.WorkItemMutations.Leases

/-!
# At Most One Dispatch

However foreground requests and reconcilers interleave, whatever leases expire,
commits go unacknowledged, workers are cancelled or crash, and rows are retired,
each idempotency key leads to at most one creation and at most one comment.

An attempt is recorded once, by a worker that holds the lease and whose own copy
of the row has no attempt, and until that worker is told so nobody is permitted
to make it. Whoever is permitted is the only one, and loses the permission with
the call.

## Main definitions

* `Learned`: How a worker came by what it knows of its claim.

## Theorems

* `Answered.stages_after`: Every stage of a claim says what is so.
* `dispatch_step`: Every answer keeps the invariant.
* `dispatched_at_most_once`: At most one dispatch, bound to one payload, and none
  after retirement.
-/

namespace Apex.Services

open List Option Function
open Domain Persistence

open Apex.Action hiding ask

namespace Answered

variable {ι : Type} [DecidableEq ι] {env : WorkItemEnv} {events : List (MutationEvent ι)}
  {w w' : MutationWorld ι MutationCall} {places : ι → Desk} {i : ι} {r : MutationRequest}
  {a : r.Answer}

variable {c c' : Claim} {id : String} {row row' : WorkItemMutation} {k : Attempt} {op : Operation}
  {stage' : Stage}

variable {stored' : WorkItemMutation} {j : ι} {stage : Stage} {token : String}

/-- The row of a claim is under the token of the claim only if it was so before; an
    attempt is recorded under the token only by its own worker. -/
theorem token_before (h : Answered env events w places i r a w') (hc : (places j).claim = some c)
    (hstored' : w'.store.rows id = some stored') (htoken : stored'.claimToken = some c.token) :
    ∃ stored, w.store.rows id = some stored ∧ stored.claimToken = some c.token ∧
      ∀ k : Attempt, k.recorded stored' = k.recorded stored ∨
        (j = i ∧ ∃ op, r = .change id op ∧ marks op = some k ∧ k.recorded stored = none) := by
  have howner := ((h.inv.desks j).claim c hc).1
  rcases h.stored_after hstored' with ⟨stored, hstored, _, _, hwrite⟩ | ⟨row, hr, _, heq, _⟩
  · rcases hwrite with rfl | ⟨op, written, hr, hdecide, heq⟩
    · exact ⟨stored', hstored, htoken, fun _ => Or.inl rfl⟩
    · rw [heq] at htoken ⊢
      refine ⟨stored, hstored, ?_, fun k => ?_⟩
      · refine (write_token hdecide htoken).resolve_right fun ⟨at', ignoreBackoff, hop⟩ => ?_
        have hmine := ((h.inv.desks i).name _ (h.spender (by rw [hr, hop]; rfl))).1
        rw [howner, some.injEq] at hmine
        have hallowed := h.allowed
        rw [hr, hop, ← hmine] at hallowed
        have hnone := (hallowed.2.1 _ _ _ rfl).2
        rw [hc] at hnone
        nomatch hnone
      · refine (write_recorded hdecide k).imp (fun hsame => hsame) fun hmark => ?_
        rcases hmark with ⟨hmarks, hnone, token, hop, _, hafter⟩
        refine ⟨?_, op, hr, hmarks, hnone⟩
        have hallowed := h.allowed
        rw [hr] at hallowed
        rcases hallowed.2.2 k hmarks with ⟨row, token', hholds, _, hop', _⟩
        rw [htoken, some.injEq] at hafter
        rw [hop, some.injEq] at hop'
        have hmine := ((h.inv.desks i).claim _ hholds).1
        rw [← hop', ← hafter, howner, some.injEq] at hmine
        exact hmine
  · subst hr
    rw [heq] at htoken
    have hnone : row.claimToken = none := h.allowed.2.2.2.1
    rw [show row.claimToken = some c.token from htoken] at hnone
    nomatch hnone

theorem holds_of_claim (h : Answered env events w places i r a w') (hc : (places j).claim = some c)
    (hlease : c.lease = some (row, stage)) : (places j).Holds row c.token stage := by
  unfold Desk.Holds
  rw [hc, ((h.inv.desks j).lease c row stage hc hlease).1, ← hlease]

/-- A worker that asked for its attempt to be recorded made none before, and nobody
    else made or may make it. -/
theorem clear_of_mark (h : Answered env events w places i r a w') (hr : r = .change id op)
    (hmarks : marks op = some k) (hop : op.claimToken = some token)
    (hstored' : w'.store.rows id = some stored') (htoken : stored'.claimToken = some token) :
    Clear events places i k id := by
  have hallowed := h.allowed
  rw [hr] at hallowed
  rcases hallowed.2.2 k hmarks with ⟨row, token', hholds, hid, hop', hnone⟩
  rw [hop, some.injEq] at hop'
  subst hop'
  rcases h.token_before hholds hstored' htoken with ⟨stored, hstored, hbefore, _⟩
  have hfresh : k.recorded stored = none := by
    refine h.inv.stages i _ row .fresh hholds rfl stored ?_ hbefore k hnone
    rw [hid]
    exact hstored
  refine ⟨fun hposted => ?_, fun j _ row' token' hholds' hid' => ?_⟩
  · have hsome := (h.inv.posted k id hposted).2 stored hstored
    rw [hfresh] at hsome
    nomatch hsome
  · have hsome := (h.inv.stages j _ row' (.permitted k) hholds' rfl).2 stored
      (by rw [hid']; exact hstored)
    rw [hfresh] at hsome
    nomatch hsome

inductive Learned (w' : MutationWorld ι MutationCall) (l : Desk) (r : MutationRequest)
    (token : String) (row' : WorkItemMutation) : Stage → Prop
  | spent : Learned w' l r token row' .spent
  | told (hrow : w'.store.rows row'.id = some row') : Learned w' l r token row' .fresh
  | kept {c : Claim} {row : WorkItemMutation} {stage : Stage} (hc : l.claim = some c)
      (htoken : c.token = token) (hlease : c.lease = some (row, stage)) (hid : row.id = row'.id)
      (hfresh : stage = .fresh → row = row') (hmarks : ∀ id op, r = .change id op → marks op = none)
      (hposts : posts r = none) : Learned w' l r token row' stage
  | found {c : Claim} {row : WorkItemMutation} {k : Attempt} {id : String} (hc : l.claim = some c)
      (htoken : c.token = token) (hlease : c.lease = some (row, .marking k))
      (hid : row.id = row'.id) (hr : r = .get id) (hrow : w'.store.rows row'.id = some row')
      (hrowtoken : row'.claimToken = some token) (hsome : (k.recorded row').isSome = true) :
      Learned w' l r token row' (.permitted k)
  | asked {op : Operation} {k : Attempt} (hr : r = .change row'.id op) (hmarks : marks op = some k)
      (hop : op.claimToken = some token) : Learned w' l r token row' (.marking k)
  | marked {op : Operation} {k : Attempt} (hr : r = .change row'.id op) (hmarks : marks op = some k)
      (hop : op.claimToken = some token) (hrow : w'.store.rows row'.id = some row')
      (hrowtoken : row'.claimToken = some token) (hsome : (k.recorded row').isSome = true) :
      Learned w' l r token row' (.permitted k)

theorem learned_other {a : ChangeAnswer} (h : Answered env events w places i (.change id op) a w')
    (hother : ∀ token now ignoreBackoff, op ≠ .claim token now ignoreBackoff)
    (hmarks : marks op = none) (hc' : ((places i).move env (.change id op) a).claim = some c')
    (hlease' : c'.lease = some (row', stage')) :
    Learned w' (places i) (.change id op) c'.token row' stage' := by
  have hfree : ∀ id' op', MutationRequest.change id op = .change id' op' → marks op' = none := by
    intro id' op' heq
    rw [← (MutationRequest.change.inj heq).2, hmarks]
  have hsame : (places i).claim = some c' →
      Learned w' (places i) (.change id op) c'.token row' stage' :=
    fun hc => .kept hc rfl hlease' rfl (fun _ => rfl) hfree rfl
  rcases afterChange_cases (places i) id a hother with
    ⟨row, hshows, heq⟩ | ⟨_, heq⟩
  · rw [show (places i).move env (.change id op) a = _ from heq] at hc'
    rcases h.shown (r := .change id op) hshows with ⟨hrow, hid⟩
    rcases map_eq_some_iff.mp hc' with ⟨c, hc, hreturned⟩
    unfold Claim.returned at hreturned
    by_cases hmine : c.id = id ∧ row.ownedBy c.token = true
    · rw [if_pos hmine] at hreturned
      subst hreturned
      rcases map_eq_some_iff.mp hlease' with ⟨⟨old, stage⟩, hheld, hpair⟩
      rw [hmarks] at hpair
      rcases Prod.mk.inj hpair with ⟨rfl, rfl⟩
      have hold : old.id = row.id := ((h.inv.desks i).lease c old _ hc hheld).1.trans
        (hmine.1.trans (hid id rfl).symm)
      by_cases hfresh : stage = .fresh
      · rw [hfresh]
        exact .told hrow
      · exact .kept hc rfl hheld hold (fun h => absurd h hfresh) hfree rfl
    · rw [if_neg hmine] at hreturned
      exact hsame (by rw [hc, hreturned])
  · rw [show (places i).move env (.change id op) a = _ from heq] at hc'
    rcases map_eq_some_iff.mp hc' with ⟨c, hc, hunanswered⟩
    unfold Claim.unanswered at hunanswered
    rw [hmarks] at hunanswered
    exact hsame (hc.trans (congrArg some hunanswered))

theorem learned_mark {a : ChangeAnswer} (h : Answered env events w places i (.change id op) a w')
    (hmarks : marks op = some k) (hc' : ((places i).move env (.change id op) a).claim = some c')
    (hlease' : c'.lease = some (row', stage')) :
    Learned w' (places i) (.change id op) c'.token row' stage' := by
  rcases h.allowed.2.2 k hmarks with ⟨old, token, hholds, hold, hop, _⟩
  have hother : ∀ token now ignoreBackoff, op ≠ .claim token now ignoreBackoff := by
    rintro token now ignoreBackoff rfl
    nomatch hmarks
  rcases afterChange_cases (places i) id a hother with
    ⟨row, hshows, heq⟩ | ⟨_, heq⟩
  · rw [show (places i).move env (.change id op) a = _ from heq, hholds] at hc'
    rcases h.shown (r := .change id op) hshows with ⟨hrow, hid⟩
    have hdone : op.Done row := by
      rcases h.possible row with ⟨hfound, hcommitted⟩
      rcases hshows with hshow | hshow
      · exact (hfound hshow).2.2.1
      · exact (hcommitted hshow).2.2.1
    rcases marked_done hmarks hop hdone with ⟨howned, hsome⟩
    rw [map_some, some.injEq] at hc'
    unfold Claim.returned at hc'
    rw [if_pos ⟨hold, howned⟩, hmarks] at hc'
    subst hc'
    rcases Prod.mk.inj (some.inj hlease') with ⟨rfl, rfl⟩
    exact .marked (by rw [hid id rfl]) hmarks hop hrow (Operation.ownedBy_iff.mp howned).2 hsome
  · rw [show (places i).move env (.change id op) a = _ from heq, hholds] at hc'
    rw [map_some, some.injEq] at hc'
    unfold Claim.unanswered at hc'
    rw [hmarks] at hc'
    subst hc'
    rcases Prod.mk.inj (some.inj hlease') with ⟨rfl, rfl⟩
    exact .asked (by rw [hold]) hmarks hop

section

variable (h : Answered env events w places i r a w')

include h

theorem learned
    (hc' : ((places i).move env r a).claim = some c') (hlease' : c'.lease = some (row', stage')) :
    Learned w' (places i) r c'.token row' stage' := by
  have hsame : (∀ id op, r = .change id op → marks op = none) → posts r = none →
      (places i).claim = some c' → Learned w' (places i) r c'.token row' stage' :=
    fun hmarks hposts hc => .kept hc rfl hlease' rfl (fun _ => rfl) hmarks hposts
  cases r
  case get id =>
    rcases a with e | _ | row
    · exact hsame (fun _ _ hr => (nomatch hr)) rfl hc'
    · exact hsame (fun _ _ hr => (nomatch hr)) rfl hc'
    · have hrow := (h.shown (r := .get id) rfl).1
      rcases map_eq_some_iff.mp hc' with ⟨c, hc, hread⟩
      rcases read_cases c row with heq | ⟨hid, howned, ⟨_, heq⟩ |
          ⟨old, stage, hlease, hnext⟩⟩
      · exact hsame (fun _ _ hr => (nomatch hr)) rfl (by rw [hc, ← hread, heq])
      · rw [← hread, heq] at hlease' ⊢
        rcases Prod.mk.inj (some.inj hlease') with ⟨rfl, rfl⟩
        exact .told hrow
      · have hold : old.id = row.id :=
          ((h.inv.desks i).lease c old stage hc hlease).1.trans hid.symm
        have htoken := (Operation.ownedBy_iff.mp howned).2
        rcases hnext with heq | ⟨k, hstage, hsome, heq⟩
        · rw [← hread, heq] at hlease' ⊢
          rcases Prod.mk.inj (some.inj hlease') with ⟨rfl, rfl⟩
          by_cases hfresh : stage = .fresh
          · rw [hfresh]
            exact .told hrow
          · exact .kept hc rfl hlease hold (fun h => absurd h hfresh) (fun _ _ hr => (nomatch hr)) rfl
        · rw [← hread, heq] at hlease' ⊢
          rcases Prod.mk.inj (some.inj hlease') with ⟨rfl, rfl⟩
          rw [hstage] at hlease
          exact .found hc rfl hlease hold rfl hrow htoken hsome
  case getByScope scope =>
    rcases a with e | _ | row <;> exact hsame (fun _ _ hr => (nomatch hr)) rfl hc'
  case getTombstone scopeHash =>
    rcases a with e | _ | tombstone <;> exact hsame (fun _ _ hr => (nomatch hr)) rfl hc'
  case insert row => cases a <;> exact hsame (fun _ _ hr => (nomatch hr)) rfl hc'
  case uuid4 => nomatch hc'
  case change id op =>
    rcases claim_or_other op with ⟨token, now, ignoreBackoff, rfl⟩ | hother
    · cases a
      case committed row =>
        rw [← some.inj hc'] at hlease' ⊢
        rcases Prod.mk.inj (some.inj hlease') with ⟨rfl, rfl⟩
        exact .told (h.shown (r := .change id _) (Or.inr rfl)).1
      all_goals
        rw [← some.inj hc'] at hlease'
        nomatch hlease'
    · cases hmarks : marks op with
      | none => exact h.learned_other hother hmarks hc' hlease'
      | some k => exact h.learned_mark hmarks hc' hlease'
  case createItem draft marker =>
    rcases map_eq_some_iff.mp hc' with ⟨c, hc, rfl⟩
    rcases map_eq_some_iff.mp hlease' with ⟨held, hheld, heq⟩
    rcases Prod.mk.inj heq with ⟨rfl, rfl⟩
    exact .spent
  case addItemComment key comment marker =>
    rcases map_eq_some_iff.mp hc' with ⟨c, hc, rfl⟩
    rcases map_eq_some_iff.mp hlease' with ⟨held, hheld, heq⟩
    rcases Prod.mk.inj heq with ⟨rfl, rfl⟩
    exact .spent
  all_goals exact hsame (fun _ _ hr => (nomatch hr)) rfl hc'

theorem clear_of_found (hc : (places i).claim = some c)
    (hlease : c.lease = some (row, .marking k)) (hid : row.id = row'.id) (hr : r = .get id)
    (hrow : w'.store.rows row'.id = some row') (htoken : row'.claimToken = some c.token)
    (hsome : (k.recorded row').isSome = true) : Clear events places i k row'.id := by
  rcases h.token_before hc hrow htoken with ⟨stored, hstored, hbefore, hrecorded⟩
  rw [← hid] at hstored ⊢
  refine h.inv.stages i c row (.marking k) hc hlease stored hstored hbefore ?_
  rcases hrecorded k with hsame | ⟨_, op, hr', _⟩
  · rw [← hsame]
    exact hsome
  · rw [hr] at hr'
    nomatch hr'

/-- A worker is permitted an attempt only if it was permitted before, or if nobody
    else made it or may make it. -/
theorem permitted_after
    (hholds : ((places i).move env r a).Holds row' token (.permitted k)) :
    (∃ row, (places i).Holds row token (.permitted k) ∧ row.id = row'.id) ∨
      (w'.store.rows row'.id = some row' ∧ row'.claimToken = some token ∧ posts r = none ∧
        Clear events places i k row'.id) := by
  cases h.learned hholds rfl with
  | kept hc htoken hlease hid =>
    have hold := h.holds_of_claim hc hlease
    rw [htoken] at hold
    exact Or.inl ⟨_, hold, hid⟩
  | @found c row k id hc htoken hlease hid hr hrow hrowtoken hsome =>
    subst htoken
    exact Or.inr ⟨hrow, hrowtoken, by rw [hr]; rfl,
      h.clear_of_found hc hlease hid hr hrow hrowtoken hsome⟩
  | marked hr hmarks hop hrow hrowtoken _ =>
    exact Or.inr ⟨hrow, hrowtoken, by rw [hr]; rfl, h.clear_of_mark hr hmarks hop hrow hrowtoken⟩

/-- A call of the tracker that must not be repeated is made by a worker that is
    permitted to make it. -/
theorem poster {marker : String}
    (hposts : posts r = some (k, marker)) :
    ∃ row token, (places i).Holds row token (.permitted k) ∧ marker = providerMarkerOf row.id ∧
      SeenRow events w.store row := by
  have hheld : ∃ row token, (places i).Holds row token (.permitted k) ∧ marker = row.providerMarker := by
    cases r <;> simp only [posts, reduceCtorEq, some.injEq, Prod.mk.injEq] at hposts
    case createItem draft marker' =>
      rcases hposts with ⟨rfl, rfl⟩
      rcases h.allowed rfl with ⟨row, token, stage, hholds, hfor, _, hstage⟩
      rw [hstage _ _ rfl] at hholds
      exact ⟨row, token, hholds, hfor.2⟩
    case addItemComment target comment marker' =>
      rcases hposts with ⟨rfl, rfl⟩
      rcases h.allowed rfl with ⟨row, token, stage, hholds, hfor, _, hstage⟩
      rw [hstage _ _ rfl] at hholds
      exact ⟨row, token, hholds, hfor.2.1⟩
  rcases hheld with ⟨row, token, hholds, hmarker⟩
  have hseen := ((h.inv.desks i).lease _ row _ hholds rfl).2.1
  exact ⟨row, token, hholds, hmarker.trans (h.inv.store.marked row hseen), hseen⟩

end

theorem marker_injective {id' : String} (h : providerMarkerOf id = providerMarkerOf id') :
    id = id' := by
  unfold providerMarkerOf at h
  exact (String.append_right_inj _).mp h

theorem clear_after (h : Answered env events w places i r a w')
    (hclear : Clear events places j k id) (hposts : j = i → posts r = none)
    (hgain : j ≠ i → ∀ row token, ((places i).move env r a).Holds row token (.permitted k) →
      row.id ≠ id) :
    Clear (events ++ [⟨i, w, r, a, w'⟩]) (desksAfter env places i r a) j k id := by
  refine ⟨fun ⟨e, he, hpost⟩ => ?_, fun j' hj' row token hholds => ?_⟩
  · rcases mem_append.mp he with hmem | hlast
    · exact hclear.1 ⟨e, hmem, hpost⟩
    · rw [mem_singleton.mp hlast] at hpost
      by_cases hj : j = i
      · rw [hposts hj] at hpost
        nomatch hpost
      · rcases h.poster hpost with ⟨row, token, hholds, hmarker, _⟩
        exact hclear.2 i (fun heq => hj heq.symm) row token hholds (marker_injective hmarker).symm
  · unfold desksAfter at hholds
    by_cases hi : j' = i
    · subst hi
      rw [update_self] at hholds
      exact hgain (fun heq => hj' heq.symm) row token hholds
    · rw [update_of_ne hi] at hholds
      exact hclear.2 j' hj' row token hholds

theorem stage_later (h : Answered env events w places i r a w') (hc : (places j).claim = some c)
    (hlease : c.lease = some (row, stage))
    (hown : j = i → (∀ id op, r = .change id op → marks op = none) ∧ posts r = none) :
    StageFact (events ++ [⟨i, w, r, a, w'⟩]) w'.store (desksAfter env places i r a) j c.token row
      stage := by
  have hfact := h.inv.stages j c row stage hc hlease
  -- The attempts of a row under this token were recorded before.
  have hrecorded : ∀ stored', w'.store.rows row.id = some stored' →
      stored'.claimToken = some c.token → ∃ stored, w.store.rows row.id = some stored ∧
        stored.claimToken = some c.token ∧ ∀ k : Attempt, k.recorded stored' = k.recorded stored := by
    intro stored' hstored' htoken
    rcases h.token_before hc hstored' htoken with ⟨stored, hstored, hbefore, hsame⟩
    refine ⟨stored, hstored, hbefore, fun k => (hsame k).resolve_right ?_⟩
    rintro ⟨hj, op, hr, hmarks, _⟩
    rw [(hown hj).1 _ op hr] at hmarks
    nomatch hmarks
  cases stage with
  | spent => trivial
  | fresh =>
    intro stored' hstored' htoken k hnone
    rcases hrecorded stored' hstored' htoken with ⟨stored, hstored, hbefore, hsame⟩
    rw [hsame k]
    exact hfact stored hstored hbefore k hnone
  | marking k =>
    intro stored' hstored' htoken hsome
    rcases hrecorded stored' hstored' htoken with ⟨stored, hstored, hbefore, hsame⟩
    rw [hsame k] at hsome
    have hclear := hfact stored hstored hbefore hsome
    refine h.clear_after hclear (fun hj => (hown hj).2) fun hj row' token hholds hid => ?_
    rcases h.permitted_after hholds with ⟨old, hold, hsameid⟩ | ⟨hrow', hrowtoken, _, _⟩
    · exact hclear.2 i (fun heq => hj heq.symm) old token hold (hsameid.trans hid)
    · -- The stored row would be under two tokens.
      rw [hid, hstored', some.injEq] at hrow'
      rw [← hrow', htoken, some.injEq] at hrowtoken
      have hmine := (h.desk_moved.claim _ hholds).1
      have hother := h.step.1.issued _ _ ((h.inv.desks j).claim c hc).1
      rw [hrowtoken, hmine, some.injEq] at hother
      exact hj hother.symm
  | permitted k =>
    refine ⟨h.clear_after hfact.1 (fun hj => (hown hj).2) fun hj row' token hholds hid => ?_,
      fun stored' hstored' => ?_⟩
    · rcases h.permitted_after hholds with ⟨old, hold, hsameid⟩ | ⟨_, _, _, hclear⟩
      · exact hfact.1.2 i (fun heq => hj heq.symm) old token hold (hsameid.trans hid)
      · exact hclear.2 j hj row c.token (h.holds_of_claim hc hlease) hid.symm
    · rcases h.continues ((h.inv.desks j).lease c row _ hc hlease).2.1 hstored' with
        ⟨stored, hstored, _, hadvances⟩
      exact recorded_advances hadvances k (hfact.2 stored hstored)

theorem stages_after (h : Answered env events w places i r a w') (j : ι)
    (hc' : (desksAfter env places i r a j).claim = some c')
    (hlease' : c'.lease = some (row', stage')) :
    StageFact (events ++ [⟨i, w, r, a, w'⟩]) w'.store (desksAfter env places i r a) j c'.token row'
      stage' := by
  unfold desksAfter at hc'
  by_cases hj : j = i
  · subst hj
    rw [update_self] at hc'
    have hgain : ∀ {k id}, Clear events places j k id → posts r = none →
        Clear (events ++ [⟨j, w, r, a, w'⟩]) (desksAfter env places j r a) j k id :=
      fun hclear hposts => h.clear_after hclear (fun _ => hposts) fun hne => absurd rfl hne
    cases h.learned hc' hlease' with
    | spent => trivial
    | told hrow =>
      intro stored hstored _ k hnone
      rw [hrow, some.injEq] at hstored
      rw [← hstored]
      exact hnone
    | @kept c row stage hc htoken hlease hid hfresh hmarks hposts =>
      have hstage := h.stage_later hc hlease fun _ => ⟨hmarks, hposts⟩
      rw [htoken] at hstage
      cases stage' with
      | fresh =>
        rw [← hfresh rfl]
        exact hstage
      | marking k =>
        simp only [StageFact, hid] at hstage ⊢
        exact hstage
      | permitted k =>
        simp only [StageFact, hid] at hstage ⊢
        exact hstage
      | spent => trivial
    | found hc htoken hlease hid hr hrow hrowtoken hsome =>
      rw [← htoken] at hrowtoken
      refine ⟨hgain (h.clear_of_found hc hlease hid hr hrow hrowtoken hsome) (by rw [hr]; rfl), ?_⟩
      intro stored hstored
      rw [hrow, some.injEq] at hstored
      rw [← hstored]
      exact hsome
    | asked hr hmarks hop =>
      intro stored hstored htoken _
      exact hgain (h.clear_of_mark hr hmarks hop hstored htoken) (by rw [hr]; rfl)
    | marked hr hmarks hop hrow hrowtoken hsome =>
      refine ⟨hgain (h.clear_of_mark hr hmarks hop hrow hrowtoken) (by rw [hr]; rfl), ?_⟩
      intro stored hstored
      rw [hrow, some.injEq] at hstored
      rw [← hstored]
      exact hsome
  · rw [update_of_ne hj] at hc'
    exact h.stage_later hc' hlease' fun heq => absurd heq hj

theorem provider_allowed {l : Desk} (hallowed : l.allowed env r) (hcall : r.isProviderCall = true) :
    ∃ row token stage, l.Holds row token stage ∧ IsFor row r ∧ l.Serves env row := by
  have hheld : (r.isProviderCall = true → ∃ row token stage, l.Holds row token stage ∧
      IsFor row r ∧ l.Serves env row ∧
        ∀ k marker, posts r = some (k, marker) → stage = .permitted k) →
      ∃ row token stage, l.Holds row token stage ∧ IsFor row r ∧ l.Serves env row := by
    intro h
    rcases h hcall with ⟨row, token, stage, hholds, hfor, hserves, _⟩
    exact ⟨row, token, stage, hholds, hfor, hserves⟩
  cases r
  case insert => nomatch hcall
  case change => nomatch hcall
  case retire => nomatch hcall
  all_goals exact hheld hallowed

theorem calls_for (h : Answered env events w places i r a w') (hcall : r.isProviderCall = true) :
    ∃ row, CallsFor env events ⟨i, w, r, a, w'⟩ row := by
  rcases provider_allowed h.allowed hcall with ⟨row, token, stage, hholds, hfor, hserves⟩
  have hl := h.inv.desks i
  rcases hl.lease _ row stage hholds rfl with ⟨_, hseen, hthere⟩
  rcases h.alive with ⟨call, since, hcalls, halive⟩
  cases hstored : w.store.rows row.id with
  | none => exact absurd halive (Int.not_lt.mpr ((hthere call since hcalls).2 hstored))
  | some stored =>
    have hadvances := h.inv.store.kept row hseen stored hstored
    refine ⟨stored, ?_, ?_, hfor.advances hadvances, ?_⟩
    · rw [hadvances.id]
      exact (hl.claim _ hholds).2.1
    · rw [hadvances.id]
      exact hstored
    · rcases hserves with ⟨call', since', hmine, hserves⟩
      rw [hl.call] at hmine
      exact ⟨call', since', hmine, serves_advances hserves hadvances⟩

theorem posted_after (h : Answered env events w places i r a w')
    (hposted : Posted (events ++ [⟨i, w, r, a, w'⟩]) k id) :
    (∃ row, SeenRow (events ++ [⟨i, w, r, a, w'⟩]) w'.store row ∧ row.id = id) ∧
      ∀ stored', w'.store.rows id = some stored' → (k.recorded stored').isSome = true := by
  have hbefore : (∃ row, SeenRow events w.store row ∧ row.id = id) ∧
      ∀ stored, w.store.rows id = some stored → (k.recorded stored).isSome = true := by
    rcases hposted with ⟨e, he, hpost⟩
    rcases mem_append.mp he with hmem | hlast
    · exact h.inv.posted k id ⟨e, hmem, hpost⟩
    · rw [mem_singleton.mp hlast] at hpost
      rcases h.poster hpost with ⟨row, token, hholds, hmarker, hseen⟩
      have hid := marker_injective hmarker
      refine ⟨⟨row, hseen, hid.symm⟩, fun stored hstored => ?_⟩
      rw [hid] at hstored
      exact (h.inv.stages i _ row (.permitted k) hholds rfl).2 stored hstored
  rcases hbefore with ⟨⟨row, hseen, rfl⟩, hrecorded⟩
  refine ⟨⟨row, hseen.append, rfl⟩, fun stored' hstored' => ?_⟩
  rcases h.continues hseen hstored' with ⟨stored, hstored, _, hadvances⟩
  exact recorded_advances hadvances k (hrecorded stored hstored)

end Answered

variable {env : WorkItemEnv}

section

variable {ι : Type} [DecidableEq ι] {events : List (MutationEvent ι)}
  {w w' : MutationWorld ι MutationCall} {places : ι → Desk} {i : ι}

theorem dispatch_step {r : MutationRequest}
    {a : r.Answer} (hinv : DispatchInv env events w places) (hallowed : (places i).allowed env r)
    (hresp : (dispatchSystem ι env).respond i w r a w') :
    (places i).possible r a ∧
      DispatchInv env (events ++ [⟨i, w, r, a, w'⟩]) w'
        (update places i ((places i).move env r a)) := by
  have h : Answered env events w places i r a w' := ⟨hinv, hallowed, hresp⟩
  refine ⟨h.possible, ?_⟩
  exact {
    store := h.store_after
    desks := h.desks_after
    stages := fun j _ _ _ hc hlease => h.stages_after j hc hlease
    posted := fun _ _ hposted => h.posted_after hposted
    calls := fun before e hprefix hcall => by
      rcases prefix_concat_iff.mp hprefix with hlast | hearlier
      · rcases append_inj_left' hlast rfl with rfl
        rw [append_cancel_left_eq, cons.injEq] at hlast
        rw [hlast.1] at hcall ⊢
        exact h.calls_for hcall
      · exact hinv.calls before e hearlier hcall
    once := fun before e hprefix k marker hposts e' he' hposts' => by
      rcases prefix_concat_iff.mp hprefix with hlast | hearlier
      · rcases append_inj_left' hlast rfl with rfl
        rw [append_cancel_left_eq, cons.injEq] at hlast
        rw [hlast.1] at hposts
        rcases h.poster hposts with ⟨row, token, hholds, hmarker, _⟩
        refine (hinv.stages i _ row (.permitted k) hholds rfl).1.1 ⟨e', he', ?_⟩
        rw [← hmarker]
        exact hposts'
      · exact hinv.once before e hearlier k marker hposts e' he' hposts'
    retired := fun before e hprefix e' he' row hrow hgone => by
      rcases prefix_concat_iff.mp hprefix with hlast | hearlier
      · rcases append_inj_left' hlast rfl with rfl
        rw [append_cancel_left_eq, cons.injEq] at hlast
        rw [hlast.1]
        exact hinv.store.past e' he' row hrow hgone
      · exact hinv.retired before e hearlier e' he' row hrow hgone }

theorem dispatch_start
    {p : Program MutationRequest MutationRequest.Answer (Except MutationError (Option WorkItem))}
    (hinv : DispatchInv env events w places) (hstart : (dispatchSystem ι env).start i w p w') :
    ∃ l, p.follows (deskDiscipline env) (whenOk (Desk.returned env)) l ∧
      DispatchInv env events w' (update places i l) := by
  rcases hstart with ⟨call, rfl, ⟨hrows, htombstones, hissued, hclock⟩, hcalls⟩
  refine ⟨⟨some (call, w.store.clock), w.store.clock, none, none, [], none⟩, program_follows rfl, ?_⟩
  have hseen : ∀ row, SeenRow events w'.store row ↔ SeenRow events w.store row := by
    intro row
    unfold SeenRow
    rw [hrows]
  -- The others lose a rival at most.
  have hclear : ∀ {j k id l}, l.claim = none → Clear events places j k id →
      Clear events (update places i l) j k id := by
    intro j k id l hnone h
    refine ⟨h.1, fun j' hj' row token hholds => ?_⟩
    by_cases hi : j' = i
    · rw [hi, update_self] at hholds
      rw [show l.claim = some _ from hholds] at hnone
      nomatch hnone
    · rw [update_of_ne hi] at hholds
      exact h.2 j' hj' row token hholds
  exact {
    store := {
      drawn := fun row hrow => by
        rw [hissued]
        exact hinv.store.drawn row ((hseen row).mp hrow)
      marked := fun row hrow => hinv.store.marked row ((hseen row).mp hrow)
      tokens := fun id row token hrow htoken => by
        rw [hissued]
        rw [hrows] at hrow
        exact hinv.store.tokens id row token hrow htoken
      rows := fun id row hrow => by
        rw [hrows] at hrow
        rcases hinv.store.rows id row hrow with ⟨hid, hconsistent, hupdated⟩
        exact ⟨hid, hconsistent, Int.le_trans hupdated hclock⟩
      one := fun row row' hrow hrow' => hinv.store.one row row' ((hseen row).mp hrow)
        ((hseen row').mp hrow')
      gone := fun row hrow hgone => by
        rw [hrows] at hgone
        rw [htombstones]
        rcases hinv.store.gone row ((hseen row).mp hrow) hgone with
          ⟨hbound, last, hlast, hscope, hlong⟩
        exact ⟨hbound, last, (hseen last).mpr hlast, hscope, Int.le_trans hlong hclock⟩
      kept := fun row hrow stored hstored => by
        rw [hrows] at hstored
        exact hinv.store.kept row ((hseen row).mp hrow) stored hstored
      past := fun e he row hrow hgone => by
        rw [hrows]
        exact hinv.store.past e he row hrow hgone }
    desks := by
      refine forall_update_iff places (fun j l => DeskInv env events w' j l) |>.mpr
        ⟨?_, fun j hj => ?_⟩
      · exact {
          time := hclock
          call := by rw [hcalls, update_self]
          since := fun call' since hcall => by
            rw [hcalls, update_self] at hcall
            rw [← (Prod.mk.inj (some.inj hcall)).2]
            exact hclock
          name := fun _ hname => (nomatch hname)
          vacancy := fun _ _ hfree => (nomatch hfree)
          bound := fun _ hrow => (nomatch hrow)
          claim := fun _ hc => (nomatch hc)
          lease := fun _ _ _ hc => (nomatch hc) }
      · have h := hinv.desks j
        have hcalls : w'.calls j = w.calls j := by rw [hcalls, update_of_ne hj]
        exact {
          time := Int.le_trans h.time hclock
          call := by rw [hcalls]; exact h.call
          since := fun call' since hcall => by
            rw [hcalls] at hcall
            exact Int.le_trans (h.since call' since hcall) hclock
          name := fun name hname => by
            rw [hissued, hrows]
            rcases h.name name hname with ⟨howner, hunseen, htokens⟩
            exact ⟨howner, fun row hrow => hunseen row ((hseen row).mp hrow), htokens⟩
          vacancy := fun scope checked hfree call' since hcall row hrow => by
            rw [hcalls] at hcall
            rw [htombstones]
            exact h.vacancy scope checked hfree call' since hcall row ((hseen row).mp hrow)
          bound := fun row hrow => (hseen row).mpr (h.bound row hrow)
          claim := by
            rw [hcalls, hissued, hrows]
            exact h.claim
          lease := fun c row stage hc hlease => by
            rcases h.lease c row stage hc hlease with ⟨hid, hrow, hthere⟩
            rw [hcalls, hrows]
            refine ⟨hid, (hseen row).mpr hrow, fun call' since hcall => ?_⟩
            rcases hthere call' since hcall with ⟨hsince, hlong⟩
            exact ⟨hsince, fun hgone => Int.le_trans (hlong hgone) hclock⟩ }
    stages := by
      refine forall_update_iff places (fun j l => ∀ c row stage, l.claim = some c →
        c.lease = some (row, stage) → StageFact events w'.store (update places i _) j
          c.token row stage) |>.mpr ⟨fun _ _ _ hc => (nomatch hc), fun j hj c row stage hc hlease => ?_⟩
      have h := hinv.stages j c row stage hc hlease
      cases stage with
      | spent => trivial
      | fresh =>
        simp only [StageFact, hrows] at h ⊢
        exact h
      | marking k =>
        simp only [StageFact, hrows] at h ⊢
        exact fun stored hstored htoken hsome => hclear rfl (h stored hstored htoken hsome)
      | permitted k =>
        simp only [StageFact, hrows] at h ⊢
        exact ⟨hclear rfl h.1, h.2⟩
    posted := fun k id hposted => by
      rw [hrows]
      rcases hinv.posted k id hposted with ⟨⟨row, hrow, hid⟩, hrecorded⟩
      exact ⟨⟨row, (hseen row).mpr hrow, hid⟩, hrecorded⟩
    calls := hinv.calls
    once := hinv.once
    retired := hinv.retired }

end

theorem dispatch_empty {ι : Type} [DecidableEq ι] {connections : String → Option Connection}
    {clock : Instant} :
    DispatchInv env ([] : List (MutationEvent ι)) (.empty connections clock)
      (fun _ => ⟨none, clock, none, none, [], none⟩) := by
  have hseen : ∀ row, ¬ SeenRow ([] : List (MutationEvent ι))
      (.empty connections clock : MutationWorld ι MutationCall).store row := by
    rintro row (hrow | ⟨e, he, _⟩)
    · nomatch hrow
    · nomatch he
  have hprefix : ∀ {before : List (MutationEvent ι)} {e}, ¬ before ++ [e] <+: [] := fun h =>
    append_ne_nil_of_right_ne_nil _ (cons_ne_nil _ _) (prefix_nil.mp h)
  exact {
    store := {
      drawn := fun row hrow => absurd hrow (hseen row)
      marked := fun row hrow => absurd hrow (hseen row)
      tokens := fun _ _ _ hrow => (nomatch hrow)
      rows := fun _ _ hrow => (nomatch hrow)
      one := fun row _ hrow => absurd hrow (hseen row)
      gone := fun row hrow => absurd hrow (hseen row)
      kept := fun row hrow => absurd hrow (hseen row)
      past := fun _ he => (nomatch he) }
    desks := fun i => {
      time := Int.le_refl clock
      call := rfl
      since := fun _ _ hcall => (nomatch hcall)
      name := fun _ hname => (nomatch hname)
      vacancy := fun _ _ hfree => (nomatch hfree)
      bound := fun _ hrow => (nomatch hrow)
      claim := fun _ hc => (nomatch hc)
      lease := fun _ _ _ hc => (nomatch hc) }
    stages := fun _ _ _ _ hc => (nomatch hc)
    posted := fun _ _ ⟨_, he, _⟩ => (nomatch he)
    calls := fun _ _ h => absurd h hprefix
    once := fun _ _ h => absurd h hprefix
    retired := fun _ _ h => absurd h hprefix }

theorem CallsFor.marker {ι : Type} [DecidableEq ι] {before : List (MutationEvent ι)}
    {e : MutationEvent ι} {row : WorkItemMutation} (h : CallsFor env before e row) {k : Attempt}
    {marker : String}
    (hposts : posts e.request = some (k, marker)) : marker = row.providerMarker := by
  have hcarries := h.carries
  cases hr : e.request <;> rw [hr] at hposts hcarries <;>
    simp only [posts, reduceCtorEq, some.injEq, Prod.mk.injEq] at hposts
  case createItem draft marker' =>
    rw [← hposts.2]
    exact hcarries.2
  case addItemComment target comment marker' =>
    rw [← hposts.2]
    exact hcarries.2.1

/-- Two positions of a list are the same if neither element is among those before the
    other. -/
theorem same_position {α : Type} {before before' events : List α} {a a' : α}
    (h : before ++ [a] <+: events) (h' : before' ++ [a'] <+: events) (hnot : a' ∉ before)
    (hnot' : a ∉ before') : before = before' := by
  have hin : ∀ {l l' : List α} {b b' : α}, l ++ [b] <+: events → l' ++ [b'] <+: events →
      b ∉ l' → l'.length ≤ l.length := by
    intro l l' b b' hl hl' hb
    refine Nat.not_lt.mp fun hlt => hb ?_
    have hprefix : l ++ [b] <+: l' := prefix_of_prefix_length_le hl
      ((prefix_append l' [b']).trans hl') (by rw [length_append]; exact hlt)
    exact hprefix.subset (mem_append.mpr (Or.inr (mem_singleton.mpr rfl)))
  have hprefix : before <+: events := (prefix_append before [a]).trans h
  have hprefix' : before' <+: events := (prefix_append before' [a']).trans h'
  exact (prefix_of_prefix_length_le hprefix hprefix' (hin h' h hnot)).eq_of_length
    (Nat.le_antisymm (hin h' h hnot) (hin h h' hnot'))

/-- However requests, reconcilers and heartbeats interleave over a store that begins
    empty: every call of the tracker is made for the stored row its worker claimed; a
    creation is sent at most once for a scope, and so is a comment; once the row of a
    scope is retired the tracker is not called for the scope; and a request for a
    scope that is bound to another payload calls nothing and returns nothing. -/
theorem dispatched_at_most_once {ι : Type} [DecidableEq ι] {env : WorkItemEnv}
    {connections : String → Option Connection} {clock : Instant} {events : List (MutationEvent ι)}
    {team : Team (MutationWorld ι MutationCall) ι MutationRequest MutationRequest.Answer
      (Except MutationError (Option WorkItem))}
    (hrun : (dispatchSystem ι env).Run (.empty connections clock) events team) :
    (∀ before e, before ++ [e] <+: events → e.request.isProviderCall = true →
      ∃ row, CallsFor env before e row) ∧
    (∀ before e before' e' k marker marker' row row', before ++ [e] <+: events →
      before' ++ [e'] <+: events → posts e.request = some (k, marker) →
      posts e'.request = some (k, marker') → CallsFor env before e row →
      CallsFor env before' e' row' → row.scope = row'.scope → before = before') ∧
    (∀ before e row, before ++ [e] <+: events → CallsFor env before e row →
      ∀ e' ∈ before, ∀ old, e'.before.store.rows old.id = some old →
        e'.after.store.rows old.id = none → old.scope ≠ row.scope) ∧
    (∀ call caller payload r row, call.request = some (caller, payload) →
      caller.reservation env payload = .ok r → SeenRow events team.state.store row →
      r.scope = row.scope → payload ≠ row.payload →
      (∀ e ∈ events, ∀ since, e.before.calls e.worker = some (call, since) →
        e.request.isProviderCall = false) ∧
      ∀ i since item, team.state.calls i = some (call, since) →
        team.running i ≠ some (.done (.ok (some item)))) := by
  rcases System.Run.invariant dispatch_empty dispatch_start dispatch_step hrun with
    ⟨places, hinv, hfollows⟩
  -- The row of a call is one of the rows seen.
  have hseen : ∀ {before e row}, before ++ [e] <+: events → CallsFor env before e row →
      SeenRow events team.state.store row := fun hprefix h =>
    Or.inr ⟨_, hprefix.subset (mem_append.mpr (Or.inr (mem_singleton.mpr rfl))), h.live⟩
  refine ⟨hinv.calls, ?_, ?_, ?_⟩
  · intro before e before' e' k marker marker' row row' hprefix hprefix' hposts hposts' hfor hfor'
      hscope
    have hid := (hinv.store.one row row' (hseen hprefix hfor) (hseen hprefix' hfor') hscope).1
    have hmarker : marker = marker' := by
      rw [hfor.marker hposts, hfor'.marker hposts', hinv.store.marked row (hseen hprefix hfor),
        hinv.store.marked row' (hseen hprefix' hfor'), hid]
    subst hmarker
    exact same_position hprefix hprefix'
      (fun he' => hinv.once before e hprefix k marker hposts e' he' hposts')
      (fun he => hinv.once before' e' hprefix' k marker hposts' e he hposts)
  · intro before e row hprefix hfor e' he' old hold hgone hscope
    have hearlier : before <+: events := (prefix_append before [e]).trans hprefix
    have hid := (hinv.store.one old row (Or.inr ⟨e', hearlier.subset he', hold⟩)
      (hseen hprefix hfor) hscope).1
    have hnone := hinv.retired before e hprefix e' he' old hold hgone
    rw [hid, hfor.live] at hnone
    nomatch hnone
  · intro call caller payload r row hrequest hreservation hrow hscope hne
    refine ⟨fun e he since hcall => ?_, fun i since item hcall hdone => ?_⟩
    · refine Bool.eq_false_iff.mpr fun hprovider => ?_
      rcases append_of_mem he with ⟨before, after, rfl⟩
      have hprefix : before ++ [e] <+: before ++ e :: after := ⟨after, by simp⟩
      rcases hinv.calls before e hprefix hprovider with ⟨served, hfor⟩
      rcases hfor.serves with ⟨call', since', hcall', hserves⟩
      rw [hcall, some.injEq, Prod.mk.injEq] at hcall'
      rcases hcall' with ⟨rfl, _⟩
      cases call with
      | mutate adapter caller' payload' =>
        rcases Prod.mk.inj (some.inj hrequest) with ⟨rfl, rfl⟩
        rcases hserves with ⟨r', hr', hscope', hpayload'⟩
        rw [hreservation, Except.ok.injEq] at hr'
        have hone := hinv.store.one served row (hseen hprefix hfor) hrow
          (by rw [hscope', ← hr', hscope])
        exact hne (hpayload'.symm.trans hone.2)
      | replay => exact hserves
      | reconcile => nomatch hrequest
      | heartbeat => nomatch hrequest
    · have hplace : (places i).call = some (call, since) := by rw [(hinv.desks i).call, hcall]
      rcases hfollows i _ hdone (some item) rfl call since caller payload item hplace hrequest rfl
        with ⟨r', bound, hr', hmem, hboundscope, hpayload⟩
      rw [hreservation, Except.ok.injEq] at hr'
      have hone := hinv.store.one bound row ((hinv.desks i).bound bound hmem) hrow
        (by rw [hboundscope, ← hr', hscope])
      exact hne (hpayload.symm.trans hone.2)

/-- Somebody who asks for the creation of `sampleCreation`. -/
def sampleCaller : MutationCaller where
  identity := ⟨"u", true, true, []⟩
  projectId := none
  connectionId := "c"
  connectionVersion := some 0
  idempotencyKey := "k"

theorem sampleCaller_reservation :
    sampleCaller.reservation sampleWorkItemEnv (.create sampleDraft) = .ok sampleCreation := by
  decide +kernel

theorem mutate_run {adapter : WorkTrackingAdapter} {caller : MutationCaller}
    {payload : MutationPayload} {r : Reservation}
    (hcheck : checkRequest env adapter payload = pure ())
    (hreservation : caller.reservation env payload = .ok r)
    (hvalid : validateMutationReservation env r = .ok ()) :
    (MutationCall.mutate adapter caller payload).program env
      = (some <$> (do let row ← Mutations.reserveValidated env r
                      runMutation env row adapter true : MutationAction WorkItem)).run := by
  have hreserve : Mutations.reserve env r = Mutations.reserveValidated env r := by
    unfold Mutations.reserve
    rw [hvalid]
    rfl
  have hmutate : mutate env adapter caller payload
      = Mutations.reserve env r >>= fun row => runMutation env row adapter true := by
    unfold mutate
    rw [hcheck, hreservation]
    rfl
  rw [hreserve] at hmutate
  change (some <$> mutate env adapter caller payload : MutationAction _).run = _
  rw [hmutate]

def sampleAdapter : WorkTrackingAdapter := ⟨false, true, false, false⟩

theorem sampleCheck :
    checkRequest sampleWorkItemEnv sampleAdapter (.create sampleDraft) = pure () := by
  have hrefusal : payloadRefusal sampleWorkItemEnv (.create sampleDraft) = .ok () := by
    decide +kernel
  change (do
    requireIdempotentAdapter sampleAdapter
    settle (payloadRefusal sampleWorkItemEnv (.create sampleDraft)) : MutationAction Unit) = pure ()
  rw [hrefusal]
  rfl

theorem sampleDispatch :
    ∃ (before : List (MutationEvent Nat)) (e : MutationEvent Nat)
      (team : Team (MutationWorld Nat MutationCall) Nat MutationRequest MutationRequest.Answer
        (Except MutationError (Option WorkItem))),
      (dispatchSystem Nat sampleWorkItemEnv).Run (.empty sampleConnections 0) (before ++ [e]) team ∧
        before.length = 10 ∧ ∃ marker, posts e.request = some (.create, marker) := by
  let row := sampleCreation.row "m"
  let op := Operation.claim "n" 0 true
  let claimed := row.flushed (op.mutate row) 0
  let mark := Operation.markProviderAttempted "n" 0
  let marked := claimed.flushed (mark.mutate claimed) 0
  have hidle : (dispatchSystem Nat sampleWorkItemEnv).Run (.empty sampleConnections 0) []
      ⟨⟨sampleStore, update (fun _ => none) 0 none⟩,
        update (fun _ => none) 0 none⟩ := by
    rw [update_eq_self, update_eq_self]
    exact System.Run.idle
  have halive : (0 : Instant) < 0 + terminalReplayRetention := by decide
  obtain ⟨e1, _, h1⟩ := mutationSystem_asked (r := .getByScope sampleCreation.scope)
    (mutationSystem_called (.mutate sampleAdapter sampleCaller (.create sampleDraft)) hidle)
    ((mutate_run sampleCheck sampleCaller_reservation sampleCreation_valid).trans rfl) (.ok none)
    halive ⟨fun _ _ _ hrow => (nomatch hrow), fun _ hrow => (nomatch hrow), rfl⟩
  obtain ⟨e2, _, h2⟩ := mutationSystem_asked (r := .getTombstone _) h1 rfl (.ok none) halive
    ⟨fun _ hfound => (Except.ok.inj hfound).symm, rfl⟩
  obtain ⟨e3, _, h3⟩ := mutationSystem_asked (r := .uuid4) h2 rfl "m" halive ⟨rfl, rfl⟩
  obtain ⟨e4, _, h4⟩ := mutationSystem_asked (r := .insert row) h3 rfl (.committed row) halive
    ⟨by decide +kernel, rfl, fun _ _ hrow => (nomatch hrow), rfl, rfl⟩
  obtain ⟨e5, _, h5⟩ := mutationSystem_asked (r := .uuid4) h4 rfl "n" halive ⟨by decide +kernel, rfl⟩
  obtain ⟨e6, _, h6⟩ := mutationSystem_asked (r := .now) h5 rfl (0 : Instant) halive ⟨rfl, rfl⟩
  obtain ⟨e7, _, h7⟩ := mutationSystem_asked (r := .change "m" op) h6 rfl (.committed claimed) halive
    ⟨row, op.mutate row, by decide +kernel, rfl, rfl, rfl⟩
  obtain ⟨e8, _, h8⟩ := mutationSystem_asked (r := .findItemByIdempotencyMarker row.providerMarker) h7
    rfl (.ok none) halive rfl
  obtain ⟨e9, _, h9⟩ := mutationSystem_asked (r := .now) h8 rfl (0 : Instant) halive ⟨rfl, rfl⟩
  obtain ⟨e10, _, h10⟩ := mutationSystem_asked (r := .change "m" mark) h9 rfl (.committed marked) halive
    ⟨claimed, mark.mutate claimed, by decide +kernel, by decide +kernel, rfl, rfl⟩
  obtain ⟨e11, hasked, h11⟩ := mutationSystem_asked
    (r := .createItem sampleDraft marked.providerMarker) h10 rfl (.ok none) halive rfl
  exact ⟨_, e11, _, h11, rfl, _, by rw [hasked]; rfl⟩

/-- The creation of that run is sent for a stored row. -/
theorem dispatched_at_most_once_created :
    ∃ (before : List (MutationEvent Nat)) (e : MutationEvent Nat) (row : WorkItemMutation)
      (marker : String), before.length = 10 ∧ posts e.request = some (.create, marker) ∧
        CallsFor sampleWorkItemEnv before e row := by
  rcases sampleDispatch with ⟨before, e, team, hrun, hlength, marker, hposts⟩
  rcases dispatched_at_most_once hrun with ⟨hcalls, _⟩
  have hprovider : e.request.isProviderCall = true := by
    cases hr : e.request <;> rw [hr] at hposts <;> first | rfl | nomatch hposts
  rcases hcalls before e (prefix_refl _) hprovider with ⟨row, hfor⟩
  exact ⟨before, e, row, marker, hlength, hposts, hfor⟩

end Apex.Services
