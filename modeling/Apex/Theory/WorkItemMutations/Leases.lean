import Apex.Theory.WorkItemMutations.Transitions

/-!
# Leases Are Exclusive And Settled Rows Are Final

Any number of workers call the operations of the repository in any order, with
tokens of their own or of others, are answered that a commit failed although it
happened, and stop at any point. Then every row only advances, and each change
of it is licensed: by the token stored in the running row, or because no lease
was unexpired at that moment.

What a worker knows while an operation runs is little: a moment at which it
looked at the clock, and an identifier that only it has drawn. A clock reading
is never ahead of the clock, so a lease that had expired then has expired now.

## Main definitions

* `RepositoryCall.Promises`: What each promises of the row it returns.
* `LeaseInv`: What every interleaving keeps.

## Theorems

* `change_follows`: What the transaction behind every operation returns.
* `lease_step`: Every answer keeps the invariant.
-/

namespace Apex.Persistence

open List Option Function
open Domain Services

open Apex.Action hiding ask

/-- The operations of the repository, with what their callers give them. -/
inductive RepositoryCall where
  | reserve (r : Reservation)
  | claim (id : String) (ignoreBackoff : Bool)
  | markStep (id token : String) (step : Step)
  | markProviderAttempted (id token : String)
  | markCommentAttempted (id token : String)
  | renew (id token : String)
  | complete (id token : String) (result : WorkItem)
  | fail (id token : String) (errorKind : ErrorKind) (error : String)
  | release (id token error : String) (retryDelay : Int)
  | deferResolution (id error : String) (retryDelay : Int)
  | retireTerminalBefore (cutoff : Instant) (limit : Nat)

namespace RepositoryCall

/-- The coroutine of a call. A retirement returns no row. -/
def action (env : WorkItemEnv) : RepositoryCall → MutationAction (Option WorkItemMutation)
  | reserve r => some <$> Mutations.reserve env r
  | claim id ignoreBackoff => some <$> Mutations.claim id ignoreBackoff
  | markStep id token step => some <$> Mutations.markStep id token step
  | markProviderAttempted id token => some <$> Mutations.markProviderAttempted id token
  | markCommentAttempted id token => some <$> Mutations.markCommentAttempted id token
  | renew id token => some <$> Mutations.renew id token
  | complete id token result => some <$> Mutations.complete env id token result
  | fail id token errorKind error => some <$> Mutations.fail env id token errorKind error
  | release id token error retryDelay => some <$> Mutations.release env id token error retryDelay
  | deferResolution id error retryDelay =>
    some <$> Mutations.deferResolution env id error retryDelay
  | retireTerminalBefore cutoff limit =>
    (fun _ => none) <$> Mutations.retireTerminalBefore cutoff limit

/-- What a call promises of the row it returns. A claim was made under an identifier
    its worker drew. -/
def Promises (drew : String → Prop) (row : WorkItemMutation) : RepositoryCall → Prop
  | reserve r => row.scope = r.scope ∧ row.payload = r.payload
  | claim id _ => row.id = id ∧
      (row.status.isTerminal = true ∨ ∃ token, drew token ∧ row.ownedBy token = true)
  | markStep id token step =>
    row.id = id ∧ row.ownedBy token = true ∧ row.stepStatus step = .completed
  | markProviderAttempted id token =>
    row.id = id ∧ row.ownedBy token = true ∧ row.providerAttemptedAt.isSome = true
  | markCommentAttempted id token =>
    row.id = id ∧ row.ownedBy token = true ∧ row.commentAttemptedAt.isSome = true
  | renew id token => row.id = id ∧ row.ownedBy token = true ∧ row.claimedAt.isSome = true
  | complete id _ result => row.id = id ∧ row.status = .completed ∧ row.result = some result
  | fail id _ errorKind _ => row.id = id ∧ row.status = .failed ∧ row.terminalError = some errorKind
  | release id _ _ _ => row.id = id ∧ row.status ≠ .running
  | deferResolution id _ _ => row.id = id ∧ row.status ≠ .running
  | retireTerminalBefore _ _ => False

end RepositoryCall

def repositorySystem (ι : Type) [DecidableEq ι] (env : WorkItemEnv) :
    System (MutationWorld ι RepositoryCall) ι MutationRequest MutationRequest.Answer
      (Except MutationError (Option WorkItemMutation)) :=
  mutationSystem env (fun call => (call.action env).run) (fun _ _ => True)

/-- The call a worker runs, a moment at which it looked at the clock, and the
    identifier it drew last. -/
structure Seat where
  call : Option RepositoryCall
  time : Instant
  name : Option String

/-- An operation is given no moment ahead of the clock, and a row is inserted under
    an identifier drawn for it. -/
def Seat.allowed (l : Seat) : MutationRequest → Prop
  | .change _ op => ∀ t, op.takeoverAt = some t → t ≤ l.time
  | .insert row => l.name = some row.id ∧ row.Consistent
  | _ => True

def Seat.possible : (r : MutationRequest) → r.Answer → Prop
  | .get id, a => ∀ row, a = .ok (some row) → row.id = id
  | .getByScope scope, a => ∀ row, a = .ok (some row) → row.scope = scope
  | .change id op, a => ∀ row, a = .found row ∨ a = .committed row → row.id = id ∧ op.Done row
  | .insert row, a => ∀ stored, a = .committed stored →
      stored.scope = row.scope ∧ stored.payload = row.payload
  | _, _ => True

def Seat.move (l : Seat) : (r : MutationRequest) → r.Answer → Seat
  | .now, t => { l with time := t }
  | .uuid4, name => { l with name := some name }
  | .insert _, _ => { l with name := none }
  | _, _ => l

/-- The discipline of the repository's operations. -/
def leaseDiscipline : Discipline MutationRequest MutationRequest.Answer Seat where
  allowed := Seat.allowed
  possible _ := Seat.possible
  move := Seat.move

def Seat.returned (l : Seat) (found : Option WorkItemMutation) : Prop :=
  ∀ call row, l.call = some call → found = some row →
    call.Promises (fun name => l.name = some name) row

variable {l : Seat} {id : String} {row : WorkItemMutation} {r : Reservation} {env : WorkItemEnv}

theorem get_follows :
    (Mutations.get id).run.follows leaseDiscipline
      (whenOk fun l' found => l' = l ∧ ∀ row, found = some row → row.id = id) l := by
  refine ask_bind_follows trivial fun a ha => settle_follows fun found hfound => ?_
  refine ⟨rfl, fun row hrow => ha row ?_⟩
  rw [hfound, hrow]

theorem getByScope_follows {scope : MutationScope} :
    (Mutations.getByScope scope).run.follows leaseDiscipline
      (whenOk fun l' found => l' = l ∧ ∀ row, found = some row → row.scope = scope) l := by
  refine ask_bind_follows trivial fun a ha => settle_follows fun found hfound => ?_
  refine ⟨rfl, fun row hrow => ha row ?_⟩
  rw [hfound, hrow]

/-- What the transaction behind every operation returns: a row of the given id for
    which the operation is done. -/
theorem change_follows {op : Operation} (hop : ∀ t, op.takeoverAt = some t → t ≤ l.time) :
    (Mutations.change id op).run.follows leaseDiscipline
      (whenOk fun l' row => l' = l ∧ row.id = id ∧ op.Done row) l := by
  refine ask_bind_follows hop fun a ha => ?_
  cases a with
  | gone => exact throw_follows
  | refused error => exact throw_follows
  | found row => exact pure_follows ⟨rfl, ha row (Or.inl rfl)⟩
  | committed row => exact pure_follows ⟨rfl, ha row (Or.inr rfl)⟩
  | raised error => exact throw_follows
  | broken error =>
    cases hrecovers : op.recovers with
    | false =>
      simp only [Bool.false_eq_true, if_false]
      exact throw_follows
    | true =>
      simp only [if_true]
      refine bind_follows get_follows fun l' found hfound => ?_
      rcases hfound with ⟨rfl, hid⟩
      rcases found with _ | row
      · exact throw_follows
      · dsimp only
        cases hack : op.acknowledged row with
        | false =>
          simp only [Bool.false_eq_true, if_false]
          exact throw_follows
        | true =>
          simp only [if_true]
          exact pure_follows ⟨rfl, hid row rfl, done_of_acknowledged hack⟩

theorem change_with_token {token : String} {op : Operation} (htoken : op.claimToken = some token) :
    (Mutations.change id op).run.follows leaseDiscipline
      (whenOk fun l' row => l' = l ∧ row.id = id ∧ op.Done row) l := by
  refine change_follows fun t ht => ?_
  cases op <;> simp only [Operation.claimToken, Operation.takeoverAt, reduceCtorEq] at htoken ht

theorem validateExisting_ok {payloadHash : String} {payload : MutationPayload}
    {projectId : Option String} {connectionVersion : Instant} {u : Unit}
    (h : validateExisting row payloadHash payload projectId connectionVersion = .ok u) :
    row.payload = payload := by
  unfold validateExisting at h
  simp only [bind_ok, raiseIf_ok, exists_const, Bool.or_eq_false_iff, bne_eq_false_iff_eq] at h
  exact h.1.2

theorem existing_follows (hscope : row.scope = r.scope) :
    (Mutations.existing r row).run.follows leaseDiscipline
      (whenOk fun l' row' => l' = l ∧ row'.scope = r.scope ∧ row'.payload = r.payload) l := by
  refine bind_follows (m := fun l' _ => l' = l ∧ row.payload = r.payload)
    (settle_follows fun u hu => ⟨rfl, validateExisting_ok hu⟩) fun l' _ hmid => ?_
  rcases hmid with ⟨rfl, hpayload⟩
  exact pure_follows ⟨rfl, hscope, hpayload⟩

theorem reservation_consistent (r : Reservation) (id : String) : (r.row id).Consistent :=
  ⟨⟨fun h => (nomatch h), fun h => (nomatch h)⟩, ⟨fun h => (nomatch h), fun h => (nomatch h)⟩⟩

theorem insertReserved_follows :
    (Mutations.insertReserved r).run.follows leaseDiscipline
      (whenOk fun l' row => l'.call = l.call ∧ row.scope = r.scope ∧ row.payload = r.payload) l := by
  refine ask_bind_follows trivial fun name _ => ?_
  refine ask_bind_follows ⟨rfl, reservation_consistent r name⟩ fun a ha => ?_
  cases a with
  | refused message => exact throw_follows
  | committed row => exact pure_follows ⟨rfl, ha row rfl⟩
  | raised error => exact throw_follows
  | broken error =>
    refine bind_follows getByScope_follows fun l' found hfound => ?_
    rcases hfound with ⟨rfl, hscope⟩
    rcases found with _ | row
    · exact throw_follows
    · refine mono_follows (existing_follows (hscope row rfl)) fun l' row' h => ?_
      rcases h with ⟨rfl, h⟩
      exact ⟨rfl, h⟩

theorem reserveValidated_follows :
    (Mutations.reserveValidated env r).run.follows leaseDiscipline
      (whenOk fun l' row => l'.call = l.call ∧ row.scope = r.scope ∧ row.payload = r.payload) l := by
  refine bind_follows getByScope_follows fun l' found hfound => ?_
  rcases hfound with ⟨rfl, hscope⟩
  rcases found with _ | row
  · refine ask_bind_follows trivial fun a _ => ?_
    refine bind_follows (m := fun l'' _ => l'' = l') (settle_follows fun _ _ => rfl)
      fun l'' found hl => ?_
    subst hl
    rcases found with _ | tombstone
    · exact insertReserved_follows
    · exact throw_follows
  · refine mono_follows (existing_follows (hscope row rfl)) fun l' row' h => ?_
    rcases h with ⟨rfl, h⟩
    exact ⟨rfl, h⟩

theorem reserve_follows :
    (Mutations.reserve env r).run.follows leaseDiscipline
      (whenOk fun l' row => l'.call = l.call ∧ row.scope = r.scope ∧ row.payload = r.payload) l := by
  refine bind_follows (m := fun l' _ => l' = l) (settle_follows fun _ _ => rfl) fun l' _ hl => ?_
  subst hl
  exact reserveValidated_follows

theorem retirementMatches_follows {expected : List (String × String × String)} :
    (Mutations.retirementMatches expected).run.follows leaseDiscipline
      (whenOk fun _ _ => True) l := by
  induction expected generalizing l with
  | nil => exact pure_follows trivial
  | cons head rest ih =>
    rcases head with ⟨scopeHash, payloadHash, id⟩
    refine ask_bind_follows trivial fun a _ => ?_
    refine bind_follows (m := fun _ _ => True) (settle_follows fun _ _ => trivial)
      fun l' tombstone _ => ?_
    refine bind_follows get_follows fun l'' live _ => ?_
    cases (tombstone.all (fun t => t.payloadHash != payloadHash) || live.isSome) with
    | true => exact pure_follows trivial
    | false => exact ih

theorem retire_follows {cutoff : Instant} {limit : Nat} :
    (Mutations.retireTerminalBefore cutoff limit).run.follows leaseDiscipline
      (whenOk fun _ _ => True) l := by
  refine ask_bind_follows trivial fun a _ => ?_
  cases a with
  | committed count => exact pure_follows trivial
  | raised error => exact throw_follows
  | broken expected error =>
    refine bind_follows retirementMatches_follows fun l' matched _ => ?_
    cases matched with
    | true => exact pure_follows trivial
    | false => exact throw_follows

theorem timed_follows {op : Instant → Operation}
    (hop : ∀ now t, (op now).takeoverAt = some t → t ≤ now) :
    (ask .now >>= fun now => Mutations.change id (op now)).run.follows leaseDiscipline
      (whenOk fun l' row => l'.call = l.call ∧ row.id = id ∧ ∃ now, (op now).Done row) l := by
  refine ask_bind_follows trivial fun now _ => ?_
  refine mono_follows (change_follows (hop now)) fun l' row h => ?_
  rcases h with ⟨rfl, hid, hdone⟩
  exact ⟨rfl, hid, now, hdone⟩

theorem claim_follows {ignoreBackoff : Bool} :
    (Mutations.claim id ignoreBackoff).run.follows leaseDiscipline
      (whenOk fun l' row => l'.call = l.call ∧ row.id = id ∧ (row.status.isTerminal = true ∨
        ∃ token, l'.name = some token ∧ row.ownedBy token = true)) l := by
  refine ask_bind_follows trivial fun token _ => ask_bind_follows trivial fun now _ => ?_
  refine mono_follows (change_follows fun t ht => ?_) fun l' row h => ?_
  · rw [← some.inj ht]
    exact Int.le_refl now
  · rcases h with ⟨rfl, hid, hdone⟩
    exact ⟨rfl, hid, hdone.imp (fun h => h) fun h => ⟨token, rfl, h⟩⟩

theorem complete_follows {token : String} {result : WorkItem} :
    (Mutations.complete env id token result).run.follows leaseDiscipline
      (whenOk fun l' row => l' = l ∧ row.id = id ∧ (Operation.complete token result).Done row)
      l := by
  refine bind_follows (m := fun l' _ => l' = l) (settle_follows fun _ _ => rfl) fun l' _ hl => ?_
  subst hl
  exact change_with_token rfl

theorem action_follows {call : RepositoryCall} (hcall : l.call = some call) :
    (call.action env).run.follows leaseDiscipline (whenOk Seat.returned) l := by
  -- A worker that has not moved on to another call returns for the one it runs.
  have hreturned : ∀ {l' : Seat} {row : WorkItemMutation}, l'.call = l.call →
      call.Promises (fun name => l'.name = some name) row → l'.returned (some row) := by
    intro l' row hl' hrow call' row' hcall' hsome
    rw [hl', hcall, some.injEq] at hcall'
    rw [some.injEq] at hsome
    rw [← hcall', ← hsome]
    exact hrow
  have hnever : ∀ {op : Operation} {now t : Instant},
      op.takeoverAt = none → op.takeoverAt = some t → t ≤ now :=
    fun hnone hsome => by rw [hnone] at hsome; nomatch hsome
  cases call with
  | reserve r => exact map_follows reserve_follows fun l' row h => hreturned h.1 h.2
  | claim id ignoreBackoff => exact map_follows claim_follows fun l' row h => hreturned h.1 h.2
  | markStep id token step =>
    refine map_follows (change_with_token rfl) fun l' row h => ?_
    exact hreturned (congrArg Seat.call h.1) h.2
  | markProviderAttempted id token =>
    refine map_follows (timed_follows fun _ _ => hnever rfl) fun l' row h => ?_
    rcases h with ⟨hl', hid, now, hdone⟩
    exact hreturned hl' ⟨hid, hdone⟩
  | markCommentAttempted id token =>
    refine map_follows (timed_follows fun _ _ => hnever rfl) fun l' row h => ?_
    rcases h with ⟨hl', hid, now, hdone⟩
    exact hreturned hl' ⟨hid, hdone⟩
  | renew id token =>
    refine map_follows (timed_follows fun _ _ => hnever rfl) fun l' row h => ?_
    rcases h with ⟨hl', hid, now, howned, hclaimed⟩
    exact hreturned hl' ⟨hid, howned, by rw [hclaimed]; rfl⟩
  | complete id token result =>
    refine map_follows complete_follows fun l' row h => ?_
    exact hreturned (congrArg Seat.call h.1) h.2
  | fail id token errorKind error =>
    refine map_follows (change_with_token rfl) fun l' row h => ?_
    exact hreturned (congrArg Seat.call h.1) h.2
  | release id token error retryDelay =>
    refine map_follows (timed_follows fun _ _ => hnever rfl) fun l' row h => ?_
    rcases h with ⟨hl', hid, now, hdone⟩
    exact hreturned hl' ⟨hid, hdone⟩
  | deferResolution id error retryDelay =>
    refine map_follows (timed_follows fun now t ht => ?_) fun l' row h => ?_
    · exact Int.le_of_eq (some.inj ht).symm
    · rcases h with ⟨hl', hid, now, hdone⟩
      exact hreturned hl' ⟨hid, hdone⟩
  | retireTerminalBefore cutoff limit =>
    refine map_follows retire_follows fun l' _ _ call' row' _ hsome => ?_
    nomatch hsome

/-- Who may change a row: a call that carries the token stored in the running row, or
    one that takes over a row without an unexpired lease. -/
def Licensed (op : Operation) (row : WorkItemMutation) (now : Instant) : Prop :=
  (∃ token, op.claimToken = some token ∧ row.status = .running ∧ row.claimToken = some token) ∨
    (op.takeoverAt.isSome = true ∧ row.leased now = false)

/-- What an answer may do to a stored row: nothing, an advance that is licensed, or
    the retirement of a settled row. -/
def Guarded {ι κ : Type}
    (e : System.Event (MutationWorld ι κ) ι MutationRequest MutationRequest.Answer) : Prop :=
  ∀ id row, e.before.store.rows id = some row → e.after.store.rows id = some row ∨
    (∃ op row', e.request = .change id op ∧ e.after.store.rows id = some row' ∧
      RowAdvances row row' ∧ row.status.isTerminal = false ∧
      Licensed op row e.before.store.clock) ∨
    (∃ cutoff limit, e.request = .retire cutoff limit ∧ row.status.isTerminal = true ∧
      row.updatedAt < cutoff ∧ e.after.store.rows id = none)

/-- A row was stored under an id at some moment. -/
def Seen {ι κ : Type}
    (events : List (System.Event (MutationWorld ι κ) ι MutationRequest MutationRequest.Answer))
    (s : MutationStore ι) (id : String) : Prop :=
  s.rows id ≠ none ∨ ∃ e ∈ events, e.before.store.rows id ≠ none

structure LeaseInv {ι : Type}
    (events : List (System.Event (MutationWorld ι RepositoryCall) ι MutationRequest
      MutationRequest.Answer))
    (w : MutationWorld ι RepositoryCall) (places : ι → Seat) : Prop where
  time : ∀ i, (places i).time ≤ w.store.clock
  call : ∀ i, (places i).call = (w.calls i).map Prod.fst
  drawn : ∀ i name, (places i).name = some name → w.store.issued name = some i
  unused : ∀ i name, (places i).name = some name → ¬ Seen events w.store name
  used : ∀ id, Seen events w.store id → w.store.issued id ≠ none
  rows : ∀ id row, w.store.rows id = some row →
    row.id = id ∧ row.Consistent ∧ row.updatedAt ≤ w.store.clock
  past : ∀ e ∈ events, ∀ id row, e.before.store.rows id = some row →
    w.store.rows id = none ∨ ∃ row', w.store.rows id = some row' ∧ RowAdvances row row'
  guarded : ∀ e ∈ events, Guarded e

theorem leased_later {t now : Instant} (hle : t ≤ now)
    (h : row.leased t = false) : row.leased now = false := by
  unfold WorkItemMutation.leased at h ⊢
  cases hrunning : row.status == .running with
  | false => rfl
  | true =>
    rw [hrunning, Bool.true_and] at h
    rw [Bool.true_and]
    cases hclaimed : row.claimedAt with
    | none => rfl
    | some c =>
      rw [hclaimed, any_some, decide_eq_false_iff_not] at h
      rw [any_some, decide_eq_false_iff_not]
      exact fun hc => h (Int.lt_of_le_of_lt (Int.sub_le_sub_right hle _) hc)

section

variable {ι : Type} [DecidableEq ι] {i : ι} {s s' : MutationStore ι} {r : MutationRequest}
  {a : r.Answer}

theorem lease_possible (hrows : ∀ id row, s.rows id = some row →
      row.id = id ∧ row.Consistent ∧ row.updatedAt ≤ s.clock)
    (h : s.answers env i r a s') : Seat.possible r a := by
  cases r
  case get id =>
    intro row hrow
    exact (hrows id row (h.1 _ hrow).symm).1
  case getByScope scope => exact fun row hrow => (h.2.1 row hrow).2
  case change id op =>
    rintro row (rfl | rfl)
    · exact ⟨(hrows id row h.1).1, done_of_keep h.2.1⟩
    · rcases h with ⟨before, written, hbefore, hdecide, rfl, _⟩
      rcases hrows id before hbefore with ⟨hid, _, hclock⟩
      exact ⟨(advances_write hdecide hclock).id.trans hid, done_of_write hdecide⟩
  case insert row =>
    rintro stored rfl
    rcases h with ⟨_, _, _, rfl, _⟩
    exact ⟨rfl, rfl⟩
  all_goals exact trivial

/-- What an answer does to the rows: each stored row is treated as it should be, and
    a row that is new was inserted. -/
theorem lease_rows (hrows : ∀ id row, s.rows id = some row →
      row.id = id ∧ row.Consistent ∧ row.updatedAt ≤ s.clock) (htime : l.time ≤ s.clock)
    (hallowed : l.allowed r) (h : s.answers env i r a s') :
    (∀ id row, s.rows id = some row → s'.rows id = some row ∨
      (∃ op row', r = .change id op ∧ s'.rows id = some row' ∧ RowAdvances row row' ∧
        row.status.isTerminal = false ∧ Licensed op row s.clock) ∨
      (∃ cutoff limit, r = .retire cutoff limit ∧ row.status.isTerminal = true ∧
        row.updatedAt < cutoff ∧ s'.rows id = none)) ∧
    (∀ id row', s'.rows id = some row' → row'.id = id ∧ row'.Consistent ∧ row'.updatedAt ≤ s.clock ∧
      (s.rows id ≠ none ∨ (l.name = some id ∧ ∃ row, r = .insert row))) := by
  rcases MutationStore.answers_cases h with rfl | ⟨_, name, _, rfl⟩ |
      ⟨row, stored, rfl, _, hfree, _, rfl, rfl⟩ |
      ⟨id, op, stored, rfl, before, written, hbefore, hdecide, rfl, rfl⟩ |
      ⟨cutoff, limit, selected, rfl, ⟨_, _, hselected⟩, hret⟩
  · refine ⟨fun id row hrow => Or.inl hrow, fun id row hrow => ?_⟩
    rcases hrows id row hrow with ⟨hid, hconsistent, hclock⟩
    exact ⟨hid, hconsistent, hclock, Or.inl (by rw [hrow]; exact some_ne_none row)⟩
  · refine ⟨fun id row hrow => Or.inl hrow, fun id row hrow => ?_⟩
    rcases hrows id row hrow with ⟨hid, hconsistent, hclock⟩
    exact ⟨hid, hconsistent, hclock,
      Or.inl (by rw [show s.rows id = some row from hrow]; exact some_ne_none row)⟩
  · refine ⟨fun id old hold => Or.inl ?_, fun id row' hrow' => ?_⟩
    · refine (update_of_ne (fun heq => ?_) _ _).trans hold
      rw [heq, hfree] at hold
      nomatch hold
    · change Function.update s.rows row.id _ id = some row' at hrow'
      by_cases heq : id = row.id
      · subst heq
        rw [update_self, some.injEq] at hrow'
        subst hrow'
        exact ⟨rfl, ⟨hallowed.2.token, hallowed.2.lease⟩, Int.le_refl _,
          Or.inr ⟨hallowed.1, row, rfl⟩⟩
      · rw [update_of_ne heq] at hrow'
        rcases hrows id row' hrow' with ⟨hid, hconsistent, hclock⟩
        exact ⟨hid, hconsistent, hclock, Or.inl (by rw [hrow']; exact some_ne_none row')⟩
  · rcases hrows id before hbefore with ⟨hid, hconsistent, hclock⟩
    have hadvances := advances_write hdecide hclock
    refine ⟨fun other old hold => ?_, fun other row' hrow' => ?_⟩
    · by_cases heq : other = id
      · subst heq
        rw [hbefore, some.injEq] at hold
        subst hold
        rcases Operation.write_cases hdecide with ⟨_, hopen, hlicence⟩
        refine Or.inr (Or.inl ⟨op, _, rfl, update_self _ _ _, hadvances, hopen, ?_⟩)
        rcases hlicence with ⟨token, htoken, howned, _⟩ | ⟨t, htake, hleased⟩
        · exact Or.inl ⟨token, htoken, Operation.ownedBy_iff.mp howned⟩
        · refine Or.inr ⟨by rw [htake]; rfl, leased_later (t := t) ?_ hleased⟩
          exact Int.le_trans (hallowed t htake) htime
      · exact Or.inl ((update_of_ne heq _ _).trans hold)
    · change Function.update s.rows id _ other = some row' at hrow'
      by_cases heq : other = id
      · subst heq
        rw [update_self, some.injEq] at hrow'
        subst hrow'
        refine ⟨hadvances.id.trans hid, consistent_write hdecide hclock hconsistent, ?_,
          Or.inl (by rw [hbefore]; exact some_ne_none before)⟩
        rcases flushed_eq (op.mutate_keeps before).2.2.2.2.2.2.2 hclock with ⟨t, ht, _, hle, _⟩
        rw [(Operation.write_cases hdecide).1, ht]
        exact hle
      · rw [update_of_ne heq] at hrow'
        rcases hrows other row' hrow' with ⟨hid', hconsistent', hclock'⟩
        exact ⟨hid', hconsistent', hclock', Or.inl (by rw [hrow']; exact some_ne_none row')⟩
  · rcases MutationStore.retireRows_ok hret with ⟨hkept, hgone, _, _, _, _⟩
    refine ⟨fun id row hrow => ?_, fun id row' hrow' => ?_⟩
    · by_cases hmem : id ∈ selected.map (·.id)
      · rcases List.mem_map.mp hmem with ⟨old, hold, rfl⟩
        rcases hselected old hold with ⟨hstored, hterminal, hcutoff⟩
        rw [hrow, some.injEq] at hstored
        rw [hstored]
        exact Or.inr (Or.inr ⟨cutoff, limit, rfl, hterminal, hcutoff, hgone old hold⟩)
      · exact Or.inl ((hkept id hmem).trans hrow)
    · by_cases hmem : id ∈ selected.map (·.id)
      · rcases List.mem_map.mp hmem with ⟨old, hold, rfl⟩
        rw [hgone old hold] at hrow'
        nomatch hrow'
      · rw [hkept id hmem] at hrow'
        rcases hrows id row' hrow' with ⟨hid, hconsistent, hclock⟩
        exact ⟨hid, hconsistent, hclock, Or.inl (by rw [hrow']; exact some_ne_none row')⟩

end

theorem seen_append {ι κ : Type}
    {events : List (System.Event (MutationWorld ι κ) ι MutationRequest MutationRequest.Answer)}
    {e : System.Event (MutationWorld ι κ) ι MutationRequest MutationRequest.Answer}
    (h : Seen (events ++ [e]) e.after.store id) :
    Seen events e.before.store id ∨ e.after.store.rows id ≠ none := by
  rcases h with hafter | ⟨e', he', hrow⟩
  · exact Or.inr hafter
  · rcases mem_append.mp he' with hold | hnew
    · exact Or.inl (Or.inr ⟨e', hold, hrow⟩)
    · rw [mem_singleton.mp hnew] at hrow
      exact Or.inl (Or.inl hrow)

theorem lease_step {ι : Type} [DecidableEq ι]
    {events : List (System.Event (MutationWorld ι RepositoryCall) ι MutationRequest
      MutationRequest.Answer)} {w w' : MutationWorld ι RepositoryCall} {places : ι → Seat} {i : ι}
    {r : MutationRequest} {a : r.Answer} (hinv : LeaseInv events w places)
    (hallowed : (places i).allowed r) (hresp : (repositorySystem ι env).respond i w r a w') :
    Seat.possible r a ∧
      LeaseInv (events ++ [⟨i, w, r, a, w'⟩]) w'
        (Function.update places i ((places i).move r a)) := by
  rcases hresp with ⟨call, since, s, hcall, _, hanswers, ⟨hrows', _, hissued', hclock'⟩, hcalls⟩
  refine ⟨lease_possible hinv.rows hanswers, ?_⟩
  rcases lease_rows hinv.rows (hinv.time i) hallowed hanswers with ⟨hstored, hnew⟩
  rcases MutationStore.answers_keep hanswers with ⟨hclock, hissued, _⟩
  rw [← hrows'] at hstored hnew
  rw [hclock] at hclock'
  rw [← hissued'] at hissued
  -- A row is there afterwards if it was before, or if this worker inserted it.
  have hseen : ∀ id, Seen (events ++ [⟨i, w, r, a, w'⟩]) w'.store id →
      Seen events w.store id ∨ ((places i).name = some id ∧ ∃ row, r = .insert row) := by
    intro id hid
    rcases seen_append (e := ⟨i, w, r, a, w'⟩) hid with hbefore | hafter
    · exact Or.inl hbefore
    · rcases ne_none_iff_exists'.mp hafter with ⟨row', hrow'⟩
      rcases (hnew id row' hrow').2.2.2 with hwas | hins
      · exact Or.inl (Or.inl hwas)
      · exact Or.inr hins
  exact {
    time := by
      refine forall_update_iff places (fun _ l => l.time ≤ w'.store.clock) |>.mpr
        ⟨?_, fun j _ => Int.le_trans (hinv.time j) hclock'⟩
      cases r
      case now =>
        rw [show ((places i).move .now a).time = a from rfl, hanswers.1]
        exact hclock'
      all_goals exact Int.le_trans (hinv.time i) hclock'
    call := by
      rw [hcalls]
      refine forall_update_iff places (fun j l => l.call = (w.calls j).map Prod.fst) |>.mpr
        ⟨?_, fun j _ => hinv.call j⟩
      rw [← hinv.call i]
      cases r <;> rfl
    drawn := by
      refine forall_update_iff places
        (fun j l => ∀ name, l.name = some name → w'.store.issued name = some j) |>.mpr
        ⟨?_, fun j _ name hname => hissued name j (hinv.drawn j name hname)⟩
      intro name hname
      cases r
      case uuid4 =>
        rw [← some.inj hname, hissued', hanswers.2]
        exact update_self _ _ _
      case insert row => nomatch hname
      all_goals exact hissued name i (hinv.drawn i name hname)
    unused := by
      refine forall_update_iff places
        (fun j l => ∀ name, l.name = some name →
          ¬ Seen (events ++ [⟨i, w, r, a, w'⟩]) w'.store name) |>.mpr ⟨?_, ?_⟩
      · intro name hname hid
        cases r
        case uuid4 =>
          rw [← some.inj hname] at hid
          rcases hseen _ hid with hbefore | ⟨_, row, hrow⟩
          · exact hinv.used _ hbefore hanswers.1
          · nomatch hrow
        case insert row => nomatch hname
        all_goals
          rcases hseen name hid with hbefore | ⟨_, row, hrow⟩
          · exact hinv.unused i name hname hbefore
          · nomatch hrow
      · intro j hj name hname hid
        rcases hseen name hid with hbefore | ⟨hmine, _⟩
        · exact hinv.unused j name hname hbefore
        · -- Nobody else has drawn this identifier.
          have howner := hinv.drawn i name hmine
          rw [hinv.drawn j name hname, some.injEq] at howner
          exact hj howner
    used := by
      intro id hid
      have hdrawn : w.store.issued id ≠ none := by
        rcases hseen id hid with hbefore | ⟨hmine, _⟩
        · exact hinv.used id hbefore
        · rw [hinv.drawn i id hmine]
          exact some_ne_none i
      rcases ne_none_iff_exists'.mp hdrawn with ⟨owner, howner⟩
      rw [hissued id owner howner]
      exact some_ne_none owner
    rows := by
      intro id row hrow
      rcases hnew id row hrow with ⟨hid, hconsistent, hclock, _⟩
      exact ⟨hid, hconsistent, Int.le_trans hclock hclock'⟩
    past := by
      intro e he id row hrow
      rcases mem_append.mp he with hold | hlast
      · rcases hinv.past e hold id row hrow with hgone | ⟨row', hrow', hadvances⟩
        · -- What was retired does not come back, since its id is spent.
          refine Or.inl (eq_none_iff_forall_ne_some.mpr fun row' hrow' => ?_)
          rcases (hnew id row' hrow').2.2.2 with hwas | ⟨hmine, _⟩
          · exact hwas hgone
          · exact hinv.unused i id hmine (Or.inr ⟨e, hold, by rw [hrow]; exact some_ne_none row⟩)
        · rcases hstored id row' hrow' with hsame | ⟨_, row'', _, hrow'', hnext, _⟩ |
              ⟨_, _, _, _, _, hgone⟩
          · exact Or.inr ⟨row', hsame, hadvances⟩
          · exact Or.inr ⟨row'', hrow'', hadvances.trans hnext⟩
          · exact Or.inl hgone
      · rw [mem_singleton.mp hlast] at hrow
        rcases hstored id row hrow with hsame | ⟨_, row'', _, hrow'', hnext, _⟩ |
            ⟨_, _, _, _, _, hgone⟩
        · exact Or.inr ⟨row, hsame, RowAdvances.refl row⟩
        · exact Or.inr ⟨row'', hrow'', hnext⟩
        · exact Or.inl hgone
    guarded := by
      intro e he
      rcases mem_append.mp he with hold | hlast
      · exact hinv.guarded e hold
      · rw [mem_singleton.mp hlast]
        exact hstored }

theorem promises_mono {P Q : String → Prop} {call : RepositoryCall} (h : call.Promises P row)
    (hPQ : ∀ name, P name → Q name) : call.Promises Q row := by
  cases call
  case claim =>
    exact ⟨h.1, h.2.imp (fun h => h) fun ⟨token, hdrew, howned⟩ => ⟨token, hPQ token hdrew, howned⟩⟩
  all_goals exact h

theorem lease_start {ι : Type} [DecidableEq ι]
    {events : List (System.Event (MutationWorld ι RepositoryCall) ι MutationRequest
      MutationRequest.Answer)} {w w' : MutationWorld ι RepositoryCall} {places : ι → Seat} {i : ι}
    {p : Program MutationRequest MutationRequest.Answer
      (Except MutationError (Option WorkItemMutation))} (hinv : LeaseInv events w places)
    (hstart : (repositorySystem ι env).start i w p w') :
    ∃ l, p.follows leaseDiscipline (whenOk Seat.returned) l ∧
      LeaseInv events w' (Function.update places i l) := by
  rcases hstart with ⟨call, rfl, ⟨hrows, _, hissued, hclock⟩, hcalls⟩
  refine ⟨⟨some call, w.store.clock, none⟩, action_follows rfl, ?_⟩
  have hseen : ∀ id, Seen events w'.store id ↔ Seen events w.store id := by
    intro id
    unfold Seen
    rw [hrows]
  exact {
    time := forall_update_iff places (fun _ l => l.time ≤ w'.store.clock) |>.mpr
      ⟨hclock, fun j _ => Int.le_trans (hinv.time j) hclock⟩
    call := by
      rw [hcalls]
      refine forall_update_iff places (fun j l => l.call =
        ((Function.update w.calls i (some (call, w.store.clock))) j).map Prod.fst) |>.mpr
        ⟨?_, fun j hj => ?_⟩
      · rw [update_self]
        rfl
      · rw [update_of_ne hj]
        exact hinv.call j
    drawn := by
      rw [hissued]
      exact forall_update_iff places
        (fun j l => ∀ name, l.name = some name → w.store.issued name = some j) |>.mpr
        ⟨fun _ hname => (nomatch hname), fun j _ => hinv.drawn j⟩
    unused := forall_update_iff places
      (fun _ l => ∀ name, l.name = some name → ¬ Seen events w'.store name) |>.mpr
      ⟨fun _ hname => (nomatch hname), fun j _ name hname hid =>
        hinv.unused j name hname ((hseen name).mp hid)⟩
    used := fun id hid => by
      rw [hissued]
      exact hinv.used id ((hseen id).mp hid)
    rows := fun id row hrow => by
      rw [hrows] at hrow
      rcases hinv.rows id row hrow with ⟨hid, hconsistent, hupdated⟩
      exact ⟨hid, hconsistent, Int.le_trans hupdated hclock⟩
    past := by
      rw [hrows]
      exact hinv.past
    guarded := hinv.guarded }

/-- Ownership and finality in every interleaving of repository calls over a store
    that begins empty: every change of a row is licensed and advances it, a row once
    stored has advanced or is gone for good, a token is stored exactly while its row
    runs, and a call that returned a row returned what it promises. -/
theorem mutation_leases {ι : Type} [DecidableEq ι] {env : WorkItemEnv}
    {connections : String → Option Connection} {clock : Instant}
    {events : List (System.Event (MutationWorld ι RepositoryCall) ι MutationRequest
      MutationRequest.Answer)}
    {team : Team (MutationWorld ι RepositoryCall) ι MutationRequest MutationRequest.Answer
      (Except MutationError (Option WorkItemMutation))}
    (hrun : (repositorySystem ι env).Run (.empty connections clock) events team) :
    (∀ e ∈ events, Guarded e) ∧
      (∀ e ∈ events, ∀ id row, e.before.store.rows id = some row →
        team.state.store.rows id = none ∨
          ∃ row', team.state.store.rows id = some row' ∧ RowAdvances row row') ∧
      (∀ id row, team.state.store.rows id = some row → row.id = id ∧ row.Consistent) ∧
      (∀ i call since row, team.state.calls i = some (call, since) →
        team.running i = some (.done (.ok (some row))) →
        call.Promises (fun name => team.state.store.issued name = some i) row) := by
  have hempty : LeaseInv [] (.empty connections clock : MutationWorld ι RepositoryCall)
      (fun _ => ⟨none, clock, none⟩) := {
    time := fun _ => Int.le_refl clock
    call := fun _ => rfl
    drawn := fun _ _ hname => nomatch hname
    unused := fun _ _ hname => nomatch hname
    used := fun _ hid => hid.elim (fun h => absurd rfl h) fun ⟨_, he, _⟩ => nomatch he
    rows := fun _ _ hrow => nomatch hrow
    past := fun _ he => nomatch he
    guarded := fun _ he => nomatch he }
  rcases System.Run.invariant hempty lease_start lease_step hrun with ⟨places, hinv, hfollows⟩
  refine ⟨hinv.guarded, hinv.past, fun id row hrow => ?_, fun i call since row hcall hdone => ?_⟩
  · exact ⟨(hinv.rows id row hrow).1, (hinv.rows id row hrow).2.1⟩
  · have hplace : (places i).call = some call := by
      rw [hinv.call i, hcall]
      rfl
    exact promises_mono (hfollows i _ hdone (some row) rfl call row hplace rfl) (hinv.drawn i)

def sampleDraft : WorkItemDraft := ⟨"t", "story", "", ∅⟩

def sampleCreation : Reservation where
  scope := ⟨mutationTenantScope sampleWorkItemEnv none, "u", "c", "create", "k"⟩
  payloadHash := mutationPayloadHash sampleWorkItemEnv (.create sampleDraft)
  payload := .create sampleDraft
  targetKey := none
  projectId := none
  connectionVersion := 0
  fieldsStatus := .skipped
  commentStatus := .skipped

theorem sampleCreation_valid :
    validateMutationReservation sampleWorkItemEnv sampleCreation = .ok () := by
  decide +kernel

/-- A registry with one connection of the work tracker. -/
def sampleConnections (id : String) : Option Connection :=
  if id = "c" then some ⟨"work_tracking", "stub", none, true, 0⟩ else none

theorem reserve_run (h : validateMutationReservation env r = .ok ()) :
    ((RepositoryCall.reserve r).action env).run
      = (some <$> Mutations.reserveValidated env r : MutationAction _).run := by
  have hreserve : Mutations.reserve env r
      = settle (.ok ()) >>= fun _ => Mutations.reserveValidated env r := by
    unfold Mutations.reserve
    rw [h]
  change (some <$> Mutations.reserve env r : MutationAction _).run = _
  rw [hreserve]
  rfl

def sampleStore : MutationStore Nat where
  rows _ := none
  tombstones _ := none
  connections := sampleConnections
  clock := 0
  issued _ := none

theorem sampleRun :
    ∃ (events : List (System.Event (MutationWorld Nat RepositoryCall) Nat MutationRequest
        MutationRequest.Answer))
      (team : Team (MutationWorld Nat RepositoryCall) Nat MutationRequest MutationRequest.Answer
        (Except MutationError (Option WorkItemMutation))) (row : WorkItemMutation),
      (repositorySystem Nat sampleWorkItemEnv).Run (.empty sampleConnections 0) events team ∧
        events.length = 7 ∧ team.state.store.rows "m" = some row ∧ row.ownedBy "n" = true := by
  let row := sampleCreation.row "m"
  let op := Operation.claim "n" 0 true
  let claimed := row.flushed (op.mutate row) 0
  have hidle : (repositorySystem Nat sampleWorkItemEnv).Run (.empty sampleConnections 0) []
      ⟨⟨sampleStore, Function.update (fun _ => none) 0 none⟩,
        Function.update (fun _ => none) 0 none⟩ := by
    rw [Function.update_eq_self, Function.update_eq_self]
    exact System.Run.idle
  obtain ⟨e1, _, h1⟩ := mutationSystem_asked (r := .getByScope sampleCreation.scope)
    (mutationSystem_called (.reserve sampleCreation) hidle)
    ((reserve_run sampleCreation_valid).trans rfl) (.ok none) trivial
    ⟨fun _ _ _ hrow => (nomatch hrow), fun _ hrow => (nomatch hrow), rfl⟩
  obtain ⟨e2, _, h2⟩ := mutationSystem_asked (r := .getTombstone _) h1 rfl (.ok none) trivial
    ⟨fun _ hfound => (Except.ok.inj hfound).symm, rfl⟩
  obtain ⟨e3, _, h3⟩ := mutationSystem_asked (r := .uuid4) h2 rfl "m" trivial ⟨rfl, rfl⟩
  obtain ⟨e4, _, h4⟩ := mutationSystem_asked (r := .insert row) h3 rfl (.committed row) trivial
    ⟨by decide +kernel, rfl, fun _ _ hrow => (nomatch hrow), rfl, rfl⟩
  obtain ⟨e5, _, h5⟩ := mutationSystem_asked (r := .uuid4)
    (mutationSystem_called (.claim "m" true) h4) rfl "n" trivial ⟨by decide +kernel, rfl⟩
  obtain ⟨e6, _, h6⟩ := mutationSystem_asked (r := .now) h5 rfl (0 : Instant) trivial ⟨rfl, rfl⟩
  obtain ⟨e7, _, h7⟩ := mutationSystem_asked (r := .change "m" op) h6 rfl (.committed claimed) trivial
    ⟨row, op.mutate row, by decide +kernel, rfl, rfl, rfl⟩
  exact ⟨_, _, claimed, h7, rfl, by decide +kernel, by decide +kernel⟩

/-- The row of that run is running under a token and a lease. -/
theorem mutation_leases_claimed :
    ∃ (events : List (System.Event (MutationWorld Nat RepositoryCall) Nat MutationRequest
        MutationRequest.Answer)) (row : WorkItemMutation),
      events.length = 7 ∧ row.ownedBy "n" = true ∧ (∀ e ∈ events, Guarded e) ∧ row.id = "m" ∧
        row.Consistent := by
  rcases sampleRun with ⟨events, team, row, hrun, hlength, hrow, howned⟩
  rcases mutation_leases hrun with ⟨hguarded, _, hrows, _⟩
  exact ⟨events, row, hlength, howned, hguarded, hrows "m" row hrow⟩

end Apex.Persistence
