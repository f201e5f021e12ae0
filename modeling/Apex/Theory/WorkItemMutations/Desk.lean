import Apex.Services.WorkItemMutations
import Apex.Theory.WorkItemMutations.Transitions

/-!
# What A Worker Of The Mutation Service Knows

The calls of the mutation service, walked through once. What they learn on the
way is kept on a desk: the rows found or inserted for the request, whether the
scope was seen free, the identifier drawn last, and what was claimed. A claim
goes through stages. It is fresh until the worker asks to record an attempt;
then either the worker is told that the attempt is on record and may make it
once, or it was told nothing.

The point of the discipline is in what it allows. A call of the tracker is made
only under a claim and only with what the claimed row holds. A creation or a
comment is sent only by a worker that was just told that its attempt is on
record, and it asks for that only if the row it claimed has no attempt.

## Main definitions

* `Desk`, `Claim`, `Stage`: What a worker knows.
* `Desk.allowed`, `Desk.possible`, `Desk.move`: The discipline.

## Theorems

* `reserve_follows`, `claim_follows`: What the repository returns.
* `executeCreate_follows`, `executeEnrich_follows`: The executions.
* `program_follows`: Every call follows the discipline.
-/

namespace Apex.Services

open List Option
open Domain Persistence

open Apex.Action hiding ask

/-- The two calls of the tracker that must not be repeated. -/
inductive Attempt where
  | create
  | comment
  deriving DecidableEq

variable (env : WorkItemEnv) (l : Desk) (row : WorkItemMutation)

def Attempt.recorded : Attempt → Option Instant
  | create => row.providerAttemptedAt
  | comment => row.commentAttemptedAt

def marks : Operation → Option Attempt
  | .markProviderAttempted _ _ => some .create
  | .markCommentAttempted _ _ => some .comment
  | _ => none

/-- The attempt a request makes, with the marker it carries. -/
def posts : MutationRequest → Option (Attempt × String)
  | .createItem _ marker => some (.create, marker)
  | .addItemComment _ _ marker => some (.comment, marker)
  | _ => none

inductive Stage where
  | fresh
  | marking (k : Attempt)
  | permitted (k : Attempt)
  | spent
  deriving DecidableEq

/-- A claim: its token, the id it was asked for, and the row as it was seen last, if
    the claim is known to have been granted. -/
structure Claim where
  token : String
  id : String
  lease : Option (WorkItemMutation × Stage)

/-- What a worker knows: its call and since when it runs, a moment at which it looked
    at the clock, the identifier it drew last, a scope that was free (and whether it
    had no tombstone after that), the rows found for the request, and its claim. -/
structure Desk where
  call : Option (MutationCall × Instant)
  time : Instant
  name : Option String
  vacancy : Option (MutationScope × Bool)
  bound : List WorkItemMutation
  claim : Option Claim

def Claim.read (c : Claim) (row : WorkItemMutation) : Claim :=
  if row.id = c.id ∧ row.ownedBy c.token = true then
    match c.lease with
    | none => { c with lease := some (row, .fresh) }
    | some (_, .marking k) =>
      { c with lease := some (row, if (k.recorded row).isSome then .permitted k else .marking k) }
    | some (_, stage) => { c with lease := some (row, stage) }
  else c

/-- What a transaction of the claim that came back with a row tells. -/
def Claim.returned (c : Claim) (id : String) (op : Operation) (row : WorkItemMutation) : Claim :=
  if c.id = id ∧ row.ownedBy c.token = true then
    { c with lease := c.lease.map fun held => (row, match marks op with
      | some k => .permitted k
      | none => held.2) }
  else c

/-- What a transaction of the claim that did not come back with a row tells. -/
def Claim.unanswered (c : Claim) (op : Operation) : Claim :=
  match marks op with
  | some k => { c with lease := c.lease.map fun held => (held.1, .marking k) }
  | none => c

def Desk.afterChange (id : String) : Operation → ChangeAnswer → Desk
  | .claim token _ _, .committed row =>
    { l with name := none, claim := some ⟨token, id, some (row, .fresh)⟩ }
  | .claim token _ _, _ => { l with name := none, claim := some ⟨token, id, none⟩ }
  | op, .committed row => { l with claim := l.claim.map (·.returned id op row) }
  | op, .found row => { l with claim := l.claim.map (·.returned id op row) }
  | op, _ => { l with claim := l.claim.map (·.unanswered op) }

def Desk.move : (r : MutationRequest) → r.Answer → Desk
  | .now, t => { l with time := t }
  | .uuid4, name => { l with name := some name, claim := none }
  | .getByScope _, .ok (some row) => { l with bound := row :: l.bound }
  | .getByScope scope, .ok none => { l with vacancy := some (scope, false) }
  | .getTombstone scopeHash, .ok none =>
    { l with vacancy := l.vacancy.map fun v =>
        (v.1, v.2 || mutationScopeHash env v.1 == scopeHash) }
  | .insert _, .committed row => { l with bound := row :: l.bound, name := none, vacancy := none }
  | .insert _, _ => { l with name := none, vacancy := none }
  | .get _, .ok (some row) => { l with claim := l.claim.map (·.read row) }
  | .change id op, a => l.afterChange id op a
  | .createItem _ _, _ =>
    { l with claim := l.claim.map fun c =>
        { c with lease := c.lease.map fun held => (held.1, .spent) } }
  | .addItemComment _ _ _, _ =>
    { l with claim := l.claim.map fun c =>
        { c with lease := c.lease.map fun held => (held.1, .spent) } }
  | _, _ => l

/-- A worker holds a row under a token, and got to a stage. -/
def Desk.Holds (token : String) (stage : Stage) : Prop :=
  l.claim = some ⟨token, row.id, some (row, stage)⟩

def MutationCall.Serves : MutationCall → Prop
  | .mutate _ caller payload =>
    ∃ r, caller.reservation env payload = .ok r ∧ row.scope = r.scope ∧ row.payload = payload
  | .reconcile => True
  | _ => False

/-- A worker runs a call that may act on a row. -/
def Desk.Serves (env : WorkItemEnv) (l : Desk) (row : WorkItemMutation) : Prop :=
  ∃ call since, l.call = some (call, since) ∧ call.Serves env row

/-- A call of the tracker carries what the row holds. -/
def IsFor : MutationRequest → Prop
  | .findItemByIdempotencyMarker marker => marker = row.providerMarker
  | .validateCreateItem draft marker => row.payload = .create draft ∧ marker = row.providerMarker
  | .createItem draft marker => row.payload = .create draft ∧ marker = row.providerMarker
  | .validateUpdateItemFields fields =>
    ∃ key enrichment, row.payload = .enrich key enrichment ∧ fields = enrichment.fields
  | .updateItemFields target fields => row.targetKey = some target ∧
      ∃ key enrichment, row.payload = .enrich key enrichment ∧ fields = enrichment.fields
  | .hasCommentIdempotencyMarker target marker =>
    row.targetKey = some target ∧ marker = row.providerMarker
  | .addItemComment target comment marker =>
    row.targetKey = some target ∧ marker = row.providerMarker ∧
      ∃ key enrichment, row.payload = .enrich key enrichment ∧ enrichment.comment = some comment
  | .getItem target => row.targetKey = some target
  | _ => False

def Desk.allowed (r : MutationRequest) : Prop :=
  match r with
  | .insert row => l.name = some row.id ∧ l.vacancy = some (row.scope, true) ∧
      row.Consistent ∧ row.claimToken = none ∧ row.providerMarker = providerMarkerOf row.id ∧
      ∀ k : Attempt, k.recorded row = none
  | .change id op => (∀ t, op.takeoverAt = some t → t ≤ l.time) ∧
      (∀ token now ignoreBackoff, op = .claim token now ignoreBackoff →
        l.name = some token ∧ l.claim = none) ∧
      (∀ k, marks op = some k → ∃ row token, l.Holds row token .fresh ∧ row.id = id ∧
        op.claimToken = some token ∧ k.recorded row = none)
  | .retire cutoff _ => cutoff + terminalReplayRetention ≤ l.time
  | r => r.isProviderCall = true → ∃ row token stage, l.Holds row token stage ∧
      IsFor row r ∧ l.Serves env row ∧ ∀ k marker, posts r = some (k, marker) → stage = .permitted k

/-- What is known of a row that was seen before. -/
def Desk.Continues : Prop :=
  (∀ old ∈ l.bound, old.id = row.id → RowAdvances old row) ∧
    ∀ old token stage, l.Holds old token stage → old.id = row.id → RowAdvances old row

def Desk.possible : (r : MutationRequest) → r.Answer → Prop
  | .get id, a => ∀ row, a = .ok (some row) → row.id = id ∧ l.Continues row
  | .getByScope scope, a => ∀ row, a = .ok (some row) → row.scope = scope
  | .insert row, a => ∀ stored, a = .committed stored →
      stored.scope = row.scope ∧ stored.payload = row.payload
  | .change id op, a => ∀ row,
      (a = .found row → row.id = id ∧ l.Continues row ∧ op.Done row ∧
        (op.takeoverAt.isSome = true → row.status.isTerminal = true)) ∧
      (a = .committed row → row.id = id ∧ l.Continues row ∧ op.Done row ∧
        (op.takeoverAt.isSome = true → row.status.isTerminal = false))
  | _, _ => True

def deskDiscipline :
    Discipline MutationRequest MutationRequest.Answer Desk where
  allowed := Desk.allowed env
  possible := Desk.possible
  move := Desk.move env

/-- The call stays, and so do the rows found for it. -/
def Desk.Extends (l' : Desk) : Prop :=
  l'.call = l.call ∧ ∀ row ∈ l.bound, row ∈ l'.bound

theorem Desk.Extends.refl : l.Extends l := ⟨rfl, fun _ h => h⟩

theorem Desk.Extends.trans {l₁ l₂ l₃ : Desk} (h12 : l₁.Extends l₂) (h23 : l₂.Extends l₃) :
    l₁.Extends l₃ := ⟨h23.1.trans h12.1, fun row h => h23.2 row (h12.2 row h)⟩

theorem afterChange_extends (id : String) (op : Operation) (a : ChangeAnswer) :
    l.Extends (l.afterChange id op a) := by
  cases op <;> cases a <;> exact ⟨rfl, fun _ h => h⟩

theorem move_extends (r : MutationRequest) (a : r.Answer) :
    l.Extends (l.move env r a) := by
  cases r
  case getByScope scope =>
    rcases a with e | _ | row
    · exact Desk.Extends.refl l
    · exact ⟨rfl, fun _ h => h⟩
    · exact ⟨rfl, fun _ h => mem_cons_of_mem row h⟩
  case getTombstone scopeHash => rcases a with e | _ | tombstone <;> exact ⟨rfl, fun _ h => h⟩
  case insert row =>
    cases a
    case committed stored => exact ⟨rfl, fun _ h => mem_cons_of_mem stored h⟩
    all_goals exact ⟨rfl, fun _ h => h⟩
  case get id => rcases a with e | _ | row <;> exact ⟨rfl, fun _ h => h⟩
  case change id op => exact afterChange_extends l id op a
  all_goals exact ⟨rfl, fun _ h => h⟩

variable {row : WorkItemMutation}

theorem Desk.Serves.mono {env : WorkItemEnv} {l l' : Desk} (h : l.Serves env row)
    (hext : l.Extends l') : l'.Serves env row := by
  rcases h with ⟨call, since, hcall, hserves⟩
  exact ⟨call, since, hext.1.trans hcall, hserves⟩

theorem serves_advances {env : WorkItemEnv} {call : MutationCall} {row' : WorkItemMutation}
    (h : call.Serves env row) (hadvances : RowAdvances row row') : call.Serves env row' := by
  cases call with
  | mutate adapter caller payload =>
    rcases h with ⟨r, hr, hscope, hpayload⟩
    exact ⟨r, hr, hadvances.scope.trans hscope, hadvances.payload.trans hpayload⟩
  | reconcile => trivial
  | replay => exact h.elim
  | heartbeat => exact h.elim

theorem Desk.Serves.advances {env : WorkItemEnv} {l : Desk} {row' : WorkItemMutation}
    (h : l.Serves env row) (hadvances : RowAdvances row row') : l.Serves env row' := by
  rcases h with ⟨call, since, hcall, hserves⟩
  exact ⟨call, since, hcall, serves_advances hserves hadvances⟩

section

variable {env : WorkItemEnv}

variable {l : Desk} {id token key target : String} {payload : MutationPayload}
  {row : WorkItemMutation} {r : Reservation} {stage : Stage} {adapter : WorkTrackingAdapter}
  {enrichment : Enrichment} {error : MutationError} {caller : MutationCaller} {since : Instant}

theorem andThen {α β : Type} {m : Desk → α → Prop} {ok : Desk → β → Prop} {x : MutationAction α}
    {f : α → MutationAction β} (hx : x.run.follows (deskDiscipline env) (whenOk m) l)
    (hf : ∀ l' a, m l' a → l.Extends l' → (f a).run.follows (deskDiscipline env) (whenOk ok) l') :
    (x >>= f).run.follows (deskDiscipline env) (whenOk ok) l :=
  bind_follows_frame Desk.Extends.refl Desk.Extends.trans (move_extends env) hx hf

theorem settle_then {α β : Type} {ok : Desk → β → Prop} {x : Except MutationError α}
    {f : α → MutationAction β}
    (hf : ∀ a, x = .ok a → (f a).run.follows (deskDiscipline env) (whenOk ok) l) :
    (settle x >>= f).run.follows (deskDiscipline env) (whenOk ok) l := by
  cases x with
  | ok a => exact hf a rfl
  | error e => exact throw_follows

theorem settleWith_then {α β : Type} {ok : Desk → β → Prop} {handle : MutationError → MutationError}
    {x : Except MutationError α} {f : α → MutationAction β}
    (hf : ∀ a, x = .ok a → (f a).run.follows (deskDiscipline env) (whenOk ok) l) :
    (settleWith handle x >>= f).run.follows (deskDiscipline env) (whenOk ok) l := by
  cases x with
  | ok a => exact hf a rfl
  | error e => exact throw_follows

theorem get_follows :
    (Mutations.get id).run.follows (deskDiscipline env)
      (whenOk fun l' found => ∀ row, found = some row → row.id = id ∧ l.Continues row ∧
        l' = { l with claim := l.claim.map (·.read row) }) l := by
  refine ask_bind_follows (fun h => (nomatch h)) fun a ha => settle_follows fun found hfound => ?_
  subst hfound
  rintro row rfl
  exact ⟨(ha row rfl).1, (ha row rfl).2, rfl⟩

theorem getByScope_then {β : Type} {ok : Desk → β → Prop} {scope : MutationScope}
    {f : Option WorkItemMutation → MutationAction β} (hsome : ∀ row, row.scope = scope →
      (f (some row)).run.follows (deskDiscipline env) (whenOk ok) { l with bound := row :: l.bound })
    (hnone : (f none).run.follows (deskDiscipline env) (whenOk ok)
      { l with vacancy := some (scope, false) }) :
    (Mutations.getByScope scope >>= f).run.follows (deskDiscipline env) (whenOk ok) l := by
  refine bind_follows (m := fun l' found =>
    (∃ row, found = some row ∧ row.scope = scope ∧ l' = { l with bound := row :: l.bound }) ∨
      (found = none ∧ l' = { l with vacancy := some (scope, false) })) ?_ ?_
  · refine ask_bind_follows (fun h => (nomatch h)) fun a ha => settle_follows fun found hfound => ?_
    subst hfound
    cases found with
    | some row => exact Or.inl ⟨row, rfl, ha row rfl, rfl⟩
    | none => exact Or.inr ⟨rfl, rfl⟩
  · rintro l' found (⟨row, rfl, hscope, rfl⟩ | ⟨rfl, rfl⟩)
    · exact hsome row hscope
    · exact hnone

/-- A row found or inserted for a reservation is bound to it. -/
def Desk.Bound (l : Desk) (r : Reservation) (row : WorkItemMutation) : Prop :=
  row ∈ l.bound ∧ row.scope = r.scope ∧ row.payload = r.payload

theorem validateExisting_payload {payloadHash : String} {projectId : Option String}
    {connectionVersion : Instant} {u : Unit}
    (h : validateExisting row payloadHash payload projectId connectionVersion = .ok u) :
    row.payload = payload := by
  unfold validateExisting at h
  simp only [bind_ok, raiseIf_ok, exists_const, Bool.or_eq_false_iff, bne_eq_false_iff_eq] at h
  exact h.1.2

theorem existing_bound (hscope : row.scope = r.scope) :
    (Mutations.existing r row).run.follows (deskDiscipline env)
      (whenOk fun l' row' => l'.Bound r row') { l with bound := row :: l.bound } := by
  refine settle_then fun u hu => pure_follows ?_
  exact ⟨mem_cons_self, hscope, validateExisting_payload hu⟩

theorem insertReserved_follows (hfree : l.vacancy = some (r.scope, true)) :
    (Mutations.insertReserved r).run.follows (deskDiscipline env)
      (whenOk fun l' row => l'.Bound r row) l := by
  refine ask_bind_follows (fun h => (nomatch h)) fun name _ => ?_
  refine ask_bind_follows ⟨rfl, hfree, ⟨⟨fun h => (nomatch h), fun h => (nomatch h)⟩,
    ⟨fun h => (nomatch h), fun h => (nomatch h)⟩⟩, rfl, rfl, fun k => ?_⟩ fun a ha => ?_
  · cases k <;> rfl
  · cases a with
    | refused message => exact throw_follows
    | committed row => exact pure_follows ⟨mem_cons_self, ha row rfl⟩
    | raised error => exact throw_follows
    | broken error => exact getByScope_then (fun row hscope => existing_bound hscope) throw_follows

theorem reserve_follows :
    (Mutations.reserve env r).run.follows (deskDiscipline env)
      (whenOk fun l' row => l'.Bound r row) l := by
  refine settle_then fun _ _ => ?_
  refine getByScope_then (fun row hscope => existing_bound hscope) ?_
  refine ask_bind_follows (fun h => (nomatch h)) fun a _ => settle_then fun found hfound => ?_
  subst hfound
  cases found with
  | some tombstone => exact throw_follows
  | none =>
    refine insertReserved_follows ?_
    change some (r.scope, false || mutationScopeHash env r.scope == mutationScopeHash env r.scope)
      = some (r.scope, true)
    rw [beq_self_eq_true]
    rfl

theorem inspect_follows :
    (Mutations.inspect env r).run.follows (deskDiscipline env)
      (whenOk fun l' found => ∀ row, found = some row → l'.Bound r row) l := by
  refine settle_then fun _ _ => ?_
  refine getByScope_then (fun row hscope => map_follows (existing_bound hscope)
    fun l' row' h row'' heq => ?_) ?_
  · rw [← some.inj heq]
    exact h
  refine ask_bind_follows (fun h => (nomatch h)) fun a _ => settle_then fun found _ => ?_
  cases found with
  | some tombstone => exact throw_follows
  | none => exact pure_follows fun row heq => (nomatch heq)

/-- An operation that neither takes over the row nor records an attempt may be called
    at any time. -/
theorem change_any {op : Operation} (htime : ∀ t, op.takeoverAt = some t → t ≤ l.time)
    (hclaim : ∀ token now ignoreBackoff, op ≠ .claim token now ignoreBackoff)
    (hmarks : marks op = none) :
    (Mutations.change id op).run.follows (deskDiscipline env) (whenOk fun _ _ => True) l := by
  refine ask_bind_follows ⟨htime, fun token now ignoreBackoff h =>
    absurd h (hclaim token now ignoreBackoff), fun k hk => ?_⟩ fun a _ => ?_
  · rw [hmarks] at hk
    nomatch hk
  · cases a with
    | gone => exact throw_follows
    | refused error => exact throw_follows
    | found row => exact pure_follows trivial
    | committed row => exact pure_follows trivial
    | raised error => exact throw_follows
    | broken error =>
      cases op.recovers with
      | false => exact throw_follows
      | true =>
        refine bind_follows get_follows fun l' found _ => ?_
        rcases found with _ | row
        · exact throw_follows
        · cases hack : op.acknowledged row with
          | false =>
            simp only [hack, Bool.false_eq_true, if_false]
            exact throw_follows
          | true =>
            simp only [hack, if_true]
            exact pure_follows trivial

theorem read_owned {c : Claim} (hid : row.id = c.id) (howned : row.ownedBy c.token = true)
    (hlease : c.lease = none) :
    c.read row = ⟨c.token, row.id, some (row, .fresh)⟩ := by
  unfold Claim.read
  rw [if_pos ⟨hid, howned⟩, hlease, hid]

theorem claim_follows {ignoreBackoff : Bool} :
    (Mutations.claim id ignoreBackoff).run.follows (deskDiscipline env)
      (whenOk fun l' row => row.id = id ∧ (∀ old ∈ l.bound, old.id = row.id → RowAdvances old row) ∧
        (row.status.isTerminal = true ∨
          ∃ token, l'.Holds row token .fresh ∧ row.ownedBy token = true)) l := by
  refine ask_bind_follows (fun h => (nomatch h)) fun token _ => ?_
  refine ask_bind_follows (fun h => (nomatch h)) fun now _ => ?_
  refine ask_bind_follows ⟨fun t ht => ?_, fun token' _ _ heq => ?_, fun k hk => (nomatch hk)⟩
    fun a ha => ?_
  · rw [← some.inj ht]
    exact Int.le_refl now
  · rw [← (Operation.claim.inj heq).1]
    exact ⟨rfl, rfl⟩
  · cases a with
    | gone => exact throw_follows
    | refused error => exact throw_follows
    | raised error => exact throw_follows
    | found row =>
      rcases (ha row).1 rfl with ⟨hid, hcontinues, _, hsettled⟩
      exact pure_follows ⟨hid, hcontinues.1, Or.inl (hsettled rfl)⟩
    | committed row =>
      rcases (ha row).2 rfl with ⟨hid, hcontinues, hdone, hopen⟩
      refine pure_follows ⟨hid, hcontinues.1, Or.inr ⟨token, ?_, ?_⟩⟩
      · rw [← hid]
        rfl
      · refine hdone.resolve_left fun hterminal => ?_
        rw [hopen rfl] at hterminal
        exact Bool.false_ne_true hterminal
    | broken error =>
      refine bind_follows get_follows fun l' found hfound => ?_
      rcases found with _ | row
      · exact throw_follows
      · rcases hfound row rfl with ⟨hid, hcontinues, rfl⟩
        cases hack : (Operation.claim token now ignoreBackoff).acknowledged row with
        | false =>
          simp only [hack, Bool.false_eq_true, if_false]
          exact throw_follows
        | true =>
          simp only [hack, if_true]
          simp only [Operation.acknowledged, Bool.or_eq_true] at hack
          refine pure_follows ⟨hid, hcontinues.1, hack.imp (fun h => h) fun howned => ?_⟩
          exact ⟨token, congrArg some (read_owned hid howned rfl), howned⟩

theorem marked_done {o : Operation} {k : Attempt} (hmarks : marks o = some k)
    (htoken : o.claimToken = some token) (h : o.Done row) :
    row.ownedBy token = true ∧ (k.recorded row).isSome = true := by
  cases o <;> simp only [marks, reduceCtorEq, some.injEq] at hmarks <;>
    simp only [Operation.claimToken, some.injEq] at htoken <;> subst hmarks htoken <;>
    exact h

theorem mark_follows {o : Operation} {k : Attempt} (hholds : l.Holds row token .fresh)
    (hmarks : marks o = some k) (htoken : o.claimToken = some token)
    (hnone : k.recorded row = none) :
    (Mutations.change row.id o).run.follows (deskDiscipline env)
      (whenOk fun l' row' => l'.Holds row' token (.permitted k) ∧ RowAdvances row row') l := by
  have hdone : ∀ {row'}, o.Done row' → row'.ownedBy token = true ∧
      (k.recorded row').isSome = true := marked_done hmarks htoken
  have hrecovers : o.recovers = true := by
    cases o <;> simp only [marks, reduceCtorEq] at hmarks <;> rfl
  -- The row that comes back with the transaction is the one the worker holds now.
  have hreturned : ∀ {row'}, row'.id = row.id → row'.ownedBy token = true →
      l.claim.map (·.returned row.id o row') = some ⟨token, row'.id, some (row', .permitted k)⟩ := by
    intro row' hid howned
    rw [hholds, map_some]
    unfold Claim.returned
    rw [if_pos ⟨rfl, howned⟩, hmarks, hid]
    rfl
  refine ask_bind_follows ⟨fun t ht => ?_, fun _ _ _ heq => ?_, fun k' hk => ?_⟩ fun a ha => ?_
  · cases o <;> simp only [marks, reduceCtorEq] at hmarks <;> nomatch ht
  · rw [heq] at hmarks
    nomatch hmarks
  · rw [hmarks, some.injEq] at hk
    exact ⟨row, token, hholds, rfl, htoken, by rw [← hk]; exact hnone⟩
  · have hafter : ∀ {row'}, row'.id = row.id → row'.ownedBy token = true →
        (l.afterChange row.id o (.committed row')).Holds row' token (.permitted k) ∧
          (l.afterChange row.id o (.found row')).Holds row' token (.permitted k) := by
      intro row' hid howned
      have h := hreturned hid howned
      cases o <;> simp only [marks, reduceCtorEq] at hmarks <;> exact ⟨h, h⟩
    cases a with
    | gone => exact throw_follows
    | refused error => exact throw_follows
    | raised error => exact throw_follows
    | found row' =>
      rcases (ha row').1 rfl with ⟨hid, hcontinues, h, _⟩
      exact pure_follows ⟨(hafter hid (hdone h).1).2, hcontinues.2 row token _ hholds hid.symm⟩
    | committed row' =>
      rcases (ha row').2 rfl with ⟨hid, hcontinues, h, _⟩
      exact pure_follows ⟨(hafter hid (hdone h).1).1, hcontinues.2 row token _ hholds hid.symm⟩
    | broken error =>
      simp only [hrecovers, if_true]
      refine bind_follows get_follows fun l' found hfound => ?_
      rcases found with _ | row'
      · exact throw_follows
      · rcases hfound row' rfl with ⟨hid, hcontinues, rfl⟩
        cases hack : o.acknowledged row' with
        | false =>
          simp only [hack, Bool.false_eq_true, if_false]
          exact throw_follows
        | true =>
          simp only [hack, if_true]
          rcases hdone (done_of_acknowledged hack) with ⟨howned, hsome⟩
          have hmarking : (l.afterChange row.id o (.broken error)).Holds row token
              (.marking k) := by
            have h : l.claim.map (·.unanswered o)
                = some ⟨token, row.id, some (row, .marking k)⟩ := by
              rw [hholds, map_some]
              unfold Claim.unanswered
              rw [hmarks]
              rfl
            cases o <;> simp only [marks, reduceCtorEq] at hmarks <;> exact h
          refine pure_follows ⟨?_, hcontinues.2 row token _ hmarking hid.symm⟩
          change Option.map _ (l.afterChange row.id o (.broken error)).claim = _
          rw [hmarking, map_some]
          unfold Claim.read
          rw [if_pos ⟨hid, howned⟩]
          simp only [hsome, if_true, hid]

theorem markStep_follows {step : Step} (hholds : l.Holds row token stage)
    (hstage : stage = .fresh ∨ stage = .spent ) :
    (Mutations.markStep row.id token step).run.follows (deskDiscipline env)
      (whenOk fun l' row' => l'.Holds row' token stage ∧ RowAdvances row row') l := by
  have hreturned : ∀ {row'}, row'.id = row.id → row'.ownedBy token = true →
      l.claim.map (·.returned row.id (.markStep token step) row')
        = some ⟨token, row'.id, some (row', stage)⟩ := by
    intro row' hid howned
    rw [hholds, map_some]
    unfold Claim.returned
    rw [if_pos ⟨rfl, howned⟩, hid]
    rfl
  refine ask_bind_follows ⟨fun t ht => (nomatch ht), fun _ _ _ heq => (nomatch heq),
    fun k' hk => (nomatch hk)⟩ fun a ha => ?_
  cases a with
  | gone => exact throw_follows
  | refused error => exact throw_follows
  | raised error => exact throw_follows
  | found row' =>
    rcases (ha row').1 rfl with ⟨hid, hcontinues, h, _⟩
    exact pure_follows ⟨hreturned hid h.1, hcontinues.2 row token _ hholds hid.symm⟩
  | committed row' =>
    rcases (ha row').2 rfl with ⟨hid, hcontinues, h, _⟩
    exact pure_follows ⟨hreturned hid h.1, hcontinues.2 row token _ hholds hid.symm⟩
  | broken error =>
    refine bind_follows get_follows fun l' found hfound => ?_
    rcases found with _ | row'
    · exact throw_follows
    · rcases hfound row' rfl with ⟨hid, hcontinues, rfl⟩
      cases hack : (Operation.markStep token step).acknowledged row' with
      | false =>
        simp only [hack, Bool.false_eq_true, if_false]
        exact throw_follows
      | true =>
        simp only [hack, if_true]
        have howned := (done_of_acknowledged hack).1
        have hkept : (l.afterChange row.id (.markStep token step) (.broken error)).Holds row
            token stage := by
          change l.claim.map (·.unanswered (.markStep token step)) = _
          rw [hholds]
          rfl
        refine pure_follows ⟨?_, hcontinues.2 row token _ hkept hid.symm⟩
        change Option.map _ (l.afterChange row.id (.markStep token step) (.broken error)).claim = _
        rw [hkept, map_some]
        unfold Claim.read
        rw [if_pos ⟨hid, howned⟩]
        rcases hstage with rfl | rfl
        · simp only [hid]
        · simp only [hid]

/-- A worker holds a row that its call may act on. -/
def Desk.Acts (env : WorkItemEnv) (l : Desk) (row : WorkItemMutation) (token : String)
    (stage : Stage) : Prop := l.Holds row token stage ∧ l.Serves env row

theorem Desk.Acts.next {l' : Desk} {row' : WorkItemMutation} {stage' : Stage}
    (h : l.Acts env row token stage) (hext : l.Extends l') (hholds : l'.Holds row' token stage')
    (hadvances : RowAdvances row row') :
    l'.Acts env row' token stage' := ⟨hholds, (h.2.mono hext).advances hadvances⟩

theorem tracker_allowed {r : MutationRequest} (h : l.Acts env row token stage)
    (hcall : r.isProviderCall = true) (hfor : IsFor row r)
    (hposts : ∀ k marker, posts r = some (k, marker) → stage = .permitted k) :
    l.allowed env r := by
  cases r
  case insert => nomatch hcall
  case change => nomatch hcall
  case retire => nomatch hcall
  all_goals exact fun _ => ⟨row, token, stage, h.1, hfor, h.2, hposts⟩

theorem runOptionalValidator_follows {present : Bool} {r : MutationRequest}
    {hr : r.Answer = Except MutationError Unit} (hallowed : l.allowed env r)
    (hmove : ∀ a, l.move env r a = l) :
    (runOptionalValidator present r hr).run.follows (deskDiscipline env)
      (whenOk fun l' _ => l' = l) l := by
  cases present with
  | false => exact pure_follows rfl
  | true => exact ask_bind_follows hallowed fun a _ => settleWith_follows fun _ _ => hmove a

theorem completeMutation_follows {item : WorkItem} :
    (completeMutation env id token item).run.follows (deskDiscipline env)
      (whenOk fun _ _ => True) l := by
  unfold completeMutation
  cases env.validatedProviderWorkItem item with
  | none => exact throw_follows
  | some result =>
    refine bind_follows (m := fun _ _ => True) ?_ fun l' row _ => settle_follows fun _ _ => trivial
    refine settle_then fun _ _ => ?_
    exact change_any (fun t ht => (nomatch ht)) (fun _ _ _ h => (nomatch h)) rfl

theorem dispatchCreate_follows {draft : WorkItemDraft} (h : l.Acts env row token .fresh)
    (hnone : row.providerAttemptedAt = none) (hpayload : row.payload = .create draft) :
    (dispatchCreate env row adapter token draft).run.follows (deskDiscipline env)
      (whenOk fun _ _ => True) l := by
  refine bind_follows (runOptionalValidator_follows (tracker_allowed h rfl ⟨hpayload, rfl⟩
    fun _ _ hk => (nomatch hk)) fun _ => rfl) fun l' _ hl => ?_
  subst hl
  refine andThen (m := fun l' row' => l'.Holds row' token (.permitted .create) ∧
    RowAdvances row row') ?_ fun l' row' hmid hext => ?_
  · refine ask_bind_follows (fun h => (nomatch h)) fun now _ => ?_
    exact mark_follows (o := .markProviderAttempted token now) (k := .create) h.1 rfl rfl hnone
  · have hacts := h.next hext hmid.1 hmid.2
    refine ask_bind_follows (tracker_allowed (r := .createItem draft row'.providerMarker) hacts rfl
      ⟨hmid.2.payload.trans hpayload, rfl⟩ fun k marker hk => ?_) fun a _ => ?_
    · simp only [posts, some.injEq, Prod.mk.injEq] at hk
      rw [← hk.1]
    · refine settleWith_then fun item _ => ?_
      cases item with
      | none => exact throw_follows
      | some item => exact completeMutation_follows

theorem executeCreate_follows (h : l.Acts env row token .fresh) :
    (executeCreate env row adapter token).run.follows (deskDiscipline env)
      (whenOk fun _ _ => True) l := by
  refine ask_bind_follows (tracker_allowed
    (r := .findItemByIdempotencyMarker row.providerMarker) h rfl rfl fun _ _ hk => (nomatch hk))
    fun a _ => ?_
  refine settle_then fun found _ => ?_
  cases found with
  | some item => exact completeMutation_follows
  | none =>
    dsimp only
    cases hattempted : row.providerAttemptedAt with
    | some t => exact throw_follows
    | none =>
      simp only [isSome_none, Bool.false_eq_true, if_false]
      cases hpayload : row.payload with
      | enrich key enrichment => exact throw_follows
      | create draft =>
        dsimp only
        cases draft.valid env with
        | false => exact throw_follows
        | true => exact dispatchCreate_follows h hattempted hpayload

theorem finishEnrich_follows (h : l.Acts env row token stage) (hkey : row.targetKey = some key) :
    (finishEnrich env id token key).run.follows (deskDiscipline env)
      (whenOk fun _ _ => True) l := by
  refine ask_bind_follows (tracker_allowed (r := .getItem key) h rfl hkey
    fun _ _ hk => (nomatch hk)) fun a _ => settle_then fun item _ => ?_
  cases env.validatedProviderWorkItem item with
  | none => exact throw_follows
  | some item =>
    dsimp only
    cases (item.key != key) with
    | true => exact throw_follows
    | false => exact completeMutation_follows

section

variable (h : l.Acts env row token .fresh) (hkey : row.targetKey = some key)
  (hpayload : row.payload = .enrich target enrichment)

include h hkey hpayload

theorem addComment_follows :
    (addComment env row token key enrichment).run.follows (deskDiscipline env)
      (whenOk fun l' _ => ∃ row' stage, l'.Holds row' token stage ∧ RowAdvances row row' ∧
        (stage = .fresh ∨ stage = .spent)) l := by
  refine ask_bind_follows (tracker_allowed
    (r := .hasCommentIdempotencyMarker key row.providerMarker) h rfl ⟨hkey, rfl⟩
    fun _ _ hk => (nomatch hk)) fun a _ => settleWith_then fun hasMarker _ => ?_
  cases hasMarker with
  | true => exact pure_follows ⟨row, .fresh, h.1, RowAdvances.refl row, Or.inl rfl⟩
  | false =>
    simp only [Bool.false_eq_true, if_false]
    cases hattempted : row.commentAttemptedAt with
    | some t => exact throw_follows
    | none =>
      simp only [isSome_none, Bool.false_eq_true, if_false]
      cases hcomment : enrichment.comment with
      | none => exact throw_follows
      | some comment =>
        dsimp only
        refine andThen (m := fun l' row' => l'.Holds row' token (.permitted .comment) ∧
          RowAdvances row row') ?_ fun l' row' hmid hext => ?_
        · refine ask_bind_follows (fun h => (nomatch h)) fun now _ => ?_
          exact mark_follows (o := .markCommentAttempted token now) (k := .comment) h.1 rfl
            rfl hattempted
        · have hacts := h.next hext hmid.1 hmid.2
          refine ask_bind_follows (tracker_allowed
            (r := .addItemComment key comment row'.providerMarker) hacts rfl
            ⟨hmid.2.targetKey.trans hkey, rfl, target, enrichment,
              hmid.2.payload.trans hpayload, hcomment⟩ fun k marker hk => ?_) fun a _ => ?_
          · simp only [posts, some.injEq, Prod.mk.injEq] at hk
            rw [← hk.1]
          · refine settleWith_follows fun _ _ => ⟨row', .spent, ?_, hmid.2, Or.inr rfl⟩
            change Option.map _ l'.claim = _
            rw [hmid.1]
            rfl

theorem commentStep_follows :
    (commentStep env row token key enrichment).run.follows (deskDiscipline env)
      (whenOk fun _ _ => True) l := by
  unfold commentStep
  cases (row.commentStatus == StepStatus.pending) with
  | false => exact finishEnrich_follows h hkey
  | true =>
    refine andThen (addComment_follows h hkey hpayload) fun l' _ hmid hext => ?_
    rcases hmid with ⟨row', stage, hholds, hadvances, hstage⟩
    rw [← hadvances.id]
    refine andThen (markStep_follows hholds hstage) fun l'' row'' hstep hext' => ?_
    exact finishEnrich_follows (h.next (hext.trans hext') hstep.1 (hadvances.trans hstep.2))
      ((hadvances.trans hstep.2).targetKey.trans hkey)

theorem fieldsStep_follows :
    (fieldsStep env row adapter token key enrichment).run.follows (deskDiscipline env)
      (whenOk fun _ _ => True) l := by
  unfold fieldsStep
  cases (row.fieldsStatus == StepStatus.pending) with
  | false => exact commentStep_follows h hkey hpayload
  | true =>
    refine bind_follows (runOptionalValidator_follows (tracker_allowed
      (r := .validateUpdateItemFields enrichment.fields) h rfl
      ⟨target, enrichment, hpayload, rfl⟩ fun _ _ hk => (nomatch hk)) fun _ => rfl)
      fun l' _ hl => ?_
    subst hl
    refine ask_bind_follows (tracker_allowed (r := .updateItemFields key enrichment.fields) h rfl
      ⟨hkey, target, enrichment, hpayload, rfl⟩ fun _ _ hk => (nomatch hk)) fun a _ =>
      settleWith_then fun _ _ => ?_
    refine andThen (markStep_follows h.1 (Or.inl rfl)) fun l'' row' hstep hext => ?_
    exact commentStep_follows (h.next hext hstep.1 hstep.2) (hstep.2.targetKey.trans hkey)
      (hstep.2.payload.trans hpayload)

end

theorem executeEnrich_follows (h : l.Acts env row token .fresh) :
    (executeEnrich env row adapter token).run.follows (deskDiscipline env)
      (whenOk fun _ _ => True) l := by
  unfold executeEnrich
  cases hkey : row.targetKey with
  | none => exact throw_follows
  | some key =>
    dsimp only
    cases (key == "") with
    | true => exact throw_follows
    | false =>
      cases hpayload : row.payload with
      | create draft => exact throw_follows
      | enrich target enrichment =>
        dsimp only
        cases enrichment.valid env with
        | false => exact throw_follows
        | true => exact fieldsStep_follows h hkey hpayload

theorem executeMutation_follows (h : l.Acts env row token .fresh) :
    (executeMutation env row adapter token).run.follows (deskDiscipline env)
      (whenOk fun _ _ => True) l := by
  unfold executeMutation
  cases (row.scope.operation == "create") with
  | true => exact executeCreate_follows h
  | false =>
    cases (row.scope.operation == "enrich") with
    | true => exact executeEnrich_follows h
    | false => exact throw_follows

theorem release_follows {error : String} {delay : Int} :
    (Mutations.release env id token error delay).run.follows (deskDiscipline env)
      (whenOk fun _ _ => True) l :=
  ask_bind_follows (fun h => (nomatch h)) fun _ _ =>
    change_any (fun _ ht => (nomatch ht)) (fun _ _ _ h => (nomatch h)) rfl

theorem releaseAfterInterruption_follows :
    (releaseAfterInterruption env row token error).run.follows (deskDiscipline env)
      (whenOk fun _ _ => True) l := by
  refine bind_follows (m := fun _ _ => True) ?_ fun _ _ _ => throw_follows
  refine tryCatch_follows (either_of_whenOk (map_follows release_follows fun _ _ _ => trivial))
    fun l' e _ => ?_
  cases e with
  | cancelled heartbeat => exact throw_follows
  | _ => exact pure_follows trivial

theorem settleInterruption_follows :
    (settleInterruption env row token error).run.follows (deskDiscipline env)
      (whenOk fun _ _ => True) l := by
  have hfail : ∀ {kind text} {l : Desk}, (Mutations.fail env row.id token kind text).run.follows
      (deskDiscipline env) (whenOk fun _ _ => True) l :=
    change_any (fun _ ht => (nomatch ht)) (fun _ _ _ h => (nomatch h)) rfl
  cases error with
  | permanent kind =>
    cases kind with
    | rejected => exact bind_follows hfail fun _ _ _ => throw_follows
    | notFound => exact bind_follows hfail fun _ _ _ => throw_follows
  | _ => exact releaseAfterInterruption_follows

theorem runClaimed_follows (h : row.status.isTerminal = true ∨
      ∃ token, l.Acts env row token .fresh ∧ row.ownedBy token = true) :
    (runClaimed env row adapter).run.follows (deskDiscipline env) (whenOk fun _ _ => True) l := by
  have hopen : row.status.isTerminal = false →
      (executeClaimed env row adapter).run.follows (deskDiscipline env)
        (whenOk fun _ _ => True) l := by
    intro hstatus
    rcases h with hterminal | ⟨token, hacts, howned⟩
    · rw [hstatus] at hterminal
      exact absurd hterminal Bool.false_ne_true
    · unfold executeClaimed
      rw [(Operation.ownedBy_iff.mp howned).2]
      exact tryCatch_follows (either_of_whenOk (executeMutation_follows hacts))
        fun l' e _ => settleInterruption_follows
  unfold runClaimed
  cases hstatus : row.status with
  | completed => exact settle_follows fun _ _ => trivial
  | failed => exact throw_follows
  | pending => exact hopen (by rw [hstatus]; rfl)
  | running => exact hopen (by rw [hstatus]; rfl)

theorem requireIdempotentAdapter_follows :
    (requireIdempotentAdapter adapter).run.follows (deskDiscipline env)
      (whenOk fun l' _ => l' = l) l := by
  refine bind_follows (m := fun l' _ => l' = l) (raiseWhen_follows fun _ => rfl) fun l' _ hl => ?_
  exact raiseWhen_follows fun _ => hl

theorem runMutation_follows {foreground : Bool}
    (hserves : ∀ l' claimed, l.Extends l' → claimed.id = row.id →
      (∀ old ∈ l.bound, old.id = claimed.id → RowAdvances old claimed) → l'.Serves env claimed) :
    (runMutation env row adapter foreground).run.follows (deskDiscipline env)
      (whenOk fun _ _ => True) l := by
  have hopen : (claimAndRun env row adapter foreground).run.follows (deskDiscipline env)
      (whenOk fun _ _ => True) l := by
    refine bind_follows requireIdempotentAdapter_follows fun l' _ hl => ?_
    subst hl
    refine andThen claim_follows fun l'' claimed hmid hext => runClaimed_follows ?_
    rcases hmid with ⟨hid, hbound, hclaimed⟩
    refine hclaimed.imp (fun h => h) fun ⟨token, hholds, howned⟩ => ⟨token, ⟨hholds, ?_⟩, howned⟩
    exact hserves l'' claimed hext hid hbound
  unfold runMutation
  cases row.status with
  | completed => exact settle_follows fun _ _ => trivial
  | failed => exact throw_follows
  | pending => exact hopen
  | running => exact hopen

theorem checkRequest_follows :
    (checkRequest env adapter payload).run.follows (deskDiscipline env)
      (whenOk fun l' _ => l' = l) l := by
  cases payload with
  | create draft =>
    refine bind_follows requireIdempotentAdapter_follows fun l' _ hl => ?_
    exact settle_follows fun _ _ => hl
  | enrich key enrichment => exact settle_then fun _ _ => requireIdempotentAdapter_follows

theorem reservation_payload (h : caller.reservation env payload = .ok r) : r.payload = payload := by
  unfold MutationCaller.reservation at h
  simp only [bind_ok] at h
  rcases h with ⟨scope, _, h⟩
  cases hversion : caller.connectionVersion with
  | none =>
    rw [hversion] at h
    nomatch h
  | some version =>
    rw [hversion] at h
    rw [← Except.ok.inj h]

/-- Who asks for a mutation, and for which: a call that executes it, or one that looks
    for its result. -/
def MutationCall.request : MutationCall → Option (MutationCaller × MutationPayload)
  | mutate _ caller payload => some (caller, payload)
  | replay caller payload => some (caller, payload)
  | _ => none

/-- What a finished request returned: there is a row for its scope, and the payload of
    that row is its own. -/
def Desk.returned (env : WorkItemEnv) (l : Desk) (item : Option WorkItem) : Prop :=
  ∀ call since caller payload v, l.call = some (call, since) →
    call.request = some (caller, payload) → item = some v →
    ∃ r row, caller.reservation env payload = .ok r ∧ row ∈ l.bound ∧ row.scope = r.scope ∧
      row.payload = payload

theorem mutate_follows (hcall : l.call = some (.mutate adapter caller payload, since)) :
    (mutate env adapter caller payload).run.follows (deskDiscipline env)
      (whenOk fun l' item => l'.returned env (some item)) l := by
  refine andThen checkRequest_follows fun l₁ _ hl _ => ?_
  subst hl
  refine settle_then fun r hr => ?_
  have hpayload := reservation_payload hr
  refine andThen reserve_follows fun l₂ row hrow hext => ?_
  rcases hrow with ⟨hmem, hscope, hrowpayload⟩
  refine Program.follows_mono (Program.follows_frame Desk.Extends.refl Desk.Extends.trans
    (move_extends env) (runMutation_follows fun l₃ claimed hext' hid hbound => ?_)) ?_
  · have hadvances := hbound row hmem hid.symm
    exact ⟨_, since, (hext'.1.trans hext.1).trans hcall, r, hr,
      hadvances.scope.trans hscope, (hadvances.payload.trans hrowpayload).trans hpayload⟩
  · rintro l₃ result ⟨_, hext'⟩ item rfl call' since' caller' payload' v hcall' hrequest _
    rw [hext'.1, hext.1, hcall] at hcall'
    rw [← (Prod.mk.inj (some.inj hcall')).1] at hrequest
    rcases Prod.mk.inj (some.inj hrequest) with ⟨rfl, rfl⟩
    exact ⟨r, row, hr, hext'.2 row hmem, hscope, hrowpayload.trans hpayload⟩

theorem replay_follows (hcall : l.call = some (.replay caller payload, since)) :
    (replay env caller payload).run.follows (deskDiscipline env) (whenOk (Desk.returned env)) l := by
  refine settle_then fun _ _ => settle_then fun r hr => ?_
  refine andThen inspect_follows fun l' found hfound hext => ?_
  have hnone : ∀ {l' : Desk}, l'.returned env none := fun _ _ _ _ _ _ _ heq => (nomatch heq)
  rcases found with _ | row
  · exact pure_follows hnone
  · dsimp only
    cases row.status with
    | completed =>
      refine map_follows (m := fun l'' _ => l'' = l') (settle_follows fun _ _ => rfl) ?_
      rintro _ item rfl call since' caller' payload' v hcall' hrequest _
      rcases hfound row rfl with ⟨hmem, hscope, hpayload⟩
      rw [hext.1, hcall] at hcall'
      rw [← (Prod.mk.inj (some.inj hcall')).1] at hrequest
      rcases Prod.mk.inj (some.inj hrequest) with ⟨rfl, rfl⟩
      exact ⟨r, row, hr, hmem, hscope, hpayload.trans (reservation_payload hr)⟩
    | failed => exact throw_follows
    | pending => exact pure_follows hnone
    | running => exact pure_follows hnone

theorem resume_follows (hcall : l.call = some (.reconcile, since)) :
    (resume env id adapter).run.follows (deskDiscipline env) (whenOk fun _ _ => True) l := by
  refine andThen get_follows fun l' found _ hext => ?_
  rcases found with _ | row
  · exact throw_follows
  · exact runMutation_follows fun l'' claimed hext' _ _ =>
      ⟨.reconcile, since, (hext'.1.trans hext.1).trans hcall, trivial⟩

theorem deferResolution_follows {error : String} :
    (deferResolution env id error).run.follows (deskDiscipline env) (whenOk fun _ _ => True) l := by
  refine bind_follows get_follows fun l' found _ => ?_
  rcases found with _ | row
  · exact pure_follows trivial
  · refine bind_follows (m := fun _ _ => True) ?_ fun _ _ _ => pure_follows trivial
    refine ask_bind_follows (fun h => (nomatch h)) fun now _ => ?_
    refine change_any (fun t ht => ?_) (fun _ _ _ h => (nomatch h)) rfl
    rw [← some.inj ht]
    exact Int.le_refl now

theorem retirementMatches_any {expected : List (String × String × String)} :
    (Mutations.retirementMatches expected).run.follows (deskDiscipline env)
      (whenOk fun _ _ => True) l := by
  induction expected generalizing l with
  | nil => exact pure_follows trivial
  | cons head rest ih =>
    rcases head with ⟨scopeHash, payloadHash, id⟩
    refine ask_bind_follows (fun h => (nomatch h)) fun a _ => settle_then fun tombstone _ => ?_
    refine bind_follows get_follows fun l' live _ => ?_
    cases (tombstone.all (fun t => t.payloadHash != payloadHash) || live.isSome) with
    | true => exact pure_follows trivial
    | false => exact ih

theorem retireTerminal_follows :
    retireTerminal.run.follows (deskDiscipline env) (whenOk fun _ _ => True) l := by
  refine ask_bind_follows (fun h => (nomatch h)) fun now _ => ?_
  refine ask_bind_follows ?_ fun a _ => ?_
  · exact Int.le_of_eq (Int.sub_add_cancel now terminalReplayRetention)
  · cases a with
    | committed count => exact pure_follows trivial
    | raised error => exact throw_follows
    | broken expected error =>
      refine bind_follows retirementMatches_any fun l' matched _ => ?_
      cases matched with
      | true => exact pure_follows trivial
      | false => exact throw_follows

theorem passCancellation_follows :
    (passCancellation error).run.follows (deskDiscipline env) (whenOk fun _ _ => True) l := by
  cases error with
  | cancelled heartbeat => exact throw_follows
  | _ => exact pure_follows trivial

theorem deferUnresolved_follows :
    (deferUnresolved env id error).run.follows (deskDiscipline env) (whenOk fun _ _ => True) l := by
  have hdefer : ∀ {text} {l : Desk}, (tryCatch (deferResolution env id text)
      passCancellation).run.follows (deskDiscipline env) (whenOk fun _ _ => True) l :=
    tryCatch_follows (either_of_whenOk deferResolution_follows) fun _ _ _ => passCancellation_follows
  cases error with
  | cancelled heartbeat => exact throw_follows
  | claimed message => exact pure_follows trivial
  | _ => exact hdefer

theorem resolveForRow_follows :
    (resolveForRow row).run.follows (deskDiscipline env) (whenOk fun _ _ => True) l := by
  refine ask_bind_follows (fun h => (nomatch h)) fun a _ => settle_then fun resolved _ => ?_
  refine bind_follows (m := fun _ _ => True) (raiseWhen_follows fun _ => trivial) fun _ _ _ => ?_
  refine bind_follows (m := fun _ _ => True) (raiseWhen_follows fun _ => trivial) fun _ _ _ => ?_
  exact pure_follows trivial

theorem reconcileRow_follows (hcall : l.call = some (.reconcile, since)) :
    (reconcileRow env row).run.follows (deskDiscipline env) (whenOk fun _ _ => True) l := by
  refine andThen (m := fun _ _ => True) ?_ fun l' found _ hext => ?_
  · refine tryCatch_follows (either_of_whenOk
      (map_follows resolveForRow_follows fun _ _ _ => trivial)) fun _ _ _ => ?_
    exact bind_follows deferUnresolved_follows fun _ _ _ => pure_follows trivial
  · rcases found with _ | adapter
    · exact pure_follows trivial
    · refine tryCatch_follows (either_of_whenOk (bind_follows
        (resume_follows (hext.1.trans hcall)) fun _ _ _ => pure_follows trivial)) fun _ _ _ => ?_
      exact passCancellation_follows

theorem reconcileRows_follows {ids : List String} (hcall : l.call = some (.reconcile, since)) :
    (reconcileRows env ids).run.follows (deskDiscipline env) (whenOk fun _ _ => True) l := by
  induction ids generalizing l with
  | nil => exact pure_follows trivial
  | cons id rest ih =>
    refine andThen get_follows fun l' found _ hext => ?_
    rcases found with _ | row
    · exact ih (hext.1.trans hcall)
    · refine andThen (reconcileRow_follows (hext.1.trans hcall)) fun l'' _ _ hext' => ?_
      exact ih ((hext'.1.trans hext.1).trans hcall)

theorem reconcileMutationsOnce_follows (hcall : l.call = some (.reconcile, since)) :
    (reconcileMutationsOnce env).run.follows (deskDiscipline env) (whenOk fun _ _ => True) l := by
  refine ask_bind_follows (fun h => (nomatch h)) fun now _ => ?_
  refine ask_bind_follows (fun h => (nomatch h)) fun a _ => settle_then fun ids _ => ?_
  refine bind_follows (reconcileRows_follows hcall) fun l' _ _ => ?_
  exact tryCatch_follows (either_of_whenOk (bind_follows retireTerminal_follows
    fun _ _ _ => pure_follows trivial)) fun _ _ _ => passCancellation_follows

theorem program_follows {call : MutationCall} (hcall : l.call = some (call, since)) :
    (call.program env).follows (deskDiscipline env) (whenOk (Desk.returned env)) l := by
  -- Only a request promises anything.
  have hother : ∀ {x : MutationAction (Option WorkItem)}, call.request = none →
      x.run.follows (deskDiscipline env) (whenOk fun _ _ => True) l →
      x.run.follows (deskDiscipline env) (whenOk (Desk.returned env)) l := by
    intro x hnone hx
    refine Program.follows_mono (Program.follows_frame Desk.Extends.refl Desk.Extends.trans
      (move_extends env) hx) ?_
    rintro l' result ⟨_, hext⟩ item rfl call' since' caller payload v hcall' hrequest _
    rw [hext.1, hcall] at hcall'
    rw [← (Prod.mk.inj (some.inj hcall')).1, hnone] at hrequest
    nomatch hrequest
  cases call with
  | mutate adapter caller payload => exact map_follows (mutate_follows hcall) fun _ _ h => h
  | replay caller payload => exact replay_follows hcall
  | reconcile =>
    exact hother rfl (bind_follows (reconcileMutationsOnce_follows hcall)
      fun _ _ _ => pure_follows trivial)
  | heartbeat id token =>
    refine hother rfl (bind_follows (m := fun _ _ => True)
      (ask_bind_follows (fun h => (nomatch h)) fun now _ => ?_)
      fun _ _ _ => pure_follows trivial)
    exact change_any (fun _ ht => (nomatch ht)) (fun _ _ _ h => (nomatch h)) rfl

end

end Apex.Services
