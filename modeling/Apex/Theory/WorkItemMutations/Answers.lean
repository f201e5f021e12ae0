import Apex.Theory.WorkItemMutations.Desk

/-!
# What One Answer Does To The Mutations

What holds of the rows and of the workers of the mutation service at every
moment, and how an answer keeps it.

A scope is bound to one row for ever: whoever inserts a row saw the scope free
and without a tombstone after it was called, so a row retired in between would
have had to outlive the retention period within the lifetime of one request.
The row a worker acts on is stored while it acts, for the same reason.

## Main definitions

* `DispatchInv`: What every interleaving keeps.
* `Answered`: A worker was answered at a moment when that held.

## Theorems

* `Answered.store_after`: An answer keeps what holds of the rows.
* `Answered.desks_after`: An answer keeps what the workers know.
* `Answered.possible`: A worker is told what it expects.
-/

namespace Apex.Services

open List Function
open Option hiding or_self
open Domain Persistence

/-- The workers of the mutation service. None outlives the retention period. -/
def dispatchSystem (ι : Type) [DecidableEq ι] (env : WorkItemEnv) :
    System (MutationWorld ι MutationCall) ι MutationRequest MutationRequest.Answer
      (Except MutationError (Option WorkItem)) :=
  mutationSystem env (MutationCall.program env)
    (fun since now => now < since + terminalReplayRetention)

/-- An answer given to a worker of the mutation service. -/
abbrev MutationEvent (ι : Type) :=
  System.Event (MutationWorld ι MutationCall) ι MutationRequest MutationRequest.Answer

def claimAsked : MutationRequest → Option String
  | .change id (.claim _ _ _) => some id
  | _ => none

def servedId {ι : Type} [DecidableEq ι] (events : List (MutationEvent ι)) (i : ι) :
    Option String :=
  events.foldl (fun served e =>
    if e.worker = i then (claimAsked e.request).or served else served) none

/-- The row a call of the tracker is made for: its worker claimed it, it is stored,
    the call carries what it holds, and the worker runs a call that may act on it. -/
structure CallsFor {ι : Type} [DecidableEq ι] (env : WorkItemEnv)
    (before : List (MutationEvent ι)) (e : MutationEvent ι) (row : WorkItemMutation) : Prop where
  claimed : servedId before e.worker = some row.id
  live : e.before.store.rows row.id = some row
  carries : IsFor row e.request
  serves : ∃ call since, e.before.calls e.worker = some (call, since) ∧ call.Serves env row

theorem servedId_append {ι : Type} [DecidableEq ι] (events : List (MutationEvent ι))
    (e : MutationEvent ι) (i : ι) :
    servedId (events ++ [e]) i
      = if e.worker = i then (claimAsked e.request).or (servedId events i)
        else servedId events i := by
  unfold servedId
  rw [foldl_append]
  rfl

variable {now : Instant} {written : WorkItemMutation} {op : Operation}

variable {row row' : WorkItemMutation}

theorem flushed_fields :
    (row.flushed written now).claimToken = written.claimToken ∧
      (∀ k : Attempt, k.recorded (row.flushed written now) = k.recorded written) ∧
      (row.flushed written now = row ∨ (row.flushed written now).updatedAt = now) := by
  unfold WorkItemMutation.flushed
  by_cases hsame : written = row
  · rw [if_pos hsame, hsame]
    exact ⟨rfl, fun _ => rfl, Or.inl rfl⟩
  · rw [if_neg hsame]
    exact ⟨rfl, fun k => by cases k <;> rfl, Or.inr rfl⟩

theorem write_token {token : String} (h : op.decide row = .write written)
    (htoken : (row.flushed written now).claimToken = some token) :
    row.claimToken = some token ∨ ∃ at' ignoreBackoff, op = .claim token at' ignoreBackoff := by
  rw [flushed_fields.1, (Operation.write_cases h).1] at htoken
  cases op
  case claim token' at' ignoreBackoff =>
    exact Or.inr ⟨at', ignoreBackoff, by rw [some.inj htoken]⟩
  case markStep token' step => cases step <;> exact Or.inl htoken
  case markProviderAttempted => exact Or.inl htoken
  case markCommentAttempted => exact Or.inl htoken
  case renew => exact Or.inl htoken
  all_goals nomatch htoken

theorem write_recorded (h : op.decide row = .write written) (k : Attempt) :
    k.recorded (row.flushed written now) = k.recorded row ∨
      (marks op = some k ∧ k.recorded row = none ∧
        ∃ token, op.claimToken = some token ∧ row.claimToken = some token ∧
          (row.flushed written now).claimToken = some token) := by
  rcases Operation.write_cases h with ⟨hwritten, _, hlicence⟩
  rw [flushed_fields.2.1, flushed_fields.1, hwritten]
  have hmark : ∀ {token}, op.claimToken = some token → op.takeoverAt = none →
      row.claimToken = some token ∧ op.resolved row = false := by
    intro token htoken hnone
    rcases hlicence with ⟨token', htoken', howned, hresolved⟩ | ⟨at', htake, _⟩
    · rw [htoken, some.injEq] at htoken'
      rw [htoken']
      exact ⟨(Operation.ownedBy_iff.mp howned).2, hresolved⟩
    · rw [hnone] at htake
      nomatch htake
  cases op
  case markProviderAttempted token at' =>
    cases k
    · rcases hmark rfl rfl with ⟨htoken, hresolved⟩
      refine Or.inr ⟨rfl, ?_, token, rfl, htoken, htoken⟩
      exact not_isSome_iff_eq_none.mp (by rw [Bool.not_eq_true]; exact hresolved)
    · exact Or.inl rfl
  case markCommentAttempted token at' =>
    cases k
    · exact Or.inl rfl
    · rcases hmark rfl rfl with ⟨htoken, hresolved⟩
      refine Or.inr ⟨rfl, ?_, token, rfl, htoken, htoken⟩
      exact not_isSome_iff_eq_none.mp (by rw [Bool.not_eq_true]; exact hresolved)
  case markStep token step => cases step <;> cases k <;> exact Or.inl rfl
  all_goals (cases k <;> exact Or.inl rfl)

theorem recorded_advances (h : RowAdvances row row') (k : Attempt)
    (hsome : (k.recorded row).isSome = true) : (k.recorded row').isSome = true := by
  rcases isSome_iff_exists.mp hsome with ⟨t, ht⟩
  cases k
  · rw [show Attempt.recorded row' .create = some t from h.providerAttempted t ht]
    rfl
  · rw [show Attempt.recorded row' .comment = some t from h.commentAttempted t ht]
    rfl

theorem IsFor.advances {r : MutationRequest} (h : IsFor row r)
    (hadvances : RowAdvances row row') : IsFor row' r := by
  cases r <;> simp only [IsFor] at h ⊢ <;>
    simpa only [hadvances.providerMarker, hadvances.payload, hadvances.targetKey] using h

theorem settled_of_keep (h : op.decide row = .keep)
    (htake : op.takeoverAt.isSome = true) : row.status.isTerminal = true := by
  cases op <;> simp only [Operation.takeoverAt, isSome_none, Bool.false_eq_true] at htake
  all_goals
    cases hterminal : row.status.isTerminal with
    | true => rfl
    | false =>
      simp only [Operation.decide, hterminal, Bool.false_eq_true, if_false, ite_eq_iff,
        reduceCtorEq, and_false, or_self] at h

theorem open_of_write (h : op.decide row = .write written) (htake : op.takeoverAt.isSome = true) :
    (row.flushed written now).status.isTerminal = false := by
  have hstatus : (row.flushed written now).status = written.status := by
    unfold WorkItemMutation.flushed
    by_cases hsame : written = row
    · rw [if_pos hsame, hsame]
    · rw [if_neg hsame]
  rw [hstatus, (Operation.write_cases h).1]
  cases op <;> simp only [Operation.takeoverAt, isSome_none, Bool.false_eq_true] at htake
  all_goals rfl

def SeenRow {ι : Type} (events : List (MutationEvent ι)) (s : MutationStore ι)
    (row : WorkItemMutation) : Prop :=
  s.rows row.id = some row ∨ ∃ e ∈ events, e.before.store.rows row.id = some row

structure StoreInv {ι : Type} (env : WorkItemEnv) (events : List (MutationEvent ι))
    (s : MutationStore ι) : Prop where
  drawn : ∀ row, SeenRow events s row → s.issued row.id ≠ none
  marked : ∀ row, SeenRow events s row → row.providerMarker = providerMarkerOf row.id
  tokens : ∀ id row token, s.rows id = some row → row.claimToken = some token →
    s.issued token ≠ none
  rows : ∀ id row, s.rows id = some row → row.id = id ∧ row.Consistent ∧
    row.updatedAt ≤ s.clock
  -- A scope is bound to one row, and to the payload of that row.
  one : ∀ row row', SeenRow events s row → SeenRow events s row' → row.scope = row'.scope →
    row.id = row'.id ∧ row.payload = row'.payload
  -- A row that is gone left a tombstone, and was last changed long ago.
  gone : ∀ row, SeenRow events s row → s.rows row.id = none →
    s.tombstones (mutationScopeHash env row.scope) ≠ none ∧
      ∃ last, SeenRow events s last ∧ last.scope = row.scope ∧
        last.updatedAt + terminalReplayRetention ≤ s.clock
  kept : ∀ row, SeenRow events s row → ∀ stored, s.rows row.id = some stored →
    RowAdvances row stored
  past : ∀ e ∈ events, ∀ row, e.before.store.rows row.id = some row →
    e.after.store.rows row.id = none → s.rows row.id = none

theorem SeenRow.append {ι : Type} {events : List (MutationEvent ι)} {e : MutationEvent ι}
    (h : SeenRow events e.before.store row) :
    SeenRow (events ++ [e]) e.after.store row := by
  rcases h with hrow | ⟨e', he', hrow⟩
  · exact Or.inr ⟨e, mem_append.mpr (Or.inr (mem_singleton.mpr rfl)), hrow⟩
  · exact Or.inr ⟨e', mem_append.mpr (Or.inl he'), hrow⟩

def Posted {ι : Type} (events : List (MutationEvent ι)) (k : Attempt) (id : String) : Prop :=
  ∃ e ∈ events, posts e.request = some (k, providerMarkerOf id)

/-- Nobody but one worker made or may make an attempt. -/
def Clear {ι : Type} (events : List (MutationEvent ι)) (places : ι → Desk) (i : ι) (k : Attempt)
    (id : String) : Prop :=
  ¬ Posted events k id ∧
    ∀ j, j ≠ i → ∀ row token, (places j).Holds row token (.permitted k) → row.id ≠ id

/-- What a stage of a claim says of the stored row. -/
def StageFact {ι : Type} (events : List (MutationEvent ι)) (s : MutationStore ι)
    (places : ι → Desk) (i : ι) (token : String) (row : WorkItemMutation) : Stage → Prop
  | .fresh => ∀ stored, s.rows row.id = some stored → stored.claimToken = some token →
      ∀ k : Attempt, k.recorded row = none → k.recorded stored = none
  | .marking k => ∀ stored, s.rows row.id = some stored → stored.claimToken = some token →
      (k.recorded stored).isSome = true → Clear events places i k row.id
  | .permitted k => Clear events places i k row.id ∧
      ∀ stored, s.rows row.id = some stored → (k.recorded stored).isSome = true
  | .spent => True

structure DeskInv {ι : Type} [DecidableEq ι] (env : WorkItemEnv)
    (events : List (MutationEvent ι)) (w : MutationWorld ι MutationCall) (i : ι) (l : Desk) :
    Prop where
  time : l.time ≤ w.store.clock
  call : l.call = w.calls i
  since : ∀ call since, w.calls i = some (call, since) → since ≤ w.store.clock
  name : ∀ name, l.name = some name → w.store.issued name = some i ∧
    (∀ row, SeenRow events w.store row → row.id ≠ name) ∧
      ∀ id row, w.store.rows id = some row → row.claimToken ≠ some name
  -- Whatever was stored under a scope seen free was inserted by somebody else since.
  vacancy : ∀ scope checked, l.vacancy = some (scope, checked) →
    ∀ call since, w.calls i = some (call, since) → ∀ row, SeenRow events w.store row →
      row.scope = scope → since ≤ row.updatedAt ∨
        (checked = false ∧ w.store.tombstones (mutationScopeHash env scope) ≠ none)
  bound : ∀ row ∈ l.bound, SeenRow events w.store row
  claim : ∀ c, l.claim = some c → w.store.issued c.token = some i ∧
    servedId events i = some c.id ∧
      ∀ call since, w.calls i = some (call, since) → ∀ stored, w.store.rows c.id = some stored →
        stored.claimToken = some c.token → since ≤ stored.updatedAt
  -- The row of a claim is stored, or the worker is past its lifetime.
  lease : ∀ c row stage, l.claim = some c → c.lease = some (row, stage) → row.id = c.id ∧
    SeenRow events w.store row ∧
      ∀ call since, w.calls i = some (call, since) →
        (∀ stored, w.store.rows c.id = some stored → since ≤ stored.updatedAt) ∧
          (w.store.rows c.id = none → since + terminalReplayRetention ≤ w.store.clock)

structure DispatchInv {ι : Type} [DecidableEq ι] (env : WorkItemEnv)
    (events : List (MutationEvent ι)) (w : MutationWorld ι MutationCall) (places : ι → Desk) :
    Prop where
  store : StoreInv env events w.store
  desks : ∀ i, DeskInv env events w i (places i)
  stages : ∀ i c row stage, (places i).claim = some c → c.lease = some (row, stage) →
    StageFact events w.store places i c.token row stage
  posted : ∀ k id, Posted events k id → (∃ row, SeenRow events w.store row ∧ row.id = id) ∧
    ∀ stored, w.store.rows id = some stored → (k.recorded stored).isSome = true
  calls : ∀ before e, before ++ [e] <+: events → e.request.isProviderCall = true →
    ∃ row, CallsFor env before e row
  -- Nobody makes an attempt for a row for which it was made.
  once : ∀ before e, before ++ [e] <+: events → ∀ k marker, posts e.request = some (k, marker) →
    ∀ e' ∈ before, posts e'.request ≠ some (k, marker)
  retired : ∀ before e, before ++ [e] <+: events → ∀ e' ∈ before, ∀ row,
    e'.before.store.rows row.id = some row → e'.after.store.rows row.id = none →
      e.before.store.rows row.id = none

/-- What an answer did to the store, some time later. -/
structure StoreStep {ι : Type} (env : WorkItemEnv) (r : MutationRequest)
    (s s' : MutationStore ι) : Prop where
  origin : ∀ id row', s'.rows id = some row' → s.rows id = some row' ∨
    (∃ op row written, r = .change id op ∧ s.rows id = some row ∧
      op.decide row = .write written ∧ row' = row.flushed written s.clock) ∨
    (∃ row, r = .insert row ∧ row.id = id ∧ s.rows id = none ∧ s.Vacant row.scope ∧
      row' = { row with updatedAt := s.clock })
  fate : ∀ id row, s.rows id = some row → s'.rows id ≠ none ∨
    (∃ cutoff limit, r = .retire cutoff limit ∧ row.status.isTerminal = true ∧
      row.updatedAt < cutoff ∧ s'.rows id = none ∧
      s'.tombstones (mutationScopeHash env row.scope) ≠ none)
  clock : s.clock ≤ s'.clock
  issued : ∀ name owner, s.issued name = some owner → s'.issued name = some owner
  tombstones : ∀ scopeHash, s.tombstones scopeHash ≠ none → s'.tombstones scopeHash ≠ none

structure Answered {ι : Type} [DecidableEq ι] (env : WorkItemEnv)
    (events : List (MutationEvent ι)) (w : MutationWorld ι MutationCall) (places : ι → Desk)
    (i : ι) (r : MutationRequest) (a : r.Answer) (w' : MutationWorld ι MutationCall) : Prop where
  inv : DispatchInv env events w places
  allowed : (places i).allowed env r
  respond : (dispatchSystem ι env).respond i w r a w'

def desksAfter {ι : Type} [DecidableEq ι] (env : WorkItemEnv) (places : ι → Desk) (i : ι)
    (r : MutationRequest) (a : r.Answer) : ι → Desk :=
  Function.update places i ((places i).move env r a)

def spends : MutationRequest → Option String
  | .insert row => some row.id
  | .change _ (.claim token _ _) => some token
  | _ => none

def Shows : (r : MutationRequest) → r.Answer → WorkItemMutation → Prop
  | .get _, a, row => a = .ok (some row)
  | .getByScope _, a, row => a = .ok (some row)
  | .insert _, a, row => a = .committed row
  | .change _ _, a, row => a = .found row ∨ a = .committed row
  | _, _, _ => False

def named : MutationRequest → Option String
  | .get id => some id
  | .change id _ => some id
  | _ => none

/-- A claim may be told a new stage, and a row that is stored under its token. -/
def Claim.Keeps {ι : Type} (s : MutationStore ι) (c c' : Claim) : Prop :=
  c'.token = c.token ∧ c'.id = c.id ∧ ∀ row stage, c'.lease = some (row, stage) →
    (∃ stage', c.lease = some (row, stage')) ∨
      (s.rows row.id = some row ∧ row.id = c.id ∧ row.claimToken = some c.token)

section

variable {ι : Type} {s : MutationStore ι} {c : Claim} {row : WorkItemMutation}

theorem keeps_refl : c.Keeps s c := ⟨rfl, rfl, fun _ stage h => Or.inl ⟨stage, h⟩⟩

theorem keeps_restage {f : WorkItemMutation × Stage → Stage} :
    c.Keeps s { c with lease := c.lease.map fun held => (held.1, f held) } := by
  refine ⟨rfl, rfl, fun row stage hlease => Or.inl ?_⟩
  rcases map_eq_some_iff.mp hlease with ⟨held, hheld, heq⟩
  rw [Prod.mk.injEq] at heq
  exact ⟨held.2, by rw [hheld, ← heq.1]⟩

theorem keeps_told {lease : Option (WorkItemMutation × Stage)} (hrow : s.rows row.id = some row)
    (hid : row.id = c.id) (howned : row.ownedBy c.token = true)
    (hlease : ∀ held, lease = some held → held.1 = row) : c.Keeps s { c with lease := lease } := by
  refine ⟨rfl, rfl, fun row' stage h => Or.inr ?_⟩
  have heq : row' = row := hlease _ h
  rw [heq]
  exact ⟨hrow, hid, (Operation.ownedBy_iff.mp howned).2⟩

theorem keeps_read (hrow : s.rows row.id = some row) : c.Keeps s (c.read row) := by
  unfold Claim.read
  by_cases hmine : row.id = c.id ∧ row.ownedBy c.token = true
  · rw [if_pos hmine]
    have htold : ∀ stage, c.Keeps s { c with lease := some (row, stage) } := fun stage =>
      keeps_told hrow hmine.1 hmine.2 fun held h => by rw [← some.inj h]
    rcases c.lease with _ | ⟨old, stage⟩
    · exact htold .fresh
    · cases stage
      case marking k => exact htold _
      all_goals exact htold _
  · rw [if_neg hmine]
    exact keeps_refl

theorem keeps_returned {id : String} {op : Operation} (hrow : s.rows row.id = some row)
    (hid : row.id = id) : c.Keeps s (c.returned id op row) := by
  unfold Claim.returned
  by_cases hmine : c.id = id ∧ row.ownedBy c.token = true
  · rw [if_pos hmine]
    refine keeps_told hrow (hid.trans hmine.1.symm) hmine.2 fun held h => ?_
    rcases map_eq_some_iff.mp h with ⟨old, _, heq⟩
    rw [← heq]
  · rw [if_neg hmine]
    exact keeps_refl

theorem keeps_unanswered {op : Operation} : c.Keeps s (c.unanswered op) := by
  unfold Claim.unanswered
  cases marks op with
  | none => exact keeps_refl
  | some k => exact keeps_restage

end

theorem read_cases (c : Claim) (row : WorkItemMutation) :
    c.read row = c ∨ (row.id = c.id ∧ row.ownedBy c.token = true ∧
      ((c.lease = none ∧ c.read row = { c with lease := some (row, .fresh) }) ∨
        ∃ old stage, c.lease = some (old, stage) ∧
          (c.read row = { c with lease := some (row, stage) } ∨
            ∃ k, stage = .marking k ∧ (k.recorded row).isSome = true ∧
              c.read row = { c with lease := some (row, .permitted k) }))) := by
  unfold Claim.read
  by_cases hmine : row.id = c.id ∧ row.ownedBy c.token = true
  · rw [if_pos hmine]
    refine Or.inr ⟨hmine.1, hmine.2, ?_⟩
    rcases hlease : c.lease with _ | ⟨old, stage⟩
    · exact Or.inl ⟨rfl, rfl⟩
    · refine Or.inr ⟨old, stage, rfl, ?_⟩
      cases stage with
      | marking k =>
        cases hsome : (k.recorded row).isSome with
        | true => exact Or.inr ⟨k, rfl, hsome, by simp only [hsome, if_true]⟩
        | false => exact Or.inl (by simp only [hsome, Bool.false_eq_true, if_false])
      | _ => exact Or.inl rfl
  · rw [if_neg hmine]
    exact Or.inl rfl

theorem claim_or_other (op : Operation) :
    (∃ token now ignoreBackoff, op = .claim token now ignoreBackoff) ∨
      ∀ token now ignoreBackoff, op ≠ .claim token now ignoreBackoff := by
  cases op
  case claim token now ignoreBackoff => exact Or.inl ⟨token, now, ignoreBackoff, rfl⟩
  all_goals exact Or.inr fun _ _ _ h => nomatch h

theorem afterChange_cases (l : Desk) (id : String) (a : ChangeAnswer)
    (hop : ∀ token now ignoreBackoff, op ≠ .claim token now ignoreBackoff) :
    (∃ row, (a = .found row ∨ a = .committed row) ∧
      l.afterChange id op a = { l with claim := l.claim.map (·.returned id op row) }) ∨
    ((∀ row, a ≠ .found row ∧ a ≠ .committed row) ∧
      l.afterChange id op a = { l with claim := l.claim.map (·.unanswered op) }) := by
  cases a
  case found row =>
    refine Or.inl ⟨row, Or.inl rfl, ?_⟩
    cases op <;> first | rfl | exact absurd rfl (hop _ _ _)
  case committed row =>
    refine Or.inl ⟨row, Or.inr rfl, ?_⟩
    cases op <;> first | rfl | exact absurd rfl (hop _ _ _)
  all_goals
    refine Or.inr ⟨fun row => ⟨fun h => (nomatch h), fun h => (nomatch h)⟩, ?_⟩
    cases op <;> first | rfl | exact absurd rfl (hop _ _ _)

theorem DeskInv.with_claim {ι : Type} [DecidableEq ι] {env : WorkItemEnv}
    {events : List (MutationEvent ι)} {w : MutationWorld ι MutationCall} {i : ι} {l : Desk}
    {f : Claim → Claim} (hl : DeskInv env events w i l) (hf : ∀ c : Claim, c.Keeps w.store (f c)) :
    DeskInv env events w i { l with claim := l.claim.map f } := by
  refine { hl with claim := fun c' hc' => ?_, lease := fun c' row stage hc' hlease => ?_ }
  · rcases map_eq_some_iff.mp hc' with ⟨c, hc, rfl⟩
    rcases hf c with ⟨htoken, hid, _⟩
    rw [htoken, hid]
    exact hl.claim c hc
  · rcases map_eq_some_iff.mp hc' with ⟨c, hc, rfl⟩
    rcases hf c with ⟨_, hid, hheld⟩
    rw [hid]
    rcases hheld row stage hlease with ⟨stage', hold⟩ | ⟨hrow, hrowid, htoken⟩
    · exact hl.lease c row stage' hc hold
    · rw [hrowid] at hrow
      refine ⟨hrowid, Or.inl (by rw [hrowid]; exact hrow), fun call since hcall => ⟨?_, ?_⟩⟩
      · intro stored hstored
        refine (hl.claim c hc).2.2 call since hcall stored hstored ?_
        rw [hrow, some.injEq] at hstored
        rw [← hstored]
        exact htoken
      · intro hnone
        rw [hrow] at hnone
        nomatch hnone

namespace Answered

variable {ι : Type} [DecidableEq ι] {env : WorkItemEnv} {events : List (MutationEvent ι)}
  {w w' : MutationWorld ι MutationCall} {places : ι → Desk} {i : ι} {r : MutationRequest}
  {a : r.Answer}

theorem step (h : Answered env events w places i r a w') :
    StoreStep env r w.store w'.store ∧ w'.calls = w.calls := by
  rcases h.respond with ⟨call, since, s, _, _, hanswers, ⟨hrows, htombstones, hissued, hclock⟩,
    hcalls⟩
  rcases MutationStore.answers_rows hanswers with ⟨hfrom, hto⟩
  rcases MutationStore.answers_keep hanswers with ⟨hsame, hdrawn, hbound⟩
  refine ⟨⟨?_, ?_, ?_, ?_, ?_⟩, hcalls⟩
  · rw [hrows]
    exact hfrom
  · rw [hrows, htombstones]
    exact hto
  · rw [← hsame]
    exact hclock
  · rw [hissued]
    exact hdrawn
  · rw [htombstones]
    exact hbound

theorem alive (h : Answered env events w places i r a w') :
    ∃ call since, w.calls i = some (call, since) ∧
      w.store.clock < since + terminalReplayRetention := by
  rcases h.respond with ⟨call, since, _, hcall, halive, _⟩
  exact ⟨call, since, hcall, halive⟩

theorem spender (h : Answered env events w places i r a w') {name : String}
    (hname : spends r = some name) : (places i).name = some name := by
  cases r <;> simp only [spends, reduceCtorEq] at hname
  case insert row =>
    rw [← some.inj hname]
    exact h.allowed.1
  case change id op =>
    cases op <;> simp only [reduceCtorEq] at hname
    rw [← some.inj hname]
    exact (h.allowed.2.1 _ _ _ rfl).1

variable {row row' stored' : WorkItemMutation} {id : String}

section

variable (h : Answered env events w places i r a w')

include h

theorem insert_unseen (hr : r = .insert row)
    (hvacant : w.store.Vacant row.scope) :
    ∀ old, SeenRow events w.store old → old.id ≠ row.id ∧ old.scope ≠ row.scope := by
  subst hr
  rcases h.allowed with ⟨hname, hfree, _⟩
  rcases h.alive with ⟨call, since, hcall, halive⟩
  refine fun old hold => ⟨((h.inv.desks i).name _ hname).2.1 old hold, fun hscope => ?_⟩
  -- The old row is gone, but it was changed within the lifetime of this worker.
  have hgone : w.store.rows old.id = none := by
    refine eq_none_iff_forall_ne_some.mpr fun stored hstored => ?_
    exact hvacant old.id stored hstored
      ((h.inv.store.kept old hold stored hstored).scope.trans hscope)
  rcases h.inv.store.gone old hold hgone with ⟨_, last, hlast, hlastscope, hlong⟩
  rcases (h.inv.desks i).vacancy _ _ hfree call since hcall last hlast
    (hlastscope.trans hscope) with hsince | ⟨hchecked, _⟩
  · have hle := Int.add_le_add_right hsince terminalReplayRetention
    exact absurd (Int.lt_of_lt_of_le halive hle) (Int.not_lt.mpr hlong)
  · nomatch hchecked

/-- A row stored now was stored before and has advanced since, or is new in every
    respect. -/
theorem stored_after
    (hrow' : w'.store.rows id = some row') :
    (∃ row, w.store.rows id = some row ∧ RowAdvances row row' ∧ row'.Consistent ∧
      (row' = row ∨ ∃ op written, r = .change id op ∧ op.decide row = .write written ∧
        row' = row.flushed written w.store.clock)) ∨
    (∃ row, r = .insert row ∧ row.id = id ∧ row' = { row with updatedAt := w.store.clock } ∧
      ∀ old, SeenRow events w.store old → old.id ≠ id ∧ old.scope ≠ row.scope) := by
  rcases h.step.1.origin id row' hrow' with hsame | ⟨op, row, written, hr, hrow, hdecide, heq⟩ |
      ⟨row, hr, hid, hfree, hvacant, heq⟩
  · exact Or.inl ⟨row', hsame, RowAdvances.refl row', (h.inv.store.rows id row' hsame).2.1,
      Or.inl rfl⟩
  · rcases h.inv.store.rows id row hrow with ⟨_, hconsistent, hclock⟩
    refine Or.inl ⟨row, hrow, ?_, ?_, Or.inr ⟨op, written, hr, hdecide, heq⟩⟩
    · rw [heq]
      exact advances_write hdecide hclock
    · rw [heq]
      exact consistent_write hdecide hclock hconsistent
  · refine Or.inr ⟨row, hr, hid, heq, ?_⟩
    rw [← hid]
    exact h.insert_unseen hr hvacant

theorem continues (hrow : SeenRow events w.store row)
    (hstored' : w'.store.rows row.id = some stored') :
    ∃ stored, w.store.rows row.id = some stored ∧ RowAdvances row stored ∧ RowAdvances stored stored' := by
  rcases h.stored_after hstored' with ⟨stored, hstored, hadvances, _⟩ | ⟨_, _, _, _, hunseen⟩
  · exact ⟨stored, hstored, h.inv.store.kept row hrow stored hstored, hadvances⟩
  · exact absurd rfl (hunseen row hrow).1

theorem seen_after
    (hrow' : SeenRow (events ++ [⟨i, w, r, a, w'⟩]) w'.store row') :
    (∃ row, SeenRow events w.store row ∧ RowAdvances row row') ∨
    (∃ row, r = .insert row ∧ row' = { row with updatedAt := w.store.clock } ∧
      w'.store.rows row'.id = some row' ∧
      ∀ old, SeenRow events w.store old → old.id ≠ row'.id ∧ old.scope ≠ row'.scope) := by
  rcases hrow' with hstored | ⟨e, he, hrow⟩
  · rcases h.stored_after hstored with ⟨row, hrow, hadvances, _⟩ | ⟨row, hr, hid, heq, hunseen⟩
    · refine Or.inl ⟨row, Or.inl ?_, hadvances⟩
      rw [(h.inv.store.rows _ _ hrow).1]
      exact hrow
    · refine Or.inr ⟨row, hr, heq, hstored, fun old hold => ⟨(hunseen old hold).1, ?_⟩⟩
      rw [heq]
      exact (hunseen old hold).2
  · rcases mem_append.mp he with hold | hlast
    · exact Or.inl ⟨row', Or.inr ⟨e, hold, hrow⟩, RowAdvances.refl row'⟩
    · rw [mem_singleton.mp hlast] at hrow
      exact Or.inl ⟨row', Or.inl hrow, RowAdvances.refl row'⟩

theorem store_after :
    StoreInv env (events ++ [⟨i, w, r, a, w'⟩]) w'.store where
  drawn row' hrow' := by
    have hissued : ∃ owner, w.store.issued row'.id = some owner := by
      rcases h.seen_after hrow' with ⟨row, hrow, hadvances⟩ | ⟨row, hr, heq, _⟩
      · rw [hadvances.id]
        exact ne_none_iff_exists'.mp (h.inv.store.drawn row hrow)
      · have hname : (places i).name = some row.id := h.spender (by rw [hr]; rfl)
        rw [heq]
        exact ⟨i, ((h.inv.desks i).name _ hname).1⟩
    rcases hissued with ⟨owner, howner⟩
    rw [h.step.1.issued _ owner howner]
    exact some_ne_none owner
  marked row' hrow' := by
    rcases h.seen_after hrow' with ⟨row, hrow, hadvances⟩ | ⟨row, hr, heq, _⟩
    · rw [hadvances.providerMarker, hadvances.id]
      exact h.inv.store.marked row hrow
    · subst hr
      rw [heq]
      exact h.allowed.2.2.2.2.1
  tokens id row' token hrow' htoken := by
    have hissued : ∃ owner, w.store.issued token = some owner := by
      rcases h.stored_after hrow' with ⟨row, hrow, _, _, hwrite⟩ | ⟨row, hr, _, heq, _⟩
      · have hold := ne_none_iff_exists'.mp ∘ h.inv.store.tokens id row token hrow
        rcases hwrite with rfl | ⟨op, written, hr, hdecide, heq⟩
        · exact hold htoken
        · rw [heq] at htoken
          rcases write_token hdecide htoken with hrowtoken | ⟨at', ignoreBackoff, hop⟩
          · exact hold hrowtoken
          · have hname : (places i).name = some token := h.spender (by rw [hr, hop]; rfl)
            exact ⟨i, ((h.inv.desks i).name _ hname).1⟩
      · subst hr
        rw [heq] at htoken
        have hnone : row.claimToken = none := h.allowed.2.2.2.1
        rw [show row.claimToken = some token from htoken] at hnone
        nomatch hnone
    rcases hissued with ⟨owner, howner⟩
    rw [h.step.1.issued _ owner howner]
    exact some_ne_none owner
  rows id row' hrow' := by
    rcases h.stored_after hrow' with ⟨row, hrow, hadvances, hconsistent, hwrite⟩ |
        ⟨row, hr, hid, heq, _⟩
    · rcases h.inv.store.rows id row hrow with ⟨hid, _, hclock⟩
      refine ⟨hadvances.id.trans hid, hconsistent, Int.le_trans ?_ h.step.1.clock⟩
      rcases hwrite with rfl | ⟨op, written, _, hdecide, rfl⟩
      · exact hclock
      · rcases flushed_eq (op.mutate_keeps row).2.2.2.2.2.2.2 hclock with ⟨t, ht, _, hle, _⟩
        rw [(Operation.write_cases hdecide).1, ht]
        exact hle
    · subst hr
      rcases h.allowed with ⟨_, _, hconsistent, _⟩
      rw [heq, ← hid]
      exact ⟨rfl, ⟨hconsistent.token, hconsistent.lease⟩, h.step.1.clock⟩
  one row row' hrow hrow' hscope := by
    rcases h.seen_after hrow with ⟨old, hold, hadvances⟩ | ⟨new, hr, heq, _, hunseen⟩
    · rcases h.seen_after hrow' with ⟨old', hold', hadvances'⟩ | ⟨_, _, _, _, hunseen⟩
      · rw [hadvances.id, hadvances.payload, hadvances'.id, hadvances'.payload]
        exact h.inv.store.one old old' hold hold'
          (hadvances.scope.symm.trans (hscope.trans hadvances'.scope))
      · exact absurd (hadvances.scope.symm.trans hscope) (hunseen old hold).2
    · rcases h.seen_after hrow' with ⟨old', hold', hadvances'⟩ | ⟨new', hr', heq', _⟩
      · exact absurd (hadvances'.scope.symm.trans hscope.symm) (hunseen old' hold').2
      · rw [hr, MutationRequest.insert.injEq] at hr'
        rw [heq, heq', hr']
        exact ⟨rfl, rfl⟩
  gone row' hrow' hgone := by
    rcases h.seen_after hrow' with ⟨row, hrow, hadvances⟩ | ⟨_, _, _, hstored, _⟩
    · rw [hadvances.id] at hgone
      rw [hadvances.scope]
      cases hbefore : w.store.rows row.id with
      | none =>
        rcases h.inv.store.gone row hrow hbefore with ⟨hbound, last, hlast, hlastscope, hlong⟩
        exact ⟨h.step.1.tombstones _ hbound, last, hlast.append, hlastscope,
          Int.le_trans hlong h.step.1.clock⟩
      | some stored =>
        have hstoredscope := (h.inv.store.kept row hrow stored hbefore).scope
        rcases h.step.1.fate row.id stored hbefore with hthere |
            ⟨cutoff, limit, rfl, _, hcutoff, _, hbound⟩
        · exact absurd hgone hthere
        · rw [hstoredscope] at hbound
          refine ⟨hbound, stored, SeenRow.append (Or.inl ?_), hstoredscope, ?_⟩
          · rw [(h.inv.store.rows _ _ hbefore).1]
            exact hbefore
          · have hlong := Int.add_le_add_right (Int.le_of_lt hcutoff) terminalReplayRetention
            exact Int.le_trans hlong (Int.le_trans h.allowed
              (Int.le_trans (h.inv.desks i).time h.step.1.clock))
    · rw [hstored] at hgone
      nomatch hgone
  kept row hrow stored' hstored' := by
    have hold : SeenRow events w.store row → RowAdvances row stored' := fun hseen => by
      rcases h.continues hseen hstored' with ⟨stored, _, hbefore, hafter⟩
      exact hbefore.trans hafter
    rcases hrow with hnow | ⟨e, he, hwas⟩
    · rw [hnow, some.injEq] at hstored'
      rw [hstored']
      exact RowAdvances.refl stored'
    · rcases mem_append.mp he with hmem | hlast
      · exact hold (Or.inr ⟨e, hmem, hwas⟩)
      · rw [mem_singleton.mp hlast] at hwas
        exact hold (Or.inl hwas)
  past e he row hrow hgone := by
    rcases mem_append.mp he with hmem | hlast
    · refine eq_none_iff_forall_ne_some.mpr fun row' hrow' => ?_
      rcases h.continues (Or.inr ⟨e, hmem, hrow⟩) hrow' with ⟨stored, hstored, _⟩
      rw [h.inv.store.past e hmem row hrow hgone] at hstored
      nomatch hstored
    · rw [mem_singleton.mp hlast] at hgone
      exact hgone

/-- What a desk says stays so, if its identifier is not the one that is spent and its
    claim is not replaced. -/
theorem desk_later {j : ι} {l : Desk}
    (hl : DeskInv env events w j l) (hname : ∀ name, l.name = some name → spends r ≠ some name)
    (hclaim : l.claim ≠ none → j ≠ i ∨ claimAsked r = none) :
    DeskInv env (events ++ [⟨i, w, r, a, w'⟩]) w' j l where
  time := Int.le_trans hl.time h.step.1.clock
  call := by
    rw [h.step.2]
    exact hl.call
  since call since hcall := by
    rw [h.step.2] at hcall
    exact Int.le_trans (hl.since call since hcall) h.step.1.clock
  name name hdrawn := by
    rcases hl.name name hdrawn with ⟨howner, hunseen, htokens⟩
    refine ⟨h.step.1.issued _ _ howner, fun row' hrow' => ?_, fun id row' hrow' htoken => ?_⟩
    · rcases h.seen_after hrow' with ⟨row, hrow, hadvances⟩ | ⟨row, hr, heq, _⟩
      · rw [hadvances.id]
        exact hunseen row hrow
      · rw [heq]
        exact fun hid => hname name hdrawn (by rw [hr, ← hid]; rfl)
    · rcases h.stored_after hrow' with ⟨row, hrow, _, _, hwrite⟩ | ⟨row, hr, _, heq, _⟩
      · rcases hwrite with rfl | ⟨op, written, hr, hdecide, heq⟩
        · exact htokens id row' hrow htoken
        · rw [heq] at htoken
          rcases write_token hdecide htoken with hrowtoken | ⟨at', ignoreBackoff, hop⟩
          · exact htokens id row hrow hrowtoken
          · exact hname name hdrawn (by rw [hr, hop]; rfl)
      · subst hr
        rw [heq] at htoken
        have hnone : row.claimToken = none := h.allowed.2.2.2.1
        rw [show row.claimToken = some name from htoken] at hnone
        nomatch hnone
  vacancy scope checked hfree call since hcall row' hrow' hscope := by
    rw [h.step.2] at hcall
    rcases h.seen_after hrow' with ⟨row, hrow, hadvances⟩ | ⟨row, _, heq, _⟩
    · rcases hl.vacancy scope checked hfree call since hcall row hrow
        (hadvances.scope.symm.trans hscope) with hsince | ⟨hchecked, hbound⟩
      · exact Or.inl (Int.le_trans hsince hadvances.updatedAt)
      · exact Or.inr ⟨hchecked, h.step.1.tombstones _ hbound⟩
    · rw [heq]
      exact Or.inl (hl.since call since hcall)
  bound row hrow := (hl.bound row hrow).append
  claim c hc := by
    rcases hl.claim c hc with ⟨howner, hserved, hsince⟩
    have hother : j ≠ i ∨ claimAsked r = none := hclaim (by rw [hc]; exact some_ne_none c)
    refine ⟨h.step.1.issued _ _ howner, ?_, fun call since hcall row' hrow' htoken => ?_⟩
    · rw [servedId_append]
      rcases hother with hne | hnone
      · rw [if_neg (fun heq => hne heq.symm)]
        exact hserved
      · rw [hnone, none_or, ite_self]
        exact hserved
    · rw [h.step.2] at hcall
      rcases h.stored_after hrow' with ⟨row, hrow, hadvances, _, hwrite⟩ | ⟨row, _, _, heq, _⟩
      · refine Int.le_trans (hsince call since hcall row hrow ?_) hadvances.updatedAt
        rcases hwrite with rfl | ⟨op, written, hr, hdecide, heq⟩
        · exact htoken
        · rw [heq] at htoken
          refine (write_token hdecide htoken).resolve_right fun ⟨at', ignoreBackoff, hop⟩ => ?_
          rcases hother with hne | hnone
          · -- The worker that claims under this token has drawn it.
            have hmine := ((h.inv.desks i).name _ (h.spender (by rw [hr, hop]; rfl))).1
            rw [howner, some.injEq] at hmine
            exact hne hmine
          · rw [hr, hop] at hnone
            nomatch hnone
      · rw [heq]
        exact hl.since call since hcall
  lease c row stage hc hlease := by
    rcases hl.lease c row stage hc hlease with ⟨hid, hseen, hthere⟩
    refine ⟨hid, hseen.append, fun call since hcall => ?_⟩
    rw [h.step.2] at hcall
    rcases hthere call since hcall with ⟨hsince, hlong⟩
    refine ⟨fun stored' hstored' => ?_, fun hgone => ?_⟩
    · rw [← hid] at hstored'
      rcases h.continues hseen hstored' with ⟨stored, hstored, _, hadvances⟩
      rw [hid] at hstored
      exact Int.le_trans (hsince stored hstored) hadvances.updatedAt
    · cases hbefore : w.store.rows c.id with
      | none => exact Int.le_trans (hlong hbefore) h.step.1.clock
      | some stored =>
        rcases h.step.1.fate c.id stored hbefore with hstays | ⟨cutoff, limit, rfl, _, hcutoff, _⟩
        · exact absurd hgone hstays
        · have hold := Int.lt_of_le_of_lt (hsince stored hbefore) hcutoff
          have hle := Int.add_le_add_right (Int.le_of_lt hold) terminalReplayRetention
          exact Int.le_trans hle (Int.le_trans h.allowed
            (Int.le_trans (h.inv.desks i).time h.step.1.clock))

theorem shown
    (hrow : Shows r a row) : w'.store.rows row.id = some row ∧ ∀ id, named r = some id → row.id = id := by
  rcases h.respond with ⟨_, _, s, _, _, hanswers, ⟨hrows, _⟩, _⟩
  rw [hrows]
  have hnamed : ∀ {id}, s.rows id = some row → row.id = id →
      s.rows row.id = some row ∧ ∀ id', some id = some id' → row.id = id' := by
    rintro id hstored rfl
    exact ⟨hstored, fun id' => some.inj⟩
  cases r <;> simp only [Shows] at hrow
  case get id =>
    have hstored : w.store.rows id = some row := (hanswers.1 _ hrow).symm
    exact hnamed (by rw [hanswers.2]; exact hstored) (h.inv.store.rows _ _ hstored).1
  case getByScope scope =>
    rw [hanswers.2.2]
    exact ⟨(hanswers.2.1 row hrow).1, fun _ hid => (nomatch hid)⟩
  case insert new =>
    subst hrow
    rcases hanswers with ⟨_, _, _, rfl, rfl⟩
    exact ⟨update_self _ _ _, fun _ hid => (nomatch hid)⟩
  case change id op =>
    rcases hrow with rfl | rfl
    · exact hnamed (by rw [hanswers.2.2]; exact hanswers.1) (h.inv.store.rows _ _ hanswers.1).1
    · rcases hanswers with ⟨before, written, hbefore, hdecide, rfl, rfl⟩
      rcases h.inv.store.rows id before hbefore with ⟨hid, _, hclock⟩
      exact hnamed (update_self _ _ _) ((advances_write hdecide hclock).id.trans hid)

theorem claimed {token : String} {now : Instant}
    {ignoreBackoff : Bool} (hr : r = .change id (.claim token now ignoreBackoff))
    (hstored' : w'.store.rows id = some stored')
    (htoken : stored'.claimToken = some token) : stored'.updatedAt = w.store.clock := by
  have hname : (places i).name = some token := h.spender (by rw [hr]; rfl)
  rcases (h.inv.desks i).name token hname with ⟨_, _, htokens⟩
  rcases h.stored_after hstored' with ⟨row, hrow, _, _, hwrite⟩ | ⟨_, hr', _⟩
  · have hnot := htokens id row hrow
    rcases hwrite with rfl | ⟨op, written, _, _, heq⟩
    · exact absurd htoken hnot
    · have hflushed : row.flushed written w.store.clock = row ∨
          (row.flushed written w.store.clock).updatedAt = w.store.clock := flushed_fields.2.2
      rcases hflushed with hsame | hnow
      · rw [heq, hsame] at htoken
        exact absurd htoken hnot
      · rw [heq]
        exact hnow
  · rw [hr] at hr'
    nomatch hr'

theorem desk_moved :
    DeskInv env (events ++ [⟨i, w, r, a, w'⟩]) w' i ((places i).move env r a) := by
  have hl := h.inv.desks i
  have hresp := h.respond
  have hkeep : spends r = none → claimAsked r = none →
      DeskInv env (events ++ [⟨i, w, r, a, w'⟩]) w' i (places i) := fun hs hc =>
    h.desk_later hl (fun name _ hname => by rw [hs] at hname; nomatch hname) fun _ => Or.inr hc
  cases r
  case now =>
    rcases hresp with ⟨_, _, s, _, _, ⟨rfl, rfl⟩, ⟨_, _, _, hclock⟩, _⟩
    exact { hkeep rfl rfl with time := hclock }
  case uuid4 =>
    rcases hresp with ⟨_, _, s, _, _, ⟨hfresh, rfl⟩, ⟨hrows, _, hissued, _⟩, _⟩
    refine { hkeep rfl rfl with
      name := fun name hname => ?_
      claim := fun c hc => (nomatch hc)
      lease := fun c row stage hc => (nomatch hc) }
    rw [← some.inj hname]
    refine ⟨?_, fun row hrow hid => ?_, fun id row hrow htoken => ?_⟩
    · rw [hissued]
      exact update_self _ _ _
    · rcases h.seen_after hrow with ⟨old, hold, hadvances⟩ | ⟨_, hr, _⟩
      · refine h.inv.store.drawn old hold ?_
        rw [← hadvances.id, hid]
        exact hfresh
      · nomatch hr
    · rw [hrows] at hrow
      exact h.inv.store.tokens id row _ hrow htoken hfresh
  case getByScope scope =>
    rcases a with e | _ | row
    · exact hkeep rfl rfl
    · rcases hresp with ⟨_, _, s, _, _, ⟨hvacant, _, rfl⟩, ⟨hrows, htombstones, _, _⟩, _⟩
      refine { hkeep rfl rfl with vacancy := fun free checked hfree call since hcall row hrow hscope => ?_ }
      rcases Prod.mk.inj (some.inj hfree) with ⟨rfl, rfl⟩
      refine Or.inr ⟨rfl, ?_⟩
      rw [← hscope]
      refine (h.store_after.gone row hrow ?_).1
      refine eq_none_iff_forall_ne_some.mpr fun stored hstored => ?_
      have hcontinues := h.store_after.kept row hrow stored hstored
      rw [hrows] at hstored
      exact hvacant rfl row.id stored hstored (hcontinues.scope.trans hscope)
    · refine { hkeep rfl rfl with bound := fun old hold => ?_ }
      rcases mem_cons.mp hold with rfl | hmem
      · exact Or.inl ((h.shown (r := .getByScope scope) rfl).1)
      · exact (hl.bound old hmem).append
  case getTombstone scopeHash =>
    rcases a with e | _ | tombstone
    · exact hkeep rfl rfl
    · rcases hresp with ⟨_, _, s, _, _, ⟨hfound, rfl⟩, ⟨hrows, htombstones, _, _⟩, _⟩
      refine { hkeep rfl rfl with
        vacancy := fun free checked hfree call since hcall row hrow hscope => ?_ }
      rcases map_eq_some_iff.mp hfree with ⟨⟨free', checked'⟩, hold, heq⟩
      rw [Prod.mk.injEq] at heq
      rcases heq with ⟨rfl, rfl⟩
      rcases (hkeep rfl rfl).vacancy free' checked' hold call since hcall row hrow hscope with
        hsince | ⟨rfl, hbound⟩
      · exact Or.inl hsince
      · refine Or.inr ⟨beq_eq_false_iff_ne.mpr fun hhash => hbound ?_, hbound⟩
        rw [hhash, htombstones]
        exact (hfound none rfl).symm
    · exact hkeep rfl rfl
  case get id =>
    rcases a with e | _ | row
    · exact hkeep rfl rfl
    · exact hkeep rfl rfl
    · exact (hkeep rfl rfl).with_claim fun c => keeps_read (h.shown (r := .get id) rfl).1
  case insert row =>
    have hfree : DeskInv env (events ++ [⟨i, w, .insert row, a, w'⟩]) w' i
        { places i with name := none, vacancy := none } :=
      h.desk_later { hl with
        name := fun _ hname => (nomatch hname)
        vacancy := fun _ _ hvacancy => (nomatch hvacancy) } (fun _ hname => (nomatch hname))
        fun _ => Or.inr rfl
    cases a
    case committed stored =>
      refine { hfree with bound := fun old hold => ?_ }
      rcases mem_cons.mp hold with rfl | hmem
      · exact Or.inl ((h.shown (r := .insert row) rfl).1)
      · exact (hl.bound old hmem).append
    all_goals exact hfree
  case change id op =>
    rcases claim_or_other op with ⟨token, now, ignoreBackoff, rfl⟩ | hother
    · rcases h.allowed.2.1 token now ignoreBackoff rfl with ⟨hname, _⟩
      rcases hl.name token hname with ⟨howner, _, _⟩
      have hfree : DeskInv env
          (events ++ [⟨i, w, .change id (.claim token now ignoreBackoff), a, w'⟩]) w' i
          { places i with name := none, claim := none } :=
        h.desk_later { hl with
          name := fun _ hname => (nomatch hname)
          claim := fun _ hc => (nomatch hc)
          lease := fun _ _ _ hc => (nomatch hc) } (fun _ hname => (nomatch hname))
          fun hc => absurd rfl hc
      -- The claim is known by its token, whether or not it was granted.
      have hclaim : ∀ lease, (∀ row stage, lease = some (row, stage) →
          w'.store.rows row.id = some row ∧ row.id = id ∧ row.claimToken = some token) →
          DeskInv env (events ++ [⟨i, w, .change id (.claim token now ignoreBackoff), a, w'⟩]) w' i
            { places i with name := none, claim := some ⟨token, id, lease⟩ } := by
        intro lease hlease
        refine { hfree with claim := fun c hc => ?_, lease := fun c row stage hc hheld => ?_ }
        · rw [← some.inj hc]
          refine ⟨h.step.1.issued _ _ howner, ?_, fun call since hcall stored' hstored' htoken => ?_⟩
          · rw [servedId_append, if_pos rfl]
            rfl
          · rw [h.claimed rfl hstored' htoken]
            rw [h.step.2] at hcall
            exact hl.since call since hcall
        · rw [← some.inj hc] at hheld ⊢
          rcases hlease row stage hheld with ⟨hrow, hid, htoken⟩
          refine ⟨hid, Or.inl hrow, fun call since hcall => ⟨fun stored' hstored' => ?_, ?_⟩⟩
          · change w'.store.rows id = some stored' at hstored'
            rw [h.step.2] at hcall
            rw [h.claimed rfl hstored' ?_]
            · exact hl.since call since hcall
            · rw [← hid, hrow, some.injEq] at hstored'
              rw [← hstored']
              exact htoken
          · intro hnone
            change w'.store.rows id = none at hnone
            rw [← hid, hrow] at hnone
            nomatch hnone
      cases a
      case committed row =>
        refine hclaim _ fun row' stage heq => ?_
        rcases Prod.mk.inj (some.inj heq) with ⟨rfl, _⟩
        rcases h.shown (r := .change id _) (Or.inr rfl) with ⟨hrow, hid⟩
        refine ⟨hrow, hid id rfl, ?_⟩
        rcases hresp with ⟨_, _, _, _, _, ⟨before, written, _, hdecide, rfl, _⟩, _⟩
        rw [flushed_fields.1, (Operation.write_cases hdecide).1]
        rfl
      all_goals exact hclaim none fun _ _ hlease => (nomatch hlease)
    · have hlater := hkeep (by cases op <;> first | rfl | exact absurd rfl (hother _ _ _))
        (by cases op <;> first | rfl | exact absurd rfl (hother _ _ _))
      rcases afterChange_cases (places i) id a hother with
        ⟨row, hshows, heq⟩ | ⟨_, heq⟩
      · have hrow := h.shown (r := .change id op) hshows
        rw [show (places i).move env (.change id op) a = _ from heq]
        exact hlater.with_claim fun c => keeps_returned hrow.1 (hrow.2 id rfl)
      · rw [show (places i).move env (.change id op) a = _ from heq]
        exact hlater.with_claim fun c => keeps_unanswered
  case createItem draft marker =>
    exact (hkeep rfl rfl).with_claim fun c => keeps_restage (f := fun _ => .spent)
  case addItemComment key comment marker =>
    exact (hkeep rfl rfl).with_claim fun c => keeps_restage (f := fun _ => .spent)
  all_goals exact hkeep rfl rfl

theorem desks_after (j : ι) :
    DeskInv env (events ++ [⟨i, w, r, a, w'⟩]) w' j (desksAfter env places i r a j) := by
  by_cases hj : j = i
  · subst hj
    unfold desksAfter
    rw [update_self]
    exact h.desk_moved
  · unfold desksAfter
    rw [update_of_ne hj]
    refine h.desk_later (h.inv.desks j) (fun name hname hspends => ?_) fun _ => Or.inl hj
    -- Nobody else has drawn this identifier.
    have howner := ((h.inv.desks i).name name (h.spender hspends)).1
    rw [((h.inv.desks j).name name hname).1, some.injEq] at howner
    exact hj howner

theorem shown_continues
    (hrow : Shows r a row) : (places i).Continues row := by
  have hstored := (h.shown hrow).1
  have hl := h.inv.desks i
  refine ⟨fun old hold hid => ?_, fun old token stage hholds hid => ?_⟩
  · exact h.store_after.kept old (hl.bound old hold).append row (by rw [hid]; exact hstored)
  · exact h.store_after.kept old (hl.lease _ old stage hholds rfl).2.1.append row
      (by rw [hid]; exact hstored)

theorem possible : (places i).possible r a := by
  have hresp := h.respond
  cases r
  case get id =>
    exact fun row hrow => ⟨(h.shown (r := .get id) hrow).2 id rfl,
      h.shown_continues (r := .get id) hrow⟩
  case getByScope scope =>
    rcases hresp with ⟨_, _, _, _, _, ⟨_, hsome, _⟩, _⟩
    exact fun row hrow => (hsome row hrow).2
  case insert row =>
    rintro stored rfl
    rcases hresp with ⟨_, _, _, _, _, ⟨_, _, _, rfl, _⟩, _⟩
    exact ⟨rfl, rfl⟩
  case change id op =>
    have hshown : ∀ row, a = .found row ∨ a = .committed row → row.id = id ∧
        (places i).Continues row := fun row hrow =>
      ⟨(h.shown (r := .change id op) hrow).2 id rfl, h.shown_continues (r := .change id op) hrow⟩
    refine fun row => ⟨fun hfound => ?_, fun hcommitted => ?_⟩
    · rcases hshown row (Or.inl hfound) with ⟨hid, hcontinues⟩
      subst hfound
      rcases hresp with ⟨_, _, _, _, _, ⟨_, hdecide, _⟩, _⟩
      exact ⟨hid, hcontinues, done_of_keep hdecide, settled_of_keep hdecide⟩
    · rcases hshown row (Or.inr hcommitted) with ⟨hid, hcontinues⟩
      subst hcommitted
      rcases hresp with ⟨_, _, _, _, _, ⟨_, _, _, hdecide, rfl, _⟩, _⟩
      exact ⟨hid, hcontinues, done_of_write hdecide, open_of_write hdecide⟩
  all_goals exact trivial

end

end Answered

end Apex.Services
