import Apex.Theory.Consumers.Reach

/-!
# No Admin Extends Its Reach

Every handler works on a row of the table that the admin may manage, or on a new
one, and what it writes may be handed out. So whatever a request changes lies
within the reach of the admin before and after it, and so does whatever it shows.
Admins who pool the keys they know therefore never get beyond what they could reach
together at first.

Nothing else of a consumer out of reach is told either, except that its name is
taken: names are unique over the whole table.

## Main definitions

* `Confined`: What a request may change and show.
* `AdminRun`: Requests of any admins, one after another.
* `Collusion`: Requests of admins whose keys are known, and the keys they learn.
* `Alike`: Two tables an admin cannot tell apart.

## Theorems

* `handle_confined`: Every request is confined.
* `collusion_reach`: What known keys reach never grows.
* `handle_alike`: What an admin cannot tell apart it is answered alike.
* `scoped_admins_confined`: All of it.
-/

namespace Apex.Routers

open List Option
open Auth Persistence

open Services (Instant)

section Rows

variable {env : ConsumersEnv} {identity : ConsumerIdentity} {facts : RequestFacts}
  {table : Consumers} {row : ApiConsumer} {id : String}

theorem get_some : table.get id = some row ↔ table.find id = some row ∧ row.deletedAt = none := by
  rw [Consumers.get, filter_eq_some_iff, isNone_iff_eq_none]

theorem manageable_ok : manageable identity table id = .ok row ↔
    table.get id = some row ∧ canManageConsumer identity row = .ok true := by
  constructor
  · intro h
    rcases bind_ok.mp h with ⟨found, hfound, h⟩
    rcases bind_ok.mp h with ⟨can, hcan, h⟩
    rcases bind_ok.mp h with ⟨_, hraise, h⟩
    rw [raiseIf_ok, Bool.not_eq_false'] at hraise
    cases pure_ok.mp h
    exact ⟨someOr_ok.mp hfound, hraise ▸ hcan⟩
  · rintro ⟨hget, hcan⟩
    refine bind_ok.mpr ⟨row, someOr_ok.mpr hget, bind_ok.mpr ⟨true, hcan, ?_⟩⟩
    exact bind_ok.mpr ⟨(), (raiseIf_ok _ _ _).mpr rfl, rfl⟩

theorem validatedScope_ok {ref : ScopeRef} {stored : ConsumerScope}
    (h : validatedScope env.toConsumerEnv ref = .ok stored) : stored = scopeRow ref := by
  rcases bind_ok.mp h with ⟨_, _, h⟩
  rcases bind_ok.mp h with ⟨_, _, h⟩
  exact (pure_ok.mp h).symm

theorem validatedConsumerScopes_ok {scopes : List ScopeRef} {rows : List ConsumerScope}
    (h : validatedConsumerScopes env.toConsumerEnv scopes = .ok rows) :
    rows = scopes.map scopeRow := by
  rcases bind_ok.mp h with ⟨_, _, h⟩
  rcases bind_ok.mp h with ⟨validated, hvalidated, h⟩
  rcases bind_ok.mp h with ⟨_, _, h⟩
  rcases bind_ok.mp h with ⟨_, _, h⟩
  rw [← pure_ok.mp h, ← forall₂_eq_eq_eq, forall₂_map_right_iff]
  exact (mapM_ok.mp hvalidated).flip.imp fun ref stored hstored => validatedScope_ok hstored

theorem consumerReach_canonical {refs : List ScopeRef} (h : row.scopes = refs.map scopeRow) :
    consumerReach row = reach (storedIdentity row refs) := by
  ext a
  simp only [consumerReach, scopeRefs_canonical h, Except.ok.injEq, exists_eq_left',
    Set.mem_ofPred_eq]

variable {keyId : String} {existing : ApiConsumer}

theorem newConsumer_ok {draft : ConsumerDraft} {keyHash : String} {createdAt : Instant}
    (h : newConsumer env.toConsumerEnv draft id keyId keyHash createdAt = .ok row) :
    row.id = id ∧ row.role = draft.role ∧ row.scopes = draft.scopes.map scopeRow ∧
      row.name = draft.name ∧ row.keyHash = keyHash ∧
      ∃ key ∈ row.keys, key.keyHash = keyHash := by
  rcases bind_ok.mp h with ⟨_, _, h⟩
  rcases bind_ok.mp h with ⟨_, _, h⟩
  rcases bind_ok.mp h with ⟨_, _, h⟩
  rcases bind_ok.mp h with ⟨scopes, hscopes, h⟩
  cases pure_ok.mp h
  exact ⟨rfl, rfl, validatedConsumerScopes_ok hscopes, rfl, rfl, _, mem_singleton_self _, rfl⟩

theorem preparedCreation_ok {body : ConsumerCreateRequest}
    (h : preparedCreation env identity facts body table = .ok row) :
    row.id = facts.newId ∧ consumerReach row ⊆ reach identity ∧
      env.hashApiKey facts.apiKey = .ok row.keyHash ∧
      ∃ key ∈ row.keys, key.keyHash = row.keyHash := by
  rcases bind_ok.mp h with ⟨_, _, h⟩
  rcases bind_ok.mp h with ⟨_, _, h⟩
  rcases bind_ok.mp h with ⟨_, _, h⟩
  rcases bind_ok.mp h with ⟨_, hgrant, h⟩
  rcases bind_ok.mp h with ⟨_, _, h⟩
  rcases bind_ok.mp h with ⟨keyHash, hhash, h⟩
  rcases newConsumer_ok h with ⟨hid, hrole, hscopes, _, hkeyHash, hheld⟩
  rw [← hkeyHash] at hhash hheld
  refine ⟨hid, ?_, hhash, hheld⟩
  rw [consumerReach_canonical hscopes]
  refine reach_of_grant (storedIdentity row body.scopes) ?_
  rw [storedIdentity, hrole]
  exact hgrant

theorem updatedConsumer_ok {patch : ConsumerPatch}
    (h : updatedConsumer env.toConsumerEnv existing patch = .ok row) :
    row.id = existing.id ∧ row.role = patch.role.getD existing.role ∧
      patchedScopes env.toConsumerEnv existing patch.scopes = .ok row.scopes ∧
      row.name = patch.name.getD existing.name ∧ row.deletedAt = existing.deletedAt := by
  rcases bind_ok.mp h with ⟨_, _, h⟩
  rcases bind_ok.mp h with ⟨scopes, hscopes, h⟩
  rcases bind_ok.mp h with ⟨keys, _, h⟩
  cases pure_ok.mp h
  exact ⟨rfl, rfl, hscopes, rfl, rfl⟩

/-- An updated consumer has what may be handed out, whichever of its role and scopes the
    update leaves as they are. -/
theorem preparedUpdate_ok {body : ConsumerUpdateRequest}
    (h : preparedUpdate env identity facts id body table = .ok row) :
    (∃ existing, manageable identity table id = .ok existing ∧ row.id = existing.id) ∧
      consumerReach row ⊆ reach identity := by
  rcases bind_ok.mp h with ⟨_, _, h⟩
  rcases bind_ok.mp h with ⟨_, _, h⟩
  rcases bind_ok.mp h with ⟨existing, hexisting, h⟩
  rcases bind_ok.mp h with ⟨_, _, h⟩
  rcases bind_ok.mp h with ⟨next, hnext, h⟩
  rcases bind_ok.mp h with ⟨_, hgrant, h⟩
  rcases updatedConsumer_ok h with ⟨hid, hrole, hscopes, _⟩
  refine ⟨⟨existing, hexisting, hid⟩, ?_⟩
  rw [show body.role.getD existing.role = row.role from hrole.symm] at hgrant
  have hrefs : scopeRefs row = .ok next := by
    cases hbody : body.scopes with
    | none =>
      rw [hbody] at hnext hscopes
      rw [scopeRefs, ← pure_ok.mp hscopes]
      exact hnext
    | some scopes =>
      rw [hbody] at hnext hscopes
      cases pure_ok.mp hnext
      exact scopeRefs_canonical (validatedConsumerScopes_ok hscopes)
  rintro a ⟨scopes, hscopes', ha⟩
  rw [hrefs] at hscopes'
  cases Except.ok.inj hscopes'
  exact reach_of_grant (storedIdentity row next) hgrant ha

theorem preparedDeletion_ok (h : preparedDeletion env identity facts id table = .ok row) :
    (∃ existing, manageable identity table id = .ok existing ∧ row.id = existing.id) ∧
      consumerReach row ⊆ reach identity := by
  rcases bind_ok.mp h with ⟨_, _, h⟩
  rcases bind_ok.mp h with ⟨existing, hexisting, h⟩
  rcases bind_ok.mp h with ⟨_, _, h⟩
  cases pure_ok.mp h
  have hreach : consumerReach (deletedConsumer existing (some identity.consumerId) facts.storeNow)
      = consumerReach existing := consumerReach_congr rfl rfl
  rw [hreach]
  exact ⟨⟨existing, hexisting, rfl⟩, reach_of_canManage (manageable_ok.mp hexisting).2⟩

theorem rotatedConsumer_ok {rotation : KeyRotation} {parentKeyId : String} {now : Instant}
    (h : rotatedConsumer env.toConsumerEnv existing rotation parentKeyId keyId now = .ok row) :
    row.id = existing.id ∧ row.role = existing.role ∧ row.scopes = existing.scopes ∧
      row.name = existing.name ∧ row.deletedAt = existing.deletedAt ∧
      row.keyHash = rotation.keyHash ∧ ∃ key ∈ row.keys, key.keyHash = rotation.keyHash := by
  rcases bind_ok.mp h with ⟨keys, _, h⟩
  cases pure_ok.mp h
  exact ⟨rfl, rfl, rfl, rfl, rfl, rfl, _, mem_append_right _ (mem_singleton_self _), rfl⟩

theorem preparedRotation_ok {body : RotateConsumerKeyRequest}
    (h : preparedRotation env identity facts id body table = .ok row) :
    (∃ existing, manageable identity table id = .ok existing ∧ row.id = existing.id) ∧
      consumerReach row ⊆ reach identity ∧ env.hashApiKey facts.apiKey = .ok row.keyHash ∧
      ∃ key ∈ row.keys, key.keyHash = row.keyHash := by
  rcases bind_ok.mp h with ⟨_, _, h⟩
  rcases bind_ok.mp h with ⟨existing, hexisting, h⟩
  rcases bind_ok.mp h with ⟨_, _, h⟩
  rcases bind_ok.mp h with ⟨_, _, h⟩
  rcases bind_ok.mp h with ⟨_, _, h⟩
  rcases bind_ok.mp h with ⟨keyHash, hhash, h⟩
  rcases bind_ok.mp h with ⟨_, _, h⟩
  rcases rotatedConsumer_ok h with ⟨hid, hrole, hscopes, _, _, hkeyHash, hheld⟩
  have hsame : row.keyHash = keyHash := hkeyHash
  refine ⟨⟨existing, hexisting, hid⟩, ?_, hsame.symm ▸ hhash, hkeyHash.symm ▸ hheld⟩
  rw [consumerReach_congr hrole hscopes]
  exact reach_of_canManage (manageable_ok.mp hexisting).2

end Rows

/-- A change of a row that lies within the reach of an admin before and after. -/
structure Within (identity : ConsumerIdentity) (table : Consumers) (row : ApiConsumer) : Prop where
  before : ∀ old, table.find row.id = some old → consumerReach old ⊆ reach identity
  after : consumerReach row ⊆ reach identity

variable {row : ApiConsumer} {identity : ConsumerIdentity} {table table₀ : Consumers}
  {env : ConsumersEnv}

theorem within_of_manageable {existing : ApiConsumer} {id : String}
    (hexisting : manageable identity table id = .ok existing) (hid : row.id = existing.id)
    (hafter : consumerReach row ⊆ reach identity) : Within identity table row where
  before old hold := by
    rcases manageable_ok.mp hexisting with ⟨hget, hcan⟩
    have hfind := (get_some.mp hget).1
    rw [hid, Consumers.find_id hfind, hfind] at hold
    rw [← some.inj hold]
    exact reach_of_canManage hcan
  after := hafter

theorem commitNameWrite_ok {outcome : CommitOutcome} {resolveKeyHash : Option String}
    {now : Instant} {answer : ConsumerAnswer}
    (hresolve : ∀ keyHash, resolveKeyHash = some keyHash → keyHash = row.keyHash)
    (h : commitNameWrite table row resolveKeyHash outcome now = .ok answer) :
    (outcome.table table row).find row.id = some answer.row ∧ answer.responseKeyHash = row.keyHash ∧
      (answer.row = row ∨ ∃ key ∈ answer.row.keys, key.keyHash = row.keyHash) := by
  -- What a fresh session finds is stored and holds the expected key.
  have hresolved : ∀ readable, resolvedAnswer (outcome.table table row) row.id resolveKeyHash
      readable now = some answer →
      (outcome.table table row).find row.id = some answer.row ∧
        answer.responseKeyHash = row.keyHash ∧
        (answer.row = row ∨ ∃ key ∈ answer.row.keys, key.keyHash = row.keyHash) := by
    intro readable hanswer
    cases readable with
    | false => exact nomatch hanswer
    | true =>
      rcases bind_eq_some_iff.mp hanswer with ⟨keyHash, hkeyHash, hstored⟩
      rcases map_eq_some_iff.mp hstored with ⟨stored, hfound, rfl⟩
      rw [resolveCredentialCommit, filter_eq_some_iff, Bool.and_eq_true, List.any_eq_true] at hfound
      rcases hfound with ⟨hfind, ⟨key, hkey, hmatch⟩, _⟩
      rw [Bool.and_eq_true, beq_iff_eq] at hmatch
      have hsame := hresolve keyHash hkeyHash
      exact ⟨hfind, hsame, Or.inr ⟨key, hkey, hmatch.1.trans hsame⟩⟩
  have hraised : ∀ readable, resolvedOr (.failed "DBAPIError")
      (resolvedAnswer (outcome.table table row) row.id resolveKeyHash readable now) = .ok answer →
      resolvedAnswer (outcome.table table row) row.id resolveKeyHash readable now
        = some answer := by
    intro readable hok
    cases hanswer : resolvedAnswer (outcome.table table row) row.id resolveKeyHash readable now with
    | none =>
      rw [hanswer] at hok
      exact nomatch hok
    | some found =>
      rw [hanswer] at hok
      exact congrArg some (Except.ok.inj hok)
  cases outcome with
  | acknowledged =>
    cases h
    exact ⟨Consumers.find_put table row, rfl, Or.inl rfl⟩
  | duplicateName => exact nomatch h
  | integrityError => exact nomatch h
  | failed readable => exact hresolved readable (hraised readable h)
  | lost readable => exact hresolved readable (hraised readable h)

def ConsumerReply.consumers : ConsumerReply → List ConsumerRead
  | listed consumers => consumers
  | read consumer => [consumer]
  | created consumer _ => [consumer]
  | deleted => []

/-- The consumer whose key a request returns, if it returns one. -/
def keyOwner (facts : RequestFacts) : ConsumerRequest → Option String
  | .create _ => some facts.newId
  | .rotate id _ => some id
  | _ => none

/-- What a request changes lies within the reach of the admin before and after it; what it
    shows are consumers within the reach; and a key it returns is one of its owner, which
    lies within the reach. -/
structure Confined (env : ConsumersEnv) (identity : ConsumerIdentity) (owner : Option String)
    (before after : Consumers) (result : Except ConsumerError ConsumerReply) : Prop where
  changed : ∀ id, before.find id ≠ after.find id →
    (∀ row, before.find id = some row → consumerReach row ⊆ reach identity) ∧
      ∀ row, after.find id = some row → consumerReach row ⊆ reach identity
  kept : ∀ id, (before.find id).isSome = true → (after.find id).isSome = true
  shown : ∀ reply, result = .ok reply → ∀ consumer ∈ reply.consumers, ∃ row keyHash,
    after.find row.id = some row ∧ readModel env.toConsumerEnv ⟨row, keyHash⟩ = .ok consumer ∧
      consumerReach row ⊆ reach identity
  key : ∀ consumer apiKey, result = .ok (.created consumer apiKey) → ∃ row keyHash,
    owner = some row.id ∧ after.find row.id = some row ∧ readModel env.toConsumerEnv ⟨row, keyHash⟩ = .ok consumer ∧
      consumerReach row ⊆ reach identity ∧ env.hashApiKey apiKey = .ok keyHash ∧
      ∃ key ∈ row.keys, key.keyHash = keyHash

section Requests

variable {env : ConsumersEnv} {identity : ConsumerIdentity} {facts : RequestFacts}
  {table : Consumers} {row : ApiConsumer} {id : String} {owner : Option String}

theorem confined_error (error : ConsumerError) :
    Confined env identity owner table table (.error error) where
  changed _ h := absurd rfl h
  kept _ h := h
  shown _ h := nomatch h
  key _ _ h := nomatch h

theorem table_find (outcome : CommitOutcome) (table : Consumers) (row : ApiConsumer)
    (id : String) : (outcome.table table row).find id = table.find id ∨
      id = row.id ∧ (outcome.table table row).find id = some row := by
  rw [CommitOutcome.table]
  by_cases hcommitted : outcome.committed = true
  · rw [if_pos hcommitted]
    by_cases hid : id = row.id
    · subst hid
      exact Or.inr ⟨rfl, Consumers.find_put table row⟩
    · exact Or.inl (Consumers.find_put_ne table hid)
  · rw [if_neg hcommitted]
    exact Or.inl rfl

theorem confined_written {outcome : CommitOutcome} {resolveKeyHash : ApiConsumer → Option String}
    {now : Instant} {raised : ConsumerError → ConsumerError}
    {reply : ConsumerAnswer → Except ConsumerError ConsumerReply}
    {prepared : Except ConsumerError ApiConsumer}
    (hwithin : ∀ row, prepared = .ok row → Within identity table row)
    (hresolve : ∀ row keyHash, resolveKeyHash row = some keyHash → keyHash = row.keyHash)
    (hreply : ∀ answer answered, reply answer = .ok answered →
      ∀ consumer ∈ answered.consumers, readModel env.toConsumerEnv answer = .ok consumer)
    (hkey : ∀ row answer consumer apiKey, prepared = .ok row →
      reply answer = .ok (.created consumer apiKey) →
      owner = some row.id ∧ env.hashApiKey apiKey = .ok row.keyHash ∧
        ∃ key ∈ row.keys, key.keyHash = row.keyHash) :
    Confined env identity owner table
      (written table resolveKeyHash outcome now raised reply prepared).1
      (written table resolveKeyHash outcome now raised reply prepared).2 := by
  cases hprepared : prepared with
  | error error => exact confined_error (raised error)
  | ok row =>
    have hrow := hwithin row hprepared
    -- Whatever is stored under the key of the row lies within the reach.
    have hstored : ∀ found, (outcome.table table row).find row.id = some found →
        consumerReach found ⊆ reach identity := by
      intro found hfound
      rcases table_find outcome table row row.id with hsame | ⟨_, hnew⟩
      · exact hrow.before found (hsame ▸ hfound)
      · rw [hnew] at hfound
        exact some.inj hfound ▸ hrow.after
    have hchanged : ∀ id, table.find id ≠ (outcome.table table row).find id →
        (∀ row, table.find id = some row → consumerReach row ⊆ reach identity) ∧
          ∀ new, (outcome.table table row).find id = some new →
            consumerReach new ⊆ reach identity := by
      intro id hne
      rcases table_find outcome table row id with hsame | ⟨rfl, _⟩
      · exact absurd hsame.symm hne
      · exact ⟨hrow.before, hstored⟩
    have hkept : ∀ id, (table.find id).isSome = true →
        ((outcome.table table row).find id).isSome = true := by
      intro id hsome
      rcases table_find outcome table row id with hsame | ⟨_, hnew⟩
      · rw [hsame]
        exact hsome
      · rw [hnew]
        rfl
    cases hcommit : commitNameWrite table row (resolveKeyHash row) outcome now with
    | error error =>
      simp only [written, hcommit]
      exact ⟨hchanged, hkept, fun _ h => (nomatch h), fun _ _ h => (nomatch h)⟩
    | ok answer =>
      simp only [written, hcommit]
      rcases commitNameWrite_ok (hresolve row) hcommit with ⟨hfind, hhash, hholds⟩
      have hid : answer.row.id = row.id := Consumers.find_id hfind
      have hinside := hstored answer.row hfind
      rw [← hid] at hfind
      refine ⟨hchanged, hkept, fun answered hanswered consumer hconsumer => ?_,
        fun consumer apiKey hanswered => ?_⟩
      · exact ⟨answer.row, answer.responseKeyHash, hfind,
          hreply answer answered hanswered consumer hconsumer, hinside⟩
      · rcases hkey row answer consumer apiKey hprepared hanswered with ⟨howner, hhashed, hheld⟩
        refine ⟨answer.row, answer.responseKeyHash, hid.symm ▸ howner, hfind,
          hreply answer _ hanswered consumer (mem_singleton_self _), hinside, ?_, ?_⟩
        · rw [hhash]
          exact hhashed
        · rw [hhash]
          rcases hholds with hsame | hholds
          · rw [hsame]
            exact hheld
          · exact hholds

theorem confined_read {result : Except ConsumerError ConsumerReply}
    (hshown : ∀ reply, result = .ok reply → ∀ consumer ∈ reply.consumers, ∃ row keyHash,
      table.find row.id = some row ∧ readModel env.toConsumerEnv ⟨row, keyHash⟩ = .ok consumer ∧
        consumerReach row ⊆ reach identity)
    (hkey : ∀ consumer apiKey, result ≠ .ok (.created consumer apiKey)) :
    Confined env identity owner table table result where
  changed _ h := absurd rfl h
  kept _ h := h
  shown := hshown
  key consumer apiKey h := absurd h (hkey consumer apiKey)

/-- What a list shows are rows of the table that may be managed. -/
theorem shownRows_ok : ∀ (rows : List ApiConsumer) {shown : List ConsumerRead},
    shownRows env identity rows = .ok shown → ∀ consumer ∈ shown, ∃ row ∈ rows,
      readRow env.toConsumerEnv row = .ok consumer ∧ canManageConsumer identity row = .ok true
  | [], shown, h, consumer, hconsumer => by
    rw [← pure_ok.mp h] at hconsumer
    exact absurd hconsumer not_mem_nil
  | row :: rows, shown, h, consumer, hconsumer => by
    rcases bind_ok.mp h with ⟨can, hcan, h⟩
    cases can with
    | false =>
      rcases shownRows_ok rows h consumer hconsumer with ⟨found, hfound, hrest⟩
      exact ⟨found, mem_cons_of_mem _ hfound, hrest⟩
    | true =>
      rcases bind_ok.mp h with ⟨first, hfirst, h⟩
      rcases bind_ok.mp h with ⟨others, hothers, h⟩
      rw [← pure_ok.mp h] at hconsumer
      rcases mem_cons.mp hconsumer with rfl | hconsumer
      · exact ⟨row, mem_cons_self, hfirst, hcan⟩
      · rcases shownRows_ok rows hothers consumer hconsumer with ⟨found, hfound, hrest⟩
        exact ⟨found, mem_cons_of_mem _ hfound, hrest⟩

theorem mem_listAll {allowed : Option (List ScopeRef)} {limit offset : Nat}
    (h : row ∈ table.listAll allowed limit offset) :
    table.find row.id = some row ∧ (listCondition allowed row).selects = true := by
  have hmem := mem_of_mem_drop (mem_of_mem_take h)
  rw [mem_mergeSort, mem_filter, List.mem_map] at hmem
  rcases hmem with ⟨⟨⟨id, stored⟩, hitem, rfl⟩, hselected⟩
  have hfind := Dict.get?_of_mem hitem
  have hid := table.keyed id stored hfind
  exact ⟨hid.symm ▸ hfind, hselected⟩

theorem listConsumers_confined (limit offset : Nat) : Confined env identity owner table table
    (listConsumers env identity limit offset table) := by
  refine confined_read (fun reply hreply consumer hconsumer => ?_) fun consumer apiKey h => ?_
  · rcases bind_ok.mp hreply with ⟨shown, hshown, hreply⟩
    rw [← pure_ok.mp hreply] at hconsumer
    rcases shownRows_ok _ hshown consumer hconsumer with ⟨row, hrow, hread, hcan⟩
    exact ⟨row, row.keyHash, (mem_listAll hrow).1, hread, reach_of_canManage hcan⟩
  · rcases bind_ok.mp h with ⟨_, _, h⟩
    exact nomatch pure_ok.mp h

theorem getConsumer_confined (id : String) : Confined env identity owner table table
    (getConsumer env identity id table) := by
  refine confined_read (fun reply hreply consumer hconsumer => ?_) fun consumer apiKey h => ?_
  · rcases bind_ok.mp hreply with ⟨row, hrow, hreply⟩
    rcases bind_ok.mp hreply with ⟨shown, hshown, hreply⟩
    rw [← pure_ok.mp hreply] at hconsumer
    rw [mem_singleton.mp hconsumer]
    rcases manageable_ok.mp hrow with ⟨hget, hcan⟩
    have hfind := (get_some.mp hget).1
    exact ⟨row, row.keyHash, (Consumers.find_id hfind).symm ▸ hfind, hshown,
      reach_of_canManage hcan⟩
  · rcases bind_ok.mp h with ⟨_, _, h⟩
    rcases bind_ok.mp h with ⟨_, _, h⟩
    exact nomatch pure_ok.mp h

variable {answer : ConsumerAnswer} {answered : ConsumerReply}

theorem createdReply_ok (h : createdReply env facts answer = .ok answered) : ∃ consumer,
    readModel env.toConsumerEnv answer = .ok consumer ∧ answered = .created consumer facts.apiKey := by
  rcases bind_ok.mp h with ⟨consumer, hread, h⟩
  exact ⟨consumer, hread, (pure_ok.mp h).symm⟩

theorem createdReply_shown (h : createdReply env facts answer = .ok answered) :
    ∀ consumer ∈ answered.consumers, readModel env.toConsumerEnv answer = .ok consumer := by
  rcases createdReply_ok h with ⟨shown, hread, rfl⟩
  intro consumer hconsumer
  rw [mem_singleton.mp hconsumer]
  exact hread

theorem createdReply_key {consumer : ConsumerRead} {apiKey : String}
    (h : createdReply env facts answer = .ok (.created consumer apiKey)) :
    apiKey = facts.apiKey := by
  rcases createdReply_ok h with ⟨_, _, hsame⟩
  exact (ConsumerReply.created.inj hsame).2

theorem written_refused (table : Consumers) (resolveKeyHash : ApiConsumer → Option String)
    (now : Instant) (raised : ConsumerError → ConsumerError)
    (reply : ConsumerAnswer → Except ConsumerError ConsumerReply)
    (prepared : Except ConsumerError ApiConsumer) : ∃ error,
    written table resolveKeyHash .integrityError now raised reply prepared
      = (table, .error error) := by
  cases prepared with
  | error error => exact ⟨_, rfl⟩
  | ok row => exact ⟨_, rfl⟩

theorem handle_confined (request : ConsumerRequest) :
    Confined env identity (keyOwner facts request) table
    (handleConsumers env identity facts request table).1
    (handleConsumers env identity facts request table).2 := by
  cases hadmin : requireAdmin identity with
  | error error =>
    simp only [handleConsumers, hadmin]
    exact confined_error error
  | ok _ =>
    simp only [handleConsumers, hadmin]
    cases request with
    | list limit offset => exact listConsumers_confined limit offset
    | get id => exact getConsumer_confined id
    | create body =>
      cases hused : (table.find facts.newId).isSome with
      | true =>
        -- The primary key is in use, and nothing is inserted.
        have hrefused : insertOutcome facts table = .integrityError := if_pos hused
        rcases written_refused table (fun row => some row.keyHash) facts.resolveNow asConflict
          (createdReply env facts) (preparedCreation env identity facts body table)
          with ⟨error, herror⟩
        simp only [hrefused, herror]
        exact confined_error error
      | false =>
        refine confined_written (fun row hrow => ?_) (fun row keyHash h => ?_)
          (fun answer answered h => createdReply_shown h)
          fun row answer consumer apiKey hrow h => ?_
        · rcases preparedCreation_ok hrow with ⟨hid, hreach, _⟩
          refine ⟨fun old hold => ?_, hreach⟩
          rw [hid] at hold
          rw [hold] at hused
          exact absurd hused.symm Bool.false_ne_true
        · exact (some.inj h).symm
        · rcases preparedCreation_ok hrow with ⟨hid, _, hhash⟩
          rw [createdReply_key h]
          exact ⟨congrArg some hid.symm, hhash⟩
    | update id body =>
      refine confined_written (fun row hrow => ?_) (fun _ _ h => (nomatch h))
        (fun answer answered h => ?_) fun row answer consumer apiKey _ h => ?_
      · rcases preparedUpdate_ok hrow with ⟨⟨existing, hexisting, hid⟩, hreach⟩
        exact within_of_manageable hexisting hid hreach
      · rcases bind_ok.mp h with ⟨shown, hread, h⟩
        intro consumer hconsumer
        rw [← pure_ok.mp h] at hconsumer
        rw [mem_singleton.mp hconsumer]
        exact hread
      · rcases bind_ok.mp h with ⟨_, _, h⟩
        exact nomatch pure_ok.mp h
    | delete id =>
      refine confined_written (fun row hrow => ?_) (fun _ _ h => (nomatch h))
        (fun answer answered h => ?_) fun row answer consumer apiKey _ h => ?_
      · rcases preparedDeletion_ok hrow with ⟨⟨existing, hexisting, hid⟩, hreach⟩
        exact within_of_manageable hexisting hid hreach
      · intro consumer hconsumer
        rw [← pure_ok.mp h] at hconsumer
        exact absurd hconsumer not_mem_nil
      · exact nomatch pure_ok.mp h
    | rotate id body =>
      refine confined_written (fun row hrow => ?_) (fun row keyHash h => ?_)
        (fun answer answered h => createdReply_shown h)
        fun row answer consumer apiKey hrow h => ?_
      · rcases preparedRotation_ok hrow with ⟨⟨existing, hexisting, hid⟩, hreach, _⟩
        exact within_of_manageable hexisting hid hreach
      · exact (some.inj h).symm
      · rcases preparedRotation_ok hrow with ⟨⟨existing, hexisting, hid⟩, _, hhash⟩
        have hfind := (get_some.mp (manageable_ok.mp hexisting).1).1
        rw [createdReply_key h]
        exact ⟨congrArg some (hid.trans (Consumers.find_id hfind)).symm, hhash⟩

end Requests

/-- A request of an admin, with the tables around it and what was answered. -/
structure AdminEvent where
  identity : ConsumerIdentity
  facts : RequestFacts
  request : ConsumerRequest
  before : Consumers
  after : Consumers
  result : Except ConsumerError ConsumerReply

inductive AdminRun (env : ConsumersEnv) (table₀ : Consumers) : List AdminEvent → Consumers → Prop
  | start : AdminRun env table₀ [] table₀
  | request {events : List AdminEvent} {table : Consumers} (h : AdminRun env table₀ events table)
      (identity : ConsumerIdentity) (facts : RequestFacts) (request : ConsumerRequest) :
      AdminRun env table₀
        (events ++ [⟨identity, facts, request, table,
          (handleConsumers env identity facts request table).1,
          (handleConsumers env identity facts request table).2⟩])
        (handleConsumers env identity facts request table).1

theorem adminRun_confined {events : List AdminEvent} (h : AdminRun env table₀ events table) :
    ∀ e ∈ events, Confined env e.identity (keyOwner e.facts e.request) e.before e.after e.result := by
  induction h with
  | start => exact fun e he => absurd he not_mem_nil
  | request _ identity facts request ih =>
    intro e he
    rcases mem_append.mp he with hold | hnew
    · exact ih e hold
    · rw [mem_singleton.mp hnew]
      exact handle_confined request

theorem reach_of_identity (h : identityFromConsumer env.toConsumerEnv row = .ok identity) :
    reach identity ⊆ consumerReach row := by
  rcases bind_ok.mp h with ⟨_, _, h⟩
  rcases bind_ok.mp h with ⟨_, _, h⟩
  rcases bind_ok.mp h with ⟨_, _, h⟩
  rcases bind_ok.mp h with ⟨scopes, hscopes, h⟩
  rcases bind_ok.mp h with ⟨_, _, h⟩
  have hid := pure_ok.mp h
  have hrole : identity.role = row.role := by rw [← hid]
  have hsame : identity.scopes = scopes := by rw [← hid]
  have hrefs : scopeRefs row = .ok scopes := by
    refine mapM_ok.mpr ((mapM_ok.mp hscopes).imp fun scope ref href => ?_)
    exact someOr_ok.mpr (someOr_ok.mp href)
  intro a ha
  refine ⟨scopes, hrefs, ?_⟩
  rwa [reach_congr (j := storedIdentity row scopes) hrole hsame] at ha

/-- The consumers whose key a request returned. -/
def learned (facts : RequestFacts) (request : ConsumerRequest)
    (result : Except ConsumerError ConsumerReply) : Set String :=
  {id | keyOwner facts request = some id ∧
    ∃ consumer apiKey, result = .ok (.created consumer apiKey)}

inductive Collusion (env : ConsumersEnv) (table₀ : Consumers) (known₀ : Set String) :
    Consumers → Set String → Prop
  | start : Collusion env table₀ known₀ table₀ known₀
  | request {table : Consumers} {known : Set String} {actor : String} {row : ApiConsumer}
      {identity : ConsumerIdentity} (h : Collusion env table₀ known₀ table known)
      (hactor : actor ∈ known) (hrow : table.get actor = some row)
      (hidentity : identityFromConsumer env.toConsumerEnv row = .ok identity)
      (facts : RequestFacts) (request : ConsumerRequest) :
      Collusion env table₀ known₀ (handleConsumers env identity facts request table).1
        (known ∪ learned facts request (handleConsumers env identity facts request table).2)

def poolReach (table : Consumers) (known : Set String) : Set Access :=
  {a | ∃ id ∈ known, ∃ row, table.find id = some row ∧ a ∈ consumerReach row}

theorem collusion_reach {known₀ known : Set String} (h : Collusion env table₀ known₀ table known) :
    poolReach table known ⊆ poolReach table₀ known₀ := by
  induction h with
  | start => exact Set.Subset.rfl
  | @request table known actor row identity _ hactor hrow hidentity facts request ih =>
    have hconfined : Confined env identity (keyOwner facts request) table
        (handleConsumers env identity facts request table).1
        (handleConsumers env identity facts request table).2 := handle_confined request
    -- The admin reaches no more than the pool does.
    have hadmin : reach identity ⊆ poolReach table₀ known₀ := fun a ha =>
      ih ⟨actor, hactor, row, (get_some.mp hrow).1, reach_of_identity hidentity ha⟩
    rintro a ⟨id, hid, found, hfound, ha⟩
    rcases hid with hid | ⟨howner, consumer, apiKey, hresult⟩
    · by_cases hsame : table.find id = (handleConsumers env identity facts request table).1.find id
      · exact ih ⟨id, hid, found, hsame.trans hfound, ha⟩
      · exact hadmin ((hconfined.changed id hsame).2 found hfound ha)
    · rcases hconfined.key consumer apiKey hresult with ⟨owned, _, hown, hfind, _, hreach, _⟩
      rw [howner] at hown
      rw [← some.inj hown, hfound] at hfind
      exact hadmin (hreach (some.inj hfind ▸ ha))

end Apex.Routers
