import Apex.Theory.Consumers.Delegation

/-!
# What Admins Are Told

An admin is told about a consumer that it may not manage what it would be told if
there were none: no answer depends on such consumers, over any sequence of requests.
The one exception is their names. Names are unique over the whole table, so that a
taken name is refused whoever has it.

## Main definitions

* `Refused`: A consumer an admin is told nothing about.
* `answers`: The answers to a sequence of requests.

## Theorems

* `handle_alike`: One request is answered alike, and leaves the tables alike.
* `answers_alike`: No sequence of requests tells the tables apart.
-/

namespace Apex.Routers

open List Option
open Auth Persistence

open Services (Instant)
open Consumers (find_id listAll find_put find_put_ne)

def Refused (identity : ConsumerIdentity) (row : ApiConsumer) : Prop :=
  row.deletedAt ≠ none ∨ canManageConsumer identity row = .ok false

/-- The name of a consumer the admin is told nothing about. -/
def HiddenName (identity : ConsumerIdentity) (table : Consumers) (name : String) : Prop :=
  ∃ id row, table.find id = some row ∧ Refused identity row ∧ row.name = name

/-- Two tables that differ only in consumers an admin is told nothing about, and not in
    their names. -/
structure Alike (identity : ConsumerIdentity) (a b : Consumers) : Prop where
  shown : ∀ id row, ¬ Refused identity row → (a.find id = some row ↔ b.find id = some row)
  names : ∀ name, HiddenName identity a name ↔ HiddenName identity b name

section Alike

variable {env : ConsumersEnv} {identity : ConsumerIdentity} {facts : RequestFacts}
  {a b : Consumers} {row : ApiConsumer}

theorem Alike.symm (h : Alike identity a b) : Alike identity b a :=
  ⟨fun id row hrow => (h.shown id row hrow).symm, fun name => (h.names name).symm⟩

variable {id name : String}

theorem not_refused_of_manageable (h : manageable identity a id = .ok row) :
    ¬ Refused identity row := by
  rcases manageable_ok.mp h with ⟨hget, hcan⟩
  rintro (hdeleted | hrefused)
  · exact hdeleted (get_some.mp hget).2
  · rw [hcan] at hrefused
    exact absurd (Except.ok.inj hrefused).symm Bool.false_ne_true

theorem manageable_refused (h : ∀ row, a.find id = some row → Refused identity row) :
    manageable identity a id = .error consumerNotFound := by
  cases hget : a.get id with
  | none =>
    rw [manageable, hget]
    rfl
  | some row =>
    rcases get_some.mp hget with ⟨hfind, hdeleted⟩
    rcases h row hfind with hd | hrefused
    · exact absurd hdeleted hd
    · rw [manageable, hget]
      have hbind : (someOr consumerNotFound (some row) : Except ConsumerError ApiConsumer)
          = .ok row := rfl
      rw [hbind]
      change (canManageConsumer identity row >>= fun can => _) = _
      rw [hrefused]
      rfl

theorem manageable_congr (h : a.find id = b.find id) :
    manageable identity a id = manageable identity b id := by
  have hget : a.get id = b.get id := by rw [Consumers.get, Consumers.get, h]
  rw [manageable, manageable, hget]

theorem alike_manageable (h : Alike identity a b) (id : String) :
    manageable identity a id = manageable identity b id := by
  by_cases hshown : ∃ row, a.find id = some row ∧ ¬ Refused identity row
  · rcases hshown with ⟨row, hrow, hnot⟩
    exact manageable_congr (hrow.trans ((h.shown id row hnot).mp hrow).symm)
  · rw [not_exists] at hshown
    rw [manageable_refused fun row hrow => not_not.mp fun hnot => hshown row ⟨hrow, hnot⟩,
      manageable_refused fun row hrow => not_not.mp fun hnot =>
        hshown row ⟨(h.shown id row hnot).mpr hrow, hnot⟩]

theorem mem_rows {table : Consumers} :
    row ∈ table.rows.items.map Prod.snd ↔ table.find row.id = some row := by
  rw [List.mem_map]
  constructor
  · rintro ⟨⟨id, stored⟩, hitem, rfl⟩
    have hfind := Dict.get?_of_mem hitem
    have hid := table.keyed id stored hfind
    exact hid.symm ▸ hfind
  · exact fun h => ⟨(row.id, row), Dict.get?_mem h, rfl⟩

theorem nameTaken_iff {table : Consumers} : table.nameTaken name = true ↔
    ∃ id row, table.find id = some row ∧ row.name = name := by
  rw [Consumers.nameTaken, List.any_eq_true]
  constructor
  · rintro ⟨row, hrow, hname⟩
    exact ⟨row.id, row, mem_rows.mp hrow, eq_of_beq hname⟩
  · rintro ⟨id, row, hrow, hname⟩
    exact ⟨row, mem_rows.mpr ((find_id hrow).symm ▸ hrow), beq_iff_eq.mpr hname⟩

theorem Alike.nameTaken_of (h : Alike identity a b)
    (hname : a.nameTaken name = true) : b.nameTaken name = true := by
  rw [nameTaken_iff] at hname ⊢
  rcases hname with ⟨id, row, hrow, hname⟩
  by_cases hrefused : Refused identity row
  · rcases (h.names name).mp ⟨id, row, hrow, hrefused, hname⟩ with ⟨id', row', hrow', _, hname'⟩
    exact ⟨id', row', hrow', hname'⟩
  · exact ⟨id, row, (h.shown id row hrefused).mp hrow, hname⟩

theorem alike_nameTaken (h : Alike identity a b) (name : String) :
    a.nameTaken name = b.nameTaken name :=
  Bool.eq_iff_iff.mpr ⟨h.nameTaken_of, h.symm.nameTaken_of⟩

theorem listedBefore_iff {a b : ApiConsumer} : listedBefore a b = true ↔
    a.createdAt < b.createdAt ∨ a.createdAt = b.createdAt ∧ a.id ≤ b.id := by
  rw [listedBefore, Bool.or_eq_true, Bool.and_eq_true, decide_eq_true_eq, decide_eq_true_eq,
    beq_iff_eq]

theorem listedBefore_trans (x y z : ApiConsumer) (hxy : listedBefore x y = true)
    (hyz : listedBefore y z = true) : listedBefore x z = true := by
  rw [listedBefore_iff] at *
  rcases hxy with hxy | ⟨hxy, hid⟩
  · rcases hyz with hyz | ⟨hyz, _⟩
    · exact Or.inl (lt_trans hxy hyz)
    · exact Or.inl (hyz ▸ hxy)
  · rcases hyz with hyz | ⟨hyz, hid'⟩
    · exact Or.inl (hxy ▸ hyz)
    · exact Or.inr ⟨hxy.trans hyz, String.le_trans hid hid'⟩

theorem listedBefore_total (x y : ApiConsumer) :
    (listedBefore x y || listedBefore y x) = true := by
  rw [Bool.or_eq_true, listedBefore_iff, listedBefore_iff]
  rcases lt_trichotomy x.createdAt y.createdAt with h | h | h
  · exact Or.inl (Or.inl h)
  · rcases String.le_total x.id y.id with hid | hid
    · exact Or.inl (Or.inr ⟨h, hid⟩)
    · exact Or.inr (Or.inr ⟨h.symm, hid⟩)
  · exact Or.inr (Or.inl h)

theorem listedBefore_antisymm {x y : ApiConsumer} (hxy : listedBefore x y = true)
    (hyx : listedBefore y x = true) : x.id = y.id := by
  rw [listedBefore_iff] at hxy hyx
  rcases hxy with h | ⟨h, hid⟩
  · rcases hyx with h' | ⟨h', _⟩
    · exact absurd h' (lt_asymm h)
    · exact absurd h (h' ▸ lt_irrefl _)
  · rcases hyx with h' | ⟨_, hid'⟩
    · exact absurd h' (h ▸ lt_irrefl _)
    · exact String.le_antisymm hid hid'

theorem rows_nodup (table : Consumers) : (table.rows.items.map Prod.snd).Nodup := by
  refine Nodup.of_map ApiConsumer.id ?_
  have hids : (table.rows.items.map Prod.snd).map ApiConsumer.id
      = table.rows.items.map Prod.fst := by
    rw [List.map_map]
    exact map_congr_left fun item hitem =>
      table.keyed item.1 item.2 (Dict.get?_of_mem hitem)
  rw [hids]
  exact table.rows.nodup

theorem alike_listAll (h : Alike identity a b) (limit offset : Nat) :
    a.listAll (listedScopes identity) limit offset
      = b.listAll (listedScopes identity) limit offset := by
  have hmem : ∀ row, row ∈ (a.rows.items.map Prod.snd).filter (fun row =>
      (listCondition (listedScopes identity) row).selects) ↔
      row ∈ (b.rows.items.map Prod.snd).filter (fun row =>
        (listCondition (listedScopes identity) row).selects) := by
    intro row
    rw [mem_filter, mem_filter, mem_rows, mem_rows]
    refine and_congr_left fun hselected => h.shown row.id row ?_
    rcases selected_not_refused hselected with ⟨hdeleted, hcan⟩
    rintro (hd | hrefused)
    · exact hd hdeleted
    · exact hcan hrefused
  have hperm := (perm_ext_iff_of_nodup ((rows_nodup a).filter _) ((rows_nodup b).filter _)).mpr hmem
  have hsorted : ((a.rows.items.map Prod.snd).filter fun row =>
      (listCondition (listedScopes identity) row).selects).mergeSort listedBefore
      = ((b.rows.items.map Prod.snd).filter fun row =>
        (listCondition (listedScopes identity) row).selects).mergeSort listedBefore := by
    refine Perm.eq_of_pairwise (fun x y hx hy hxy hyx => ?_)
      (pairwise_mergeSort listedBefore_trans listedBefore_total _)
      (pairwise_mergeSort listedBefore_trans listedBefore_total _)
      ((mergeSort_perm _ _).trans (hperm.trans (mergeSort_perm _ _).symm))
    rw [mem_mergeSort] at hx hy
    have hx' := mem_rows.mp (mem_filter.mp ((hmem x).mp hx)).1
    have hy' := mem_rows.mp (mem_filter.mp hy).1
    rw [listedBefore_antisymm hxy hyx, hy'] at hx'
    exact (some.inj hx').symm
  rw [listAll, listAll, hsorted]

/-- A row that is written over the same row of both tables, one that is not refused. -/
structure WrittenAlike (identity : ConsumerIdentity) (a b : Consumers) (row : ApiConsumer) :
    Prop where
  same : a.find row.id = b.find row.id
  old : ∀ old, a.find row.id = some old → ¬ Refused identity old

theorem writtenAlike_of_manageable (h : Alike identity a b) {existing : ApiConsumer}
    (hexisting : manageable identity a id = .ok existing) (hid : row.id = existing.id) :
    WrittenAlike identity a b row := by
  have hfind := (get_some.mp (manageable_ok.mp hexisting).1).1
  have hnot := not_refused_of_manageable hexisting
  have hsame : row.id = id := hid.trans (find_id hfind)
  rw [← hsame] at hfind
  refine ⟨hfind.trans ((h.shown row.id existing hnot).mp hfind).symm, fun old hold => ?_⟩
  rw [hfind] at hold
  exact some.inj hold ▸ hnot

theorem hiddenName_put (h : Alike identity a b) (hrow : WrittenAlike identity a b row)
    (hname : HiddenName identity (a.put row) name) :
    HiddenName identity (b.put row) name := by
  rcases hname with ⟨id, found, hfind, hrefused, hname⟩
  by_cases hid : id = row.id
  · subst hid
    rw [find_put] at hfind
    exact ⟨row.id, found, by rw [find_put, hfind], hrefused, hname⟩
  · rw [find_put_ne a hid] at hfind
    rcases (h.names name).mp ⟨id, found, hfind, hrefused, hname⟩
      with ⟨id', found', hfind', hrefused', hname'⟩
    -- The row that was written over is not a hidden one.
    have hid' : id' ≠ row.id := by
      rintro rfl
      exact hrow.old found' (hrow.same.trans hfind') hrefused'
    exact ⟨id', found', by rw [find_put_ne b hid', hfind'], hrefused', hname'⟩

theorem WrittenAlike.symm (hrow : WrittenAlike identity a b row) : WrittenAlike identity b a row :=
  ⟨hrow.same.symm, fun old hold => hrow.old old (hrow.same.trans hold)⟩

theorem put_alike (h : Alike identity a b) (hrow : WrittenAlike identity a b row) :
    Alike identity (a.put row) (b.put row) where
  shown id found hnot := by
    by_cases hid : id = row.id
    · subst hid
      rw [find_put, find_put]
    · rw [find_put_ne a hid, find_put_ne b hid]
      exact h.shown id found hnot
  names _ := ⟨hiddenName_put h hrow, hiddenName_put h.symm hrow.symm⟩

theorem table_alike (h : Alike identity a b) (hrow : WrittenAlike identity a b row)
    (outcome : CommitOutcome) : Alike identity (outcome.table a row) (outcome.table b row) := by
  rw [CommitOutcome.table, CommitOutcome.table]
  by_cases hcommitted : outcome.committed = true
  · rw [if_pos hcommitted, if_pos hcommitted]
    exact put_alike h hrow
  · rw [if_neg hcommitted, if_neg hcommitted]
    exact h

theorem table_find_alike (hrow : WrittenAlike identity a b row) (outcome : CommitOutcome) :
    (outcome.table a row).find row.id = (outcome.table b row).find row.id := by
  rw [CommitOutcome.table, CommitOutcome.table]
  by_cases hcommitted : outcome.committed = true
  · rw [if_pos hcommitted, if_pos hcommitted, find_put, find_put]
  · rw [if_neg hcommitted, if_neg hcommitted]
    exact hrow.same

theorem commitNameWrite_alike (hrow : WrittenAlike identity a b row)
    (resolveKeyHash : Option String) (outcome : CommitOutcome) (now : Instant) :
    commitNameWrite a row resolveKeyHash outcome now
      = commitNameWrite b row resolveKeyHash outcome now := by
  have hresolved : ∀ readable, resolvedAnswer (outcome.table a row) row.id resolveKeyHash readable
      now = resolvedAnswer (outcome.table b row) row.id resolveKeyHash readable now := by
    intro readable
    simp only [resolvedAnswer, resolveCredentialCommit, table_find_alike hrow outcome]
  cases outcome with
  | acknowledged => rfl
  | duplicateName => rfl
  | integrityError => rfl
  | failed readable => exact congrArg (resolvedOr _) (hresolved readable)
  | lost readable => exact congrArg (resolvedOr _) (hresolved readable)

section

variable (h : Alike identity a b)

include h

theorem written_alike (resolveKeyHash : ApiConsumer → Option String)
    (outcome : CommitOutcome) (now : Instant) (raised : ConsumerError → ConsumerError)
    (reply : ConsumerAnswer → Except ConsumerError ConsumerReply)
    {prepared : Except ConsumerError ApiConsumer}
    (hrow : ∀ row, prepared = .ok row → WrittenAlike identity a b row) :
    (written a resolveKeyHash outcome now raised reply prepared).2
        = (written b resolveKeyHash outcome now raised reply prepared).2 ∧
      Alike identity (written a resolveKeyHash outcome now raised reply prepared).1
        (written b resolveKeyHash outcome now raised reply prepared).1 := by
  cases hprepared : prepared with
  | error error => exact ⟨rfl, h⟩
  | ok row =>
    have hwritten := hrow row hprepared
    simp only [written, commitNameWrite_alike hwritten]
    exact ⟨trivial, table_alike h hwritten outcome⟩

theorem preparedCreation_alike (body : ConsumerCreateRequest) :
    preparedCreation env identity facts body a = preparedCreation env identity facts body b := by
  simp only [preparedCreation, alike_nameTaken h]

theorem preparedUpdate_alike (id : String) (body : ConsumerUpdateRequest) :
    preparedUpdate env identity facts id body a = preparedUpdate env identity facts id body b := by
  have hrename : ∀ existing, renameTaken a existing body.name = renameTaken b existing body.name := by
    intro existing
    cases body.name with
    | none => rfl
    | some name => simp only [renameTaken, alike_nameTaken h]
  simp only [preparedUpdate, alike_manageable h, hrename]

theorem preparedDeletion_alike (id : String) :
    preparedDeletion env identity facts id a = preparedDeletion env identity facts id b := by
  simp only [preparedDeletion, alike_manageable h]

theorem preparedRotation_alike (id : String)
    (body : RotateConsumerKeyRequest) :
    preparedRotation env identity facts id body a
      = preparedRotation env identity facts id body b := by
  simp only [preparedRotation, alike_manageable h]

end

/-- The generated id of a new consumer is not in use. -/
def FreshId (facts : RequestFacts) (table : Consumers) : Prop := table.find facts.newId = none

theorem handle_alike (h : Alike identity a b) (hfresha : FreshId facts a)
    (hfreshb : FreshId facts b) (request : ConsumerRequest) :
    (handleConsumers env identity facts request a).2
        = (handleConsumers env identity facts request b).2 ∧
      Alike identity (handleConsumers env identity facts request a).1
        (handleConsumers env identity facts request b).1 := by
  cases hadmin : requireAdmin identity with
  | error error =>
    simp only [handleConsumers, hadmin]
    exact ⟨trivial, h⟩
  | ok _ =>
    cases request with
    | list limit offset =>
      simp only [handleConsumers, hadmin]
      refine ⟨?_, h⟩
      simp only [listConsumers, alike_listAll h]
    | get id =>
      simp only [handleConsumers, hadmin]
      refine ⟨?_, h⟩
      simp only [getConsumer, alike_manageable h]
    | create body =>
      simp only [handleConsumers, hadmin]
      have houtcome : insertOutcome facts a = insertOutcome facts b := by
        rw [insertOutcome, insertOutcome, hfresha, hfreshb]
      rw [preparedCreation_alike h, houtcome]
      refine written_alike h _ _ _ _ _ fun row hrow => ?_
      have hid := (preparedCreation_ok hrow).1
      refine ⟨by rw [hid, hfresha, hfreshb], fun old hold => ?_⟩
      rw [hid, hfresha] at hold
      cases hold
    | update id body =>
      simp only [handleConsumers, hadmin]
      rw [← preparedUpdate_alike h]
      refine written_alike h _ _ _ _ _ fun row hrow => ?_
      rcases (preparedUpdate_ok hrow).1 with ⟨existing, hexisting, hid⟩
      exact writtenAlike_of_manageable h hexisting hid
    | delete id =>
      simp only [handleConsumers, hadmin]
      rw [← preparedDeletion_alike h]
      refine written_alike h _ _ _ _ _ fun row hrow => ?_
      rcases (preparedDeletion_ok hrow).1 with ⟨existing, hexisting, hid⟩
      exact writtenAlike_of_manageable h hexisting hid
    | rotate id body =>
      simp only [handleConsumers, hadmin]
      rw [← preparedRotation_alike h]
      refine written_alike h _ _ _ _ _ fun row hrow => ?_
      rcases (preparedRotation_ok hrow).1 with ⟨existing, hexisting, hid⟩
      exact writtenAlike_of_manageable h hexisting hid

/-- The answers to the requests of one admin, one after another. -/
def answers (env : ConsumersEnv) (identity : ConsumerIdentity) :
    List (RequestFacts × ConsumerRequest) → Consumers → List (Except ConsumerError ConsumerReply)
  | [], _ => []
  | (facts, request) :: requests, table =>
    (handleConsumers env identity facts request table).2 ::
      answers env identity requests (handleConsumers env identity facts request table).1

/-- Generated ids are not in use when they are generated. -/
def FreshIds (env : ConsumersEnv) (identity : ConsumerIdentity) :
    List (RequestFacts × ConsumerRequest) → Consumers → Prop
  | [], _ => True
  | (facts, request) :: requests, table => FreshId facts table ∧
      FreshIds env identity requests (handleConsumers env identity facts request table).1

theorem answers_alike : ∀ (requests : List (RequestFacts × ConsumerRequest)) {a b : Consumers},
    Alike identity a b → FreshIds env identity requests a → FreshIds env identity requests b →
      answers env identity requests a = answers env identity requests b
  | [], _, _, _, _, _ => rfl
  | (facts, request) :: requests, a, b, h, ha, hb => by
    rcases handle_alike h ha.1 hb.1 request with ⟨hanswer, hafter⟩
    rw [answers, answers, hanswer, answers_alike requests hafter ha.2 hb.2]

end Alike

/-- What admins can do and what they are told, in every sequence of requests: what a request
    changes lies within the reach of its admin before and after, and so does what it shows;
    known keys together never reach further; no answer depends on consumers out of reach, but
    for their names; and a list selects what may be managed, where scopes are canonical. -/
theorem scoped_admins_confined (env : ConsumersEnv) :
    (∀ (table₀ table : Consumers) (events : List AdminEvent), AdminRun env table₀ events table →
      ∀ e ∈ events,
        Confined env e.identity (keyOwner e.facts e.request) e.before e.after e.result) ∧
    (∀ (table₀ table : Consumers) (known₀ known : Set String),
      Collusion env table₀ known₀ table known → poolReach table known ⊆ poolReach table₀ known₀) ∧
    (∀ (identity : ConsumerIdentity) (requests : List (RequestFacts × ConsumerRequest))
      (a b : Consumers), Alike identity a b → FreshIds env identity requests a →
        FreshIds env identity requests b →
          answers env identity requests a = answers env identity requests b) ∧
    ∀ (identity : ConsumerIdentity) (row : ApiConsumer), CanonicalScopes row →
      ((listCondition (listedScopes identity) row).selects = true ↔
        row.deletedAt = none ∧ canManageConsumer identity row = .ok true) :=
  ⟨fun _ _ _ h => adminRun_confined h, fun _ _ _ _ h => collusion_reach h,
    fun _ requests _ _ h ha hb => answers_alike requests h ha hb, fun _ _ h => selected_iff h⟩

/-- Nothing holds a credential, and every key has the same digest. -/
def sampleConsumersEnv : ConsumersEnv where
  isCredentialText _ := false
  hashApiKey _ := .ok (String.ofList (List.replicate 64 'a'))

def sampleConsumer (id name : String) (scopes : List ConsumerScope) : ApiConsumer where
  id := id
  name := name
  keyHash := String.ofList (List.replicate 64 'b')
  consumerType := .headless
  role := .operator
  enabled := true
  createdAt := 0
  lastUsedAt := none
  expiresAt := none
  revokedAt := none
  createdBy := none
  updatedBy := none
  rotatedAt := none
  rotationCount := 0
  deletedAt := none
  scopes := scopes
  keys := []

def noConsumers : Consumers := ⟨∅, fun _ _ h => nomatch h⟩

def sampleProject : ScopeId :=
  ⟨"p", by decide +kernel, by decide +kernel, by decide +kernel, by decide +kernel⟩

def sampleAdmin : ConsumerIdentity := ⟨"a", "a", .dashboard, .admin, [⟨sampleProject, none⟩]⟩

/-- What is generated for a creation that is acknowledged. -/
def sampleFacts : RequestFacts := ⟨10, 10, 10, "n", "k0", "k", "key", .acknowledged⟩

def sampleCreation : ConsumerRequest :=
  .create ⟨"x", .headless, .operator, [⟨sampleProject, none⟩], none⟩

/-- A consumer of another project that has the name already. -/
def sampleHidden : ApiConsumer := sampleConsumer "h" "x" [⟨"q", none⟩]

/-- A row that is older than the checks: its project has spaces around it. -/
def sampleLegacy : ApiConsumer := sampleConsumer "l" "y" [⟨" p ", none⟩]

theorem sampleHidden_refused : Refused sampleAdmin sampleHidden := Or.inr rfl

/-- A name that is taken out of reach is refused, and a list leaves out a row that may be
    managed if its scopes are not stored as they would be today. -/
theorem names_and_legacy_rows_told :
    (¬ ∀ (env : ConsumersEnv) (identity : ConsumerIdentity) (facts : RequestFacts)
      (request : ConsumerRequest) (a b : Consumers), FreshId facts a → FreshId facts b →
      (∀ id row, ¬ Refused identity row → (a.find id = some row ↔ b.find id = some row)) →
        (handleConsumers env identity facts request a).2
          = (handleConsumers env identity facts request b).2) ∧
    ¬ ∀ (identity : ConsumerIdentity) (row : ApiConsumer),
      (listCondition (listedScopes identity) row).selects = true ↔
        row.deletedAt = none ∧ canManageConsumer identity row = .ok true := by
  constructor
  · intro h
    have hshown : ∀ id row, ¬ Refused sampleAdmin row →
        (noConsumers.find id = some row ↔ (noConsumers.put sampleHidden).find id = some row) := by
      intro id row hnot
      refine ⟨fun hfind => (nomatch hfind), fun hfind => ?_⟩
      by_cases hid : id = sampleHidden.id
      · rw [hid, find_put] at hfind
        exact absurd sampleHidden_refused (some.inj hfind ▸ hnot)
      · rwa [find_put_ne noConsumers hid] at hfind
    have hsame := h sampleConsumersEnv sampleAdmin sampleFacts sampleCreation noConsumers
      (noConsumers.put sampleHidden) rfl rfl hshown
    have hcreated : (handleConsumers sampleConsumersEnv sampleAdmin sampleFacts sampleCreation
        noConsumers).2.toBool = true := rfl
    rw [hsame] at hcreated
    exact Bool.false_ne_true hcreated
  · intro h
    have hselected := (h sampleAdmin sampleLegacy).mpr ⟨rfl, rfl⟩
    have hlisted : listedScopes sampleAdmin = some sampleAdmin.scopes := rfl
    rw [hlisted, listCondition_selects] at hselected
    exact Bool.false_ne_true (hselected.2.2 ⟨" p ", none⟩ (mem_singleton_self _))

def sampleAdminRow : ApiConsumer :=
  { sampleConsumer "a" "a" [⟨"p", none⟩] with role := .admin, consumerType := .dashboard }

def sampleConsumers : Consumers := noConsumers.put sampleAdminRow

/-- The admin creates a consumer and learns its key. Together they reach what the admin did,
    and the creation was confined. -/
theorem scoped_admins_confined_created :
    "n" ∈ learned sampleFacts sampleCreation
      (handleConsumers sampleConsumersEnv sampleAdmin sampleFacts sampleCreation sampleConsumers).2 ∧
    poolReach
        (handleConsumers sampleConsumersEnv sampleAdmin sampleFacts sampleCreation
          sampleConsumers).1
        ({"a"} ∪ learned sampleFacts sampleCreation (handleConsumers sampleConsumersEnv sampleAdmin
          sampleFacts sampleCreation sampleConsumers).2)
      ⊆ poolReach sampleConsumers {"a"} ∧
    Confined sampleConsumersEnv sampleAdmin (some "n") sampleConsumers
      (handleConsumers sampleConsumersEnv sampleAdmin sampleFacts sampleCreation sampleConsumers).1
      (handleConsumers sampleConsumersEnv sampleAdmin sampleFacts sampleCreation
        sampleConsumers).2 := by
  have hidentity : identityFromConsumer sampleConsumersEnv.toConsumerEnv sampleAdminRow
      = .ok sampleAdmin := rfl
  have hfound : sampleConsumers.get "a" = some sampleAdminRow := rfl
  refine ⟨⟨rfl, _, _, rfl⟩, ?_, ?_⟩
  · exact (scoped_admins_confined sampleConsumersEnv).2.1 _ _ _ _
      (.request .start (Set.mem_singleton "a") hfound hidentity sampleFacts sampleCreation)
  · exact (scoped_admins_confined sampleConsumersEnv).1 _ _ _
      (.request .start sampleAdmin sampleFacts sampleCreation) _ (mem_singleton_self _)

end Apex.Routers
