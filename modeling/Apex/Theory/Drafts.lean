import Apex.Core.Paging
import Apex.Routers.Drafts

/-!
# What May Be Read And Written Of Drafts

The three ways to a page read the same list: the rows of the table, in the order of the
query, that match the filter and are visible. The scan keeps the part of that list that it
has seen, so the page it returns is cut from the list, and it is refused only after more
rows than any offset can skip.

## Main definitions

* `scanned`: The state of the scan after a list of visible rows.
* `pageAt`: What a walk through the listing sees.

## Theorems

* `readBatch_spec`, `scanBatches_spec`: The scan.
* `listDrafts_ok`, `listDrafts_answers`: A page, and when there is one.
* `drafts_isolated`: What no sequence of writes changes.
-/

namespace Apex.Routers.Drafts

open List Option
open Auth Domain

open Auth.Handlers (Handler HttpException)

section

variable {env : DraftsEnv} {rule : Draft → Bool} {limit offset : Nat}

def scanned (env : DraftsEnv) (offset : Nat) (seen : List Draft) : Scan :=
  ⟨(seen.drop offset).map (readModel env), seen.length⟩

theorem scanned_add (seen : List Draft) (draft : Draft) :
    (scanned env offset seen).add env offset draft = scanned env offset (seen ++ [draft]) := by
  rw [scanned, scanned, Scan.add, length_append]
  by_cases h : offset ≤ seen.length
  · rw [if_pos h, drop_append_of_le_length h, map_append]
    rfl
  · have hbefore : (seen ++ [draft]).drop offset = [] := drop_eq_nil_of_le (by
      rw [length_append, length_singleton]
      omega)
    rw [if_neg h, hbefore, drop_eq_nil_of_le (by omega)]
    rfl

variable (env rule) in
/-- A full page is not changed by the rows after it, and a batch that does not fill the page
    leaves the scan with all its visible rows. -/
theorem readBatch_spec : ∀ (drafts seen : List Draft), (seen.drop offset).length < limit →
    match readBatch env rule limit offset drafts (scanned env offset seen) with
    | (true, scan) => ∀ more, scan.result =
        (((seen ++ drafts.filter rule ++ more).drop offset).take limit).map (readModel env)
    | (false, scan) => scan = scanned env offset (seen ++ drafts.filter rule) ∧
        ((seen ++ drafts.filter rule).drop offset).length < limit
  | [], seen, h => by
    rw [filter_nil, append_nil]
    exact ⟨rfl, h⟩
  | draft :: drafts, seen, h => by
    by_cases hrule : rule draft = true
    · have hsplit : seen ++ (draft :: drafts).filter rule =
          (seen ++ [draft]) ++ drafts.filter rule := by
        rw [filter_cons_of_pos hrule, append_assoc, singleton_append]
      rw [readBatch, if_pos hrule, hsplit, scanned_add,
        show (scanned env offset (seen ++ [draft])).result.length =
          ((seen ++ [draft]).drop offset).length from List.length_map _]
      by_cases hfull : ((seen ++ [draft]).drop offset).length = limit
      · rw [if_pos hfull]
        intro more
        rw [length_drop] at hfull
        rw [append_assoc, drop_append_of_le_length (by omega),
          take_left' (by rw [length_drop, hfull])]
        rfl
      · rw [if_neg hfull]
        refine readBatch_spec drafts _ (lt_of_le_of_ne ?_ hfull)
        rw [length_drop] at h ⊢
        rw [length_append, length_singleton]
        omega
    · rw [readBatch, if_neg hrule, filter_cons_of_neg hrule]
      exact readBatch_spec drafts seen h

variable (env rule) in
/-- The scan returns the page, or is refused after as many rows as its batches hold. -/
theorem scanBatches_spec (rows : List Draft) : ∀ (left : Nat) {scanOffset : Nat},
    scanOffset ≤ rows.length → (((rows.take scanOffset).filter rule).drop offset).length < limit →
    scanBatches env rule limit offset (fun k => (rows.drop k).take 100) left scanOffset
        (scanned env offset ((rows.take scanOffset).filter rule)) =
      .ok ((((rows.filter rule).drop offset).take limit).map (readModel env)) ∨
    scanBatches env rule limit offset (fun k => (rows.drop k).take 100) left scanOffset
        (scanned env offset ((rows.take scanOffset).filter rule)) = .error unverifiable ∧
      scanOffset + 100 * left ≤ rows.length
  | 0, _, hle, _ => Or.inr ⟨rfl, hle⟩
  | left + 1, scanOffset, hle, h => by
    have hspec := readBatch_spec env rule ((rows.drop scanOffset).take 100) _ h
    rw [← filter_append, ← take_add] at hspec
    rw [scanBatches]
    cases hread : readBatch env rule limit offset ((rows.drop scanOffset).take 100)
        (scanned env offset ((rows.take scanOffset).filter rule)) with
    | mk full scan =>
      rw [hread] at hspec
      cases full with
      | true =>
        left
        have hpage := hspec ((rows.drop (scanOffset + 100)).filter rule)
        rw [← filter_append, take_append_drop] at hpage
        exact congrArg Except.ok hpage
      | false =>
        rcases hspec with ⟨rfl, hroom⟩
        dsimp only
        by_cases hshort : ((rows.drop scanOffset).take 100).length < 100
        · left
          rw [length_take, length_drop] at hshort
          rw [take_of_length_le (i := scanOffset + 100) (by omega)] at hroom ⊢
          rw [if_pos (by rw [length_take, length_drop]; omega), take_of_length_le hroom.le]
          rfl
        · rw [if_neg hshort]
          rw [length_take, length_drop] at hshort
          rcases scanBatches_spec rows left (by omega) hroom with hok | ⟨herror, hmany⟩
          · exact Or.inl hok
          · exact Or.inr ⟨herror, by omega⟩

variable (env rule) in
theorem scan_spec (rows : List Draft) (left : Nat) (hlimit : 0 < limit) :
    scanBatches env rule limit offset (fun k => (rows.drop k).take 100) left 0 ⟨[], 0⟩ =
        .ok ((((rows.filter rule).drop offset).take limit).map (readModel env)) ∨
      scanBatches env rule limit offset (fun k => (rows.drop k).take 100) left 0 ⟨[], 0⟩ =
        .error unverifiable ∧ 100 * left ≤ rows.length := by
  have hstart : scanned env offset [] = ⟨[], 0⟩ := by
    rw [scanned, drop_nil]
    rfl
  have h := scanBatches_spec env rule rows left (Nat.zero_le _)
    (show (([] : List Draft).drop offset).length < limit by rw [drop_nil]; exact hlimit)
  rw [take_zero, filter_nil, hstart, Nat.zero_add] at h
  exact h

end

section

variable {env : DraftsEnv} {repo : Repository} {table : DraftTable} {identity : ConsumerIdentity}
  {project : Option ScopeId}

/-- The drafts that match the filter and that reading one by one returns, in order. -/
def readable (env : DraftsEnv) (table : DraftTable) (identity : ConsumerIdentity)
    (project : Option ScopeId) : List DraftRead :=
  ((table.rows.mergeSort (comesBefore env)).filter (ofProject project)).filterMap fun draft =>
    (getDraft env table identity draft.id).toOption

def queryScopes (repo : Repository) (identity : ConsumerIdentity) : Option (List ScopeRef) :=
  match repo with
  | .paged true => if identity.isUnscoped then none else some identity.scopes
  | _ => none

/-- The rows that the query selects over all pages. -/
def sqlVisible (env : DraftsEnv) (repo : Repository) (table : DraftTable)
    (identity : ConsumerIdentity) (project : Option ScopeId) : List Draft :=
  selectedRows env table (queryScopes repo identity) project

variable {draft : Draft} {u : Unit} {id : String}

theorem visible_inScopes (repo : Repository) (h : visible identity draft = true) :
    inScopes (queryScopes repo identity) draft = true := by
  cases repo with
  | whole => rfl
  | paged narrowed =>
    cases narrowed with
    | false => rfl
    | true =>
      cases hscoped : identity.isUnscoped with
      | true => rw [queryScopes, hscoped]; rfl
      | false =>
        rw [queryScopes, hscoped, inScopes]
        rw [visible, hscoped, Bool.false_or, Bool.and_eq_true] at h
        cases hproject : draft.projectId with
        | none => rfl
        | some p =>
          have hallowed := h.2
          rw [hproject, all_some, ConsumerIdentity.allowsProject, hscoped,
            Bool.false_or, ConsumerIdentity.scopedProjectIds, contains_iff_mem,
            mem_eraseDups, List.mem_map] at hallowed
          rcases hallowed with ⟨scope, hscope, hid⟩
          exact List.any_eq_true.mpr ⟨scope, hscope, beq_iff_eq.mpr (ScopeId.value_injective hid)⟩

theorem get_of_mem (h : draft ∈ table.rows) : table.get draft.id = some draft := by
  rw [DraftTable.get]
  cases hfound : table.rows.find? fun row => row.id == draft.id with
  | none => exact absurd (beq_self_eq_true draft.id) (find?_eq_none.mp hfound draft h)
  | some row =>
    have hid := find?_some hfound
    rw [inj_on_of_nodup_map table.ids (mem_of_find?_eq_some hfound) h (beq_iff_eq.mp hid)]

theorem getDraft_of_mem (h : draft ∈ table.rows) :
    (getDraft env table identity draft.id).toOption =
      if visible identity draft then some (readModel env draft) else none := by
  rw [getDraft, visibleOr404, foundOr404, get_of_mem h]
  by_cases hvisible : visible identity draft = true
  · rw [if_pos hvisible]
    dsimp only
    rw [if_pos hvisible]
    rfl
  · rw [if_neg hvisible]
    dsimp only
    rw [if_neg hvisible]
    rfl

theorem readable_eq (scopes : Option (List ScopeRef))
    (hscopes : ∀ draft, visible identity draft = true → inScopes scopes draft = true) :
    readable env table identity project =
      ((selectedRows env table scopes project).filter (visible identity)).map (readModel env) := by
  rw [readable, selectedRows, List.filter_filter, filterMap_filter, ← filterMap_eq_map',
    filterMap_filter]
  refine filterMap_congr fun draft hdraft => ?_
  rw [getDraft_of_mem (mem_mergeSort.mp hdraft)]
  by_cases hvisible : visible identity draft = true
  · rw [hvisible, hscopes draft hvisible, Bool.true_and, Bool.and_true]
    rfl
  · rw [if_neg hvisible, if_neg (fun h => hvisible (Bool.and_eq_true_iff.mp h).1), ite_self]

theorem readable_ids : ((readable env table identity project).map DraftRead.id).Nodup := by
  have hrows : ((table.rows.mergeSort (comesBefore env)).map Draft.id).Nodup :=
    (((mergeSort_perm _ _).map _).nodup_iff).mpr table.ids
  rw [readable_eq none fun _ _ => rfl, List.map_map]
  exact hrows.sublist ((filter_sublist.trans filter_sublist).map Draft.id)

variable {limit : Nat} {offset now : Int} {read : DraftRead} {after : DraftTable}

theorem pageOf_spec {offset : Nat} (hlimit : 0 < limit) :
    pageOf env repo table identity project limit offset =
        .ok (((readable env table identity project).drop offset).take limit) ∨
      pageOf env repo table identity project limit offset = .error unverifiable ∧
        maxDbListOffset + 100 ≤ (sqlVisible env repo table identity project).length := by
  cases repo with
  | whole =>
    left
    rw [readable_eq none fun _ _ => rfl, ← map_drop, ← map_take]
    rfl
  | paged narrowed =>
    rw [pageOf]
    cases hunscoped : identity.isUnscoped with
    | true =>
      have hall : ∀ draft, visible identity draft = true := fun draft => by
        rw [visible, participantsAllowed, hunscoped]
        rfl
      left
      rw [if_pos rfl, readable_eq none fun _ _ => rfl,
        filter_eq_self.mpr fun _ _ => hall _, filter_eq_self.mpr fun _ _ => hall _,
        ← map_drop, ← map_take]
      rfl
    | false =>
      have hscopes : queryScopes (.paged narrowed) identity =
          if narrowed then some identity.scopes else none := by
        cases narrowed with
        | false => rfl
        | true =>
          rw [queryScopes, hunscoped]
          rfl
      rw [if_neg Bool.false_ne_true, ← hscopes,
        readable_eq _ fun _ => visible_inScopes (.paged narrowed), ← map_drop,
        ← map_take]
      exact scan_spec env (visible identity) _ scanBatchCount hlimit

/-- Whether an identity may list the drafts of a project. -/
def mayList (identity : ConsumerIdentity) (project : Option ScopeId) : Bool :=
  project.all fun id => identity.allowsApp id.value none

theorem ensurePage_ok {limit : Int} :
    ensurePage limit offset = .ok u ↔
      (1 ≤ limit ∧ limit ≤ 100) ∧ 0 ≤ offset ∧ offset ≤ maxDbListOffset := by
  rw [ensurePage, raiseIf_ok, Bool.not_eq_false', Bool.and_eq_true, decide_eq_true_eq,
    decide_eq_true_eq]

theorem listDrafts_ok {limit : Int} {page : List DraftRead}
    (h : listDrafts env repo table identity project limit offset = .ok page) :
    page = ((readable env table identity project).drop offset.toNat).take limit.toNat := by
  rw [listDrafts, bind_ok] at h
  rcases h with ⟨_, hpage, h⟩
  rcases bind_ok.mp h with ⟨_, _, h⟩
  have hbounds := (ensurePage_ok.mp hpage).1
  rcases pageOf_spec (show 0 < limit.toNat by omega) with hok | ⟨herror, _⟩
  · exact Except.ok.inj (h.symm.trans hok)
  · cases h.symm.trans herror

/-- There is a page if the query selects less than the scan can read. -/
theorem listDrafts_answers {limit : Int} (hlimit : 1 ≤ limit ∧ limit ≤ 100)
    (hoffset : 0 ≤ offset ∧ offset ≤ maxDbListOffset) (hproject : mayList identity project = true)
    (hrows : (sqlVisible env repo table identity project).length < maxDbListOffset + 100) :
    listDrafts env repo table identity project limit offset =
      .ok (((readable env table identity project).drop offset.toNat).take limit.toNat) := by
  rw [listDrafts, bind_ok]
  refine ⟨(), ensurePage_ok.mpr ⟨hlimit, hoffset⟩, bind_ok.mpr ⟨(), ?_, ?_⟩⟩
  · rw [ensureProject, raiseIf_ok, Bool.not_eq_false']
    exact hproject
  · rcases pageOf_spec (show 0 < limit.toNat by omega) with hok | ⟨_, hmany⟩
    · exact hok
    · omega

/-- What a walk sees at its page `n`; an error ends it without an answer. -/
def pageAt (env : DraftsEnv) (repo : Repository) (table : DraftTable) (identity : ConsumerIdentity)
    (project : Option ScopeId) (limit n : Nat) : Page DraftRead :=
  match listDrafts env repo table identity project limit (n * limit : Nat) with
  | .ok items => ⟨items, false⟩
  | .error _ => ⟨[], true⟩

theorem pageAt_covers :
    Covers (pageAt env repo table identity project limit) limit
      (readable env table identity project) := by
  refine covers_of_page fun n _ => ?_
  rw [pageAt]
  cases hlist : listDrafts env repo table identity project limit (n * limit : Nat) with
  | error e => exact ⟨List.nil_prefix, fun h => absurd h Bool.true_eq_false.mp⟩
  | ok items =>
    have hitems := listDrafts_ok hlist
    rw [Int.toNat_natCast, Int.toNat_natCast] at hitems
    rw [hitems]
    refine ⟨List.take_prefix _ _, fun _ hshort => take_of_length_le ?_⟩
    rw [length_take] at hshort
    omega

theorem pageAt_full {n : Nat} (hlimit : 1 ≤ limit ∧ limit ≤ 100)
    (hoffset : n * limit ≤ maxDbListOffset) (hproject : mayList identity project = true)
    (hrows : (sqlVisible env repo table identity project).length < maxDbListOffset + 100) :
    pageAt env repo table identity project limit n =
      ⟨((readable env table identity project).drop (n * limit)).take limit, false⟩ := by
  rw [pageAt, listDrafts_answers (by omega) (by omega) hproject hrows, Int.toNat_natCast,
    Int.toNat_natCast]

/-- The walk ends with a short page, and has then seen everything. -/
theorem pageAt_ends (hlimit : 1 ≤ limit ∧ limit ≤ 100)
    (hoffset : (readable env table identity project).length / limit * limit ≤ maxDbListOffset)
    (hproject : mayList identity project = true)
    (hrows : (sqlVisible env repo table identity project).length < maxDbListOffset + 100) :
    ∃ n, Reached (pageAt env repo table identity project limit) limit n ∧
      (pageAt env repo table identity project limit n).isPartial = false ∧
      (pageAt env repo table identity project limit n).items.length < limit ∧
      handed (pageAt env repo table identity project limit) (n + 1) =
        readable env table identity project := by
  have hcount := Nat.div_add_mod (readable env table identity project).length limit
  have hmod := Nat.mod_lt (readable env table identity project).length hlimit.1
  rw [Nat.mul_comm] at hcount
  have hreach : Reached (pageAt env repo table identity project limit) limit
      ((readable env table identity project).length / limit) := by
    intro m hm
    have hle := Nat.mul_le_mul_right limit (Nat.succ_le_of_lt hm)
    rw [Nat.succ_mul] at hle
    rw [pageAt_full hlimit (by omega) hproject hrows]
    refine ⟨?_, rfl⟩
    rw [length_take, length_drop]
    omega
  have hlast := pageAt_full hlimit hoffset hproject hrows
  have hshort : (pageAt env repo table identity project limit
      ((readable env table identity project).length / limit)).items.length < limit := by
    rw [hlast, length_take, length_drop]
    omega
  have hwhole : (pageAt env repo table identity project limit
      ((readable env table identity project).length / limit)).isPartial = false := by
    rw [hlast]
  exact ⟨_, hreach, hwhole, hshort, (pageAt_covers _ hreach).2 hwhole hshort⟩

theorem audience_allows {identity : ConsumerIdentity} {project : Option ScopeId}
    (h : hasAudience identity project = true) :
    (identity.isUnscoped || project.all fun id => identity.allowsProject id.value) = true := by
  cases project with
  | none => rw [all_none, Bool.or_true]
  | some id =>
    rw [hasAudience, ConsumerIdentity.containsScope, Bool.or_eq_true] at h
    rw [all_some, ConsumerIdentity.allowsProject]
    rcases h with h | h
    · rw [h, Bool.true_or]
    · rcases List.any_eq_true.mp h with ⟨own, hown, hfits⟩
      have hid : own.projectId = id := beq_iff_eq.mp (Bool.and_eq_true_iff.mp hfits).1
      rw [ConsumerIdentity.scopedProjectIds, contains_iff_mem.mpr, Bool.or_true, Bool.or_true]
      rw [mem_eraseDups]
      exact List.mem_map.mpr ⟨own, hown, congrArg ScopeId.value hid⟩

theorem visible_of (hpayload : participantsAllowed identity draft.payload = true)
    (haudience : hasAudience identity draft.projectId = true) : visible identity draft = true := by
  rw [visible, hpayload, audience_allows haudience]
  rfl

theorem foundOr404_ok {rule : Draft → Bool} :
    foundOr404 table rule id = .ok draft ↔ table.get id = some draft ∧ rule draft = true := by
  rw [foundOr404]
  cases table.get id with
  | none => exact ⟨fun h => (by cases h), fun h => (by cases h.1)⟩
  | some row =>
    by_cases hrule : rule row = true
    · simp only [hrule, if_true, Except.ok.injEq, some.injEq]
      exact ⟨fun h => ⟨h, h ▸ hrule⟩, fun h => h.1⟩
    · simp only [hrule, Bool.false_eq_true, if_false, reduceCtorEq, some.injEq, false_iff]
      rintro ⟨rfl, h⟩
      exact hrule h

theorem readModel_id (draft : Draft) : (readModel env draft).id = draft.id := rfl

theorem getDraft_visible (draft : Draft) (hmem : draft ∈ table.rows)
    (hvisible : visible identity draft = true) :
    getDraft env table identity draft.id = .ok (readModel env draft) := by
  rw [getDraft, visibleOr404, foundOr404_ok.mpr ⟨get_of_mem hmem, hvisible⟩]
  rfl

theorem ensureCreateScope_ok (h : ensureCreateScope identity project = .ok u) :
    hasAudience identity project = true := by
  rw [ensureCreateScope, raiseIf_ok, Bool.not_eq_false'] at h
  exact h

theorem ensureParticipants_ok {payload : Dict Json}
    (h : ensureParticipants identity payload = .ok u) :
    participantsAllowed identity payload = true := by
  rw [ensureParticipants, raiseIf_ok, Bool.not_eq_false'] at h
  exact h

theorem created_readable {body : DraftCreateRequest}
    (h : createDraft env table identity body id now = .ok (read, after)) :
    getDraft env after identity read.id = .ok read := by
  rcases bind_ok.mp h with ⟨_, _, h⟩
  rcases bind_ok.mp h with ⟨_, hscope, h⟩
  rcases bind_ok.mp h with ⟨_, hpayload, h⟩
  rcases bind_ok.mp h with ⟨added, hadded, h⟩
  cases h
  rw [DraftTable.add] at hadded
  split at hadded
  · cases hadded
  · cases hadded
    rw [readModel_id]
    exact getDraft_visible _ mem_cons_self
      (visible_of (ensureParticipants_ok hpayload) (ensureCreateScope_ok hscope))

theorem mem_put {current : Draft} (hmem : current ∈ table.rows) (hid : current.id = draft.id) :
    draft ∈ (table.put draft).rows :=
  List.mem_map.mpr ⟨current, hmem, if_pos hid⟩

theorem updated_readable {body : DraftUpdateRequest}
    (h : updateDraft env table identity id body now = .ok (read, after)) :
    getDraft env after identity id = .ok read := by
  rcases bind_ok.mp h with ⟨_, _, h⟩
  rcases bind_ok.mp h with ⟨current, hcurrent, h⟩
  rcases bind_ok.mp h with ⟨_, hpayload, h⟩
  rcases bind_ok.mp h with ⟨_, hmove, h⟩
  cases h
  rcases foundOr404_ok.mp hcurrent with ⟨hget, hwritable⟩
  rw [DraftTable.get] at hget
  have hid := find?_some hget
  rw [beq_iff_eq] at hid
  have haudience : hasAudience identity (body.projectId.getD current.projectId) = true := by
    rw [ensureMove] at hmove
    split at hmove
    case isTrue => exact ensureCreateScope_ok hmove
    case isFalse hsame =>
        rw [bne_iff_ne, not_not] at hsame
        rw [hsame]
        exact (Bool.and_eq_true_iff.mp hwritable).2
  rw [← hid]
  exact getDraft_visible
    { current with
      title := body.title, projectId := body.projectId.getD current.projectId,
      payload := body.payload, updatedAt := now }
    (mem_put (mem_of_find?_eq_some hget) rfl)
    (visible_of (ensureParticipants_ok hpayload) haudience)

end

/-- A page is always the part of what reading one by one returns, each draft once, that its
    offset and limit name, and a walk through the pages hands out the beginning of that. With
    a project that may be listed, and offsets that are accepted, the walk ends with a short
    page and everything, if the query selects less than the scan reads. Who may write a draft
    may read it, also after creating or changing it. -/
theorem drafts_covered (env : DraftsEnv) (repo : Repository) (table : DraftTable)
    (identity : ConsumerIdentity) (project : Option ScopeId) :
    ((readable env table identity project).map DraftRead.id).Nodup ∧
    (∀ limit offset page, listDrafts env repo table identity project limit offset = .ok page →
      page = ((readable env table identity project).drop offset.toNat).take limit.toNat) ∧
    (∀ limit : Nat, Covers (pageAt env repo table identity project limit) limit
      (readable env table identity project)) ∧
    (∀ limit : Nat, 1 ≤ limit ∧ limit ≤ 100 → mayList identity project = true →
      (readable env table identity project).length / limit * limit ≤ maxDbListOffset →
      (sqlVisible env repo table identity project).length < maxDbListOffset + 100 →
      ∃ n, Reached (pageAt env repo table identity project limit) limit n ∧
        (pageAt env repo table identity project limit n).isPartial = false ∧
        (pageAt env repo table identity project limit n).items.length < limit ∧
        handed (pageAt env repo table identity project limit) (n + 1) =
          readable env table identity project) ∧
    (∀ id draft, writableOr404 table identity id = .ok draft →
      getDraft env table identity id = .ok (readModel env draft)) ∧
    (∀ body id now read after, createDraft env table identity body id now = .ok (read, after) →
      getDraft env after identity read.id = .ok read) ∧
    ∀ id body now read after, updateDraft env table identity id body now = .ok (read, after) →
      getDraft env after identity id = .ok read := by
  refine ⟨readable_ids, fun _ _ _ => listDrafts_ok, fun _ => pageAt_covers,
    fun _ hlimit hproject hoffset => pageAt_ends hlimit hoffset hproject, ?_,
    fun _ _ _ _ _ => created_readable, fun _ _ _ _ _ => updated_readable⟩
  intro id draft h
  rcases foundOr404_ok.mp h with ⟨hget, hwritable⟩
  rcases Bool.and_eq_true_iff.mp hwritable with ⟨hpayload, haudience⟩
  rw [getDraft, visibleOr404, foundOr404_ok.mpr ⟨hget, visible_of hpayload haudience⟩]
  rfl

variable {identity : ConsumerIdentity}

theorem pageAt_whole {env : DraftsEnv} {repo : Repository} {table : DraftTable}
    {project : Option ScopeId} {limit n : Nat}
    (h : (pageAt env repo table identity project limit n).isPartial = false) :
    n * limit ≤ maxDbListOffset ∧ mayList identity project = true := by
  rw [pageAt] at h
  cases hlist : listDrafts env repo table identity project limit (n * limit : Nat) with
  | error e =>
    rw [hlist] at h
    cases h
  | ok items =>
    rcases bind_ok.mp hlist with ⟨_, hpage, hlist⟩
    rcases bind_ok.mp hlist with ⟨_, hproject, _⟩
    rw [ensureProject, raiseIf_ok, Bool.not_eq_false'] at hproject
    exact ⟨by exact_mod_cast (ensurePage_ok.mp hpage).2.2, hproject⟩

theorem sqlVisible_length_le (env : DraftsEnv) (repo : Repository) (table : DraftTable)
    (identity : ConsumerIdentity) (project : Option ScopeId) :
    (sqlVisible env repo table identity project).length ≤ table.rows.length := by
  rw [sqlVisible, selectedRows]
  exact (length_filter_le _ _).trans_eq (length_mergeSort _)

/-- A platform administrator reads every row. -/
theorem readable_length_unscoped (env : DraftsEnv) (table : DraftTable)
    (h : identity.isUnscoped = true) :
    (readable env table identity none).length = table.rows.length := by
  rw [readable_eq none fun _ _ => rfl, List.length_map, filter_eq_self.mpr, selectedRows,
    filter_eq_self.mpr, length_mergeSort]
  · exact fun _ _ => rfl
  · intro draft _
    rw [visible, participantsAllowed, h]
    rfl

def sampleEnv : DraftsEnv := ⟨sampleRules, fun _ => [], fun a b => decide (a ≤ b)⟩

def platformAdmin : ConsumerIdentity := ⟨"c1", "ann", .dashboard, .admin, []⟩

def newcomer : ConsumerIdentity := ⟨"c2", "bob", .dashboard, .viewer, []⟩

def someProject : ScopeId := ⟨"web", by decide, by decide, by decide, by decide⟩

def sharedRow (k : Nat) : Draft :=
  ⟨String.ofList (List.replicate k 'a'), "", none, ∅, none, none, 0⟩

def sharedTable (n : Nat) : DraftTable where
  rows := (List.range n).map sharedRow
  ids := by
    rw [List.map_map]
    refine List.Nodup.map (fun a b h => ?_) List.nodup_range
    have hlength := congrArg String.length h
    simpa only [Function.comp_apply, sharedRow, String.length_ofList, List.length_replicate]
      using hlength

theorem sharedTable_length (n : Nat) : (sharedTable n).rows.length = n := by
  rw [sharedTable, List.length_map, length_range]

/-- Three drafts of everybody, two a page. -/
theorem drafts_covered_three :
    ∃ n, Reached (pageAt sampleEnv (.paged true) (sharedTable 3) platformAdmin none 2) 2 n ∧
      (pageAt sampleEnv (.paged true) (sharedTable 3) platformAdmin none 2 n).isPartial = false ∧
      (pageAt sampleEnv (.paged true) (sharedTable 3) platformAdmin none 2 n).items.length < 2 ∧
      handed (pageAt sampleEnv (.paged true) (sharedTable 3) platformAdmin none 2) (n + 1) =
        readable sampleEnv (sharedTable 3) platformAdmin none := by
  have hrows := sqlVisible_length_le sampleEnv (.paged true) (sharedTable 3) platformAdmin none
  rw [sharedTable_length] at hrows
  refine (drafts_covered sampleEnv (.paged true) (sharedTable 3) platformAdmin none).2.2.2.1 2
    (by decide) rfl ?_ (Nat.lt_of_le_of_lt hrows (by decide))
  rw [readable_length_unscoped _ _ rfl, sharedTable_length]
  decide

/-- A project that the caller may not list is refused, although nothing of it is readable. And
    with one draft a page, the page after the last accepted offset is refused while the scan
    could still read the whole table. -/
theorem listing_unfinished :
    (¬ ∃ n, Reached (pageAt sampleEnv (.paged true) (sharedTable 0) newcomer someProject 50) 50 n ∧
      (pageAt sampleEnv (.paged true) (sharedTable 0) newcomer someProject 50 n).isPartial =
        false) ∧
    (sqlVisible sampleEnv (.paged true) (sharedTable 0) newcomer someProject).length <
      maxDbListOffset + 100 ∧
    (¬ ∃ n, Reached (pageAt sampleEnv (.paged true) (sharedTable 10001) platformAdmin none 1) 1 n ∧
      (pageAt sampleEnv (.paged true) (sharedTable 10001) platformAdmin none 1 n).isPartial =
        false ∧
      (pageAt sampleEnv (.paged true) (sharedTable 10001) platformAdmin none 1 n).items.length
        < 1) ∧
    (sqlVisible sampleEnv (.paged true) (sharedTable 10001) platformAdmin none).length <
      maxDbListOffset + 100 := by
  have hnone := sqlVisible_length_le sampleEnv (.paged true) (sharedTable 0) newcomer someProject
  have hrows := sqlVisible_length_le sampleEnv (.paged true) (sharedTable 10001) platformAdmin none
  rw [sharedTable_length] at hnone hrows
  have hceiling : 10001 < maxDbListOffset + 100 := by decide
  refine ⟨?_, by omega, ?_, by omega⟩
  · rintro ⟨n, _, hwhole⟩
    exact absurd (pageAt_whole hwhole).2 (by decide)
  · rintro ⟨n, _, hwhole, hshort⟩
    have hoffset := (pageAt_whole hwhole).1
    rw [pageAt_full (by decide) hoffset rfl (by omega), length_take, length_drop,
      readable_length_unscoped _ _ rfl, sharedTable_length] at hshort
    rw [maxDbListOffset] at hoffset
    omega

section Writes

variable {env : DraftsEnv} {table after : DraftTable} {identity : ConsumerIdentity}

/-- What is not writable stays, and what is new is writable, for an operator. -/
def WrittenBy (identity : ConsumerIdentity) (table after : DraftTable) : Prop :=
  (∀ draft ∈ table.rows, writable identity draft = false → draft ∈ after.rows) ∧
    ∀ draft ∈ after.rows, draft ∈ table.rows ∨
      identity.role.atLeast .operator = true ∧ writable identity draft = true

theorem ensured {b : Bool} {error : HttpException} {u : Unit}
    (h : (raiseIf (!b) error : Handler Unit) = .ok u) : b = true :=
  (Bool.not_eq_false' _).mp ((raiseIf_ok ..).mp h)

theorem writableOr404_ok {id : String} {draft : Draft}
    (h : writableOr404 table identity id = .ok draft) :
    draft ∈ table.rows ∧ writable identity draft = true := by
  rw [writableOr404, foundOr404] at h
  cases hget : table.get id with
  | none =>
    rw [hget] at h
    cases h
  | some row =>
    rw [hget] at h
    dsimp only at h
    split at h
    · next hrule =>
      cases h
      exact ⟨mem_of_find?_eq_some hget, hrule⟩
    · cases h

/-- Another row than one that is writable has another id. -/
theorem id_ne_of_writable {current draft : Draft} (hcurrent : current ∈ table.rows)
    (hwritable : writable identity current = true) (hdraft : draft ∈ table.rows)
    (hother : writable identity draft = false) : draft.id ≠ current.id := by
  intro hid
  rw [inj_on_of_nodup_map table.ids hdraft hcurrent hid, hwritable] at hother
  cases hother

theorem createDraft_written {body : DraftCreateRequest} {id : String} {now : Int}
    {shown : DraftRead} (h : createDraft env table identity body id now = .ok (shown, after)) :
    WrittenBy identity table after := by
  rcases bind_ok.mp h with ⟨_, hrole, h⟩
  rcases bind_ok.mp h with ⟨_, hscope, h⟩
  rcases bind_ok.mp h with ⟨_, hparticipants, h⟩
  rcases bind_ok.mp h with ⟨table', hadd, h⟩
  cases h
  unfold DraftTable.add at hadd
  split at hadd
  · cases hadd
  · cases hadd
    refine ⟨fun draft hdraft _ => mem_cons_of_mem _ hdraft, fun draft hdraft => ?_⟩
    rcases mem_cons.mp hdraft with rfl | hold
    · exact .inr ⟨ensured hrole, Bool.and_eq_true_iff.mpr
        ⟨ensured hparticipants, ensured hscope⟩⟩
    · exact .inl hold

theorem updateDraft_written {body : DraftUpdateRequest} {id : String} {now : Int}
    {shown : DraftRead} (h : updateDraft env table identity id body now = .ok (shown, after)) :
    WrittenBy identity table after := by
  rcases bind_ok.mp h with ⟨_, hrole, h⟩
  rcases bind_ok.mp h with ⟨current, hcurrent, h⟩
  rcases bind_ok.mp h with ⟨_, hparticipants, h⟩
  rcases bind_ok.mp h with ⟨_, hmove, h⟩
  cases h
  rcases writableOr404_ok hcurrent with ⟨hmem, hwritable⟩
  have haudience : hasAudience identity (body.projectId.getD current.projectId) = true := by
    unfold ensureMove at hmove
    split at hmove
    · exact ensured hmove
    · next hsame =>
      rw [bne_iff_ne, ne_eq, not_not] at hsame
      rw [hsame]
      exact (Bool.and_eq_true_iff.mp hwritable).2
  refine ⟨fun draft hdraft hother => ?_, fun draft hdraft => ?_⟩
  · have hid : draft.id ≠ current.id := id_ne_of_writable hmem hwritable hdraft hother
    exact mem_map.mpr ⟨draft, hdraft, if_neg hid⟩
  · rcases mem_map.mp hdraft with ⟨row, hrow, rfl⟩
    split
    · exact .inr ⟨ensured hrole, Bool.and_eq_true_iff.mpr
        ⟨ensured hparticipants, haudience⟩⟩
    · exact .inl hrow

theorem deleteDraft_written {id : String} (h : deleteDraft table identity id = .ok after) :
    WrittenBy identity table after := by
  rcases bind_ok.mp h with ⟨_, _, h⟩
  rcases bind_ok.mp h with ⟨current, hcurrent, h⟩
  cases h
  rcases writableOr404_ok hcurrent with ⟨hmem, hwritable⟩
  refine ⟨fun draft hdraft hother => mem_filter.mpr ⟨hdraft, bne_iff_ne.mpr ?_⟩,
    fun draft hdraft => .inl (mem_filter.mp hdraft).1⟩
  exact id_ne_of_writable hmem hwritable hdraft hother

theorem serve_written (call : ConsumerIdentity × WriteRequest) :
    WrittenBy call.1 table (serve env table call) := by
  rw [serve]
  split
  · next after hserved =>
    rcases call with ⟨identity, body | _ | _⟩
    · rcases map_ok.mp hserved with ⟨⟨shown, _⟩, h, rfl⟩
      exact createDraft_written h
    · rcases map_ok.mp hserved with ⟨⟨shown, _⟩, h, rfl⟩
      exact updateDraft_written h
    · exact deleteDraft_written hserved
  · exact ⟨fun draft hdraft _ => hdraft, fun draft hdraft => .inl hdraft⟩

/-- Whatever is asked by whomever, a draft that none of them may write stays as it is, and a
    draft that is new or changed is one that an operator among them may write. -/
theorem drafts_isolated (env : DraftsEnv) (calls : List (ConsumerIdentity × WriteRequest))
    (table : DraftTable) :
    (∀ draft ∈ table.rows, (∀ call ∈ calls, writable call.1 draft = false) →
      draft ∈ (calls.foldl (serve env) table).rows) ∧
    ∀ draft ∈ (calls.foldl (serve env) table).rows, draft ∈ table.rows ∨
      ∃ call ∈ calls, call.1.role.atLeast .operator = true ∧ writable call.1 draft = true := by
  induction calls generalizing table with
  | nil => exact ⟨fun draft hdraft _ => hdraft, fun draft hdraft => .inl hdraft⟩
  | cons call calls ih =>
    rcases @serve_written env table call with ⟨hkept, hnew⟩
    rcases ih (serve env table call) with ⟨hkepts, hnews⟩
    refine ⟨fun draft hdraft hnone => ?_, fun draft hdraft => ?_⟩
    · exact hkepts draft (hkept draft hdraft (hnone call mem_cons_self)) fun later hlater =>
        hnone later (mem_cons_of_mem _ hlater)
    · rcases hnews draft hdraft with hmem | ⟨later, hlater, hwrites⟩
      · exact (hnew draft hmem).imp id fun hwrites => ⟨call, mem_cons_self, hwrites⟩
      · exact .inr ⟨later, mem_cons_of_mem _ hlater, hwrites⟩

end Writes

end Apex.Routers.Drafts
