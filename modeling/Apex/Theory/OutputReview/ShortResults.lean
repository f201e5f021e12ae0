import Apex.Theory.OutputReview.Room

/-!
# Short Results

An entry with a short summary and the records of short discussions stays one when
it is updated: the reducers accept every update of its status, its summary or its
records, and the entry afterwards is known.

## Main definitions

* `ItemsFit`: A literal of an entry whose fields fit.
* `resultEntry`: The entry of a phase with a summary and records.

## Theorems

* `ItemsFit.bounded`: Such an entry is taken over as it is.
* `mergePhaseEntry_result`: What an update makes of a result.
-/

namespace Apex.Graphs

open List Option
open Domain

variable {env : GateEnv}

structure RecordsFit (env : GateEnv) (ss : List StableEntry) : Prop where
  length : ss.length ≤ maxDurableApprovals
  nodup : (ss.map StableEntry.id).Nodup
  small : ∀ s ∈ ss, Small env.rules 7 411 1 s.toJson

def FieldFits (env : GateEnv) (k : String) (v : Json) : Prop :=
  if k = "approvals" then ∃ ss, v = recordsJson ss ∧ RecordsFit env ss
  else if k ∈ listFields then v = .list []
  else Small env.rules 1 64 0 v

structure ItemsFit (env : GateEnv) (items : List (String × Json)) : Prop where
  nodup : (items.map Prod.fst).Nodup
  fields : ∀ k ∈ items.map Prod.fst, k ∈ plainFields
  values : ∀ kv ∈ items, FieldFits env kv.1 kv.2
  kinds : fieldsOk (dictOf items) = true

section Fits

theorem recordsFit_nil : RecordsFit env [] where
  length := Nat.zero_le _
  nodup := nodup_nil
  small _ hs := absurd hs not_mem_nil

theorem RecordsFit.small_records {ss : List StableEntry} (h : RecordsFit env ss) :
    Small env.rules 1793 105216 2 (recordsJson ss) := by
  have hlen : ss.length ≤ 256 := h.length
  refine (small_list (n := 7) (c := 411) (d := 1) ?_ ?_).mono ?_ ?_ (Nat.le_refl _)
  · rw [List.length_map]
    exact hlen
  · rw [List.forall_mem_map]
    exact h.small
  · rw [List.length_map]
    omega
  · rw [List.length_map]
    omega

def fieldNodes (k : String) : Nat := if k = "approvals" then 1793 else 1

def fieldChars (k : String) : Nat := if k = "approvals" then 105216 else 64

variable {v : Json} {k : String} {items : List (String × Json)}

theorem FieldFits.small (h : FieldFits env k v) :
    Small env.rules (fieldNodes k) (fieldChars k) 2 v := by
  unfold FieldFits at h
  unfold fieldNodes fieldChars
  by_cases hk : k = "approvals"
  · rw [if_pos hk] at h
    rw [if_pos hk, if_pos hk]
    rcases h with ⟨ss, rfl, hss⟩
    exact hss.small_records
  · rw [if_neg hk] at h
    rw [if_neg hk, if_neg hk]
    split at h
    · subst h
      exact (small_list (n := 0) (c := 0) (d := 0) (Nat.zero_le _)
        (fun x hx => absurd hx not_mem_nil)).mono (Nat.le_refl _) (Nat.zero_le _) (by decide)
    · exact h.mono (Nat.le_refl _) (Nat.le_refl _) (Nat.zero_le _)

theorem fieldFits_plain (hk : k ∈ plainListFields) (h : FieldFits env k v) :
    v = .list [] := by
  have hne : k ≠ "approvals" := fun heq => not_mem_byId_of_plain hk (heq ▸ approvals_byId)
  rw [FieldFits, if_neg hne, if_pos (mem_listFields.mpr (.inr hk))] at h
  exact h

theorem ItemsFit.get (h : ItemsFit env items)
    (hv : (dictOf items).get? k = some v) : k ∈ plainFields ∧ FieldFits env k v := by
  have hmem := Dict.get?_mem hv
  rw [items_dictOf h.nodup] at hmem
  exact ⟨h.fields k (List.mem_map_of_mem hmem), h.values (k, v) hmem⟩

theorem sum_fields_le {keys : List String} (hnd : keys.Nodup) (hfields : ∀ k ∈ keys, k ∈ plainFields)
    (f : String → Nat) : (keys.map f).sum ≤ (plainFields.map f).sum := by
  rcases hnd.subperm (fun k hk => hfields k hk) with ⟨l, hperm, hsub⟩
  rw [← (hperm.map f).sum_eq]
  exact (hsub.map f).sum_le_sum (fun _ _ => Nat.zero_le _)

theorem ItemsFit.small (hr : Plain env.rules)
    (h : ItemsFit env items) : Small env.rules 4096 200000 3 (.ofDict (dictOf items)) := by
  have hnodes := sum_fields_le h.nodup h.fields fieldNodes
  have hchars := sum_fields_le h.nodup h.fields (fun k => k.length + fieldChars k)
  have htotal : (plainFields.map fieldNodes).sum = 1815 ∧
      (plainFields.map (fun k => k.length + fieldChars k)).sum ≤ 107000 := by decide
  exact (small_dictOf hr _ rfl h.nodup h.fields (N := fieldNodes) (C := fieldChars) (d := 2)
    (fun kv hkv => (h.values kv hkv).small)).mono (by omega) (by omega) (Nat.le_refl _)

theorem ItemsFit.canonical (h : ItemsFit env items) :
    Canonical (dictOf items) := by
  constructor
  · intro field hfield v hv
    have hfits := (h.get hv).2
    rw [byIdFields, mem_cons, mem_singleton] at hfield
    rcases hfield with rfl | rfl
    · rcases hfits with ⟨ss, rfl, hss⟩
      exact ⟨ss, rfl, hss.length, hss.nodup⟩
    · exact ⟨[], hfits, Nat.zero_le _, nodup_nil⟩
  · intro field hfield v hv
    exact ⟨[], fieldFits_plain hfield (h.get hv).2, Nat.zero_le _⟩

theorem ItemsFit.entryOk (hr : Plain env.rules)
    (h : ItemsFit env items) : EntryOk env.toReducerEnv (dictOf items) := by
  have hsmall := h.small hr
  have hscanned := scanned_of_canonical h.canonical
  have hunlocked : systemLocked (dictOf items) = none := by
    have hnone : (dictOf items).get? "resolved_prompt" = none := by
      cases hget : (dictOf items).get? "resolved_prompt" with
      | none => rfl
      | some v => exact absurd (h.get hget).1 (by decide)
    rw [systemLocked, Dict.value, hnone]
    rfl
  have hlimits : (phaseScanLimits (dictOf items)).maxTotalChars = 200000 ∧
      64 ≤ (phaseScanLimits (dictOf items)).maxKeyChars ∧
      64 ≤ (phaseScanLimits (dictOf items)).maxStringChars := by
    rw [phaseScanLimits, hunlocked]
    decide
  have htext : entryTextLimit (dictOf items) = 50000 := by
    rw [entryTextLimit, hunlocked]
    rfl
  refine ⟨h.canonical.listsOk, ?_, h.kinds, ?_, ?_⟩
  · rw [hscanned, htext]
    exact ⟨hsmall.nodes, hsmall.shape 0 (by decide)⟩
  · rw [hscanned, hlimits.1]
    exact hsmall.chars
  · rw [hscanned]
    exact hsmall.content _ hlimits.2.1 hlimits.2.2

theorem byIdOk_fits (hk : k ∈ byIdFields) (h : FieldFits env k v) :
    ByIdOk env.toReducerEnv k v := by
  rw [byIdFields, mem_cons, mem_singleton] at hk
  rcases hk with rfl | rfl
  · rcases h with ⟨ss, rfl, hss⟩
    refine ⟨rfl, ?_⟩
    rw [show byIdLimit "approvals" = maxDurableApprovals from rfl, recent_recordsJson hss.length,
      recordsOk_toJson]
    exact fun s hs => (hss.small s hs).recordOk
  · cases (show v = .list [] from h)
    exact ⟨rfl, fun raw hraw => absurd hraw not_mem_nil⟩

theorem ItemsFit.listsFit (h : ItemsFit env items) :
    FieldsOk env.toReducerEnv (dictOf items) := by
  refine ⟨fun field hfield v hv => byIdOk_fits hfield (h.get hv).2, fun field hfield v hv => ?_⟩
  cases fieldFits_plain hfield (h.get hv).2
  rw [PlainOk, recent_list (Nat.zero_le _)]
  exact ⟨rfl, rfl, Nat.zero_le _, rfl⟩

theorem ItemsFit.recordsFit (h : ItemsFit env items) :
    RecordsFit env (approvalsIn env (dictOf items)) := by
  cases hget : (dictOf items).get? "approvals" with
  | none =>
    rw [approvalsIn_none (.inl hget)]
    exact recordsFit_nil
  | some v =>
    rcases (h.get hget).2 with ⟨rs, rfl, hrs⟩
    rw [approvalsIn, Dict.value, hget, getD_some, fieldRecords_recordsJson hrs.length hrs.nodup]
    exact hrs

theorem ItemsFit.summary (h : ItemsFit env items) {summary summary' : Json}
    (hget : ((dictOf items).get? "summary").getD summary = summary')
    (hsummary : Small env.rules 1 64 0 summary) : Small env.rules 1 64 0 summary' := by
  cases hv : (dictOf items).get? "summary" with
  | none =>
    rw [hv, getD_none] at hget
    exact hget ▸ hsummary
  | some v =>
    rw [hv, getD_some] at hget
    exact hget ▸ (h.get hv).2

theorem ItemsFit.bounded (hr : Plain env.rules) (h : ItemsFit env items) :
    boundedPhaseEntry env.toReducerEnv (dictOf items) = .ok (dictOf items) :=
  (boundedPhaseEntry_canonical _ h.canonical).mpr ⟨⟨h.entryOk hr, h.listsFit⟩, rfl⟩

theorem RecordsFit.window {ss rs : List StableEntry} (hss : RecordsFit env ss)
    (hrs : RecordsFit env rs) :
    RecordsFit env (windowAppend StableEntry.id maxDurableApprovals ss rs) where
  length := length_rtake_le _ _
  nodup := windowAppend_nodup StableEntry.id _ _ _ hss.nodup
  small s hs := by
    rcases appendNew_mem StableEntry.id (mem_of_mem_drop hs) with hs | hs
    · exact hss.small s hs
    · exact hrs.small s hs

end Fits

def resultKeys : List String :=
  ["phase", "status", "attempt", "started_at", "ended_at", "duration_s", "summary",
    "reasoning_digest", "transcript_ref", "artifact_ids", "warnings", "errors", "approvals",
    "tool_calls", "resolved_prompt_source"]

/-- The fields of the entry of a phase with a summary and records. -/
def resultItems (p : Phase) (n : Int) (status : PhaseStatus) (summary : Json)
    (ss : List StableEntry) : List (String × Json) :=
  [("phase", .str p.value), ("status", .str status.value), ("attempt", .int n),
    ("started_at", .null), ("ended_at", .null), ("duration_s", .null), ("summary", summary),
    ("reasoning_digest", .null), ("transcript_ref", .null), ("artifact_ids", .list []),
    ("warnings", .list []), ("errors", .list []), ("approvals", recordsJson ss),
    ("tool_calls", .list []), ("resolved_prompt_source", .null)]

def resultEntry (p : Phase) (n : Int) (status : PhaseStatus) (summary : Json)
    (ss : List StableEntry) : PhaseEntry := dictOf (resultItems p n status summary ss)

def resultUpdateKeys : List String := ["attempt", "status", "summary", "approvals"]

section Result

variable {p : Phase} {n : Int} {status status' : PhaseStatus} {summary summary' : Json}
  {ss : List StableEntry}

theorem keys_resultItems : (resultItems p n status summary ss).map Prod.fst = resultKeys := rfl

theorem nodup_resultKeys : resultKeys.Nodup := by decide

theorem short_status : ∀ status : PhaseStatus, ShortText status.value ∧
    status.value ∈ phaseStatusValues := by
  intro status
  unfold ShortText
  cases status <;> decide

theorem short_phaseName (p : Phase) : ShortText p.value ∧ p.value ∈ phaseNames := by
  unfold ShortText
  cases p <;> decide

theorem isAttempt_int (hn : 1 ≤ n) (hn' : n ≤ 1000000) : isAttempt (.int n) = true := by
  rw [isAttempt, decide_eq_true hn, decide_eq_true hn']
  rfl

theorem get_result (k : String) : (resultEntry p n status summary ss).get? k =
    (resultItems p n status summary ss).reverse.lookup k := by
  rw [resultEntry, get?_dictOf]

theorem get_phase : (resultEntry p n status summary ss).get? "phase" = some (.str p.value) := by
  rw [get_result]
  rfl

theorem get_status :
    (resultEntry p n status summary ss).get? "status" = some (.str status.value) := by
  rw [get_result]
  rfl

theorem get_attempt : (resultEntry p n status summary ss).get? "attempt" = some (.int n) := by
  rw [get_result]
  rfl

theorem get_summary : (resultEntry p n status summary ss).get? "summary" = some summary := by
  rw [get_result]
  rfl

theorem get_approvals :
    (resultEntry p n status summary ss).get? "approvals" = some (recordsJson ss) := by
  rw [get_result]
  rfl

variable {k : String}

theorem get_list (hk : k ∈ listFields) (hne : k ≠ "approvals") :
    (resultEntry p n status summary ss).get? k = some (.list []) := by
  rw [get_result]
  simp only [listFields, byIdFields, plainListFields, cons_append, nil_append,
    mem_cons, not_mem_nil, or_false] at hk
  rcases hk with rfl | rfl | rfl | rfl | rfl
  · exact absurd rfl hne
  all_goals rfl

theorem itemsFit_result (hr : Plain env.rules) (p : Phase) (status : PhaseStatus) (hn : 1 ≤ n) (hn' : n ≤ 1000000)
    (hsummary : Small env.rules 1 64 0 summary) (hss : RecordsFit env ss) :
    ItemsFit env (resultItems p n status summary ss) where
  nodup := nodup_resultKeys
  fields := by
    rw [keys_resultItems]
    decide
  values := by
    have hnull : Small env.rules 1 64 0 .null := small_null (Nat.le_refl _)
    have hattempt : Small env.rules 1 64 0 (.int n) :=
      (small_int (bitLength_attempt hn hn')).mono (Nat.le_refl _) (Nat.zero_le _) (Nat.le_refl _)
    simp only [resultItems, forall_mem_cons]
    exact ⟨small_str hr (short_phaseName p).1, small_str hr (short_status status).1, hattempt,
      hnull, hnull, hnull, hsummary, hnull, hnull, rfl, rfl, rfl, ⟨ss, rfl, hss⟩, rfl, hnull,
      fun _ h => absurd h not_mem_nil⟩
  kinds := by
    have hphase : isStrOf (· ∈ phaseNames) (.str p.value) = true :=
      decide_eq_true (short_phaseName p).2
    have hstatus : isStrOf (· ∈ phaseStatusValues) (.str status.value) = true :=
      decide_eq_true (short_status status).2
    rw [fieldsOk, ← resultEntry, Dict.value, Dict.value, Dict.value, get_phase, get_status,
      get_attempt, getD_some, getD_some, getD_some, hphase, hstatus,
      isAttempt_int hn hn', Bool.or_true, Bool.or_true, Bool.or_true]
    rfl

theorem keys_result : (resultEntry p n status summary ss).keys = resultKeys := by
  rw [Dict.keys, resultEntry, items_dictOf (keys_resultItems ▸ nodup_resultKeys), keys_resultItems]

theorem has_result (hk : k ∈ resultKeys) :
    ((resultEntry p n status summary ss).get? k).isSome = true := by
  have hkeys : (resultEntry p n status summary ss).keys = resultKeys := keys_result
  rw [← hkeys, ← Dict.has_iff_mem] at hk
  exact hk

theorem get_result_other {rs : List StableEntry} (hk : k ∉ resultUpdateKeys) :
    (resultEntry p n status summary ss).get? k = (resultEntry p n status' summary' rs).get? k := by
  rw [get_result, get_result]
  by_cases hmem : k ∈ resultKeys
  · simp only [resultKeys, mem_cons, not_mem_nil, or_false] at hmem
    rcases hmem with rfl | rfl | rfl | rfl | rfl | rfl | rfl | rfl | rfl | rfl | rfl | rfl | rfl |
      rfl | rfl
    all_goals first | rfl | exact absurd (by decide) hk
  · have hnone : ∀ (status : PhaseStatus) (summary : Json) (ss : List StableEntry),
        (resultItems p n status summary ss).reverse.lookup k = none := by
      intro status summary ss
      rw [lookup_eq_none_iff]
      intro item hitem
      rw [bne_iff_ne]
      rintro rfl
      rw [mem_reverse] at hitem
      exact hmem (keys_resultItems (p := p) ▸ List.mem_map_of_mem hitem)
    rw [hnone, hnone]

theorem windowAppend_nil {α κ : Type} [DecidableEq κ] (key : α → κ) (limit : Nat) :
    windowAppend key limit [] [] = [] := by
  rw [windowAppend, appendNew_nil, rtake, drop_nil]

theorem get_unionField {u : PhaseEntry} (hmissing : ∀ {k}, k ∉ resultUpdateKeys → u.get? k = none)
    (hss : RecordsFit env ss) (hk : k ∈ listFields) :
    some (unionField env.toReducerEnv (resultEntry p n status summary ss)
        (boundedEntry env.toReducerEnv u) k) =
      (resultEntry p n status' summary'
        (windowAppend StableEntry.id maxDurableApprovals ss (approvalsIn env u))).get? k := by
  have hnone : k ≠ "approvals" → u.value k = .null := by
    intro hne
    have hall : ∀ k ∈ listFields, k ∉ resultUpdateKeys ∨ k = "approvals" := by decide
    rw [Dict.value, hmissing ((hall k hk).resolve_right hne)]
    rfl
  by_cases happrovals : k = "approvals"
  · subst happrovals
    rw [unionField, if_pos approvals_byId, unionRecords_bounded _ _ u approvals_byId, Dict.value,
      get_approvals, getD_some, fieldRecords_recordsJson hss.length hss.nodup, get_approvals]
    rfl
  · rw [get_list hk happrovals, unionField]
    rcases mem_listFields.mp hk with hb | hp
    · rw [if_pos hb, unionRecords_bounded _ _ u hb, hnone happrovals, Dict.value,
        get_list hk happrovals, getD_some, fieldRecords, fieldRecords, recent_null,
        recent_list (Nat.zero_le _), distinctRecords, records, filterMap_nil, appendNew_nil,
        windowAppend_nil]
      rfl
    · rw [if_neg (not_mem_byId_of_plain hp), unionStrings_bounded _ _ u hp, hnone happrovals,
        Dict.value, get_list hk happrovals, getD_some, recent_null,
        recent_list (Nat.zero_le _), windowAppend_nil]

/-- An update with no other fields changes the status and the summary, and adds to
    the records. -/
theorem unionEntry_result (p : Phase) (status : PhaseStatus) {u : PhaseEntry} (hkeys : ∀ k, (u.get? k).isSome → k ∈ resultUpdateKeys)
    (hattempt : u.get? "attempt" = some (.int n))
    (hstatus : (u.get? "status").getD (.str status.value) = .str status'.value)
    (hsummary : (u.get? "summary").getD summary = summary') (hss : RecordsFit env ss) :
    unionEntry env.toReducerEnv (resultEntry p n status summary ss)
        (boundedEntry env.toReducerEnv u) =
      resultEntry p n status' summary'
        (windowAppend StableEntry.id maxDurableApprovals ss (approvalsIn env u)) := by
  have hmissing : ∀ {k}, k ∉ resultUpdateKeys → u.get? k = none := by
    intro k hk
    cases hget : u.get? k with
    | none => rfl
    | some v => exact absurd (hkeys k (by rw [hget]; rfl)) hk
  have hpresent : ∀ k, ((boundedEntry env.toReducerEnv u).get? k).isSome →
      ((resultEntry p n status summary ss).get? k).isSome = true := by
    intro k hk
    rw [boundedEntry, Dict.get?_map, isSome_map] at hk
    have hall : ∀ k ∈ resultUpdateKeys, k ∈ resultKeys := by decide
    exact has_result (hall k (hkeys k hk))
  have hupdate : ((resultEntry p n status summary ss).update
      (boundedEntry env.toReducerEnv u)).keys = resultKeys := by
    rw [Dict.update, Dict.extend_eq_self, Dict.keys_map, keys_result]
    intro k hk
    rw [Dict.get?_map, isSome_map]
    exact hpresent k hk
  have hlists : ∀ k ∈ listFields, (((resultEntry p n status summary ss).update
      (boundedEntry env.toReducerEnv u)).get? k).isSome := by
    have hall : ∀ k ∈ listFields, k ∈ resultKeys := by decide
    intro k hk
    rw [← hupdate] at hall
    exact Dict.has_iff_mem.mpr (hall k hk)
  refine Dict.ext_get? ?_ (fun k => ?_)
  · rw [keys_result]
    exact (Dict.keys_assignAll hlists).trans hupdate
  · rw [unionEntry, Dict.get?_assignAll]
    by_cases hlist : k ∈ listFields
    · rw [if_pos hlist]
      exact get_unionField (fun hk => hmissing hk) hss hlist
    · rw [if_neg hlist, Dict.get?_update, get?_boundedEntry_scalar _ u hlist]
      by_cases hk : k ∈ resultUpdateKeys
      · simp only [resultUpdateKeys, mem_cons, not_mem_nil, or_false] at hk
        rcases hk with rfl | rfl | rfl | rfl
        · rw [hattempt, get_attempt, get_attempt, some_or]
        · rw [get_status, get_status, ← hstatus]
          cases u.get? "status" <;> rfl
        · rw [get_summary, get_summary, ← hsummary]
          cases u.get? "summary" <;> rfl
        · exact absurd (mem_listFields.mpr (.inl approvals_byId)) hlist
      · rw [hmissing hk, none_or]
        exact get_result_other hk

theorem unionListsOk_fits {current incoming : List (String × Json)} (hc : ItemsFit env current)
    (hi : ItemsFit env incoming) :
    UnionListsOk env.toReducerEnv (dictOf current) (dictOf incoming) := by
  have hbyId : ∀ {items : List (String × Json)}, ItemsFit env items → ∀ k ∈ byIdFields,
      ByIdOk env.toReducerEnv k ((dictOf items).value k) := by
    intro items h k hk
    rw [Dict.value]
    cases hget : (dictOf items).get? k with
    | none =>
      rw [getD_none, ByIdOk, recent_null]
      exact ⟨rfl, fun raw hraw => absurd hraw not_mem_nil⟩
    | some v => exact byIdOk_fits hk (h.get hget).2
  have hplain : ∀ {items : List (String × Json)}, ItemsFit env items → ∀ k ∈ plainListFields,
      isList ((dictOf items).value k) = true ∧ recent (plainLimit k) ((dictOf items).value k) = [] := by
    intro items h k hk
    rw [Dict.value]
    cases hget : (dictOf items).get? k with
    | none => exact ⟨rfl, recent_null _⟩
    | some v =>
      cases fieldFits_plain hk (h.get hget).2
      exact ⟨rfl, recent_list (Nat.zero_le _)⟩
  refine ⟨fun k hk => ⟨hbyId hc k hk, hbyId hi k hk⟩, fun k hk => ?_⟩
  rcases hplain hc k hk with ⟨hcl, hcr⟩
  rcases hplain hi k hk with ⟨hil, hir⟩
  refine ⟨⟨hcl, hil⟩, ?_⟩
  rw [hcr, hir]
  exact ⟨⟨rfl, Nat.zero_le _, rfl⟩, by decide⟩

theorem mergePhaseEntry_result (hr : Plain env.rules) (hn : 1 ≤ n) (hn' : n ≤ 1000000)
    (hsummary : Small env.rules 1 64 0 summary) (hss : RecordsFit env ss)
    {items : List (String × Json)} (hu : ItemsFit env items)
    (hkeys : ∀ k ∈ items.map Prod.fst, k ∈ resultUpdateKeys)
    (hattempt : (dictOf items).get? "attempt" = some (.int n))
    (hstatus : ((dictOf items).get? "status").getD (.str status.value) = .str status'.value)
    (hsummary' : ((dictOf items).get? "summary").getD summary = summary')
    (hopen : isTerminal (.str status.value) = true → status' = status) :
    mergePhaseEntry env.toReducerEnv (resultEntry p n status summary ss) (dictOf items) =
      .ok (resultEntry p n status' summary'
        (windowAppend StableEntry.id maxDurableApprovals ss (approvalsIn env (dictOf items)))) := by
  have hcurrent := itemsFit_result hr p status hn hn' hsummary hss
  have hnext := itemsFit_result hr p status' hn hn' (hu.summary hsummary' hsummary)
    (hss.window hu.recordsFit)
  have hget : ∀ k, ((dictOf items).get? k).isSome → k ∈ resultUpdateKeys := by
    intro k hk
    rcases isSome_iff_exists.mp hk with ⟨v, hv⟩
    have hmem := Dict.get?_mem hv
    rw [items_dictOf hu.nodup] at hmem
    exact hkeys k (List.mem_map_of_mem hmem)
  have hunion := unionEntry_result p status hget hattempt hstatus hsummary' hss
  rw [boundedEntry_of_canonical _ hu.canonical] at hunion
  have hvalue : (resultEntry p n status summary ss).value "attempt" = .int n := by
    rw [Dict.value, get_attempt, getD_some]
  have hvalue' : (dictOf items).value "attempt" = .int n := by
    rw [Dict.value, hattempt, getD_some]
  have hok : attemptOk (.int n) = true := by
    rw [attemptOk, isAttempt_int hn hn', Bool.or_true]
  rw [mergePhaseEntry_ok, hvalue, hvalue']
  refine ⟨⟨⟨⟨(hcurrent.entryOk hr).lists, (hcurrent.entryOk hr).shaped⟩, (hu.entryOk hr).lists,
    (hu.entryOk hr).shaped⟩, hok, hok⟩, .inr ⟨rfl, ?_, unionListsOk_fits hcurrent hu, hunion,
    hnext.entryOk hr⟩⟩
  intro hterminal
  rw [Dict.value, get_status, getD_some] at hterminal
  rw [askedStatus, Dict.value, get_status, getD_some, hstatus, hopen hterminal]

end Result

end Apex.Graphs
