import Apex.Theory.Reducers.Checkpoint

/-!
# Replaying an Update

A node that is executed again after a crash returns the update it returned
before, and the reducer merges it into a channel that already holds it. That
changes nothing as long as three things hold, and `ReplaySafe` names them for
each phase: what is stored can be read back, which is the matter of the
identifiers again; nothing the update presents was pushed out of its window,
since it would be appended anew; and the lists are still within the bounds
when they are concatenated with themselves.

An entry stored for the first time lacks the list fields its update lacked,
while the replay, being a merge, assigns all of them. Equality is therefore
read up to absent lists: `SameEntry` compares two entries field by field,
taking an absent list for the empty one.

## Main definitions

* `SameResults`: Equality of channels, an absent list being an empty one.
* `ReplaySame`: Replaying an update that was merged into an entry.

## Theorems

* `replayFresh_iff`, `replaySame_iff`: When the replay of one entry changes
  nothing.
* `phase_results_replay_iff`: When the replay of an update changes nothing.
-/

namespace Apex.Graphs

open List Option
open Domain

variable (e : PhaseEntry)

/-- A field of an entry, an absent list being an empty one. -/
def readField (k : String) : Option Json :=
  if k ∈ listFields then some ((e.get? k).getD (.list [])) else e.get? k

/-- Equality of entries, an absent list being an empty one. -/
def SameEntry (e' : PhaseEntry) : Prop := ∀ k, readField e k = readField e' k

def SameResults (m m' : PhaseResults) : Prop :=
  ∀ phase, Option.Rel SameEntry (m.get? phase) (m'.get? phase)

def filled : PhaseEntry :=
  e.assignAll (fun k => (e.get? k).getD (.list [])) listFields

def missingFields : List String := listFields.filter (fun k => !e.has k)

theorem nodup_listFields : listFields.Nodup := by decide

theorem get?_filled (k : String) : (filled e).get? k = readField e k := by
  rw [filled, Dict.get?_assignAll, readField]

theorem sameEntry_filled : SameEntry (filled e) e := by
  intro k
  rw [readField, readField, get?_filled, readField]
  by_cases hk : k ∈ listFields
  · simp only [hk, if_true, getD_some]
  · simp only [hk, if_false]

theorem items_filled :
    (filled e).items = e.items ++ (missingFields e).map (fun k => (k, .list [])) := by
  rw [filled, Dict.items_assignAll nodup_listFields (fun k _ w hw => by rw [hw]; rfl),
    missingFields]
  congr 1
  refine map_congr_left (fun k hk => ?_)
  have hmiss := (mem_filter.mp hk).2
  rw [Bool.not_eq_true', Dict.has, isSome_eq_false_iff, isNone_iff_eq_none] at hmiss
  rw [hmiss]
  rfl

theorem length_filled :
    (filled e).length = e.length + (missingFields e).length := by
  rw [Dict.length, items_filled, length_append, List.length_map, Dict.length]

theorem nodes_filled :
    (Json.ofDict (filled e)).nodes = (Json.ofDict e).nodes + (missingFields e).length := by
  have hone : ∀ ks : List String,
      Json.nodesItems (ks.map (fun k => (k, Json.list []))) = ks.length := by
    intro ks
    induction ks with
    | nil => rfl
    | cons k ks ih =>
      rw [map_cons, Json.nodesItems, ih, length_cons, Nat.add_comm]
      rfl
  rw [Json.ofDict, Json.nodes, items_filled, Json.nodesItems_append, hone, Json.ofDict, Json.nodes,
    Nat.add_assoc]

theorem chars_filled :
    (Json.ofDict (filled e)).chars
      = (Json.ofDict e).chars + ((missingFields e).map String.length).sum := by
  have hkeys : ∀ ks : List String,
      Json.charsItems (ks.map (fun k => (k, Json.list []))) = (ks.map String.length).sum := by
    intro ks
    induction ks with
    | nil => rfl
    | cons k ks ih =>
      rw [map_cons, Json.charsItems, ih, map_cons, sum_cons]
      rfl
  rw [Json.ofDict, Json.chars, items_filled, Json.charsItems_append, hkeys, Json.ofDict, Json.chars]

variable {e m : PhaseEntry} {env : ReducerEnv} {field phase : String} {l r : Option Json}

theorem canonical_filled (h : Canonical e) : Canonical (filled e) := by
  have hread : ∀ field ∈ listFields, ∀ v, (filled e).get? field = some v →
      e.get? field = some v ∨ v = .list [] := by
    intro field hfield v hv
    rw [get?_filled, readField, if_pos hfield, some.injEq] at hv
    cases he : e.get? field with
    | none =>
      rw [he] at hv
      exact Or.inr hv.symm
    | some w =>
      rw [he] at hv
      exact Or.inl (congrArg some hv)
  constructor
  · intro field hfield v hv
    rcases hread field (mem_listFields.mpr (Or.inl hfield)) v hv with he | rfl
    · exact h.byId field hfield v he
    · exact ⟨[], rfl, Nat.zero_le _, nodup_nil⟩
  · intro field hfield v hv
    rcases hread field (mem_listFields.mpr (Or.inr hfield)) v hv with he | rfl
    · exact h.plain field hfield v he
    · exact ⟨[], rfl, Nat.zero_le _⟩

theorem value_filled (e : PhaseEntry) {k : String} (hk : k ∉ listFields) :
    (filled e).value k = e.value k := by
  rw [Dict.value, get?_filled, readField, if_neg hk, Dict.value]

/-- Replaying the update that stored an entry, rather than merged it. -/
structure ReplayFresh (env : ReducerEnv) (e : PhaseEntry) : Prop where
  records : ∀ field ∈ byIdFields, ∀ v, e.get? field = some v →
    ∀ s ∈ fieldRecords env field v, RecordFits s
  keys : e.length + (missingFields e).length ≤ 128
  nodes : (Json.ofDict (boundedEntry env e)).nodes + (missingFields e).length
    ≤ maxReducerJsonNodes
  chars : (Json.ofDict (boundedEntry env e)).chars + ((missingFields e).map String.length).sum
    ≤ (phaseScanLimits e).maxTotalChars
  strings : ∀ field ∈ plainListFields,
    2 * (recent (plainLimit field) (e.value field)).length < 512 ∧
      2 * (Json.list (recent (plainLimit field) (e.value field))).chars ≤ 1000000

theorem ReplayFresh.fits (h : ReplayFresh env e) :
    EntryFits env e := by
  refine ⟨Nat.le_trans (Nat.le_add_right _ _) h.nodes, Nat.le_trans (Nat.le_add_right _ _) h.chars,
    fun field hfield v hv s hs => (h.records field hfield v hv s hs).keys⟩

theorem missingFields_boundedEntry (env : ReducerEnv) (e : PhaseEntry) :
    missingFields (boundedEntry env e) = missingFields e := by
  refine filter_congr (fun k _ => ?_)
  rw [Dict.has, Dict.has, boundedEntry, Dict.get?_map, isSome_map]

theorem entryOk_filled (hok : EntryOk env e) (hfits : EntryFits env e) :
    EntryOk env (filled (boundedEntry env e)) ↔
      e.length + (missingFields e).length ≤ 128 ∧
        (Json.ofDict (boundedEntry env e)).nodes + (missingFields e).length ≤ maxReducerJsonNodes ∧
        (Json.ofDict (boundedEntry env e)).chars + ((missingFields e).map String.length).sum
          ≤ (phaseScanLimits e).maxTotalChars := by
  have hcanon := canonical_filled (canonical_boundedEntry env e)
  have hval : ∀ k, k ∉ listFields → (filled (boundedEntry env e)).value k = e.value k :=
    fun k hk => (value_filled _ hk).trans (value_boundedEntry env e hk)
  have hprompt := hval "resolved_prompt" (by decide)
  have hlen : (filled (boundedEntry env e)).length = e.length + (missingFields e).length := by
    rw [length_filled, missingFields_boundedEntry, boundedEntry, Dict.length_map]
  have hnodes := nodes_filled (boundedEntry env e)
  have hchars := chars_filled (boundedEntry env e)
  rw [missingFields_boundedEntry] at hnodes hchars
  -- A field of the filled entry is a field of the stored one, or an empty list.
  have hfield : ∀ k v, (filled (boundedEntry env e)).get? k = some v →
      (boundedEntry env e).get? k = some v ∨ (k ∈ listFields ∧ v = .list []) := by
    intro k v hv
    rw [get?_filled, readField] at hv
    split at hv
    · rename_i hk
      rw [some.injEq] at hv
      cases hb : (boundedEntry env e).get? k with
      | none =>
        rw [hb] at hv
        exact Or.inr ⟨hk, hv.symm⟩
      | some w =>
        rw [hb] at hv
        exact Or.inl (congrArg some hv)
    · exact Or.inl hv
  constructor
  · intro h
    have hc := h.chars
    rw [scanned_of_canonical hcanon, hchars, phaseScanLimits_congr hprompt] at hc
    have hn := h.shaped.1
    rw [scanned_of_canonical hcanon, hnodes] at hn
    exact ⟨hlen ▸ h.length_le, hn, hc⟩
  · rintro ⟨hk, hn, hc⟩
    refine ⟨hcanon.listsOk, ?_, ?_, ?_, ?_⟩
    · rw [scanned_of_canonical hcanon, entryTextLimit_congr hprompt, Shaped, hnodes,
        everyAt_ofDict, reducerShape_ofDict, hlen]
      refine ⟨hn, ⟨by decide, hk⟩, fun k v hv => ?_⟩
      rcases hfield k v hv with hb | ⟨_, rfl⟩
      · exact shape_boundedField hok hfits.keys hb
      · rfl
    · rw [fieldsOk_congr (hval "phase" (by decide)) (hval "status" (by decide))
        (hval "attempt" (by decide))]
      exact hok.fields
    · rw [scanned_of_canonical hcanon, hchars, phaseScanLimits_congr hprompt]
      exact hc
    · rw [scanned_of_canonical hcanon, phaseScanLimits_congr hprompt, contentOk_ofDict]
      intro k v hv
      rcases hfield k v hv with hb | ⟨hk, rfl⟩
      · exact content_boundedField hok hb
      · refine ⟨keyOk_reserved env.rules (phaseScanLimits_ge e).1 ?_, rfl⟩
        exact mem_cons_of_mem _ hk

theorem chars_list_append (xs ys : List Json) :
    (Json.list (xs ++ ys)).chars = (Json.list xs).chars + (Json.list ys).chars := by
  rw [Json.chars, Json.chars, Json.chars, Json.charsList_eq, Json.charsList_eq, Json.charsList_eq,
    map_append, sum_append]

theorem unionOk_iff {xs ys : List Json} (hxs : StringsOk env xs) (hys : StringsOk env ys) :
    UnionOk env xs ys ↔ xs.length + ys.length < 512 ∧
      (Json.list xs).chars + (Json.list ys).chars ≤ 1000000 := by
  rw [UnionOk, StringsOk, chars_list_append]
  constructor
  · rintro ⟨⟨_, hchars, _⟩, hlen⟩
    exact ⟨hlen, hchars⟩
  · rintro ⟨hlen, hchars⟩
    refine ⟨⟨?_, hchars, ?_⟩, hlen⟩
    · rw [allStrings, all_append, Bool.and_eq_true]
      exact ⟨hxs.1, hys.1⟩
    · have hx := (contentOk_list _ _ _).mp hxs.2.2
      have hy := (contentOk_list _ _ _).mp hys.2.2
      rw [contentOk_list, forall_mem_append]
      exact ⟨hx, hy⟩

theorem stringsOk_value (hfields : FieldsOk env e) (h : field ∈ plainListFields) :
    StringsOk env (recent (plainLimit field) (e.value field)) := by
  rw [Dict.value]
  cases hv : e.get? field with
  | none =>
    rw [getD_none, recent_null]
    exact ⟨rfl, Nat.zero_le _, rfl⟩
  | some v => exact (hfields.plain field h v hv).2

theorem unionEntry_self (env : ReducerEnv) (e : PhaseEntry) :
    unionEntry env (boundedEntry env e) (boundedEntry env e) = filled (boundedEntry env e) := by
  rw [unionEntry, Dict.update_eq_self _ _ (fun k v hv => hv), filled]
  refine Dict.assignAll_congr (fun field hfield => ?_)
  rw [unionField]
  rcases mem_listFields.mp hfield with hb | hp
  · have hself : windowAppend StableEntry.id (byIdLimit field)
        (fieldRecords env field (e.value field)) (fieldRecords env field (e.value field))
        = fieldRecords env field (e.value field) :=
      windowAppend_self StableEntry.id (length_fieldRecords_le env field _)
    have hrecords : fieldRecords env field ((boundedEntry env e).value field)
        = fieldRecords env field (e.value field) := by
      rw [fieldRecords, recent_boundedEntry_byId env e hb,
        distinctRecords_toJson (nodup_fieldRecords env field _)]
    rw [if_pos hb, unionRecords_bounded env _ e hb, hrecords, hself,
      get?_boundedEntry_byId env e hb, Dict.value]
    cases e.get? field with
    | none =>
      rw [map_none, getD_none, getD_none, fieldRecords, recent_null]
      rfl
    | some v => rfl
  · have hself : windowAppend (fun item => item) (plainLimit field)
        (recent (plainLimit field) (e.value field)) (recent (plainLimit field) (e.value field))
        = recent (plainLimit field) (e.value field) :=
      windowAppend_self _ (length_recent_le _ _)
    rw [if_neg (not_mem_byId_of_plain hp), unionStrings_bounded env _ e hp,
      value_boundedEntry_plain env e hp, hself, get?_boundedEntry_plain env e hp, Dict.value]
    cases e.get? field with
    | none => rw [map_none, getD_none, getD_none, recent_null]
    | some v => rfl

theorem replayFresh_iff (hok : EntryOk env e) (hfields : FieldsOk env e) :
    (∃ m', mergePhaseEntry env (boundedEntry env e) (boundedEntry env e) = .ok m' ∧
      SameEntry m' (boundedEntry env e)) ↔ ReplayFresh env e := by
  have hattempt : attemptOk ((boundedEntry env e).value "attempt") = true := by
    rw [value_boundedEntry env e (by decide)]
    exact attemptOk_of_entryOk hok
  have hkeeps : keepsTerminal (boundedEntry env e) (boundedEntry env e) := by
    intro _
    rw [askedStatus, Dict.value]
    cases (boundedEntry env e).get? "status" <;> rfl
  have hrecords : ∀ field ∈ byIdFields, ∀ s ∈ fieldRecords env field (e.value field),
      (RecordOk env s.toJson ↔ RecordFits s) := by
    intro field hfield s hs
    rw [Dict.value] at hs
    cases hv : e.get? field with
    | none =>
      rw [hv, getD_none, fieldRecords, recent_null] at hs
      exact absurd hs not_mem_nil
    | some v =>
      rw [hv, getD_some] at hs
      exact recordOk_iff_fits (hfields.byId field hfield v hv).2 hs
  have hvalue : ∀ field v, e.get? field = some v → e.value field = v := by
    intro field v hv
    rw [Dict.value, hv, getD_some]
  constructor
  · rintro ⟨m', hm', _⟩
    rcases (mergePhaseEntry_ok env _ _ m').mp hm' with ⟨⟨hboth, _, _⟩, hcase⟩
    rcases hcase with ⟨hne, _⟩ | ⟨_, _, hlists, rfl, hfilled⟩
    · exact absurd rfl hne
    · rw [unionEntry_self] at hfilled
      have hfitRecords : ∀ field ∈ byIdFields, ∀ v, e.get? field = some v →
          ∀ s ∈ fieldRecords env field v, RecordFits s := by
        intro field hfield v hv s hs
        rw [← hvalue field v hv] at hs
        exact (hrecords field hfield s hs).mp
          ((byIdOk_boundedEntry hfield).mp (hlists.byId field hfield).1 s hs)
      have hchars := hfilled.chars
      rw [scanned_of_canonical (canonical_filled (canonical_boundedEntry env e)), chars_filled,
        phaseScanLimits_congr (e := e) ((value_filled _ (by decide)).trans
          (value_boundedEntry env e (by decide)))] at hchars
      have hnodes := hboth.1.2.1
      rw [scanned_of_canonical (canonical_boundedEntry env e)] at hnodes
      have hfits : EntryFits env e := ⟨hnodes, Nat.le_trans (Nat.le_add_right _ _) hchars,
        fun field hfield v hv s hs => (hfitRecords field hfield v hv s hs).keys⟩
      rcases (entryOk_filled hok hfits).mp hfilled with ⟨hk, hn, hc⟩
      refine ⟨hfitRecords, hk, hn, hc, fun field hfield => ?_⟩
      have hstr := stringsOk_value hfields hfield
      have hunion := (hlists.plain field hfield).2
      rw [value_boundedEntry_plain env e hfield, unionOk_iff hstr hstr] at hunion
      omega
  · intro h
    have hbound : EntryOk env (boundedEntry env e) := (entryOk_boundedEntry hok).mpr h.fits
    refine ⟨filled (boundedEntry env e), ?_, sameEntry_filled _⟩
    refine (mergePhaseEntry_ok env _ _ _).mpr ⟨⟨⟨⟨hbound.lists, hbound.shaped⟩, hbound.lists,
      hbound.shaped⟩, hattempt, hattempt⟩, Or.inr ⟨rfl, hkeeps, ⟨?_, ?_⟩, unionEntry_self env e, ?_⟩⟩
    · intro field hfield
      have hby : ByIdOk env field ((boundedEntry env e).value field) := by
        refine (byIdOk_boundedEntry hfield).mpr (fun s hs => ?_)
        refine (hrecords field hfield s hs).mpr ?_
        rw [Dict.value] at hs
        cases hv : e.get? field with
        | none =>
          rw [hv, getD_none, fieldRecords, recent_null] at hs
          exact absurd hs not_mem_nil
        | some v =>
          rw [hv, getD_some] at hs
          exact h.records field hfield v hv s hs
      exact ⟨hby, hby⟩
    · intro field hfield
      have hlist := isList_boundedEntry env e (mem_listFields.mpr (Or.inr hfield))
      have hstr := stringsOk_value hfields hfield
      have hroom := h.strings field hfield
      refine ⟨⟨hlist, hlist⟩, ?_⟩
      rw [value_boundedEntry_plain env e hfield, unionOk_iff hstr hstr]
      omega
    · exact (entryOk_filled hok h.fits).mpr ⟨h.keys, h.nodes, h.chars⟩

/-- The inherited strings of a field that an update leaves in place. -/
def heldStrings (field : String) (current incoming : PhaseEntry) : List Json :=
  held (fun item => item) (plainLimit field) (recent (plainLimit field) (current.value field))
    (recent (plainLimit field) (incoming.value field))

/-- The strings of a field once an update has been merged into it. -/
def windowStrings (field : String) (current incoming : PhaseEntry) : List Json :=
  unionStrings field (current.value field) (incoming.value field)

structure ReplaySame (env : ReducerEnv) (current e : PhaseEntry) : Prop where
  records : ∀ field ∈ byIdFields, ∀ s ∈ heldRecords env field current e, RecordFits s
  keptRecords : ∀ field ∈ byIdFields, ∀ s ∈ fieldRecords env field (e.value field),
    s.id ∈ (fieldRecords env field (current.value field)).map StableEntry.id →
      s.id ∈ (heldRecords env field current e).map StableEntry.id
  keptStrings : ∀ field ∈ plainListFields, ∀ x ∈ recent (plainLimit field) (e.value field),
    x ∈ recent (plainLimit field) (current.value field) → x ∈ heldStrings field current e
  strings : ∀ field ∈ plainListFields,
    (windowStrings field current e).length
        + (recent (plainLimit field) (e.value field)).length < 512 ∧
      (Json.list (windowStrings field current e)).chars
        + (Json.list (recent (plainLimit field) (e.value field))).chars ≤ 1000000

theorem byIdLimit_pos (field : String) : 0 < byIdLimit field := by
  rw [byIdLimit]
  split <;> decide

theorem plainLimit_pos (field : String) : 0 < plainLimit field := by
  rw [plainLimit]
  split <;> decide

theorem recordsJson_injective : Function.Injective recordsJson := by
  intro ss ts h
  rw [recordsJson, recordsJson, Json.list.injEq] at h
  exact StableEntry.toJson_injective.list_map h

theorem get?_unionEntry_list (env : ReducerEnv) (current incoming : PhaseEntry)
    (h : field ∈ listFields) : (unionEntry env current incoming).get? field =
      some (unionField env current incoming field) := by
  rw [unionEntry, Dict.get?_assignAll, if_pos h]

theorem value_unionEntry_byId (env : ReducerEnv) (current e : PhaseEntry) (h : field ∈ byIdFields) :
    (unionEntry env current (boundedEntry env e)).value field =
      recordsJson (windowAppend StableEntry.id (byIdLimit field)
        (fieldRecords env field (current.value field))
        (fieldRecords env field (e.value field))) := by
  rw [Dict.value, get?_unionEntry_list env current _ (mem_listFields.mpr (Or.inl h)), unionField,
    if_pos h, unionRecords_bounded env _ e h, getD_some]

theorem value_unionEntry_plain (env : ReducerEnv) (current e : PhaseEntry)
    (h : field ∈ plainListFields) :
    (unionEntry env current (boundedEntry env e)).value field =
      .list (windowStrings field current e) := by
  rw [Dict.value, get?_unionEntry_list env current _ (mem_listFields.mpr (Or.inr h)), unionField,
    if_neg (not_mem_byId_of_plain h), unionStrings_bounded env _ e h, getD_some]
  rfl

/-- A list field after the replay is the one before exactly when nothing that
    the update presents had been pushed out. -/
theorem unionField_replay_byId (env : ReducerEnv) (current e : PhaseEntry)
    (h : field ∈ byIdFields) :
    unionField env (unionEntry env current (boundedEntry env e)) (boundedEntry env e) field =
        unionField env current (boundedEntry env e) field ↔
      ∀ s ∈ fieldRecords env field (e.value field),
        s.id ∈ (fieldRecords env field (current.value field)).map StableEntry.id →
          s.id ∈ (heldRecords env field current e).map StableEntry.id := by
  rw [unionField, unionField, if_pos h, if_pos h, recordsJson_injective.eq_iff,
    unionRecords_bounded env _ e h, unionRecords_bounded env _ e h,
    value_unionEntry_byId env current e h,
    fieldRecords_recordsJson (length_windowAppend_le StableEntry.id _ _ _)
      (windowAppend_nodup StableEntry.id _ _ _ (nodup_fieldRecords env field _)),
    windowAppend_replay_iff_held StableEntry.id _ (byIdLimit_pos field) _ _
      (length_fieldRecords_le env field _)]
  rfl

theorem unionField_replay_plain (env : ReducerEnv) (current e : PhaseEntry)
    (h : field ∈ plainListFields) :
    unionField env (unionEntry env current (boundedEntry env e)) (boundedEntry env e) field =
        unionField env current (boundedEntry env e) field ↔
      ∀ x ∈ recent (plainLimit field) (e.value field),
        x ∈ recent (plainLimit field) (current.value field) → x ∈ heldStrings field current e := by
  have hnot := not_mem_byId_of_plain h
  rw [unionField, unionField, if_neg hnot, if_neg hnot, Json.list.injEq,
    unionStrings_bounded env _ e h, unionStrings_bounded env _ e h,
    value_unionEntry_plain env current e h, windowStrings, unionStrings,
    recent_list (length_windowAppend_le (fun item => item) _ _ _),
    windowAppend_replay_iff_held (fun item => item) _ (plainLimit_pos field) _ _
      (length_recent_le _ _)]
  simp only [List.map_id']
  rfl

theorem unionEntry_replay (env : ReducerEnv) (current b : PhaseEntry)
    (h : ∀ field ∈ listFields,
      unionField env (unionEntry env current b) b field = unionField env current b field) :
    unionEntry env (unionEntry env current b) b = unionEntry env current b := by
  have hget : ∀ k, k ∉ listFields →
      (unionEntry env current b).get? k = (b.get? k).or (current.get? k) := by
    intro k hk
    rw [unionEntry, Dict.get?_assignAll, if_neg hk, Dict.get?_update]
  have hkeys : ∀ k, (b.get? k).isSome → ((unionEntry env current b).get? k).isSome := by
    intro k hk
    by_cases hlist : k ∈ listFields
    · rw [get?_unionEntry_list env current b hlist]
      rfl
    · rw [hget k hlist, isSome_or, hk, Bool.true_or]
  refine Dict.ext_get? ?_ (fun k => ?_)
  · -- The update adds no keys, and neither do the assignments.
    rw [unionEntry, Dict.keys_assignAll (fun field hfield => ?_), Dict.update,
      Dict.extend_eq_self, Dict.keys_map]
    · intro k hk
      rw [Dict.get?_map, isSome_map]
      exact hkeys k hk
    · rw [Dict.get?_update, get?_unionEntry_list env current b hfield, isSome_or]
      simp only [isSome_some, Bool.or_true]
  · by_cases hlist : k ∈ listFields
    · rw [get?_unionEntry_list env _ b hlist, get?_unionEntry_list env current b hlist, h k hlist]
    · rw [unionEntry, Dict.get?_assignAll, if_neg hlist, Dict.get?_update, hget k hlist]
      cases b.get? k <;> rfl

/-- When the replay of an update that was merged into an entry changes
    nothing. -/
theorem replaySame_iff {current : PhaseEntry} (hfields : FieldsOk env e)
    (hm : mergePhaseEntry env current (boundedEntry env e) = .ok m)
    (heq : e.value "attempt" = current.value "attempt") :
    (∃ m', mergePhaseEntry env m (boundedEntry env e) = .ok m' ∧ SameEntry m' m) ↔
      ReplaySame env current e := by
  have hattempt := value_boundedEntry env e (k := "attempt") (by decide)
  rcases (mergePhaseEntry_ok env current _ m).mp hm with ⟨⟨hboth, hca, hba⟩, hcase⟩
  rcases hcase with ⟨hne, _⟩ | ⟨hbeq, _, hlists, rfl, hok⟩
  · exact absurd (hattempt.trans heq) hne
  have hmerged : (unionEntry env current (boundedEntry env e)).value "attempt"
      = (boundedEntry env e).value "attempt" := by
    rw [value_unionEntry env current _ (by decide)]
    simp only [Dict.value] at hbeq ⊢
    cases ha : (boundedEntry env e).get? "attempt" with
    | some v => rfl
    | none =>
      rw [ha] at hbeq
      rw [none_or, ← hbeq]
  have hkeeps : keepsTerminal (unionEntry env current (boundedEntry env e))
      (boundedEntry env e) := by
    intro _
    rw [askedStatus, value_unionEntry env current _ (by decide)]
    cases hs : (boundedEntry env e).get? "status" with
    | none => rfl
    | some v => rfl
  have hby : ∀ field ∈ byIdFields,
      (ByIdOk env field ((unionEntry env current (boundedEntry env e)).value field) ↔
        ∀ s ∈ heldRecords env field current e, RecordFits s) := by
    intro field hfield
    rw [value_unionEntry_byId env current e hfield, byIdOk_recordsJson (length_windowAppend_le StableEntry.id _ _ _),
      ← unionRecords_bounded env _ e hfield]
    exact recordsOk_window hlists hfield
  have hplain : ∀ field ∈ plainListFields,
      (UnionPlainOk env field ((unionEntry env current (boundedEntry env e)).value field)
          ((boundedEntry env e).value field) ↔
        (windowStrings field current e).length
            + (recent (plainLimit field) (e.value field)).length < 512 ∧
          (Json.list (windowStrings field current e)).chars
            + (Json.list (recent (plainLimit field) (e.value field))).chars ≤ 1000000) := by
    intro field hfield
    have hlist := isList_boundedEntry env e (mem_listFields.mpr (Or.inr hfield))
    have hwindow : StringsOk env (windowStrings field current e) := by
      have hunion := (hlists.plain field hfield).2.1
      rw [value_boundedEntry_plain env e hfield] at hunion
      exact stringsOk_sublist (windowAppend_sublist _ _ _ _) hunion
    rw [value_unionEntry_plain env current e hfield, UnionPlainOk,
      recent_list (l := windowStrings field current e) (length_rtake_le _ _),
      value_boundedEntry_plain env e hfield, unionOk_iff hwindow (stringsOk_value hfields hfield)]
    exact ⟨fun h => h.2, fun h => ⟨⟨rfl, hlist⟩, h⟩⟩
  constructor
  · rintro ⟨m', hm', hsame⟩
    rcases (mergePhaseEntry_ok env _ _ m').mp hm' with ⟨_, hcase⟩
    rcases hcase with ⟨hne, _⟩ | ⟨_, _, hagain, rfl, _⟩
    · exact absurd hmerged.symm hne
    · have hfield : ∀ field ∈ listFields,
          unionField env (unionEntry env current (boundedEntry env e)) (boundedEntry env e) field =
            unionField env current (boundedEntry env e) field := by
        intro field hmem
        have hread := hsame field
        rw [readField, readField, if_pos hmem, if_pos hmem, get?_unionEntry_list env _ _ hmem,
          get?_unionEntry_list env _ _ hmem, getD_some, getD_some,
          some.injEq] at hread
        exact hread
      exact ⟨fun field hmem => (hby field hmem).mp (hagain.byId field hmem).1,
        fun field hmem => (unionField_replay_byId env current e hmem).mp
          (hfield field (mem_listFields.mpr (Or.inl hmem))),
        fun field hmem => (unionField_replay_plain env current e hmem).mp
          (hfield field (mem_listFields.mpr (Or.inr hmem))),
        fun field hmem => (hplain field hmem).mp (hagain.plain field hmem)⟩
  · intro h
    have hunion : unionEntry env (unionEntry env current (boundedEntry env e))
        (boundedEntry env e) = unionEntry env current (boundedEntry env e) := by
      refine unionEntry_replay env current _ (fun field hmem => ?_)
      rcases mem_listFields.mp hmem with hb | hp
      · exact (unionField_replay_byId env current e hb).mpr (h.keptRecords field hb)
      · exact (unionField_replay_plain env current e hp).mpr (h.keptStrings field hp)
    refine ⟨unionEntry env current (boundedEntry env e), ?_, fun _ => rfl⟩
    refine (mergePhaseEntry_ok env _ _ _).mpr ⟨⟨⟨⟨hok.lists, hok.shaped⟩, hboth.2⟩, ?_, hba⟩,
      Or.inr ⟨hmerged.symm, hkeeps, ⟨fun field hmem => ?_, fun field hmem => ?_⟩, hunion, hok⟩⟩
    · rw [hmerged]
      exact hba
    · exact ⟨(hby field hmem).mpr (h.records field hmem), (hlists.byId field hmem).2⟩
    · exact (hplain field hmem).mpr (h.strings field hmem)

/-- Replaying an update of one phase changes nothing. -/
def ReplaySafe (env : ReducerEnv) (left right : Option (Dict Json)) : Prop :=
  match left, right with
  | none, none => True
  | some e, none => Settled env e
  | none, some e => ReplayFresh env e
  | some current, some e =>
    (e.value "attempt" = current.value "attempt" → ReplaySame env current e) ∧
      (e.value "attempt" ≠ current.value "attempt" → ReplayFresh env e)

theorem storedAt_again_iff {raw : Json} {b m' : PhaseEntry}
    (hb : validatedEntry env phase raw = .ok b) (hm : Recorded phase m) :
    StoredAt env phase (some (Json.ofDict m)) (some raw) (some m') ↔
      mergePhaseEntry env m b = .ok m' := by
  constructor
  · intro h
    cases h with
    | merged hb' hd _ hmerge =>
      rw [hb, Except.ok.injEq] at hb'
      rw [Json.dict?_ofDict, some.injEq] at hd
      rw [hd, hb']
      exact hmerge
  · exact fun h => .merged hb (Json.dict?_ofDict m) hm.phase h

theorem StoredAt.replay_iff (h : StoredAt env phase l r (some m)) :
    (∃ m', StoredAt env phase (some (Json.ofDict m)) r (some m') ∧ SameEntry m' m) ↔
      ReplaySafe env (l.bind Json.dict?) (r.bind Json.dict?) := by
  have hrec := h.recorded
  have hreread := h.reread_iff
  cases h with
  | inherited hb =>
    rcases (validatedEntry_ok env phase _ m).mp hb with ⟨e, hd, _, hbound⟩
    rcases (boundedPhaseEntry_ok env e m).mp hbound with ⟨_, rfl⟩
    rw [bind_some, hd, bind_none] at hreread ⊢
    change _ ↔ Settled env e at hreread ⊢
    rw [← hreread]
    constructor
    · rintro ⟨m', hstored, _⟩
      cases hstored with
      | inherited hagain =>
        rcases (validatedEntry_ok env phase _ m').mp hagain with ⟨e', hd', _, hbound'⟩
        rw [Json.dict?_ofDict, some.injEq] at hd'
        subst hd'
        have hself := ((boundedPhaseEntry_canonical env (canonical_boundedEntry env e)).mp
          hbound').2
        rw [← hself] at hbound'
        exact hbound'
    · intro hagain
      refine ⟨boundedEntry env e, .inherited ?_, fun _ => rfl⟩
      exact (validatedEntry_ok env phase _ _).mpr ⟨_, Json.dict?_ofDict _, hrec.phase, hagain⟩
  | fresh hb =>
    rcases (validatedEntry_ok env phase _ m).mp hb with ⟨e, hd, _, hbound⟩
    rcases (boundedPhaseEntry_ok env e m).mp hbound with ⟨⟨hok, hfields⟩, rfl⟩
    rw [bind_some, hd, bind_none]
    simp only [storedAt_again_iff hb hrec]
    exact replayFresh_iff hok hfields
  | merged hb hdl hphase hm =>
    rename_i rawLeft raw current b
    rcases (validatedEntry_ok env phase _ b).mp hb with ⟨e, hd, _, hbound⟩
    rcases (boundedPhaseEntry_ok env e b).mp hbound with ⟨⟨hok, hfields⟩, rfl⟩
    rw [bind_some, bind_some, hd, hdl]
    simp only [storedAt_again_iff hb hrec]
    by_cases heq : e.value "attempt" = current.value "attempt"
    · rw [replaySame_iff hfields hm heq]
      exact ⟨fun h => ⟨fun _ => h, fun hne => absurd heq hne⟩, fun h => h.1 heq⟩
    · -- The next attempt is stored as it was taken over.
      have hattempt := value_boundedEntry env e (k := "attempt") (by decide)
      have hself : boundedEntry env e = m := by
        rcases (mergePhaseEntry_ok env current _ m).mp hm with ⟨_, hcase⟩
        rcases hcase with ⟨_, _, hagain⟩ | ⟨hbeq, _⟩
        · exact ((boundedPhaseEntry_canonical env (canonical_boundedEntry env e)).mp hagain).2
        · exact absurd (hattempt.symm.trans hbeq) heq
      subst hself
      rw [replayFresh_iff hok hfields]
      exact ⟨fun h => ⟨fun hne => absurd hne heq, fun _ => h⟩, fun h => h.2 heq⟩

theorem StoredAt.none_iff (h : StoredAt env phase l r none) : l = none ∧ r = none := by
  cases h with
  | absent => exact ⟨rfl, rfl⟩

theorem StoredAt.unique {o o' : Option PhaseEntry} (h : StoredAt env phase l r o)
    (h' : StoredAt env phase l r o') :
    o = o' := by
  cases h with
  | absent =>
    cases h' with
    | absent => rfl
  | fresh hb =>
    cases h' with
    | fresh hb' =>
      rw [hb, Except.ok.injEq] at hb'
      rw [hb']
  | inherited hb =>
    cases h' with
    | inherited hb' =>
      rw [hb, Except.ok.injEq] at hb'
      rw [hb']
  | merged hb hd _ hm =>
    cases h' with
    | merged hb' hd' _ hm' =>
      rw [hb, Except.ok.injEq] at hb'
      rw [hd, some.injEq] at hd'
      rw [hb', hd', hm', Except.ok.injEq] at hm
      rw [hm]

/-- Merging an update a second time is accepted and changes nothing exactly when
    it does so for each phase. -/
theorem phase_results_replay_iff {left right : Json} {m : PhaseResults}
    (h : mergePhaseResults env left right = .ok m) :
    (∃ m', mergePhaseResults env m.toJson right = .ok m' ∧ SameResults m' m) ↔
      ∀ phase, ReplaySafe env (objectAt left phase) (objectAt right phase) := by
  rcases mergePhaseResults_stored h with ⟨⟨_, hright⟩, hstored⟩
  constructor
  · rintro ⟨m', hm', hsame⟩ phase
    have hs := hstored phase
    have hs' := (mergePhaseResults_stored hm').2 phase
    have hrel := hsame phase
    rw [entryAt_toJson] at hs'
    cases he : m.get? phase with
    | none =>
      rw [he] at hs
      rcases hs.none_iff with ⟨hl, hr⟩
      rw [objectAt, objectAt, hl, hr]
      trivial
    | some e =>
      rw [he] at hs hs' hrel
      cases he' : m'.get? phase with
      | none =>
        rw [he'] at hrel
        cases hrel
      | some e' =>
        rw [he'] at hs' hrel
        cases hrel with
        | some hentry => exact hs.replay_iff.mp ⟨e', hs', hentry⟩
  · intro hall
    have hagain : ∀ phase, ∃ o, StoredAt env phase (entryAt m.toJson phase) (entryAt right phase) o ∧
        Option.Rel SameEntry o (m.get? phase) := by
      intro phase
      have hs := hstored phase
      rw [entryAt_toJson]
      cases he : m.get? phase with
      | none =>
        rw [he] at hs
        rw [hs.none_iff.2]
        exact ⟨none, .absent, .none⟩
      | some e =>
        rw [he] at hs
        rcases hs.replay_iff.mpr (hall phase) with ⟨e', hstored', hentry⟩
        exact ⟨some e', hstored', .some hentry⟩
    rcases mergePhaseResults_exists (argOk_toJson h) hright
      (fun phase => (hagain phase).imp (fun o ho => ho.1)) with ⟨m', hm'⟩
    refine ⟨m', hm', fun phase => ?_⟩
    rcases hagain phase with ⟨o, ho, hrel⟩
    rw [((mergePhaseResults_stored hm').2 phase).unique ho]
    exact hrel

end Apex.Graphs
