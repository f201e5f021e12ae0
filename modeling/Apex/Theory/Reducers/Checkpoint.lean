import Apex.Theory.Reducers.Attempts
import Apex.Theory.Reducers.Canonical
import Mathlib.Algebra.Order.BigOperators.Group.List
import Mathlib.Algebra.Order.Group.Nat

/-!
# Reading a Checkpoint Back

What `merge_phase_results` writes is read again at the next superstep, by the
same validators. If they reject it, the thread cannot take another step, so
everything the reducer writes ought to be acceptable to it.

It is, except for records that had to be given an identifier. They are
measured before the identifier is added, and on two paths the grown entry is
not measured again: an entry taken over as it is, and the inherited half of a
list of records. `StaysReadable` is the condition that the grown values are
still within the bounds, stated of the arguments of the reducer, and
`checkpoint_readable_iff` shows it to be the exact one.

## Main definitions

* `Settled`: An entry taken over is within the bounds with its identifiers.
* `heldRecords`: The inherited records that an update leaves in place.

## Theorems

* `settled_iff`: When an entry taken over is taken over again.
* `checkpoint_unreadable`: A channel that cannot.
-/

namespace Apex.Graphs

open List Option
open Domain

/-- An entry taken over as it is stays within the bounds with the identifiers
    its records are given. -/
structure Settled (env : ReducerEnv) (e : PhaseEntry) : Prop where
  nodes : (Json.ofDict (boundedEntry env e)).nodes ≤ maxReducerJsonNodes
  chars : (Json.ofDict (boundedEntry env e)).chars ≤ (phaseScanLimits e).maxTotalChars
  records : ∀ field ∈ byIdFields, ∀ v, e.get? field = some v →
    ∀ s ∈ fieldRecords env field v, RecordFits s

variable {e : PhaseEntry} {env : ReducerEnv} {field : String}

theorem Settled.fits (h : Settled env e) : EntryFits env e :=
  ⟨h.nodes, h.chars, fun field hfield v hv s hs => (h.records field hfield v hv s hs).keys⟩

theorem byIdOk_recordsJson {ss : List StableEntry} (hlen : ss.length ≤ byIdLimit field) :
    ByIdOk env field (recordsJson ss) ↔ ∀ s ∈ ss, RecordOk env s.toJson := by
  rw [ByIdOk, recent_recordsJson hlen, recordsOk_toJson]
  exact ⟨fun h => h.2, fun h => ⟨rfl, h⟩⟩

theorem settled_iff (hok : EntryOk env e) (hfields : FieldsOk env e) :
    boundedPhaseEntry env (boundedEntry env e) = .ok (boundedEntry env e) ↔ Settled env e := by
  have hrecords : ∀ field ∈ byIdFields, ∀ v, e.get? field = some v →
      (ByIdOk env field (recordsJson (fieldRecords env field v)) ↔
        ∀ s ∈ fieldRecords env field v, RecordFits s) := by
    intro field hfield v hv
    rw [byIdOk_recordsJson (length_fieldRecords_le env field v)]
    exact forall₂_congr (fun s hs => recordOk_iff_fits (hfields.byId field hfield v hv).2 hs)
  rw [boundedPhaseEntry_canonical env (canonical_boundedEntry env e), entryOk_boundedEntry hok]
  constructor
  · rintro ⟨⟨hfits, hagain⟩, _⟩
    refine ⟨hfits.nodes, hfits.chars, fun field hfield v hv => ?_⟩
    refine (hrecords field hfield v hv).mp (hagain.byId field hfield _ ?_)
    rw [get?_boundedEntry_byId env e hfield, hv]
    rfl
  · intro h
    refine ⟨⟨h.fits, fun field hfield v hv => ?_, fun field hfield v hv => ?_⟩, rfl⟩
    · rw [get?_boundedEntry_byId env e hfield, map_eq_some_iff] at hv
      rcases hv with ⟨w, hw, rfl⟩
      exact (hrecords field hfield w hw).mpr (h.records field hfield w hw)
    · rw [get?_boundedEntry_plain env e hfield, map_eq_some_iff] at hv
      rcases hv with ⟨w, hw, rfl⟩
      refine ⟨rfl, ?_⟩
      rw [recent_list (length_recent_le _ w)]
      exact (hfields.plain field hfield w hw).2

def heldRecords (env : ReducerEnv) (field : String) (current incoming : PhaseEntry) :
    List StableEntry :=
  held StableEntry.id (byIdLimit field) (fieldRecords env field (current.value field))
    (fieldRecords env field (incoming.value field))

theorem recent_boundedEntry_byId (env : ReducerEnv) (e : PhaseEntry) (h : field ∈ byIdFields) :
    recent (byIdLimit field) ((boundedEntry env e).value field) =
      (fieldRecords env field (e.value field)).map StableEntry.toJson := by
  rw [Dict.value, Dict.value, get?_boundedEntry_byId env e h]
  cases e.get? field with
  | none =>
    rw [map_none, getD_none, fieldRecords, recent_null]
    rfl
  | some v =>
    rw [map_some, getD_some, getD_some, recent_recordsJson (length_fieldRecords_le env field v)]

theorem isList_boundedEntry (env : ReducerEnv) (e : PhaseEntry)
    (h : field ∈ listFields) : isList ((boundedEntry env e).value field) = true :=
  (canonical_boundedEntry env e).listsOk field h

theorem byIdOk_boundedEntry (h : field ∈ byIdFields) :
    ByIdOk env field ((boundedEntry env e).value field) ↔
      ∀ s ∈ fieldRecords env field (e.value field), RecordOk env s.toJson := by
  rw [ByIdOk, recent_boundedEntry_byId env e h, recordsOk_toJson]
  exact ⟨fun h => h.2, fun hs => ⟨isList_boundedEntry env e (mem_listFields.mpr (Or.inl h)), hs⟩⟩

theorem value_boundedEntry_byId (env : ReducerEnv) (e : PhaseEntry) (h : field ∈ byIdFields) :
    records env (recent (byIdLimit field) ((boundedEntry env e).value field))
      = fieldRecords env field (e.value field) := by
  rw [recent_boundedEntry_byId env e h, records_toJson]

theorem value_boundedEntry_plain (env : ReducerEnv) (e : PhaseEntry) (h : field ∈ plainListFields) :
    recent (plainLimit field) ((boundedEntry env e).value field)
      = recent (plainLimit field) (e.value field) := by
  rw [Dict.value, Dict.value, get?_boundedEntry_plain env e h]
  cases e.get? field with
  | none => rfl
  | some v =>
    rw [map_some, getD_some, getD_some, recent_list (length_recent_le _ v)]

theorem unionRecords_bounded (env : ReducerEnv) (current : Json) (e : PhaseEntry)
    (h : field ∈ byIdFields) :
    unionRecords env field current ((boundedEntry env e).value field) =
      windowAppend StableEntry.id (byIdLimit field) (fieldRecords env field current)
        (fieldRecords env field (e.value field)) := by
  rw [unionRecords, value_boundedEntry_byId env e h]

theorem unionStrings_bounded (env : ReducerEnv) (current : Json) (e : PhaseEntry)
    (h : field ∈ plainListFields) :
    unionStrings field current ((boundedEntry env e).value field) =
      windowAppend (fun item => item) (plainLimit field) (recent (plainLimit field) current)
        (recent (plainLimit field) (e.value field)) := by
  rw [unionStrings, value_boundedEntry_plain env e h]

theorem stringsOk_sublist {xs ys : List Json} (h : xs.Sublist ys)
    (hys : StringsOk env ys) : StringsOk env xs := by
  rcases hys with ⟨hstr, hchars, hcontent⟩
  rw [contentOk_list] at hcontent
  refine ⟨?_, ?_, ?_⟩
  · rw [allStrings, List.all_eq_true] at hstr ⊢
    exact fun x hx => hstr x (h.subset hx)
  · rw [Json.chars, Json.charsList_eq] at hchars ⊢
    exact Nat.le_trans ((h.map Json.chars).sum_le_sum (fun _ _ => Nat.zero_le _)) hchars
  · rw [contentOk_list]
    exact fun x hx => hcontent x (h.subset hx)

theorem windowAppend_sublist {α κ : Type} [DecidableEq κ] (key : α → κ) (n : Nat)
    (acc xs : List α) : (windowAppend key n acc xs).Sublist (acc ++ xs) := by
  rcases appendNew_new_keys key acc xs with ⟨new, heq, hsub, _⟩
  rw [windowAppend, rtake, heq]
  exact (drop_sublist _ _).trans ((Sublist.refl acc).append hsub)

/-- When the records of a united entry are acceptable again. What the update
    adds was measured with its identifiers when it was merged; what is inherited
    was not. -/
theorem recordsOk_window {current : PhaseEntry}
    (hlists : UnionListsOk env current (boundedEntry env e)) (hfield : field ∈ byIdFields) :
    (∀ s ∈ unionRecords env field (current.value field) ((boundedEntry env e).value field),
      RecordOk env s.toJson) ↔ ∀ s ∈ heldRecords env field current e, RecordFits s := by
  have hcur := (hlists.byId field hfield).1.2
  have hinc := (hlists.byId field hfield).2
  rw [unionRecords_bounded env _ e hfield]
  rcases windowAppend_eq_held StableEntry.id (byIdLimit field)
    (fieldRecords env field (current.value field)) (fieldRecords env field (e.value field))
    (length_fieldRecords_le env field _) with ⟨new, heq, hsub, _, _⟩
  have hheld : ∀ s ∈ heldRecords env field current e, (RecordOk env s.toJson ↔ RecordFits s) :=
    fun s hs => recordOk_iff_fits hcur (mem_of_mem_drop hs)
  have hnew : ∀ s ∈ new, RecordOk env s.toJson :=
    fun s hs => (byIdOk_boundedEntry hfield).mp hinc s (hsub.subset hs)
  rw [heq, forall_mem_append]
  exact ⟨fun h s hs => (hheld s hs).mp (h.1 s hs),
    fun h => ⟨fun s hs => (hheld s hs).mpr (h s hs), hnew⟩⟩

/-- When an entry united with an update is taken over again: when the inherited
    records it still holds are within the bounds with their identifiers. -/
theorem unionEntry_settled_iff {current : PhaseEntry}
    (hlists : UnionListsOk env current (boundedEntry env e))
    (hok : EntryOk env (unionEntry env current (boundedEntry env e))) :
    boundedPhaseEntry env (unionEntry env current (boundedEntry env e))
        = .ok (unionEntry env current (boundedEntry env e)) ↔
      ∀ field ∈ byIdFields, ∀ s ∈ heldRecords env field current e, RecordFits s := by
  have hget : ∀ field ∈ listFields, (unionEntry env current (boundedEntry env e)).get? field =
      some (unionField env current (boundedEntry env e) field) := by
    intro field hfield
    rw [unionEntry, Dict.get?_assignAll, if_pos hfield]
  have hlen : ∀ field (c i : Json), (unionRecords env field c i).length ≤ byIdLimit field :=
    fun field c i => length_rtake_le _ _
  rw [boundedPhaseEntry_canonical env (canonical_unionEntry env current _)]
  constructor
  · rintro ⟨⟨_, hagain⟩, _⟩ field hfield
    refine (recordsOk_window hlists hfield).mp ((byIdOk_recordsJson (hlen field _ _)).mp
      (hagain.byId field hfield _ ?_))
    rw [hget field (mem_listFields.mpr (Or.inl hfield)), unionField, if_pos hfield]
  · intro h
    refine ⟨⟨hok, fun field hfield v hv => ?_, fun field hfield v hv => ?_⟩, rfl⟩
    · rw [hget field (mem_listFields.mpr (Or.inl hfield)), unionField, if_pos hfield,
        some.injEq] at hv
      rw [← hv]
      exact (byIdOk_recordsJson (hlen field _ _)).mpr ((recordsOk_window hlists hfield).mpr (h field hfield))
    · rw [hget field (mem_listFields.mpr (Or.inr hfield)), unionField,
        if_neg (not_mem_byId_of_plain hfield), some.injEq] at hv
      rw [← hv]
      refine ⟨rfl, ?_⟩
      rw [recent_list (l := unionStrings field _ _) (length_rtake_le _ _)]
      exact stringsOk_sublist (windowAppend_sublist _ _ _ _) (hlists.plain field hfield).2.1

/-- The object stored for a phase in an argument. -/
def objectAt (arg : Json) (phase : String) : Option (Dict Json) :=
  (entryAt arg phase).bind Json.dict?

/-- What is stored for a phase can be read back. An entry found on one side only
    is taken over as it is; one that is merged within an attempt holds on to
    records that were measured without their identifiers; one that starts the
    next attempt has been taken over twice already. -/
def StaysReadable (env : ReducerEnv) (left right : Option (Dict Json)) : Prop :=
  match left, right with
  | none, none => True
  | some e, none => Settled env e
  | none, some e => Settled env e
  | some current, some e => e.value "attempt" = current.value "attempt" →
      ∀ field ∈ byIdFields, ∀ s ∈ heldRecords env field current e, RecordFits s

theorem StoredAt.reread_iff {phase : String} {l r : Option Json} {m : PhaseEntry}
    (h : StoredAt env phase l r (some m)) :
    boundedPhaseEntry env m = .ok m ↔ StaysReadable env (l.bind Json.dict?) (r.bind Json.dict?) := by
  cases h with
  | fresh hb =>
    rcases (validatedEntry_ok env phase _ m).mp hb with ⟨e, hd, _, hbound⟩
    rcases (boundedPhaseEntry_ok env e m).mp hbound with ⟨⟨hok, hfields⟩, rfl⟩
    rw [bind_none, bind_some, hd, settled_iff hok hfields]
    rfl
  | inherited hb =>
    rcases (validatedEntry_ok env phase _ m).mp hb with ⟨e, hd, _, hbound⟩
    rcases (boundedPhaseEntry_ok env e m).mp hbound with ⟨⟨hok, hfields⟩, rfl⟩
    rw [bind_none, bind_some, hd, settled_iff hok hfields]
    rfl
  | merged hb hdl _ hm =>
    rename_i current b _
    rcases (validatedEntry_ok env phase _ b).mp hb with ⟨e, hd, _, hbound⟩
    rcases (boundedPhaseEntry_ok env e b).mp hbound with ⟨_, rfl⟩
    have hattempt := value_boundedEntry env e (k := "attempt") (by decide)
    rw [bind_some, bind_some, hd, hdl]
    rcases (mergePhaseEntry_ok env current _ m).mp hm with ⟨_, hcase⟩
    rcases hcase with ⟨hne, _, hagain⟩ | ⟨heq, _, hlists, rfl, hok⟩
    · -- The update was taken over a second time, and came out the same.
      have hsame := ((boundedPhaseEntry_canonical env (canonical_boundedEntry env e)).mp hagain).2
      rw [hattempt] at hne
      rw [← hsame]
      rw [← hsame] at hagain
      exact ⟨fun _ heq => absurd heq hne, fun _ => hagain⟩
    · rw [hattempt] at heq
      rw [unionEntry_settled_iff hlists hok]
      exact ⟨fun h _ => h, fun h => h heq⟩

theorem argOk_toJson {left right : Json} {m : PhaseResults}
    (h : mergePhaseResults env left right = .ok m) : ArgOk m.toJson := by
  rcases mergePhaseResults_stored h with ⟨⟨hl, hr⟩, hstored⟩
  have hnames : ∀ (arg : Json), ArgOk arg → ∀ phase raw, entryAt arg phase = some raw →
      phase ∈ phaseNames := by
    intro arg harg phase raw hraw
    rw [entryAt, bind_eq_some_iff] at hraw
    rcases hraw with ⟨d, hd, hget⟩
    have hok := harg.names
    rw [hd, phaseNamesOk, Bool.and_eq_true, List.all_eq_true] at hok
    exact of_decide_eq_true (hok.2 phase (Dict.get?_keys hget))
  have hkeys : ∀ phase ∈ m.keys, phase ∈ phaseNames := by
    intro phase hphase
    have hsome := Dict.has_iff_mem.mpr hphase
    rw [Dict.has, isSome_iff_exists] at hsome
    rcases hsome with ⟨e, he⟩
    have hs := hstored phase
    rw [he] at hs
    generalize hlp : entryAt left phase = lp at hs
    generalize hrp : entryAt right phase = rp at hs
    cases hs with
    | fresh _ => exact hnames right hr phase _ hrp
    | inherited _ => exact hnames left hl phase _ hlp
    | merged _ _ _ _ => exact hnames left hl phase _ hlp
  refine ⟨Or.inr (by rw [dict?_toJson]; rfl), ?_⟩
  rw [dict?_toJson, phaseNamesOk, Bool.and_eq_true, List.all_eq_true, Dict.keys_map,
    Dict.length_map]
  refine ⟨decide_eq_true ?_, fun phase hphase => decide_eq_true (hkeys phase hphase)⟩
  have hlen := (subperm_of_subset m.nodup hkeys).length_le
  rwa [List.length_map] at hlen

/-- A channel is read back as it is when each of its entries is taken over
    unchanged. -/
theorem reread_iff {m : PhaseResults} (harg : ArgOk m.toJson) (hrec : AllRecorded m) :
    mergePhaseResults env m.toJson .null = .ok m ↔
      ∀ phase e, m.get? phase = some e → boundedPhaseEntry env e = .ok e := by
  have hnull : ArgOk .null := ⟨Or.inl rfl, rfl⟩
  have hright : ∀ phase, entryAt .null phase = none := fun _ => rfl
  have hbound : ∀ phase e b, m.get? phase = some e →
      (validatedEntry env phase (Json.ofDict e) = .ok b ↔ boundedPhaseEntry env e = .ok b) := by
    intro phase e b he
    rw [validatedEntry_ok]
    constructor
    · rintro ⟨e', hd, _, hb⟩
      rw [Json.dict?_ofDict, some.injEq] at hd
      exact hd ▸ hb
    · exact fun hb => ⟨e, Json.dict?_ofDict e, (hrec phase e he).phase, hb⟩
  constructor
  · intro h phase e he
    have hs := (mergePhaseResults_stored h).2 phase
    rw [entryAt_toJson, he, map_some, hright] at hs
    cases hs with
    | inherited hb => exact (hbound phase e e he).mp hb
  · intro h
    have hall : ∀ phase, StoredAt env phase (entryAt m.toJson phase) (entryAt .null phase)
        (m.get? phase) := by
      intro phase
      rw [entryAt_toJson, hright]
      cases he : m.get? phase with
      | none => exact .absent
      | some e => exact .inherited ((hbound phase e e he).mpr (h phase e he))
    have hsource : validatedSource env (m.map (fun _ e => Json.ofDict e)) = .ok m := by
      rcases Dict.traverse_ok (validatedEntry env) (m.map (fun _ e => Json.ofDict e))
        (fun phase raw hraw => by
          rw [Dict.get?_map, map_eq_some_iff] at hraw
          rcases hraw with ⟨e, he, rfl⟩
          exact ⟨e, (hbound phase e e he).mpr (h phase e he)⟩) with ⟨m', hm'⟩
      have hsame : m' = m := by
        refine Dict.ext_get? ((Dict.traverse_keys hm').trans (Dict.keys_map _ m)) (fun phase => ?_)
        rcases Dict.traverse_get? hm' phase with ⟨hn, hn'⟩ | ⟨raw, w, hraw, hw, hw'⟩
        · rw [Dict.get?_map, map_eq_none_iff] at hn
          rw [hn, hn']
        · rw [Dict.get?_map, map_eq_some_iff] at hraw
          rcases hraw with ⟨e, he, rfl⟩
          rw [(hbound phase e e he).mpr (h phase e he), Except.ok.injEq] at hw
          rw [hw', he, hw]
      exact hsame ▸ hm'
    have hempty : validatedSource env ∅ = .ok ∅ := rfl
    rw [mergePhaseResults]
    simp only [bind_ok, phaseResultsArg_ok, raiseIf_ok, Bool.not_eq_false', exists_const]
    refine ⟨_, ⟨harg.object, rfl⟩, none, ⟨Or.inl trivial, rfl⟩, harg.names, rfl, ∅, hempty, ?_⟩
    rw [dict?_toJson, getD_some]
    by_cases hlen : m.length = 0
    · rw [if_pos (by rw [Dict.length_map]; exact hlen), Dict.eq_empty_of_length hlen]
      rfl
    · rw [if_neg (by rw [Dict.length_map]; exact hlen), if_pos Dict.length_empty]
      exact hsource

/-- What the reducer stored can be read back, and is left as it is, exactly when
    for each phase the records it had to identify are within the bounds with
    their identifiers. -/
theorem checkpoint_readable_iff (env : ReducerEnv) (left right : Json) (m : PhaseResults)
    (h : mergePhaseResults env left right = .ok m) :
    mergePhaseResults env m.toJson .null = .ok m ↔
      ∀ phase, StaysReadable env (objectAt left phase) (objectAt right phase) := by
  have hstored := (mergePhaseResults_stored h).2
  have hrec : AllRecorded m := fun phase e he => (he ▸ hstored phase).recorded
  rw [reread_iff (argOk_toJson h) hrec]
  constructor
  · intro hall phase
    have hs := hstored phase
    cases he : m.get? phase with
    | none =>
      rw [he] at hs
      rw [objectAt, objectAt]
      generalize entryAt left phase = l at hs
      generalize entryAt right phase = r at hs
      cases hs with
      | absent => trivial
    | some e =>
      rw [he] at hs
      exact hs.reread_iff.mp (hall phase e he)
  · intro hall phase e he
    have hs := hstored phase
    rw [he] at hs
    exact hs.reread_iff.mpr (hall phase)

theorem checkpoint_readable_running :
    mergePhaseResults sampleEnv (sampleChannel "running" 1).toJson .null
        = .ok (sampleChannel "running" 1) ↔
      ∀ phase, StaysReadable sampleEnv (objectAt .null phase)
        (objectAt (sampleChannel "running" 1).toJson phase) :=
  checkpoint_readable_iff sampleEnv .null (sampleChannel "running" 1).toJson
    (sampleChannel "running" 1) (by decide +kernel)

/-- A record of 512 values, and no `id` among its keys. -/
def fullRecord : Json :=
  .dict [("args", .list [.list (List.replicate 255 .null), .list (List.replicate 253 .null)])]

/-- An update of the execution phase with that record as its approval. -/
def fullRecordUpdate : Json :=
  .dict [("execution", .dict [("approvals", .list [fullRecord])])]

def fullRecordChannel : PhaseResults :=
  ((mergePhaseResults sampleEnv .null fullRecordUpdate).toOption).getD ∅

/-- The reducer accepts a record of 512 values, adds the `id`, and then rejects
    the channel it has written. -/
theorem checkpoint_unreadable :
    mergePhaseResults sampleEnv .null fullRecordUpdate = .ok fullRecordChannel ∧
      mergePhaseResults sampleEnv fullRecordChannel.toJson .null
        = .error "checkpointed reducer entry contains credential material" := by
  constructor <;> decide +kernel

end Apex.Graphs
