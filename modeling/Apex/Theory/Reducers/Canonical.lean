import Apex.Theory.Reducers.Merge

/-!
# Canonical Forms

What the reducers write is canonical: lists are cut to their caps, records
carry their identifiers, and no identifier occurs twice. Reading a canonical
form again changes nothing, so the only question at the next superstep is
whether it is still acceptable.

For a record that came with its `id` the answer is yes, since nothing was
added to it. A record that was given one has grown by a key, and by the
characters of the identifier, after it was measured. `RecordFits` is the
condition that it is still within the bounds, and `recordOk_identified` says
that nothing else can go wrong. The same holds one level up: an entry taken
over as it is has grown by what its records grew, and `EntryFits` says that
this is still within the bounds.

## Main definitions

* `RecordFits`: A record is within the bounds with its identifier.
* `EntryFits`: An entry is within the bounds with its identifiers.
* `Canonical`: The list fields of an entry are as the reducers write them.

## Theorems

* `identify?_toJson`: A record identifies as itself.
* `boundedEntry_of_canonical`: A canonical entry is taken over unchanged.
-/

namespace Apex.Graphs

open List Option
open Domain

theorem everyAt_ofDict (p : Nat → Json → Bool) (depth : Nat) (d : Dict Json) :
    (Json.ofDict d).everyAt p depth = true ↔
      p depth (Json.ofDict d) = true ∧ ∀ k v, d.get? k = some v → v.everyAt p (depth + 1) = true := by
  rw [Json.everyAt_eq]
  refine and_congr_right (fun _ => ?_)
  simp only [Json.ofDict, Json.children, List.forall_mem_map]
  exact ⟨fun h k v hv => h (k, v) (Dict.get?_mem hv),
    fun h kv hkv => h kv.1 kv.2 (Dict.get?_of_mem hkv)⟩

theorem everyAt_list (p : Nat → Json → Bool) (depth : Nat) (xs : List Json) :
    (Json.list xs).everyAt p depth = true ↔
      p depth (.list xs) = true ∧ ∀ x ∈ xs, x.everyAt p (depth + 1) = true :=
  Json.everyAt_eq p depth _

theorem contentOk_ofDict (rules : CredentialRules) (lim : ScanLimits) (d : Dict Json) :
    contentOk rules lim (Json.ofDict d) = true ↔
      ∀ k v, d.get? k = some v →
        keyOk rules lim.maxKeyChars k = true ∧ contentOk rules lim v = true := by
  rw [contentOk_eq]
  simp only [Json.ofDict, Json.children, valueOk, List.all_eq_true, List.forall_mem_map]
  constructor
  · rintro ⟨hkeys, hvals⟩ k v hv
    exact ⟨hkeys (k, v) (Dict.get?_mem hv), hvals (k, v) (Dict.get?_mem hv)⟩
  · intro h
    exact ⟨fun kv hkv => (h kv.1 kv.2 (Dict.get?_of_mem hkv)).1,
      fun kv hkv => (h kv.1 kv.2 (Dict.get?_of_mem hkv)).2⟩

theorem contentOk_list (rules : CredentialRules) (lim : ScanLimits) (xs : List Json) :
    contentOk rules lim (.list xs) = true ↔ ∀ x ∈ xs, contentOk rules lim x = true := by
  rw [contentOk_eq]
  exact ⟨fun h => h.2, fun h => ⟨rfl, h⟩⟩

theorem reducerShape_ofDict (limit depth : Nat) (d : Dict Json) :
    reducerShape limit depth (Json.ofDict d) = true ↔ depth ≤ 8 ∧ d.length ≤ 128 := by
  rw [Json.ofDict, reducerShape, Bool.and_eq_true, decide_eq_true_eq, decide_eq_true_eq,
    Dict.length]

theorem reducerShape_list (limit depth : Nat) (xs : List Json) :
    reducerShape limit depth (.list xs) = true ↔ depth ≤ 8 ∧ xs.length ≤ 256 := by
  rw [reducerShape, Bool.and_eq_true, decide_eq_true_eq, decide_eq_true_eq]

variable {env : ReducerEnv} {s : StableEntry} {raw v : Json} {raws : List Json}
  {ss : List StableEntry} {field k : String} {e e' : PhaseEntry}

theorem identifiedEntry_ok {e : Dict Json} (h : identifiedEntry env e = .ok s) :
    s.entry = e ∨ (s = derivedEntry env e ∧ e.value "id" = .null) := by
  unfold identifiedEntry at h
  split at h
  · rename_i hid
    rw [Except.ok.injEq] at h
    exact Or.inr ⟨h.symm, by rw [Dict.value, hid]; rfl⟩
  · rename_i hid
    rw [Except.ok.injEq] at h
    exact Or.inr ⟨h.symm, by rw [Dict.value, hid]; rfl⟩
  · split at h
    · rw [Except.ok.injEq] at h
      exact Or.inl (h ▸ rfl)
    · simp only [reduceCtorEq] at h
  · simp only [reduceCtorEq] at h

theorem identify?_eq_some (h : identify? env raw = some s) :
    ∃ e, raw = Json.ofDict e ∧ identifiedEntry env e = .ok s := by
  rw [identify?, bind_eq_some_iff] at h
  rcases h with ⟨e, he, hs⟩
  exact ⟨e, Json.dict?_eq_some he, toOption_eq_some.mp hs⟩

theorem StableEntry.ext_entry {t : StableEntry} (h : s.entry = t.entry) : s = t := by
  rcases s with ⟨e, id, hid, hvalid⟩
  rcases t with ⟨e', id', hid', hvalid'⟩
  simp only at h
  subst h
  rw [hid, some.injEq, Json.str.injEq] at hid'
  subst hid'
  rfl

theorem StableEntry.toJson_injective : Function.Injective StableEntry.toJson := by
  intro s t h
  have hd : (s.toJson).dict? = (t.toJson).dict? := by rw [h]
  rw [toJson, toJson, Json.dict?_ofDict, Json.dict?_ofDict, some.injEq] at hd
  exact StableEntry.ext_entry hd

@[simp] theorem identify?_toJson (env : ReducerEnv) (s : StableEntry) :
    identify? env s.toJson = some s := by
  rw [identify?, StableEntry.toJson, Json.dict?_ofDict, bind_some, toOption_eq_some]
  have hid := s.id_eq
  unfold identifiedEntry
  split
  · simp_all only [reduceCtorEq]
  · simp_all only [some.injEq, reduceCtorEq]
  · rename_i id hid'
    rw [hid, some.injEq, Json.str.injEq] at hid'
    rw [dif_pos (hid' ▸ s.id_valid), Except.ok.injEq]
    exact StableEntry.ext_entry rfl
  · rename_i v hne hv
    rw [hid, some.injEq] at hv
    exact absurd hv.symm (hne s.id)

@[simp] theorem records_toJson (env : ReducerEnv) (ss : List StableEntry) :
    records env (ss.map StableEntry.toJson) = ss := by
  rw [records, filterMap_map]
  have hsome : (identify? env ∘ StableEntry.toJson) = some := by
    funext s
    exact identify?_toJson env s
  rw [hsome, filterMap_some]

theorem recordsOk_toJson (env : ReducerEnv) (ss : List StableEntry) :
    RecordsOk env (ss.map StableEntry.toJson) ↔ ∀ s ∈ ss, RecordOk env s.toJson := by
  rw [RecordsOk, List.forall_mem_map]
  simp only [identify?_toJson, isSome_some, and_true]

theorem get?_derivedEntry (env : ReducerEnv) (e : Dict Json) (k : String) :
    (derivedEntry env e).entry.get? k =
      if k = "id" then some (.str (derivedId (env.digest (idlessEntry e)))) else e.get? k := by
  rw [derivedEntry]
  simp only [Dict.get?_set, idlessEntry, Dict.get?_filterKeys]
  by_cases hk : k = "id"
  · rw [if_pos hk, if_pos hk]
  · rw [if_neg hk, if_neg hk, if_pos (bne_iff_ne.mpr hk)]

theorem shape_identified {limit depth : Nat} (hid : identify? env raw = some s)
    (hraw : raw.everyAt (reducerShape limit) depth = true) (hlimit : 32 ≤ limit)
    (hdepth : depth ≤ 7) (hlen : s.entry.length ≤ 128) :
    s.toJson.everyAt (reducerShape limit) depth = true := by
  rcases identify?_eq_some hid with ⟨e, rfl, hs⟩
  rcases identifiedEntry_ok hs with heq | ⟨rfl, _⟩
  · rw [StableEntry.toJson, heq]
    exact hraw
  · rw [everyAt_ofDict] at hraw
    rw [StableEntry.toJson, everyAt_ofDict]
    refine ⟨?_, fun k v hv => ?_⟩
    · exact (reducerShape_ofDict limit depth _).mpr ⟨by omega, hlen⟩
    · rw [get?_derivedEntry] at hv
      split at hv
      · rw [some.injEq] at hv
        subst hv
        rw [Json.everyAt, reducerShape, length_derivedId, hasNul_derivedId]
        simp only [Bool.not_false, Bool.and_true, Bool.and_eq_true, decide_eq_true_eq]
        omega
      · exact hraw.2 k v hv

theorem content_identified {lim : ScanLimits} (hid : identify? env raw = some s)
    (hraw : contentOk env.rules lim raw = true) (hkey : 32 ≤ lim.maxKeyChars)
    (hstr : 32 ≤ lim.maxStringChars) :
    contentOk env.rules lim s.toJson = true := by
  rcases identify?_eq_some hid with ⟨e, rfl, hs⟩
  rcases identifiedEntry_ok hs with heq | ⟨rfl, _⟩
  · rw [StableEntry.toJson, heq]
    exact hraw
  · rw [contentOk_ofDict] at hraw
    rw [StableEntry.toJson, contentOk_ofDict]
    intro k v hv
    rw [get?_derivedEntry] at hv
    split at hv
    · rename_i hk
      rw [some.injEq] at hv
      subst hv
      refine ⟨keyOk_reserved env.rules hkey (by rw [hk]; decide), ?_⟩
      exact textOk_derived env.rules hstr _
    · exact hraw k v hv

structure RecordFits (s : StableEntry) : Prop where
  keys : s.entry.length ≤ 128
  nodes : s.toJson.nodes ≤ 512
  chars : s.toJson.chars ≤ 200000

theorem recordFits_of_ok (h : RecordOk env s.toJson) :
    RecordFits s := by
  refine ⟨?_, h.nodes, h.chars⟩
  have hshape := h.shape
  rw [StableEntry.toJson, everyAt_ofDict, reducerShape_ofDict] at hshape
  exact hshape.1.2

/-- An identified record is acceptable again exactly when it is within the
    bounds. -/
theorem recordOk_identified (hid : identify? env raw = some s) (hraw : RecordOk env raw) :
    RecordOk env s.toJson ↔ RecordFits s := by
  refine ⟨recordFits_of_ok, fun h => ⟨?_, h.nodes, h.chars, ?_⟩⟩
  · exact shape_identified hid hraw.shape (by decide) (by decide) h.keys
  · exact content_identified hid hraw.content (by decide) (by decide)

theorem mem_records (h : s ∈ records env raws) : ∃ raw ∈ raws, identify? env raw = some s :=
  mem_filterMap.mp h

theorem mem_distinctRecords
    (h : s ∈ distinctRecords env raws) : ∃ raw ∈ raws, identify? env raw = some s := by
  rcases appendNew_mem StableEntry.id h with hnil | hmem
  · exact absurd hnil not_mem_nil
  · exact mem_records hmem

theorem recordOk_iff_fits (hraws : RecordsOk env raws) (h : s ∈ distinctRecords env raws) :
    RecordOk env s.toJson ↔ RecordFits s := by
  rcases mem_distinctRecords h with ⟨raw, hraw, hid⟩
  exact recordOk_identified hid (hraws raw hraw).1

theorem nodup_distinctRecords (env : ReducerEnv) (raws : List Json) :
    ((distinctRecords env raws).map StableEntry.id).Nodup :=
  appendNew_nodup StableEntry.id [] _ nodup_nil

theorem length_distinctRecords_le (env : ReducerEnv) (raws : List Json) :
    (distinctRecords env raws).length ≤ raws.length := by
  rcases appendNew_new_keys StableEntry.id [] (records env raws) with ⟨new, heq, hsub, _⟩
  rw [distinctRecords, heq, nil_append]
  exact Nat.le_trans hsub.length_le (length_filterMap_le _ _)

theorem distinctRecords_toJson (hnd : (ss.map StableEntry.id).Nodup) :
    distinctRecords env (ss.map StableEntry.toJson) = ss := by
  rw [distinctRecords, records_toJson]
  exact appendNew_self_of_nodup StableEntry.id [] ss hnd

structure Canonical (e : PhaseEntry) : Prop where
  byId : ∀ field ∈ byIdFields, ∀ v, e.get? field = some v →
    ∃ ss, v = recordsJson ss ∧ ss.length ≤ byIdLimit field ∧ (ss.map StableEntry.id).Nodup
  plain : ∀ field ∈ plainListFields, ∀ v, e.get? field = some v →
    ∃ xs, v = .list xs ∧ xs.length ≤ plainLimit field

theorem phaseListLimit_byId (h : field ∈ byIdFields) :
    phaseListLimit field = byIdLimit field := by
  revert field
  decide

theorem phaseListLimit_plain (h : field ∈ plainListFields) :
    phaseListLimit field = plainLimit field := by
  revert field
  decide

theorem byIdLimit_le (field : String) : byIdLimit field ≤ 256 := by
  rw [byIdLimit]
  split <;> decide

theorem recent_list {n : Nat} {l : List Json} (h : l.length ≤ n) :
    recent n (.list l) = l := rtake_eq_self h

theorem recent_null (limit : Nat) : recent limit .null = [] := by
  simp only [recent, asList, rtake, drop_nil]

theorem recent_recordsJson {limit : Nat} (h : ss.length ≤ limit) :
    recent limit (recordsJson ss) = ss.map StableEntry.toJson :=
  recent_list (by rw [List.length_map]; exact h)

theorem fieldRecords_recordsJson (hlen : ss.length ≤ byIdLimit field)
    (hnd : (ss.map StableEntry.id).Nodup) :
    fieldRecords env field (recordsJson ss) = ss := by
  rw [fieldRecords, recent_recordsJson hlen, distinctRecords_toJson hnd]

theorem length_fieldRecords_le (env : ReducerEnv) (field : String) (v : Json) :
    (fieldRecords env field v).length ≤ byIdLimit field :=
  Nat.le_trans (length_distinctRecords_le env _) (length_recent_le _ v)

theorem nodup_fieldRecords (env : ReducerEnv) (field : String) (v : Json) :
    ((fieldRecords env field v).map StableEntry.id).Nodup := nodup_distinctRecords env _

theorem get?_boundedEntry_byId (env : ReducerEnv) (e : PhaseEntry)
    (h : field ∈ byIdFields) : (boundedEntry env e).get? field =
      (e.get? field).map (fun v => recordsJson (fieldRecords env field v)) := by
  simp only [boundedEntry, Dict.get?_map, h, if_true]

theorem get?_boundedEntry_plain (env : ReducerEnv) (e : PhaseEntry)
    (h : field ∈ plainListFields) : (boundedEntry env e).get? field =
      (e.get? field).map (fun v => .list (recent (plainLimit field) v)) := by
  simp only [boundedEntry, Dict.get?_map, not_mem_byId_of_plain h, h, if_true, if_false]

theorem get?_boundedEntry_scalar (env : ReducerEnv) (e : PhaseEntry)
    (h : k ∉ listFields) : (boundedEntry env e).get? k = e.get? k := by
  rw [mem_listFields, not_or] at h
  simp only [boundedEntry, Dict.get?_map, h.1, h.2, if_false, Option.map_id']

theorem canonical_boundedEntry (env : ReducerEnv) (e : PhaseEntry) :
    Canonical (boundedEntry env e) := by
  constructor
  · intro field hfield v hv
    rw [get?_boundedEntry_byId env e hfield, map_eq_some_iff] at hv
    rcases hv with ⟨w, _, rfl⟩
    exact ⟨_, rfl, length_fieldRecords_le env field w, nodup_fieldRecords env field w⟩
  · intro field hfield v hv
    rw [get?_boundedEntry_plain env e hfield, map_eq_some_iff] at hv
    rcases hv with ⟨w, _, rfl⟩
    exact ⟨_, rfl, length_recent_le _ w⟩

theorem canonical_unionEntry (env : ReducerEnv) (current incoming : PhaseEntry) :
    Canonical (unionEntry env current incoming) := by
  constructor
  · intro field hfield v hv
    rw [unionEntry, Dict.get?_assignAll, if_pos (mem_listFields.mpr (Or.inl hfield)), unionField,
      if_pos hfield, some.injEq] at hv
    exact ⟨_, hv.symm, length_rtake_le _ _,
      windowAppend_nodup StableEntry.id _ _ _ (nodup_fieldRecords env field _)⟩
  · intro field hfield v hv
    rw [unionEntry, Dict.get?_assignAll, if_pos (mem_listFields.mpr (Or.inr hfield)), unionField,
      if_neg (not_mem_byId_of_plain hfield), some.injEq] at hv
    exact ⟨_, hv.symm, length_rtake_le _ _⟩

theorem Canonical.listsOk (h : Canonical e) : ListsOk e := by
  rw [listsOk_iff]
  intro k v hv hk
  rcases mem_listFields.mp hk with hb | hp
  · rcases h.byId k hb v hv with ⟨ss, rfl, _⟩
    rfl
  · rcases h.plain k hp v hv with ⟨xs, rfl, _⟩
    rfl

theorem scanned_of_canonical (h : Canonical e) : scanned e = e := by
  refine Dict.map_eq_self e cutField (fun k v hv => ?_)
  rw [cutField]
  split
  · rename_i hk
    rcases mem_listFields.mp hk with hb | hp
    · rcases h.byId k hb v hv with ⟨ss, rfl, hlen, _⟩
      rw [phaseListLimit_byId hb, recent_recordsJson hlen]
      rfl
    · rcases h.plain k hp v hv with ⟨xs, rfl, hlen⟩
      rw [phaseListLimit_plain hp, recent_list hlen]
  · rfl

theorem boundedEntry_of_canonical (env : ReducerEnv) (h : Canonical e) :
    boundedEntry env e = e := by
  refine Dict.map_eq_self e _ (fun k v hv => ?_)
  by_cases hb : k ∈ byIdFields
  · rcases h.byId k hb v hv with ⟨ss, rfl, hlen, hnd⟩
    simp only [hb, if_true, fieldRecords_recordsJson hlen hnd]
  · by_cases hp : k ∈ plainListFields
    · rcases h.plain k hp v hv with ⟨xs, rfl, hlen⟩
      simp only [hb, hp, if_true, if_false, recent_list hlen]
    · simp only [hb, hp, if_false]

theorem boundedPhaseEntry_canonical (env : ReducerEnv) {b : PhaseEntry} (h : Canonical e) :
    boundedPhaseEntry env e = .ok b ↔ (EntryOk env e ∧ FieldsOk env e) ∧ e = b := by
  rw [boundedPhaseEntry_ok, boundedEntry_of_canonical env h]

structure EntryFits (env : ReducerEnv) (e : PhaseEntry) : Prop where
  nodes : (Json.ofDict (boundedEntry env e)).nodes ≤ maxReducerJsonNodes
  chars : (Json.ofDict (boundedEntry env e)).chars ≤ (phaseScanLimits e).maxTotalChars
  keys : ∀ field ∈ byIdFields, ∀ v, e.get? field = some v →
    ∀ s ∈ fieldRecords env field v, s.entry.length ≤ 128

section

variable (h : e'.value "resolved_prompt" = e.value "resolved_prompt")

include h

theorem systemLocked_congr :
    systemLocked e' = systemLocked e := by
  rw [systemLocked, systemLocked, h]

theorem phaseScanLimits_congr :
    phaseScanLimits e' = phaseScanLimits e := by
  rw [phaseScanLimits, phaseScanLimits, systemLocked_congr h]

theorem entryTextLimit_congr :
    entryTextLimit e' = entryTextLimit e := by
  rw [entryTextLimit, entryTextLimit, systemLocked_congr h]

end

theorem entryTextLimit_ge (e : PhaseEntry) : 32 ≤ entryTextLimit e := by
  rw [entryTextLimit, textLimit]
  split <;> decide

theorem phaseScanLimits_ge (e : PhaseEntry) :
    32 ≤ (phaseScanLimits e).maxKeyChars ∧ 32 ≤ (phaseScanLimits e).maxStringChars := by
  rw [phaseScanLimits]
  split <;> decide

theorem EntryOk.shape_field (h : EntryOk env e) (hv : e.get? k = some v) :
    (cutField k v).everyAt (reducerShape (entryTextLimit e)) 1 = true := by
  have hshape := h.shaped.2
  rw [everyAt_ofDict] at hshape
  refine hshape.2 k (cutField k v) ?_
  rw [scanned, Dict.get?_map, hv]
  rfl

theorem EntryOk.content_field (h : EntryOk env e) (hv : e.get? k = some v) :
    keyOk env.rules (phaseScanLimits e).maxKeyChars k = true ∧
      contentOk env.rules (phaseScanLimits e) (cutField k v) = true := by
  have hcontent := h.content
  rw [contentOk_ofDict] at hcontent
  refine hcontent k (cutField k v) ?_
  rw [scanned, Dict.get?_map, hv]
  rfl

theorem EntryOk.length_le (h : EntryOk env e) :
    e.length ≤ 128 := by
  have hshape := h.shaped.2
  rw [everyAt_ofDict, reducerShape_ofDict, scanned, Dict.length_map] at hshape
  exact hshape.1.2

theorem cutField_byId (h : field ∈ byIdFields) (v : Json) :
    cutField field v = .list (recent (byIdLimit field) v) := by
  rw [cutField, if_pos (mem_listFields.mpr (Or.inl h)), phaseListLimit_byId h]

theorem cutField_plain (h : field ∈ plainListFields) (v : Json) :
    cutField field v = .list (recent (plainLimit field) v) := by
  rw [cutField, if_pos (mem_listFields.mpr (Or.inr h)), phaseListLimit_plain h]

theorem cutField_scalar (h : k ∉ listFields) (v : Json) : cutField k v = v := by
  rw [cutField, if_neg h]

/-- A field of an entry that is taken over keeps its shape, provided the records
    have room for their identifiers. -/
theorem shape_boundedField (hok : EntryOk env e)
    (hkeys : ∀ field ∈ byIdFields, ∀ v, e.get? field = some v →
      ∀ s ∈ fieldRecords env field v, s.entry.length ≤ 128)
    (hv : (boundedEntry env e).get? k = some v) :
    v.everyAt (reducerShape (entryTextLimit e)) 1 = true := by
  by_cases hb : k ∈ byIdFields
  · rw [get?_boundedEntry_byId env e hb, map_eq_some_iff] at hv
    rcases hv with ⟨w, hw, rfl⟩
    have hshape := hok.shape_field hw
    rw [cutField_byId hb, everyAt_list] at hshape
    rw [recordsJson, everyAt_list, reducerShape_list, List.length_map]
    refine ⟨⟨by decide, Nat.le_trans (length_fieldRecords_le env k w) (byIdLimit_le k)⟩, ?_⟩
    rw [List.forall_mem_map]
    intro s hs
    rcases mem_distinctRecords hs with ⟨raw, hraw, hid⟩
    exact shape_identified hid (hshape.2 raw hraw) (entryTextLimit_ge e) (by decide)
      (hkeys k hb w hw s hs)
  · by_cases hp : k ∈ plainListFields
    · rw [get?_boundedEntry_plain env e hp, map_eq_some_iff] at hv
      rcases hv with ⟨w, hw, rfl⟩
      rw [← cutField_plain hp]
      exact hok.shape_field hw
    · have hk : k ∉ listFields := fun h => (mem_listFields.mp h).elim hb hp
      rw [get?_boundedEntry_scalar env e hk] at hv
      rw [← cutField_scalar hk v]
      exact hok.shape_field hv

theorem content_boundedField (hok : EntryOk env e) (hv : (boundedEntry env e).get? k = some v) :
    keyOk env.rules (phaseScanLimits e).maxKeyChars k = true ∧
      contentOk env.rules (phaseScanLimits e) v = true := by
  by_cases hb : k ∈ byIdFields
  · rw [get?_boundedEntry_byId env e hb, map_eq_some_iff] at hv
    rcases hv with ⟨w, hw, rfl⟩
    have hcontent := hok.content_field hw
    rw [cutField_byId hb, contentOk_list] at hcontent
    refine ⟨hcontent.1, ?_⟩
    rw [recordsJson, contentOk_list, List.forall_mem_map]
    intro s hs
    rcases mem_distinctRecords hs with ⟨raw, hraw, hid⟩
    exact content_identified hid (hcontent.2 raw hraw) (phaseScanLimits_ge e).1
      (phaseScanLimits_ge e).2
  · by_cases hp : k ∈ plainListFields
    · rw [get?_boundedEntry_plain env e hp, map_eq_some_iff] at hv
      rcases hv with ⟨w, hw, rfl⟩
      rw [← cutField_plain hp]
      exact hok.content_field hw
    · have hk : k ∉ listFields := fun h => (mem_listFields.mp h).elim hb hp
      rw [get?_boundedEntry_scalar env e hk] at hv
      rw [← cutField_scalar hk v]
      exact hok.content_field hv

theorem fieldsOk_congr (hphase : e'.value "phase" = e.value "phase")
    (hstatus : e'.value "status" = e.value "status")
    (hattempt : e'.value "attempt" = e.value "attempt") : fieldsOk e' = fieldsOk e := by
  rw [fieldsOk, fieldsOk, hphase, hstatus, hattempt]

/-- An entry taken over is acceptable again exactly when it is within the bounds
    with the identifiers its records were given. -/
theorem entryOk_boundedEntry (hok : EntryOk env e) :
    EntryOk env (boundedEntry env e) ↔ EntryFits env e := by
  have hcanon := canonical_boundedEntry env e
  have hval := fun k (hk : k ∉ listFields) => value_boundedEntry env e (k := k) hk
  have hprompt := hval "resolved_prompt" (by decide)
  constructor
  · intro h
    have hchars := h.chars
    rw [scanned_of_canonical hcanon, phaseScanLimits_congr hprompt] at hchars
    have hshaped := h.shaped
    rw [scanned_of_canonical hcanon, Shaped, everyAt_ofDict] at hshaped
    refine ⟨hshaped.1, hchars, fun field hfield v hv s hs => ?_⟩
    have hlist := hshaped.2.2 field (recordsJson (fieldRecords env field v)) (by
      rw [get?_boundedEntry_byId env e hfield, hv]
      rfl)
    rw [recordsJson, everyAt_list, List.forall_mem_map] at hlist
    have hrecord := hlist.2 s hs
    rw [StableEntry.toJson, everyAt_ofDict, reducerShape_ofDict] at hrecord
    exact hrecord.1.2
  · intro h
    refine ⟨hcanon.listsOk, ?_, ?_, ?_, ?_⟩
    · rw [scanned_of_canonical hcanon, entryTextLimit_congr hprompt, Shaped, everyAt_ofDict,
        reducerShape_ofDict]
      refine ⟨h.nodes, ⟨by decide, ?_⟩, fun k v hv => shape_boundedField hok h.keys hv⟩
      rw [boundedEntry, Dict.length_map]
      exact hok.length_le
    · rw [fieldsOk_congr (hval "phase" (by decide)) (hval "status" (by decide))
        (hval "attempt" (by decide))]
      exact hok.fields
    · rw [scanned_of_canonical hcanon, phaseScanLimits_congr hprompt]
      exact h.chars
    · rw [scanned_of_canonical hcanon, phaseScanLimits_congr hprompt, contentOk_ofDict]
      exact fun k v hv => content_boundedField hok hv

end Apex.Graphs
