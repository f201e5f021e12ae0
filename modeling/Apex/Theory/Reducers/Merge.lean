import Apex.Theory.Reducers.Bounds

/-!
# What the Reducers Store

Each merging function of the reducers is characterised by when it succeeds and
what it then returns. `boundedEntry` is an entry taken over as it is,
`unionEntry` an entry merged with an update of the same attempt; both are
plain functions of their arguments, so later files reason about them by
looking up fields.

`mergePhaseResults` works phase by phase: what it stores for a phase depends on
the two entries of that phase alone. `mergedAt` is that function of two
entries, and `mergePhaseResults_get?` and `mergePhaseResults_exists` reduce
every statement about the reducer to it.

## Main definitions

* `boundedEntry`: An entry with its lists cut and its records identified.
* `unionEntry`: An entry merged with an update of the same attempt.
* `mergedAt`: What is stored for one phase.

## Theorems

* `boundedPhaseEntry_ok`: When an entry is taken over, and as what.
* `mergePhaseResults_get?`: What the reducer stores for each phase.
* `mergePhaseResults_exists`: When the reducer accepts.
-/

namespace Apex.Graphs

open List Function
open Option hiding or_self
open Domain

variable (env : ReducerEnv) (field : String) (v : Json)

/-- The distinct records of a field, as the reducers read it. -/
def fieldRecords : List StableEntry :=
  distinctRecords env (recent (byIdLimit field) v)

def recordsJson (ss : List StableEntry) : Json := .list (ss.map StableEntry.toJson)

/-- What makes a list of strings acceptable on its own. -/
def StringsOk (values : List Json) : Prop :=
  allStrings values = true ∧ (Json.list values).chars ≤ 1000000 ∧
    contentOk env.rules plainScanLimits (.list values) = true

/-- What makes two lists of strings acceptable together. -/
def UnionOk (current incoming : List Json) : Prop :=
  StringsOk env (current ++ incoming) ∧ current.length + incoming.length < 512

theorem nodes_strings {values : List Json} (h : allStrings values = true) :
    (Json.list values).nodes = values.length + 1 := by
  have hone : values.map Json.nodes = values.map (fun _ => 1) := by
    refine map_congr_left (fun v hv => ?_)
    have hstr := List.all_eq_true.mp h v hv
    cases v <;> first | rfl | exact absurd hstr Bool.false_ne_true
  rw [Json.nodes, Json.nodesList_eq, hone, map_const', sum_replicate_nat, Nat.mul_one, Nat.add_comm]

theorem plainScan_ok {limit : Nat} {values : List Json} (hlen : values.length ≤ limit) :
    (allStrings values = true ∧ containsCredentialMaterial env.rules
        { plainScanLimits with maxNodes := limit + 1, maxNodes_pos := Nat.succ_pos limit }
        (.list values) = false) ↔
      StringsOk env values := by
  rw [StringsOk]
  refine and_congr_right (fun hstr => ?_)
  rw [containsCredentialMaterial_eq_false, nodes_strings hstr]
  exact ⟨fun h => ⟨h.2.1, h.2.2⟩, fun h => ⟨Nat.succ_le_succ hlen, h.1, h.2⟩⟩

theorem unionScan_ok {current incoming : List Json} :
    (allStrings (current ++ incoming) = true ∧
      containsCredentialMaterial env.rules unionScanLimits (.list (current ++ incoming)) = false) ↔
      UnionOk env current incoming := by
  rw [UnionOk, StringsOk, and_assoc]
  refine and_congr_right (fun hstr => ?_)
  rw [containsCredentialMaterial_eq_false, nodes_strings hstr, length_append]
  constructor
  · rintro ⟨hn, ht, hok⟩
    exact ⟨⟨ht, hok⟩, hn⟩
  · rintro ⟨⟨ht, hok⟩, hn⟩
    exact ⟨hn, ht, hok⟩

def ByIdOk : Prop :=
  isList v = true ∧ RecordsOk env (recent (byIdLimit field) v)

def PlainOk : Prop :=
  isList v = true ∧ StringsOk env (recent (plainLimit field) v)

theorem boundedById_some (o : Option Json) :
    boundedById env field (some v) = .ok o ↔
      ByIdOk env field v ∧ some (recordsJson (fieldRecords env field v)) = o := by
  rw [boundedById]
  simp only [bind_ok, boundedExactList_ok, mergeListsById_ok, pure_ok]
  constructor
  · rintro ⟨_, ⟨hlist, rfl⟩, _, ⟨⟨_, hrec⟩, rfl⟩, rfl⟩
    exact ⟨⟨hlist, hrec⟩, rfl⟩
  · rintro ⟨⟨hlist, hrec⟩, rfl⟩
    exact ⟨_, ⟨hlist, rfl⟩, _, ⟨⟨fun raw hraw => absurd hraw not_mem_nil, hrec⟩, rfl⟩, rfl⟩

theorem capPlainPhaseList_eq (values : List Json) :
    capPlainPhaseList field values = values.rtake (plainLimit field) := rfl

theorem boundedPlain_some (o : Option Json) :
    boundedPlain env field (some v) = .ok o ↔
      PlainOk env field v ∧ some (.list (recent (plainLimit field) v)) = o := by
  have hlen := length_recent_le (plainLimit field) v
  rw [boundedPlain]
  simp only [bind_ok, boundedExactList_ok, raiseIf_ok, pure_ok, Bool.not_eq_false',
    capPlainPhaseList_eq, exists_const, PlainOk, ← plainScan_ok env hlen]
  constructor
  · rintro ⟨_, ⟨hlist, rfl⟩, hstr, hscan, rfl⟩
    rw [rtake_eq_self hlen]
    exact ⟨⟨hlist, hstr, hscan⟩, rfl⟩
  · rintro ⟨⟨hlist, hstr, hscan⟩, rfl⟩
    exact ⟨_, ⟨hlist, rfl⟩, hstr, hscan, by rw [rtake_eq_self hlen]⟩

def boundedEntry (e : PhaseEntry) : PhaseEntry :=
  e.map (fun field v =>
    if field ∈ byIdFields then recordsJson (fieldRecords env field v)
    else if field ∈ plainListFields then .list (recent (plainLimit field) v)
    else v)

/-- What the lists of an entry that is taken over must satisfy. -/
structure FieldsOk (env : ReducerEnv) (e : PhaseEntry) : Prop where
  byId : ∀ field ∈ byIdFields, ∀ v, e.get? field = some v → ByIdOk env field v
  plain : ∀ field ∈ plainListFields, ∀ v, e.get? field = some v → PlainOk env field v

theorem nodup_byIdFields : byIdFields.Nodup := by decide

theorem nodup_plainListFields : plainListFields.Nodup := by decide

variable {field phase : String} {env : ReducerEnv}

theorem not_mem_plain_of_byId (h : field ∈ byIdFields) :
    field ∉ plainListFields := by
  revert field
  decide

theorem not_mem_byId_of_plain (h : field ∈ plainListFields) :
    field ∉ byIdFields := fun hb => not_mem_plain_of_byId hb h

theorem mem_listFields :
    field ∈ listFields ↔ field ∈ byIdFields ∨ field ∈ plainListFields := mem_append

theorem boundedPhaseEntry_ok (env : ReducerEnv) (e b : PhaseEntry) :
    boundedPhaseEntry env e = .ok b ↔
      (EntryOk env e ∧ FieldsOk env e) ∧ boundedEntry env e = b := by
  have hbyId : ∀ d d', Dict.assignEach (boundedById env) byIdFields d = .ok d' ↔
      (∀ k ∈ byIdFields, ∀ v, d.get? k = some v → ByIdOk env k v) ∧
        d.map (fun k v => if k ∈ byIdFields then recordsJson (fieldRecords env k v) else v) = d' :=
    fun d d' => Dict.assignEach_eq_map (g := boundedById env) (fun _ => rfl)
      (boundedById_some env) nodup_byIdFields
  have hplain : ∀ d d', Dict.assignEach (boundedPlain env) plainListFields d = .ok d' ↔
      (∀ k ∈ plainListFields, ∀ v, d.get? k = some v → PlainOk env k v) ∧
        d.map (fun k v =>
          if k ∈ plainListFields then .list (recent (plainLimit k) v) else v) = d' :=
    fun d d' => Dict.assignEach_eq_map (g := boundedPlain env) (fun _ => rfl)
      (boundedPlain_some env) nodup_plainListFields
  -- The second pass sees the fields of strings as they were.
  have hsame : ∀ k ∈ plainListFields, ((e.map (fun k v =>
      if k ∈ byIdFields then recordsJson (fieldRecords env k v) else v)).get? k) = e.get? k := by
    intro k hk
    simp only [Dict.get?_map, not_mem_byId_of_plain hk, if_false, Option.map_id']
  have hmap : (e.map (fun k v =>
      if k ∈ byIdFields then recordsJson (fieldRecords env k v) else v)).map (fun k v =>
        if k ∈ plainListFields then .list (recent (plainLimit k) v) else v)
      = boundedEntry env e := by
    refine Dict.ext_get? (by rw [boundedEntry, Dict.keys_map, Dict.keys_map, Dict.keys_map])
      (fun k => ?_)
    rw [Dict.get?_map, Dict.get?_map, boundedEntry, Dict.get?_map, Option.map_map]
    congr 1
    funext v
    by_cases hb : k ∈ byIdFields
    · simp only [comp, hb, if_true, not_mem_plain_of_byId hb, if_false]
    · simp only [comp, hb, if_false]
  rw [boundedPhaseEntry]
  simp only [bind_ok, validatePhaseEntry_ok, exists_const, hbyId, hplain]
  constructor
  · rintro ⟨hok, _, ⟨hb, rfl⟩, hp, rfl⟩
    refine ⟨⟨hok, hb, fun k hk v hv => hp k hk v ?_⟩, hmap.symm⟩
    rw [hsame k hk]
    exact hv
  · rintro ⟨⟨hok, hb, hp⟩, rfl⟩
    refine ⟨hok, _, ⟨hb, rfl⟩, fun k hk v hv => hp k hk v ?_, hmap⟩
    rw [← hsame k hk]
    exact hv

def unionRecords (env : ReducerEnv) (field : String) (current incoming : Json) :
    List StableEntry :=
  windowAppend StableEntry.id (byIdLimit field) (fieldRecords env field current)
    (records env (recent (byIdLimit field) incoming))

def unionStrings (field : String) (current incoming : Json) : List Json :=
  windowAppend (fun item => item) (plainLimit field) (recent (plainLimit field) current)
    (recent (plainLimit field) incoming)

/-- What makes a field of records acceptable on both sides. -/
def UnionByIdOk (env : ReducerEnv) (field : String) (current incoming : Json) : Prop :=
  ByIdOk env field current ∧ ByIdOk env field incoming

/-- What makes a field of strings acceptable on both sides together. -/
def UnionPlainOk (env : ReducerEnv) (field : String) (current incoming : Json) : Prop :=
  (isList current = true ∧ isList incoming = true) ∧
    UnionOk env (recent (plainLimit field) current) (recent (plainLimit field) incoming)

theorem mergedById_ok (env : ReducerEnv) (current incoming : PhaseEntry) (field : String)
    (w : Json) :
    mergedById env current incoming field = .ok w ↔
      UnionByIdOk env field (current.value field) (incoming.value field) ∧
        recordsJson (unionRecords env field (current.value field) (incoming.value field)) = w := by
  rw [mergedById]
  simp only [bind_ok, boundedExactList_ok, mergeListsById_ok, pure_ok]
  constructor
  · rintro ⟨_, ⟨hc, rfl⟩, _, ⟨hi, rfl⟩, _, ⟨⟨hcs, his⟩, rfl⟩, rfl⟩
    exact ⟨⟨⟨hc, hcs⟩, hi, his⟩, rfl⟩
  · rintro ⟨⟨⟨hc, hcs⟩, hi, his⟩, rfl⟩
    exact ⟨_, ⟨hc, rfl⟩, _, ⟨hi, rfl⟩, _, ⟨⟨hcs, his⟩, rfl⟩, rfl⟩

theorem mergedPlain_ok (env : ReducerEnv) (current incoming : PhaseEntry) (field : String)
    (w : Json) :
    mergedPlain env current incoming field = .ok w ↔
      UnionPlainOk env field (current.value field) (incoming.value field) ∧
        .list (unionStrings field (current.value field) (incoming.value field)) = w := by
  rw [mergedPlain]
  simp only [bind_ok, boundedExactList_ok, mergeUnique_ok, pure_ok, unionScan_ok,
    capPlainPhaseList_eq]
  constructor
  · rintro ⟨_, ⟨hc, rfl⟩, _, ⟨hi, rfl⟩, _, ⟨hu, rfl⟩, rfl⟩
    exact ⟨⟨⟨hc, hi⟩, hu⟩, rfl⟩
  · rintro ⟨⟨⟨hc, hi⟩, hu⟩, rfl⟩
    exact ⟨_, ⟨hc, rfl⟩, _, ⟨hi, rfl⟩, _, ⟨hu, rfl⟩, rfl⟩

/-- A list field after an update of the same attempt. -/
def unionField (env : ReducerEnv) (current incoming : PhaseEntry) (field : String) : Json :=
  if field ∈ byIdFields then
    recordsJson (unionRecords env field (current.value field) (incoming.value field))
  else .list (unionStrings field (current.value field) (incoming.value field))

def unionEntry (env : ReducerEnv) (current incoming : PhaseEntry) : PhaseEntry :=
  (current.update incoming).assignAll (unionField env current incoming) listFields

structure UnionListsOk (env : ReducerEnv) (current incoming : PhaseEntry) : Prop where
  byId : ∀ field ∈ byIdFields,
    UnionByIdOk env field (current.value field) (incoming.value field)
  plain : ∀ field ∈ plainListFields,
    UnionPlainOk env field (current.value field) (incoming.value field)

/-- Whether a value is missing or an attempt number. -/
def attemptOk : Bool := v == .null || isAttempt v

def askedStatus (current incoming : PhaseEntry) : Json :=
  (incoming.get? "status").getD (current.value "status")

/-- Whether a value is the name of a terminal status. -/
def isTerminal : Bool := isStrOf (· ∈ terminalPhaseStatusValues) v

/-- Whether an update leaves a terminal status alone. -/
def keepsTerminal (current incoming : PhaseEntry) : Prop :=
  isTerminal (current.value "status") = true → askedStatus current incoming = current.value "status"

def BothShaped (current incoming : PhaseEntry) : Prop :=
  (ListsOk current ∧ Shaped (entryTextLimit current) (Json.ofDict (scanned current))) ∧
    ListsOk incoming ∧ Shaped (entryTextLimit incoming) (Json.ofDict (scanned incoming))

/-- An entry merged with an update: replaced by the next attempt, or united with
    an update of the same one. -/
theorem mergePhaseEntry_ok (env : ReducerEnv) (current incoming m : PhaseEntry) :
    mergePhaseEntry env current incoming = .ok m ↔
      (BothShaped current incoming ∧ attemptOk (current.value "attempt") = true ∧
        attemptOk (incoming.value "attempt") = true) ∧
      ((incoming.value "attempt" ≠ current.value "attempt" ∧
          notMonotonic (current.value "attempt") (incoming.value "attempt") = false ∧
          boundedPhaseEntry env incoming = .ok m) ∨
        (incoming.value "attempt" = current.value "attempt" ∧ keepsTerminal current incoming ∧
          UnionListsOk env current incoming ∧ unionEntry env current incoming = m ∧
          EntryOk env m)) := by
  have hterm : ∀ u, raiseIf (isStrOf (· ∈ terminalPhaseStatusValues) (current.value "status") &&
        (incoming.get? "status").getD (current.value "status") != current.value "status")
      "checkpointed terminal phase status is immutable" = .ok u ↔
      keepsTerminal current incoming := by
    intro u
    rw [raiseIf_ok, keepsTerminal, isTerminal, askedStatus, Bool.and_eq_false_iff, bne_eq_false_iff_eq,
      ← Bool.not_eq_true, imp_iff_not_or]
  have hbyId : ∀ d d', Dict.assignEach (fun field _ => some <$> mergedById env current incoming
      field) byIdFields d = .ok d' ↔ (∀ k ∈ byIdFields,
        UnionByIdOk env k (current.value k) (incoming.value k)) ∧
        d.assignAll (unionField env current incoming) byIdFields = d' := by
    intro d d'
    rw [Dict.assignEach_eq_assignAll (mergedById_ok env current incoming)]
    refine and_congr_right (fun _ => ?_)
    rw [Dict.assignAll_congr (g := unionField env current incoming) (fun k hk => by
      rw [unionField, if_pos hk])]
  have hplain : ∀ d d', Dict.assignEach (fun field _ => some <$> mergedPlain env current incoming
      field) plainListFields d = .ok d' ↔ (∀ k ∈ plainListFields,
        UnionPlainOk env k (current.value k) (incoming.value k)) ∧
        d.assignAll (unionField env current incoming) plainListFields = d' := by
    intro d d'
    rw [Dict.assignEach_eq_assignAll (mergedPlain_ok env current incoming)]
    refine and_congr_right (fun _ => ?_)
    rw [Dict.assignAll_congr (g := unionField env current incoming) (fun k hk => by
      rw [unionField, if_neg (not_mem_byId_of_plain hk)])]
  rw [mergePhaseEntry]
  simp only [bind_ok, validatePhaseEntryJson_ok, raiseIf_ok, bne, and_not_eq_false,
    ← attemptOk.eq_def, exists_const]
  constructor
  · rintro ⟨hc, hi, hca, hia, hrest⟩
    refine ⟨⟨⟨hc, hi⟩, hca, hia⟩, ?_⟩
    by_cases heq : incoming.value "attempt" = current.value "attempt"
    · rw [if_neg (not_not.mpr heq)] at hrest
      simp only [bind_ok] at hrest
      rcases hrest with ⟨_, ht, _, hb, _, hp, _, hv, hm⟩
      rcases (hbyId _ _).mp hb with ⟨hbs, rfl⟩
      rcases (hplain _ _).mp hp with ⟨hps, rfl⟩
      rw [pure_ok] at hm
      refine Or.inr ⟨heq, (hterm _).mp ht, ⟨hbs, hps⟩, ?_, ?_⟩
      · rw [← hm, unionEntry, listFields, Dict.assignAll_append]
      · rw [← hm]
        exact (validatePhaseEntry_ok env _ _).mp hv
    · rw [if_pos heq] at hrest
      simp only [bind_ok, raiseIf_ok, exists_const] at hrest
      exact Or.inl ⟨heq, hrest⟩
  · rintro ⟨⟨⟨hc, hi⟩, hca, hia⟩, hrest⟩
    refine ⟨hc, hi, hca, hia, ?_⟩
    rcases hrest with ⟨hne, hadv, hb⟩ | ⟨heq, ht, hlists, rfl, hok⟩
    · rw [if_pos hne]
      simp only [bind_ok, raiseIf_ok, exists_const]
      exact ⟨hadv, hb⟩
    · rw [if_neg (not_not.mpr heq)]
      have hm : (((current.update incoming).assignAll (unionField env current incoming)
          byIdFields).assignAll (unionField env current incoming) plainListFields)
          = unionEntry env current incoming := by
        rw [unionEntry, listFields, Dict.assignAll_append]
      simp only [bind_ok]
      refine ⟨(), (hterm _).mpr ht, _, (hbyId _ _).mpr ⟨hlists.byId, rfl⟩, _,
        (hplain _ _).mpr ⟨hlists.plain, rfl⟩, (), ?_, ?_⟩
      · rw [hm]
        exact (validatePhaseEntry_ok env _ _).mpr hok
      · rw [pure_ok, hm]

theorem value_boundedEntry (env : ReducerEnv) (e : PhaseEntry) {k : String}
    (hk : k ∉ listFields) : (boundedEntry env e).value k = e.value k := by
  rw [mem_listFields, not_or] at hk
  simp only [Dict.value, boundedEntry, Dict.get?_map, hk.1, hk.2, if_false, Option.map_id']

theorem boundElsewhere_boundedEntry (env : ReducerEnv) (phase : String) (e : PhaseEntry) :
    boundElsewhere phase (boundedEntry env e) = boundElsewhere phase e := by
  simp only [boundElsewhere, value_boundedEntry env e (k := "phase") (by decide)]

/-- An entry of an argument is taken over when it is an object stored under its
    own phase. -/
theorem validatedEntry_ok (env : ReducerEnv) (phase : String) (raw : Json) (b : PhaseEntry) :
    validatedEntry env phase raw = .ok b ↔
      ∃ e, raw.dict? = some e ∧ boundElsewhere phase e = false ∧
        boundedPhaseEntry env e = .ok b := by
  rw [validatedEntry]
  cases hd : raw.dict? with
  | none => simp only [reduceCtorEq, false_and, exists_false]
  | some e =>
    simp only [bind_ok, raiseIf_ok, pure_ok, exists_const, some.injEq]
    constructor
    · rintro ⟨b', hb, hphase, rfl⟩
      rcases (boundedPhaseEntry_ok env e b').mp hb with ⟨_, rfl⟩
      rw [boundElsewhere_boundedEntry] at hphase
      exact ⟨e, rfl, hphase, hb⟩
    · rintro ⟨e', rfl, hphase, hb⟩
      refine ⟨b, hb, ?_, rfl⟩
      rw [← ((boundedPhaseEntry_ok env e b).mp hb).2, boundElsewhere_boundedEntry]
      exact hphase

/-- What the reducer stores for one phase, given the entries of that phase in its
    two arguments. -/
inductive StoredAt (env : ReducerEnv) (phase : String) :
    Option Json → Option Json → Option PhaseEntry → Prop
  | absent : StoredAt env phase none none none
  | fresh {raw : Json} {b : PhaseEntry} (hb : validatedEntry env phase raw = .ok b) :
      StoredAt env phase none (some raw) (some b)
  | inherited {raw : Json} {b : PhaseEntry} (hb : validatedEntry env phase raw = .ok b) :
      StoredAt env phase (some raw) none (some b)
  | merged {rawLeft raw : Json} {current b m : PhaseEntry}
      (hb : validatedEntry env phase raw = .ok b) (hd : rawLeft.dict? = some current)
      (hphase : boundElsewhere phase current = false)
      (hm : mergePhaseEntry env current b = .ok m) :
      StoredAt env phase (some rawLeft) (some raw) (some m)

def entryAt (arg : Json) (phase : String) : Option Json := arg.dict?.bind (fun d => d.get? phase)

/-- Whether an argument is an object keyed by phases, or nothing. -/
structure ArgOk (arg : Json) : Prop where
  object : arg = .null ∨ arg.dict?.isSome = true
  names : phaseNamesOk arg.dict? = true

theorem phaseResultsArg_ok {arg : Json} {o : Option (Dict Json)} :
    phaseResultsArg arg = .ok o ↔ (arg = .null ∨ arg.dict?.isSome = true) ∧ arg.dict? = o := by
  rw [phaseResultsArg]
  by_cases hnull : arg = .null
  · subst hnull
    simp only [if_true, Except.ok.injEq, true_or, true_and]
    rfl
  · rw [if_neg hnull]
    cases hd : arg.dict? with
    | none => simp only [reduceCtorEq, hnull, Option.isSome_none, Bool.false_eq_true, or_self,
        false_and]
    | some d => simp only [Except.ok.injEq, isSome_some, or_true, true_and]

theorem mergedInherited_none (env : ReducerEnv) {safeRight : PhaseResults}
    (hn : safeRight.get? phase = none) (raw : Json) (b : PhaseEntry) :
    mergedInherited env safeRight phase raw = .ok b ↔ validatedEntry env phase raw = .ok b := by
  rw [mergedInherited, validatedEntry_ok, hn]
  cases raw.dict? with
  | none => simp only [reduceCtorEq, false_and, exists_false]
  | some e => simp only [bind_ok, raiseIf_ok, exists_const, some.injEq, exists_eq_left']

theorem mergedInherited_some (env : ReducerEnv) {safeRight : PhaseResults} {incoming : PhaseEntry}
    (hs : safeRight.get? phase = some incoming) (raw : Json) (m : PhaseEntry) :
    mergedInherited env safeRight phase raw = .ok m ↔
      ∃ e, raw.dict? = some e ∧ boundElsewhere phase e = false ∧
        mergePhaseEntry env e incoming = .ok m := by
  rw [mergedInherited, hs]
  cases raw.dict? with
  | none => simp only [reduceCtorEq, false_and, exists_false]
  | some e => simp only [bind_ok, raiseIf_ok, exists_const, some.injEq, exists_eq_left']

theorem get?_getD_empty (o : Option (Dict Json)) (phase : String) :
    (o.getD ∅).get? phase = o.bind (fun d => d.get? phase) := by
  cases o <;> rfl

theorem mergePhaseResults_stored {left right : Json} {m : PhaseResults}
    (h : mergePhaseResults env left right = .ok m) :
    (ArgOk left ∧ ArgOk right) ∧
      ∀ phase, StoredAt env phase (entryAt left phase) (entryAt right phase) (m.get? phase) := by
  rw [mergePhaseResults] at h
  simp only [bind_ok, phaseResultsArg_ok, raiseIf_ok, Bool.not_eq_false', exists_const] at h
  rcases h with ⟨_, ⟨hl, rfl⟩, _, ⟨hr, rfl⟩, hln, hrn, safeRight, hsafe, hrest⟩
  refine ⟨⟨⟨hl, hln⟩, hr, hrn⟩, fun phase => ?_⟩
  have hL := get?_getD_empty left.dict? phase
  have hR := Dict.traverse_get? hsafe phase
  rw [get?_getD_empty] at hR
  change (entryAt right phase = none ∧ _) ∨ ∃ v w, entryAt right phase = some v ∧ _ at hR
  change _ = entryAt left phase at hL
  split at hrest
  · -- Nothing is inherited.
    rename_i hempty
    rw [Dict.eq_empty_of_length hempty] at hL
    rw [pure_ok] at hrest
    rw [← hL, ← hrest]
    rcases hR with ⟨hr0, hs0⟩ | ⟨raw, b, hr1, hb, hs1⟩
    · rw [hr0, hs0]
      exact .absent
    · rw [hr1, hs1]
      exact .fresh hb
  · split at hrest
    · -- Nothing is updated.
      rename_i hempty
      rw [Dict.eq_empty_of_length hempty] at hR
      have hr0 : entryAt right phase = none := by
        rcases hR with ⟨hr0, _⟩ | ⟨_, _, _, _, hs1⟩
        · exact hr0
        · exact absurd hs1 (by simp only [Dict.get?_empty, reduceCtorEq, not_false_eq_true])
      rcases Dict.traverse_get? hrest phase with ⟨hl0, hm0⟩ | ⟨raw, b, hl1, hb, hm1⟩
      · rw [← hL, hl0, hr0, hm0]
        exact .absent
      · rw [← hL, hl1, hr0, hm1]
        exact .inherited hb
    · simp only [bind_ok, pure_ok] at hrest
      rcases hrest with ⟨merged, hmerged, rfl⟩
      rw [Dict.get?_extend]
      rcases Dict.traverse_get? hmerged phase with ⟨hl0, hm0⟩ | ⟨rawLeft, w, hl1, hw, hm1⟩
      · rw [← hL, hl0, hm0, none_or]
        rcases hR with ⟨hr0, hs0⟩ | ⟨raw, b, hr1, hb, hs1⟩
        · rw [hr0, hs0]
          exact .absent
        · rw [hr1, hs1]
          exact .fresh hb
      · rw [← hL, hl1, hm1, some_or]
        rcases hR with ⟨hr0, hs0⟩ | ⟨raw, b, hr1, hb, hs1⟩
        · rw [hr0]
          exact .inherited ((mergedInherited_none env hs0 rawLeft w).mp hw)
        · rcases (mergedInherited_some env hs1 rawLeft w).mp hw with ⟨e, hd, hphase, hm⟩
          rw [hr1]
          exact .merged hb hd hphase hm

theorem StoredAt.right_ok {l : Option Json} {raw : Json} {o : Option PhaseEntry}
    (h : StoredAt env phase l (some raw) o) :
    ∃ b, validatedEntry env phase raw = .ok b := by
  cases h with
  | fresh hb => exact ⟨_, hb⟩
  | merged hb _ _ _ => exact ⟨_, hb⟩

theorem mergePhaseResults_exists {left right : Json} (hl : ArgOk left) (hr : ArgOk right)
    (h : ∀ phase, ∃ o, StoredAt env phase (entryAt left phase) (entryAt right phase) o) :
    ∃ m, mergePhaseResults env left right = .ok m := by
  have hsafe : ∃ safeRight, validatedSource env (right.dict?.getD ∅) = .ok safeRight := by
    refine Dict.traverse_ok _ _ (fun phase raw hraw => ?_)
    rcases h phase with ⟨o, ho⟩
    rw [get?_getD_empty] at hraw
    rw [show entryAt right phase = some raw from hraw] at ho
    exact ho.right_ok
  rcases hsafe with ⟨safeRight, hsafe⟩
  rw [mergePhaseResults]
  simp only [bind_ok, phaseResultsArg_ok, raiseIf_ok, Bool.not_eq_false', exists_const]
  have hrest : ∃ m, (if (left.dict?.getD ∅).length = 0 then pure safeRight
      else if safeRight.length = 0 then validatedSource env (left.dict?.getD ∅)
      else do
        let merged ← (left.dict?.getD ∅).traverse (mergedInherited env safeRight)
        pure (merged.extend safeRight) : Except String PhaseResults) = .ok m := by
    split
    · exact ⟨_, rfl⟩
    · have hinherit : ∀ phase rawLeft, (left.dict?.getD ∅).get? phase = some rawLeft →
          ∃ w, mergedInherited env safeRight phase rawLeft = .ok w := by
        intro phase rawLeft hraw
        rcases h phase with ⟨o, ho⟩
        rw [get?_getD_empty] at hraw
        rw [show entryAt left phase = some rawLeft from hraw] at ho
        have hR := Dict.traverse_get? hsafe phase
        rw [get?_getD_empty] at hR
        rcases hR with ⟨hr0, hs0⟩ | ⟨raw, b, hr1, hb, hs1⟩
        · rw [show entryAt right phase = none from hr0] at ho
          cases ho with
          | inherited hb => exact ⟨_, (mergedInherited_none env hs0 rawLeft _).mpr hb⟩
        · rw [show entryAt right phase = some raw from hr1] at ho
          cases ho with
          | merged hb' hd hphase hm =>
            rw [hb, Except.ok.injEq] at hb'
            subst hb'
            exact ⟨_, (mergedInherited_some env hs1 rawLeft _).mpr ⟨_, hd, hphase, hm⟩⟩
      split
      · rename_i hempty
        refine Dict.traverse_ok _ _ (fun phase rawLeft hraw => ?_)
        rcases hinherit phase rawLeft hraw with ⟨w, hw⟩
        rw [Dict.eq_empty_of_length hempty] at hw
        exact ⟨w, (mergedInherited_none env rfl rawLeft w).mp hw⟩
      · rcases Dict.traverse_ok _ _ hinherit with ⟨merged, hmerged⟩
        exact ⟨merged.extend safeRight, by simp only [bind_ok, pure_ok]; exact ⟨_, hmerged, rfl⟩⟩
  rcases hrest with ⟨m, hm⟩
  exact ⟨m, _, ⟨hl.object, rfl⟩, _, ⟨hr.object, rfl⟩, hl.names, hr.names, _, hsafe, hm⟩

end Apex.Graphs
