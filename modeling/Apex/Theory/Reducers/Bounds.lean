import Apex.Graphs.Pipeline.State

/-!
# What the Validators Accept

Each validator of the reducers is characterised here by when it accepts, and
no later file unfolds one. A validator is a loop over an explicit stack or a
walk with counters; what it comes to is a bound on the number of values, a
bound on the number of characters, and a test of each value on its own.

The reducers look at a list field only through its last few values, so an
entry is judged by `scanned`, the entry with its lists cut. A record is judged
as it is, and `identify?` is the record it becomes.

## Main definitions

* `recent`: The values of a list field that the reducers look at.
* `scanned`: An entry with its lists cut.
* `reducerShape`: The test of one value at its depth.
* `EntryOk`: What makes a phase entry acceptable.
* `RecordOk`: What makes a record acceptable.

## Theorems

* `validatePhaseEntry_ok`: A phase entry is accepted exactly when acceptable.
* `stableEntry_ok`: A record is accepted exactly when acceptable.
* `mergeListsById_ok`, `mergeUnique_ok`: When lists are merged, and to what.
-/

namespace Apex.Graphs

open List Option
open Domain

/-- Whether a value is read as a list; `None` is the empty one. -/
def isList : Json → Bool
  | .null => true
  | .list _ => true
  | _ => false

def asList : Json → List Json
  | .list xs => xs
  | _ => []

variable (limit : Nat) (manifestPrompt : Bool) (v : Json)

def recent : List Json := (asList v).rtake limit

theorem rtake_eq_self {α : Type} {xs : List α} {n : Nat} (h : xs.length ≤ n) :
    xs.rtake n = xs := by
  rw [rtake, Nat.sub_eq_zero_of_le h, drop_zero]

theorem length_recent_le : (recent limit v).length ≤ limit :=
  length_rtake_le limit _

theorem exactList_ok {v : Json} {label : String} {xs : List Json} :
    exactList v label = .ok xs ↔ isList v = true ∧ asList v = xs := by
  cases v <;> simp only [exactList, isList, asList, Except.ok.injEq, reduceCtorEq,
    Bool.false_eq_true, true_and, false_and]

theorem boundedExactList_ok {v : Json} {label : String} {limit : Nat} {xs : List Json} :
    boundedExactList v label limit = .ok xs ↔ isList v = true ∧ recent limit v = xs := by
  rw [boundedExactList, bind_ok]
  constructor
  · rintro ⟨raw, hraw, hxs⟩
    rcases exactList_ok.mp hraw with ⟨hlist, rfl⟩
    rw [pure_ok] at hxs
    refine ⟨hlist, ?_⟩
    rw [← hxs, recent]
    split
    · rename_i hle
      exact rtake_eq_self hle
    · rfl
  · rintro ⟨hlist, rfl⟩
    refine ⟨asList v, exactList_ok.mpr ⟨hlist, rfl⟩, ?_⟩
    rw [pure_ok, recent]
    split
    · rename_i hle
      exact (rtake_eq_self hle).symm
    · rfl

def cutField (field : String) (v : Json) : Json :=
  if field ∈ listFields then .list (recent (phaseListLimit field) v) else v

variable (env : ReducerEnv) (e : PhaseEntry)

def scanned : PhaseEntry := e.map cutField

theorem scanField_ok (field : String) (v w : Json) :
    scanField field v = .ok w ↔ (field ∈ listFields → isList v = true) ∧ cutField field v = w := by
  rw [scanField, cutField]
  split
  · rename_i hmem
    rw [map_ok]
    constructor
    · rintro ⟨xs, hxs, rfl⟩
      rcases boundedExactList_ok.mp hxs with ⟨hlist, rfl⟩
      exact ⟨fun _ => hlist, rfl⟩
    · rintro ⟨hlist, rfl⟩
      exact ⟨_, boundedExactList_ok.mpr ⟨hlist hmem, rfl⟩, rfl⟩
  · rename_i hmem
    rw [Except.ok.injEq]
    exact ⟨fun h => ⟨fun hm => absurd hm hmem, h⟩, fun h => h.2⟩

/-- Whether the list fields of an entry are lists. -/
def ListsOk : Prop := ∀ field ∈ listFields, isList (e.value field) = true

theorem listsOk_iff :
    ListsOk e ↔ ∀ k v, e.get? k = some v → k ∈ listFields → isList v = true := by
  constructor
  · intro h k v hv hk
    have := h k hk
    rw [Dict.value, hv] at this
    exact this
  · intro h field hfield
    rw [Dict.value]
    cases hv : e.get? field with
    | none => rfl
    | some v => exact h field v hv hfield

theorem traverse_scanField_ok {e t : PhaseEntry} :
    e.traverse scanField = .ok t ↔ ListsOk e ∧ scanned e = t := by
  rw [Dict.traverse_eq_map (P := fun k v => k ∈ listFields → isList v = true) scanField_ok,
    listsOk_iff]
  rfl

def textLimit : Nat := if manifestPrompt then 500000 else 50000

def reducerShape (depth : Nat) : Json → Bool
  | .dict items => depth ≤ 8 && items.length ≤ 128
  | .list xs => depth ≤ 8 && xs.length ≤ 256
  | .str s => depth ≤ 8 && (s.length ≤ limit && !hasNul s)
  | .int n => depth ≤ 8 && bitLength n ≤ 256
  | .float x => depth ≤ 8 && x.isFinite
  | _ => depth ≤ 8

theorem visitReducerJson_ok (depth : Nat) (v : Json) (below : List Json) :
    visitReducerJson false manifestPrompt depth v = .ok below ↔
      reducerShape (textLimit manifestPrompt) depth v = true ∧ v.children = below := by
  cases v with
  | dict items =>
    simp only [visitReducerJson, ite_error_ok, Bool.false_and, Bool.false_eq_true, if_false,
      Except.ok.injEq, reducerShape, Bool.and_eq_true, decide_eq_true_eq, not_lt, and_assoc,
      Json.children]
  | list xs =>
    simp only [visitReducerJson, ite_error_ok, Except.ok.injEq, reducerShape, Bool.and_eq_true,
      decide_eq_true_eq, not_lt, and_assoc, Json.children]
  | str s =>
    simp only [visitReducerJson, ite_error_ok, ← textLimit.eq_def, Except.ok.injEq, reducerShape,
      Bool.and_eq_true, Bool.or_eq_true, not_or, decide_eq_true_eq, Bool.not_eq_true',
      Bool.not_eq_true, not_lt, and_assoc, Json.children]
  | int n =>
    simp only [visitReducerJson, ite_error_ok, Except.ok.injEq, reducerShape, Bool.and_eq_true,
      decide_eq_true_eq, not_lt, and_assoc, Json.children]
  | float x =>
    cases hx : x.isFinite <;>
      simp only [visitReducerJson, hx, ite_error_ok, if_true, Bool.false_eq_true, if_false,
        reduceCtorEq, Except.ok.injEq, reducerShape, Bool.and_true, Bool.and_false,
        decide_eq_true_eq, not_lt, and_false, false_and, Json.children]
  | _ =>
    simp only [visitReducerJson, ite_error_ok, Except.ok.injEq, reducerShape, decide_eq_true_eq,
      not_lt, Json.children]

def Shaped : Prop :=
  v.nodes ≤ maxReducerJsonNodes ∧ v.everyAt (reducerShape limit) 0 = true

theorem accepts_visitReducerJson :
    accepts (visitReducerJson false manifestPrompt) = reducerShape (textLimit manifestPrompt) := by
  funext depth v
  rw [Bool.eq_iff_iff, accepts]
  constructor
  · intro h
    cases hv : visitReducerJson false manifestPrompt depth v with
    | error e =>
      rw [hv] at h
      exact absurd h Bool.false_ne_true
    | ok below => exact ((visitReducerJson_ok manifestPrompt depth v below).mp hv).1
  · intro h
    rw [(visitReducerJson_ok manifestPrompt depth v _).mpr ⟨h, rfl⟩]
    rfl

theorem walkReducerJson_ok (budget : Nat) (stack : List (Json × Nat)) :
    walk "checkpointed reducer entry is too large" (visitReducerJson false manifestPrompt) budget
        stack = .ok () ↔
      stackNodes stack ≤ budget ∧
        ∀ vd ∈ stack, vd.1.everyAt (reducerShape (textLimit manifestPrompt)) vd.2 = true := by
  rw [walk_ok_iff _ _ (fun d v below h =>
    ((visitReducerJson_ok manifestPrompt d v below).mp h).2.symm), accepts_visitReducerJson]

theorem validateReducerJson_ok (u : Unit) :
    validateReducerJson v = .ok u ↔ Shaped (textLimit false) v := by
  rw [validateReducerJson, walkReducerJson_ok, Shaped, forall_mem_singleton]
  rfl

def entryTextLimit : Nat := textLimit (systemLocked e == some (.bool true))

/-- A phase entry is walked as its cut lists say: the root cuts them, and below
    it the walk is the one of any other value. -/
theorem validatePhaseEntryJson_ok (u : Unit) :
    validatePhaseEntryJson e = .ok u ↔
      ListsOk e ∧ Shaped (entryTextLimit e) (Json.ofDict (scanned e)) := by
  have hlen : (scanned e).items.length = e.items.length := List.length_map _
  have hroot : ∀ below : List Json,
      visitReducerJson true (systemLocked e == some (.bool true)) 0 (Json.ofDict e) = .ok below ↔
        ListsOk e ∧ (scanned e).items.length ≤ 128 ∧ (Json.ofDict (scanned e)).children = below := by
    intro below
    simp only [visitReducerJson, Json.ofDict, ite_error_ok, gt_iff_lt, Nat.not_lt_zero,
      not_false_eq_true, beq_self_eq_true, Bool.and_true, if_true, not_lt, map_ok, hlen,
      Json.children, true_and]
    rw [← and_assoc, and_comm (a := ListsOk e), and_assoc]
    refine and_congr_right (fun _ => ?_)
    rw [listsOk_iff]
    constructor
    · rintro ⟨items, hitems, rfl⟩
      rcases (Dict.traverseItems_eq_map scanField_ok).mp hitems with ⟨hlists, rfl⟩
      exact ⟨fun k v hv hk => hlists (k, v) (Dict.get?_mem hv) hk, rfl⟩
    · rintro ⟨hlists, rfl⟩
      exact ⟨_, (Dict.traverseItems_eq_map scanField_ok).mpr
        ⟨fun kv hkv hk => hlists kv.1 kv.2 (Dict.get?_of_mem hkv) hk, rfl⟩, rfl⟩
  rw [validatePhaseEntryJson, maxReducerJsonNodes, walk, Shaped, Json.everyAt_eq]
  cases hv : visitReducerJson true (systemLocked e == some (.bool true)) 0 (Json.ofDict e) with
  | error err =>
    simp only [reduceCtorEq, false_iff, not_and]
    intro hlists _ hshape _
    have hitems : (scanned e).items.length ≤ 128 := by
      simpa only [Json.ofDict, reducerShape, Bool.and_eq_true, decide_eq_true_eq, Nat.zero_le,
        true_and] using hshape
    have hok := (hroot _).mpr ⟨hlists, hitems, rfl⟩
    rw [hv] at hok
    simp only [reduceCtorEq] at hok
  | ok below =>
    rcases (hroot below).mp hv with ⟨hlists, hitems, rfl⟩
    -- Below the root the lists are no longer cut.
    have hbelow := walk_congr "checkpointed reducer entry is too large" (n := 1)
      (f := visitReducerJson true (systemLocked e == some (.bool true)))
      (g := visitReducerJson false (systemLocked e == some (.bool true)))
      (fun d v hd => by
        have hd0 : (d == 0) = false := beq_eq_false_iff_ne.mpr (by omega)
        unfold visitReducerJson
        rw [hd0, Bool.and_false, Bool.false_and])
      4095 (((Json.ofDict (scanned e)).children.map (fun v => (v, 0 + 1))).reverse ++ [])
      (fun vd hvd => by
        rw [append_nil, mem_reverse, List.mem_map] at hvd
        rcases hvd with ⟨c, _, rfl⟩
        exact Nat.le_refl 1)
    simp only
    rw [hbelow, walkReducerJson_ok, stackNodes_push, Json.nodes_eq]
    have hstack : stackNodes [] = 0 := rfl
    simp only [hstack, append_nil, mem_reverse, List.forall_mem_map, hlists, true_and,
      entryTextLimit, maxReducerJsonNodes]
    have hshape : reducerShape (textLimit (systemLocked e == some (.bool true))) 0
        (Json.ofDict (scanned e)) = true := by
      simp only [Json.ofDict, reducerShape, hitems, Nat.zero_le, decide_true, Bool.and_self]
    simp only [hshape, true_and]
    refine and_congr_left (fun _ => ?_)
    omega

/-- Whether the phase, status and attempt of an entry are of their kinds. -/
def fieldsOk : Bool :=
  (e.value "phase" == .null || isStrOf (· ∈ phaseNames) (e.value "phase")) &&
    ((e.value "status" == .null || isStrOf (· ∈ phaseStatusValues) (e.value "status")) &&
      (e.value "attempt" == .null || isAttempt (e.value "attempt")))

structure EntryOk (env : ReducerEnv) (e : PhaseEntry) : Prop where
  lists : ListsOk e
  shaped : Shaped (entryTextLimit e) (Json.ofDict (scanned e))
  fields : fieldsOk e = true
  chars : (Json.ofDict (scanned e)).chars ≤ (phaseScanLimits e).maxTotalChars
  content : contentOk env.rules (phaseScanLimits e) (Json.ofDict (scanned e)) = true

theorem maxNodes_phaseScanLimits :
    (phaseScanLimits e).maxNodes = maxReducerJsonNodes := by
  rw [phaseScanLimits]
  split <;> rfl

theorem and_not_eq_false {a b : Bool} : (!a && !b) = false ↔ (a || b) = true := by
  cases a <;> cases b <;> decide

theorem validatePhaseEntry_ok (u : Unit) :
    validatePhaseEntry env e = .ok u ↔ EntryOk env e := by
  have hscan : ∀ t, containsCredentialMaterial env.rules (phaseScanLimits e) t = false ↔
      t.nodes ≤ maxReducerJsonNodes ∧ t.chars ≤ (phaseScanLimits e).maxTotalChars ∧
        contentOk env.rules (phaseScanLimits e) t = true := by
    intro t
    rw [containsCredentialMaterial_eq_false, maxNodes_phaseScanLimits]
  constructor
  · intro h
    rw [validatePhaseEntry] at h
    simp only [bind_ok, raiseIf_ok, bne, and_not_eq_false, validatePhaseEntryJson_ok,
      traverse_scanField_ok, hscan] at h
    rcases h with ⟨_, ⟨hlists, hshaped⟩, _, hphase, _, hstatus, _, hattempt, t, ⟨_, rfl⟩,
      _, hchars, hcontent⟩
    refine ⟨hlists, hshaped, ?_, hchars, hcontent⟩
    rw [fieldsOk, hphase, hstatus, hattempt]
    rfl
  · rintro ⟨hlists, hshaped, hfields, hchars, hcontent⟩
    simp only [fieldsOk, Bool.and_eq_true] at hfields
    rw [validatePhaseEntry]
    simp only [bind_ok, raiseIf_ok, bne, and_not_eq_false, validatePhaseEntryJson_ok,
      traverse_scanField_ok, hscan]
    exact ⟨(), ⟨hlists, hshaped⟩, (), hfields.1, (), hfields.2.1, (), hfields.2.2, _,
      ⟨hlists, rfl⟩, hshaped.1, hchars, hcontent⟩

/-- The record a value becomes, if it is an object whose `id` allows it. -/
def identify? (raw : Json) : Option StableEntry :=
  raw.dict?.bind (fun entry => (identifiedEntry env entry).toOption)

theorem toOption_eq_some {ε α : Type} {x : Except ε α} {a : α} :
    x.toOption = some a ↔ x = .ok a := by
  cases x <;> simp only [Except.toOption, reduceCtorEq, some.injEq, Except.ok.injEq]

structure RecordOk (env : ReducerEnv) (raw : Json) : Prop where
  shape : raw.everyAt (reducerShape 50000) 0 = true
  nodes : raw.nodes ≤ 512
  chars : raw.chars ≤ 200000
  content : contentOk env.rules recordScanLimits raw = true

theorem stableEntry_ok (raw : Json) (s : StableEntry) :
    stableEntry env raw = .ok s ↔ RecordOk env raw ∧ identify? env raw = some s := by
  have hrecord : (∃ a, validateReducerJson raw = .ok a ∧ ∃ b,
      raiseIf (containsCredentialMaterial env.rules recordScanLimits raw)
        "checkpointed reducer entry contains credential material" = .ok b) ↔
      RecordOk env raw := by
    simp only [validateReducerJson_ok, raiseIf_ok, containsCredentialMaterial_eq_false, Shaped,
      exists_const]
    constructor
    · rintro ⟨⟨_, hshape⟩, hnodes, hchars, hcontent⟩
      exact ⟨hshape, hnodes, hchars, hcontent⟩
    · rintro ⟨hshape, hnodes, hchars, hcontent⟩
      exact ⟨⟨Nat.le_trans hnodes (by decide), hshape⟩, hnodes, hchars, hcontent⟩
  rw [stableEntry, identify?]
  cases hd : raw.dict? with
  | none => simp only [reduceCtorEq, bind_none, and_false]
  | some e =>
    simp only [bind_ok, bind_some, ← hrecord, toOption_eq_some]
    constructor
    · rintro ⟨_, hv, _, hr, hi⟩
      exact ⟨⟨(), hv, (), hr⟩, hi⟩
    · rintro ⟨⟨_, hv, _, hr⟩, hi⟩
      exact ⟨(), hv, (), hr, hi⟩

def records (raws : List Json) : List StableEntry :=
  raws.filterMap (identify? env)

/-- Whether every value of a list is acceptable as a record. -/
def RecordsOk (raws : List Json) : Prop :=
  ∀ raw ∈ raws, RecordOk env raw ∧ (identify? env raw).isSome = true

theorem mapM_stableEntry_ok : ∀ (raws : List Json) (ss : List StableEntry),
    raws.mapM (stableEntry env) = .ok ss ↔ RecordsOk env raws ∧ records env raws = ss
  | [], ss => by
    rw [mapM_ok, forall₂_nil_left_iff]
    exact ⟨fun h => ⟨fun raw hraw => absurd hraw not_mem_nil, h.symm⟩, fun h => h.2.symm⟩
  | raw :: raws, ss => by
    rw [mapM_ok, forall₂_cons_left_iff, RecordsOk, forall_mem_cons, records, filterMap_cons]
    constructor
    · rintro ⟨s, rest, hs, hrest, rfl⟩
      rcases (stableEntry_ok env raw s).mp hs with ⟨hok, hid⟩
      rcases (mapM_stableEntry_ok raws rest).mp (mapM_ok.mpr hrest) with ⟨hoks, rfl⟩
      rw [hid]
      exact ⟨⟨⟨hok, rfl⟩, hoks⟩, rfl⟩
    · rintro ⟨⟨⟨hok, hsome⟩, hoks⟩, hss⟩
      rcases isSome_iff_exists.mp hsome with ⟨s, hs⟩
      rw [hs] at hss
      exact ⟨s, _, (stableEntry_ok env raw s).mpr ⟨hok, hs⟩,
        mapM_ok.mp ((mapM_stableEntry_ok raws _).mpr ⟨hoks, rfl⟩), hss.symm⟩

def distinctRecords (raws : List Json) : List StableEntry :=
  appendNew StableEntry.id [] (records env raws)

theorem mergeListsById_ok (current incoming : List Json) (ss : List StableEntry) :
    mergeListsById env current incoming = .ok ss ↔
      (RecordsOk env current ∧ RecordsOk env incoming) ∧
        appendNew StableEntry.id (distinctRecords env current) (records env incoming) = ss := by
  rw [mergeListsById, bind_ok]
  simp only [bind_ok, mapM_stableEntry_ok, pure_ok]
  constructor
  · rintro ⟨_, ⟨hc, rfl⟩, _, ⟨hi, rfl⟩, rfl⟩
    exact ⟨⟨hc, hi⟩, rfl⟩
  · rintro ⟨⟨hc, hi⟩, rfl⟩
    exact ⟨_, ⟨hc, rfl⟩, _, ⟨hi, rfl⟩, rfl⟩

def allStrings (values : List Json) : Bool := values.all (isStrOf (fun _ => true))

theorem mergeUnique_ok (current incoming merged : List Json) :
    mergeUnique env current incoming = .ok merged ↔
      (allStrings (current ++ incoming) = true ∧
        containsCredentialMaterial env.rules unionScanLimits (.list (current ++ incoming)) = false) ∧
        appendNew (fun item => item) current incoming = merged := by
  rw [mergeUnique, bind_ok]
  simp only [bind_ok, raiseIf_ok, pure_ok, Bool.not_eq_false', exists_const]
  exact and_assoc.symm

end Apex.Graphs
