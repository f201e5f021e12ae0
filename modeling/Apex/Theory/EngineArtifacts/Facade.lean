import Mathlib.Algebra.Ring.Int.Defs
import Apex.Graphs.Pipeline.EngineArtifacts

/-!
# What An Engine Can Do To The Artifact Store

Whatever an engine asks for and whatever the store does, the writes go to different slots of
the attempt, what is reserved is the sum of what was attempted and within the limits, and
what is listed as written was acknowledged as it is. A write that fails is deleted or its
failure says that it was not. Slots are never used twice, so what was deleted once stays
away, and a deletion of the other slots leaves only what is retained.

## Main definitions

* `Accounted`: What is told of the facade.
* `Cleared`: What was deleted is not there.

## Theorems

* `reserve_ok`: What a reservation checks and notes.
* `cleanupKeys_spec`: What a deletion does.
* `put_spec`, `putStream_spec`: What a write does.
-/

namespace Apex.Graphs.EngineArtifacts

open List Option

variable {env : ArtifactEnv} {ns : String} {s s' : Facade}

theorem fourDigits_injective : ∀ i ∈ range 32, ∀ j ∈ range 32,
    fourDigits i = fourDigits j → i = j := by
  decide +kernel

theorem slotKey_injective {i j : Nat} (hi : i < maxEngineArtifactWrites)
    (hj : j < maxEngineArtifactWrites) (h : slotKey ns i = slotKey ns j) : i = j := by
  have hlist := congrArg String.toList h
  rw [slotKey, slotKey, String.toList_append, String.toList_append, String.toList_append,
    String.toList_append] at hlist
  have hdigits := append_cancel_left (append_cancel_left hlist)
  exact fourDigits_injective i (mem_range.mpr hi) j (mem_range.mpr hj)
    (String.toList_inj.mp hdigits)

def total (d : Dict Int) : Int := (d.items.map Prod.snd).sum

variable {key contentType : String} {size maxBytes : Int} {view : EngineArtifactStoreView}
  {sent : Nat} {stored : StoredArtifact}

theorem total_set_new {d : Dict Int} (size : Int) (h : d.get? key = none) :
    total (d.set key size) = total d + size := by
  rw [total, total, Dict.items_set_new size h, map_append, sum_append, map_singleton, sum_singleton]

theorem total_eq (d : Dict Int) : total d = (d.keys.map fun k => (d.get? k).getD 0).sum := by
  rw [total, Dict.keys, List.map_map]
  refine congrArg sum (map_congr_left fun kv hkv => ?_)
  rw [Function.comp_apply, Dict.get?_of_mem hkv, getD_some]

theorem sum_map_change {f g : String → Int} : ∀ {keys : List String},
    keys.Nodup → key ∈ keys → (∀ k, k ≠ key → g k = f k) →
      (keys.map g).sum = (keys.map f).sum - f key + g key
  | [], _, hmem, _ => absurd hmem not_mem_nil
  | k :: keys, hnodup, hmem, hsame => by
    rw [nodup_cons] at hnodup
    rw [map_cons, map_cons, sum_cons, sum_cons]
    rcases mem_cons.mp hmem with rfl | hrest
    · have hothers : keys.map g = keys.map f :=
        map_congr_left fun k' hk' => hsame k' (fun heq => hnodup.1 (heq ▸ hk'))
      rw [hothers]
      omega
    · have hne : k ≠ key := fun heq => hnodup.1 (heq ▸ hrest)
      rw [hsame k hne, sum_map_change hnodup.2 hrest hsame]
      omega

theorem total_set_old {d : Dict Int} {old : Int} (size : Int)
    (h : d.get? key = some old) : total (d.set key size) = total d - old + size := by
  have hmem : key ∈ d.keys := Dict.has_iff_mem.mp (by rw [Dict.has, h]; rfl)
  have hchange := sum_map_change (f := fun k => (d.get? k).getD 0)
    (g := fun k => ((d.set key size).get? k).getD 0) d.nodup hmem
    fun k hk => by rw [Dict.get?_set_ne d size hk]
  rw [h, Dict.get?_set_self, getD_some, getD_some] at hchange
  rw [total_eq, total_eq, Dict.keys_set_of_mem size h]
  exact hchange

def Acknowledges (w : StoreWrite) (key : String) (size : Int) : Prop :=
  w.key = key ∧ ∃ value, w.acknowledged = some value ∧
    value.field "key" = .str key ∧ value.field "size" = .int size

/-- What is told of the facade: slots are used in order and written once, the bytes that are
    reserved are those that were attempted and within the limits, no more is sent than reserved,
    and what is listed as written was acknowledged as it is. -/
structure Accounted (ns : String) (s : Facade) : Prop where
  slots : s.view.attempted.keys = (List.range s.view.attempted.length).map (slotKey ns)
  count : s.view.attempted.length ≤ maxEngineArtifactWrites
  writes : s.store.writes.map StoreWrite.key = s.view.attempted.keys
  reserved : s.view.reservedBytes = total s.view.attempted
  within : s.view.reservedBytes ≤ maxEngineArtifactBytesTotal
  sizes : ∀ key size, s.view.attempted.get? key = some size →
    0 ≤ size ∧ size ≤ maxEngineArtifactBytesPerObject
  sent : ∀ w ∈ s.store.writes, ∃ size, s.view.attempted.get? w.key = some size ∧ w.sent ≤ size
  written : ∀ key stored contentType, s.view.written.get? key = some (stored, contentType) →
    stored.key = key ∧ s.view.attempted.get? key = some stored.size ∧
      ∃ w ∈ s.store.writes, Acknowledges w key stored.size

structure Cleared (s : Facade) : Prop where
  attempted : ∀ key ∈ s.view.compensated, key ∈ s.view.attempted.keys
  gone : ∀ key ∈ s.view.compensated, s.store.objects key = none

theorem Accounted.slots_prefix (h : Accounted ns s)
    (hkey : key ∈ s.view.attempted.keys) : key ∈ allSlotKeys ns := by
  rw [h.slots] at hkey
  rcases List.mem_map.mp hkey with ⟨i, hi, rfl⟩
  exact List.mem_map_of_mem (mem_range.mpr (Nat.lt_of_lt_of_le (mem_range.mp hi) h.count))

theorem Accounted.next_new (h : Accounted ns s)
    (hroom : s.view.attempted.length < maxEngineArtifactWrites) :
    slotKey ns s.view.attempted.length ∉ s.view.attempted.keys := by
  rw [h.slots]
  intro hmem
  rcases List.mem_map.mp hmem with ⟨i, hi, hslot⟩
  have hi' := mem_range.mp hi
  exact Nat.ne_of_lt hi' (slotKey_injective (Nat.lt_trans hi' hroom) hroom hslot)

theorem accounted_new (ns : String) (objects : String → Option Bytes) :
    Accounted ns (newFacade objects) where
  slots := rfl
  count := Nat.zero_le _
  writes := rfl
  reserved := rfl
  within := show (0 : Int) ≤ maxEngineArtifactBytesTotal by decide
  sizes key size h := by
    rw [newFacade, Dict.get?_empty] at h
    cases h
  sent w hw := absurd hw not_mem_nil
  written key stored contentType h := by
    rw [newFacade, Dict.get?_empty] at h
    cases h

theorem cleared_new (objects : String → Option Bytes) : Cleared (newFacade objects) :=
  ⟨fun _ h => absurd h not_mem_nil, fun _ h => absurd h not_mem_nil⟩

structure Reserves (ns : String) (v : EngineArtifactStoreView) (size : Int) (key : String)
    (v' : EngineArtifactStoreView) : Prop where
  slot : key = slotKey ns v.attempted.length
  room : v.attempted.length < maxEngineArtifactWrites
  nonneg : 0 ≤ size
  object : size ≤ maxEngineArtifactBytesPerObject
  aggregate : v.reservedBytes + size ≤ maxEngineArtifactBytesTotal
  attempted : v'.attempted = v.attempted.set key size
  reservedBytes : v'.reservedBytes = v.reservedBytes + size
  written : v'.written = v.written
  compensated : v'.compensated = v.compensated

theorem reserve_ok {v v' : EngineArtifactStoreView} {requestedKey : String}
    (h : reserve ns v requestedKey size = .ok (key, v')) : Reserves ns v size key v' := by
  rcases bind_ok.mp h with ⟨_, _, h⟩
  rcases bind_ok.mp h with ⟨_, hroom, h⟩
  rcases bind_ok.mp h with ⟨_, hobject, h⟩
  rcases bind_ok.mp h with ⟨_, haggregate, h⟩
  rw [raiseIf_ok] at hroom hobject haggregate
  rw [decide_eq_false_iff_not, Nat.not_le] at hroom
  rw [Bool.or_eq_false_iff, decide_eq_false_iff_not, decide_eq_false_iff_not, Int.not_lt,
    Int.not_lt] at hobject
  rw [decide_eq_false_iff_not, Int.not_lt] at haggregate
  cases pure_ok.mp h
  exact ⟨rfl, hroom, hobject.1, hobject.2, by omega, rfl, rfl, rfl, rfl⟩

/-- What a deletion of keys does: what is accounted stays, an object is left or gone, and what
    is noted as deleted is gone. -/
structure Compensates (keys : List String) (s s' : Facade) : Prop where
  attempted : s'.view.attempted = s.view.attempted
  reservedBytes : s'.view.reservedBytes = s.view.reservedBytes
  writes : s'.store.writes = s.store.writes
  written : ∀ key x, s'.view.written.get? key = some x → s.view.written.get? key = some x
  compensated : ∀ key ∈ s'.view.compensated, key ∈ s.view.compensated ∨ key ∈ keys
  objects : ∀ key, s.store.objects key = none → s'.store.objects key = none
  gone : (∀ key ∈ s.view.compensated, s.store.objects key = none) →
    ∀ key ∈ s'.view.compensated, s'.store.objects key = none

theorem compensates_refl (keys : List String) (s : Facade) : Compensates keys s s :=
  ⟨rfl, rfl, rfl, fun _ _ h => h, fun _ h => Or.inl h, fun _ h => h, fun h => h⟩

theorem Compensates.cons {rest : List String} {middle : Facade} (h : Compensates [key] s middle)
    (h' : Compensates rest middle s') :
    Compensates (key :: rest) s s' where
  attempted := h'.attempted.trans h.attempted
  reservedBytes := h'.reservedBytes.trans h.reservedBytes
  writes := h'.writes.trans h.writes
  written k x hx := h.written k x (h'.written k x hx)
  compensated k hk := by
    rcases h'.compensated k hk with hk | hk
    · rcases h.compensated k hk with hk | hk
      · exact Or.inl hk
      · exact Or.inr (mem_singleton.mp hk ▸ mem_cons_self)
    · exact Or.inr (mem_cons_of_mem _ hk)
  objects k hk := h'.objects k (h.objects k hk)
  gone hs := h'.gone (h.gone hs)

theorem compensates_compensate (key : String) (s : Facade) :
    Compensates [key] s (s.compensate key) := by
  refine ⟨rfl, rfl, rfl, fun k x hx => ?_, fun k hk => ?_, fun k hk => ?_, fun hs k hk => ?_⟩
  · rw [Facade.compensate, Dict.get?_filterKeys] at hx
    split at hx
    · exact hx
    · cases hx
  · rcases mem_cons.mp hk with rfl | hk
    · exact Or.inr mem_cons_self
    · exact Or.inl hk
  · rw [Facade.compensate_store, ObjectStore.with_objects, hk, ite_self]
  · rw [Facade.compensate_store, ObjectStore.with_objects]
    split
    · rfl
    next hne => exact hs k ((mem_cons.mp hk).resolve_left hne)

theorem compensates_left (key : String) (removed : Bool) (s : Facade) :
    Compensates [key] s (if removed then ⟨s.view, s.store.with key none⟩ else s) := by
  cases removed with
  | false => exact compensates_refl _ _
  | true =>
    have hobjects : ∀ k, s.store.objects k = none → (s.store.with key none).objects k = none := by
      intro k hk
      rw [ObjectStore.with_objects, hk, ite_self]
    exact ⟨rfl, rfl, rfl, fun _ _ h => h, fun _ h => Or.inl h, hobjects,
      fun hs k hk => hobjects k (hs k hk)⟩

theorem cleanupKeys_spec (answers : String → DeleteAnswer) : ∀ (keys : List String) (s : Facade),
    Compensates keys s (cleanupKeys answers keys s).2 ∧
      ((cleanupKeys answers keys s).1 = false →
        ∀ key ∈ keys, (cleanupKeys answers keys s).2.store.objects key = none)
  | [], s => ⟨compensates_refl [] s, fun _ _ h => absurd h not_mem_nil⟩
  | key :: rest, s => by
    have hdeleted : Compensates (key :: rest) s (cleanupKeys answers rest (s.compensate key)).2 ∧
        ((cleanupKeys answers rest (s.compensate key)).1 = false → ∀ k ∈ key :: rest,
          (cleanupKeys answers rest (s.compensate key)).2.store.objects k = none) := by
      have hrest := cleanupKeys_spec answers rest (s.compensate key)
      refine ⟨(compensates_compensate key s).cons hrest.1, fun hok k hk => ?_⟩
      rcases mem_cons.mp hk with rfl | hk
      · refine hrest.1.objects k ?_
        rw [Facade.compensate_store, ObjectStore.with_objects, if_pos rfl]
      · exact hrest.2 hok k hk
    rw [cleanupKeys]
    cases hanswer : answers key with
    | returned => exact hdeleted
    | missing => exact hdeleted
    | raised removed =>
      exact ⟨(compensates_left key removed s).cons (cleanupKeys_spec answers rest _).1,
        fun h => Bool.noConfusion h⟩

theorem cleanupDefinitively_spec (env : ArtifactEnv) (answers : String → DeleteAnswer)
    (keys : List String) (s : Facade) :
    Compensates keys s (cleanupDefinitively env answers keys s).2 ∧
      ((cleanupDefinitively env answers keys s).1 = .ok () →
        (∀ key ∈ s.view.compensated, s.store.objects key = none) →
          ∀ key ∈ keys, (cleanupDefinitively env answers keys s).2.store.objects key = none) ∧
      ((cleanupDefinitively env answers keys s).1 = .ok () ∨
        (cleanupDefinitively env answers keys s).1 = .error cannotCompensate ∨
        (cleanupDefinitively env answers keys s).1 = .error couldNotCompensate) := by
  have hpending : ∀ key ∈ keys, key ∈ s.view.compensated ∨
      key ∈ keys.filter fun key => !s.view.compensated.contains key := by
    intro key hkey
    by_cases hdone : key ∈ s.view.compensated
    · exact Or.inl hdone
    · refine Or.inr (mem_filter.mpr ⟨hkey, ?_⟩)
      rw [Bool.not_eq_true', ← Bool.not_eq_true, contains_iff_mem]
      exact hdone
  rw [cleanupDefinitively]
  split
  next hempty =>
    refine ⟨compensates_refl keys s, fun _ hgone key hkey => ?_, Or.inl rfl⟩
    rcases hpending key hkey with hdone | hrest
    · exact hgone key hdone
    · rw [List.isEmpty_iff.mp hempty] at hrest
      exact absurd hrest not_mem_nil
  split
  · refine ⟨compensates_refl keys s, fun h => ?_, Or.inr (Or.inl rfl)⟩
    cases h
  have hspec := cleanupKeys_spec answers (keys.filter fun key => !s.view.compensated.contains key) s
  refine ⟨?_, fun hok hgone key hkey => ?_, ?_⟩
  · exact ⟨hspec.1.attempted, hspec.1.reservedBytes, hspec.1.writes, hspec.1.written,
      fun key hkey => (hspec.1.compensated key hkey).imp_right fun h => (mem_filter.mp h).1,
      hspec.1.objects, hspec.1.gone⟩
  · rcases hpending key hkey with hdone | hrest
    · exact hspec.1.objects key (hgone key hdone)
    · refine hspec.2 ?_ key hrest
      cases hfailed : (cleanupKeys answers
          (keys.filter fun key => !s.view.compensated.contains key) s).1 with
      | false => rfl
      | true =>
        simp only [hfailed, if_true] at hok
        cases hok
  · cases hfailed : (cleanupKeys answers
        (keys.filter fun key => !s.view.compensated.contains key) s).1 with
    | false =>
      refine Or.inl ?_
      simp only [hfailed, Bool.false_eq_true, if_false]
    | true =>
      refine Or.inr (Or.inr ?_)
      simp only [hfailed, if_true]

theorem Accounted.compensated {keys : List String} (h : Accounted ns s)
    (hc : Compensates keys s s') : Accounted ns s' := by
  refine ⟨?_, ?_, ?_, ?_, ?_, ?_, ?_, fun key stored contentType hstored => ?_⟩
  · rw [hc.attempted]
    exact h.slots
  · rw [hc.attempted]
    exact h.count
  · rw [hc.attempted, hc.writes]
    exact h.writes
  · rw [hc.attempted, hc.reservedBytes]
    exact h.reserved
  · rw [hc.reservedBytes]
    exact h.within
  · rw [hc.attempted]
    exact h.sizes
  · rw [hc.attempted, hc.writes]
    exact h.sent
  · rw [hc.attempted, hc.writes]
    exact h.written key stored contentType (hc.written key _ hstored)

theorem Cleared.compensated {keys : List String} (h : Cleared s)
    (hkeys : ∀ key ∈ keys, key ∈ s.view.attempted.keys) (hc : Compensates keys s s') :
    Cleared s' := by
  refine ⟨fun key hkey => ?_, hc.gone h.gone⟩
  rw [hc.attempted]
  rcases hc.compensated key hkey with hold | hnew
  · exact h.attempted key hold
  · exact hkeys key hnew

theorem failed_spec (env : ArtifactEnv) (answers : String → DeleteAnswer) (key : String)
    (error : ArtifactError) {s : Facade}
    (hgone : ∀ k ∈ s.view.compensated, s.store.objects k = none) :
    Compensates [key] s (failed env answers key error s).2 ∧
      ((failed env answers key error s).2.store.objects key = none ∨
        (failed env answers key error s).1 = .error cannotCompensate ∨
        (failed env answers key error s).1 = .error couldNotCompensate) := by
  have hspec := cleanupDefinitively_spec env answers [key] s
  rw [failed]
  cases hresult : cleanupDefinitively env answers [key] s with
  | mk result left =>
    rw [hresult] at hspec
    cases result with
    | ok _ => exact ⟨hspec.1, Or.inl (hspec.2.1 rfl hgone key mem_cons_self)⟩
    | error e =>
      refine ⟨hspec.1, Or.inr ?_⟩
      rcases hspec.2.2 with h | h | h
      · cases h
      · exact Or.inl (congrArg Except.error (Except.error.inj h))
      · exact Or.inr (congrArg Except.error (Except.error.inj h))

theorem Accounted.write (h : Accounted ns s) (hr : Reserves ns s.view size key view)
    (hsent : (sent : Int) ≤ size) (answer : WriteAnswer) :
    Accounted ns (Facade.write ⟨view, s.store⟩ key sent answer) := by
  have hnew : key ∉ s.view.attempted.keys := hr.slot ▸ h.next_new hr.room
  have hnone : s.view.attempted.get? key = none := Dict.get?_eq_none_iff.mpr hnew
  have hitems : (s.view.attempted.set key size).items = s.view.attempted.items ++ [(key, size)] :=
    Dict.items_set_new size hnone
  have hlength : (s.view.attempted.set key size).length = s.view.attempted.length + 1 := by
    rw [Dict.length, hitems, length_append]
    rfl
  have hkeys : (s.view.attempted.set key size).keys = s.view.attempted.keys ++ [key] := by
    rw [Dict.keys, hitems, map_append]
    rfl
  have hold : ∀ {k x}, s.view.attempted.get? k = some x →
      (s.view.attempted.set key size).get? k = some x := by
    intro k x hk
    rw [Dict.get?_set_ne _ _ (fun heq => ?_)]
    · exact hk
    · rw [heq, hnone] at hk
      cases hk
  refine ⟨?_, ?_, ?_, ?_, ?_, fun k x hk => ?_, fun w hw => ?_, fun k stored contentType hk => ?_⟩
  · change view.attempted.keys = (range view.attempted.length).map (slotKey ns)
    rw [hr.attempted, hkeys, hlength, range_succ, map_append, ← h.slots, map_singleton, hr.slot]
  · change view.attempted.length ≤ maxEngineArtifactWrites
    rw [hr.attempted, hlength]
    exact hr.room
  · change (s.store.writes ++ [_]).map StoreWrite.key = view.attempted.keys
    rw [hr.attempted, hkeys, map_append, h.writes]
    rfl
  · change view.reservedBytes = total view.attempted
    rw [hr.attempted, hr.reservedBytes, total_set_new size hnone, h.reserved]
  · change view.reservedBytes ≤ maxEngineArtifactBytesTotal
    rw [hr.reservedBytes]
    exact hr.aggregate
  · change view.attempted.get? k = some x at hk
    rw [hr.attempted, Dict.get?_set] at hk
    split at hk
    · cases hk
      exact ⟨hr.nonneg, hr.object⟩
    · exact h.sizes k x hk
  · change ∃ x, view.attempted.get? w.key = some x ∧ (w.sent : Int) ≤ x
    rw [hr.attempted]
    rcases mem_append.mp hw with hw | hw
    · rcases h.sent w hw with ⟨x, hx, hle⟩
      exact ⟨x, hold hx, hle⟩
    · cases mem_singleton.mp hw
      exact ⟨size, Dict.get?_set_self _ _ _, hsent⟩
  · change view.written.get? k = some (stored, contentType) at hk
    rw [hr.written] at hk
    rcases h.written k stored contentType hk with ⟨hkey, hsize, w, hw, hack⟩
    refine ⟨hkey, ?_, w, mem_append_left _ hw, hack⟩
    change view.attempted.get? k = some stored.size
    rw [hr.attempted]
    exact hold hsize

theorem Cleared.write (hc : Cleared s) (h : Accounted ns s) (hr : Reserves ns s.view size key view)
    (answer : WriteAnswer) : Cleared (Facade.write ⟨view, s.store⟩ key sent answer) := by
  have hnew : key ∉ s.view.attempted.keys := hr.slot ▸ h.next_new hr.room
  refine ⟨fun k hk => ?_, fun k hk => ?_⟩
  · change k ∈ view.compensated at hk
    change k ∈ view.attempted.keys
    rw [hr.compensated] at hk
    have hne : k ≠ key := fun heq => hnew (heq ▸ hc.attempted k hk)
    have hold := Dict.has_iff_mem.mpr (hc.attempted k hk)
    rw [hr.attempted, ← Dict.has_iff_mem, Dict.has_set _ _ _ hne]
    exact hold
  · change k ∈ view.compensated at hk
    rw [hr.compensated] at hk
    have hne : k ≠ key := fun heq => hnew (heq ▸ hc.attempted k hk)
    change (s.store.with key answer.leaves).objects k = none
    rw [ObjectStore.with_objects, if_neg hne]
    exact hc.gone k hk

theorem validateStoredArtifactAck_some {value : Json} {maxSize : Option Int}
    (h : validateStoredArtifactAck env value key size maxSize = some stored) :
    stored.key = key ∧ stored.size = size ∧ value.field "key" = .str key ∧
      value.field "size" = .int size := by
  rw [validateStoredArtifactAck] at h
  rcases bind_eq_some_iff.mp h with ⟨d, hd, h⟩
  have hfield : ∀ name v, d.get? name = some v → value.field name = v := by
    intro name v hv
    have hvalue := Json.dict?_eq_some hd
    rw [hvalue, Json.ofDict, Json.field]
    exact congrArg (fun o : Option Json => o.getD .null) hv
  split at h
  next k u n hk hu hn =>
    split at h
    next hok =>
      cases h
      rcases hok with ⟨_, _, _, _, _, _, _, _, rfl, rfl, _⟩
      exact ⟨rfl, rfl, hfield "key" _ hk, hfield "size" _ hn⟩
    · cases h
  · cases h

theorem acknowledge_ok {answer : WriteAnswer} {maxSize : Option Int}
    (h : acknowledge env answer key size maxSize = .ok stored) (sent : Nat) :
    stored.key = key ∧ stored.size = size ∧ Acknowledges ⟨key, sent, answer.acknowledged⟩ key size := by
  rw [acknowledge] at h
  cases hanswer : answer.acknowledged with
  | none =>
    rw [hanswer] at h
    cases h
  | some value =>
    rw [hanswer] at h
    rw [someOr_ok] at h
    rcases validateStoredArtifactAck_some h with ⟨hkey, hsize, hfield, hfield'⟩
    exact ⟨hkey, hsize, rfl, value, rfl, hfield, hfield'⟩

theorem Accounted.remember (h : Accounted ns s) (hkey : stored.key = key)
    (hsize : s.view.attempted.get? key = some stored.size)
    (hack : ∃ w ∈ s.store.writes, Acknowledges w key stored.size) :
    Accounted ns (s.remember env key stored contentType).2 := by
  refine ⟨h.slots, h.count, h.writes, h.reserved, h.within, h.sizes, h.sent,
    fun k other otherType hk => ?_⟩
  change (s.view.written.set key _).get? k = some (other, otherType) at hk
  rw [Dict.get?_set] at hk
  split at hk
  next heq =>
    cases hk
    exact ⟨hkey.trans heq.symm, heq ▸ hsize, heq ▸ hack⟩
  · exact h.written k other otherType hk

theorem Cleared.remember (h : Cleared s) :
    Cleared (s.remember env key stored contentType).2 := ⟨h.attempted, h.gone⟩

theorem Accounted.refund (h : Accounted ns s) (hr : Reserves ns s.view maxBytes key view)
    {consumed : Nat} (hle : (consumed : Int) ≤ maxBytes) (answer : WriteAnswer) :
    Accounted ns ⟨view.refund key maxBytes consumed,
      (Facade.write ⟨view, s.store⟩ key consumed answer).store⟩ := by
  have hwrite := h.write hr hle answer
  have hheld : view.attempted.get? key = some maxBytes := by
    rw [hr.attempted]
    exact Dict.get?_set_self _ _ _
  have hkeys : (view.attempted.set key consumed).keys = view.attempted.keys :=
    Dict.keys_set_of_mem _ hheld
  have hlength : (view.attempted.set key consumed).length = view.attempted.length := by
    have hlen := congrArg List.length hkeys
    rw [Dict.keys, Dict.keys, List.length_map, List.length_map] at hlen
    exact hlen
  have hnew : key ∉ s.view.attempted.keys := hr.slot ▸ h.next_new hr.room
  have hother : ∀ {k x}, s.view.attempted.get? k = some x →
      (view.attempted.set key consumed).get? k = some x := by
    intro k x hk
    have hne : k ≠ key := by
      rintro rfl
      rw [Dict.get?_eq_none_iff.mpr hnew] at hk
      cases hk
    rw [Dict.get?_set_ne _ _ hne, hr.attempted, Dict.get?_set_ne _ _ hne]
    exact hk
  refine ⟨?_, ?_, ?_, ?_, ?_, fun k x hk => ?_, fun w hw => ?_, fun k stored contentType hk => ?_⟩
  · change (view.attempted.set key consumed).keys =
      (range (view.attempted.set key consumed).length).map (slotKey ns)
    rw [hkeys, hlength]
    exact hwrite.slots
  · change (view.attempted.set key consumed).length ≤ maxEngineArtifactWrites
    rw [hlength]
    exact hwrite.count
  · exact hwrite.writes.trans hkeys.symm
  · change view.reservedBytes - (maxBytes - consumed) = total (view.attempted.set key consumed)
    have hreserved : view.reservedBytes = total view.attempted := hwrite.reserved
    rw [total_set_old _ hheld, hreserved]
    omega
  · have hwithin : view.reservedBytes ≤ maxEngineArtifactBytesTotal := hwrite.within
    change view.reservedBytes - (maxBytes - consumed) ≤ maxEngineArtifactBytesTotal
    omega
  · change (view.attempted.set key consumed).get? k = some x at hk
    rw [Dict.get?_set] at hk
    split at hk
    · cases hk
      exact ⟨Int.natCast_nonneg _, Int.le_trans hle hr.object⟩
    · exact hwrite.sizes k x hk
  · change ∃ x, (view.attempted.set key consumed).get? w.key = some x ∧ (w.sent : Int) ≤ x
    rcases mem_append.mp hw with hw | hw
    · rcases h.sent w hw with ⟨x, hx, hsent⟩
      exact ⟨x, hother hx, hsent⟩
    · cases mem_singleton.mp hw
      exact ⟨consumed, Dict.get?_set_self _ _ _, Int.le_refl _⟩
  · change view.written.get? k = some (stored, contentType) at hk
    rw [hr.written] at hk
    rcases h.written k stored contentType hk with ⟨hkey, hsize, w, hw, hack⟩
    exact ⟨hkey, hother hsize, w, mem_append_left _ hw, hack⟩

theorem Cleared.refund {store : ObjectStore} {consumed : Nat} (h : Cleared ⟨view, store⟩)
    (hheld : view.attempted.get? key = some maxBytes) :
    Cleared ⟨view.refund key maxBytes consumed, store⟩ := by
  refine ⟨fun k hk => ?_, h.gone⟩
  change k ∈ (view.attempted.set key consumed).keys
  rw [Dict.keys_set_of_mem _ hheld]
  exact h.attempted k hk

theorem read_consumed {c : CountedStream} (h : (c.consumed : Int) ≤ maxBytes) :
    ((c.read maxBytes).consumed : Int) ≤ maxBytes := by
  rw [CountedStream.read]
  split
  · exact h
  · split
    · exact h
    · split
      · exact h
      next hfits =>
        change ((c.consumed + _ : Nat) : Int) ≤ maxBytes
        rw [Int.natCast_add]
        omega
    · exact h

theorem reads_consumed : ∀ (n : Nat) {c : CountedStream},
    (c.consumed : Int) ≤ maxBytes → ((CountedStream.reads maxBytes n c).consumed : Int) ≤ maxBytes
  | 0, _, h => h
  | n + 1, _, h => reads_consumed n (read_consumed h)

/-- What a call leaves behind: what is told of the facade, and a write that failed is gone or
    reported. -/
structure CallOutcome (ns : String) (s : Facade)
    (r : Except ArtifactError StoredArtifact × Facade) : Prop where
  accounted : Accounted ns r.2
  cleared : Cleared r.2
  failure : ∀ e, r.1 = .error e → ∀ w, r.2.store.writes = s.store.writes ++ [w] →
    r.2.store.objects w.key = none ∨ e = cannotCompensate ∨ e = couldNotCompensate

theorem callOutcome_refused (h : Accounted ns s) (hc : Cleared s) (e : ArtifactError) :
    CallOutcome ns s (.error e, s) := by
  refine ⟨h, hc, fun _ _ w hw => ?_⟩
  change s.store.writes = s.store.writes ++ [w] at hw
  have hlen := congrArg List.length hw
  rw [length_append, length_singleton] at hlen
  omega

theorem callOutcome_failed (h : Accounted ns s) (hc : Cleared s)
    (hr : Reserves ns s.view size key view) (hsent : (sent : Int) ≤ size) (answer : WriteAnswer)
    (deletes : String → DeleteAnswer) (e : ArtifactError) :
    CallOutcome ns s (failed env deletes key e (Facade.write ⟨view, s.store⟩ key sent answer)) := by
  have hwrite := h.write hr hsent answer
  have hclear : Cleared (Facade.write ⟨view, s.store⟩ key sent answer) := hc.write h hr answer
  have hspec := failed_spec env deletes key e hclear.gone
  have hkey : ∀ k ∈ [key], k ∈
      (Facade.write ⟨view, s.store⟩ key sent answer).view.attempted.keys := by
    intro k hk
    rw [mem_singleton.mp hk, ← hwrite.writes]
    exact List.mem_map_of_mem (mem_append_right _ mem_cons_self)
  refine ⟨hwrite.compensated hspec.1, hclear.compensated hkey hspec.1, fun e' he' w hw => ?_⟩
  rw [hspec.1.writes] at hw
  have hlast := append_cancel_left (hw : s.store.writes ++ [_] = s.store.writes ++ [w])
  cases hlast
  rcases hspec.2 with hgone | hreported | hreported
  · exact Or.inl hgone
  · exact Or.inr (Or.inl (Except.error.inj (he'.symm.trans hreported)))
  · exact Or.inr (Or.inr (Except.error.inj (he'.symm.trans hreported)))

theorem callOutcome_remembered {middle : Facade} (h : Accounted ns middle) (hc : Cleared middle)
    (hkey : stored.key = key) (hsize : middle.view.attempted.get? key = some stored.size)
    (hack : ∃ w ∈ middle.store.writes, Acknowledges w key stored.size) :
    CallOutcome ns s (middle.remember env key stored contentType) := by
  refine ⟨h.remember hkey hsize hack, hc.remember, fun e he => ?_⟩
  cases he

theorem put_spec (h : Accounted ns s) (hc : Cleared s) (key : String) (data : Chunk)
    (contentType : String) (answer : WriteAnswer) (deletes : String → DeleteAnswer) :
    CallOutcome ns s (put env ns key data contentType answer deletes s) := by
  cases hkey : checkKey ns key with
  | error e =>
    simp only [put, hkey]
    exact callOutcome_refused h hc e
  | ok _ =>
  cases htype : checkContentType contentType with
  | error e =>
    simp only [put, hkey, htype]
    exact callOutcome_refused h hc e
  | ok _ =>
  cases data with
  | other =>
    simp only [put, hkey, htype]
    exact callOutcome_refused h hc _
  | raises =>
    simp only [put, hkey, htype]
    exact callOutcome_refused h hc _
  | bytes bytes =>
  simp only [put, hkey, htype]
  cases hreserve : reserve ns s.view key bytes.length with
  | error e => exact callOutcome_refused h hc e
  | ok reserved =>
    rcases reserved with ⟨storageKey, view⟩
    have hr := reserve_ok hreserve
    cases hack : acknowledge env answer storageKey bytes.length none with
    | error e =>
      simp only [hack]
      exact callOutcome_failed h hc hr (Int.le_refl _) answer deletes e
    | ok stored =>
      simp only [hack]
      rcases acknowledge_ok hack bytes.length with ⟨hkey, hsize, hacks⟩
      refine callOutcome_remembered (h.write hr (Int.le_refl _) answer)
        (hc.write h hr answer) hkey ?_
        ⟨_, mem_append_right _ mem_cons_self, hsize ▸ hacks⟩
      change view.attempted.get? storageKey = some stored.size
      rw [hr.attempted, hsize]
      exact Dict.get?_set_self _ _ _

theorem putStream_spec (h : Accounted ns s) (hc : Cleared s) (key : String) (stream : List Chunk)
    (contentType : String) (maxBytes : Int) (reads : Nat) (answer : WriteAnswer)
    (deletes : String → DeleteAnswer) :
    CallOutcome ns s (putStream env ns key stream contentType maxBytes reads answer deletes s) := by
  rw [putStream]
  split
  · exact callOutcome_refused h hc _
  next hpositive =>
  cases checkKey ns key with
  | error e => exact callOutcome_refused h hc e
  | ok _ =>
  cases checkContentType contentType with
  | error e => exact callOutcome_refused h hc e
  | ok _ =>
  cases hreserve : reserve ns s.view key maxBytes with
  | error e => exact callOutcome_refused h hc e
  | ok reserved =>
    rcases reserved with ⟨storageKey, view⟩
    have hr := reserve_ok hreserve
    have hread : ((CountedStream.reads maxBytes reads ⟨stream, 0, false, false⟩).consumed : Int)
        ≤ maxBytes := reads_consumed reads (show ((0 : Nat) : Int) ≤ maxBytes by omega)
    generalize CountedStream.reads maxBytes reads ⟨stream, 0, false, false⟩ = c at hread
    cases hack : acknowledgeStream env answer storageKey maxBytes c with
    | error e =>
      simp only [hack]
      exact callOutcome_failed h hc hr hread answer deletes e
    | ok stored =>
      simp only [hack]
      rcases bind_ok.mp hack with ⟨_, hacknowledged, hack⟩
      rcases bind_ok.mp hack with ⟨_, _, hack⟩
      cases pure_ok.mp hack
      rcases acknowledge_ok hacknowledged c.consumed with ⟨hkey, hsize, hacks⟩
      have hheld : view.attempted.get? storageKey = some maxBytes := by
        rw [hr.attempted]
        exact Dict.get?_set_self _ _ _
      refine callOutcome_remembered (h.refund hr hread answer)
        (Cleared.refund (hc.write h hr answer) hheld) hkey ?_
        ⟨_, mem_append_right _ mem_cons_self, hsize ▸ hacks⟩
      change (view.attempted.set storageKey c.consumed).get? storageKey = some stored.size
      rw [hsize]
      exact Dict.get?_set_self _ _ _

theorem perform_spec (h : Accounted ns s) (hc : Cleared s) (call : ArtifactCall) :
    CallOutcome ns s (call.perform env ns s) := by
  cases call with
  | put key data contentType answer deletes =>
    exact put_spec h hc key data contentType answer deletes
  | putStream key stream contentType maxBytes reads answer deletes =>
    exact putStream_spec h hc key stream contentType maxBytes reads answer deletes

theorem performAll_spec (env : ArtifactEnv) (ns : String) : ∀ (calls : List ArtifactCall)
    {s : Facade}, Accounted ns s → Cleared s →
      Accounted ns (performAll env ns s calls) ∧ Cleared (performAll env ns s calls)
  | [], _, h, hc => ⟨h, hc⟩
  | call :: calls, _, h, hc =>
    have hcall : CallOutcome ns _ (call.perform env ns _) := perform_spec h hc call
    performAll_spec env ns calls hcall.accounted hcall.cleared

/-- What is told of a facade whatever was asked of it. -/
structure FacadeSafe (ns : String) (s : Facade) : Prop where
  /-- No two writes use the same key. -/
  distinct : (s.store.writes.map StoreWrite.key).Nodup
  /-- Every key is a slot of the attempt. -/
  slots : ∀ w ∈ s.store.writes, w.key ∈ allSlotKeys ns
  /-- The bytes that are reserved are those that were attempted. -/
  reserved : s.view.reservedBytes = (s.view.attempted.items.map Prod.snd).sum
  /-- Every write was attempted with at least what was sent. -/
  sent : ∀ w ∈ s.store.writes, ∃ size, s.view.attempted.get? w.key = some size ∧ w.sent ≤ size
  aggregate : s.view.reservedBytes ≤ maxEngineArtifactBytesTotal
  object : ∀ key size, s.view.attempted.get? key = some size →
    size ≤ maxEngineArtifactBytesPerObject
  /-- What is listed as written was acknowledged with its size. -/
  written : ∀ key stored contentType, s.view.written.get? key = some (stored, contentType) →
    stored.key = key ∧ ∃ w ∈ s.store.writes, Acknowledges w key stored.size

theorem Accounted.safe (h : Accounted ns s) : FacadeSafe ns s where
  distinct := h.writes ▸ s.view.attempted.nodup
  slots _ hw := h.slots_prefix (h.writes ▸ List.mem_map_of_mem hw)
  reserved := h.reserved
  sent := h.sent
  aggregate := h.within
  object key size hsize := (h.sizes key size hsize).2
  written key stored contentType hstored :=
    have hwritten := h.written key stored contentType hstored
    ⟨hwritten.1, hwritten.2.2⟩

/-- Over any sequence of calls on one facade, with any answers of the store: the facade stays
    safe; a further call that writes and fails leaves nothing under its key, or says so; and the
    deletion of every slot that is not retained keeps the facade safe and leaves nothing in
    these slots, unless it says so. -/
theorem engine_artifacts (env : ArtifactEnv) (ns : String) (objects : String → Option Bytes)
    (calls : List ArtifactCall) :
    let s := performAll env ns (newFacade objects) calls
    FacadeSafe ns s ∧
      (∀ (call : ArtifactCall) (e : ArtifactError) (w : StoreWrite),
        (call.perform env ns s).1 = .error e →
          (call.perform env ns s).2.store.writes = s.store.writes ++ [w] →
            (call.perform env ns s).2.store.objects w.key = none ∨
              e = cannotCompensate ∨ e = couldNotCompensate) ∧
      ∀ (answers : String → DeleteAnswer) (retained : List String),
        FacadeSafe ns (cleanupExcept env ns answers retained s).2 ∧
          ((cleanupExcept env ns answers retained s).1 = .ok () →
            ∀ slot < maxEngineArtifactWrites, slotKey ns slot ∉ retained →
              (cleanupExcept env ns answers retained s).2.store.objects (slotKey ns slot) = none) := by
  intro s
  rcases performAll_spec env ns calls (accounted_new ns objects) (cleared_new objects) with ⟨h, hc⟩
  refine ⟨h.safe, fun call e w he hw => (perform_spec h hc call).failure e he w hw,
    fun answers retained => ?_⟩
  have hspec := cleanupDefinitively_spec env answers
    ((allSlotKeys ns).filter fun key => !retained.contains key) s
  refine ⟨(h.compensated hspec.1).safe, fun hok slot hslot hretained => ?_⟩
  refine hspec.2.1 hok hc.gone _ (mem_filter.mpr ⟨?_, ?_⟩)
  · exact List.mem_map_of_mem (mem_range.mpr hslot)
  · rw [Bool.not_eq_true', ← Bool.not_eq_true, contains_iff_mem]
    exact hretained

end Apex.Graphs.EngineArtifacts
