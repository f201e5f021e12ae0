import Apex.Routers.Cycles

/-!
# Histories Of Captured Evidence

Where the evidence in a version comes from. It was captured into this version, by a
call that can be named, or it is what the predecessor of the version carries: the
version it replaces, or the one it was taken over from. In the second case it says so
itself, since captured evidence names the version it was captured into.

What is told of a cycle is told of each version when it is appended and does not
change afterwards: a review does not touch what it is told of, and later versions
only add to where a predecessor can be found.

## Main definitions

* `Carried`: The same evidence, as canonical text.
* `FrozenBy`, `CapturedBy`: The call that captured the evidence of a version.
* `SoundCycle`: What is told of a cycle.
* `Unused`: An identifier that no row and no evidence names.

## Theorems

* `SoundCycle.mono`, `SoundCycle.reviewed`, `SoundCycle.append`: What writes keep.
* `SoundCycle.snapshotOf_captured`, `SoundCycle.record_captured`: What names a version as its
  capture was captured into it.
-/

namespace Apex.Routers

open List Option
open Domain Persistence

def Carried (evidence frozen : Json) : Prop :=
  evidence = frozen ∨ Json.canonEq evidence frozen = true

def captureOf (evidence : Json) : Json := evidence.field "capture_version_id"

/-- A version of the same cycle that is replaced, or one of another cycle that is taken
    over. -/
def Predecessor (s : CycleStore) (c : TestCycle) (v p : Version) : Prop :=
  (v.replaces = some p.id ∧ p ∈ c.versions) ∨
    ∃ o, v.origin = some o ∧ o.versionId = p.id ∧
      ∃ c' ∈ s.cycles, c'.id = o.cycleId ∧ p ∈ c'.versions

/-- The evidence is that of the predecessor; without one there is none. -/
def Inherits (s : CycleStore) (c : TestCycle) (key : String) (v : Version) : Prop :=
  (v.replaces.filter (· != "") = none ∧ v.origin = none ∧ v.content.has key = false) ∨
    ∃ p, Predecessor s c v p ∧ Carried (v.content.value key) (p.content.value key)

/-- The evidence of executions was captured into a version by a call that was made. -/
def FrozenBy (env : CyclesEnv) (asked : CycleJob → Prop) (c : TestCycle) (v : Version) : Prop :=
  ∃ versionId body capturedAt actor results,
    asked (.freezeEvidence c.id versionId body) ∧ v.replaces = some versionId ∧
      v.snapshot = .ofDict (snapshotOf v.id body.idempotencyKey
        (versionDigest env (freezeContent versionId body)) capturedAt actor results)

/-- A record of a source was captured into a version by a call that was made. The records
    of the predecessor are kept in order, except those of the same page. -/
def CapturedBy (env : CyclesEnv) (asked : CycleJob → Prop) (c : TestCycle) (v : Version) : Prop :=
  ∃ p body capturedAt actor connection document,
    asked (.captureSource c.id p.id body) ∧ v.replaces = some p.id ∧ p ∈ c.versions ∧
      (∀ r ∈ sourceRecords p.content, captureOf r ≠ .str v.id) ∧
      v.sources = .list ((sourceRecords p.content).filter
          (fun r => !ofPage connection.id body.ref.id r) ++
        [.ofDict (recordOf v.id (versionDigest env (captureContent p.id body)) capturedAt actor body
          connection document)])

/-- Evidence is under its own kind of document, and is not a mere name. -/
structure Placed (v : Version) : Prop where
  snapshot : v.content.has executionEvidenceKey = true → v.kind = .report ∧ v.snapshot ≠ .null
  sources : v.content.has sourceEvidenceKey = true → v.kind = .scope ∧ v.sources ≠ .null

structure SoundCycle (env : CyclesEnv) (asked : CycleJob → Prop) (s : CycleStore) (c : TestCycle) :
    Prop where
  ids : (c.versions.map Version.id).Nodup
  placed : ∀ v ∈ c.versions, Placed v
  snapshots : ∀ v ∈ c.versions, FrozenBy env asked c v ∨
    (Inherits s c executionEvidenceKey v ∧ captureOf v.snapshot ≠ .str v.id)
  sources : ∀ v ∈ c.versions, CapturedBy env asked c v ∨
    (Inherits s c sourceEvidenceKey v ∧ ∀ r ∈ sourceRecords v.content, captureOf r ≠ .str v.id)
  snapshotKeys : ∀ v ∈ c.versions, ∀ v' ∈ c.versions, ∀ key,
    capturedUnder v.id key v.snapshot = true → capturedUnder v'.id key v'.snapshot = true → v = v'
  sourceKeys : ∀ v ∈ c.versions, ∀ v' ∈ c.versions, ∀ r ∈ sourceRecords v.content,
    ∀ r' ∈ sourceRecords v'.content, ∀ key,
      capturedUnder v.id key r = true → capturedUnder v'.id key r' = true → v = v'

def Unused (s : CycleStore) (id : String) : Prop :=
  ∀ c ∈ s.cycles, c.id ≠ id ∧ ∀ v ∈ c.versions, v.id ≠ id ∧ captureOf v.snapshot ≠ .str id ∧
    ∀ r ∈ sourceRecords v.content, captureOf r ≠ .str id

theorem carried_refl (evidence : Json) : Carried evidence evidence := Or.inl rfl

variable {evidence : Json} {versions : List Version}

variable {key : String} {content : Dict Json} {new old : List Version}

theorem Carried.field {frozen : Json} (h : Carried evidence frozen) {s : String}
    (hs : evidence.field key = .str s) : frozen.field key = .str s := by
  rcases h with heq | hcanon
  · rw [← heq]
    exact hs
  · exact Json.canonEq_field hcanon hs

theorem sourceRecords_eq {records : List Json}
    (h : content.value sourceEvidenceKey = .list records) : sourceRecords content = records := by
  rw [sourceRecords, h]

theorem Carried.records {frozen : Dict Json}
    (h : Carried (content.value sourceEvidenceKey) (frozen.value sourceEvidenceKey)) {r : Json}
    (hr : r ∈ sourceRecords content) : ∃ r' ∈ sourceRecords frozen, Carried r r' := by
  rw [sourceRecords] at hr
  rcases h with heq | hcanon
  · rw [heq] at hr
    exact ⟨r, hr, carried_refl r⟩
  · cases hv : content.value sourceEvidenceKey with
    | list xs =>
      rw [hv] at hr hcanon
      cases hw : frozen.value sourceEvidenceKey with
      | list ys =>
        rw [hw, Json.canonEq, Json.agree_list] at hcanon
        rw [sourceRecords_eq hw]
        rcases mem_iff_getElem.mp hr with ⟨i, hi, rfl⟩
        have hlen := hcanon.length_eq
        exact ⟨ys[i], getElem_mem _, Or.inr (hcanon.get hi (hlen ▸ hi))⟩
      | _ =>
        rw [hw] at hcanon
        exact absurd hcanon (by simp only [Json.canonEq, Json.agree, Bool.false_eq_true,
          not_false_eq_true])
    | _ =>
      rw [hv] at hr
      exact absurd hr not_mem_nil

theorem capturedUnder_iff {versionId : String} :
    capturedUnder versionId key evidence = true ↔ evidence.isDict = true ∧
      captureOf evidence = .str versionId ∧ evidence.field "request_key" = .str key := by
  rw [capturedUnder, Bool.and_eq_true, Bool.and_eq_true, beq_iff_eq, beq_iff_eq, and_assoc]
  rfl

theorem field_ofDict (d : Dict Json) (key : String) :
    (Json.ofDict d).field key = d.value key := rfl

theorem value_single (key other : String) (v : Json) :
    (Dict.single other v).value key = if key = other then v else .null := by
  rw [Dict.value, Dict.get?_single]
  split
  · rfl
  · rfl

theorem value_set (d : Dict Json) (key other : String) (v : Json) :
    (d.set other v).value key = if key = other then v else d.value key := by
  rw [Dict.value, Dict.get?_set]
  split
  · rfl
  · rfl

section Captures

variable {captureId key fingerprint capturedAt actor : String} {results : List CycleResult}
  {body : CaptureSource} {connection : ConnectionChoice} {document : DocumentContent}

theorem snapshotOf_capture :
    captureOf (.ofDict (snapshotOf captureId key fingerprint capturedAt actor results)) =
      .str captureId := by
  simp only [captureOf, field_ofDict, snapshotOf, value_set, value_single, String.reduceEq, if_true,
    if_false]

theorem snapshotOf_key :
    (Json.ofDict (snapshotOf captureId key fingerprint capturedAt actor results)).field
      "request_key" = .str key := by
  simp only [field_ofDict, snapshotOf, value_set, String.reduceEq, if_true, if_false]

theorem snapshotOf_fingerprint :
    (Json.ofDict (snapshotOf captureId key fingerprint capturedAt actor results)).field
      "request_fingerprint" = .str fingerprint := by
  simp only [field_ofDict, snapshotOf, value_set, String.reduceEq, if_true, if_false]

theorem recordOf_capture :
    captureOf (.ofDict (recordOf captureId fingerprint capturedAt actor body connection document)) =
      .str captureId := by
  simp only [captureOf, field_ofDict, recordOf, value_set, value_single, String.reduceEq, if_true,
    if_false]

theorem recordOf_key :
    (Json.ofDict (recordOf captureId fingerprint capturedAt actor body connection document)).field
      "request_key" = .str body.idempotencyKey := by
  simp only [field_ofDict, recordOf, value_set, String.reduceEq, if_true, if_false]

theorem recordOf_fingerprint :
    (Json.ofDict (recordOf captureId fingerprint capturedAt actor body connection document)).field
      "request_fingerprint" = .str fingerprint := by
  simp only [field_ofDict, recordOf, value_set, String.reduceEq, if_true, if_false]

end Captures

/-- A version after reviews: what its evidence rests on is as it was. -/
structure SameCore (v v' : Version) : Prop where
  id : v'.id = v.id
  kind : v'.kind = v.kind
  content : v'.content = v.content
  replaces : v'.replaces = v.replaces
  origin : v'.origin = v.origin

def Kept (old new : List Version) : Prop := ∀ p ∈ old, ∃ p' ∈ new, SameCore p p'

/-- Every cycle is still there, with its versions. -/
def Later (s s' : CycleStore) : Prop :=
  ∀ c ∈ s.cycles, ∃ c' ∈ s'.cycles, c'.id = c.id ∧ Kept c.versions c'.versions

theorem SameCore.refl (v : Version) : SameCore v v := ⟨rfl, rfl, rfl, rfl, rfl⟩

theorem SameCore.trans {u v w : Version} (h : SameCore u v) (h' : SameCore v w) : SameCore u w :=
  ⟨h'.id.trans h.id, h'.kind.trans h.kind, h'.content.trans h.content,
    h'.replaces.trans h.replaces, h'.origin.trans h.origin⟩

theorem Kept.refl (versions : List Version) : Kept versions versions :=
  fun p hp => ⟨p, hp, SameCore.refl p⟩

theorem Kept.trans {a b c : List Version} (h : Kept a b) (h' : Kept b c) : Kept a c := by
  intro p hp
  rcases h p hp with ⟨q, hq, hpq⟩
  rcases h' q hq with ⟨r, hr, hqr⟩
  exact ⟨r, hr, hpq.trans hqr⟩

theorem kept_append (versions added : List Version) : Kept versions (versions ++ added) :=
  fun p hp => ⟨p, mem_append_left _ hp, SameCore.refl p⟩

theorem Later.refl (s : CycleStore) : Later s s :=
  fun c hc => ⟨c, hc, rfl, Kept.refl c.versions⟩

theorem sameCore_from (h : Forall₂ SameCore old new) {v' : Version}
    (hv' : v' ∈ new) : ∃ v ∈ old, SameCore v v' := by
  rcases mem_iff_getElem.mp hv' with ⟨i, hi, rfl⟩
  have hlen := h.length_eq
  exact ⟨old[i], getElem_mem _, h.get (hlen ▸ hi) hi⟩

theorem kept_of_sameCore (h : Forall₂ SameCore old new) :
    Kept old new := by
  intro v hv
  rcases mem_iff_getElem.mp hv with ⟨i, hi, rfl⟩
  have hlen := h.length_eq
  exact ⟨new[i], getElem_mem _, h.get hi (hlen ▸ hi)⟩

section Mono

variable {env : CyclesEnv} {asked asked' : CycleJob → Prop} {s s' : CycleStore}
  {c c' : TestCycle} {v v' : Version}

theorem Predecessor.mono {p : Version} (h : Predecessor s c v p) (hs : Later s s')
    (hc : Kept c.versions c'.versions) (hv : SameCore v v') :
    ∃ p', Predecessor s' c' v' p' ∧ SameCore p p' := by
  rcases h with ⟨hrep, hp⟩ | ⟨o, ho, hid, d, hd, hdid, hp⟩
  · rcases hc p hp with ⟨p', hp', hsame⟩
    exact ⟨p', Or.inl ⟨by rw [hv.replaces, hsame.id, hrep], hp'⟩, hsame⟩
  · rcases hs d hd with ⟨d', hd', hdid', hkept⟩
    rcases hkept p hp with ⟨p', hp', hsame⟩
    exact ⟨p', Or.inr ⟨o, by rw [hv.origin, ho], by rw [hsame.id, hid], d', hd',
      by rw [hdid', hdid], hp'⟩, hsame⟩

theorem Inherits.mono {key : String} (h : Inherits s c key v) (hs : Later s s')
    (hc : Kept c.versions c'.versions) (hv : SameCore v v') : Inherits s' c' key v' := by
  rcases h with ⟨hrep, horigin, hhas⟩ | ⟨p, hp, hcarried⟩
  · exact Or.inl ⟨by rw [hv.replaces, hrep], by rw [hv.origin, horigin], by rw [hv.content, hhas]⟩
  · rcases hp.mono hs hc hv with ⟨p', hp', hsame⟩
    refine Or.inr ⟨p', hp', ?_⟩
    rw [hv.content, hsame.content]
    exact hcarried

theorem FrozenBy.mono (h : FrozenBy env asked c v) (hasked : ∀ job, asked job → asked' job)
    (hid : c'.id = c.id) (hv : SameCore v v') : FrozenBy env asked' c' v' := by
  rcases h with ⟨versionId, body, capturedAt, actor, results, hjob, hrep, hsnap⟩
  refine ⟨versionId, body, capturedAt, actor, results, ?_, by rw [hv.replaces, hrep], ?_⟩
  · rw [hid]
    exact hasked _ hjob
  · rw [Version.snapshot, hv.content, hv.id]
    exact hsnap

theorem CapturedBy.mono (h : CapturedBy env asked c v) (hasked : ∀ job, asked job → asked' job)
    (hid : c'.id = c.id) (hc : Kept c.versions c'.versions) (hv : SameCore v v') :
    CapturedBy env asked' c' v' := by
  rcases h with ⟨p, body, capturedAt, actor, connection, document, hjob, hrep, hp, hold, hsources⟩
  rcases hc p hp with ⟨p', hp', hsame⟩
  refine ⟨p', body, capturedAt, actor, connection, document, ?_, ?_, hp', ?_, ?_⟩
  · rw [hid, hsame.id]
    exact hasked _ hjob
  · rw [hv.replaces, hsame.id, hrep]
  · rw [hsame.content, hv.id]
    exact hold
  · rw [Version.sources, hv.content, hsame.content, hsame.id, hv.id]
    exact hsources

theorem SoundCycle.evolve (h : SoundCycle env asked s c) (hasked : ∀ job, asked job → asked' job)
    (hs : Later s s') (hid : c'.id = c.id)
    (hversions : Forall₂ SameCore c.versions c'.versions) : SoundCycle env asked' s' c' := by
  have hfrom : ∀ v' ∈ c'.versions, ∃ v ∈ c.versions, SameCore v v' :=
    fun v' hv' => sameCore_from hversions hv'
  have hkept : Kept c.versions c'.versions := kept_of_sameCore hversions
  have hids : c'.versions.map Version.id = c.versions.map Version.id := by
    have hall : Forall₂ (fun a b => a = b) (c.versions.map Version.id)
        (c'.versions.map Version.id) := by
      rw [forall₂_map_left_iff, forall₂_map_right_iff]
      exact hversions.imp fun _ _ hsame => hsame.id.symm
    exact (forall₂_eq_eq_eq ▸ hall).symm
  -- Two reviewed versions are the same if the versions were.
  have hinj : ∀ u' ∈ c'.versions, ∀ v' ∈ c'.versions, u'.id = v'.id → u' = v' := by
    intro u' hu' v' hv' heq
    exact inj_on_of_nodup_map (hids ▸ h.ids) hu' hv' heq
  refine ⟨hids ▸ h.ids, ?_, ?_, ?_, ?_, ?_⟩
  · intro v' hv'
    rcases hfrom v' hv' with ⟨v, hv, hsame⟩
    rcases h.placed v hv with ⟨hsnap, hsources⟩
    refine ⟨fun hhas => ?_, fun hhas => ?_⟩
    · rw [hsame.content] at hhas
      rw [Version.snapshot, hsame.content, hsame.kind]
      exact hsnap hhas
    · rw [hsame.content] at hhas
      rw [Version.sources, hsame.content, hsame.kind]
      exact hsources hhas
  · intro v' hv'
    rcases hfrom v' hv' with ⟨v, hv, hsame⟩
    refine (h.snapshots v hv).imp (fun hf => hf.mono hasked hid hsame)
      (fun hi => ⟨hi.1.mono hs hkept hsame, ?_⟩)
    rw [Version.snapshot, hsame.content, hsame.id]
    exact hi.2
  · intro v' hv'
    rcases hfrom v' hv' with ⟨v, hv, hsame⟩
    refine (h.sources v hv).imp (fun hf => hf.mono hasked hid hkept hsame)
      (fun hi => ⟨hi.1.mono hs hkept hsame, ?_⟩)
    rw [hsame.content, hsame.id]
    exact hi.2
  · intro u' hu' v' hv' key hu hv
    rcases hfrom u' hu' with ⟨a, ha, hsame⟩
    rcases hfrom v' hv' with ⟨b, hb, hsame'⟩
    rw [Version.snapshot, hsame.content, hsame.id] at hu
    rw [Version.snapshot, hsame'.content, hsame'.id] at hv
    refine hinj u' hu' v' hv' ?_
    rw [hsame.id, hsame'.id, h.snapshotKeys a ha b hb key hu hv]
  · intro u' hu' v' hv' r hr r' hr' key hu hv
    rcases hfrom u' hu' with ⟨a, ha, hsame⟩
    rcases hfrom v' hv' with ⟨b, hb, hsame'⟩
    rw [hsame.content] at hr
    rw [hsame'.content] at hr'
    rw [hsame.id] at hu
    rw [hsame'.id] at hv
    refine hinj u' hu' v' hv' ?_
    rw [hsame.id, hsame'.id, h.sourceKeys a ha b hb r hr r' hr' key hu hv]

end Mono

theorem findSnapshot_none :
    findSnapshot key versions = none ↔ ∀ v ∈ versions, capturedUnder v.id key v.snapshot = false := by
  rw [findSnapshot, findSome?_eq_none_iff]
  refine forall₂_congr fun v _ => ?_
  rw [filter_eq_none_iff]
  simp only [some.injEq, forall_eq', Bool.not_eq_true]

theorem findSnapshot_some (h : findSnapshot key versions = some evidence) :
    ∃ v ∈ versions, v.snapshot = evidence ∧ capturedUnder v.id key evidence = true := by
  rcases exists_of_findSome?_eq_some h with ⟨v, hv, hfilter⟩
  rw [filter_eq_some_iff, some.injEq] at hfilter
  exact ⟨v, hv, hfilter.1, hfilter.2⟩

theorem findRecord_none :
    findRecord key versions = none ↔
      ∀ v ∈ versions, ∀ r ∈ sourceRecords v.content, capturedUnder v.id key r = false := by
  rw [findRecord, findSome?_eq_none_iff]
  refine forall₂_congr fun v _ => ?_
  simp only [find?_eq_none, Bool.not_eq_true]

theorem findRecord_some {record : Json} (h : findRecord key versions = some record) :
    ∃ v ∈ versions, record ∈ sourceRecords v.content ∧ capturedUnder v.id key record = true := by
  rcases exists_of_findSome?_eq_some h with ⟨v, hv, hfind⟩
  exact ⟨v, hv, mem_of_find?_eq_some hfind, find?_some hfind⟩

/-- What is told of a version when it is appended: its evidence of either kind was just
    captured under a key that was not used, or is that of its predecessor. -/
structure Appends (env : CyclesEnv) (asked : CycleJob → Prop) (s : CycleStore) (c : TestCycle)
    (v : Version) : Prop where
  id : ∀ w ∈ c.versions, w.id ≠ v.id
  placed : Placed v
  snapshot : (FrozenBy env asked c v ∧
      ∀ key, capturedUnder v.id key v.snapshot = true → findSnapshot key c.versions = none) ∨
    (Inherits s c executionEvidenceKey v ∧ captureOf v.snapshot ≠ .str v.id)
  sources : (CapturedBy env asked c v ∧ ∀ r ∈ sourceRecords v.content, ∀ key,
      capturedUnder v.id key r = true → findRecord key c.versions = none) ∨
    (Inherits s c sourceEvidenceKey v ∧ ∀ r ∈ sourceRecords v.content, captureOf r ≠ .str v.id)

section Append

variable {env : CyclesEnv} {asked : CycleJob → Prop} {s : CycleStore} {c c' : TestCycle}
  {v : Version}

variable {key : String} {w : Version} {r : Json}

theorem Appends.snapshotKey (hv : Appends env asked s c v) (hw : w ∈ c.versions)
    (h : capturedUnder v.id key v.snapshot = true) :
    capturedUnder w.id key w.snapshot = false := by
  rcases hv.snapshot with ⟨_, hunused⟩ | ⟨_, hother⟩
  · exact findSnapshot_none.mp (hunused key h) w hw
  · exact absurd (capturedUnder_iff.mp h).2.1 hother

theorem Appends.sourceKey (hv : Appends env asked s c v) (hw : w ∈ c.versions) {r' : Json}
    (hr : r ∈ sourceRecords v.content) (hr' : r' ∈ sourceRecords w.content)
    (h : capturedUnder v.id key r = true) :
    capturedUnder w.id key r' = false := by
  rcases hv.sources with ⟨_, hunused⟩ | ⟨_, hother⟩
  · exact findRecord_none.mp (hunused r hr key h) w hw r' hr'
  · exact absurd (capturedUnder_iff.mp h).2.1 (hother r hr)

theorem SoundCycle.append (h : SoundCycle env asked s c) (hv : Appends env asked s c v) (hid : c'.id = c.id)
    (hversions : c'.versions = c.versions ++ [v]) : SoundCycle env asked s c' := by
  have hkept : Kept c.versions c'.versions := by
    rw [hversions]
    exact kept_append _ _
  have hmem : ∀ w ∈ c'.versions, w ∈ c.versions ∨ w = v := by
    intro w hw
    rw [hversions, mem_append, mem_singleton] at hw
    exact hw
  refine ⟨?_, ?_, ?_, ?_, ?_, ?_⟩
  · rw [hversions, map_append, nodup_append]
    refine ⟨h.ids, nodup_singleton _, ?_⟩
    intro a ha b hb
    rcases List.mem_map.mp ha with ⟨w, hw, rfl⟩
    rw [map_singleton, mem_singleton] at hb
    rw [hb]
    exact hv.id w hw
  · intro w hw
    rcases hmem w hw with hold | rfl
    · exact h.placed w hold
    · exact hv.placed
  · intro w hw
    rcases hmem w hw with hold | rfl
    · exact (h.snapshots w hold).imp (fun hf => hf.mono (fun _ hj => hj) hid (SameCore.refl w))
        (fun hi => ⟨hi.1.mono (Later.refl s) hkept (SameCore.refl w), hi.2⟩)
    · exact hv.snapshot.imp (fun hf => hf.1.mono (fun _ hj => hj) hid (SameCore.refl w))
        (fun hi => ⟨hi.1.mono (Later.refl s) hkept (SameCore.refl w), hi.2⟩)
  · intro w hw
    rcases hmem w hw with hold | rfl
    · exact (h.sources w hold).imp (fun hf => hf.mono (fun _ hj => hj) hid hkept (SameCore.refl w))
        (fun hi => ⟨hi.1.mono (Later.refl s) hkept (SameCore.refl w), hi.2⟩)
    · exact hv.sources.imp (fun hf => hf.1.mono (fun _ hj => hj) hid hkept (SameCore.refl w))
        (fun hi => ⟨hi.1.mono (Later.refl s) hkept (SameCore.refl w), hi.2⟩)
  · intro u hu w hw key hku hkw
    rcases hmem u hu with hold | rfl
    · rcases hmem w hw with hold' | rfl
      · exact h.snapshotKeys u hold w hold' key hku hkw
      · exact absurd hku (by rw [hv.snapshotKey hold hkw]; exact Bool.false_ne_true)
    · rcases hmem w hw with hold' | rfl
      · exact absurd hkw (by rw [hv.snapshotKey hold' hku]; exact Bool.false_ne_true)
      · rfl
  · intro u hu w hw r hr r' hr' key hku hkw
    rcases hmem u hu with hold | rfl
    · rcases hmem w hw with hold' | rfl
      · exact h.sourceKeys u hold w hold' r hr r' hr' key hku hkw
      · exact absurd hku (by rw [hv.sourceKey hold hr' hr hkw]; exact Bool.false_ne_true)
    · rcases hmem w hw with hold' | rfl
      · exact absurd hkw (by rw [hv.sourceKey hold' hr hr' hku]; exact Bool.false_ne_true)
      · rfl

theorem SoundCycle.snapshot_frozen (h : SoundCycle env asked s c) (hmem : v ∈ c.versions)
    (hcapture : captureOf v.snapshot = .str v.id) : FrozenBy env asked c v :=
  (h.snapshots v hmem).resolve_right fun hi => hi.2 hcapture

theorem SoundCycle.sources_captured (h : SoundCycle env asked s c) (hmem : v ∈ c.versions)
    (hr : r ∈ sourceRecords v.content) (hcapture : captureOf r = .str v.id) :
    CapturedBy env asked c v :=
  (h.sources v hmem).resolve_right fun hi => hi.2 r hr hcapture

end Append

end Apex.Routers
