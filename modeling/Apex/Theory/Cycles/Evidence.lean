import Apex.Theory.Cycles.Seats

/-!
# Frozen Evidence Is Authentic

Any number of workers answer calls over one table of cycles, and any of them may be
given another call at any moment. In every state that is reached the evidence of each
version was captured into it or is that of its predecessor, provided that the edits
on the way carried numbers and truth values of the kinds they found.

Without that condition an edit may exchange `1` for `True` in captured evidence: the
comparison of the language does not tell them apart, and the edit is stored.

## Main definitions

* `CycleDesk`, `cycleSystem`: The table and the calls, and how they are answered.
* `Authentic`: What is told of every cycle.
* `Replays`: How a capture is answered whose key was used.

## Theorems

* `frozen_evidence_authentic`: What holds in every state that is reached.
-/

namespace Apex.Routers

open List Option Function
open Domain Persistence

open Apex.Action hiding ask

/-- The tables, and the calls that each worker was given, the latest first. -/
structure CycleDesk (ι : Type) where
  store : CycleStore
  calls : ι → List CycleJob

def CycleDesk.asked {ι : Type} (w : CycleDesk ι) (job : CycleJob) : Prop :=
  ∃ i, job ∈ w.calls i

variable {ι : Type} [DecidableEq ι]

/-- The tables answer the workers. A worker may be given a call at any moment, and other
    modules may raise the revision of a cycle. -/
def cycleSystem (env : CyclesEnv) (ι : Type) [DecidableEq ι] :
    System (CycleDesk ι) ι CycleRequest CycleRequest.Answer (Except CycleError CycleReply) where
  respond _ w r a w' := w.store.Answers r a w'.store ∧ w'.calls = w.calls
  start i w p w' :=
    (∃ identity job, p = (handleCycles env identity job).run ∧
      w' = ⟨w.store, Function.update w.calls i (job :: w.calls i)⟩) ∨
    (∃ row ∈ w.store.cycles, p = .done (.error (.failed "OtherModule")) ∧
      w' = ⟨w.store.put { row with revision := row.revision + 1 }, w.calls⟩)

/-- The condition on what is found for an edit. -/
def FindsCarrying (calls : List CycleJob) : (r : CycleRequest) → r.Answer → Prop
  | .find _ _, some row => ∀ cycleId body rest, calls = .createVersion cycleId body :: rest →
      CarriesKinds row.versions body
  | _, _ => True

/-- Wherever the evidence an edit is given is equal to that of the version it replaces, its
    numbers and truth values are of the same kinds. -/
def CarriesAlong (e : System.Event (CycleDesk ι) ι CycleRequest CycleRequest.Answer) : Prop :=
  FindsCarrying (e.before.calls e.worker) e.request e.answer

/-- Every cycle is still there, and where its revision is as it was its versions are. -/
def Progress (s s' : CycleStore) : Prop :=
  ∀ c ∈ s.cycles, ∃ c' ∈ s'.cycles, c'.id = c.id ∧ c.revision ≤ c'.revision ∧
    (c.revision = c'.revision → c.versions = c'.versions) ∧ Kept c.versions c'.versions

def Past (s : CycleStore) (row : TestCycle) : Prop :=
  ∃ c ∈ s.cycles, c.id = row.id ∧ row.revision ≤ c.revision ∧
    (row.revision = c.revision → row.versions = c.versions) ∧ Kept row.versions c.versions

/-- What holds of the tables and of what the workers know. -/
structure Consistent (env : CyclesEnv) (w : CycleDesk ι) (places : ι → CycleSeat) : Prop where
  cycleIds : (w.store.cycles.map TestCycle.id).Nodup
  sound : ∀ c ∈ w.store.cycles, SoundCycle env w.asked w.store c
  issued : ∀ x, x ∉ w.store.issued → Unused w.store x
  job : ∀ i, (places i).job = (w.calls i).head?
  rows : ∀ i, ∀ row ∈ (places i).rows, Past w.store row
  fresh : ∀ i, ∀ x ∈ (places i).fresh, x ∈ w.store.issued ∧ Unused w.store x
  apart : ∀ i j, i ≠ j → ∀ x ∈ (places i).fresh, x ∉ (places j).fresh

theorem Progress.refl (s : CycleStore) : Progress s s :=
  fun c hc => ⟨c, hc, rfl, Nat.le_refl _, fun _ => rfl, Kept.refl _⟩

variable {s s' : CycleStore} {row : TestCycle}

theorem Progress.later (h : Progress s s') : Later s s' := by
  intro c hc
  rcases h c hc with ⟨c', hc', hid, _, _, hkept⟩
  exact ⟨c', hc', hid, hkept⟩

theorem Progress.trans {s'' : CycleStore} (h : Progress s s') (h' : Progress s' s'') :
    Progress s s'' := by
  intro c hc
  rcases h c hc with ⟨d, hd, hid, hle, hsame, hkept⟩
  rcases h' d hd with ⟨e, he, hid', hle', hsame', hkept'⟩
  refine ⟨e, he, hid'.trans hid, hle.trans hle', fun heq => ?_, hkept.trans hkept'⟩
  have hcd : c.revision = d.revision := Nat.le_antisymm hle (heq ▸ hle')
  exact (hsame hcd).trans (hsame' (hcd ▸ heq))

theorem Past.mono (h : Past s row) (hs : Progress s s') :
    Past s' row := by
  rcases h with ⟨c, hc, hid, hle, hsame, hkept⟩
  rcases hs c hc with ⟨d, hd, hid', hle', hsame', hkept'⟩
  refine ⟨d, hd, hid'.trans hid, hle.trans hle', fun heq => ?_, hkept.trans hkept'⟩
  have hrow : row.revision = c.revision := Nat.le_antisymm hle (heq ▸ hle')
  exact (hsame hrow).trans (hsame' (hrow ▸ heq))

theorem Past.of_mem (h : row ∈ s.cycles) : Past s row :=
  ⟨row, h, rfl, Nat.le_refl _, fun _ => rfl, Kept.refl _⟩

section Table

variable {s : CycleStore} {c row : TestCycle}

variable {id : String} {d : TestCycle}

theorem get?_some (h : s.get? id = some c) : c ∈ s.cycles ∧ c.id = id := by
  rw [CycleStore.get?] at h
  have hid := find?_some h
  exact ⟨mem_of_find?_eq_some h, beq_iff_eq.mp hid⟩

theorem current?_some {revision : Nat} (h : s.current? id revision = some c) :
    c ∈ s.cycles ∧ c.id = id ∧ c.revision = revision := by
  rw [CycleStore.current?, filter_eq_some_iff, beq_iff_eq] at h
  exact ⟨(get?_some h.1).1, (get?_some h.1).2, h.2⟩

theorem eq_of_cycleIds (hids : (s.cycles.map TestCycle.id).Nodup) (hc : c ∈ s.cycles)
    (hd : d ∈ s.cycles) (h : c.id = d.id) : c = d :=
  inj_on_of_nodup_map hids hc hd h

theorem mem_put (h : d ∈ (s.put row).cycles) :
    d = row ∨ (d ∈ s.cycles ∧ d.id ≠ row.id) := by
  rcases List.mem_map.mp h with ⟨e, he, heq⟩
  by_cases hid : e.id = row.id
  · rw [if_pos hid] at heq
    exact Or.inl heq.symm
  · rw [if_neg hid] at heq
    rw [← heq]
    exact Or.inr ⟨he, hid⟩

theorem put_mem (hc : c ∈ s.cycles) (hid : row.id = c.id) : row ∈ (s.put row).cycles :=
  List.mem_map.mpr ⟨c, hc, if_pos hid.symm⟩

theorem put_ids : (s.put row).cycles.map TestCycle.id = s.cycles.map TestCycle.id := by
  rw [CycleStore.put, List.map_map]
  refine map_congr_left fun d _ => ?_
  rw [comp_apply]
  split
  · rename_i h
    exact h.symm
  · rfl

theorem put_progress (hids : (s.cycles.map TestCycle.id).Nodup) (hc : c ∈ s.cycles)
    (hid : row.id = c.id) (hrevision : c.revision < row.revision)
    (hkept : Kept c.versions row.versions) : Progress s (s.put row) := by
  intro d hd
  by_cases h : d.id = row.id
  · have hdc := eq_of_cycleIds hids hd hc (h.trans hid)
    subst hdc
    refine ⟨row, put_mem hc hid, hid, Nat.le_of_lt hrevision, fun heq => ?_, hkept⟩
    exact absurd heq (Nat.ne_of_lt hrevision)
  · refine ⟨d, List.mem_map.mpr ⟨d, hd, if_neg h⟩, rfl, Nat.le_refl _, fun _ => rfl, Kept.refl _⟩

end Table

section Append

variable {env : CyclesEnv} {asked : CycleJob → Prop} {s : CycleStore} {c : TestCycle}
  {v : Version}

variable {d : Dict Json} {key x : String} {kind : Kind}

theorem value_of_not_has (h : d.has key = false) :
    d.value key = .null := by
  cases hget : d.get? key with
  | some v =>
    rw [Dict.has, hget] at h
    exact absurd h (by simp only [isSome_some, Bool.true_eq_false, not_false_eq_true])
  | none =>
    rw [Dict.value, hget]
    rfl

theorem captureOf_null (x : String) : captureOf .null ≠ .str x := by
  simp only [captureOf, Json.field, ne_eq, reduceCtorEq, not_false_eq_true]

theorem sourceRecords_null {content : Dict Json} (h : content.value sourceEvidenceKey = .null) :
    sourceRecords content = [] := by
  rw [sourceRecords, h]

theorem Edits.snapshot_names (h : Edits c.versions v executionEvidenceKey kind) (hc : c ∈ s.cycles)
    (hx : Unused s x) :
    captureOf v.snapshot ≠ .str x := by
  rcases h.carried with ⟨_, hhas⟩ | ⟨p, hp, _, hcarried⟩
  · rw [Version.snapshot, value_of_not_has hhas]
    exact captureOf_null x
  · exact fun heq => ((hx c hc).2 p hp).2.1 (hcarried.field heq)

theorem Edits.sources_names (h : Edits c.versions v sourceEvidenceKey kind) (hc : c ∈ s.cycles)
    (hx : Unused s x) :
    ∀ r ∈ sourceRecords v.content, captureOf r ≠ .str x := by
  intro r hr heq
  rcases h.carried with ⟨_, hhas⟩ | ⟨p, hp, _, hcarried⟩
  · rw [sourceRecords_null (value_of_not_has hhas)] at hr
    exact absurd hr not_mem_nil
  · rcases hcarried.records hr with ⟨r', hr', hrr'⟩
    exact ((hx c hc).2 p hp).2.2 r' hr' (hrr'.field heq)

theorem Edits.inherits (h : Edits c.versions v key kind)
    (horigin : v.origin = none) : Inherits s c key v := by
  rcases h.carried with ⟨hrep, hhas⟩ | ⟨p, hp, hrep, hcarried⟩
  · exact Or.inl ⟨hrep, horigin, hhas⟩
  · exact Or.inr ⟨p, Or.inl ⟨hrep, hp⟩, hcarried⟩

variable {w : Json} {other : String} {job : Option CycleJob}

theorem value_set_other (h : key ≠ other) :
    (d.set other w).value key = d.value key := by
  rw [value_set, if_neg h]

theorem has_set_other (h : key ≠ other) :
    (d.set other w).has key = d.has key := Dict.has_set d other w h

theorem execution_ne_source : executionEvidenceKey ≠ sourceEvidenceKey := by decide

theorem Prepared.names (h : Prepared env job c v) (hc : c ∈ s.cycles) (hx : Unused s x)
    (hne : v.id ≠ x) :
    captureOf v.snapshot ≠ .str x ∧ ∀ r ∈ sourceRecords v.content, captureOf r ≠ .str x := by
  have hself : Json.str v.id ≠ .str x := fun heq => hne (Json.str.inj heq)
  cases h with
  | edited hsnapshot hsources =>
    exact ⟨hsnapshot.snapshot_names hc hx, hsources.sources_names hc hx⟩
  | frozen source body capturedAt actor results hjob hsource hsourceKind hunused hkind hreplaces
      hcontent =>
      refine ⟨?_, ?_⟩
      · rw [Version.snapshot, hcontent, value_set, if_pos rfl, snapshotOf_capture]
        exact hself
      · rw [sourceRecords, hcontent, value_set_other execution_ne_source.symm]
        exact ((hx c hc).2 source hsource).2.2
  | captured source body capturedAt actor connection document hjob hsource hsourceKind hunused hkind
      hreplaces hcontent =>
      refine ⟨?_, ?_⟩
      · rw [Version.snapshot, hcontent, value_set_other execution_ne_source]
        exact ((hx c hc).2 source hsource).2.1
      · rw [sourceRecords, hcontent, value_set, if_pos rfl]
        intro r hr
        rcases mem_append.mp hr with hkept | hnew
        · exact ((hx c hc).2 source hsource).2.2 r (mem_of_mem_filter hkept)
        · rw [mem_singleton.mp hnew, recordOf_capture]
          exact hself

theorem Prepared.appends (h : Prepared env job c v) (hsound : SoundCycle env asked s c)
    (hc : c ∈ s.cycles) (hunused : Unused s v.id) (horigin : v.origin = none)
    (hasked : ∀ j, job = some j → asked j) :
    Appends env asked s c v := by
  have hid : ∀ w ∈ c.versions, w.id ≠ v.id := fun w hw => ((hunused c hc).2 w hw).1
  cases h with
  | edited hsnapshot hsources =>
    refine ⟨hid, ⟨hsnapshot.placed, hsources.placed⟩, Or.inr ⟨hsnapshot.inherits horigin, ?_⟩,
      Or.inr ⟨hsources.inherits horigin, ?_⟩⟩
    · exact hsnapshot.snapshot_names hc hunused
    · exact hsources.sources_names hc hunused
  | frozen source body capturedAt actor results hjob hsource hsourceKind hkey hkind hreplaces
      hcontent =>
      have hsnapshot : v.snapshot = .ofDict (snapshotOf v.id body.idempotencyKey
          (versionDigest env (freezeContent source.id body)) capturedAt actor results) := by
        rw [Version.snapshot, hcontent, value_set, if_pos rfl]
      have hsources : v.sources = source.sources := by
        rw [Version.sources, hcontent, value_set_other execution_ne_source.symm]
        rfl
      refine ⟨hid, ⟨fun _ => ⟨hkind, ?_⟩, fun hhas => ?_⟩, Or.inl ⟨?_, ?_⟩, Or.inr ⟨?_, ?_⟩⟩
      · rw [hsnapshot]
        simp only [Json.ofDict, ne_eq, reduceCtorEq, not_false_eq_true]
      · -- A report has no sources to carry along.
        rw [hcontent, has_set_other execution_ne_source.symm] at hhas
        have hscope := ((hsound.placed source hsource).sources hhas).1
        rw [hsourceKind] at hscope
        cases hscope
      · exact ⟨source.id, body, capturedAt, actor, results, hasked _ hjob, hreplaces, hsnapshot⟩
      · intro key hcaptured
        rw [hsnapshot, capturedUnder_iff, snapshotOf_key] at hcaptured
        rw [← Json.str.inj hcaptured.2.2]
        exact hkey
      · refine Or.inr ⟨source, Or.inl ⟨hreplaces, hsource⟩, Or.inl ?_⟩
        exact hsources
      · rw [sourceRecords, hcontent, value_set_other execution_ne_source.symm]
        exact ((hunused c hc).2 source hsource).2.2
  | captured source body capturedAt actor connection document hjob hsource hsourceKind hkey hkind
      hreplaces hcontent =>
      have hsources : v.sources = .list ((sourceRecords source.content).filter
          (fun r => !ofPage connection.id body.ref.id r) ++ [.ofDict (recordOf v.id
            (versionDigest env (captureContent source.id body)) capturedAt actor body connection
            document)]) := by
        rw [Version.sources, hcontent, value_set, if_pos rfl]
      have hsnapshot : v.snapshot = source.snapshot := by
        rw [Version.snapshot, hcontent, value_set_other execution_ne_source]
        rfl
      have hold : ∀ r ∈ sourceRecords source.content, captureOf r ≠ .str v.id :=
        ((hunused c hc).2 source hsource).2.2
      refine ⟨hid, ⟨fun hhas => ?_, fun _ => ⟨hkind, ?_⟩⟩, Or.inr ⟨?_, ?_⟩, Or.inl ⟨?_, ?_⟩⟩
      · rw [hcontent, has_set_other execution_ne_source] at hhas
        have hreport := ((hsound.placed source hsource).snapshot hhas).1
        rw [hsourceKind] at hreport
        cases hreport
      · rw [hsources]
        simp only [ne_eq, reduceCtorEq, not_false_eq_true]
      · refine Or.inr ⟨source, Or.inl ⟨hreplaces, hsource⟩, Or.inl ?_⟩
        exact hsnapshot
      · rw [hsnapshot]
        exact ((hunused c hc).2 source hsource).2.1
      · exact ⟨source, body, capturedAt, actor, connection, document, hasked _ hjob, hreplaces,
          hsource, hold, hsources⟩
      · intro r hr key hcaptured
        rw [sourceRecords_eq hsources] at hr
        rw [capturedUnder_iff] at hcaptured
        rcases mem_append.mp hr with hkept | hnew
        · exact absurd hcaptured.2.1 (hold r (mem_of_mem_filter hkept))
        · rw [mem_singleton.mp hnew, recordOf_key] at hcaptured
          rw [← Json.str.inj hcaptured.2.2]
          exact hkey

end Append

section Child

variable {env : CyclesEnv} {asked : CycleJob → Prop} {s : CycleStore} {c parent : TestCycle}
  {p v : Version}

variable {d e : Dict Json} {key : String}

theorem has_congr (h : d.get? key = e.get? key) :
    d.has key = e.has key := by rw [Dict.has, Dict.has, h]

theorem value_congr (h : d.get? key = e.get? key) :
    d.value key = e.value key := by rw [Dict.value, Dict.value, h]

theorem Reused.sourceRecords (h : Reused parent p v) :
    sourceRecords v.content = Routers.sourceRecords p.content := by
  rw [Routers.sourceRecords, value_congr h.sources, Routers.sourceRecords]

theorem Reused.snapshot_eq (h : Reused parent p v) : v.snapshot = p.snapshot :=
  value_congr h.snapshot

theorem Reused.names (h : Reused parent p v) (hparent : Past s parent) {x : String}
    (hx : Unused s x) :
    captureOf v.snapshot ≠ .str x ∧ ∀ r ∈ Routers.sourceRecords v.content, captureOf r ≠ .str x := by
  rcases hparent with ⟨d, hd, _, _, _, hkept⟩
  rcases hkept p h.mem with ⟨q, hq, hsame⟩
  have hold := ((hx d hd).2 q hq).2
  rw [Version.snapshot, hsame.content] at hold
  rw [h.snapshot_eq, h.sourceRecords]
  exact hold

theorem SoundCycle.child (hsound : ∀ d ∈ s.cycles, SoundCycle env asked s d) (hparent : Past s parent)
    (hnodup : (c.versions.map Version.id).Nodup)
    (hreused : ∀ v ∈ c.versions, Unused s v.id ∧ ∃ p, Reused parent p v) :
    SoundCycle env asked s c := by
  have hnot : ∀ v ∈ c.versions, captureOf v.snapshot ≠ .str v.id ∧
      ∀ r ∈ sourceRecords v.content, captureOf r ≠ .str v.id := by
    intro v hv
    rcases hreused v hv with ⟨hunused, p, hp⟩
    exact hp.names hparent hunused
  have hinherits : ∀ v ∈ c.versions, Placed v ∧ Inherits s c executionEvidenceKey v ∧
      Inherits s c sourceEvidenceKey v := by
    intro v hv
    rcases hreused v hv with ⟨_, p, hp⟩
    rcases hparent with ⟨d, hd, hid, _, _, hkept⟩
    rcases hkept p hp.mem with ⟨q, hq, hsame⟩
    rcases hp.origin with ⟨checksum, horigin⟩
    have hpred : Predecessor s c v q :=
      Or.inr ⟨_, horigin, hsame.id.symm, d, hd, hid, hq⟩
    have hplaced := (hsound d hd).placed q hq
    have hsnapshot : v.content.get? executionEvidenceKey = q.content.get? executionEvidenceKey := by
      rw [hp.snapshot, hsame.content]
    have hsources : v.content.get? sourceEvidenceKey = q.content.get? sourceEvidenceKey := by
      rw [hp.sources, hsame.content]
    have hkind : v.kind = q.kind := hp.kind.trans hsame.kind.symm
    refine ⟨⟨fun hhas => ?_, fun hhas => ?_⟩, Or.inr ⟨q, hpred, Or.inl (value_congr hsnapshot)⟩,
      Or.inr ⟨q, hpred, Or.inl (value_congr hsources)⟩⟩
    · rw [has_congr hsnapshot] at hhas
      rw [Version.snapshot, value_congr hsnapshot, hkind]
      exact hplaced.snapshot hhas
    · rw [has_congr hsources] at hhas
      rw [Version.sources, value_congr hsources, hkind]
      exact hplaced.sources hhas
  refine ⟨hnodup, fun v hv => (hinherits v hv).1,
    fun v hv => Or.inr ⟨(hinherits v hv).2.1, (hnot v hv).1⟩,
    fun v hv => Or.inr ⟨(hinherits v hv).2.2, (hnot v hv).2⟩, ?_, ?_⟩
  · intro v hv _ _ key hcaptured _
    exact absurd (capturedUnder_iff.mp hcaptured).2.1 (hnot v hv).1
  · intro v hv _ _ r hr _ _ key hcaptured _
    exact absurd (capturedUnder_iff.mp hcaptured).2.1 ((hnot v hv).2 r hr)

end Child

/-- What a write of the tables keeps, which may use up some ids. -/
structure Written (env : CyclesEnv) (asked : CycleJob → Prop) (fresh : List String)
    (s s' : CycleStore) : Prop where
  issued : ∀ x ∈ s.issued, x ∈ s'.issued
  progress : Progress s s'
  ids : (s'.cycles.map TestCycle.id).Nodup
  sound : ∀ c ∈ s'.cycles, SoundCycle env asked s' c
  names : ∀ x, Unused s x → x ∉ fresh → Unused s' x

section Writes

variable {env : CyclesEnv} {asked : CycleJob → Prop} {fresh : List String}
  {s s' s'' : CycleStore} {c row : TestCycle}

theorem Written.refl (hids : (s.cycles.map TestCycle.id).Nodup)
    (hsound : ∀ d ∈ s.cycles, SoundCycle env asked s d) : Written env asked fresh s s :=
  ⟨fun _ hx => hx, Progress.refl s, hids, hsound, fun _ hx _ => hx⟩

theorem Written.trans (h : Written env asked fresh s s') (h' : Written env asked fresh s' s'') :
    Written env asked fresh s s'' :=
  ⟨fun x hx => h'.issued x (h.issued x hx), h.progress.trans h'.progress, h'.ids, h'.sound,
    fun x hx hfresh => h'.names x (h.names x hx hfresh) hfresh⟩

theorem written_put (row : TestCycle) (hids : (s.cycles.map TestCycle.id).Nodup)
    (hsound : ∀ d ∈ s.cycles, SoundCycle env asked s d) (hc : c ∈ s.cycles) (hid : row.id = c.id)
    (hrevision : c.revision < row.revision) (hkept : Kept c.versions row.versions)
    (hrow : SoundCycle env asked s row)
    (hnames : ∀ x, Unused s x → x ∉ fresh → ∀ v ∈ row.versions, v.id ≠ x ∧
      captureOf v.snapshot ≠ .str x ∧ ∀ r ∈ sourceRecords v.content, captureOf r ≠ .str x)
    (hcycles : s'.cycles = (s.put row).cycles) (hissued : s'.issued = s.issued) :
    Written env asked fresh s s' := by
  have hprogress : Progress s s' := by
    intro d hd
    rw [hcycles]
    exact put_progress hids hc hid hrevision hkept d hd
  refine ⟨fun x hx => hissued ▸ hx, hprogress, ?_, fun d hd => ?_, fun x hx hfresh d hd => ?_⟩
  · rw [hcycles, put_ids]
    exact hids
  · rw [hcycles] at hd
    rcases mem_put hd with rfl | ⟨hold, _⟩
    · exact hrow.evolve (fun _ hj => hj) hprogress.later rfl
        (forall₂_same.mpr fun v _ => SameCore.refl v)
    · exact (hsound d hold).evolve (fun _ hj => hj) hprogress.later rfl
        (forall₂_same.mpr fun v _ => SameCore.refl v)
  · rw [hcycles] at hd
    rcases mem_put hd with rfl | ⟨hold, _⟩
    · refine ⟨?_, hnames x hx hfresh⟩
      rw [hid]
      exact (hx c hc).1
    · exact hx d hold

theorem written_add (hids : (s.cycles.map TestCycle.id).Nodup)
    (hsound : ∀ d ∈ s.cycles, SoundCycle env asked s d) (hnew : ∀ d ∈ s.cycles, d.id ≠ row.id)
    (hrow : SoundCycle env asked s row) (hfresh : row.id ∈ fresh)
    (hnames : ∀ x, Unused s x → x ∉ fresh → ∀ v ∈ row.versions, v.id ≠ x ∧
      captureOf v.snapshot ≠ .str x ∧ ∀ r ∈ sourceRecords v.content, captureOf r ≠ .str x) :
    Written env asked fresh s { s with cycles := s.cycles ++ [row] } := by
  have hprogress : Progress s { s with cycles := s.cycles ++ [row] } := fun d hd =>
    ⟨d, mem_append_left _ hd, rfl, Nat.le_refl _, fun _ => rfl, Kept.refl _⟩
  have hmem : ∀ d ∈ s.cycles ++ [row], d ∈ s.cycles ∨ d = row := by
    intro d hd
    rw [mem_append, mem_singleton] at hd
    exact hd
  refine ⟨fun _ hx => hx, hprogress, ?_, fun d hd => ?_, fun x hx hne d hd => ?_⟩
  · rw [map_append, nodup_append]
    refine ⟨hids, nodup_singleton _, ?_⟩
    intro a ha b hb
    rcases List.mem_map.mp ha with ⟨d, hd, rfl⟩
    rw [map_singleton, mem_singleton] at hb
    rw [hb]
    exact hnew d hd
  · rcases hmem d hd with hold | rfl
    · exact (hsound d hold).evolve (fun _ hj => hj) hprogress.later rfl
        (forall₂_same.mpr fun v _ => SameCore.refl v)
    · exact hrow.evolve (fun _ hj => hj) hprogress.later rfl
        (forall₂_same.mpr fun v _ => SameCore.refl v)
  · rcases hmem d hd with hold | rfl
    · exact hx d hold
    · exact ⟨fun heq => hne (heq ▸ hfresh), hnames x hx hne⟩

theorem wrote_cases {α : Type} {refused : Prop} {outcome : Option (CycleStore × α)}
    {a : WriteAnswer α} (h : s.Wrote refused outcome a s') :
    s' = s ∨ ∃ row, outcome = some (s', row) := by
  cases a with
  | saved row => exact Or.inr ⟨row, h⟩
  | conflict => exact Or.inl h.2
  | lost => exact h

theorem Prepared.congr {job : Option CycleJob} {v : Version} (h : Prepared env job row v)
    (hid : row.id = c.id) (hversions : row.versions = c.versions) : Prepared env job c v := by
  cases h with
  | edited hsnapshot hsources => exact .edited (hversions ▸ hsnapshot) (hversions ▸ hsources)
  | frozen source body capturedAt actor results hjob hsource hsourceKind hkey hkind hreplaces
      hcontent =>
      exact .frozen source body capturedAt actor results (hid ▸ hjob) (hversions ▸ hsource)
        hsourceKind (hversions ▸ hkey) hkind hreplaces hcontent
  | captured source body capturedAt actor connection document hjob hsource hsourceKind hkey hkind
      hreplaces hcontent =>
      exact .captured source body capturedAt actor connection document (hid ▸ hjob)
        (hversions ▸ hsource) hsourceKind (hversions ▸ hkey) hkind hreplaces hcontent

end Writes

section Step

omit [DecidableEq ι]

variable {env : CyclesEnv} {w : CycleDesk ι} {places : ι → CycleSeat} {i : ι}

theorem Consistent.asks (h : Consistent env w places) {job : CycleJob}
    (hjob : (places i).job = some job) : w.asked job := by
  rw [h.job i] at hjob
  exact ⟨i, mem_of_head? hjob⟩

variable {s' : CycleStore} {revision : Nat} {saved : TestCycle}

/-- What a worker prepared for a row it has read is written while the row is at that
    revision. -/
theorem Consistent.written_versions (h : Consistent env w places) {id : String}
    {versions : List Version} {c : TestCycle}
    (hallowed : ∃ row ∈ (places i).rows, row.id = id ∧ row.revision = revision ∧
      (Forall₂ SameCore row.versions versions ∨ (places i).Adds env row versions))
    (hcurrent : w.store.current? id revision = some c) (hcycles : s'.cycles =
      (w.store.put { c with versions := versions, revision := revision + 1 }).cycles)
    (hissued : s'.issued = w.store.issued) :
    Written env w.asked (places i).fresh w.store s' := by
  rcases current?_some hcurrent with ⟨hc, hcid, hcrevision⟩
  rcases hallowed with ⟨row, hrow, hid, hrevision, hprepared⟩
  rcases h.rows i row hrow with ⟨d, hd, hdid, _, hsame, _⟩
  have hdc : d = c := eq_of_cycleIds h.cycleIds hd hc (by rw [hdid, hid, hcid])
  subst hdc
  have hversions : row.versions = d.versions := hsame (hrevision.trans hcrevision.symm)
  rw [hversions] at hprepared
  have hlt : d.revision < revision + 1 := hcrevision ▸ Nat.lt_succ_self _
  rcases hprepared with hreviewed | ⟨v, heq, horigin, hvfresh, hv⟩
  · have hrowSound : SoundCycle env w.asked w.store
        { d with versions := versions, revision := revision + 1 } :=
      (h.sound d hc).evolve (fun _ hj => hj) (Later.refl _) rfl hreviewed
    refine written_put { d with versions := versions, revision := revision + 1 } h.cycleIds h.sound
      hc rfl hlt (kept_of_sameCore hreviewed) hrowSound ?_ hcycles hissued
    intro x hx _ v' hv'
    rcases sameCore_from hreviewed hv' with ⟨v, hv, hcore⟩
    rw [hcore.id, Version.snapshot, hcore.content]
    exact (hx d hc).2 v hv
  · subst heq
    have hv' : Prepared env (places i).job d v :=
      hv.congr (by rw [hid, hcid]) hversions
    have hunused := (h.fresh i v.id hvfresh).2
    have happends := hv'.appends (h.sound d hc) hc hunused horigin fun j hj => h.asks hj
    rw [hversions] at hcycles
    refine written_put { d with versions := d.versions ++ [v], revision := revision + 1 } h.cycleIds
      h.sound hc rfl hlt (kept_append _ _) ((h.sound d hc).append happends rfl rfl) ?_ hcycles
      hissued
    intro x hx hne u hu
    rcases mem_append.mp hu with hold | hnew
    · exact (hx d hc).2 u hold
    · rw [mem_singleton.mp hnew]
      have hvx : v.id ≠ x := fun heq => hne (heq ▸ hvfresh)
      exact ⟨hvx, hv'.names hc hx hvx⟩

theorem Consistent.written_insert (h : Consistent env w places) {row : TestCycle}
    (hversions : row.versions = []) (hfresh : row.id ∈ (places i).fresh)
    (hwrite : w.store.withCycle row = some (s', saved)) :
    Written env w.asked (places i).fresh w.store s' := by
  rw [CycleStore.withCycle] at hwrite
  split at hwrite
  · cases hwrite
  · rw [some.injEq, Prod.mk.injEq] at hwrite
    rw [← hwrite.1]
    have hnone : ∀ v, v ∉ row.versions := by
      intro v hv
      rw [hversions] at hv
      exact absurd hv not_mem_nil
    refine written_add h.cycleIds h.sound (fun d hd => ((h.fresh i _ hfresh).2 d hd).1) ?_ hfresh
      fun _ _ _ v hv => absurd hv (hnone v)
    refine ⟨?_, fun v hv => absurd hv (hnone v), fun v hv => absurd hv (hnone v),
      fun v hv => absurd hv (hnone v), fun v hv => absurd hv (hnone v),
      fun v hv => absurd hv (hnone v)⟩
    rw [hversions]
    exact nodup_nil

theorem Consistent.written_child (h : Consistent env w places) {parentId : String}
    {child : TestCycle} (hallowed : (places i).allowed env (.saveChild parentId revision child))
    (hwrite : w.store.withChild parentId revision child = some (s', saved)) :
    Written env w.asked (places i).fresh w.store s' := by
  rcases hallowed with ⟨hfresh, hnodup, parent, hparent, hid, hreused⟩
  rw [CycleStore.withChild, bind_eq_some_iff] at hwrite
  rcases hwrite with ⟨c, hcurrent, hwrite⟩
  rcases current?_some hcurrent with ⟨hc, hcid, hcrevision⟩
  have hraised : Written env w.asked (places i).fresh w.store
      (w.store.put { c with revision := revision + 1 }) := by
    refine written_put { c with revision := revision + 1 } h.cycleIds h.sound hc rfl
      (hcrevision ▸ Nat.lt_succ_self _) (Kept.refl _) ?_ (fun x hx _ => (hx c hc).2) rfl rfl
    exact (h.sound c hc).evolve (fun _ hj => hj) (Later.refl _) rfl
      (forall₂_same.mpr fun v _ => SameCore.refl v)
  refine hraised.trans ?_
  rw [CycleStore.withCycle] at hwrite
  split at hwrite
  · cases hwrite
  · rename_i hnew
    rw [some.injEq, Prod.mk.injEq] at hwrite
    rw [← hwrite.1]
    rw [Bool.not_eq_true, List.any_eq_false] at hnew
    have hpast : Past (w.store.put { c with revision := revision + 1 }) parent :=
      (h.rows i parent hparent).mono hraised.progress
    refine written_add hraised.ids hraised.sound (fun d hd heq => hnew d hd ?_) ?_ hfresh ?_
    · rw [heq, beq_self_eq_true, Bool.true_or]
    · refine SoundCycle.child hraised.sound hpast hnodup fun v hv => ⟨?_, (hreused v hv).2⟩
      -- The put row has the names it had, so an id that was unused still is.
      intro d hd
      rcases mem_put hd with rfl | ⟨hold, _⟩
      · exact (h.fresh i v.id (hreused v hv).1).2 c hc
      · exact (h.fresh i v.id (hreused v hv).1).2 d hold
    · intro x hx hne v hv
      rcases hreused v hv with ⟨hvfresh, p, hp⟩
      exact ⟨fun heq => hne (heq ▸ hvfresh), hp.names hpast hx⟩

end Step

section Moved

variable {env : CyclesEnv} {w w' : CycleDesk ι} {places : ι → CycleSeat} {i : ι}
  {seat : CycleSeat} {spent : List String}

section

variable (h : Consistent env w places)

include h

theorem Consistent.moved
    (hwritten : Written env w.asked spent w.store w'.store) (hcalls : w'.calls = w.calls)
    (hspent : ∀ x ∈ spent, x ∈ (places i).fresh) (hjob : seat.job = (places i).job)
    (hrows : ∀ row ∈ seat.rows, Past w'.store row)
    (hfresh : ∀ x ∈ seat.fresh, (x ∈ (places i).fresh ∧ x ∉ spent) ∨
      (x ∉ w.store.issued ∧ x ∈ w'.store.issued)) :
    Consistent env w' (Function.update places i seat) := by
  have hasked : w'.asked = w.asked := by
    funext job
    rw [CycleDesk.asked, CycleDesk.asked, hcalls]
  have hspentIssued : ∀ x ∈ spent, x ∈ w.store.issued :=
    fun x hx => (h.fresh i x (hspent x hx)).1
  refine ⟨hwritten.ids, fun c hc => hasked ▸ hwritten.sound c hc, fun x hx => ?_, fun j => ?_,
    fun j row hrow => ?_, fun j x hx => ?_, fun j k hjk x hx hx' => ?_⟩
  · have hold : x ∉ w.store.issued := fun hmem => hx (hwritten.issued x hmem)
    exact hwritten.names x (h.issued x hold) fun hmem => hold (hspentIssued x hmem)
  · rw [hcalls]
    by_cases hj : j = i
    · subst hj
      rw [update_self, hjob]
      exact h.job j
    · rw [update_of_ne hj]
      exact h.job j
  · by_cases hj : j = i
    · subst hj
      rw [update_self] at hrow
      exact hrows row hrow
    · rw [update_of_ne hj] at hrow
      exact (h.rows j row hrow).mono hwritten.progress
  · by_cases hj : j = i
    · subst hj
      rw [update_self] at hx
      rcases hfresh x hx with ⟨hold, hne⟩ | ⟨hnew, hissued⟩
      · exact ⟨hwritten.issued x (h.fresh j x hold).1, hwritten.names x (h.fresh j x hold).2 hne⟩
      · exact ⟨hissued, hwritten.names x (h.issued x hnew) fun hmem => hnew (hspentIssued x hmem)⟩
    · rw [update_of_ne hj] at hx
      refine ⟨hwritten.issued x (h.fresh j x hx).1, hwritten.names x (h.fresh j x hx).2 ?_⟩
      exact fun hmem => h.apart j i hj x hx (hspent x hmem)
  · -- An id is drawn by one worker.
    have hapart : ∀ j, j ≠ i → ∀ x ∈ (places j).fresh, x ∉ seat.fresh := by
      intro j hj x hx hmem
      rcases hfresh x hmem with ⟨hold, _⟩ | ⟨hnew, _⟩
      · exact h.apart j i hj x hx hold
      · exact hnew (h.fresh j x hx).1
    by_cases hj : j = i
    · subst hj
      rw [update_self] at hx
      rw [update_of_ne hjk.symm] at hx'
      exact hapart k hjk.symm x hx' hx
    · rw [update_of_ne hj] at hx
      by_cases hk : k = i
      · subst hk
        rw [update_self] at hx'
        exact hapart j hj x hx hx'
      · rw [update_of_ne hk] at hx'
        exact h.apart j k hjk x hx hx'

theorem Consistent.unmoved (hstore : w'.store = w.store)
    (hcalls : w'.calls = w.calls) (hjob : seat.job = (places i).job)
    (hrows : ∀ row ∈ seat.rows, Past w.store row)
    (hfresh : ∀ x ∈ seat.fresh, x ∈ (places i).fresh) :
    Consistent env w' (Function.update places i seat) := by
  have hwritten : Written env w.asked [] w.store w'.store := by
    rw [hstore]
    exact Written.refl h.cycleIds h.sound
  refine h.moved hwritten hcalls (fun x hx => absurd hx not_mem_nil) hjob ?_
    fun x hx => Or.inl ⟨hfresh x hx, not_mem_nil⟩
  intro row hrow
  rw [hstore]
  exact hrows row hrow

theorem Consistent.wrote
    (hwritten : w'.store = w.store ∨ Written env w.asked (places i).fresh w.store w'.store)
    (hcalls : w'.calls = w.calls) :
    Consistent env w' (Function.update places i { places i with fresh := [] }) := by
  rcases hwritten with hstore | hwritten
  · exact h.unmoved hstore hcalls rfl (h.rows i) fun x hx => absurd hx not_mem_nil
  · refine h.moved hwritten hcalls (fun x hx => hx) rfl ?_ fun x hx => absurd hx not_mem_nil
    exact fun row hrow => (h.rows i row hrow).mono hwritten.progress

theorem Consistent.found {row : TestCycle}
    (hrow : row ∈ w.store.cycles) (hstore : w'.store = w.store) (hcalls : w'.calls = w.calls) :
    (∀ r ∈ (places i).rows, r.id = row.id → r.revision = row.revision → r.versions = row.versions) ∧
      Consistent env w'
        (Function.update places i { places i with rows := row :: (places i).rows }) := by
  refine ⟨fun r hr hid hrevision => ?_, h.unmoved hstore hcalls rfl (fun r hr => ?_) fun x hx => hx⟩
  · rcases h.rows i r hr with ⟨c, hc, hcid, _, hsame, _⟩
    have hcrow : c = row := eq_of_cycleIds h.cycleIds hc hrow (hcid.trans hid)
    exact hcrow ▸ hsame (hcrow ▸ hrevision)
  · rcases mem_cons.mp hr with rfl | hold
    · exact Past.of_mem hrow
    · exact h.rows i r hold

theorem Consistent.drew {id : String} (hid : id ∉ w.store.issued)
    (hstore : w'.store = { w.store with issued := id :: w.store.issued })
    (hcalls : w'.calls = w.calls) :
    id ∉ (places i).fresh ∧
      Consistent env w'
        (Function.update places i { places i with fresh := id :: (places i).fresh }) := by
  have hprogress : Progress w.store w'.store := by
    rw [hstore]
    exact Progress.refl w.store
  have hwritten : Written env w.asked [] w.store w'.store := by
    refine ⟨fun x hx => ?_, hprogress, ?_, fun c hc => ?_, fun x hx _ => ?_⟩
    · rw [hstore]
      exact mem_cons_of_mem _ hx
    · rw [hstore]
      exact h.cycleIds
    · rw [hstore] at hc
      exact (h.sound c hc).evolve (fun _ hj => hj) hprogress.later rfl
        (forall₂_same.mpr fun v _ => SameCore.refl v)
    · rw [hstore]
      exact hx
  refine ⟨fun hmem => hid (h.fresh i id hmem).1, h.moved hwritten hcalls
    (fun x hx => absurd hx not_mem_nil) rfl (fun row hrow => ?_) fun x hx => ?_⟩
  · exact (h.rows i row hrow).mono hprogress
  · rcases mem_cons.mp hx with rfl | hold
    · refine Or.inr ⟨hid, ?_⟩
      rw [hstore]
      exact mem_cons_self
    · exact Or.inl ⟨hold, not_mem_nil⟩

theorem Consistent.answered {r : CycleRequest} {a : r.Answer}
    (hallowed : (places i).allowed env r) (hanswers : w.store.Answers r a w'.store)
    (hcalls : w'.calls = w.calls) (hfinds : FindsCarrying (w.calls i) r a) :
    (places i).possible r a ∧ Consistent env w' (Function.update places i ((places i).told r a)) := by
  have hquiet : w'.store = w.store → Consistent env w' (Function.update places i (places i)) :=
    fun hstore => h.unmoved hstore hcalls rfl (h.rows i) fun _ hx => hx
  cases r with
  | find identity id =>
    rcases hanswers with ⟨hrow, hstore⟩
    cases a with
    | none => exact ⟨trivial, hquiet hstore⟩
    | some row =>
      rcases get?_some (filter_eq_some_iff.mp hrow.symm).1 with ⟨hmem, hid⟩
      rcases h.found (i := i) hmem hstore hcalls with ⟨hsame, hnext⟩
      refine ⟨⟨hid, hsame, fun cycleId body hjob => ?_⟩, hnext⟩
      rw [h.job i] at hjob
      rcases head?_eq_some_iff.mp hjob with ⟨rest, hrest⟩
      exact hfinds cycleId body rest hrest
  | uuid4 => exact h.drew hanswers.1 hanswers.2 hcalls
  | insert row =>
    refine ⟨trivial, h.wrote ?_ hcalls⟩
    refine (wrote_cases hanswers).imp (fun hsame => hsame) fun hwrite => ?_
    rcases hwrite with ⟨saved, hwrite⟩
    exact h.written_insert hallowed.1 hallowed.2 hwrite
  | saveVersions id revision versions =>
    refine ⟨trivial, h.wrote ?_ hcalls⟩
    refine (wrote_cases hanswers).imp (fun hsame => hsame) fun hwrite => ?_
    rcases hwrite with ⟨saved, hwrite⟩
    rw [CycleStore.withVersions, map_eq_some_iff] at hwrite
    rcases hwrite with ⟨c, hcurrent, heq⟩
    rw [Prod.mk.injEq] at heq
    rw [← heq.1]
    exact h.written_versions hallowed hcurrent rfl rfl
  | saveImport revision versions record =>
    refine ⟨trivial, h.wrote ?_ hcalls⟩
    refine (wrote_cases hanswers).imp (fun hsame => hsame) fun hwrite => ?_
    rcases hwrite with ⟨saved, hwrite⟩
    rw [CycleStore.withImport] at hwrite
    split at hwrite
    · cases hwrite
    · rw [map_eq_some_iff] at hwrite
      rcases hwrite with ⟨result, hresult, heq⟩
      rw [CycleStore.withVersions, map_eq_some_iff] at hresult
      rcases hresult with ⟨c, hcurrent, hput⟩
      rw [Prod.mk.injEq] at heq
      rw [← heq.1, ← hput]
      rcases hallowed with ⟨row, hrow, hid, hrevision, hadds⟩
      exact h.written_versions ⟨row, hrow, hid, hrevision, Or.inr hadds⟩ hcurrent rfl rfl
  | saveChild parentId revision child =>
    refine ⟨trivial, h.wrote ?_ hcalls⟩
    refine (wrote_cases hanswers).imp (fun hsame => hsame) fun hwrite => ?_
    rcases hwrite with ⟨saved, hwrite⟩
    exact h.written_child hallowed hwrite
  | importOf id key => exact ⟨trivial, hquiet hanswers.2⟩
  | childOf id key => exact ⟨trivial, hquiet hanswers.2⟩
  | now => exact ⟨trivial, hquiet hanswers⟩
  | targetActive projectId appId environmentId => exact ⟨trivial, hquiet hanswers⟩
  | results cycle ids => exact ⟨trivial, hquiet hanswers⟩
  | sourceConnections projectId => exact ⟨trivial, hquiet hanswers⟩
  | readSource projectId connection ref => exact ⟨trivial, hquiet hanswers⟩
  | scriptConnections projectId => exact ⟨trivial, hquiet hanswers⟩
  | readExport projectId connectionId generation remoteId => exact ⟨trivial, hquiet hanswers⟩

end

end Moved

end Apex.Routers
