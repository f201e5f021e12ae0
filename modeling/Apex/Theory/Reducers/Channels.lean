import Apex.Theory.Reducers.Replay
import Mathlib.Data.Finset.Max

/-!
# The List Channels

`artifacts` and `dialogue` are lists of records. Both reducers concatenate the
distinct records of their arguments; the first keeps the last 256, the second
keeps the latest attempt of each phase and then the last 256.

A replayed update finds its records in place unless they were not kept. For
`artifacts` that means pushed out of the window. For `dialogue` a record may
also have been outdated by a later attempt of its phase, and presenting it
again is harmless as long as a record of that later attempt is still there to
outdate it once more.

## Main definitions

* `ArtifactsReplaySafe`: Replaying an update of `artifacts`.
* `isCurrent`: No record of the phase has a later attempt.
* `Kept`: A record is current and not crowded out.
* `DialogueReplaySafe`: Replaying an update of `dialogue`.

## Theorems

* `artifacts_replay_iff`: When the replay changes nothing.
* `mergeDialogue_ok`: What the dialogue reducer keeps.
* `dialogue_replay_iff`: When the replay changes nothing.
* `tool_calls_replay_evicts`: A replay that changes the channel.
-/

namespace Apex.Graphs

open List Option

variable (env : ReducerEnv) (arg : Json)

/-- The distinct records of an argument, as far as the reducers look. -/
def channelRecords : List StableEntry :=
  distinctRecords env (recent maxDurableArtifacts arg)

/-- What makes an argument of a list channel acceptable. -/
def ChannelOk : Prop :=
  isList arg = true ∧ RecordsOk env (recent maxDurableArtifacts arg)

/-- All the records an update leaves, before anything is dropped. -/
def channelLog (left right : Json) : List StableEntry :=
  appendNew StableEntry.id (channelRecords env left) (channelRecords env right)

theorem appendUniqueById_ok (left right : Json) (ss : List StableEntry) :
    appendUniqueById env left right = .ok ss ↔
      (ChannelOk env left ∧ ChannelOk env right) ∧ channelLog env left right = ss := by
  rw [appendUniqueById]
  simp only [bind_ok, boundedExactList_ok, mergeListsById_ok]
  have hlog : channelLog env left right = appendNew StableEntry.id (channelRecords env left)
      (records env (recent maxDurableArtifacts right)) := by
    have hdistinct := appendNew_distinct StableEntry.id (channelRecords env left) []
      (records env (recent maxDurableArtifacts right))
    rw [appendNew_nil] at hdistinct
    exact hdistinct
  rw [hlog]
  constructor
  · rintro ⟨_, ⟨hl, rfl⟩, _, ⟨hr, rfl⟩, ⟨hls, hrs⟩, heq⟩
    exact ⟨⟨⟨hl, hls⟩, hr, hrs⟩, heq⟩
  · rintro ⟨⟨⟨hl, hls⟩, hr, hrs⟩, heq⟩
    exact ⟨_, ⟨hl, rfl⟩, _, ⟨hr, rfl⟩, ⟨hls, hrs⟩, heq⟩

theorem nodup_channelRecords :
    ((channelRecords env arg).map StableEntry.id).Nodup := nodup_distinctRecords env _

theorem nodup_channelLog (left right : Json) :
    ((channelLog env left right).map StableEntry.id).Nodup :=
  appendNew_nodup StableEntry.id _ _ (nodup_channelRecords env left)

theorem length_channelRecords_le :
    (channelRecords env arg).length ≤ maxDurableArtifacts :=
  Nat.le_trans (length_distinctRecords_le env _) (length_recent_le _ arg)

variable {ss log : List StableEntry} {env : ReducerEnv} {left right : Json} {s : StableEntry}

theorem recent_channelJson (h : ss.length ≤ maxDurableArtifacts) :
    recent maxDurableArtifacts (channelJson ss) = ss.map StableEntry.toJson :=
  recent_recordsJson h

theorem channelRecords_channelJson (hlen : ss.length ≤ maxDurableArtifacts)
    (hnd : (ss.map StableEntry.id).Nodup) :
    channelRecords env (channelJson ss) = ss := by
  rw [channelRecords, recent_channelJson hlen, distinctRecords_toJson hnd]

theorem channelOk_channelJson (hlen : ss.length ≤ maxDurableArtifacts) :
    ChannelOk env (channelJson ss) ↔ ∀ s ∈ ss, RecordOk env s.toJson := by
  rw [ChannelOk, recent_channelJson hlen, recordsOk_toJson]
  exact ⟨fun h => h.2, fun h => ⟨rfl, h⟩⟩

/-- A record of the log was acceptable before it was identified, so only its
    size matters now. -/
theorem recordOk_log_iff (hl : ChannelOk env left) (hr : ChannelOk env right)
    (hs : s ∈ channelLog env left right) :
    RecordOk env s.toJson ↔ RecordFits s := by
  rcases appendNew_mem StableEntry.id hs with hleft | hright
  · exact recordOk_iff_fits hl.2 hleft
  · exact recordOk_iff_fits hr.2 hright

theorem mergeArtifacts_ok (env : ReducerEnv) (left right : Json) (m : List StableEntry) :
    mergeArtifacts env left right = .ok m ↔
      (ChannelOk env left ∧ ChannelOk env right) ∧
        windowAppend StableEntry.id maxDurableArtifacts (channelRecords env left)
          (channelRecords env right) = m := by
  rw [mergeArtifacts]
  simp only [bind_ok, appendUniqueById_ok, pure_ok]
  constructor
  · rintro ⟨_, ⟨hok, rfl⟩, rfl⟩
    exact ⟨hok, rfl⟩
  · rintro ⟨hok, rfl⟩
    exact ⟨_, ⟨hok, rfl⟩, rfl⟩

/-- The inherited records of a channel that an update leaves in place. -/
def heldChannel (env : ReducerEnv) (left right : Json) : List StableEntry :=
  held StableEntry.id maxDurableArtifacts (channelRecords env left) (channelRecords env right)

structure ArtifactsReplaySafe (env : ReducerEnv) (left right : Json) : Prop where
  inherited : ∀ s ∈ heldChannel env left right, RecordFits s
  presented : ∀ s ∈ channelRecords env right,
    s.id ∉ (channelRecords env left).map StableEntry.id → RecordFits s
  kept : ∀ s ∈ channelRecords env right,
    s.id ∈ (channelRecords env left).map StableEntry.id →
      s.id ∈ (heldChannel env left right).map StableEntry.id

theorem artifacts_replay_iff {m : List StableEntry} (h : mergeArtifacts env left right = .ok m) :
    mergeArtifacts env (channelJson m) right = .ok m ↔ ArtifactsReplaySafe env left right := by
  rcases (mergeArtifacts_ok env left right m).mp h with ⟨⟨hl, hr⟩, rfl⟩
  have hlen := length_windowAppend_le StableEntry.id maxDurableArtifacts (channelRecords env left)
    (channelRecords env right)
  have hnd := windowAppend_nodup StableEntry.id maxDurableArtifacts (channelRecords env left)
    (channelRecords env right) (nodup_channelRecords env left)
  rw [mergeArtifacts_ok, channelOk_channelJson hlen, channelRecords_channelJson hlen hnd,
    windowAppend_replay_iff_held StableEntry.id _ (by decide) _ _
      (length_channelRecords_le env right)]
  rcases windowAppend_eq_held StableEntry.id maxDurableArtifacts (channelRecords env left)
    (channelRecords env right) (length_channelRecords_le env right) with
    ⟨new, heq, hsub, hnew, hall⟩
  have hfits : ∀ s ∈ windowAppend StableEntry.id maxDurableArtifacts (channelRecords env left)
      (channelRecords env right), (RecordOk env s.toJson ↔ RecordFits s) := by
    intro s hs
    refine recordOk_log_iff hl hr ?_
    exact mem_of_mem_drop hs
  -- What is new is what the update presents under an identifier not there before.
  have hpresented : (∀ s ∈ new, RecordFits s) ↔ ∀ s ∈ channelRecords env right,
      s.id ∉ (channelRecords env left).map StableEntry.id → RecordFits s := by
    constructor
    · intro hn s hs hfresh
      rcases List.mem_map.mp ((hall s hs).resolve_left hfresh) with ⟨z, hz, hid⟩
      have hzs : z = s := inj_on_of_nodup_map (nodup_channelRecords env right)
        (hsub.subset hz) hs hid
      exact hzs ▸ hn z hz
    · exact fun hn s hs => hn s (hsub.subset hs) (hnew s hs)
  constructor
  · rintro ⟨⟨hok, _⟩, hkept⟩
    have hin := fun s hs => (hfits s hs).mp (hok s hs)
    rw [heq, forall_mem_append] at hin
    exact ⟨hin.1, hpresented.mp hin.2, hkept⟩
  · intro hsafe
    refine ⟨⟨fun s hs => (hfits s hs).mpr ?_, hr⟩, hsafe.kept⟩
    rw [heq, mem_append] at hs
    exact hs.elim (hsafe.inherited s) (hpresented.mpr hsafe.presented s)

/-- The phase a record of the dialogue belongs to. -/
def phaseOf (s : StableEntry) : String :=
  match s.entry.value "phase" with
  | .str phase => phase
  | _ => ""

/-- The attempt a record of the dialogue belongs to. -/
def attemptOf (s : StableEntry) : Int :=
  match (s.entry.get? "attempt").getD (.int 1) with
  | .int n => n
  | _ => 1

/-- What makes a record acceptable in the dialogue. -/
def DialogueOk (s : StableEntry) : Prop := dialogueKey s = .ok (phaseOf s, attemptOf s, s)

theorem dialogueKey_ok {e : String × Int × StableEntry} :
    dialogueKey s = .ok e ↔ DialogueOk s ∧ (phaseOf s, attemptOf s, s) = e := by
  have hphase : ∀ p, dialoguePhase s = .ok p → phaseOf s = p := by
    intro p hp
    unfold dialoguePhase at hp
    unfold phaseOf
    generalize s.entry.value "phase" = v at hp ⊢
    cases v with
    | str q => exact Except.ok.inj hp
    | _ => simp only [reduceCtorEq] at hp
  have hattempt : ∀ n, dialogueAttempt s = .ok n → attemptOf s = n := by
    intro n hn
    unfold dialogueAttempt at hn
    unfold attemptOf
    generalize (s.entry.get? "attempt").getD (.int 1) = v at hn ⊢
    cases v with
    | int k =>
      by_cases hk : 1 ≤ k ∧ k ≤ 1000000
      · simp only [if_pos hk, Except.ok.injEq] at hn
        exact hn
      · simp only [if_neg hk, reduceCtorEq] at hn
    | _ => simp only [reduceCtorEq] at hn
  have hvalue : ∀ {e}, dialogueKey s = .ok e → (phaseOf s, attemptOf s, s) = e := by
    intro e he
    simp only [dialogueKey, bind_ok, pure_ok] at he
    rcases he with ⟨p, hp, n, hn, rfl⟩
    rw [hphase p hp, hattempt n hn]
  constructor
  · intro he
    refine ⟨?_, hvalue he⟩
    rw [DialogueOk, he, hvalue he]
  · rintro ⟨hok, rfl⟩
    exact hok

theorem attemptOf_pos (h : DialogueOk s) : 1 ≤ attemptOf s := by
  simp only [DialogueOk, dialogueKey, bind_ok, pure_ok] at h
  rcases h with ⟨p, _, n, hn, heq⟩
  simp only [Prod.mk.injEq, and_true] at heq
  rw [← heq.2]
  unfold dialogueAttempt at hn
  split at hn
  · split at hn
    · rename_i hbounds
      exact Except.ok.inj hn ▸ hbounds.1
    · simp only [reduceCtorEq] at hn
  · simp only [reduceCtorEq] at hn

theorem mapM_dialogueKey_ok {keyed : List (String × Int × StableEntry)} :
    ss.mapM dialogueKey = .ok keyed ↔
      (∀ s ∈ ss, DialogueOk s) ∧ ss.map (fun s => (phaseOf s, attemptOf s, s)) = keyed := by
  rw [mapM_ok]
  induction ss generalizing keyed with
  | nil =>
    rw [forall₂_nil_left_iff]
    exact ⟨fun h => ⟨fun s hs => absurd hs not_mem_nil, h.symm⟩, fun h => h.2.symm⟩
  | cons s ss ih =>
    rw [forall₂_cons_left_iff, forall_mem_cons, map_cons]
    constructor
    · rintro ⟨e, rest, he, hrest, rfl⟩
      rcases dialogueKey_ok.mp he with ⟨hok, rfl⟩
      rcases ih.mp hrest with ⟨hoks, rfl⟩
      exact ⟨⟨hok, hoks⟩, rfl⟩
    · rintro ⟨⟨hok, hoks⟩, rfl⟩
      exact ⟨_, _, hok, ih.mpr ⟨hoks, rfl⟩, rfl⟩

theorem latestByPhase_le_iff (keyed : List (String × Int × StableEntry)) (phase : String)
    (n : Int) :
    ((latestByPhase keyed).get? phase).getD 1 ≤ n ↔
      1 ≤ n ∧ ∀ e ∈ keyed, e.1 = phase → e.2.1 ≤ n := by
  have hfold : ∀ (es : List (String × Int × StableEntry)) (d : Dict Int),
      ((es.foldl (fun latest e => latest.set e.1 (max ((latest.get? e.1).getD 1) e.2.1)) d).get?
        phase).getD 1 ≤ n ↔ (d.get? phase).getD 1 ≤ n ∧ ∀ e ∈ es, e.1 = phase → e.2.1 ≤ n := by
    intro es
    induction es with
    | nil => simp only [foldl_nil, not_mem_nil, false_implies, implies_true, and_true]
    | cons e es ih =>
      intro d
      rw [foldl_cons, ih, forall_mem_cons, Dict.get?_set]
      by_cases hphase : phase = e.1
      · rw [if_pos hphase, getD_some, max_le_iff, hphase]
        simp only [true_implies, and_assoc]
      · rw [if_neg hphase]
        simp only [Ne.symm hphase, false_implies, true_and]
  rw [latestByPhase, hfold]
  rfl

def isCurrent (log : List StableEntry) (s : StableEntry) : Bool :=
  log.all (fun t => phaseOf t != phaseOf s || attemptOf t ≤ attemptOf s)

theorem isCurrent_iff :
    isCurrent log s = true ↔ ∀ t ∈ log, phaseOf t = phaseOf s → attemptOf t ≤ attemptOf s := by
  simp only [isCurrent, List.all_eq_true, Bool.or_eq_true, bne_iff_ne, decide_eq_true_eq, ne_eq,
    ← imp_iff_not_or]

/-- The records of a log that the dialogue shows: the current ones, of which the
    last 256. -/
def shown (log : List StableEntry) : List StableEntry :=
  (log.filter (isCurrent log)).rtake maxDurableDialogueEntries

theorem mergeDialogue_ok (env : ReducerEnv) (left right : Json) (m : List StableEntry) :
    mergeDialogue env left right = .ok m ↔
      ((ChannelOk env left ∧ ChannelOk env right) ∧ ∀ s ∈ channelLog env left right, DialogueOk s) ∧
        shown (channelLog env left right) = m := by
  have hshown : ∀ log : List StableEntry, (∀ s ∈ log, DialogueOk s) →
      (((log.map (fun s => (phaseOf s, attemptOf s, s))).filter (fun e =>
          e.2.1 == ((latestByPhase (log.map (fun s => (phaseOf s, attemptOf s, s)))).get? e.1).getD
            1)).map (fun e => e.2.2)).rtake maxDurableDialogueEntries = shown log := by
    intro log hok
    rw [shown, List.filter_map, List.map_map]
    congr 1
    have hid : ((fun e : String × Int × StableEntry => e.2.2) ∘
        fun s => (phaseOf s, attemptOf s, s)) = id := rfl
    rw [hid, List.map_id]
    refine filter_congr (fun s hs => ?_)
    have hle := latestByPhase_le_iff (log.map (fun s => (phaseOf s, attemptOf s, s))) (phaseOf s)
    simp only [List.forall_mem_map] at hle
    have hself := ((hle _).mp (Int.le_refl _)).2 s hs rfl
    rw [Bool.eq_iff_iff, isCurrent_iff, Function.comp, beq_iff_eq]
    constructor
    · intro heq
      simp only at heq
      exact ((hle (attemptOf s)).mp (heq ▸ Int.le_refl _)).2
    · intro hcur
      exact Int.le_antisymm hself ((hle (attemptOf s)).mpr ⟨attemptOf_pos (hok s hs), hcur⟩)
  rw [mergeDialogue]
  simp only [bind_ok, appendUniqueById_ok, mapM_dialogueKey_ok, pure_ok]
  constructor
  · rintro ⟨_, ⟨hok, rfl⟩, _, ⟨hkeys, rfl⟩, rfl⟩
    exact ⟨⟨hok, hkeys⟩, (hshown _ hkeys).symm⟩
  · rintro ⟨⟨hok, hkeys⟩, rfl⟩
    exact ⟨_, ⟨hok, rfl⟩, _, ⟨hkeys, rfl⟩, hshown _ hkeys⟩

theorem mem_shown (h : s ∈ shown log) :
    s ∈ log ∧ isCurrent log s = true := mem_filter.mp (mem_of_mem_drop h)

/-- Presenting records to what is shown changes nothing exactly when each of them
    is shown or is outdated by one that is. -/
theorem shown_replay_iff {ys : List StableEntry} (hys : (ys.map StableEntry.id).Nodup) :
    shown (appendNew StableEntry.id (shown log) ys) = shown log ↔
      ∀ v ∈ ys, v.id ∉ (shown log).map StableEntry.id →
        ∃ e ∈ shown log, phaseOf e = phaseOf v ∧ attemptOf v < attemptOf e := by
  rcases appendNew_new_keys StableEntry.id (shown log) ys with ⟨new, heq, hsub, hnew⟩
  have hall := fun v hv => appendNew_new StableEntry.id heq v hv
  rw [heq]
  constructor
  · intro hsame v hv hfresh
    by_contra hnone
    -- Among the new records of the phase, the one with the latest attempt stays.
    have hvnew : v ∈ new := by
      rcases List.mem_map.mp ((hall v hv).resolve_left hfresh) with ⟨z, hz, hid⟩
      exact inj_on_of_nodup_map hys (hsub.subset hz) hv hid ▸ hz
    rcases Finset.exists_max_image (new.filter (fun t => phaseOf t = phaseOf v)).toFinset attemptOf
      ⟨v, List.mem_toFinset.mpr (mem_filter.mpr ⟨hvnew, decide_eq_true rfl⟩)⟩ with
      ⟨w, hw, hmax⟩
    rw [List.mem_toFinset, mem_filter, decide_eq_true_eq] at hw
    have hlatest : ∀ t ∈ new, phaseOf t = phaseOf v → attemptOf t ≤ attemptOf w := fun t ht hp =>
      hmax t (List.mem_toFinset.mpr (mem_filter.mpr ⟨ht, decide_eq_true hp⟩))
    have hwcur : isCurrent (shown log ++ new) w = true := by
      rw [isCurrent_iff]
      intro t ht hp
      rw [hw.2] at hp
      rcases mem_append.mp ht with hshown | hn
      · have hle : attemptOf t ≤ attemptOf v := by
          by_contra hlt
          exact hnone ⟨t, hshown, hp, by omega⟩
        have := hlatest v hvnew rfl
        omega
      · exact hlatest t hn hp
    have hwmem : w ∈ new.filter (isCurrent (shown log ++ new)) := mem_filter.mpr ⟨hw.1, hwcur⟩
    -- So what is shown afterwards ends in a record that was not shown before.
    rcases eq_nil_or_concat' (new.filter (isCurrent (shown log ++ new))) with hnil | ⟨init, z, hz⟩
    · rw [hnil] at hwmem
      exact absurd hwmem not_mem_nil
    · have hzmem : z ∈ shown log := by
        rw [← hsame, shown, filter_append, hz, ← append_assoc, maxDurableDialogueEntries,
          rtake_concat_succ]
        exact mem_append_right _ mem_cons_self
      have hznew : z ∈ new := (mem_filter.mp (hz ▸ mem_append_right init mem_cons_self)).1
      exact hnew z hznew (List.mem_map.mpr ⟨z, hzmem, rfl⟩)
  · intro h
    have hout : ∀ v ∈ new, ∃ e ∈ shown log, phaseOf e = phaseOf v ∧ attemptOf v < attemptOf e :=
      fun v hv => h v (hsub.subset hv) (hnew v hv)
    have hdrop : new.filter (isCurrent (shown log ++ new)) = [] := by
      rw [filter_eq_nil_iff]
      intro v hv hcur
      rcases hout v hv with ⟨e, he, hp, hlt⟩
      have := isCurrent_iff.mp hcur e (mem_append_left _ he) hp
      omega
    have hstay : (shown log).filter (isCurrent (shown log ++ new)) = shown log := by
      rw [filter_eq_self]
      intro e he
      rw [isCurrent_iff]
      intro t ht hp
      have hcur := isCurrent_iff.mp (mem_shown he).2
      rcases mem_append.mp ht with hs | hn
      · exact hcur t (mem_shown hs).1 hp
      · rcases hout t hn with ⟨e', he', hp', hlt⟩
        have := hcur e' (mem_shown he').1 (hp'.trans hp)
        omega
    rw [shown, filter_append, hdrop, hstay, append_nil]
    exact rtake_eq_self (length_rtake_le _ _)

/-- The current records of a log that are older than its last 256. -/
def crowdedOut (log : List StableEntry) : List StableEntry :=
  (log.filter (isCurrent log)).take
    ((log.filter (isCurrent log)).length - maxDurableDialogueEntries)

structure Kept (log : List StableEntry) (s : StableEntry) : Prop where
  logged : s ∈ log
  current : isCurrent log s = true
  room : s ∉ crowdedOut log

theorem mem_shown_iff (hnd : (log.map StableEntry.id).Nodup)
    (s : StableEntry) : s ∈ shown log ↔ Kept log s := by
  have hsplit : crowdedOut log ++ shown log = log.filter (isCurrent log) := take_append_drop _ _
  have hndf : (crowdedOut log ++ shown log).Nodup := by
    rw [hsplit]
    exact (Nodup.of_map _ hnd).filter _
  rw [nodup_append] at hndf
  constructor
  · intro hs
    exact ⟨(mem_shown hs).1, (mem_shown hs).2, fun hc => hndf.2.2 s hc s hs rfl⟩
  · rintro ⟨hlog, hcur, hroom⟩
    have hmem : s ∈ crowdedOut log ++ shown log := hsplit ▸ mem_filter.mpr ⟨hlog, hcur⟩
    exact (mem_append.mp hmem).resolve_left hroom

structure DialogueReplaySafe (env : ReducerEnv) (left right : Json) : Prop where
  fits : ∀ s, Kept (channelLog env left right) s → RecordFits s
  kept : ∀ v ∈ channelRecords env right,
    (∃ s, Kept (channelLog env left right) s ∧ s.id = v.id) ∨
      (DialogueOk v ∧ ∃ s, Kept (channelLog env left right) s ∧ phaseOf s = phaseOf v ∧
        attemptOf v < attemptOf s)

theorem dialogue_replay_iff {m : List StableEntry} (h : mergeDialogue env left right = .ok m) :
    mergeDialogue env (channelJson m) right = .ok m ↔ DialogueReplaySafe env left right := by
  rcases (mergeDialogue_ok env left right m).mp h with ⟨⟨⟨hl, hr⟩, hlog⟩, rfl⟩
  have hndLog := nodup_channelLog env left right
  have hlen : (shown (channelLog env left right)).length ≤ maxDurableArtifacts :=
    length_rtake_le _ _
  have hnd : ((shown (channelLog env left right)).map StableEntry.id).Nodup := by
    refine hndLog.sublist (List.Sublist.map _ ?_)
    exact (drop_sublist _ _).trans filter_sublist
  have hagain : channelLog env (channelJson (shown (channelLog env left right))) right =
      appendNew StableEntry.id (shown (channelLog env left right)) (channelRecords env right) := by
    rw [channelLog, channelRecords_channelJson hlen hnd]
  have hfits : ∀ s ∈ shown (channelLog env left right), (RecordOk env s.toJson ↔ RecordFits s) :=
    fun s hs => recordOk_log_iff hl hr (mem_shown hs).1
  rw [mergeDialogue_ok, channelOk_channelJson hlen, hagain,
    shown_replay_iff (nodup_channelRecords env right)]
  constructor
  · rintro ⟨⟨⟨hok, _⟩, hkeys⟩, hkept⟩
    refine ⟨fun s hs => ?_, fun v hv => ?_⟩
    · rw [← mem_shown_iff hndLog] at hs
      exact (hfits s hs).mp (hok s hs)
    · by_cases hid : v.id ∈ (shown (channelLog env left right)).map StableEntry.id
      · rcases List.mem_map.mp hid with ⟨s, hs, heq⟩
        exact Or.inl ⟨s, (mem_shown_iff hndLog s).mp hs, heq⟩
      · rcases hkept v hv hid with ⟨s, hs, hp, hlt⟩
        refine Or.inr ⟨hkeys v ?_, s, (mem_shown_iff hndLog s).mp hs, hp, hlt⟩
        have hkey := (appendNew_keys StableEntry.id (shown (channelLog env left right))
          (channelRecords env right) v.id).mpr (Or.inr (List.mem_map.mpr ⟨v, hv, rfl⟩))
        rcases List.mem_map.mp hkey with ⟨z, hz, hzid⟩
        rcases appendNew_mem StableEntry.id hz with hzs | hzr
        · exact absurd (List.mem_map.mpr ⟨z, hzs, hzid⟩) hid
        · rw [← inj_on_of_nodup_map (nodup_channelRecords env right) hzr hv hzid]
          exact hz
  · intro hsafe
    refine ⟨⟨⟨fun s hs => (hfits s hs).mpr (hsafe.fits s ((mem_shown_iff hndLog s).mp hs)), hr⟩,
      fun s hs => ?_⟩, fun v hv hid => ?_⟩
    · rcases appendNew_new_keys StableEntry.id (shown (channelLog env left right))
        (channelRecords env right) with ⟨new, heq, hsub, hnew⟩
      rw [heq, mem_append] at hs
      rcases hs with hs | hs
      · exact hlog s (mem_shown hs).1
      · rcases hsafe.kept s (hsub.subset hs) with ⟨t, ht, hid⟩ | ⟨hok, _⟩
        · exact absurd (List.mem_map.mpr ⟨t, (mem_shown_iff hndLog t).mpr ht, hid⟩) (hnew s hs)
        · exact hok
    · rcases hsafe.kept v hv with ⟨t, ht, heq⟩ | ⟨_, t, ht, hp, hlt⟩
      · exact absurd (List.mem_map.mpr ⟨t, (mem_shown_iff hndLog t).mpr ht, heq⟩) hid
      · exact ⟨t, (mem_shown_iff hndLog t).mpr ht, hp, hlt⟩

/-- Presenting an update a second time is accepted and changes nothing, for each
    of the three reducers, exactly when nothing it presents was pushed out and
    what was stored is still within the bounds. -/
theorem reducers_replay_iff (env : ReducerEnv) (left right : Json) :
    (∀ m, mergePhaseResults env left right = .ok m →
      ((∃ m', mergePhaseResults env m.toJson right = .ok m' ∧ SameResults m' m) ↔
        ∀ phase, ReplaySafe env (objectAt left phase) (objectAt right phase))) ∧
    (∀ m, mergeArtifacts env left right = .ok m →
      (mergeArtifacts env (channelJson m) right = .ok m ↔ ArtifactsReplaySafe env left right)) ∧
    (∀ m, mergeDialogue env left right = .ok m →
      (mergeDialogue env (channelJson m) right = .ok m ↔ DialogueReplaySafe env left right)) :=
  ⟨fun _ h => phase_results_replay_iff h, fun _ h => artifacts_replay_iff h,
    fun _ h => dialogue_replay_iff h⟩

/-- A record with nothing but a one-character identifier. -/
def tinyRecord (n : Nat) : Json := .dict [("id", .str (String.singleton (Char.ofNat n)))]

def tinyChannel : List StableEntry :=
  (mergeArtifacts sampleEnv (.list [tinyRecord 97]) (.list [tinyRecord 98])).toOption.getD []

theorem artifacts_replay_tiny :
    mergeArtifacts sampleEnv (channelJson tinyChannel) (.list [tinyRecord 98]) = .ok tinyChannel ↔
      ArtifactsReplaySafe sampleEnv (.list [tinyRecord 97]) (.list [tinyRecord 98]) :=
  (reducers_replay_iff sampleEnv (.list [tinyRecord 97]) (.list [tinyRecord 98])).2.1 tinyChannel
    (by decide +kernel)

def callsEntry (calls : List Nat) : PhaseEntry :=
  ⟨[("attempt", .int 1), ("tool_calls", .list (calls.map tinyRecord)), ("approvals", .list []),
    ("warnings", .list []), ("errors", .list []), ("artifact_ids", .list [])],
    (by decide : ["attempt", "tool_calls", "approvals", "warnings", "errors",
      "artifact_ids"].Nodup)⟩

def callsChannel (calls : List Nat) : PhaseResults := .single "execution" (callsEntry calls)

/-- An update that presents the oldest of 80 calls together with a new one. -/
def oldAndNewCall : Json :=
  .dict [("execution", .dict [("attempt", .int 1),
    ("tool_calls", .list [tinyRecord 33, tinyRecord 126])])]

/-- The 80 calls held at first, as many as are kept. -/
def callsBefore : List Nat := (List.range 80).map (· + 33)

def callsOnce : List Nat := (List.range 79).map (· + 34) ++ [126]

def callsTwice : List Nat := (List.range 78).map (· + 35) ++ [126, 33]

theorem sameResults_calls {c d : List Nat} (h : SameResults (callsChannel c) (callsChannel d)) :
    c.map tinyRecord = d.map tinyRecord := by
  have hrel := h "execution"
  rw [callsChannel, callsChannel, Dict.get?_single, Dict.get?_single, if_pos rfl, if_pos rfl] at hrel
  cases hrel with
  | some hentry => exact Json.list.inj (some.inj (hentry "tool_calls"))

/-- The new call pushes the oldest out; the replay appends that one again and
    pushes the next out. -/
theorem tool_calls_replay_evicts :
    mergePhaseResults sampleEnv (callsChannel callsBefore).toJson oldAndNewCall
        = .ok (callsChannel callsOnce) ∧
      mergePhaseResults sampleEnv (callsChannel callsOnce).toJson oldAndNewCall
        = .ok (callsChannel callsTwice) ∧
      ¬ SameResults (callsChannel callsTwice) (callsChannel callsOnce) :=
  ⟨by decide +kernel, by decide +kernel, fun h => absurd (sameResults_calls h) (by decide +kernel)⟩

end Apex.Graphs
