import Apex.Core.Talk
import Apex.Theory.Cycles.Evidence

/-!
# Frozen Evidence Is Authentic

In every state that is reached from empty tables the evidence of each version was
captured into it or is that of its predecessor, a key labels one capture of a cycle,
and a capture whose key was used returns the cycle as it is or fails. The condition is
that every edit carries numbers and truth values of the kinds it found.

Without it an edit may exchange `1` for `True` in captured evidence: the comparison of
the language does not tell them apart, and the edit is stored.

## Main definitions

* `Authentic`: What is told of every cycle.
* `ReplaysFreeze`, `ReplaysCapture`: How a capture is answered whose key was used.

## Theorems

* `frozen_evidence_authentic`: What holds in every state that is reached.
* `evidence_retyped`: Without the condition it does not hold.
-/

namespace Apex.Routers

open List Function
open Auth Domain Persistence

open Apex.Action hiding ask

variable {ι : Type} [DecidableEq ι]

def emptyDesk (ι : Type) : CycleDesk ι := ⟨⟨[], [], []⟩, fun _ => []⟩

section Runs

variable {env : CyclesEnv} {w w' : CycleDesk ι} {places : ι → CycleSeat} {i : ι}

theorem Consistent.given (h : Consistent env w places) (job : CycleJob) :
    Consistent env ⟨w.store, Function.update w.calls i (job :: w.calls i)⟩
      (Function.update places i ⟨some job, [], []⟩) := by
  have hasked : ∀ j, w.asked j →
      CycleDesk.asked ⟨w.store, Function.update w.calls i (job :: w.calls i)⟩ j := by
    rintro j ⟨k, hk⟩
    refine ⟨k, ?_⟩
    by_cases hki : k = i
    · subst hki
      change j ∈ Function.update w.calls k (job :: w.calls k) k
      rw [update_self]
      exact mem_cons_of_mem _ hk
    · change j ∈ Function.update w.calls i (job :: w.calls i) k
      rw [update_of_ne hki]
      exact hk
  refine ⟨h.cycleIds, fun c hc => ?_, h.issued, fun j => ?_, fun j row hrow => ?_, fun j x hx => ?_,
    fun j k hjk x hx hx' => ?_⟩
  · exact (h.sound c hc).evolve hasked (Later.refl _) rfl
      (forall₂_same.mpr fun v _ => SameCore.refl v)
  · by_cases hj : j = i
    · subst hj
      rw [update_self]
      change some job = (Function.update w.calls j (job :: w.calls j) j).head?
      rw [update_self]
      rfl
    · rw [update_of_ne hj, h.job j]
      change (w.calls j).head? = (Function.update w.calls i (job :: w.calls i) j).head?
      rw [update_of_ne hj]
  · by_cases hj : j = i
    · subst hj
      rw [update_self] at hrow
      exact absurd hrow not_mem_nil
    · rw [update_of_ne hj] at hrow
      exact h.rows j row hrow
  · by_cases hj : j = i
    · subst hj
      rw [update_self] at hx
      exact absurd hx not_mem_nil
    · rw [update_of_ne hj] at hx
      exact h.fresh j x hx
  · by_cases hj : j = i
    · subst hj
      rw [update_self] at hx
      exact absurd hx not_mem_nil
    · rw [update_of_ne hj] at hx
      by_cases hk : k = i
      · subst hk
        rw [update_self] at hx'
        exact absurd hx' not_mem_nil
      · rw [update_of_ne hk] at hx'
        exact h.apart j k hjk x hx hx'

theorem Consistent.raised (h : Consistent env w places) {row : TestCycle}
    (hrow : row ∈ w.store.cycles) :
    Consistent env ⟨w.store.put { row with revision := row.revision + 1 }, w.calls⟩
      (Function.update places i ⟨(places i).job, [], []⟩) := by
  have hwritten : Written env w.asked [] w.store
      (w.store.put { row with revision := row.revision + 1 }) := by
    refine written_put { row with revision := row.revision + 1 } h.cycleIds h.sound hrow rfl
      (Nat.lt_succ_self _) (Kept.refl _) ?_ (fun x hx _ => (hx row hrow).2) rfl rfl
    exact (h.sound row hrow).evolve (fun _ hj => hj) (Later.refl _) rfl
      (forall₂_same.mpr fun v _ => SameCore.refl v)
  exact h.moved hwritten rfl (fun x hx => absurd hx not_mem_nil) rfl
    (fun r hr => absurd hr not_mem_nil) fun x hx => absurd hx not_mem_nil

omit [DecidableEq ι] in
theorem consistent_empty : Consistent env (emptyDesk ι) fun _ => ⟨none, [], []⟩ :=
  ⟨nodup_nil, fun _ hc => absurd hc not_mem_nil,
    fun _ _ _ hc => absurd hc not_mem_nil, fun _ => rfl,
    fun _ _ hrow => absurd hrow not_mem_nil, fun _ _ hx => absurd hx not_mem_nil,
    fun _ _ _ _ hx => absurd hx not_mem_nil⟩

/-- What holds of the tables holds in every state that is reached by edits that carry
    the evidence along. -/
theorem consistent_run {events : List (System.Event (CycleDesk ι) ι CycleRequest CycleRequest.Answer)}
    {team : Team (CycleDesk ι) ι CycleRequest CycleRequest.Answer (Except CycleError CycleReply)}
    (hrun : ((cycleSystem env ι).restrict CarriesAlong).Run (emptyDesk ι) events team) :
    ∃ places, Consistent env team.state places := by
  have hinv := @System.Run.invariant _ _ _ _ _ _ _ _ (cycleDiscipline env) Returning
    (fun _ w places => Consistent env w places) _ _ consistent_empty ?_ ?_ _ _ hrun
  · rcases hinv with ⟨places, hconsistent, _⟩
    exact ⟨places, hconsistent⟩
  · intro events w places i p w' h hstart
    rcases hstart with ⟨identity, job, rfl, rfl⟩ | ⟨row, hrow, rfl, rfl⟩
    · exact ⟨⟨some job, [], []⟩, handleCycles_follows rfl, h.given job⟩
    · exact ⟨⟨(places i).job, [], []⟩, fun _ hok => (nomatch hok), h.raised hrow⟩
  · intro events w places i r a w' h hallowed hresp
    exact h.answered hallowed hresp.1.1 hresp.1.2 hresp.2

end Runs

/-- A handler asks for a cycle and, told of it as it is, is done. -/
def AnswersWith (handler : CycleHandler TestCycle) (identity : ConsumerIdentity) (c : TestCycle)
    (result : Except CycleError TestCycle) : Prop :=
  handler.run.converses [⟨.find identity c.id, some c⟩] (.done result)

/-- A capture of executions under a key that was used: the same request returns the cycle
    as it is, and one with another digest fails. -/
def ReplaysFreeze (env : CyclesEnv) (asked : CycleJob → Prop) (c : TestCycle) : Prop :=
  ∀ v ∈ c.versions, ∀ key, capturedUnder v.id key v.snapshot = true →
    ∃ versionId₀ body₀, asked (.freezeEvidence c.id versionId₀ body₀) ∧ body₀.idempotencyKey = key ∧
      ∀ identity versionId body, identity.role.atLeast .operator = true → body.accepted = true →
        body.idempotencyKey = key →
        AnswersWith (freezeEvidence env identity c.id versionId body) identity c
          (if versionDigest env (freezeContent versionId body) =
              versionDigest env (freezeContent versionId₀ body₀) then .ok c
            else .error (.http 409 "Operation key already used for different report evidence"))

def ReplaysCapture (env : CyclesEnv) (asked : CycleJob → Prop) (c : TestCycle) : Prop :=
  ∀ v ∈ c.versions, ∀ r ∈ sourceRecords v.content, ∀ key, capturedUnder v.id key r = true →
    ∃ versionId₀ body₀, asked (.captureSource c.id versionId₀ body₀) ∧ body₀.idempotencyKey = key ∧
      ∀ identity versionId body, identity.role.atLeast .operator = true → body.accepted = true →
        body.idempotencyKey = key →
        AnswersWith (captureSource env identity c.id versionId body) identity c
          (if versionDigest env (captureContent versionId body) =
              versionDigest env (captureContent versionId₀ body₀) then .ok c
            else .error (.http 409 "Operation key already used for another source capture"))

/-- What is told of every cycle: where its evidence comes from, what its keys label, and how
    captures are answered whose key was used. -/
structure Authentic (env : CyclesEnv) (w : CycleDesk ι) : Prop where
  sound : ∀ c ∈ w.store.cycles, SoundCycle env w.asked w.store c
  records : ∀ c ∈ w.store.cycles, ∀ v ∈ c.versions, ∀ v' ∈ c.versions,
    ∀ r ∈ sourceRecords v.content, ∀ r' ∈ sourceRecords v'.content, ∀ key,
      capturedUnder v.id key r = true → capturedUnder v'.id key r' = true → v = v' ∧ r = r'
  freezes : ∀ c ∈ w.store.cycles, ReplaysFreeze env w.asked c
  captures : ∀ c ∈ w.store.cycles, ReplaysCapture env w.asked c

section Told

variable {env : CyclesEnv} {asked : CycleJob → Prop} {s : CycleStore} {c : TestCycle}
  {identity : ConsumerIdentity}

variable {r : Json} {v : Version} {talk : List ((r : CycleRequest) × r.Answer)}

theorem SoundCycle.captured_record (h : SoundCycle env asked s c) (hv : v ∈ c.versions)
    (hr : r ∈ sourceRecords v.content) (hcapture : captureOf r = .str v.id) :
    ∃ versionId body capturedAt actor connection document,
      asked (.captureSource c.id versionId body) ∧
        v.sources = .list (((sourceRecords v.content).dropLast) ++ [r]) ∧
        r = .ofDict (recordOf v.id (versionDigest env (captureContent versionId body)) capturedAt
          actor body connection document) := by
  rcases h.sources_captured hv hr hcapture with
    ⟨p, body, capturedAt, actor, connection, document, hjob, _, _, hold, hsources⟩
  have hrecords := sourceRecords_eq hsources
  have hlast : r = .ofDict (recordOf v.id (versionDigest env (captureContent p.id body)) capturedAt
      actor body connection document) := by
    rw [hrecords] at hr
    rcases mem_append.mp hr with hkept | hnew
    · exact absurd hcapture (hold r (mem_of_mem_filter hkept))
    · exact mem_singleton.mp hnew
  refine ⟨p.id, body, capturedAt, actor, connection, document, hjob, ?_, hlast⟩
  rw [hrecords, dropLast_concat, hlast]
  exact hsources

theorem SoundCycle.records_unique (h : SoundCycle env asked s c) {v' : Version}
    (hv : v ∈ c.versions) (hv' : v' ∈ c.versions) {r' : Json} (hr : r ∈ sourceRecords v.content)
    (hr' : r' ∈ sourceRecords v'.content) {key : String} (hkey : capturedUnder v.id key r = true)
    (hkey' : capturedUnder v'.id key r' = true) : v = v' ∧ r = r' := by
  have heq := h.sourceKeys v hv v' hv' r hr r' hr' key hkey hkey'
  subst heq
  refine ⟨rfl, ?_⟩
  rcases h.captured_record hv hr (capturedUnder_iff.mp hkey).2.1 with ⟨_, _, _, _, _, _, _, hs, _⟩
  rcases h.captured_record hv hr' (capturedUnder_iff.mp hkey').2.1 with ⟨_, _, _, _, _, _, _, hs', _⟩
  rw [hs, Json.list.injEq] at hs'
  have hlast := append_cancel_left hs'
  exact (cons.inj hlast).1

section

variable {α : Type} {q : Program CycleRequest CycleRequest.Answer (Except CycleError α)}

theorem findCycle_converses {f : TestCycle → CycleHandler α} {row : TestCycle}
    {id : String}
    (h : (f row).run.converses talk q) :
    (findCycle identity id >>= f).run.converses (⟨.find identity id, some row⟩ :: talk) q :=
  ⟨_, rfl, h⟩

theorem requireOperator_converses {f : Unit → CycleHandler α}
    (hrole : identity.role.atLeast .operator = true) (h : (f ()).run.converses talk q) :
    (requireOperator identity >>= f).run.converses talk q :=
  raiseWhen_converses (by rw [hrole]; rfl) h

end

theorem replayed_eq {fingerprint fingerprint₀ detail : String} {evidence : Json}
    (h : evidence.field "request_fingerprint" = .str fingerprint₀) :
    replayed c fingerprint detail evidence =
      if fingerprint = fingerprint₀ then .ok c else .error (.http 409 detail) := by
  unfold replayed
  by_cases heq : fingerprint = fingerprint₀
  · rw [if_pos heq, if_pos (h.trans (congrArg Json.str heq.symm))]
  · rw [if_neg heq, if_neg fun hfield => heq (Json.str.inj (hfield.symm.trans h))]

theorem SoundCycle.replays_freeze (h : SoundCycle env asked s c) : ReplaysFreeze env asked c := by
  intro v hv key hkey
  rcases h.snapshot_frozen hv (capturedUnder_iff.mp hkey).2.1 with
    ⟨versionId₀, body₀, capturedAt, actor, results, hjob, _, hsnapshot⟩
  have hkey₀ : body₀.idempotencyKey = key := by
    have hfield := (capturedUnder_iff.mp hkey).2.2
    rw [hsnapshot, snapshotOf_key] at hfield
    exact Json.str.inj hfield
  refine ⟨versionId₀, body₀, hjob, hkey₀, fun identity versionId body hrole haccepted hbody => ?_⟩
  -- The search finds the evidence of this version, since no other has the key.
  have hfind : findSnapshot key c.versions = some v.snapshot := by
    cases hsearch : findSnapshot key c.versions with
    | none =>
      have hfalse := findSnapshot_none.mp hsearch v hv
      exact absurd (hfalse ▸ hkey) Bool.false_ne_true
    | some evidence =>
      rcases findSnapshot_some hsearch with ⟨u, hu, heq, hcaptured⟩
      rw [← heq] at hcaptured
      rw [← heq, h.snapshotKeys u hu v hv key hcaptured hkey]
  refine requireOperator_converses hrole (raiseWhen_converses (by rw [haccepted]; rfl) ?_)
  refine findCycle_converses ?_
  rw [hbody, hfind]
  refine (?_ : (settle (replayed c _ _ v.snapshot) : CycleHandler TestCycle).run.converses [] _)
  rw [replayed_eq (by rw [hsnapshot, snapshotOf_fingerprint])]
  exact settle_done

theorem SoundCycle.replays_capture (h : SoundCycle env asked s c) : ReplaysCapture env asked c := by
  intro v hv r hr key hkey
  rcases h.captured_record hv hr (capturedUnder_iff.mp hkey).2.1 with
    ⟨versionId₀, body₀, capturedAt, actor, connection, document, hjob, _, hrecord⟩
  have hkey₀ : body₀.idempotencyKey = key := by
    have hfield := (capturedUnder_iff.mp hkey).2.2
    rw [hrecord, recordOf_key] at hfield
    exact Json.str.inj hfield
  refine ⟨versionId₀, body₀, hjob, hkey₀, fun identity versionId body hrole haccepted hbody => ?_⟩
  have hfind : findRecord key c.versions = some r := by
    cases hsearch : findRecord key c.versions with
    | none =>
      have hfalse := findRecord_none.mp hsearch v hv r hr
      exact absurd (hfalse ▸ hkey) Bool.false_ne_true
    | some record =>
      rcases findRecord_some hsearch with ⟨u, hu, hmem, hcaptured⟩
      rw [(h.records_unique hu hv hmem hr hcaptured hkey).2]
  refine requireOperator_converses hrole (raiseWhen_converses (by rw [haccepted]; rfl) ?_)
  refine findCycle_converses ?_
  rw [hbody, hfind]
  refine (?_ : (settle (replayed c _ _ r) : CycleHandler TestCycle).run.converses [] _)
  rw [replayed_eq (by rw [hrecord, recordOf_fingerprint])]
  exact settle_done

end Told

section Talks

variable {env : CyclesEnv} {identity : ConsumerIdentity} {row saved : TestCycle}

variable {cycleId id : String} {createdAt : Timestamp} {v : Version}

theorem saveVersions_converses {revision : Nat} {versions : List Version}
    (hsize : versionsBytes env versions ≤ 2000000) :
    (saveVersions env cycleId revision versions).run.converses
      [⟨.saveVersions cycleId revision versions, .saved saved⟩] (.done (.ok saved)) :=
  raiseWhen_converses (decide_eq_false (Nat.not_lt.mpr hsize)) (ask_converses settle_done)

theorem createCycle_converses {body : CycleCreate} (hrole : identity.role.atLeast .operator = true)
    (haccepted : body.accepted env = true)
    (hscope : identity.allowsApp body.projectId.value (some body.appId.value) = true) :
    (createCycle env identity body).run.converses
      [⟨.targetActive body.projectId.value body.appId.value body.environmentId.value, true⟩,
        ⟨.uuid4, id⟩, ⟨.insert (newCycle env identity body id), .saved saved⟩]
      (.done (.ok saved)) := by
  refine requireOperator_converses hrole (raiseWhen_converses (by rw [haccepted]; rfl) ?_)
  refine raiseWhen_converses (by rw [hscope]; rfl) ?_
  exact ask_converses (raiseWhen_converses rfl (ask_converses (ask_converses settle_done)))

theorem createVersion_converses {body : VersionCreate}
    (hrole : identity.role.atLeast .operator = true) (haccepted : body.accepted env = true)
    (hrevision : row.revision = body.expectedRevision) (hroom : row.versions.length < 200)
    (hadd : addVersion env row.versions body identity.consumerId false id createdAt.text = .ok v)
    (hsize : versionsBytes env (row.versions ++ [v]) ≤ 2000000) :
    (createVersion env identity cycleId body).run.converses
      [⟨.find identity cycleId, some row⟩, ⟨.uuid4, id⟩, ⟨.now, createdAt⟩,
        ⟨.saveVersions row.id body.expectedRevision (row.versions ++ [v]), .saved saved⟩]
      (.done (.ok saved)) := by
  refine requireOperator_converses hrole (raiseWhen_converses (by rw [haccepted]; rfl) ?_)
  refine findCycle_converses (raiseWhen_converses (bne_eq_false_iff_eq.mpr hrevision) ?_)
  refine raiseWhen_converses (decide_eq_false (Nat.not_le.mpr hroom)) ?_
  refine ask_converses (ask_converses (settle_converses ?_ (saveVersions_converses hsize)))
  rw [hadd]
  rfl

theorem freezeEvidence_converses {body : FreezeReportEvidence} {captureId : String}
    {capturedAt : Timestamp} {source : Version} {results : List CycleResult}
    (hrole : identity.role.atLeast .operator = true) (haccepted : body.accepted = true)
    (hunused : findSnapshot body.idempotencyKey row.versions = none)
    (hrevision : row.revision = body.expectedRevision) (hroom : row.versions.length < 200)
    (hsource : reportSource env row.versions source.id = .ok source)
    (hresults : sameResults results body.expectedResults = true)
    (hversion : capturedVersion env row.versions (freezeRequest env source source.id body
      capturedAt.text (snapshotOf captureId body.idempotencyKey
        (versionDigest env (freezeContent source.id body)) capturedAt.text identity.consumerId
        results)) identity.consumerId id createdAt.text captureId reportRefused = .ok v)
    (hsize : versionsBytes env (row.versions ++ [v]) ≤ 2000000) :
    (freezeEvidence env identity cycleId source.id body).run.converses
      [⟨.find identity cycleId, some row⟩, ⟨.results row body.expectedResults.keys, results⟩,
        ⟨.uuid4, captureId⟩, ⟨.now, capturedAt⟩, ⟨.uuid4, id⟩, ⟨.now, createdAt⟩,
        ⟨.saveVersions row.id body.expectedRevision (row.versions ++ [v]), .saved saved⟩]
      (.done (.ok saved)) := by
  refine requireOperator_converses hrole (raiseWhen_converses (by rw [haccepted]; rfl) ?_)
  refine findCycle_converses ?_
  rw [hunused]
  refine raiseWhen_converses ?_ (settle_converses hsource (ask_converses ?_))
  · rw [hrevision, bne_self_eq_false, Bool.false_or]
    exact decide_eq_false (Nat.not_le.mpr hroom)
  · refine raiseWhen_converses (by rw [hresults]; rfl) ?_
    refine ask_converses (ask_converses (ask_converses (ask_converses ?_)))
    exact settle_converses hversion (saveVersions_converses hsize)

end Talks

mutual

/-- The text of a value whose texts need no escapes, with its keys in order. -/
def plainText : Json → String
  | .null => "null"
  | .bool b => if b then "true" else "false"
  | .int n => toString n
  | .float x => "f" ++ toString x.bits.toNat
  | .str s => "\"" ++ s ++ "\""
  | .list xs => "[" ++ plainList xs ++ "]"
  | .dict items => "\x7b" ++ plainItems items ++ "\x7d"

def plainList : List Json → String
  | [] => ""
  | x :: xs => plainText x ++ "," ++ plainList xs

def plainItems : List (String × Json) → String
  | [] => ""
  | (k, v) :: items => "\"" ++ k ++ "\":" ++ plainText v ++ "," ++ plainItems items

end

/-- Modules whose digest of a text is the text, and whose sizes are counted in nodes. -/
def plainEnv : CyclesEnv where
  sha256 text := text
  canonicalJson d := plainText (.ofDict d)
  loads _ := none
  jsonBytes v := v.nodes
  jsonObjectOk _ _ _ := true
  credentials _ := false
  decimalDigit c := c.isDigit
  utcLabel _ := "2026-01-01 00:00:00 UTC"
  independentReview := false

def chief : ConsumerIdentity := ⟨"chief", "Chief", .dashboard, .admin, []⟩

def firstBody : CycleCreate where
  name := "Spring"
  projectId := ⟨"shop", by decide +kernel, by decide +kernel, by decide +kernel, by decide +kernel⟩
  appId := ⟨"web", by decide +kernel, by decide +kernel, by decide +kernel, by decide +kernel⟩
  environmentId := ⟨"test", by decide +kernel, by decide +kernel, by decide +kernel,
    by decide +kernel⟩
  mode := .live

def noon : Timestamp := ⟨0, "2026-01-01T12:00:00+00:00"⟩

def firstReport : VersionCreate where
  expectedRevision := 1
  kind := .report
  title := "Report"
  content := Dict.single "findings" (.str "None")
  changeSummary := "First draft"

def someDigest : String := "0123456789abcdef0123456789abcdef0123456789abcdef0123456789abcdef"

/-- A metric of a result that is not available. -/
def metricJson (key label unit preference : String) : Json :=
  .ofDict ((((((((Dict.single "key" (Json.str key)).set "label" (.str label)).set
    "unit" (.str unit)).set "value" .null).set "preference" (.str preference)).set
    "baseline_value" .null).set "difference" .null).set "percent_difference" .null)

/-- The result of an execution, with what it says of its attempt. -/
def resultOf (attempt : Json) : CycleResult where
  id := "run"
  evidenceChecksum := someDigest
  dump := (((((((((((((((Dict.single "id" (Json.str "run")).set "thread_id" (.str "thread")).set
    "engine" (.str "apex_load")).set "attempt" attempt).set
    "execution_status" (.str "running")).set
    "started_at" (.str "2026-01-01T11:00:00Z")).set "ended_at" .null).set
    "test_outcome" .null).set "evidence_status" (.str "unavailable")).set
    "metrics" (.list [ metricJson "tps_avg" "Average throughput" "transactions/s" "higher",
      metricJson "p95_ms" "95th percentile response time" "ms" "lower",
      metricJson "error_rate" "Error rate" "ratio" "lower",
      metricJson "vusers_peak" "Peak virtual users" "users" "context"])).set
    "sla_breaches" (.list [])).set
    "warnings" (.list [.str "Test outcome is unavailable until execution completes"])).set
    "bindings_verified" (.bool true)).set "comparison_available" (.bool false)).set
    "evidence_checksum" (.str someDigest))

/-- The capture of that result into the report. -/
def firstFreeze : FreezeReportEvidence where
  expectedRevision := 2
  idempotencyKey := "capture"
  expectedResults := Dict.single "run" someDigest

/-- The evidence that is captured, with what it says of the attempt. -/
def evidenceOf (attempt : Json) : Json :=
  .ofDict (snapshotOf "v2" "capture" (versionDigest plainEnv (freezeContent "v1" firstFreeze))
    noon.text "chief" [resultOf attempt])

def version1 : Version := draftVersion plainEnv firstReport "chief" "v1" noon.text

def version2 : Version :=
  { draftVersion plainEnv (freezeRequest plainEnv version1 "v1" firstFreeze noon.text
      (snapshotOf "v2" "capture" (versionDigest plainEnv (freezeContent "v1" firstFreeze))
        noon.text "chief" [resultOf (.int 1)])) "chief" "x" noon.text with id := "v2" }

/-- An edit of it that says `True` where the evidence says `1`. -/
def retyping : VersionCreate where
  expectedRevision := 3
  kind := .report
  title := "Report"
  content := (Dict.single "findings" (.str "Reviewed")).set executionEvidenceKey
    (evidenceOf (.bool true))
  replaces := some "v2"
  changeSummary := "Reviewed"

def version3 : Version := draftVersion plainEnv retyping "chief" "v3" noon.text

/-- The cycle with some versions at a revision. -/
def cycleWith (revision : Nat) (versions : List Version) : TestCycle :=
  { newCycle plainEnv chief firstBody "c1" with revision := revision, versions := versions }

def storeWith (revision : Nat) (versions : List Version) (issued : List String) : CycleStore :=
  ⟨[cycleWith revision versions], [], issued⟩

def idleWorker : Unit →
    Option (Program CycleRequest CycleRequest.Answer (Except CycleError CycleReply)) := fun _ => none

/-- A state after the first calls that were made. -/
def sampleDesk (s : CycleStore) (calls : List CycleJob) : CycleDesk Unit := ⟨s, fun _ => calls⟩

theorem sampleDesk_given (s : CycleStore) (calls : List CycleJob) (job : CycleJob) :
    (⟨s, Function.update (sampleDesk s calls).calls () (job :: (sampleDesk s calls).calls ())⟩ :
      CycleDesk Unit) = sampleDesk s (job :: calls) := by
  refine congrArg (CycleDesk.mk s) (funext fun i => ?_)
  exact update_self () (job :: calls) (fun _ => calls)

theorem sampleRun_called {passes : System.Event (CycleDesk Unit) Unit CycleRequest
      CycleRequest.Answer → Prop}
    {events : List (System.Event (CycleDesk Unit) Unit CycleRequest CycleRequest.Answer)}
    {s : CycleStore} (s' : CycleStore) {calls : List CycleJob} (job : CycleJob)
    {last : Option (Program CycleRequest CycleRequest.Answer (Except CycleError CycleReply))}
    {result : Except CycleError CycleReply} {talk : List ((r : CycleRequest) × r.Answer)}
    (hrun : ((cycleSystem plainEnv Unit).restrict passes).Run (emptyDesk Unit) events
      ⟨sampleDesk s calls, Function.update idleWorker () last⟩)
    (hconverses : (handleCycles plainEnv chief job).run.converses talk (.done result))
    (hhears : ((cycleSystem plainEnv Unit).restrict passes).Hears () (sampleDesk s (job :: calls))
      talk (sampleDesk s' (job :: calls))) :
    ∃ later, ((cycleSystem plainEnv Unit).restrict passes).Run (emptyDesk Unit) (events ++ later)
      ⟨sampleDesk s' (job :: calls), Function.update idleWorker () (some (.done result))⟩ ∧
      later.map System.Event.exchange = talk :=
  hrun.call (Or.inl ⟨chief, job, rfl, (sampleDesk_given s calls job).symm⟩) hconverses hhears

def creating : List CycleJob := [.createCycle firstBody]

def editing : List CycleJob := .createVersion "c1" firstReport :: creating

def freezing : List CycleJob := .freezeEvidence "c1" "v1" firstFreeze :: editing

def created : CycleStore := storeWith 1 [] ["c1"]

def edited : CycleStore := storeWith 2 [version1] ["v1", "c1"]

def frozen : CycleStore := storeWith 3 [version1, version2] ["x", "v2", "v1", "c1"]

def retyped : CycleStore :=
  storeWith 4 [version1, version2, version3] ["v3", "x", "v2", "v1", "c1"]

structure SampleFacts : Prop where
  created : firstBody.accepted plainEnv = true ∧
    CycleStore.withCycle ⟨[], [], ["c1"]⟩ (cycleWith 1 []) = some (created, cycleWith 1 [])
  edit : firstReport.accepted plainEnv = true ∧
    addVersion plainEnv [] firstReport "chief" false "v1" noon.text = .ok version1 ∧
    versionsBytes plainEnv [version1] ≤ 2000000 ∧
    some (cycleWith 1 []) = (Routers.created.get? "c1").filter (visible chief)
  kinds : ∀ key ∈ [executionEvidenceKey, sourceEvidenceKey],
    Json.sameKinds (firstReport.content.value key) (frozenEvidence [] firstReport key) = true
  edited : "v1" ∉ ["c1"] ∧ (storeWith 1 [] ["v1", "c1"]).withVersions "c1" 1 [version1] =
    some (edited, cycleWith 2 [version1])
  freeze : firstFreeze.accepted = true ∧
    findSnapshot firstFreeze.idempotencyKey [version1] = none ∧
    reportSource plainEnv [version1] version1.id = .ok version1 ∧
    sameResults [resultOf (.int 1)] firstFreeze.expectedResults = true ∧
    versionsBytes plainEnv [version1, version2] ≤ 2000000 ∧
    some (cycleWith 2 [version1]) = (Routers.edited.get? "c1").filter (visible chief)
  frozen : capturedVersion plainEnv [version1] (freezeRequest plainEnv version1
    version1.id firstFreeze noon.text (snapshotOf "v2" firstFreeze.idempotencyKey
      (versionDigest plainEnv (freezeContent version1.id firstFreeze)) noon.text chief.consumerId
      [resultOf (.int 1)])) chief.consumerId "x" noon.text "v2" reportRefused = .ok version2
  captured : "v2" ∉ ["v1", "c1"] ∧ "x" ∉ ["v2", "v1", "c1"] ∧
    (storeWith 2 [version1] ["x", "v2", "v1", "c1"]).withVersions "c1" 2 [version1, version2] =
      some (Routers.frozen, cycleWith 3 [version1, version2]) ∧
    capturedUnder version2.id "capture" version2.snapshot = true
  retype : retyping.accepted plainEnv = true ∧
    addVersion plainEnv [version1, version2] retyping "chief" false "v3" noon.text = .ok version3 ∧
    versionsBytes plainEnv [version1, version2, version3] ≤ 2000000 ∧
    some (cycleWith 3 [version1, version2]) = (Routers.frozen.get? "c1").filter (visible chief)
  retyped : "v3" ∉ ["x", "v2", "v1", "c1"] ∧
    (storeWith 3 [version1, version2] ["v3", "x", "v2", "v1", "c1"]).withVersions "c1" 3
      [version1, version2, version3] = some (retyped, cycleWith 4 [version1, version2, version3])
  ids : version1.id ≠ "v2" ∧ version3.id ≠ "v2"
  names : captureOf version3.snapshot = .str "v2"
  replaces : version3.replaces.filter (· != "") ≠ none
  differs : version3.content.value executionEvidenceKey ≠
      version2.content.value executionEvidenceKey ∧
    Json.canonEq (version3.content.value executionEvidenceKey)
      (version2.content.value executionEvidenceKey) ≠ true

theorem sample_facts : SampleFacts where
  created := by decide +kernel
  edit := by decide +kernel
  kinds := by decide +kernel
  edited := by decide +kernel
  freeze := by decide +kernel
  frozen := by decide +kernel
  captured := by decide +kernel
  retype := by decide +kernel
  retyped := by decide +kernel
  ids := by decide +kernel
  names := by decide +kernel
  replaces := by decide +kernel
  differs := by decide +kernel

theorem created_run : ∃ events last,
    ((cycleSystem plainEnv Unit).restrict CarriesAlong).Run (emptyDesk Unit) events
      ⟨sampleDesk created creating, Function.update idleWorker () last⟩ := by
  have hidle : ((cycleSystem plainEnv Unit).restrict CarriesAlong).Run (emptyDesk Unit) []
      ⟨sampleDesk ⟨[], [], []⟩ [], Function.update idleWorker () none⟩ := by
    rw [show Function.update idleWorker () none = idleWorker from Function.update_eq_self () _]
    exact .idle
  have htalk : (handleCycles plainEnv chief (.createCycle firstBody)).run.converses
      [⟨.targetActive "shop" "web" "test", true⟩, ⟨.uuid4, "c1"⟩,
        ⟨.insert (cycleWith 1 []), .saved (cycleWith 1 [])⟩]
      (.done (.ok (.cycle (cycleWith 1 [])))) :=
    map_converses (createCycle_converses rfl sample_facts.created.1 rfl)
  rcases sampleRun_called created (.createCycle firstBody) hidle htalk
    ⟨sampleDesk ⟨[], [], []⟩ creating, ⟨⟨rfl, rfl⟩, trivial⟩,
      sampleDesk ⟨[], [], ["c1"]⟩ creating, ⟨⟨⟨not_mem_nil, rfl⟩, rfl⟩, trivial⟩,
      sampleDesk created creating, ⟨⟨sample_facts.created.2, rfl⟩, trivial⟩, rfl⟩ with ⟨_, hrun, _⟩
  exact ⟨_, _, hrun⟩

theorem edited_run : ∃ events last,
    ((cycleSystem plainEnv Unit).restrict CarriesAlong).Run (emptyDesk Unit) events
      ⟨sampleDesk edited editing, Function.update idleWorker () last⟩ := by
  rcases created_run with ⟨_, _, hcreated⟩
  rcases sample_facts.edit with ⟨haccepted, hadded, hsize, hfound⟩
  rcases sample_facts.edited with ⟨hfresh, hsaved⟩
  have htalk : (createVersion plainEnv chief "c1" firstReport).run.converses
      [⟨.find chief "c1", some (cycleWith 1 [])⟩, ⟨.uuid4, "v1"⟩, ⟨.now, noon⟩,
        ⟨.saveVersions (cycleWith 1 []).id firstReport.expectedRevision
          ((cycleWith 1 []).versions ++ [version1]), .saved (cycleWith 2 [version1])⟩]
      (.done (.ok (cycleWith 2 [version1]))) :=
    createVersion_converses rfl haccepted rfl (by decide) hadded hsize
  have hcarried : FindsCarrying editing (.find chief "c1") (some (cycleWith 1 [])) := by
    rintro cycleId body rest hcalls
    rcases hcalls
    exact fun key hkey _ => sample_facts.kinds key hkey
  rcases sampleRun_called edited (.createVersion "c1" firstReport) hcreated (map_converses htalk)
    ⟨sampleDesk created editing, ⟨⟨⟨hfound, rfl⟩, rfl⟩, hcarried⟩,
      sampleDesk (storeWith 1 [] ["v1", "c1"]) editing,
      ⟨⟨⟨hfresh, rfl⟩, rfl⟩, trivial⟩,
      sampleDesk (storeWith 1 [] ["v1", "c1"]) editing, ⟨⟨rfl, rfl⟩, trivial⟩,
      sampleDesk edited editing, ⟨⟨hsaved, rfl⟩, trivial⟩, rfl⟩ with ⟨_, hrun, _⟩
  exact ⟨_, _, hrun⟩

theorem captured_run : ∃ events last,
    ((cycleSystem plainEnv Unit).restrict CarriesAlong).Run (emptyDesk Unit) events
      ⟨sampleDesk frozen freezing, Function.update idleWorker () last⟩ := by
  rcases edited_run with ⟨_, _, hedited⟩
  rcases sample_facts.freeze with ⟨haccepted, hunused, hsource, hresults, hsize, hfound⟩
  rcases sample_facts.captured with ⟨hfresh, hfresh', hsaved, _⟩
  have htalk : (freezeEvidence plainEnv chief "c1" version1.id firstFreeze).run.converses
      [⟨.find chief "c1", some (cycleWith 2 [version1])⟩,
        ⟨.results (cycleWith 2 [version1]) firstFreeze.expectedResults.keys, [resultOf (.int 1)]⟩,
        ⟨.uuid4, "v2"⟩, ⟨.now, noon⟩, ⟨.uuid4, "x"⟩, ⟨.now, noon⟩,
        ⟨.saveVersions (cycleWith 2 [version1]).id firstFreeze.expectedRevision
          ((cycleWith 2 [version1]).versions ++ [version2]),
          .saved (cycleWith 3 [version1, version2])⟩]
      (.done (.ok (cycleWith 3 [version1, version2]))) :=
    freezeEvidence_converses rfl haccepted hunused rfl (by decide) hsource hresults
      sample_facts.frozen hsize
  have hother : FindsCarrying freezing (.find chief "c1") (some (cycleWith 2 [version1])) := by
    intro cycleId body rest hcalls
    exact absurd (cons.inj hcalls).1 (by intro h; cases h)
  rcases sampleRun_called frozen (.freezeEvidence "c1" "v1" firstFreeze) hedited
    (map_converses htalk)
    ⟨sampleDesk edited freezing, ⟨⟨⟨hfound, rfl⟩, rfl⟩, hother⟩,
      sampleDesk edited freezing, ⟨⟨rfl, rfl⟩, trivial⟩,
      sampleDesk (storeWith 2 [version1] ["v2", "v1", "c1"]) freezing,
      ⟨⟨⟨hfresh, rfl⟩, rfl⟩, trivial⟩,
      sampleDesk (storeWith 2 [version1] ["v2", "v1", "c1"]) freezing, ⟨⟨rfl, rfl⟩, trivial⟩,
      sampleDesk (storeWith 2 [version1] ["x", "v2", "v1", "c1"]) freezing,
      ⟨⟨⟨hfresh', rfl⟩, rfl⟩, trivial⟩,
      sampleDesk (storeWith 2 [version1] ["x", "v2", "v1", "c1"]) freezing, ⟨⟨rfl, rfl⟩, trivial⟩,
      sampleDesk frozen freezing, ⟨⟨hsaved, rfl⟩, trivial⟩, rfl⟩ with ⟨_, hrun, _⟩
  exact ⟨_, _, hrun⟩

/-- In every state that is reached by edits that carry the evidence along, evidence is
    authentic. -/
theorem frozen_evidence_authentic {env : CyclesEnv}
    {events : List (System.Event (CycleDesk ι) ι CycleRequest CycleRequest.Answer)}
    {team : Team (CycleDesk ι) ι CycleRequest CycleRequest.Answer (Except CycleError CycleReply)}
    (hrun : ((cycleSystem env ι).restrict CarriesAlong).Run (emptyDesk ι) events team) :
    Authentic env team.state := by
  rcases consistent_run hrun with ⟨_, hconsistent⟩
  have hsound := hconsistent.sound
  exact ⟨hsound, fun c hc _ hv _ hv' _ hr _ hr' _ hkey hkey' =>
      (hsound c hc).records_unique hv hv' hr hr' hkey hkey',
    fun c hc => (hsound c hc).replays_freeze, fun c hc => (hsound c hc).replays_capture⟩

/-- In the state that is reached by the capture the evidence is authentic, and there is some. -/
theorem captured_authentic : ∃ w : CycleDesk Unit, Authentic plainEnv w ∧
    ∃ c ∈ w.store.cycles, ∃ v ∈ c.versions, capturedUnder v.id "capture" v.snapshot = true := by
  rcases captured_run with ⟨_, _, hrun⟩
  exact ⟨_, frozen_evidence_authentic hrun, cycleWith 3 [version1, version2], mem_cons_self,
    version2, mem_cons_of_mem _ mem_cons_self, sample_facts.captured.2.2.2⟩

theorem retyped_run : ∃ events team,
    (cycleSystem plainEnv Unit).Run (emptyDesk Unit) events team ∧ team.state.store = retyped := by
  rcases captured_run with ⟨_, _, hcaptured⟩
  rcases sample_facts.retype with ⟨haccepted, hadded, hsize, hfound⟩
  rcases sample_facts.retyped with ⟨hfresh, hsaved⟩
  have htalk : (createVersion plainEnv chief "c1" retyping).run.converses
      [⟨.find chief "c1", some (cycleWith 3 [version1, version2])⟩, ⟨.uuid4, "v3"⟩, ⟨.now, noon⟩,
        ⟨.saveVersions (cycleWith 3 [version1, version2]).id retyping.expectedRevision
          ((cycleWith 3 [version1, version2]).versions ++ [version3]),
          .saved (cycleWith 4 [version1, version2, version3])⟩]
      (.done (.ok (cycleWith 4 [version1, version2, version3]))) :=
    createVersion_converses rfl haccepted rfl (by decide) hadded hsize
  have hgiven := sampleDesk_given frozen freezing (.createVersion "c1" retyping)
  rcases hcaptured.of_restrict.call (Or.inl ⟨chief, .createVersion "c1" retyping, rfl, hgiven.symm⟩)
    (map_converses htalk)
    ⟨sampleDesk frozen (.createVersion "c1" retyping :: freezing), ⟨⟨hfound, rfl⟩, rfl⟩,
      sampleDesk (storeWith 3 [version1, version2] ["v3", "x", "v2", "v1", "c1"])
        (.createVersion "c1" retyping :: freezing), ⟨⟨hfresh, rfl⟩, rfl⟩,
      sampleDesk (storeWith 3 [version1, version2] ["v3", "x", "v2", "v1", "c1"])
        (.createVersion "c1" retyping :: freezing), ⟨rfl, rfl⟩,
      sampleDesk retyped (.createVersion "c1" retyping :: freezing), ⟨hsaved, rfl⟩, rfl⟩
    with ⟨_, hrun, _⟩
  exact ⟨_, _, hrun, rfl⟩

/-- Without the condition on edits a version says of captured evidence what was neither
    captured into it nor in its predecessor. -/
theorem evidence_retyped : ¬ ∀ events team,
    (cycleSystem plainEnv Unit).Run (emptyDesk Unit) events team → Authentic plainEnv team.state := by
  intro hall
  rcases retyped_run with ⟨events, team, hrun, hstore⟩
  have hcycle : cycleWith 4 [version1, version2, version3] ∈ team.state.store.cycles := by
    rw [hstore]
    exact mem_cons_self
  have hthird : version3 ∈ (cycleWith 4 [version1, version2, version3]).versions :=
    mem_cons_of_mem _ (mem_cons_of_mem _ mem_cons_self)
  have hcapture := sample_facts.names
  rcases ((hall events team hrun).sound _ hcycle).snapshots version3 hthird with hfrozen | ⟨hinherits, _⟩
  · rcases hfrozen with ⟨_, _, _, _, _, _, _, hsnapshot⟩
    rw [hsnapshot, snapshotOf_capture] at hcapture
    exact absurd (Json.str.inj hcapture) sample_facts.ids.2
  rcases hinherits with ⟨hreplaces, _⟩ | ⟨p, hp, hcarried⟩
  · exact absurd hreplaces sample_facts.replaces
  -- The predecessor is the version that holds the captured evidence.
  have hpred : p = version2 := by
    rcases hp with ⟨hreplaces, hmem⟩ | ⟨o, horigin, _⟩
    · have hid : p.id = "v2" := (Option.some.inj hreplaces).symm
      rcases mem_cons.mp hmem with rfl | hmem
      · exact absurd hid sample_facts.ids.1
      rcases mem_cons.mp hmem with rfl | hmem
      · rfl
      rcases mem_singleton.mp hmem with rfl
      exact absurd hid sample_facts.ids.2
    · exact absurd horigin.symm (by intro h; cases h)
  subst hpred
  rcases hcarried with heq | hcanon
  · exact absurd heq sample_facts.differs.1
  · exact absurd hcanon sample_facts.differs.2

end Apex.Routers
