import Apex.Theory.Cycles.Histories

/-!
# What A Handler Of A Cycle Writes

A handler knows the rows it has read and the ids it has drawn, and whatever it writes
was prepared from one of the rows: the versions of the row after a review, or with one
more version, which is an edit or a capture, or the drafts of the next cycle.

An edit carries the evidence of what it replaces along if what it was given is of the
same kinds, wherever the two are equal. That is the one thing asked of the requests.

## Main definitions

* `CycleSeat`: The call of a worker, the rows it has read and the ids it has drawn.
* `cycleDiscipline`: What a worker may write, and what it is told.

## Theorems

* `handleCycles_follows`: Every handler keeps the discipline.
-/

namespace Apex.Routers

open List Option
open Auth Domain Persistence

open Apex.Action hiding ask

/-- The evidence of the version that an edit replaces. -/
def frozenEvidence (versions : List Version) (r : VersionCreate) (key : String) : Json :=
  ((r.replaced.bind (byId versions)).bind fun v => v.content.get? key).getD .null

/-- Wherever the evidence of an edit is equal to that of what it replaces, its numbers and
    truth values are of the same kinds. -/
def CarriesKinds (versions : List Version) (r : VersionCreate) : Prop :=
  ∀ key ∈ [executionEvidenceKey, sourceEvidenceKey],
    Json.pyEq (r.content.value key) (frozenEvidence versions r key) = true →
      Json.sameKinds (r.content.value key) (frozenEvidence versions r key) = true

/-- The evidence of an edit is under its own kind of document, and carried along. -/
structure Edits (versions : List Version) (v : Version) (key : String) (kind : Kind) : Prop where
  placed : v.content.has key = true → v.kind = kind ∧ v.content.value key ≠ .null
  carried : (v.replaces.filter (· != "") = none ∧ v.content.has key = false) ∨
    ∃ p ∈ versions, v.replaces = some p.id ∧ Carried (v.content.value key) (p.content.value key)

theorem pyEq_null {v : Json} (h : Json.pyEq v .null = true) : v = .null := by
  cases v with
  | null => rfl
  | float x =>
    simp only [Json.pyEq, Json.agree, Json.pyLeaf, Json.numeric?] at h
    split at h
    · rename_i hnone
      cases hnone
    · exact absurd h Bool.false_ne_true
  | _ => exact absurd h (by simp only [Json.pyEq, Json.agree, Json.pyLeaf, Json.numeric?,
      Bool.false_eq_true, not_false_eq_true])

section AddVersion

variable {env : CyclesEnv} {versions : List Version} {r : VersionCreate}
  {actor id createdAt : String} {trusted : Bool} {v : Version}

theorem addVersion_ok (h : addVersion env versions r actor trusted id createdAt = .ok v) :
    v = draftVersion env r actor id createdAt ∧
      (∀ x, r.replaced = some x → ∃ p ∈ versions, p.id = x ∧ byId versions x = some p) ∧
      checkFrozen versions r trusted = .ok () := by
  rcases bind_ok.mp h with ⟨_, hreplaced, h⟩
  rcases bind_ok.mp h with ⟨_, hfrozen, h⟩
  rcases bind_ok.mp h with ⟨_, _, h⟩
  refine ⟨(pure_ok.mp h).symm, fun x hx => ?_, hfrozen⟩
  rw [hx] at hreplaced
  rcases bind_ok.mp hreplaced with ⟨p, hp, _⟩
  rw [someOr_ok] at hp
  exact ⟨p, (byId_mem hp).1, (byId_mem hp).2, hp⟩

theorem edits_of_untampered {key : String} {kind : Kind}
    (hreplaced : ∀ x, r.replaced = some x → ∃ p ∈ versions, p.id = x ∧ byId versions x = some p)
    (huntampered : tampered r (r.replaced.bind (byId versions)) key kind = false)
    (hkinds : Json.pyEq (r.content.value key) (frozenEvidence versions r key) = true →
      Json.sameKinds (r.content.value key) (frozenEvidence versions r key) = true) :
    Edits versions (draftVersion env r actor id createdAt) key kind := by
  rw [tampered, Bool.or_eq_false_iff, Bool.or_eq_false_iff, Bool.not_eq_false'] at huntampered
  rcases huntampered with ⟨⟨hnull, heq⟩, hkind⟩
  have hcanon : Json.canonEq (r.content.value key) (frozenEvidence versions r key) = true :=
    Json.canonEq_of_pyEq heq (hkinds heq)
  refine ⟨fun hhas => ?_, ?_⟩
  · have hhas' : r.content.has key = true := hhas
    rw [hhas', Bool.true_and, beq_eq_false_iff_ne] at hnull
    refine ⟨?_, hnull⟩
    rw [Bool.and_eq_false_iff, bne_eq_false_iff_eq, bne_eq_false_iff_eq] at hkind
    exact hkind.resolve_left hnull
  · cases hx : r.replaced with
    | none =>
      -- Without a predecessor nothing is frozen, so nothing was supplied.
      refine Or.inl ⟨hx, ?_⟩
      rw [hx] at heq
      have hvalue := pyEq_null heq
      rw [hvalue, beq_self_eq_true, Bool.and_true] at hnull
      exact hnull
    | some x =>
      rcases hreplaced x hx with ⟨p, hp, hid, hby⟩
      refine Or.inr ⟨p, hp, ?_, ?_⟩
      · rw [hid]
        exact (filter_eq_some_iff.mp hx).1
      · refine Or.inr ?_
        rw [frozenEvidence, hx, bind_some, hby, bind_some] at hcanon
        exact hcanon

theorem edits_of_addVersion (h : addVersion env versions r actor false id createdAt = .ok v)
    (hkinds : CarriesKinds versions r) :
    Edits versions v executionEvidenceKey .report ∧ Edits versions v sourceEvidenceKey .scope := by
  rcases addVersion_ok h with ⟨rfl, hreplaced, huntampered⟩
  rw [checkFrozen, raiseIf_ok, Bool.not_false, Bool.true_and, Bool.or_eq_false_iff] at huntampered
  exact ⟨edits_of_untampered hreplaced huntampered.1 (hkinds _ mem_cons_self),
    edits_of_untampered hreplaced huntampered.2 (hkinds _ (mem_cons_of_mem _ mem_cons_self))⟩

end AddVersion

structure CycleSeat where
  job : Option CycleJob
  rows : List TestCycle
  fresh : List String

/-- A version that is appended to those of a row. -/
inductive Prepared (env : CyclesEnv) (job : Option CycleJob) (row : TestCycle) (v : Version) : Prop
  | edited (hsnapshot : Edits row.versions v executionEvidenceKey .report)
      (hsources : Edits row.versions v sourceEvidenceKey .scope)
  | frozen (source : Version) (body : FreezeReportEvidence) (capturedAt actor : String)
      (results : List CycleResult) (hjob : job = some (.freezeEvidence row.id source.id body))
      (hsource : source ∈ row.versions) (hsourceKind : source.kind = .report)
      (hunused : findSnapshot body.idempotencyKey row.versions = none) (hkind : v.kind = .report)
      (hreplaces : v.replaces = some source.id)
      (hcontent : v.content = source.content.set executionEvidenceKey (.ofDict
        (snapshotOf v.id body.idempotencyKey (versionDigest env (freezeContent source.id body))
          capturedAt actor results)))
  | captured (source : Version) (body : CaptureSource) (capturedAt actor : String)
      (connection : ConnectionChoice) (document : DocumentContent)
      (hjob : job = some (.captureSource row.id source.id body)) (hsource : source ∈ row.versions)
      (hsourceKind : source.kind = .scope)
      (hunused : findRecord body.idempotencyKey row.versions = none) (hkind : v.kind = .scope)
      (hreplaces : v.replaces = some source.id)
      (hcontent : v.content = source.content.set sourceEvidenceKey (.list
        ((sourceRecords source.content).filter (fun r => !ofPage connection.id body.ref.id r) ++
          [.ofDict (recordOf v.id (versionDigest env (captureContent source.id body)) capturedAt
            actor body connection document)])))

/-- A draft of the next cycle: it carries what the version it is taken from carries. -/
structure Reused (parent : TestCycle) (p v : Version) : Prop where
  mem : p ∈ parent.versions
  kind : v.kind = p.kind
  replaces : v.replaces = none
  origin : ∃ checksum, v.origin = some ⟨parent.id, p.id, checksum⟩
  snapshot : v.content.get? executionEvidenceKey = p.content.get? executionEvidenceKey
  sources : v.content.get? sourceEvidenceKey = p.content.get? sourceEvidenceKey

/-- One more version of a row a worker has read. -/
def CycleSeat.Adds (env : CyclesEnv) (seat : CycleSeat) (row : TestCycle)
    (versions : List Version) : Prop :=
  ∃ v, versions = row.versions ++ [v] ∧ v.origin = none ∧ v.id ∈ seat.fresh ∧
    Prepared env seat.job row v

def CycleSeat.allowed (env : CyclesEnv) (seat : CycleSeat) : CycleRequest → Prop
  | .insert row => row.versions = [] ∧ row.id ∈ seat.fresh
  | .saveVersions id revision versions => ∃ row ∈ seat.rows, row.id = id ∧
      row.revision = revision ∧
      (List.Forall₂ SameCore row.versions versions ∨ seat.Adds env row versions)
  | .saveImport revision versions record => ∃ row ∈ seat.rows, row.id = record.cycleId ∧
      row.revision = revision ∧ seat.Adds env row versions
  | .saveChild parentId _ child => child.id ∈ seat.fresh ∧
      (child.versions.map Version.id).Nodup ∧
      ∃ parent ∈ seat.rows, parent.id = parentId ∧
        ∀ v ∈ child.versions, v.id ∈ seat.fresh ∧ ∃ p, Reused parent p v
  | _ => True

def CycleSeat.possible (seat : CycleSeat) : (r : CycleRequest) → r.Answer → Prop
  | .find _ id, some row => row.id = id ∧
      (∀ r ∈ seat.rows, r.id = row.id → r.revision = row.revision → r.versions = row.versions) ∧
      ∀ cycleId body, seat.job = some (.createVersion cycleId body) → CarriesKinds row.versions body
  | .uuid4, id => id ∉ seat.fresh
  | _, _ => True

def CycleSeat.told (seat : CycleSeat) : (r : CycleRequest) → r.Answer → CycleSeat
  | .find _ _, some row => { seat with rows := row :: seat.rows }
  | .uuid4, id => { seat with fresh := id :: seat.fresh }
  | .insert _, _ => { seat with fresh := [] }
  | .saveVersions .., _ => { seat with fresh := [] }
  | .saveImport .., _ => { seat with fresh := [] }
  | .saveChild .., _ => { seat with fresh := [] }
  | _, _ => seat

def cycleDiscipline (env : CyclesEnv) :
    Discipline CycleRequest CycleRequest.Answer CycleSeat where
  allowed := CycleSeat.allowed env
  possible := CycleSeat.possible
  move := CycleSeat.told

section Follow

variable {env : CyclesEnv} {seat : CycleSeat} {identity : ConsumerIdentity}

/-- Nothing is promised of what a handler returns. -/
abbrev Returning {α : Type} : CycleSeat → Except CycleError α → Prop := whenOk fun _ _ => True

structure Found (seat : CycleSeat) (cycleId : String) (row : TestCycle) : Prop where
  id : row.id = cycleId
  same : ∀ r ∈ seat.rows, r.id = row.id → r.revision = row.revision → r.versions = row.versions
  kinds : ∀ id body, seat.job = some (.createVersion id body) → CarriesKinds row.versions body

variable {cycleId time versionId key : String} {source : Version} {row parent : TestCycle}
  {body : CaptureSource} {mapping : List (String × String)}

theorem findCycle_follows {α : Type} {f : TestCycle → CycleHandler α}
    (h : ∀ row, Found seat cycleId row → (f row).run.follows (cycleDiscipline env) Returning
      { seat with rows := row :: seat.rows }) :
    (findCycle identity cycleId >>= f).run.follows (cycleDiscipline env) Returning seat := by
  refine bind_follows (m := fun after row => Found seat cycleId row ∧
    after = { seat with rows := row :: seat.rows }) ?_ ?_
  · refine ask_bind_follows (d := cycleDiscipline env) trivial fun a ha => ?_
    refine settle_follows fun row hrow => ?_
    rw [someOr_ok] at hrow
    subst hrow
    exact ⟨⟨ha.1, ha.2.1, ha.2.2⟩, rfl⟩
  · rintro after row ⟨hfound, rfl⟩
    exact h row hfound

variable {versions : List Version} {actor createdAt id : String} {v : Version}
  {request : VersionCreate} {selected : String × String}

theorem saveVersions_follows {revision : Nat}
    (h : ∃ row ∈ seat.rows, row.id = cycleId ∧ row.revision = revision ∧
      (Forall₂ SameCore row.versions versions ∨ seat.Adds env row versions)) :
    (saveVersions env cycleId revision versions).run.follows (cycleDiscipline env) Returning
      seat := by
  refine raiseWhen_bind_follows fun _ => ?_
  refine ask_bind_follows (d := cycleDiscipline env) h fun a _ => ?_
  exact settle_follows fun _ _ => trivial

theorem createCycle_follows (body : CycleCreate) :
    (createCycle env identity body).run.follows (cycleDiscipline env) Returning seat := by
  refine raiseWhen_bind_follows fun _ => ?_
  refine raiseWhen_bind_follows fun _ => ?_
  refine raiseWhen_bind_follows fun _ => ?_
  refine ask_bind_follows (d := cycleDiscipline env) trivial fun target _ => ?_
  refine raiseWhen_bind_follows fun _ => ?_
  refine ask_bind_follows (d := cycleDiscipline env) trivial fun id _ => ?_
  refine ask_bind_follows (d := cycleDiscipline env) ⟨rfl, mem_cons_self⟩ fun a _ => ?_
  exact settle_follows fun _ _ => trivial

theorem refusal_ok {α : Type} {status : Nat} {detail : String → String} {x : Except String α}
    {a : α} (h : refusal status detail x = .ok a) : x = .ok a := by
  cases x with
  | ok b => exact congrArg Except.ok (Except.ok.inj h)
  | error e => exact absurd h (by simp only [refusal, reduceCtorEq, not_false_eq_true])

theorem createVersion_follows {body : VersionCreate}
    (hjob : seat.job = some (.createVersion cycleId body)) :
    (createVersion env identity cycleId body).run.follows (cycleDiscipline env) Returning seat := by
  refine raiseWhen_bind_follows fun _ => ?_
  refine raiseWhen_bind_follows fun _ => ?_
  refine findCycle_follows fun row hrow => ?_
  refine raiseWhen_bind_follows fun hrevision => ?_
  refine raiseWhen_bind_follows fun _ => ?_
  refine ask_bind_follows (d := cycleDiscipline env) trivial fun id _ => ?_
  refine ask_bind_follows (d := cycleDiscipline env) trivial fun createdAt _ => ?_
  refine settle_bind_follows fun v hv => ?_
  have hadd := refusal_ok hv
  have hedits := edits_of_addVersion hadd (hrow.kinds cycleId body hjob)
  have hdraft := (addVersion_ok hadd).1
  refine saveVersions_follows ⟨row, mem_cons_self, rfl, ?_, Or.inr ⟨v, rfl, ?_, ?_, ?_⟩⟩
  · exact bne_eq_false_iff_eq.mp hrevision
  · rw [hdraft]
    rfl
  · rw [hdraft]
    exact mem_cons_self
  · exact .edited hedits.1 hedits.2

theorem reviewed_sameCore (a : CycleAction) (actor time : String) (v : Version) :
    SameCore v (reviewed a actor time v) := by
  unfold reviewed
  split
  · exact ⟨rfl, rfl, rfl, rfl, rfl⟩
  · exact ⟨rfl, rfl, rfl, rfl, rfl⟩

theorem changeFirst_sameCore {test : Version → Bool} {change : Version → Version}
    (h : ∀ v, SameCore v (change v)) : ∀ (versions : List Version),
    Forall₂ SameCore versions (Domain.changeFirst test change versions)
  | [] => Forall₂.nil
  | v :: rest => by
    rw [Domain.changeFirst]
    split
    · exact Forall₂.cons (h v) (forall₂_same.mpr fun w _ => SameCore.refl w)
    · exact Forall₂.cons (SameCore.refl v) (changeFirst_sameCore h rest)

theorem transition_sameCore {versions' : List Version} {a : CycleAction} {independentReview : Bool}
    (h : transition env versions a actor time independentReview = .ok versions') :
    Forall₂ SameCore versions versions' := by
  rcases bind_ok.mp h with ⟨_, _, h⟩
  rcases bind_ok.mp h with ⟨_, _, h⟩
  rw [← pure_ok.mp h]
  exact changeFirst_sameCore (reviewed_sameCore a actor time) versions

theorem act_follows (cycleId : String) (body : CycleAction) :
    (act env identity cycleId body).run.follows (cycleDiscipline env) Returning seat := by
  refine raiseWhen_bind_follows fun _ => ?_
  refine raiseWhen_bind_follows fun _ => ?_
  refine findCycle_follows fun row hrow => ?_
  refine raiseWhen_bind_follows fun hrevision => ?_
  refine ask_bind_follows (d := cycleDiscipline env) trivial fun time _ => ?_
  refine settle_bind_follows fun versions hversions => ?_
  refine saveVersions_follows ⟨row, mem_cons_self, rfl, bne_eq_false_iff_eq.mp hrevision,
    Or.inl (transition_sameCore (refusal_ok hversions))⟩

theorem capturedVersion_ok {captureId detail : String}
    (h : capturedVersion env versions request actor id createdAt captureId detail = .ok v) :
    v = { draftVersion env request actor id createdAt with id := captureId } := by
  rcases bind_ok.mp h with ⟨_, _, h⟩
  rcases bind_ok.mp h with ⟨w, hw, h⟩
  rw [← pure_ok.mp h, (addVersion_ok (refusal_ok hw)).1]

theorem reportSource_ok (h : reportSource env versions versionId = .ok source) :
    source ∈ versions ∧ source.id = versionId ∧ source.kind = .report := by
  rcases bind_ok.mp h with ⟨w, hw, h⟩
  rcases bind_ok.mp h with ⟨_, _, h⟩
  rcases bind_ok.mp h with ⟨_, _, h⟩
  rw [← pure_ok.mp h]
  rw [someOr_ok] at hw
  have htest := find?_some hw
  rw [Bool.and_eq_true, beq_iff_eq, beq_iff_eq] at htest
  exact ⟨mem_of_find?_eq_some hw, htest.1, htest.2⟩

theorem scopeSource_ok (h : scopeSource versions versionId = .ok source) :
    source ∈ versions ∧ source.id = versionId ∧ source.kind = .scope := by
  rw [scopeSource, someOr_ok] at h
  have htest := find?_some h
  rw [Bool.and_eq_true, Bool.and_eq_true, beq_iff_eq, beq_iff_eq] at htest
  exact ⟨mem_of_find?_eq_some h, htest.1.1, htest.1.2⟩

theorem freezeNew_follows {body : FreezeReportEvidence}
    (hjob : seat.job = some (.freezeEvidence row.id versionId body)) (hrow : row ∈ seat.rows)
    (hunused : findSnapshot body.idempotencyKey row.versions = none) :
    (freezeNew env identity row versionId body).run.follows (cycleDiscipline env) Returning
      seat := by
  refine raiseWhen_bind_follows fun hguard => ?_
  rw [Bool.or_eq_false_iff, bne_eq_false_iff_eq] at hguard
  refine settle_bind_follows fun source hsource => ?_
  rcases reportSource_ok hsource with ⟨hmem, hid, hkind⟩
  refine ask_bind_follows (d := cycleDiscipline env) trivial fun results _ => ?_
  refine raiseWhen_bind_follows fun _ => ?_
  refine ask_bind_follows (d := cycleDiscipline env) trivial fun captureId _ => ?_
  refine ask_bind_follows (d := cycleDiscipline env) trivial fun capturedAt _ => ?_
  refine ask_bind_follows (d := cycleDiscipline env) trivial fun id _ => ?_
  refine ask_bind_follows (d := cycleDiscipline env) trivial fun createdAt _ => ?_
  refine settle_bind_follows fun v hv => ?_
  have hdraft := capturedVersion_ok hv
  subst hid
  refine saveVersions_follows ⟨row, hrow, rfl, hguard.1, Or.inr ⟨v, rfl, ?_, ?_, ?_⟩⟩
  · rw [hdraft]
    rfl
  · rw [hdraft]
    exact mem_cons_of_mem _ mem_cons_self
  · refine .frozen source body capturedAt.text identity.consumerId results hjob hmem hkind hunused
      ?_ ?_ ?_
    · rw [hdraft]
      rfl
    · rw [hdraft]
      rfl
    · rw [hdraft]
      rfl

theorem freezeEvidence_follows {body : FreezeReportEvidence}
    (hjob : seat.job = some (.freezeEvidence cycleId versionId body)) :
    (freezeEvidence env identity cycleId versionId body).run.follows (cycleDiscipline env)
      Returning seat := by
  refine raiseWhen_bind_follows fun _ => ?_
  refine raiseWhen_bind_follows fun _ => ?_
  refine findCycle_follows fun row hrow => ?_
  split
  · exact settle_follows fun _ _ => trivial
  · rename_i hunused
    refine freezeNew_follows ?_ mem_cons_self hunused
    rw [hrow.id]
    exact hjob

theorem captureRead_follows {connection : ConnectionChoice} {document : DocumentContent}
    (hjob : seat.job = some (.captureSource row.id source.id body)) (hrow : row ∈ seat.rows)
    (hid : row.id = cycleId) (hrevision : row.revision = body.expectedRevision)
    (hmem : source ∈ row.versions) (hkind : source.kind = .scope)
    (hunused : findRecord body.idempotencyKey row.versions = none) :
    (captureRead env identity cycleId source.id body source connection document).run.follows
      (cycleDiscipline env) Returning seat := by
  refine raiseWhen_bind_follows fun _ => ?_
  refine findCycle_follows fun again hagain => ?_
  refine raiseWhen_bind_follows fun hguard => ?_
  rw [bne_eq_false_iff_eq] at hguard
  -- The row is read again at the same revision, so its versions are the same.
  have hversions : row.versions = again.versions :=
    hagain.same row hrow (hid.trans hagain.id.symm) (hrevision.trans hguard.symm)
  refine ask_bind_follows (d := cycleDiscipline env) trivial fun captureId _ => ?_
  refine ask_bind_follows (d := cycleDiscipline env) trivial fun capturedAt _ => ?_
  refine raiseWhen_bind_follows fun _ => ?_
  refine ask_bind_follows (d := cycleDiscipline env) trivial fun id _ => ?_
  refine ask_bind_follows (d := cycleDiscipline env) trivial fun createdAt _ => ?_
  refine settle_bind_follows fun v hv => ?_
  have hdraft := capturedVersion_ok hv
  refine saveVersions_follows ⟨again, mem_cons_self, rfl, hguard, Or.inr ⟨v, rfl, ?_, ?_, ?_⟩⟩
  · rw [hdraft]
    rfl
  · rw [hdraft]
    exact mem_cons_of_mem _ mem_cons_self
  · refine .captured source body capturedAt.text identity.consumerId connection document ?_ ?_ hkind
      ?_ ?_ ?_ ?_
    · rw [hagain.id, ← hid]
      exact hjob
    · exact hversions ▸ hmem
    · exact hversions ▸ hunused
    · rw [hdraft]
      rfl
    · rw [hdraft]
      rfl
    · rw [hdraft]
      rfl

theorem captureNew_follows (hjob : seat.job = some (.captureSource row.id versionId body))
    (hrow : row ∈ seat.rows) (hunused : findRecord body.idempotencyKey row.versions = none) :
    (captureNew env identity row versionId body).run.follows (cycleDiscipline env) Returning
      seat := by
  refine raiseWhen_bind_follows fun hguard => ?_
  rw [Bool.or_eq_false_iff, Bool.or_eq_false_iff, bne_eq_false_iff_eq, bne_eq_false_iff_eq] at hguard
  refine settle_bind_follows fun source hsource => ?_
  rcases scopeSource_ok hsource with ⟨hmem, hid, hkind⟩
  refine ask_bind_follows (d := cycleDiscipline env) trivial fun connections _ => ?_
  refine settle_bind_follows fun connection _ => ?_
  refine raiseWhen_bind_follows fun _ => ?_
  refine ask_bind_follows (d := cycleDiscipline env) trivial fun answer _ => ?_
  refine settle_bind_follows fun document _ => ?_
  subst hid
  exact captureRead_follows hjob hrow rfl hguard.1.2 hmem hkind hunused

theorem captureSource_follows (hjob : seat.job = some (.captureSource cycleId versionId body)) :
    (captureSource env identity cycleId versionId body).run.follows (cycleDiscipline env)
      Returning seat := by
  refine raiseWhen_bind_follows fun _ => ?_
  refine raiseWhen_bind_follows fun _ => ?_
  refine findCycle_follows fun row hrow => ?_
  split
  · exact settle_follows fun _ _ => trivial
  · rename_i hunused
    refine captureNew_follows ?_ mem_cons_self hunused
    rw [hrow.id]
    exact hjob

theorem edits_of_none {r : VersionCreate} {kind : Kind} (hreplaces : r.replaces = none)
    (hhas : r.content.has key = false) :
    Edits versions (draftVersion env r actor id createdAt) key kind := by
  refine ⟨fun h => ?_, Or.inl ⟨?_, hhas⟩⟩
  · exact absurd (hhas ▸ h) Bool.false_ne_true
  · rw [draftVersion, hreplaces]
    rfl

theorem importRequest_has (body : ImportProviderScript) (exported : ProviderScriptExport)
    (hkey : key = executionEvidenceKey ∨ key = sourceEvidenceKey) :
    (importRequest body exported).content.has key = false := by
  rcases hkey with rfl | rfl
  · simp only [importRequest, Dict.has, Dict.get?_set, Dict.get?_single, executionEvidenceKey,
      String.reduceEq, if_false, isSome_none]
  · simp only [importRequest, Dict.has, Dict.get?_set, Dict.get?_single, sourceEvidenceKey,
      String.reduceEq, if_false, isSome_none]

theorem importedVersion_ok (h : importedVersion env versions request actor id createdAt = .ok v) :
    v = draftVersion env request actor id createdAt := by
  rcases bind_ok.mp h with ⟨_, _, h⟩
  exact (addVersion_ok (refusal_ok h)).1

theorem importRead_follows (cycleId : String) (body : ImportProviderScript)
    (exported : ProviderScriptExport) :
    (importRead env identity cycleId body exported).run.follows (cycleDiscipline env) Returning
      seat := by
  refine raiseWhen_bind_follows fun _ => ?_
  refine findCycle_follows fun row hrow => ?_
  refine raiseWhen_bind_follows fun hguard => ?_
  rw [Bool.or_eq_false_iff, bne_eq_false_iff_eq] at hguard
  refine ask_bind_follows (d := cycleDiscipline env) trivial fun id _ => ?_
  refine ask_bind_follows (d := cycleDiscipline env) trivial fun createdAt _ => ?_
  refine settle_bind_follows fun v hv => ?_
  have hdraft := importedVersion_ok hv
  refine raiseWhen_bind_follows fun _ => ?_
  refine ask_bind_follows (d := cycleDiscipline env) ?_ fun a _ => settle_follows fun _ _ => trivial
  refine ⟨row, mem_cons_self, rfl, hguard.1, v, rfl, ?_, ?_, ?_⟩
  · rw [hdraft]
    rfl
  · rw [hdraft]
    exact mem_cons_self
  · rw [hdraft]
    exact .edited (edits_of_none rfl (importRequest_has body exported (Or.inl rfl)))
      (edits_of_none rfl (importRequest_has body exported (Or.inr rfl)))

theorem importScript_follows (cycleId : String) (body : ImportProviderScript) :
    (importScript env identity cycleId body).run.follows (cycleDiscipline env) Returning seat := by
  refine raiseWhen_bind_follows fun _ => ?_
  refine raiseWhen_bind_follows fun _ => ?_
  refine findCycle_follows fun row _ => ?_
  refine ask_bind_follows (d := cycleDiscipline env) trivial fun existing _ => ?_
  split
  · exact settle_follows fun _ _ => trivial
  · refine raiseWhen_bind_follows fun _ => ?_
    refine raiseWhen_bind_follows fun _ => ?_
    refine ask_bind_follows (d := cycleDiscipline env) trivial fun connections _ => ?_
    refine raiseWhen_bind_follows fun _ => ?_
    refine raiseWhen_bind_follows fun _ => ?_
    refine ask_bind_follows (d := cycleDiscipline env) trivial fun answer _ => ?_
    refine settle_bind_follows fun exported _ => ?_
    exact importRead_follows row.id body exported

/-- Some ids were drawn, each once, beside those drawn before. -/
structure Drew (before after : CycleSeat) (mapping : List (String × String)) : Prop where
  rows : after.rows = before.rows
  nodup : (mapping.map Prod.snd).Nodup
  drawn : ∀ pair ∈ mapping, pair.2 ∈ after.fresh ∧ pair.2 ∉ before.fresh
  fresh : ∀ id ∈ before.fresh, id ∈ after.fresh

theorem drawIds_follows : ∀ (selected : List String) (seat : CycleSeat),
    (drawIds selected).run.follows (cycleDiscipline env)
      (whenOk fun after mapping => Drew seat after mapping) seat
  | [], seat => pure_follows ⟨rfl, nodup_nil, fun _ h => absurd h not_mem_nil,
      fun _ h => h⟩
  | x :: rest, seat => by
    refine ask_bind_follows (d := cycleDiscipline env) trivial fun id hid => ?_
    refine bind_follows (drawIds_follows rest _) fun after mapping hdrew => ?_
    refine pure_follows ⟨hdrew.rows, ?_, ?_, ?_⟩
    · rw [map_cons, nodup_cons]
      refine ⟨fun hmem => ?_, hdrew.nodup⟩
      rcases List.mem_map.mp hmem with ⟨pair, hpair, heq⟩
      exact (hdrew.drawn pair hpair).2 (heq ▸ mem_cons_self)
    · intro pair hpair
      rcases mem_cons.mp hpair with rfl | hold
      · exact ⟨hdrew.fresh _ mem_cons_self, hid⟩
      · refine ⟨(hdrew.drawn pair hold).1, fun hmem => ?_⟩
        exact (hdrew.drawn pair hold).2 (mem_cons_of_mem _ hmem)
    · exact fun y hy => hdrew.fresh y (mem_cons_of_mem _ hy)

theorem reusedDraft_get? {sourceCycle : String} (hkey : key ≠ "validation") :
    (reusedDraft env mapping source selected actor time sourceCycle).content.get? key =
      source.content.get? key := by
  rw [reusedDraft]
  split
  · exact Dict.get?_set_ne source.content _ hkey
  · rfl

theorem reuseDraft_ok
    (h : reuseDraft env parent.versions mapping actor time parent.id selected = .ok v) :
    v.id = selected.2 ∧ ∃ p, Reused parent p v := by
  rcases bind_ok.mp h with ⟨source, hsource, h⟩
  rcases bind_ok.mp h with ⟨_, _, h⟩
  rcases bind_ok.mp h with ⟨_, _, h⟩
  rw [someOr_ok] at hsource
  rcases byId_mem hsource with ⟨hmem, hid⟩
  rw [← pure_ok.mp h]
  refine ⟨rfl, source, hmem, rfl, rfl, ⟨source.checksum, ?_⟩, ?_, ?_⟩
  · rw [hid]
    rfl
  · exact reusedDraft_get? (by decide)
  · exact reusedDraft_get? (by decide)

theorem reuseDrafts_ok
    (h : reuseDrafts env parent.versions mapping actor time parent.id = .ok versions) :
    versions.map Version.id = mapping.map Prod.snd ∧ ∀ v ∈ versions, ∃ p, Reused parent p v := by
  have hall := mapM_ok.mp h
  refine ⟨?_, fun v hv => ?_⟩
  · have heq : Forall₂ (fun a b => a = b) (versions.map Version.id) (mapping.map Prod.snd) := by
      rw [forall₂_map_left_iff, forall₂_map_right_iff]
      exact hall.flip.imp fun _ _ hv => (reuseDraft_ok hv).1
    exact forall₂_eq_eq_eq ▸ heq
  · rcases mapM_mem h hv with ⟨_, _, hok⟩
    exact (reuseDraft_ok hok).2

theorem nextNew_follows (body : NextCycleRequest) (hparent : parent ∈ seat.rows) :
    (nextNew env identity parent body).run.follows (cycleDiscipline env) Returning seat := by
  refine ask_bind_follows (d := cycleDiscipline env) trivial fun target _ => ?_
  refine raiseWhen_bind_follows fun _ => ?_
  refine bind_follows (drawIds_follows body.versionIds _) fun after mapping hdrew => ?_
  refine ask_bind_follows (d := cycleDiscipline env) trivial fun time _ => ?_
  refine settle_bind_follows fun versions hversions => ?_
  rcases reuseDrafts_ok (refusal_ok hversions) with ⟨hids, hreused⟩
  refine raiseWhen_bind_follows fun _ => ?_
  refine ask_bind_follows (d := cycleDiscipline env) trivial fun id _ => ?_
  refine ask_bind_follows (d := cycleDiscipline env) ?_ fun a _ => settle_follows fun _ _ => trivial
  refine ⟨mem_cons_self, ?_, parent, ?_, rfl, fun v hv => ⟨?_, hreused v hv⟩⟩
  · exact hids ▸ hdrew.nodup
  · exact hdrew.rows ▸ hparent
  · have hmem : v.id ∈ mapping.map Prod.snd := hids ▸ List.mem_map_of_mem hv
    rcases List.mem_map.mp hmem with ⟨pair, hpair, heq⟩
    rw [← heq]
    exact mem_cons_of_mem _ (hdrew.drawn pair hpair).1

theorem nextCycle_follows (cycleId : String) (body : NextCycleRequest) :
    (nextCycle env identity cycleId body).run.follows (cycleDiscipline env) Returning seat := by
  refine raiseWhen_bind_follows fun _ => ?_
  refine raiseWhen_bind_follows fun _ => ?_
  refine findCycle_follows fun parent _ => ?_
  refine ask_bind_follows (d := cycleDiscipline env) trivial fun existing _ => ?_
  split
  · refine findCycle_follows fun child _ => ?_
    exact settle_follows fun _ _ => trivial
  · exact nextNew_follows body mem_cons_self

theorem handleCycles_follows {job : CycleJob} (hjob : seat.job = some job) :
    (handleCycles env identity job).run.follows (cycleDiscipline env) Returning seat := by
  cases job with
  | createCycle body => exact map_follows (createCycle_follows body) fun _ _ h => h
  | createVersion cycleId body => exact map_follows (createVersion_follows hjob) fun _ _ h => h
  | act cycleId body => exact map_follows (act_follows cycleId body) fun _ _ h => h
  | freezeEvidence cycleId versionId body =>
    exact map_follows (freezeEvidence_follows hjob) fun _ _ h => h
  | captureSource cycleId versionId body =>
    exact map_follows (captureSource_follows hjob) fun _ _ h => h
  | importScript cycleId body => exact map_follows (importScript_follows cycleId body) fun _ _ h => h
  | nextCycle cycleId body => exact map_follows (nextCycle_follows cycleId body) fun _ _ h => h

end Follow

end Apex.Routers
