import Apex.Routers.ModelPricing

/-!
# Splicing Prices

A generation of prices is a timeline, and making a generation splices the new price into
the active one: from the start to the end there is the new price, and at every other
instant there is what there was, which may be nothing. Setting a price ends the new one
where the active prices change next.

## Main definitions

* `ModelPriceInterval.span`: An interval as a span of the timeline.
* `priceAt`: The rates an event at an instant is priced with.
* `activeRates`: The rates of a model at an instant.

## Theorems

* `makeGeneration_splice`: The new generation is the spliced timeline.
* `setPrice_cases`: What a request that is answered has done.
* `past_prices_kept`: What requests leave of the prices, in whatever order they are served.
-/

namespace Apex

namespace Services.ModelPricing

open List

variable {R : Type}

def ModelPriceInterval.span (i : ModelPriceInterval) : Span Instant Rates :=
  ⟨i.effectiveFrom, i.effectiveTo, i.rates⟩

def priceAt (timeline : List ModelPriceInterval) (t : Instant) : Option Rates :=
  (priceInterval timeline t).map ModelPriceInterval.rates

def timelineOf (db : PricingDb R) (generationId : Option String) : List (Span Instant Rates) :=
  (intervals db generationId).map ModelPriceInterval.span

theorem priceAt_eq (timeline : List ModelPriceInterval) (t : Instant) :
    priceAt timeline t = valueAt (timeline.map ModelPriceInterval.span) t := by
  rw [priceAt, valueAt, find?_map, Option.map_map, priceInterval]
  rfl

theorem keepInterval_span (generationId : String) (start : Instant) (stop : Option Instant)
    (rates : Rates) (i : ModelPriceInterval) :
    (keepInterval generationId start stop i).map ModelPriceInterval.span =
      Span.outside ⟨start, stop, rates⟩ i.span := by
  unfold keepInterval Span.outside
  dsimp only [ModelPriceInterval.span]
  by_cases h : (i.effectiveTo.any (· ≤ start) || stop.any (· ≤ i.effectiveFrom)) = true
  · rw [if_pos h]
    exact (if_pos h).symm
  · rw [if_neg h, map_append]
    refine Eq.trans ?_ (if_neg h).symm
    congr 1
    · by_cases hlt : i.effectiveFrom < start
      · rw [if_pos hlt]
        exact (if_pos hlt).symm
      · rw [if_neg hlt]
        exact (if_neg hlt).symm
    · cases stop with
      | none => rfl
      | some e =>
        dsimp only
        by_cases hall : i.effectiveTo.all (e < ·) = true
        · rw [if_pos hall]
          exact (if_pos hall).symm
        · rw [if_neg hall]
          exact (if_neg hall).symm

variable {stop : Option Instant} {generationId : String}

theorem generation_keepInterval {start : Instant} {i j : ModelPriceInterval}
    (h : j ∈ keepInterval generationId start stop i) :
    j.generationId = generationId := by
  unfold keepInterval at h
  dsimp only at h
  split at h
  · rw [mem_singleton.mp h]
  · rcases mem_append.mp h with h | h
    · split at h
      · rw [mem_singleton.mp h]
      · exact absurd h not_mem_nil
    · split at h
      · split at h
        · rw [mem_singleton.mp h]
        · exact absurd h not_mem_nil
      · exact absurd h not_mem_nil

theorem timelineOf_perm (db : PricingDb R) (generationId : String) :
    (timelineOf db (some generationId)).Perm
      ((db.intervals.filter (fun i => i.generationId == generationId)).map
        ModelPriceInterval.span) :=
  (mergeSort_perm _ _).map _

theorem timelineOf_sorted (db : PricingDb R) (generationId : Option String) :
    (timelineOf db generationId).Pairwise (·.start ≤ ·.start) := by
  cases generationId with
  | none => exact Pairwise.nil
  | some g =>
    rw [timelineOf, pairwise_map]
    refine (pairwise_mergeSort (fun a b c hab hbc => ?_) (fun a b => ?_) _).imp
      fun h => of_decide_eq_true h
    · exact decide_eq_true ((of_decide_eq_true hab).trans (of_decide_eq_true hbc))
    · rw [Bool.or_eq_true, decide_eq_true_eq, decide_eq_true_eq]
      exact Int.le_total _ _

/-- A generation that no interval belongs to yet. -/
def Fresh (db : PricingDb R) (generationId : String) : Prop :=
  ∀ i ∈ db.intervals, i.generationId ≠ generationId

variable {model : ModelCatalogEntry} {db : PricingDb R}

theorem timelineOf_makeGeneration {body : GenerationBody} {actor : Auth.ConsumerIdentity}
    {source : String} (hfresh : Fresh db generationId) :
    (timelineOf (makeGeneration db model body actor generationId stop source).1
      (some generationId)).Perm
        (splice (timelineOf db model.activePricingGenerationId)
          ⟨body.effectiveFrom, stop, body.rates⟩) := by
  refine (timelineOf_perm _ _).trans ?_
  have hold : db.intervals.filter (fun i => i.generationId == generationId) = [] :=
    filter_eq_nil_iff.mpr fun i hi => by
      rw [beq_iff_eq]
      exact hfresh i hi
  have hnew : ∀ j ∈ (intervals db model.activePricingGenerationId).flatMap
      (keepInterval generationId body.effectiveFrom stop),
      (j.generationId == generationId) = true := by
    intro j hj
    rcases mem_flatMap.mp hj with ⟨i, _, hj⟩
    rw [beq_iff_eq]
    exact generation_keepInterval hj
  rw [makeGeneration]
  dsimp only
  rw [filter_append, hold, nil_append, filter_append, filter_eq_self.mpr hnew,
    map_append, map_flatMap, splice, timelineOf, flatMap_map]
  simp only [keepInterval_span generationId body.effectiveFrom stop body.rates]
  rw [filter_cons_of_pos (by rw [beq_iff_eq])]
  rfl

theorem makeGeneration_splice (body : GenerationBody) (actor : Auth.ConsumerIdentity)
    (source : String) (hfresh : Fresh db generationId)
    (htimeline : IsTimeline (timelineOf db model.activePricingGenerationId))
    (hstop : ∀ e ∈ stop, body.effectiveFrom < e) :
    IsTimeline (timelineOf (makeGeneration db model body actor generationId stop source).1
      (some generationId)) ∧
    ∀ t, priceAt (intervals (makeGeneration db model body actor generationId stop source).1
        (some generationId)) t =
      if body.effectiveFrom ≤ t ∧ ∀ e ∈ stop, t < e then some body.rates
      else priceAt (intervals db model.activePricingGenerationId) t := by
  have hperm : (timelineOf (makeGeneration db model body actor generationId stop source).1
      (some generationId)).Perm (splice (timelineOf db model.activePricingGenerationId)
        ⟨body.effectiveFrom, stop, body.rates⟩) := timelineOf_makeGeneration hfresh
  generalize (makeGeneration db model body actor generationId stop source).1 = db' at hperm ⊢
  have hcut : Span.Proper (⟨body.effectiveFrom, stop, body.rates⟩ : Span Instant Rates) := hstop
  have hsplice := apart_splice htimeline.apart hcut
  have hapart := (hperm.symm.pairwise_iff fun h => h.symm).mp hsplice
  refine ⟨isTimeline_of_apart (fun s hs => ?_) hapart (timelineOf_sorted _ _), fun t => ?_⟩
  · exact proper_splice htimeline.proper hcut s (hperm.mem_iff.mp hs)
  · rw [priceAt_eq, priceAt_eq]
    refine ((valueAt_perm hapart hperm t).trans (valueAt_splice htimeline.apart hcut t)).trans ?_
    simp only [Span.covers_iff]
    rfl

end Services.ModelPricing

namespace Routers.ModelPricing

open Services Services.ModelPricing

variable {R : Type}

def activeGeneration (db : PricingDb R) (modelId : String) : Option String :=
  (db.models.find? (fun m => m.id == modelId)).bind (·.activePricingGenerationId)

def activeRates (db : PricingDb R) (modelId : String) (t : Instant) : Option Rates :=
  priceAt (intervals db (activeGeneration db modelId)) t

variable {row : ModelCatalogEntry} {modelId : String}

variable {db db' : PricingDb R}

theorem find_lockedModel
    (h : lockedModel db modelId = .ok row) : db.models.find? (fun m => m.id == modelId) = some row := by
  rw [lockedModel] at h
  cases hfind : db.models.find? (fun m => m.id == modelId) with
  | none =>
    rw [hfind] at h
    cases h
  | some found =>
    rw [hfind] at h
    cases h
    rfl

theorem activeGeneration_of_locked (h : lockedModel db modelId = .ok row) :
    activeGeneration db modelId = row.activePricingGenerationId := by
  rw [activeGeneration, find_lockedModel h]
  rfl

/-- What a request that is answered has done: it was answered before, or the price has
    been spliced in and published. -/
theorem setPrice_cases {env : PricingEnv R} {body : PriceWrite} {identity : Auth.ConsumerIdentity}
    {now : Instant} {generationId : String} {result : R}
    (h : setPrice env modelId body identity now generationId db = .ok (db', result))
    (hrow : lockedModel db modelId = .ok row) :
    db' = db ∨ ∃ start stop, start = body.effectiveFrom.getD now ∧
      stop = (boundaries (intervals db row.activePricingGenerationId) start).min? ∧
      activeGeneration db' modelId = some generationId ∧
      db'.intervals = (makeGeneration db row ⟨start, body.rates, body.reason⟩ identity generationId
        stop "price_change").1.intervals := by
  simp only [setPrice, hrow, bind_ok] at h
  rcases h with ⟨_, _, row', hrow', old, _, h⟩
  rw [Except.ok.injEq] at hrow'
  subst hrow'
  cases old with
  | some old =>
    cases h
    exact .inl rfl
  | none =>
    simp only [bind_ok, pure_ok] at h
    rcases h with ⟨_, _, _, _, h⟩
    cases h
    refine .inr ⟨_, _, rfl, rfl, ?_, rfl⟩
    have hfind := find_lockedModel hrow
    have hid : row.id = modelId := by
      have := List.find?_some hfind
      rwa [beq_iff_eq] at this
    -- The row that is found is the one that has been changed.
    rw [activeGeneration, recordAction, publish]
    dsimp only
    rw [makeGeneration]
    dsimp only
    rw [List.find?_map]
    have hsame : ((fun m : ModelCatalogEntry => m.id == modelId) ∘ fun m =>
        if m.id = row.id then
          { row with activePricingGenerationId := some generationId, version := row.version + 1 }
        else m) = fun m => m.id == modelId := by
      funext m
      rw [Function.comp_apply]
      split
      · next heq => rw [heq]
      · rfl
    rw [hsame, hfind, Option.map_some, if_pos rfl]
    rfl

theorem timelineOf_congr (h : db'.intervals = db.intervals)
    (generationId : Option String) : intervals db' generationId = intervals db generationId := by
  cases generationId with
  | none => rfl
  | some g => rw [intervals, intervals, h]

/-- The price a generation is made with is the one it has from its start to its end, and
    at every other instant the prices are what they were. A price that is set ends where
    the active ones change next. -/
theorem prices_spliced (db : PricingDb R) (generationId : String) (hfresh : Fresh db generationId) :
    (∀ (model : ModelCatalogEntry) (body : GenerationBody) (actor : Auth.ConsumerIdentity)
      (stop : Option Instant) (source : String),
      IsTimeline (timelineOf db model.activePricingGenerationId) →
      (∀ e ∈ stop, body.effectiveFrom < e) →
      IsTimeline (timelineOf (makeGeneration db model body actor generationId stop source).1
        (some generationId)) ∧
      ∀ t, priceAt (intervals (makeGeneration db model body actor generationId stop source).1
          (some generationId)) t =
        if body.effectiveFrom ≤ t ∧ ∀ e ∈ stop, t < e then some body.rates
        else priceAt (intervals db model.activePricingGenerationId) t) ∧
    ∀ (env : PricingEnv R) (modelId : String) (body : PriceWrite) (identity : Auth.ConsumerIdentity)
      (now start : Instant) (row : ModelCatalogEntry) (db' : PricingDb R) (result : R),
      start = body.effectiveFrom.getD now → lockedModel db modelId = .ok row →
      IsTimeline (timelineOf db row.activePricingGenerationId) →
      setPrice env modelId body identity now generationId db = .ok (db', result) →
      db' = db ∨ IsTimeline (timelineOf db' (activeGeneration db' modelId)) ∧
        ∀ t, (t < start → activeRates db' modelId t = activeRates db modelId t) ∧
          (∀ b ∈ boundaries (intervals db row.activePricingGenerationId) start, b ≤ t →
            activeRates db' modelId t = activeRates db modelId t) ∧
          (start ≤ t → (∀ b ∈ boundaries (intervals db row.activePricingGenerationId) start, t < b) →
            activeRates db' modelId t = some body.rates) := by
  refine ⟨fun model body actor stop source htimeline hstop =>
    makeGeneration_splice body actor source hfresh htimeline hstop, ?_⟩
  intro env modelId body identity now start row db' result hstart hrow htimeline h
  rcases setPrice_cases h hrow with hsame | ⟨start', stop, hstart', hstop, hactive, hdb⟩
  · exact .inl hsame
  subst hstart hstart'
  refine .inr ?_
  generalize body.effectiveFrom.getD now = start at hstop hdb ⊢
  have hlater : ∀ e ∈ stop, start < e := by
    intro e he
    rw [hstop] at he
    exact of_decide_eq_true (List.mem_filter.mp (List.min?_mem he)).2
  have hsplice := makeGeneration_splice ⟨start, body.rates, body.reason⟩ identity "price_change" hfresh
    htimeline hlater
  rw [timelineOf, ← timelineOf_congr hdb] at hsplice
  rw [hactive]
  refine ⟨hsplice.1, fun t => ?_⟩
  simp only [activeRates, hactive, activeGeneration_of_locked hrow, hsplice.2 t]
  refine ⟨fun ht => ?_, fun b hb hbt => ?_, fun ht hall => ?_⟩
  · exact if_neg fun h => absurd h.1 (Int.not_le.mpr ht)
  · -- The end is no later than any change of the old prices.
    cases hmin : stop with
    | none =>
      rw [hmin, eq_comm, List.min?_eq_none_iff] at hstop
      rw [hstop] at hb
      exact absurd hb List.not_mem_nil
    | some e =>
      rw [hmin, eq_comm, List.min?_eq_some_iff] at hstop
      exact if_neg fun h => absurd (h.2 e rfl) (Int.not_lt.mpr (Int.le_trans (hstop.2 b hb) hbt))
  · refine if_pos ⟨ht, fun e he => hall e ?_⟩
    rw [hstop] at he
    exact List.min?_mem he

def sampleModel : ModelCatalogEntry where
  id := "m1"
  provider := "openai"
  modelKey := "gpt-x"
  displayName := "gpt-x"
  activePricingGenerationId := some "g1"

/-- A model with a price for now and another one from instant 100 on. -/
def sampleDb : PricingDb Unit where
  models := [sampleModel]
  intervals := [⟨"g1", 0, some 100, ⟨1, 1, 1, 1⟩⟩, ⟨"g1", 100, none, ⟨2, 2, 2, 2⟩⟩]

/-- Pricing as it is enabled, with nothing of interest in the answers. -/
def samplePricingEnv : PricingEnv Unit := ⟨true, fun _ => "", fun _ _ => ()⟩

def pricingAdmin : Auth.ConsumerIdentity := ⟨"c1", "ann", .dashboard, .admin, []⟩

def samplePrice : PriceWrite where
  expectedVersion := 1
  reason := "new contract"
  idempotencyKey := "k1"
  rates := ⟨3, 3, 3, 3⟩
  effectiveFrom := some 50

theorem isTimeline_sampleDb : IsTimeline (timelineOf sampleDb (some "g1")) := by
  have hapart : (sampleDb.intervals.map ModelPriceInterval.span).Pairwise Span.Apart := by
    rw [sampleDb, List.map_cons, List.map_cons, List.map_nil, List.pairwise_pair]
    exact Span.Before.apart ⟨100, rfl, Int.le_refl _⟩
  have hperm := timelineOf_perm sampleDb "g1"
  refine isTimeline_of_apart (fun s hs => ?_) ((hperm.pairwise_iff fun h => h.symm).mpr hapart)
    (timelineOf_sorted _ _)
  have hproper : ∀ s ∈ sampleDb.intervals.map ModelPriceInterval.span, ∀ e ∈ s.stop, s.start < e := by
    decide
  exact hproper s (hperm.mem_iff.mp hs)

theorem prices_spliced_sample : ∃ db' result,
    setPrice samplePricingEnv "m1" samplePrice pricingAdmin 10 "g2" sampleDb = .ok (db', result) ∧
      activeRates db' "m1" 50 = some ⟨3, 3, 3, 3⟩ ∧
      activeRates db' "m1" 49 = activeRates sampleDb "m1" 49 ∧
      activeRates db' "m1" 100 = activeRates sampleDb "m1" 100 := by
  refine ⟨_, _, rfl, ?_⟩
  have hperm : (intervals sampleDb (some "g1")).Perm sampleDb.intervals := List.mergeSort_perm _ _
  have hmem : ∀ b : Instant, b ∈ boundaries (intervals sampleDb (some "g1")) 50 ↔ b = 100 := by
    intro b
    have hflat := hperm.flatMap_right (fun i => i.effectiveFrom :: i.effectiveTo.toList)
    rw [boundaries, List.mem_filter, hflat.mem_iff]
    simp only [sampleDb, List.flatMap_cons, List.flatMap_nil, Option.toList_some, Option.toList_none,
      List.mem_append, List.mem_cons, List.not_mem_nil, or_false, decide_eq_true_eq]
    constructor
    · rintro ⟨(rfl | rfl) | rfl, h⟩
      · exact absurd h (by decide)
      · rfl
      · rfl
    · rintro rfl
      exact ⟨.inr rfl, by decide⟩
  have hfresh : Fresh sampleDb "g2" := by
    unfold Fresh
    decide
  rcases (prices_spliced sampleDb "g2" hfresh).2 samplePricingEnv "m1" samplePrice pricingAdmin 10
    50 _ _ _ rfl rfl isTimeline_sampleDb rfl with h | ⟨_, h⟩
  · exact absurd (congrArg (fun d => activeGeneration d "m1") h) (by decide)
  · exact ⟨(h 50).2.2 (by decide) (fun b hb => by rw [(hmem b).mp hb]; decide), (h 49).1 (by decide),
      (h 100).2.1 100 ((hmem 100).mpr rfl) (by decide)⟩

section History

open List

/-- A request as it is served: of whom, when, and the identifier that `uuid4` gives. -/
structure PriceCall where
  modelId : String
  body : PriceWrite
  identity : Auth.ConsumerIdentity
  now : Instant
  generationId : String

/-- The tables after a request. What is refused is rolled back. -/
def serve (env : PricingEnv R) (db : PricingDb R) (call : PriceCall) : PricingDb R :=
  match setPrice env call.modelId call.body call.identity call.now call.generationId db with
  | .ok (db', _) => db'
  | .error _ => db

/-- Every model has a timeline, and a key stands for one change of it. -/
structure Priced (db : PricingDb R) : Prop where
  timeline : ∀ modelId, IsTimeline (timelineOf db (activeGeneration db modelId))
  keys : (db.actions.map fun a => (a.modelId, a.idempotencyKey)).Nodup

/-- An identifier that neither an interval nor a model has. -/
structure Unused (db : PricingDb R) (generationId : String) : Prop where
  fresh : Fresh db generationId
  inactive : ∀ modelId, activeGeneration db modelId ≠ some generationId

/-- A request that may change what a model costs at an instant. -/
def PriceCall.Reaches (call : PriceCall) (modelId : String) (t : Instant) : Prop :=
  call.modelId = modelId ∧ call.identity.isUnscoped = true ∧ call.now ≤ t

variable {env : PricingEnv R} {db db' : PricingDb R} {call : PriceCall}

/-- A request that changes something was asked by an administrator without scopes, under a key that
    is new, of a time that is not past. -/
theorem setPrice_writes {modelId : String} {body : PriceWrite} {identity : Auth.ConsumerIdentity}
    {now : Instant} {generationId : String} {result : R} {row : ModelCatalogEntry}
    (h : setPrice env modelId body identity now generationId db = .ok (db', result))
    (hrow : lockedModel db modelId = .ok row) :
    db' = db ∨ identity.isUnscoped = true ∧ now ≤ body.effectiveFrom.getD now ∧
      (∀ a ∈ db.actions, (a.modelId, a.idempotencyKey) ≠ (modelId, body.idempotencyKey)) ∧
      db'.actions.map (fun a => (a.modelId, a.idempotencyKey)) =
        db.actions.map (fun a => (a.modelId, a.idempotencyKey)) ++ [(modelId, body.idempotencyKey)] ∧
      db'.models = db.models.map fun m => if m.id = row.id then
        { row with activePricingGenerationId := some generationId, version := row.version + 1 } else m := by
  simp only [setPrice, hrow, bind_ok] at h
  rcases h with ⟨_, hadmin, row', hrow', old, hold, h⟩
  cases hrow'
  cases old with
  | some old =>
    cases h
    exact .inl rfl
  | none =>
    simp only [bind_ok, pure_ok] at h
    rcases h with ⟨_, _, _, hpast, h⟩
    cases h
    simp only [admin, bind_ok, raiseIf_ok] at hadmin
    rcases hadmin with ⟨_, hunscoped, _⟩
    refine .inr ⟨by simpa using hunscoped, ?_, fun a ha heq => ?_, map_append, rfl⟩
    · rw [raiseIf_ok] at hpast
      cases hfrom : body.effectiveFrom with
      | none => exact Int.le_refl _
      | some start => simpa [hfrom] using hpast
    · rw [Prod.mk.injEq] at heq
      rw [receipt] at hold
      split at hold
      · split at hold <;> cases hold
      · next hnone => simpa [heq.1, heq.2] using find?_eq_none.mp hnone a ha

theorem activeGeneration_set {row : ModelCatalogEntry} {modelId : String} (other : String)
    (generationId : String) (hother : modelId ≠ other) (hid : row.id = modelId)
    (hmodels : db'.models = db.models.map fun m => if m.id = row.id then
      { row with activePricingGenerationId := some generationId, version := row.version + 1 } else m) :
    activeGeneration db' other = activeGeneration db other := by
  have hsame : ((fun m : ModelCatalogEntry => m.id == other) ∘ fun m => if m.id = row.id then
      { row with activePricingGenerationId := some generationId, version := row.version + 1 } else m) =
        fun m => m.id == other := by
    funext m
    rw [Function.comp_apply]
    split
    · next heq => rw [heq]
    · rfl
  rw [activeGeneration, hmodels, find?_map, hsame, activeGeneration]
  cases hfind : db.models.find? fun m => m.id == other with
  | none => rfl
  | some m =>
    have hm : m.id = other := by simpa using List.find?_some hfind
    rw [Option.map_some, if_neg fun h => hother (hid.symm.trans (h.symm.trans hm))]

/-- The intervals that a generation adds are its own. -/
theorem makeGeneration_intervals (db : PricingDb R) (row : ModelCatalogEntry)
    (body : GenerationBody) (actor : Auth.ConsumerIdentity) (generationId : String)
    (stop : Option Instant) (source : String) :
    ∃ rows, (makeGeneration db row body actor generationId stop source).1.intervals =
        db.intervals ++ rows ∧ ∀ i ∈ rows, i.generationId = generationId := by
  refine ⟨_, rfl, fun i hi => ?_⟩
  rcases mem_append.mp hi with hi | hi
  · rcases mem_flatMap.mp hi with ⟨_, _, hi⟩
    exact generation_keepInterval hi
  · rw [mem_singleton.mp hi]

theorem intervals_append {rows : List ModelPriceInterval} {generationId g : String}
    (hdb : db'.intervals = db.intervals ++ rows) (hrows : ∀ i ∈ rows, i.generationId = generationId)
    (hne : g ≠ generationId) : intervals db' (some g) = intervals db (some g) := by
  have hnone : rows.filter (fun i => i.generationId == g) = [] := filter_eq_nil_iff.mpr fun i hi => by
    rw [hrows i hi, beq_iff_eq]
    exact hne.symm
  rw [intervals, intervals, hdb, filter_append, hnone, append_nil]

structure Serves (call : PriceCall) (db db' : PricingDb R) : Prop where
  priced : Priced db'
  unused : ∀ g ≠ call.generationId, Unused db g → Unused db' g
  kept : ∀ g ≠ call.generationId, intervals db' (some g) = intervals db (some g)
  rates : ∀ modelId t, ¬ call.Reaches modelId t →
    activeRates db' modelId t = activeRates db modelId t

theorem serves_self (h : Priced db) : Serves call db db :=
  ⟨h, fun _ _ hg => hg, fun _ _ => rfl, fun _ _ _ => rfl⟩

theorem serve_serves (hpriced : Priced db) (hunused : Unused db call.generationId) :
    Serves call db (serve env db call) := by
  rw [serve]
  split
  swap
  · exact serves_self hpriced
  next db' result h =>
  cases hrow : lockedModel db call.modelId with
  | error e =>
    simp only [setPrice, hrow, bind_ok] at h
    rcases h with ⟨_, _, _, hrow, _⟩
    cases hrow
  | ok row =>
  rcases setPrice_writes h hrow with rfl | ⟨hunscoped, hnow, hnew, hkeys, hmodels⟩
  · exact serves_self hpriced
  rcases setPrice_cases h hrow with rfl | ⟨start, stop, rfl, hstop, hactive, hdb⟩
  · exact serves_self hpriced
  have hid : row.id = call.modelId := by simpa using List.find?_some (find_lockedModel hrow)
  have hothers (other : String) (hother : call.modelId ≠ other) :=
    activeGeneration_set other _ hother hid hmodels
  rcases makeGeneration_intervals db row ⟨_, call.body.rates, call.body.reason⟩ call.identity
    call.generationId stop "price_change" with ⟨rows, hmade, hgeneration⟩
  have hrows : db'.intervals = db.intervals ++ rows := hdb.trans hmade
  have hkept (g : String) (hg : g ≠ call.generationId) :
      intervals db' (some g) = intervals db (some g) := intervals_append hrows hgeneration hg
  have hstays (other : String) (hother : call.modelId ≠ other) :
      intervals db' (activeGeneration db' other) = intervals db (activeGeneration db other) := by
    rw [hothers other hother]
    cases hg : activeGeneration db other with
    | none => rfl
    | some g => exact hkept g fun heq => hunused.inactive other (heq ▸ hg)
  have hlater : ∀ e ∈ stop, call.body.effectiveFrom.getD call.now < e := by
    intro e he
    rw [hstop] at he
    exact of_decide_eq_true (mem_filter.mp (min?_mem he)).2
  have hsplice := makeGeneration_splice ⟨call.body.effectiveFrom.getD call.now, call.body.rates,
    call.body.reason⟩ call.identity "price_change" hunused.fresh
    (activeGeneration_of_locked hrow ▸ hpriced.timeline call.modelId) hlater
  rw [timelineOf, ← timelineOf_congr hdb] at hsplice
  refine ⟨⟨fun modelId => ?_, ?_⟩, fun g hg hfree => ⟨fun i hi => ?_, fun modelId => ?_⟩, hkept,
    fun modelId t ht => ?_⟩
  · by_cases hmodel : call.modelId = modelId
    · rw [← hmodel, hactive]
      exact hsplice.1
    · rw [timelineOf, hstays modelId hmodel]
      exact hpriced.timeline modelId
  · rw [hkeys, nodup_append]
    refine ⟨hpriced.keys, nodup_singleton _, fun a ha b hb => ?_⟩
    rcases mem_map.mp ha with ⟨action, haction, rfl⟩
    exact mem_singleton.mp hb ▸ hnew action haction
  · rw [hrows] at hi
    rcases mem_append.mp hi with hi | hi
    · exact hfree.fresh i hi
    · exact fun heq => hg (heq.symm.trans (hgeneration i hi))
  · by_cases hmodel : call.modelId = modelId
    · rw [← hmodel, hactive]
      exact fun heq => hg (Option.some.inj heq).symm
    · rw [hothers modelId hmodel]
      exact hfree.inactive modelId
  · by_cases hmodel : call.modelId = modelId
    · rw [← hmodel, activeRates, activeRates, hactive, activeGeneration_of_locked hrow, hsplice.2 t]
      exact if_neg fun hcovers => ht ⟨hmodel, hunscoped, hnow.trans hcovers.1⟩
    · rw [activeRates, hstays modelId hmodel, activeRates]

/-- Whoever sets prices, in whatever order: the price of an instant is only ever changed for the
    model that is asked for, by an administrator without scopes, who asks no later than that
    instant. What belongs to a generation stays as it is, every model keeps a timeline, and no
    key stands for two changes of a model. -/
theorem past_prices_kept (env : PricingEnv R) (calls : List PriceCall) (db : PricingDb R)
    (hpriced : Priced db) (hunused : ∀ call ∈ calls, Unused db call.generationId)
    (hdistinct : (calls.map PriceCall.generationId).Nodup) :
    Priced (calls.foldl (serve env) db) ∧
    (∀ g, (∀ call ∈ calls, call.generationId ≠ g) →
      intervals (calls.foldl (serve env) db) (some g) = intervals db (some g)) ∧
    ∀ modelId t, (∀ call ∈ calls, ¬ call.Reaches modelId t) →
      activeRates (calls.foldl (serve env) db) modelId t = activeRates db modelId t := by
  induction calls generalizing db with
  | nil => exact ⟨hpriced, fun _ _ => rfl, fun _ _ _ => rfl⟩
  | cons call calls ih =>
    rw [map_cons, nodup_cons] at hdistinct
    have hstep : Serves call db (serve env db call) :=
      serve_serves hpriced (hunused call mem_cons_self)
    rcases ih (serve env db call) hstep.priced (fun later hlater =>
        hstep.unused _ (fun heq => hdistinct.1 (heq ▸ mem_map_of_mem hlater))
          (hunused later (mem_cons_of_mem _ hlater))) hdistinct.2 with ⟨hprices, hkept, hrates⟩
    refine ⟨hprices, fun g hg => ?_, fun modelId t ht => ?_⟩
    · exact (hkept g fun later hlater => hg later (mem_cons_of_mem _ hlater)).trans
        (hstep.kept g (hg call mem_cons_self).symm)
    · exact (hrates modelId t fun later hlater => ht later (mem_cons_of_mem _ hlater)).trans
        (hstep.rates modelId t (ht call mem_cons_self))

def sampleCall : PriceCall := ⟨"m1", samplePrice, pricingAdmin, 10, "g2"⟩

theorem past_prices_kept_sample : activeRates ([sampleCall].foldl (serve samplePricingEnv) sampleDb)
    "m1" 9 = activeRates sampleDb "m1" 9 := by
  have hmodels : ∀ modelId, activeGeneration sampleDb modelId = if "m1" = modelId then some "g1"
      else none := fun modelId => by
    rw [activeGeneration, sampleDb, find?_singleton]
    by_cases h : "m1" = modelId <;> simp [sampleModel, h]
  refine (past_prices_kept samplePricingEnv [sampleCall] sampleDb ⟨fun modelId => ?_, .nil⟩ ?_
    (nodup_singleton _)).2.2 "m1" 9 ?_
  · rw [hmodels]
    split
    · exact isTimeline_sampleDb
    · exact ⟨fun _ h => absurd h not_mem_nil, .nil⟩
  · refine forall_mem_singleton.mpr ⟨by unfold Fresh; decide, fun modelId => ?_⟩
    rw [hmodels]
    split <;> decide
  · exact forall_mem_singleton.mpr fun h => absurd h.2.2 (by decide)

end History

end Routers.ModelPricing

end Apex
