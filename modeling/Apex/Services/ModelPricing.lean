import Apex.Core.Timeline
import Apex.Auth.Identity
import Apex.Services.EngineRuns
import Mathlib.Data.Rat.Defs

/-!
# Versioned Model Pricing

A model of the catalog has an active generation of prices, and a generation has
intervals. A generation that has been published is never changed: a new price makes a
new generation, with what is left of the old intervals and one interval more.

Stored times are instants and rates are exact decimals. What is asked for is one
transaction under the lock of the model.

## Main definitions

* `ModelPriceInterval`, `ModelPricingGeneration`, `ModelCatalogEntry`: The rows.
* `PricingDb`: The tables.
* `makeGeneration`: Splice a price into the active generation.
* `checkWrite`: Whether a model can be changed.
-/

namespace Apex.Services.ModelPricing

/-- The rates, in USD for a million tokens. -/
structure Rates where
  input : ℚ
  output : ℚ
  cacheRead : ℚ
  cacheCreation : ℚ

structure ModelPriceInterval where
  generationId : String
  effectiveFrom : Instant
  effectiveTo : Option Instant
  rates : Rates

structure ModelPricingGeneration where
  id : String
  modelId : String
  number : Nat
  createdBy : String
  creatorName : String
  reason : String
  source : String
  publishedAt : Option Instant := none

structure ModelCatalogEntry where
  id : String
  provider : String
  modelKey : String
  displayName : String
  archivedAt : Option Instant := none
  version : Nat := 1
  activePricingGenerationId : Option String := none

/-- A correction of past prices, as far as it keeps others from changing the model. -/
structure PricingCorrectionJob where
  id : String
  modelId : String
  state : String

/-- What is kept of an administrative change, with the answer it was given. -/
structure ModelAdminAction (R : Type) where
  modelId : String
  actorId : String
  reason : String
  action : String
  idempotencyKey : String
  payloadHash : String
  result : R

structure PricingDb (R : Type) where
  models : List ModelCatalogEntry := []
  generations : List ModelPricingGeneration := []
  intervals : List ModelPriceInterval := []
  corrections : List PricingCorrectionJob := []
  actions : List (ModelAdminAction R) := []

variable {R : Type}

/-- `intervals`: `ORDER BY effective_from`. -/
def intervals (db : PricingDb R) : Option String → List ModelPriceInterval
  | none => []
  | some generationId =>
    (db.intervals.filter (fun i => i.generationId == generationId)).mergeSort
      (fun i j => decide (i.effectiveFrom ≤ j.effectiveFrom))

/-- The loop of `price_event`: the first interval that contains the instant. -/
def priceInterval (timeline : List ModelPriceInterval) (time : Instant) :
    Option ModelPriceInterval :=
  timeline.find? fun i => decide (i.effectiveFrom ≤ time) && i.effectiveTo.all (time < ·)

/-- What `make_generation` reads of a request. -/
structure GenerationBody where
  effectiveFrom : Instant
  rates : Rates
  reason : String

/-- What is left of an interval: all of it, or what is before the start and what is
    after the end. -/
def keepInterval (generationId : String) (start : Instant) (stop : Option Instant)
    (interval : ModelPriceInterval) : List ModelPriceInterval :=
  let left := interval.effectiveFrom
  let right := interval.effectiveTo
  if right.any (· ≤ start) || stop.any (· ≤ left) then [{ interval with generationId }]
  else
    (if left < start then [{ interval with generationId, effectiveTo := some start }] else []) ++
      match stop with
      | some e =>
        if right.all (e < ·) then [{ interval with generationId, effectiveFrom := e }] else []
      | none => []

/-- `make_generation`. The identifier is the one `uuid4` gives. -/
def makeGeneration (db : PricingDb R) (model : ModelCatalogEntry) (body : GenerationBody)
    (actor : Auth.ConsumerIdentity) (generationId : String) (stop : Option Instant)
    (source : String) : PricingDb R × ModelPricingGeneration :=
  let old := intervals db model.activePricingGenerationId
  let numbers := (db.generations.filter (fun g => g.modelId == model.id)).map (·.number)
  let generation : ModelPricingGeneration :=
    { id := generationId, modelId := model.id, number := numbers.max?.getD 0 + 1,
      createdBy := actor.consumerId, creatorName := actor.name, reason := body.reason, source }
  let rows := old.flatMap (keepInterval generationId body.effectiveFrom stop) ++
    [{ generationId, effectiveFrom := body.effectiveFrom, effectiveTo := stop, rates := body.rates }]
  ({ db with generations := db.generations ++ [generation], intervals := db.intervals ++ rows },
    generation)

/-- `check_write`: the version that was reviewed, and no correction that is pending. -/
def checkWrite (db : PricingDb R) (row : ModelCatalogEntry) (version : Nat) :
    Except (Nat × String) Unit := do
  raiseIf (row.version != version) (409, "Model changed; reload and review again")
  raiseIf (db.corrections.any fun job =>
      job.modelId == row.id && ["queued", "running", "failed"].contains job.state)
    (409, "A pricing correction is pending; finish or retry it first")

end Apex.Services.ModelPricing
