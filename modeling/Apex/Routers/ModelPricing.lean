import Apex.Services.ModelPricing

/-!
# Setting A Price

Only an administrator without scopes sets a price, for now or for later. The new price
lasts until the next instant at which the active prices change, so that nothing that was
planned for later is taken back.

## Main definitions

* `PriceWrite`: What is asked for.
* `setPrice`: The handler.
-/

namespace Apex.Routers.ModelPricing

open Services Services.ModelPricing

/-- `HTTPException`: a status and a detail. -/
abbrev HttpError := Nat × String

structure PriceWrite where
  expectedVersion : Nat
  reason : String
  idempotencyKey : String
  rates : Rates
  effectiveFrom : Option Instant := none

/-- What the handler takes from elsewhere: whether pricing is enabled, the digest of a
    request and the answer that describes a model. -/
structure PricingEnv (R : Type) where
  modelPricingAdminEnabled : Bool
  digest : PriceWrite → String
  modelResponse : PricingDb R → ModelCatalogEntry → R

variable {R : Type}

variable (env : PricingEnv R) (db : PricingDb R)

def admin (identity : Auth.ConsumerIdentity) : Except HttpError Unit := do
  raiseIf (!identity.isUnscoped) (403, "Requires an unrestricted platform administrator")
  raiseIf (!env.modelPricingAdminEnabled)
    (503, "Model pricing administration is disabled until deployment rollout completes")

def lockedModel (modelId : String) : Except HttpError ModelCatalogEntry :=
  someOr (404, "Model not found") (db.models.find? (fun m => m.id == modelId))

/-- `receipt`: the answer an earlier request under the same key was given. -/
def receipt (modelId : String) (body : PriceWrite)
    (action : String) : Except HttpError (Option R) :=
  match db.actions.find? (fun a => a.modelId == modelId && a.idempotencyKey == body.idempotencyKey) with
  | some old =>
    if old.payloadHash != env.digest body || old.action != action then
      .error (409, "Idempotency key was used for a different request")
    else .ok (some old.result)
  | none => .ok none

/-- The instants after the start at which the prices of a timeline change. -/
def boundaries (timeline : List ModelPriceInterval) (start : Instant) : List Instant :=
  timeline.flatMap (fun i => i.effectiveFrom :: i.effectiveTo.toList) |>.filter (start < ·)

/-- Publish a generation and make it the active one. -/
def publish (generation : ModelPricingGeneration) (row : ModelCatalogEntry)
    (now : Instant) : PricingDb R × ModelCatalogEntry :=
  let row := { row with activePricingGenerationId := some generation.id, version := row.version + 1 }
  ({ db with
      generations := db.generations.map (fun g =>
        if g.id = generation.id then { g with publishedAt := some now } else g)
      models := db.models.map (fun m => if m.id = row.id then row else m) }, row)

def recordAction (modelId : String) (identity : Auth.ConsumerIdentity) (body : PriceWrite)
    (action : String) (result : R) : PricingDb R :=
  { db with actions := db.actions ++ [
      { modelId, actorId := identity.consumerId, reason := body.reason, action,
        idempotencyKey := body.idempotencyKey, payloadHash := env.digest body, result }] }

/-- `set_price`. What it raises rolls the transaction back. -/
def setPrice (modelId : String) (body : PriceWrite) (identity : Auth.ConsumerIdentity)
    (now : Instant) (generationId : String) (db : PricingDb R) :
    Except HttpError (PricingDb R × R) := do
  admin env identity
  let row ← lockedModel db modelId
  match ← receipt env db modelId body "price_change" with
  | some old => pure (db, old)
  | none => do
      checkWrite db row body.expectedVersion
      let start := body.effectiveFrom.getD now
      raiseIf (decide (start < now) && body.effectiveFrom.isSome)
        (422, "Past prices require a historical correction preview")
      let timeline := intervals db row.activePricingGenerationId
      let made := makeGeneration db row ⟨start, body.rates, body.reason⟩ identity generationId
        (boundaries timeline start).min? "price_change"
      let published := publish made.1 made.2 row now
      let result := env.modelResponse published.1 published.2
      pure (recordAction env published.1 modelId identity body "price_change" result, result)

end Apex.Routers.ModelPricing
