import Outlayer.Contract.Execution

/-!
# `Contract.Admin` — the contract owner's methods

Configuration, the price lists, and the three ways the owner ends pending requests.
-/

namespace Outlayer
open Text Checked Collections

/-- The longest lists of plans and of operations, and the whole of a share in basis points. -/
def maxSubscriptionPlans : Nat := 16
def maxProjectOperations : Nat := 32
def fullShareBp : Nat := 10000

/-! ## Configuration -/

/-- Another owner. -/
def setOwner (env : Env) (c : Config) (newOwnerId : AccountId) : Res Config := do
  assertOwner env c
  pure { c with ownerId := newOwnerId }

/-- Another operator. -/
def setOperator (env : Env) (c : Config) (newOperatorId : AccountId) : Res Config := do
  assertOwner env c
  pure { c with operatorId := newOperatorId }

/-- Pause the contract, or go on. -/
def setPaused (env : Env) (c : Config) (paused : Bool) : Res Config := do
  assertOwner env c
  pure { c with paused }

/-- The fees a repricing names; an absent one stays. -/
structure PricingArgs where
  baseFee : Option Nat := none
  perMillionInstructionsFee : Option Nat := none
  perMsFee : Option Nat := none
  perCompileMsFee : Option Nat := none
  baseFeeUsd : Option Nat := none
  perMillionInstructionsFeeUsd : Option Nat := none
  perSecFeeUsd : Option Nat := none
  perCompileMsFeeUsd : Option Nat := none

/-- Other prices; what is left out stays. -/
def setPricing (env : Env) (c : Config) (p : PricingArgs) : Res Config := do
  assertOwner env c
  pure { c with
    baseFee := p.baseFee.getD c.baseFee
    perMillionInstructionsFee := p.perMillionInstructionsFee.getD c.perMillionInstructionsFee
    perMsFee := p.perMsFee.getD c.perMsFee
    perCompileMsFee := p.perCompileMsFee.getD c.perCompileMsFee
    baseFeeUsd := p.baseFeeUsd.getD c.baseFeeUsd
    perMillionInstructionsFeeUsd := p.perMillionInstructionsFeeUsd.getD c.perMillionInstructionsFeeUsd
    perSecFeeUsd := p.perSecFeeUsd.getD c.perSecFeeUsd
    perCompileMsFeeUsd := p.perCompileMsFeeUsd.getD c.perCompileMsFeeUsd }

/-- The token that payments are made in. -/
def setPaymentTokenContract (env : Env) (c : Config) (tokenContract : Option AccountId) : Res Config := do
  assertOwner env c
  pure { c with paymentTokenContract := tokenContract }

/-- The standard and the version of events; what is left out stays. -/
def setEventMetadata (env : Env) (c : Config) (standard version : Option String) : Res Config := do
  assertOwner env c
  pure { c with eventStandard := standard.getD c.eventStandard, eventVersion := version.getD c.eventVersion }

/-! ## Subscription plans -/

/-- Each row of a plan list, given the indexes seen before it. -/
def checkPlans (seen : List Nat) : List SubscriptionPlan → Res Unit
  | []            => pure ()
  | plan :: plans => do
      require (plan.index ∉ seen)
        ("duplicate plan index " ++ toString plan.index ++ ": an index identifies exactly one offer")
      require (trim plan.name ≠ "") "a plan needs a name"
      require (plan.priceUsd > 0)
        ("plan " ++ plan.name ++ " has no price: a free plan is granted, not sold")
      checkPlans (seen ++ [plan.index]) plans

/-- A plan that stays on the list keeps its name. -/
def checkNotRepointed (plans : List SubscriptionPlan) (existing : SubscriptionPlan) : Res Unit :=
  match plans.find? fun p => p.index = existing.index with
  | none     => pure ()
  | some new =>
      require (new.name = existing.name)
        ("plan index " ++ toString existing.index ++ " is already `" ++ existing.name
          ++ "`; an index may not be repointed at `" ++ new.name ++ "`")

/-- Another list of plans, once it is checked against the one in force. -/
def setSubscriptionPlans (env : Env) (c : Config) (plans : List SubscriptionPlan) : Res Config := do
  assertOwner env c
  require (plans.length ≤ maxSubscriptionPlans)
    ("at most " ++ toString maxSubscriptionPlans ++ " plans; the list is deserialised on every call")
  checkPlans [] plans
  forEach (checkNotRepointed plans) c.subscriptionPlans
  pure { c with subscriptionPlans := plans }

/-! ## Project prices -/

/-- Each row of a price list, given the operations seen before it. -/
def checkOperations (seen : List String) : List OperationPrice → Res Unit
  | []        => pure ()
  | op :: ops => do
      require (trim op.operation ≠ "") "an operation needs a name"
      require (op.developerShareBp ≤ fullShareBp)
        ("operation '" ++ op.operation ++ "' has developer_share_bp " ++ toString op.developerShareBp
          ++ " exceeding " ++ toString fullShareBp)
      require (op.operation ∉ seen)
        ("duplicate operation '" ++ op.operation ++ "': one operation has one price")
      checkOperations (seen ++ [op.operation]) ops

/-- Price a project that exists. -/
def setProjectPricing (env : Env) (c : Contract) (projectId : String) (pricing : ProjectPricing) :
    Res PriceTable := do
  assertOwner env c.toConfig
  require (c.projects.lookup projectId ≠ none)
    ("Project '" ++ projectId ++ "' does not exist; register it before pricing it")
  require (pricing.operations ≠ [])
    "no operations priced: use remove_project_pricing to unprice a project"
  require (pricing.operations.length ≤ maxProjectOperations)
    ("at most " ++ toString maxProjectOperations
      ++ " operations; the list is read on every call to this project")
  checkOperations [] pricing.operations
  pure ⟨c.projectPricing.insert projectId pricing⟩

/-- A project without prices. -/
def removeProjectPricing (env : Env) (c : Contract) (projectId : String) : Res PriceTable := do
  assertOwner env c.toConfig
  pure ⟨c.projectPricing.erase projectId⟩

/-! ## Ending pending requests -/

/-- Remove a request and send its payment back. -/
def dropRequest (l : Ledger) (requestId : Nat) (request : ExecutionRequest) : Ledger × List Effect :=
  ({ l with pendingRequests := l.pendingRequests.erase requestId },
    [.transfer request.payerAccountId request.payment requestId])

/-- Drop a request; its payment goes back with its stablecoin. -/
def emergencyCancelExecution (env : Env) (c : Contract) (requestId : Nat) : Res (Ledger × List Effect) := do
  assertOwner env c.toConfig
  let request ← expect (c.pendingRequests.lookup requestId) "Execution request not found"
  let (l, effects) := dropRequest c.toLedger requestId request
  let l ← returnAttachedUsd l request.senderId request.attachedUsd
  pure (l, effects)

/-- The requests named, one after another; one that is not pending is skipped. -/
def cancelEach (l : Ledger) : List Nat → Ledger × List Effect
  | []        => (l, [])
  | id :: ids =>
      match l.pendingRequests.lookup id with
      | none         => cancelEach l ids
      | some request =>
          let dropped := dropRequest l id request
          let rest := cancelEach dropped.1 ids
          (rest.1, dropped.2 ++ rest.2)

/-- Drop requests by their ids; how many there were is returned. -/
def cancelPendingRequests (env : Env) (c : Contract) (requestIds : List Nat) : Res (Ledger × List Effect) := do
  assertOwner env c.toConfig
  let (l, effects) := cancelEach c.toLedger requestIds
  pure (l, effects ++ [.valueReturn (toString effects.length)])

/-- The pending requests among `ids`, in order, until `limit` are cleared. -/
def clearEach (l : Ledger) : (limit : Nat) → List Nat → Res (Ledger × List Effect)
  | _, []            => pure (l, [])
  | 0, _ :: _        => pure (l, [])
  | limit + 1, id :: ids =>
      match l.pendingRequests.lookup id with
      | none         => clearEach l (limit + 1) ids
      | some request => do
          let (dropped, effects) := dropRequest l id request
          let l ← returnAttachedUsd dropped request.senderId request.attachedUsd
          let (l, rest) ← clearEach l limit ids
          pure (l, effects ++ rest)

/-- Drop the oldest requests, up to a limit. -/
def clearAllPendingRequests (env : Env) (c : Contract) (limit : Option Nat) : Res (Ledger × List Effect) := do
  assertOwner env c.toConfig
  let (l, effects) ← clearEach c.toLedger (limit.getD 100) (List.range c.nextRequestId)
  pure (l, effects ++ [.valueReturn (toString effects.length)])

end Outlayer
