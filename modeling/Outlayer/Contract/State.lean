import Outlayer.Contract.Types
import Outlayer.Lib.Balances

/-!
# `Contract.State` — the contract's state and its constants

The state is one record put together from six parts (`Config`, `Ledger`, `SecretStore`, `Registry`,
`PriceTable`, `PolicyStore`). An entry point takes the whole contract to read from and returns only the part
it writes, so what it leaves alone is visible in its type.
-/

namespace Outlayer
open Text Checked Collections

/-! ## Constants -/

/-- One teragas. -/
def tgas : Nat := 1000000000000

/-- The gas a call has to leave for its callbacks. -/
def minResponseGas : Nat := 50 * tgas
/-- The gas of the callbacks: what each byte of the input adds, and what the other two take. -/
def callbackGasPerInputByte : Nat := 25000000
def topUpCallbackGas : Nat := 30 * tgas
def deleteCallbackGas : Nat := 30 * tgas

/-- 0.00001 NEAR: what one byte of state costs to hold. -/
def storagePricePerByte : Nat := 10000000000000000000
/-- The input that costs no storage, in bytes. -/
def inputDataFreeBytes : Nat := 32 * 1024
/-- How long a request may be pending before its sender cancels it, in nanoseconds. -/
def executionTimeout : Nat := 600 * 1000000000

/-- The most a request may ask for, and the longest input that an event carries. -/
def maxInstructions : Nat := 500000000000
def maxExecutionSeconds : Nat := 180
def maxMemoryMb : Nat := 4096
def inputDataEventThreshold : Nat := 10000

/-- The deposit held for `len` bytes of input while the request is pending. -/
def inputStorageDeposit (len : Nat) : Nat := (len - inputDataFreeBytes) * storagePricePerByte

/-- `saturating_mul` and `saturating_add` on gas never pass the largest `u64`. -/
def responseGas (inputLen : Nat) : Nat :=
  min (2 ^ 64 - 1)
    (minResponseGas + min (2 ^ 64 - 1) ((inputLen - inputDataFreeBytes) * callbackGasPerInputByte))

/-! ## The state -/

/-- Owner, operator, event metadata, prices and plans. -/
structure Config where
  ownerId : AccountId
  operatorId : AccountId
  paused : Bool
  eventStandard : String
  eventVersion : String
  baseFee : Nat
  perMillionInstructionsFee : Nat
  perMsFee : Nat
  perCompileMsFee : Nat
  baseFeeUsd : Nat
  perMillionInstructionsFeeUsd : Nat
  perSecFeeUsd : Nat
  perCompileMsFeeUsd : Nat
  paymentTokenContract : Option AccountId
  subscriptionPlans : List SubscriptionPlan

/-- Requests in flight and the money they move. -/
structure Ledger where
  nextRequestId : Nat
  pendingRequests : LookupMap Nat ExecutionRequest
  totalExecutions : Nat
  totalFeesCollected : Nat
  developerEarnings : LookupMap AccountId Nat
  userStablecoinBalances : LookupMap AccountId Nat

/-- Stored secrets, their index by owner, their vault bindings, and the payment-key nonce floors. -/
structure SecretStore where
  secretsStorage : LookupMap SecretKey SecretProfile
  userSecretsIndex : Index AccountId SecretKey
  secretVaultBindings : LookupMap SecretKey AccountId
  paymentKeyNonceFloors : LookupMap AccountId Nat

/-- Projects, their versions by uuid, the index by owner, and the agreements to take a project over. -/
structure Registry where
  projects : LookupMap String Project
  projectVersions : LookupMap String (LookupMap String VersionInfo)
  userProjectsIndex : Index AccountId String
  nextProjectId : Nat
  projectTransferAcceptances : LookupMap TransferAcceptance Nat

/-- What curated projects charge. -/
structure PriceTable where
  projectPricing : LookupMap String ProjectPricing

/-- Wallet policies with their owner index, refund beneficiaries and versions. -/
structure PolicyStore where
  walletPolicies : LookupMap String WalletPolicyEntry
  walletOwnerIndex : Index AccountId String
  storageRefundTo : LookupMap StorageItem AccountId
  policyMeta : LookupMap String PolicyMeta

/-- The contract. -/
structure Contract extends Config, Ledger, SecretStore, Registry, PriceTable, PolicyStore

/-- `Contract::new`. -/
def Contract.new (ownerId : AccountId) (operatorId : Option AccountId)
    (eventStandard eventVersion : Option String) : Contract where
  ownerId := ownerId
  operatorId := operatorId.getD ownerId
  paused := false
  eventStandard := eventStandard.getD "near-outlayer"
  eventVersion := eventVersion.getD "1.0.0"
  baseFee := 1000000000000000000000
  perMillionInstructionsFee := 100000000000000
  perMsFee := 100000000000000000
  perCompileMsFee := 100000000000000000
  baseFeeUsd := 1000
  perMillionInstructionsFeeUsd := 1
  perSecFeeUsd := 1
  perCompileMsFeeUsd := 10
  paymentTokenContract := none
  subscriptionPlans := []
  nextRequestId := 0
  pendingRequests := ∅
  totalExecutions := 0
  totalFeesCollected := 0
  developerEarnings := ∅
  userStablecoinBalances := ∅
  secretsStorage := ∅
  userSecretsIndex := ∅
  secretVaultBindings := ∅
  paymentKeyNonceFloors := ∅
  projects := ∅
  projectVersions := ∅
  userProjectsIndex := ∅
  nextProjectId := 0
  projectTransferAcceptances := ∅
  projectPricing := ∅
  walletPolicies := ∅
  walletOwnerIndex := ∅
  storageRefundTo := ∅
  policyMeta := ∅

/-! ## Checks every entry point shares -/

/-- The contract is not paused. -/
def assertNotPaused (c : Config) : Res Unit := require (c.paused = false) "Contract is paused"

/-- Only the operator goes on. -/
def assertOperator (env : Env) (c : Config) : Res Unit :=
  require (env.predecessor = c.operatorId) "Only operator can call this"

/-- Only the owner goes on. -/
def assertOwner (env : Env) (c : Config) : Res Unit :=
  require (env.predecessor = c.ownerId) "Only owner can call this method"

/-- Log an event under the contract's event standard. -/
def emitEvent (c : Config) (data : EventData) : Effect := .event c.eventStandard c.eventVersion data

/-- An event under the contract's standard and version. -/
def emitSystemEvent (c : Config) (e : SystemEvent) : StorageEffect := .event c.eventStandard c.eventVersion e

/-! ## Prices of a run -/

/-- What a run with these metrics costs. -/
def calculateCost (c : Config) (metrics : ResourceMetrics) : Res Nat := do
  let instructionCost ← mul 128 (metrics.instructions / 1000000) c.perMillionInstructionsFee
  let timeCost ← mul 128 metrics.timeMs c.perMsFee
  let compileCost ← match metrics.compileTimeMs with
    | some ms => mul 128 ms c.perCompileMsFee
    | none    => pure 0
  let s₁ ← add 128 c.baseFee instructionCost
  let s₂ ← add 128 s₁ timeCost
  add 128 s₂ compileCost

/-- The worst-case cost for the requested limits. -/
def estimateCost (c : Config) (limits : ResourceLimits) : Res Nat := do
  let instructions := limits.maxInstructions.getD 1000000000
  let seconds := limits.maxExecutionSeconds.getD 60
  let timeMs ← mul 64 seconds 1000
  let instructionCost ← mul 128 (instructions / 1000000) c.perMillionInstructionsFee
  let timeCost ← mul 128 timeMs c.perMsFee
  let s₁ ← add 128 c.baseFee instructionCost
  add 128 s₁ timeCost

end Outlayer
