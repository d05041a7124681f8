import Outlayer.Contract.Secrets
import Outlayer.Contract.State
import Outlayer.Lib.Json

/-!
# `Contract.Payment` — prices, incoming tokens, payment keys and developer earnings

What a priced project charges is read off the operation in a request's body; what was attached is divided into change,
refund and developer money, and that between author and owner.

Token transfers arrive at `ftOnTransfer`. A top-up and the deletion of a payment key go through a yield: the
call creates it and announces it, the operator resumes it, and the callback settles it. Earnings leave through
a token transfer whose callback restores them when it failed.
-/

namespace Outlayer
open Text Checked Collections Balances

/-! ## Prices -/

/-- The field a priced project's request carries, at the top level. -/
def operationField : String := "operation"

/-- The longest input a priced project takes. -/
def maxPricedInputBytes : Nat := inputDataEventThreshold

/-- Why a priced project's request could not be priced. -/
inductive OperationError
  | tooLarge (len : Nat)
  | notJson
  | missing
deriving DecidableEq

/-- What each refusal of an operation says. -/
def OperationError.message : OperationError → String
  | .tooLarge len =>
      "input_data is " ++ toString len ++ " bytes; a priced project accepts at most "
        ++ toString maxPricedInputBytes ++ ". Pass a reference rather than the payload."
  | .notJson => "input_data must be a JSON object naming \"" ++ operationField ++ "\"."
  | .missing =>
      "input_data must name \"" ++ operationField ++ "\" as a non-empty string at the top level."

/-- Read the operation out of a request body; every irregularity is a refusal. -/
def operationFromInput (H : Host) (inputData : Option String) : Except OperationError String :=
  let body := inputData.getD ""
  if body.utf8ByteSize > maxPricedInputBytes then .error (.tooLarge body.utf8ByteSize)
  else match Json.parse H.jsonNumber body with
    | none        => .error .notJson
    | some parsed =>
        match ((parsed.get operationField).bind Json.Value.asStr).map trim with
        | none   => .error .missing
        | some s => if s = "" then .error .missing else .ok s

/-- What an operation costs; `none` is "not sold", which is not the same as free. -/
def priceForOperation (pricing : ProjectPricing) (operation : String) : Option Nat :=
  (pricing.operations.find? fun o => o.operation = operation).map OperationPrice.priceUsd

/-- How a payment is shared between a project's author and the owner of the contract. -/
structure Split where
  authorUsd : Nat
  ownerUsd : Nat
deriving DecidableEq

/-- Divide a payment between the author and the owner; the rounding goes to the owner. -/
def splitPayment (paidUsd developerShareBp : Nat) : Res Split := do
  let bp := min developerShareBp 10000
  let scaled ← mul 128 paidUsd bp
  let authorUsd := scaled / 10000
  let ownerUsd ← sub paidUsd authorUsd
  pure ⟨authorUsd, ownerUsd⟩

/-- Divide what was attached: what goes back to the caller, and what the developers share. The guest's refund
    reaches into the price only, never into the change. -/
def settleAttached (attachedUsd priceUsd guestRefundUsd : Nat) : Nat × Nat :=
  let overpaid := attachedUsd - priceUsd
  let chargeable := attachedUsd - overpaid
  let guestRefund := min guestRefundUsd chargeable
  (overpaid + guestRefund, chargeable - guestRefund)

/-- Which plan a payment buys. -/
def planForSale (plans : List SubscriptionPlan) (planIndex amountUsd : Nat) : Option SubscriptionPlan :=
  (plans.find? fun p => p.index = planIndex ∧ p.active = true).filter fun p => amountUsd ≥ p.priceUsd

/-! ## Facts -/

/-- **Nothing is lost in a settlement:** the two parts make up what was attached. -/
theorem settleAttached_sum (attached price refund : Nat) :
    (settleAttached attached price refund).1 + (settleAttached attached price refund).2 = attached := by
  simp only [settleAttached]
  omega

/-- **Nothing is lost in a split:** the two parts make up what was paid. -/
theorem splitPayment_sum {paid bp : Nat} {s : Split} (h : splitPayment paid bp = .ok s) :
    s.authorUsd + s.ownerUsd = paid := by
  simp only [splitPayment, bind_eq_ok, mul_eq_ok, sub_eq_ok, pure_eq_ok] at h
  obtain ⟨_, -, _, ⟨hle, rfl⟩, rfl⟩ := h
  dsimp only
  omega

/-- The least a key is topped up with, the least NEAR that is wrapped for it and what is kept for its execution. -/
def minTopUpAmount : Nat := 10000
def minNearDeposit : Nat := 10000000000000000000000
def executionCost : Nat := 10000000000000000000000

/-- `wrap.near`. -/
def wnearContract : AccountId := ⟨"wrap.near", by decide⟩

/-- A `U128` as it is written in JSON. -/
def u128Json (n : Nat) : String := Json.quote (toString n)

/-- Keep the whole transfer: the answer is what goes back. -/
def keepEverything : Effect := .valueReturn (u128Json 0)

/-! ## Incoming transfers -/

/-- Wait for the worker to re-encrypt the key with its new balance. -/
def handleTopUp (env : Env) (c : Contract) (senderId : AccountId) (amount nonce : Nat) :
    Res (List Effect) := do
  require (amount ≥ minTopUpAmount)
    ("Minimum top-up is $0.01 (" ++ toString minTopUpAmount ++ " minimal units)")
  let secretProfile ← expect (c.secretsStorage.lookup (paymentKey senderId nonce))
    "Payment key not found. Create it first with store_secrets()"
  pure [.yieldCreate env.dataId topUpCallbackGas (.onTopUpResponse senderId nonce amount),
    .storage <| emitSystemEvent c.toConfig
      (.topUpPaymentKey env.dataId senderId nonce amount secretProfile.encryptedSecrets)]

/-- Credit a user's stablecoin balance. -/
def handleDepositBalance (l : Ledger) (senderId : AccountId) (amount : Nat) : Res (Ledger × List Effect) := do
  let balances ← credit 128 l.userStablecoinBalances senderId amount
  pure ({ l with userStablecoinBalances := balances }, [keepEverything])

/-- Sell a subscription; a refusal panics, and the token contract then returns the whole payment. -/
def handleBuySubscription (c : Contract) (owner payer : AccountId) (amount nonce planIndex : Nat) :
    Res (List Effect) := do
  let plan ← expect (planForSale c.subscriptionPlans planIndex amount)
    ("No plan " ++ toString planIndex ++ " on sale that " ++ toString amount
      ++ " covers. Check get_subscription_plans().")
  require ((c.secretsStorage.lookup (paymentKey owner nonce)).isSome)
    ("No payment key " ++ owner.name ++ ":" ++ toString nonce
      ++ ". Create it before buying a subscription for it.")
  pure [.storage <| emitSystemEvent c.toConfig (.subscriptionPurchased owner nonce plan.index amount payer),
    keepEverything]

/-- The token receiver. `msg` is the parsed action, `none` when the text is not one. -/
def ftOnTransfer (env : Env) (c : Contract) (senderId : AccountId) (amount : Nat)
    (msg : Option FtTransferAction) : Res (Ledger × List Effect) := do
  let configuredToken ← expect c.paymentTokenContract "Payment token contract not configured"
  require (env.predecessor = configuredToken)
    ("Invalid token contract. Expected: " ++ configuredToken.name ++ ", got: " ++ env.predecessor.name)
  let action ← expect msg
    "Invalid msg format. Expected: \x7b\"action\": \"top_up_payment_key\", \"nonce\": 0\x7d"
  match action with
  | .topUpPaymentKey nonce owner => do
      let effects ← handleTopUp env c (owner.getD senderId) amount nonce
      pure (c.toLedger, effects)
  | .depositBalance => handleDepositBalance c.toLedger senderId amount
  | .buySubscription nonce owner plan => do
      let effects ← handleBuySubscription c (owner.getD senderId) senderId amount nonce plan
      pure (c.toLedger, effects)

/-! ## Settling a top-up -/

/-- The top-up callback: `result` is absent when the yield timed out. The value returned is what goes back. -/
def onTopUpResponse (env : Env) (s : SecretStore) (owner : AccountId) (nonce amount : Nat)
    (result : Option TopUpResult) : SecretStore × List StorageEffect :=
  match result with
  | some (.success newEncryptedData) =>
      match s.secretsStorage.lookup (paymentKey owner nonce) with
      | some profile =>
          let updated : SecretProfile :=
            { profile with encryptedSecrets := newEncryptedData, updatedAt := env.blockTimestamp }
          ({ s with secretsStorage := s.secretsStorage.insert (paymentKey owner nonce) updated },
            [.valueReturn (u128Json 0)])
      -- deleted while the top-up was on its way: the tokens go back
      | none => (s, [.valueReturn (u128Json amount)])
  | some (.error _) => (s, [.valueReturn (u128Json amount)])
  | none            => (s, [.valueReturn (u128Json amount)])

/-- Decode the 32 bytes of a data id. -/
def decodeDataId (dataId : String) : Res CryptoHash := do
  let bytes ← expect (hexDecode dataId) "Invalid data_id hex"
  if h : bytes.toArray.size = 32 then pure ⟨bytes.toArray, h⟩
  else throw "Invalid data_id length"

/-- The operator's answer to a top-up, which resumes the yield its callback waits for. -/
def resumeTopup (env : Env) (c : Contract) (dataId : String) (result : TopUpResult) : Res (List Effect) := do
  require (env.predecessor = c.operatorId) "Only operator can resume topup"
  let hash ← decodeDataId dataId
  require (env.waiting hash = true)
    ("TopUp yield resume failed: no yield for data_id=" ++ dataId
      ++ " (timed out and refunded, or already resumed)")
  pure [.yieldResume hash (.topUpResult result)]

/-! ## Deleting a payment key -/

/-- The owner of a payment key asks for its deletion; the row stays until the operator answers. -/
def deletePaymentKey (env : Env) (c : Contract) (nonce : Nat) : Res (List Effect) := do
  let caller := env.predecessor
  require (env.attachedDeposit ≥ 1) "Requires attached deposit of at least 1 yoctoNEAR"
  require ((c.secretsStorage.lookup (paymentKey caller nonce)).isSome)
    ("Payment key not found: owner=" ++ caller.name ++ ", nonce=" ++ toString nonce)
  pure [.yieldCreate env.dataId deleteCallbackGas (.onDeletePaymentKeyResponse caller nonce),
    .storage <| emitSystemEvent c.toConfig (.deletePaymentKey env.dataId caller nonce)]

/-- The deletion callback: only a confirmed deletion removes the row. -/
def onDeletePaymentKeyResponse (s : SecretStore) (owner : AccountId) (nonce : Nat)
    (result : Option DeletePaymentKeyResult) : Res (SecretStore × List StorageEffect) :=
  match result with
  | some .success => do
      -- a row that is already gone panics, and the floor stays as it was
      let (s, effects) ← deleteSecretsInternal s (paymentKey owner nonce) owner owner
      pure (raisePaymentKeyNonceFloor s owner nonce, effects)
  | some (.error _) => pure (s, [])
  | none            => pure (s, [])

/-- The operator's answer to a deletion. -/
def resumeDeletePaymentKey (env : Env) (c : Contract) (dataId : String) (result : DeletePaymentKeyResult) :
    Res (List Effect) := do
  require (env.predecessor = c.operatorId) "Only operator can resume delete_payment_key"
  let hash ← decodeDataId dataId
  require (env.waiting hash = true)
    ("DeletePaymentKey yield resume failed: no yield for data_id=" ++ dataId
      ++ " (timed out, the key is kept, or already resumed)")
  pure [.yieldResume hash (.deletePaymentKeyResult result)]

/-! ## Top-ups through a swap -/

/-- The arguments of the swap run requested from the contract itself. -/
def tokenSwapArgs (owner : AccountId) (nonce : Nat) (tokenId amount swapContractId : String) : String :=
  let inputData := jsonObject
    [jsonField "amount" (Json.quote amount), jsonField "nonce" (toString nonce),
     jsonField "owner" (Json.quote owner.name), jsonField "swap_contract_id" (Json.quote swapContractId),
     jsonField "token_id" (Json.quote tokenId)]
  let source := jsonVariant "Project"
    [jsonField "project_id" (Json.quote "publishintent.near/payment-keys-with-intents"),
     jsonField "version_key" "null"]
  jsonObject
    [jsonField "input_data" (Json.quote inputData), jsonField "params" "null",
     jsonField "payer_account_id" "null",
     jsonField "resource_limits" (jsonObject
       [jsonField "max_execution_seconds" "120", jsonField "max_instructions" "10000000000",
        jsonField "max_memory_mb" "256"]),
     jsonField "response_format" (Json.quote "Json"),
     jsonField "secrets_ref" (jsonObject
       [jsonField "account_id" (Json.quote "publishintent.near"),
        jsonField "profile" (Json.quote "intents-swap")]),
     jsonField "source" source]

/-- Wrap the attached NEAR, hand it to the swap account, and ask for the swap run. -/
def topUpPaymentKeyWithNear (env : Env) (c : Contract) (nonce : Nat) (swapContractId : AccountId) :
    Res (List Effect) := do
  assertNotPaused c.toConfig
  let caller := env.predecessor
  -- saturating: too small a deposit is refused by the minimum
  let wrapAmount := env.attachedDeposit - executionCost
  require (wrapAmount ≥ minNearDeposit)
    ("Minimum deposit is " ++ toString minNearDeposit ++ " yoctoNEAR (0.01 NEAR) + "
      ++ toString executionCost ++ " yoctoNEAR (execution cost), got " ++ toString env.attachedDeposit
      ++ " yoctoNEAR")
  require ((c.secretsStorage.lookup (paymentKey caller nonce)).isSome)
    "Payment key not found. Create it first with store_secrets()"
  let needed ← add 128 c.baseFee 1
  require (executionCost ≥ needed)
    ("EXECUTION_COST (" ++ toString executionCost ++ ") must cover base_fee (" ++ toString c.baseFee
      ++ ") + ft_transfer deposit (1)")
  let transferArgs := jsonObject
    [jsonField "amount" (Json.quote (toString wrapAmount)),
     jsonField "receiver_id" (Json.quote swapContractId.name)]
  pure [.functionCall wnearContract "near_deposit" "" wrapAmount,
    .functionCall wnearContract "ft_transfer" transferArgs 1,
    .functionCall env.current "request_execution"
      (tokenSwapArgs caller nonce wnearContract.name (toString wrapAmount) swapContractId.name)
      15000000000000000000000]

/-- Topping up in another token is turned off. -/
def topUpPaymentKeyWithToken : Res (List Effect) :=
  throw ("top_up_payment_key_with_token is disabled (naive, front-runnable design). Top up with the stablecoin via "
    ++ "ft_on_transfer, or with NEAR via top_up_payment_key_with_near. See this method's doc-comment for the correct "
    ++ "fix.")

/-! ## Developer earnings -/

/-- Withdraw the caller's whole balance; the entry goes now and comes back if the transfer fails. -/
def withdrawDeveloperEarnings (env : Env) (c : Contract) : Res (Ledger × List Effect) := do
  require (env.attachedDeposit ≥ 1) "Requires attached deposit of at least 1 yoctoNEAR"
  let caller := env.predecessor
  let amount := balance c.developerEarnings caller
  require (amount > 0) "No earnings to withdraw"
  let tokenContract ← expect c.paymentTokenContract "Payment token contract not configured"
  pure ({ c.toLedger with developerEarnings := c.developerEarnings.erase caller },
    [.withdrawal tokenContract caller amount])

/-- The withdrawal callback. -/
def onWithdrawDeveloperEarnings (l : Ledger) (developer : AccountId) (amount : Nat) (transferOk : Bool) :
    Res Ledger :=
  if transferOk then pure l
  else do
    let earnings ← credit 128 l.developerEarnings developer amount
    pure { l with developerEarnings := earnings }

end Outlayer
