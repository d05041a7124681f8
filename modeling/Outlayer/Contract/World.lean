import Outlayer.Contract.Admin
import Outlayer.Lib.Run

/-!
# `Contract.World` — the contract on the chain

The contract does not act alone: a yield it creates comes back as a callback, resumed by the operator or timed
out, and a token transfer it makes comes back as a result. `World` is the contract together with what is in
flight, and `World.next` is everything that can happen to it: a public call, the delivery of a yield, the
result of a withdrawal, in any order. A call that panics changes nothing and is not a step; a callback that
panics still uses up its receipt.
-/

namespace Outlayer
open Text Checked Collections Runs

/-! ## The public interface -/

/-- A call of a public method that can change the state. -/
inductive Call
  | requestExecution (a : RequestArgs)
  | submitExecutionOutput (requestId : Nat) (output : ExecutionOutput)
  | submitExecutionOutputAndResolve (requestId : Nat) (output : ExecutionOutput) (success : Bool)
      (error : Option String) (resourcesUsed : ResourceMetrics) (compilationNote : Option String)
  | resolveExecution (requestId : Nat) (response : ExecutionResponse)
  | cancelStaleExecution (requestId : Nat)
  | withdrawDeveloperEarnings
  | ftOnTransfer (senderId : AccountId) (amount : Nat) (msg : Option FtTransferAction)
  | resumeTopup (dataId : String) (result : TopUpResult)
  | deletePaymentKey (nonce : Nat)
  | resumeDeletePaymentKey (dataId : String) (result : DeletePaymentKeyResult)
  | topUpPaymentKeyWithNear (nonce : Nat) (swapContractId : AccountId)
  | topUpPaymentKeyWithToken (nonce : Nat) (tokenId : AccountId) (amount : Nat) (swapContractId : AccountId)
  | storeSecrets (accessor : SecretAccessor) (profile encryptedSecrets : String) (access : AccessCondition)
      (vaultId : Option AccountId)
  | storeAgentSecret (agentPubkey : String) (accessor : SecretAccessor) (profile encryptedSecrets : String)
      (access : AccessCondition) (vaultId : Option AccountId) (walletSignature : String)
  | deleteAgentSecret (agentPubkey : String) (accessor : SecretAccessor) (profile walletSignature : String)
  | deleteSecrets (accessor : SecretAccessor) (profile : String)
  | unbindSecretVault (accessor : SecretAccessor) (profile : String)
  | updateAccess (accessor : SecretAccessor) (profile : String) (newAccess : AccessCondition)
  | createProject (name : String) (source : CodeSource)
  | addVersion (projectName : String) (source : CodeSource) (setActive : Bool)
  | setActiveVersion (projectName versionKey : String)
  | removeVersion (projectName versionKey : String)
  | deleteProject (projectName : String)
  | acceptProjectTransfer («from» : AccountId) (name : String)
  | revokeProjectTransfer («from» : AccountId) (name : String)
  | transferProject (projectName : String) (newOwner : AccountId)
  | storeWalletPolicy (walletPubkey encryptedData walletSignature : String) (version : Nat) (locked : Bool)
      (validUntil : Nat) (storageRefundTo : Option AccountId)
  | freezeWallet (walletPubkey : String)
  | unfreezeWallet (walletPubkey : String)
  | deleteWalletPolicy (walletPubkey : String)
  | setStorageRefundTo (item : StorageItem) (storageRefundTo : AccountId)
  | setOwner (newOwnerId : AccountId)
  | setOperator (newOperatorId : AccountId)
  | setPaused (paused : Bool)
  | setPricing (p : PricingArgs)
  | setSubscriptionPlans (plans : List SubscriptionPlan)
  | setProjectPricing (projectId : String) (pricing : ProjectPricing)
  | removeProjectPricing (projectId : String)
  | setPaymentTokenContract (tokenContract : Option AccountId)
  | emergencyCancelExecution (requestId : Nat)
  | setEventMetadata (standard version : Option String)
  | cancelPendingRequests (requestIds : List Nat)
  | clearAllPendingRequests (limit : Option Nat)

/-- The methods that accept a deposit. -/
def Call.payable : Call → Bool
  | .requestExecution _ | .withdrawDeveloperEarnings | .deletePaymentKey _
  | .topUpPaymentKeyWithNear _ _ | .storeSecrets _ _ _ _ _ | .storeAgentSecret _ _ _ _ _ _ _
  | .updateAccess _ _ _ | .createProject _ _ | .addVersion _ _ _ | .acceptProjectTransfer _ _
  | .storeWalletPolicy _ _ _ _ _ _ _ => true
  | _ => false

/-! ## What a method runs on -/

/-- A computation on one part of the contract. -/
inductive PartRun
  | config (r : Res Config)
  | ledger (r : Res (Ledger × List Effect))
  | secrets (r : Res (SecretStore × List StorageEffect))
  | registry (r : Res (Registry × List StorageEffect))
  | pricing (r : Res PriceTable)
  | policies (r : Res (PolicyStore × List StorageEffect))
  | emits (r : Res (List Effect))

/-- Put the part that was computed back into the contract. -/
def PartRun.commit (c : Contract) : PartRun → Res (Contract × List Effect)
  | .config r   => do
      let part ← r
      pure ({ c with toConfig := part }, [])
  | .ledger r   => do
      let (part, effects) ← r
      pure ({ c with toLedger := part }, effects)
  | .secrets r  => do
      let (part, effects) ← r
      pure ({ c with toSecretStore := part }, effects.map .storage)
  | .registry r => do
      let (part, effects) ← r
      pure ({ c with toRegistry := part }, effects.map .storage)
  | .pricing r  => do
      let part ← r
      pure ({ c with toPriceTable := part }, [])
  | .policies r => do
      let (part, effects) ← r
      pure ({ c with toPolicyStore := part }, effects.map .storage)
  | .emits r    => do
      let effects ← r
      pure (c, effects)

/-- The body of a call. -/
def runCall (H : Host) (env : Env) (c : Contract) : Call → PartRun
  | .requestExecution a => .ledger (requestExecution H env c a)
  | .submitExecutionOutput id output => .ledger (submitExecutionOutput env c id output)
  | .submitExecutionOutputAndResolve id output success error used note =>
      .ledger (submitExecutionOutputAndResolve env c id output success error used note)
  | .resolveExecution id response => .ledger (resolveExecution env c id response)
  | .cancelStaleExecution id => .ledger (cancelStaleExecution env c id)
  | .withdrawDeveloperEarnings => .ledger (withdrawDeveloperEarnings env c)
  | .ftOnTransfer senderId amount msg => .ledger (ftOnTransfer env c senderId amount msg)
  | .resumeTopup dataId result => .emits (resumeTopup env c dataId result)
  | .deletePaymentKey nonce => .emits (deletePaymentKey env c nonce)
  | .resumeDeletePaymentKey dataId result => .emits (resumeDeletePaymentKey env c dataId result)
  | .topUpPaymentKeyWithNear nonce swap => .emits (topUpPaymentKeyWithNear env c nonce swap)
  | .topUpPaymentKeyWithToken _ _ _ _ => .emits topUpPaymentKeyWithToken
  | .storeSecrets accessor profile encrypted access vaultId =>
      .secrets (storeSecrets H env c accessor profile encrypted access vaultId)
  | .storeAgentSecret agent accessor profile encrypted access vaultId signature =>
      .secrets (storeAgentSecret H env c agent accessor profile encrypted access vaultId signature)
  | .deleteAgentSecret agent accessor profile signature =>
      .secrets (deleteAgentSecret H env c agent accessor profile signature)
  | .deleteSecrets accessor profile => .secrets (deleteSecrets H env c accessor profile)
  | .unbindSecretVault accessor profile => .secrets (unbindSecretVault H env c accessor profile)
  | .updateAccess accessor profile access => .secrets (updateAccess H env c accessor profile access)
  | .createProject name source => .registry (createProject env c name source)
  | .addVersion name source setActive => .registry (addVersion env c name source setActive)
  | .setActiveVersion name key => .registry (setActiveVersion env c name key)
  | .removeVersion name key => .registry (removeVersion env c name key)
  | .deleteProject name => .registry (deleteProject env c name)
  | .acceptProjectTransfer owner name => .registry (acceptProjectTransfer env c owner name)
  | .revokeProjectTransfer owner name => .registry (revokeProjectTransfer env c owner name)
  | .transferProject name newOwner => .registry (transferProject env c name newOwner)
  | .storeWalletPolicy key data signature version locked validUntil refund =>
      .policies (storeWalletPolicy H env c key data signature version locked validUntil refund)
  | .freezeWallet key => .policies (freezeWallet env c key)
  | .unfreezeWallet key => .policies (unfreezeWallet env c key)
  | .deleteWalletPolicy key => .policies (deleteWalletPolicy env c key)
  | .setStorageRefundTo item account => .policies (setStorageRefundTo env c item account)
  | .setOwner id => .config (setOwner env c.toConfig id)
  | .setOperator id => .config (setOperator env c.toConfig id)
  | .setPaused paused => .config (setPaused env c.toConfig paused)
  | .setPricing p => .config (setPricing env c.toConfig p)
  | .setSubscriptionPlans plans => .config (setSubscriptionPlans env c.toConfig plans)
  | .setProjectPricing id pricing => .pricing (setProjectPricing env c id pricing)
  | .removeProjectPricing id => .pricing (removeProjectPricing env c id)
  | .setPaymentTokenContract token => .config (setPaymentTokenContract env c.toConfig token)
  | .emergencyCancelExecution id => .ledger (emergencyCancelExecution env c id)
  | .setEventMetadata standard version => .config (setEventMetadata env c.toConfig standard version)
  | .cancelPendingRequests ids => .ledger (cancelPendingRequests env c ids)
  | .clearAllPendingRequests limit => .ledger (clearAllPendingRequests env c limit)

/-- A call as the generated entry point runs it: a deposit is refused where none is accepted. -/
def exec (H : Host) (env : Env) (c : Contract) (call : Call) : Res (Contract × List Effect) := do
  require (call.payable = true ∨ env.attachedDeposit = 0) "Method doesn't accept deposit"
  (runCall H env c call).commit c

/-! ## Callbacks -/

/-- Read a resumption as an execution response. -/
def YieldPayload.asExecutionResponse : YieldPayload → Option ExecutionResponse
  | .executionResponse r => some r
  | _                    => none

/-- Read a resumption as a top-up result; a refused deletion is spelled like a refused top-up. -/
def YieldPayload.asTopUpResult : YieldPayload → Option TopUpResult
  | .topUpResult r                       => some r
  | .deletePaymentKeyResult (.error msg) => some (.error msg)
  | _                                    => none

/-- Read a resumption as a deletion result. -/
def YieldPayload.asDeletePaymentKeyResult : YieldPayload → Option DeletePaymentKeyResult
  | .deletePaymentKeyResult r    => some r
  | .topUpResult (.error msg)    => some (.error msg)
  | _                            => none

/-- What a callback is handed: nothing when the yield timed out, otherwise the decoded payload. -/
def callbackResult {α : Type} (decode : YieldPayload → Option α) (payload : Option YieldPayload) :
    Res (Option α) :=
  match payload with
  | none   => pure none
  | some p => do
      let r ← expect (decode p) "Failed to deserialize callback using JSON"
      pure (some r)

/-- The body of a callback. -/
def runCallback (H : Host) (env : Env) (c : Contract) (payload : Option YieldPayload) :
    YieldCallback → PartRun
  | .onExecutionResponse data => .ledger do
      let response ← callbackResult YieldPayload.asExecutionResponse payload
      onExecutionResponse H env c data response
  | .onTopUpResponse owner nonce amount => .secrets do
      let result ← callbackResult YieldPayload.asTopUpResult payload
      pure (onTopUpResponse env c.toSecretStore owner nonce amount result)
  | .onDeletePaymentKeyResponse owner nonce => .secrets do
      let result ← callbackResult YieldPayload.asDeletePaymentKeyResult payload
      onDeletePaymentKeyResponse c.toSecretStore owner nonce result

/-! ## The world -/

/-- A yield waiting for its callback, with what it was resumed with. -/
structure Yield where
  callback : YieldCallback
  payload : Option YieldPayload

/-- A withdrawal whose result is not known yet. -/
structure Withdrawal where
  developer : AccountId
  amount : Nat

/-- The contract on its chain: the yields that wait, the withdrawals under way and the next receipt. -/
structure World where
  contract : Contract
  yields : LookupMap CryptoHash Yield
  withdrawals : LookupMap Nat Withdrawal
  nextReceipt : Nat

/-- The chain right after deployment. -/
def World.deploy (c : Contract) : World := { contract := c, yields := ∅, withdrawals := ∅, nextReceipt := 0 }

/-- Resume a yield. One that was resumed keeps its first resumption. -/
def resumeYield (yields : LookupMap CryptoHash Yield) (dataId : CryptoHash) (payload : YieldPayload) :
    LookupMap CryptoHash Yield :=
  match yields.lookup dataId with
  | none   => yields
  | some y => yields.insert dataId { y with payload := some (y.payload.getD payload) }

/-- What an effect puts in flight. -/
def World.apply (w : World) : Effect → World
  | .yieldCreate dataId _ callback => { w with yields := w.yields.insert dataId ⟨callback, none⟩ }
  | .yieldResume dataId payload => { w with yields := resumeYield w.yields dataId payload }
  | .withdrawal _ receiver amount =>
      { w with
        withdrawals := w.withdrawals.insert w.nextReceipt ⟨receiver, amount⟩
        nextReceipt := w.nextReceipt + 1 }
  | _ => w

/-- The world after a contract execution that ended in `c` with `effects`. -/
def World.after (w : World) (c : Contract) (effects : List Effect) : World :=
  effects.foldl World.apply { w with contract := c }

/-- How a yield comes back. A callback that runs out of gas uses up its receipt and does nothing else. -/
inductive Delivery
  | resumed
  | timedOut
  | outOfGas

/-- Everything that can happen. -/
inductive Event
  | call (env : Env) (call : Call)
  | yielded (env : Env) (dataId : CryptoHash) (delivery : Delivery)
  | withdrawn (receipt : Nat) (transferOk : Bool)

/-- The context of a call as the chain completes it: what can be resumed is what is in flight. -/
def World.seenBy (w : World) (env : Env) : Env := { env with waiting := fun d => decide (d ∈ w.yields) }

/-- The world with a yield's receipt used up. -/
def World.spend (w : World) (dataId : CryptoHash) : World := { w with yields := w.yields.erase dataId }

/-- A public call. The yield it may create is new. -/
def World.call (H : Host) (w : World) (env : Env) (call : Call) : Option (World × List Effect) :=
  if env.dataId ∈ w.yields then none
  else
    -- a call that panics changes nothing and is no step
    match exec H (w.seenBy env) w.contract call with
    | .ok (c, effects) => some (w.after c effects, effects)
    | .error _         => none

/-- Run the callback of a yield that came back with `payload`. -/
def World.callback (H : Host) (w : World) (env : Env) (dataId : CryptoHash) (y : Yield)
    (payload : Option YieldPayload) : World × List Effect :=
  match (runCallback H env w.contract payload y.callback).commit w.contract with
  | .ok (c, effects) => ((w.spend dataId).after c effects, effects)
  -- a panic undoes what the callback wrote, not the use of its receipt
  | .error _         => (w.spend dataId, [])

/-- The delivery of a yield. -/
def World.deliver (H : Host) (w : World) (env : Env) (dataId : CryptoHash) (delivery : Delivery) :
    Option (World × List Effect) :=
  match w.yields.lookup dataId with
  | none    => none
  | some y  =>
      match delivery with
      | .outOfGas => some (w.spend dataId, [])
      | .timedOut => some (w.callback H env dataId y none)
      -- a yield that nobody resumed has nothing to come back with
      | .resumed  => if y.payload.isSome then some (w.callback H env dataId y y.payload) else none

/-- The result of a withdrawal. -/
def World.settleWithdrawal (w : World) (receipt : Nat) (transferOk : Bool) :
    Option (World × List Effect) :=
  match w.withdrawals.lookup receipt with
  | none   => none
  | some x =>
      -- used up whether or not the callback goes through
      let settled : World := { w with withdrawals := w.withdrawals.erase receipt }
      match onWithdrawDeveloperEarnings w.contract.toLedger x.developer x.amount transferOk with
      | .ok l    => some ({ settled with contract := { w.contract with toLedger := l } }, [])
      | .error _ => some (settled, [])

/-- One step of the world. -/
def World.next (H : Host) (w : World) : Event → Option (World × List Effect)
  | .call env call                => w.call H env call
  | .yielded env dataId delivery  => w.deliver H env dataId delivery
  | .withdrawn receipt transferOk => w.settleWithdrawal receipt transferOk

/-- A step as it happened. -/
abbrev Step := Transition World Event (List Effect)

/-- The histories of a deployed contract: the steps taken since `Contract::new`, and the world they lead to. -/
def World.History (H : Host) (owner : AccountId) (operator : Option AccountId)
    (standard version : Option String) : List Step → World → Prop :=
  Run (World.next H) (World.deploy (Contract.new owner operator standard version))

end Outlayer
