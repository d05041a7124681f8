import Outlayer.Vault.Contract
import Outlayer.Lib.Run

/-!
# `Vault.Chain` — the vault on its account

The account has access keys, and what the vault asks for is in flight until it comes to pass: a view the DAO has
not answered, a batch of key actions not applied yet, a callback not run. `Chain.next` is everything that can
happen, in any order. A batch is applied whole or not at all; a callback that panics uses up its receipt and
changes nothing. Whoever holds a full-access key changes keys directly.
-/

namespace Outlayer
open Checked Collections Runs

namespace Vault

/-! ## Access keys -/

/-- How a key came onto the account: with the deployment, by `callback_add_tee_key`, or otherwise. -/
inductive KeyOrigin
  | initial
  | registered
  | other
deriving DecidableEq

/-- The key of a keystore worker. -/
def KeyOrigin.isTee : KeyOrigin → Bool
  | .initial    => true
  | .registered => true
  | .other      => false

/-- An access key of the vault's account, with who put it there. -/
structure AccessKey where
  permission : Permission
  origin : KeyOrigin
deriving DecidableEq

/-- The account's access keys. -/
abbrev Keys := LookupMap PublicKey AccessKey

/-- What a receipt does to the account's keys. -/
inductive KeyAction
  | addKey (publicKey : PublicKey) (permission : Permission)
  | deleteKey (publicKey : PublicKey)
deriving DecidableEq

/-- One key action: a key that is there cannot be added, one that is not there cannot be deleted. -/
def KeyAction.apply (origin : KeyOrigin) (keys : Keys) : KeyAction → Option Keys
  | .addKey k permission => if k ∈ keys then none else some (keys.insert k ⟨permission, origin⟩)
  | .deleteKey k         => if k ∈ keys then some (keys.erase k) else none

/-- A batch of key actions: all of them or none. -/
def applyBatch (origin : KeyOrigin) (keys : Keys) : List KeyAction → Option Keys
  | []      => some keys
  | a :: as => (a.apply origin keys).bind fun keys => applyBatch origin keys as

/-- The permission of a worker's key. -/
def teePermission (account : AccountId) : Permission := .functionCall account "request_master" none

/-- The key actions of a promise, and whose keys they add. -/
def Promise.batch (account : AccountId) : Promise → Option (KeyOrigin × List KeyAction)
  | .addTeeKey k       => some (.registered, [.addKey k (teePermission account)])
  | .deleteKeys ks     => some (.other, ks.map .deleteKey)
  | .swap deleted k _  => some (.other, deleted.map .deleteKey ++ [.addKey k .fullAccess])
  | .addKey k p        => some (.other, [.addKey k p])
  | _                  => none

/-! ## Calls -/

/-- A call of a public method that can change the state or ask for something. -/
inductive Call
  | proposeTeeKey (publicKey : PublicKey)
  | requestMaster (request : String)
  | clearUnusedTeeKeys (publicKeys : List PublicKey)
  | initiateRecovery
  | unilateralInitiateRecovery
  | setExitWindow (newWindowSecs : Nat)
  | finalizeRecovery (newParentPubkey : PublicKey)
  | unlockedAddKey (publicKey : PublicKey) (fullAccess : Bool) (allowance : Option Nat)
deriving DecidableEq

/-- The body of a call. -/
def runCall (env : Env) (current : AccountId) (v : Vault) : Call → Res (Vault × Outcome)
  | .proposeTeeKey k => v.proposeTeeKey k
  | .requestMaster request => requestMaster env current v request
  | .clearUnusedTeeKeys ks => clearUnusedTeeKeys env v ks
  | .initiateRecovery => v.initiateRecovery
  | .unilateralInitiateRecovery => unilateralInitiateRecovery env v
  | .setExitWindow secs => setExitWindow env v secs
  | .finalizeRecovery k => finalizeRecovery env v k
  | .unlockedAddKey k fullAccess allowance => unlockedAddKey env current v k fullAccess allowance

/-- Calls of methods that only read the vault. -/
def Call.readsOnly : Call → Bool
  | .requestMaster _ => true
  | _                => false

/-- A call as the generated entry point runs it: no method that writes accepts a deposit. -/
def exec (env : Env) (current : AccountId) (v : Vault) (call : Call) : Res (Vault × Outcome) := do
  require (call.readsOnly = true ∨ env.attachedDeposit = 0) "Method doesn't accept deposit"
  runCall env current v call

/-! ## Callbacks -/

/-- What comes back from a view of the DAO. -/
inductive Answer
  | value (b : Bool)
  | failed
  | unreadable
deriving DecidableEq

/-- What a callback is handed: nothing when the view failed. -/
def Answer.result : Answer → Res (Option Bool)
  | .value b    => pure (some b)
  | .failed     => pure none
  | .unreadable => throw "Failed to deserialize callback using JSON"

/-- What is in flight: a promise, or the callback of a swap with the swap's result. -/
inductive Receipt
  | promise (p : Promise)
  | swapped (cessation ok : Bool)
deriving DecidableEq

/-- The callback a receipt ends in. -/
def Receipt.callback (env : Env) (v : Vault) (answer : Answer) : Receipt → Option (Res (Vault × Outcome))
  | .promise (.isKeystoreApproved k) => some (answer.result >>= v.callbackAddTeeKey k)
  | .promise .isCeasedToInitiate     => some (answer.result >>= callbackInitiate env v)
  | .promise (.isCeasedToFinalize k) => some (answer.result >>= fun r => pure (callbackFinalize env v k r))
  | .swapped cessation ok            => some (pure (v.callbackAfterSwap cessation ok))
  | _                                => none

/-- The receipt ends in a callback. -/
def Receipt.endsInCallback : Receipt → Bool
  | .promise (.isKeystoreApproved _) | .promise .isCeasedToInitiate | .promise (.isCeasedToFinalize _)
  | .swapped _ _ => true
  | _ => false

/-! ## The chain -/

/-- A vault on its account: its state, its keys and the receipts under way. -/
structure Chain where
  account : AccountId
  vault : Vault
  keys : Keys
  inFlight : LookupMap Nat Receipt
  nextReceipt : Nat

/-- Right after the deployment the only key is that of the worker named to `new`. -/
def Chain.deploy (account : AccountId) (v : Vault) : Chain where
  account := account
  vault := v
  keys := match v.initialTeeKey with
    | none   => ∅
    | some k => (∅ : Keys).insert k ⟨teePermission account, .initial⟩
  inFlight := ∅
  nextReceipt := 0

/-- Put a receipt in flight. -/
def Chain.send (w : Chain) (r : Receipt) : Chain :=
  { w with inFlight := w.inFlight.insert w.nextReceipt r, nextReceipt := w.nextReceipt + 1 }

/-- The chain with a receipt used up. -/
def Chain.spend (w : Chain) (n : Nat) : Chain := { w with inFlight := w.inFlight.erase n }

/-- The chain after an execution of the contract. The call of the MPC contract does not come back to it. -/
def Chain.after (w : Chain) (v : Vault) (o : Outcome) : Chain :=
  match o.promise with
  | none                             => { w with vault := v }
  | some (.requestAppPrivateKey _ _) => { w with vault := v }
  | some p                           => { w with vault := v }.send (.promise p)

/-- Everything that can happen. A batch may be `refused`, for want of balance; a callback may run out of
    gas. -/
inductive Event
  | call (env : Env) (call : Call)
  | callback (env : Env) (receipt : Nat) (answer : Answer)
  | outOfGas (receipt : Nat)
  | batch (receipt : Nat) (refused : Bool)
  | signed (signer : PublicKey) (actions : List KeyAction)

/-- A callback runs. -/
def Chain.resume (w : Chain) (n : Nat) (run : Res (Vault × Outcome)) : Chain × Outcome :=
  match run with
  | .ok (v, o) => ((w.spend n).after v o, o)
  | .error _   => (w.spend n, {})

/-- What follows a batch: a swap reports its result. -/
def Chain.report (w : Chain) (p : Promise) (ok : Bool) : Chain :=
  match p with
  | .swap _ _ cessation => w.send (.swapped cessation ok)
  | _                   => w

/-- A batch of key actions is executed. -/
def Chain.runBatch (w : Chain) (n : Nat) (p : Promise) (refused : Bool) (origin : KeyOrigin)
    (actions : List KeyAction) : Chain :=
  -- one action that fails undoes the whole batch
  match (if refused then none else applyBatch origin w.keys actions) with
  | some keys => ({ w.spend n with keys := keys }).report p true
  | none      => (w.spend n).report p false

/-- One step. -/
def Chain.next (w : Chain) : Event → Option (Chain × Outcome)
  | .call env call =>
      match exec env w.account w.vault call with
      | .ok (v, o) => some (w.after v o, o)
      | .error _   => none
  | .callback env n answer => do
      let r ← w.inFlight.lookup n
      let run ← r.callback env w.vault answer
      some (w.resume n run)
  | .outOfGas n => do
      let r ← w.inFlight.lookup n
      if r.endsInCallback then some (w.spend n, {}) else none
  | .batch n refused =>
      match w.inFlight.lookup n with
      | some (.promise p) => (p.batch w.account).map fun b => (w.runBatch n p refused b.1 b.2, {})
      | _                 => none
  | .signed signer actions =>
      -- a function-call key signs no key actions
      match w.keys.lookup signer with
      | some ⟨.fullAccess, _⟩ => (applyBatch .other w.keys actions).map fun keys => ({ w with keys }, {})
      | _                     => none

/-- A step as it happened. -/
abbrev Step := Transition Chain Event Outcome

/-- The histories of a deployed vault: the steps since `new`, and the chain they lead to. -/
def Chain.History (account parent keystoreDao mpcContract : AccountId) (initialTeePubkey : Option PublicKey)
    (initialExitWindow : Option Nat) (tr : List Step) (w : Chain) : Prop :=
  ∃ v, new account parent keystoreDao mpcContract initialTeePubkey initialExitWindow = .ok v ∧
    Run Chain.next (Chain.deploy account v) tr w

end Vault

end Outlayer
