import Outlayer.Contract.Types
import Outlayer.Lib.Checked
import Outlayer.Lib.Collections

/-!
# `Vault.Contract` — the per-customer vault

A vault sits on a sub-account of its customer, the parent, and holds no key but those of the keystore workers.
There are two ways back to the parent's control, after the keystore DAO ceased and by the parent's own choice,
each with a delay; both end in one batch that deletes the workers' keys and adds the parent's. The contract
only asks for such batches: what becomes of them is in `Vault.Chain`.
-/

namespace Outlayer
open Checked Collections

/-- A public key as access keys are named by. -/
inductive PublicKey
  | ed25519 (data : Vector UInt8 32)
  | secp256k1 (data : Vector UInt8 64)
deriving DecidableEq

/-- The account is a direct sub-account of `parent`. -/
def AccountId.isSubAccountOf (a parent : AccountId) : Bool :=
  let suffix := '.' :: parent.name.toList
  let front := a.name.toList.take (a.name.toList.length - suffix.length)
  decide (front ++ suffix = a.name.toList) && !front.contains '.'

/-! ## State -/

/-- What a recovery was initiated for. -/
inductive RecoveryTrigger
  | cessation
  | unilateral
deriving DecidableEq

/-- A recovery in progress: when it may be finalized, and until when. -/
structure RecoveryState where
  initiatedAt : Nat
  finalizeAfter : Nat
  finalizeBefore : Nat
  trigger : RecoveryTrigger
deriving DecidableEq

/-- The contract's state. -/
structure Vault where
  parent : AccountId
  keystoreDao : AccountId
  mpcContract : AccountId
  initialTeeKey : Option PublicKey
  registeredTeeKeys : List PublicKey
  recovery : Option RecoveryState
  unlocked : Bool
  unilateralExitWindowSecs : Nat
deriving DecidableEq

namespace Vault

/-! ## Timing, as the mainnet build has it -/

/-- A second in nanoseconds. -/
def secondNs : Nat := 1000000000
/-- A day in seconds. -/
def daySecs : Nat := 24 * 60 * 60
/-- How long a recovery waits after the DAO's cessation. -/
def cessationDelayNs : Nat := 7 * daySecs * secondNs
/-- How long it may then be finalized. -/
def finalizeWindowNs : Nat := 7 * daySecs * secondNs
/-- How long a recovery of the parent's own waits, unless it is set otherwise. -/
def defaultUnilateralExitWindowSecs : Nat := daySecs
/-- The shortest such wait. -/
def minUnilateralExitWindowSecs : Nat := daySecs
/-- The longest such wait. -/
def maxUnilateralExitWindowSecs : Nat := 30 * daySecs
/-- The most keys on the list. -/
def maxRegisteredTeeKeys : Nat := 32

/-- The allowance of a function-call key of the parent's, in NEAR. -/
def defaultParentFcakAllowanceNear : Nat := 1

/-! ## What a method asks for -/

/-- What an access key may do; a function-call key without an allowance is not limited. -/
inductive Permission
  | fullAccess
  | functionCall (receiver : AccountId) (methods : String) (allowance : Option Nat)
deriving DecidableEq

/-- The promises of the vault, each with the callback it is chained to: three views of the DAO, four batches of
    key actions on the vault's own account, and the call of the MPC contract. -/
inductive Promise
  /-- `is_keystore_approved`, then `callback_add_tee_key` -/
  | isKeystoreApproved (publicKey : PublicKey)
  /-- `is_ceased`, then `callback_initiate` -/
  | isCeasedToInitiate
  /-- `is_ceased`, then `callback_finalize` -/
  | isCeasedToFinalize (newParentPubkey : PublicKey)
  | addTeeKey (publicKey : PublicKey)
  | deleteKeys (publicKeys : List PublicKey)
  /-- delete the workers' keys and add the parent's, then `callback_after_swap` -/
  | swap (deleted : List PublicKey) (newParentPubkey : PublicKey) (cessation : Bool)
  | addKey (publicKey : PublicKey) (permission : Permission)
  | requestAppPrivateKey (receiver : AccountId) (args : String)
deriving DecidableEq

/-- What a method does besides changing the state: logs, a promise, a value. -/
structure Outcome where
  logs : List String := []
  promise : Option Promise := none
  value : Option Bool := none
deriving DecidableEq

/-- The context of a call. -/
structure Env where
  predecessor : AccountId
  attachedDeposit : Nat
  blockTimestamp : Nat
  blockTimestamp_lt : blockTimestamp < 2 ^ 64

/-! ## Construction -/

/-- A wait between the shortest and the longest. -/
def assertExitWindowInRange (secs : Nat) : Res Unit :=
  require (minUnilateralExitWindowSecs ≤ secs ∧ secs ≤ maxUnilateralExitWindowSecs)
    ("exit window must be between " ++ toString minUnilateralExitWindowSecs ++ "s and "
      ++ toString maxUnilateralExitWindowSecs ++ "s")

/-- `new`, called on `current`. -/
def new (current parent keystoreDao mpcContract : AccountId) (initialTeePubkey : Option PublicKey)
    (initialExitWindow : Option Nat) : Res Vault := do
  require (current.isSubAccountOf parent = true) "vault account must be a direct sub-account of `parent`"
  let window := initialExitWindow.getD defaultUnilateralExitWindowSecs
  assertExitWindowInRange window
  pure { parent, keystoreDao, mpcContract, initialTeeKey := initialTeePubkey, registeredTeeKeys := []
         recovery := none, unlocked := false, unilateralExitWindowSecs := window }

/-! ## The workers' keys -/

/-- Ask the DAO whether a key may be registered. Anyone may. -/
def proposeTeeKey (v : Vault) (publicKey : PublicKey) : Res (Vault × Outcome) := do
  require (v.unlocked = false) "vault is unlocked — use unlocked_add_key instead"
  require (v.initialTeeKey ≠ some publicKey) "public key is already the initial TEE key — cannot re-register"
  require (publicKey ∉ v.registeredTeeKeys) "public key already registered"
  require (v.registeredTeeKeys.length < maxRegisteredTeeKeys)
    "TEE key limit reached (max 32) — deploy a fresh vault for further rotations"
  pure (v, { promise := some (.isKeystoreApproved publicKey) })

/-- Register a key the DAO approved; `result` is absent when the view failed. -/
def callbackAddTeeKey (v : Vault) (publicKey : PublicKey) (result : Option Bool) : Res (Vault × Outcome) := do
  let approved ← expect result
    ("keystore-dao cross-contract call failed — verify keystore_dao address "
      ++ "and that the contract exposes is_keystore_approved(public_key: String)")
  require (approved = true) "public key is not approved by the keystore DAO"
  -- what the method checked is checked again, except that the vault is locked
  require (v.initialTeeKey ≠ some publicKey) "public key is already the initial TEE key (race)"
  require (publicKey ∉ v.registeredTeeKeys) "public key already registered (race)"
  require (v.registeredTeeKeys.length < maxRegisteredTeeKeys) "TEE key limit reached (max 32)"
  pure ({ v with registeredTeeKeys := v.registeredTeeKeys ++ [publicKey] },
    { logs := ["vault_tee_key_added"], promise := some (.addTeeKey publicKey) })

/-- The proxy a worker's key calls: the vault calls the MPC contract for it. -/
def requestMaster (env : Env) (current : AccountId) (v : Vault) (request : String) : Res (Vault × Outcome) := do
  require (env.predecessor = current) "request_master is callable only via the vault's own access key"
  require (v.unlocked = false) "vault is unlocked"
  pure (v, { promise := some (.requestAppPrivateKey v.mpcContract ("\x7b\"request\":" ++ request ++ "\x7d")) })

/-- Take the named keys off the list, one by one. -/
def unlist (registered : List PublicKey) : List PublicKey → Res (List PublicKey)
  | []        => pure registered
  | pk :: pks => do
      require (pk ∈ registered) "key not in registered_tee_keys — read get_registered_keys() first"
      unlist (swapRemoveAt registered (registered.idxOf pk)) pks

/-- The parent drops keys of workers. They leave the list now and the account when the batch is applied. -/
def clearUnusedTeeKeys (env : Env) (v : Vault) (publicKeys : List PublicKey) : Res (Vault × Outcome) := do
  require (env.predecessor = v.parent) "only the parent account can clear TEE keys"
  require (publicKeys ≠ []) "no keys to remove"
  require publicKeys.Nodup "duplicate key in input — each pubkey must appear at most once"
  require (v.unlocked = true ∨ publicKeys.length < v.registeredTeeKeys.length)
    ("refusing to remove ALL TEE keys while vault is locked — would leave vault inoperable. "
      ++ "Either keep one or unlock first via recovery.")
  let registered ← unlist v.registeredTeeKeys publicKeys
  pure ({ v with registeredTeeKeys := registered },
    { logs := ["vault_tee_keys_cleared count=" ++ toString publicKeys.length]
      promise := some (.deleteKeys publicKeys) })

/-! ## Starting a recovery -/

/-- Ask the DAO whether it ceased. Anyone may. -/
def initiateRecovery (v : Vault) : Res (Vault × Outcome) := do
  require (v.unlocked = false) "vault is already unlocked"
  require (v.recovery = none) "recovery already in progress — wait for finalize_after or window expiry"
  pure (v, { promise := some .isCeasedToInitiate })

/-- The DAO has answered: the recovery begins if it has ceased. -/
def callbackInitiate (env : Env) (v : Vault) (result : Option Bool) : Res (Vault × Outcome) := do
  let ceased ← expect result
    ("keystore-dao cross-contract call failed — verify keystore_dao address "
      ++ "and that the contract exposes is_ceased() -> bool")
  require (ceased = true) "cannot initiate recovery — keystore DAO has not declared cessation"
  require (v.recovery = none) "recovery already in progress (race)"
  let finalizeAfter ← add 64 env.blockTimestamp cessationDelayNs
  let finalizeBefore ← add 64 finalizeAfter finalizeWindowNs
  let recovery : RecoveryState :=
    { initiatedAt := env.blockTimestamp, finalizeAfter, finalizeBefore, trigger := .cessation }
  pure ({ v with recovery := some recovery }, { logs := ["recovery_initiated_cessation"] })

/-- The parent begins a recovery by itself. -/
def unilateralInitiateRecovery (env : Env) (v : Vault) : Res (Vault × Outcome) := do
  require (v.unlocked = false) "vault is already unlocked"
  require (env.predecessor = v.parent) "only the parent account can initiate unilateral recovery"
  require (v.recovery = none) "recovery already in progress — only one recovery can be active at a time"
  let window ← mul 64 v.unilateralExitWindowSecs secondNs
  let finalizeAfter ← add 64 env.blockTimestamp window
  let finalizeBefore ← add 64 finalizeAfter finalizeWindowNs
  let recovery : RecoveryState :=
    { initiatedAt := env.blockTimestamp, finalizeAfter, finalizeBefore, trigger := .unilateral }
  pure ({ v with recovery := some recovery }, { logs := ["recovery_initiated_unilateral"] })

/-- The parent sets how long such a recovery waits. -/
def setExitWindow (env : Env) (v : Vault) (newWindowSecs : Nat) : Res (Vault × Outcome) := do
  require (env.predecessor = v.parent) "only the parent account can change the exit window"
  assertExitWindowInRange newWindowSecs
  pure ({ v with unilateralExitWindowSecs := newWindowSecs },
    { logs := ["exit_window_set_to_" ++ toString newWindowSecs ++ "_secs"] })

/-! ## Finishing a recovery -/

/-- The keys of a list that were not seen before, each once. -/
def unseen (seen : List PublicKey) : List PublicKey → List PublicKey
  | []      => []
  | k :: ks => if k ∈ seen then unseen seen ks else k :: unseen (k :: seen) ks

/-- The batch that hands the account over. The state changes when it succeeded, not before. -/
def dispatchSwap (v : Vault) (newParentPubkey : PublicKey) (cessation : Bool) : Promise :=
  .swap (unseen [] (v.initialTeeKey.toList ++ v.registeredTeeKeys)) newParentPubkey cessation

/-- The parent finalizes a recovery in its window; one past its window is dropped. -/
def finalizeRecovery (env : Env) (v : Vault) (newParentPubkey : PublicKey) : Res (Vault × Outcome) := do
  require (v.unlocked = false) "vault is already unlocked"
  require (env.predecessor = v.parent) "only the parent account can finalize recovery"
  let recovery ← expect v.recovery "no recovery in progress"
  require (env.blockTimestamp ≥ recovery.finalizeAfter) "recovery delay not yet elapsed"
  if env.blockTimestamp > recovery.finalizeBefore then
    -- too late: the call goes through and drops the recovery
    pure ({ v with recovery := none }, { logs := ["recovery_window_expired"], value := some false })
  else
    match recovery.trigger with
    | .cessation  => pure (v, { promise := some (.isCeasedToFinalize newParentPubkey) })
    | .unilateral => pure (v, { promise := some (v.dispatchSwap newParentPubkey false) })

/-- The DAO answered a finalization. It is the recovery there is now that is looked at. -/
def callbackFinalize (env : Env) (v : Vault) (newParentPubkey : PublicKey) (result : Option Bool) :
    Vault × Outcome :=
  match v.recovery with
  | none          => (v, { value := some false })
  | some recovery =>
      if env.blockTimestamp > recovery.finalizeBefore then
        ({ v with recovery := none }, { logs := ["recovery_window_expired"], value := some false })
      else
        match result with
        -- the DAO could not be asked: the recovery stays for another try
        | none       => (v, { logs := ["recovery_finalize_failed_dao_call"], value := some false })
        | some false =>
            ({ v with recovery := none }, { logs := ["recovery_cancelled_dao_revoked"], value := some false })
        | some true  => (v, { promise := some (v.dispatchSwap newParentPubkey true) })

/-- The keys were swapped, or not. -/
def callbackAfterSwap (v : Vault) (cessation ok : Bool) : Vault × Outcome :=
  if ok then
    -- both lists are emptied, whatever was listed since the batch was built
    ({ v with unlocked := true, recovery := none, initialTeeKey := none, registeredTeeKeys := [] },
      { logs := [if cessation then "recovery_finalized_cessation" else "recovery_finalized_unilateral"]
        value := some true })
  else (v, { logs := ["recovery_finalize_swap_failed"], value := some false })

/-- Once unlocked, the parent adds keys of its own. -/
def unlockedAddKey (env : Env) (current : AccountId) (v : Vault) (publicKey : PublicKey) (fullAccess : Bool)
    (allowance : Option Nat) : Res (Vault × Outcome) := do
  require (v.unlocked = true) "vault is not unlocked"
  require (env.predecessor = v.parent) "only the parent account can add keys after unlock"
  if fullAccess then pure (v, { promise := some (.addKey publicKey .fullAccess) })
  else do
    require (allowance ≠ some 0)
      ("allowance must be > 0; pass `null` for the 1 NEAR default, "
        ++ "or use full_access=true if you need unbounded authority")
    let limit := allowance.getD (defaultParentFcakAllowanceNear * 10 ^ 24)
    pure (v, { promise := some (.addKey publicKey (.functionCall current "" (some limit))) })

end Vault

end Outlayer
