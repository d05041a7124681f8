import Outlayer.Contract.State

/-!
# `Contract.Wallet` — wallet keys, wallet signatures and wallet policies

A policy is stored under the one canonical spelling of its wallet key, by whoever the wallet's own signature
names, with a version that makes each signature good for one write.
-/

namespace Outlayer
open Text Checked Collections

/-! ## Wallet keys -/

/-- The two curves a wallet's key may be on. -/
inductive WalletKeyType
  | ed25519
  | secp256k1
deriving DecidableEq

/-- A curve's word before the colon of a key. -/
def WalletKeyType.name : WalletKeyType → String
  | .ed25519   => "ed25519"
  | .secp256k1 => "secp256k1"

/-- Reads a curve's word. -/
def WalletKeyType.parse (s : String) : Option WalletKeyType :=
  if s = "ed25519" then some .ed25519 else if s = "secp256k1" then some .secp256k1 else none

/-- Split a text at its first colon. -/
def splitAtColon (s : String) : Option (String × String) :=
  match s.toList.dropWhile (· ≠ ':') with
  | []        => none
  | _ :: rest => some (String.ofList (s.toList.takeWhile (· ≠ ':')), String.ofList rest)

/-- Parse `ed25519:<hex32>` or `secp256k1:<hex33>`. -/
def parseWalletPubkey (walletPubkey : String) : Res (WalletKeyType × List UInt8) := do
  let (kind, hexStr) ← expect (splitAtColon walletPubkey)
    "Invalid public key format. Expected 'ed25519:<hex>' or 'secp256k1:<hex>'"
  let keyType ← expect (WalletKeyType.parse kind)
    ("Unsupported key type '" ++ kind ++ "'. Must be 'ed25519' or 'secp256k1'")
  let raw ← expect (hexDecode hexStr) "Invalid hex encoding in the public key"
  match keyType with
  | .ed25519 => do
      require (raw.length = 32) ("Ed25519 public key must be 32 bytes, got " ++ toString raw.length)
      pure (keyType, raw)
  | .secp256k1 => do
      require (raw.length = 33)
        ("Secp256k1 compressed public key must be 33 bytes, got " ++ toString raw.length)
      require (raw.head? = some 0x02 ∨ raw.head? = some 0x03)
        "Secp256k1 compressed key must start with 0x02 or 0x03"
      pure (keyType, raw)

/-- The one spelling of a wallet key that anything is stored under. -/
def canonicalWalletPubkey (walletPubkey : String) : Res String := do
  let (keyType, raw) ← parseWalletPubkey walletPubkey
  pure (keyType.name ++ ":" ++ hexEncode raw)

/-- The implicit account of an ed25519 wallet key. -/
def implicitAccountOf (walletPubkey : String) : Res AccountId := do
  let (keyType, raw) ← parseWalletPubkey walletPubkey
  require (keyType = .ed25519)
    ("Only an ed25519 wallet key has a NEAR account. Got '" ++ keyType.name ++ "'.")
  expect (AccountId.parse (hexEncode raw)) "Wallet key does not form a valid implicit account"

/-- Check a wallet's signature over a digest with the host's verifiers. -/
def verifyWalletSignature (H : Host) (walletPubkey : String) (messageHash : CryptoHash)
    (walletSignature : String) : Res Unit := do
  let (keyType, pubkey) ← parseWalletPubkey walletPubkey
  let sig ← expect (hexDecode walletSignature) "Invalid hex encoding in wallet_signature"
  match keyType with
  | .ed25519 => do
      require (sig.length = 64) ("Ed25519 signature must be 64 bytes, got " ++ toString sig.length)
      require (H.ed25519Verify sig messageHash pubkey = true) "Invalid Ed25519 wallet signature"
  | .secp256k1 => do
      require (sig.length = 65)
        ("Secp256k1 signature must be 65 bytes (64 sig + 1 recovery id), got " ++ toString sig.length)
      let v := sig.getD 64 0
      require (v ≤ 1) ("Recovery id (v) must be 0 or 1, got " ++ toString v)
      let recovered ← expect (H.ecrecover messageHash (sig.take 64) v) "Secp256k1 signature recovery failed"
      let head : UInt8 := if recovered.toList.getD 63 0 % 2 = 0 then 0x02 else 0x03
      require (head :: recovered.toList.take 32 = pubkey)
        "Recovered secp256k1 public key does not match wallet_pubkey"

/-! ## Policies -/

/-- What a wallet signs to store its policy, the ciphertext's own length before it. -/
def policyStoreMessage (walletPubkey : String) (version : Nat) (locked : Bool) (validUntil : Nat)
    (encryptedData : String) (caller : AccountId) : String :=
  "store_wallet_policy:v2:" ++ walletPubkey ++ ":" ++ toString version ++ ":"
    ++ (if locked then "1" else "0") ++ ":" ++ toString validUntil ++ ":"
    ++ toString encryptedData.utf8ByteSize ++ ":" ++ encryptedData ++ ":" ++ caller.name

/-- The bytes a policy is charged for. -/
def calculateWalletPolicyStorageSize (walletPubkey encryptedData : String) (withBeneficiary : Bool) : Nat :=
  let baseOverhead := 40
  let keySize := 4 + walletPubkey.utf8ByteSize
  let ownerEstimate := 4 + 64
  let valueSize := ownerEstimate + 4 + encryptedData.utf8ByteSize + 1 + 8 + 16
  let beneficiary :=
    if withBeneficiary then baseOverhead + (1 + 4 + walletPubkey.utf8ByteSize) + (4 + 64) else 0
  let metaSize := baseOverhead + keySize + 8 + 1
  baseOverhead + keySize + valueSize + metaSize + beneficiary

/-- The deposit side of storing a policy: what was held before and what is required now decide the refund. -/
def policyRefund (env : Env) (existing : Option WalletPolicyEntry) (requiredDeposit : Nat) : Res Nat :=
  match existing with
  | some existing => do
      require (existing.owner = env.predecessor)
        ("Only the original controller (" ++ existing.owner.name ++ ") can update this wallet policy")
      let totalAvailable ← add 128 env.attachedDeposit existing.storageDeposit
      require (totalAvailable ≥ requiredDeposit)
        ("Insufficient deposit for update. Required: " ++ toString requiredDeposit
          ++ ", available (attached " ++ toString env.attachedDeposit ++ " + old "
          ++ toString existing.storageDeposit ++ "): " ++ toString totalAvailable)
      pure (totalAvailable - requiredDeposit)
  | none => do
      require (env.attachedDeposit ≥ requiredDeposit)
        ("Insufficient storage deposit. Required: " ++ toString requiredDeposit ++ " yoctoNEAR, attached: "
          ++ toString env.attachedDeposit)
      pure (env.attachedDeposit - requiredDeposit)

/-- Who the deposit of a policy goes back to: named at creation, kept on an update. -/
def policyBeneficiary (c : Contract) (item : StorageItem) (existing : Option WalletPolicyEntry)
    (storageRefundTo : Option AccountId) : Res (Option AccountId) :=
  match existing with
  | some _ => do
      require (storageRefundTo = none)
        "storage_refund_to is set when the policy is created; the beneficiary changes it with set_storage_refund_to"
      pure (c.storageRefundTo.lookup item)
  | none => pure storageRefundTo

/-- Store or update a wallet policy. -/
def storeWalletPolicy (H : Host) (env : Env) (c : Contract) (walletPubkey encryptedData walletSignature : String)
    (version : Nat) (locked : Bool) (validUntil : Nat) (storageRefundTo : Option AccountId) :
    Res (PolicyStore × List StorageEffect) := do
  assertNotPaused c.toConfig
  let caller := env.predecessor
  require (walletPubkey ≠ "") "wallet_pubkey cannot be empty"
  require (encryptedData ≠ "") "encrypted_data cannot be empty"
  require (encryptedData.utf8ByteSize ≤ 100000) "encrypted_data too large (max 100KB)"
  require (walletSignature ≠ "") "wallet_signature is required"
  let walletPubkey ← canonicalWalletPubkey walletPubkey
  let current := (c.policyMeta.lookup walletPubkey).getD {}
  let expected ← add 64 current.version 1
  require (version = expected)
    ("policy version is " ++ toString current.version ++ ", this signature was made for "
      ++ toString version ++ ": sign the policy again")
  let now := env.blockTimestamp / 1000000000
  require (now ≤ validUntil)
    ("this policy signature expired at " ++ toString validUntil ++ " (unix seconds; now " ++ toString now
      ++ "): sign the policy again")
  let messageHash :=
    H.sha256 (policyStoreMessage walletPubkey version locked validUntil encryptedData caller)
  verifyWalletSignature H walletPubkey messageHash walletSignature
  let item := StorageItem.walletPolicy walletPubkey
  let existing := c.walletPolicies.lookup walletPubkey
  let beneficiary ← policyBeneficiary c item existing storageRefundTo
  let requiredDeposit :=
    calculateWalletPolicyStorageSize walletPubkey encryptedData beneficiary.isSome * storagePricePerByte
  let refundReceiver := beneficiary.getD caller
  let excess ← policyRefund env existing requiredDeposit
  -- a freeze survives an edit
  let frozen := (existing.map WalletPolicyEntry.frozen).getD false
  let entry : WalletPolicyEntry :=
    { owner := caller, encryptedData, frozen, updatedAt := env.blockTimestamp
      storageDeposit := requiredDeposit }
  pure ({ c.toPolicyStore with
      walletPolicies := c.walletPolicies.insert walletPubkey entry
      policyMeta := c.policyMeta.insert walletPubkey { version, locked }
      walletOwnerIndex :=
        if existing.isNone then Index.insert c.walletOwnerIndex caller walletPubkey
        else c.walletOwnerIndex
      storageRefundTo :=
        match existing, storageRefundTo with
        | none, some b => c.storageRefundTo.insert item b
        | _, _         => c.storageRefundTo },
    refund refundReceiver excess
      ++ [emitSystemEvent c.toConfig
            (.walletPolicyUpdated walletPubkey caller encryptedData frozen version locked)])

/-- Freezing and unfreezing are the same write with the flag the other way. -/
def setFrozen (env : Env) (c : Contract) (walletPubkey : String) (frozen : Bool) (verb alreadyMsg : String) :
    Res (PolicyStore × List StorageEffect) := do
  assertNotPaused c.toConfig
  let caller := env.predecessor
  let walletPubkey ← canonicalWalletPubkey walletPubkey
  let entry ← expect (c.walletPolicies.lookup walletPubkey) "Wallet policy not found"
  require (entry.owner = caller)
    ("Only the controller (" ++ entry.owner.name ++ ") can " ++ verb ++ " this wallet")
  require (entry.frozen ≠ frozen) alreadyMsg
  pure ({ c.toPolicyStore with
      walletPolicies :=
        c.walletPolicies.insert walletPubkey { entry with frozen, updatedAt := env.blockTimestamp } },
    [emitSystemEvent c.toConfig (.walletFrozenChanged walletPubkey caller frozen)])

/-- The owner of a policy freezes its wallet. -/
def freezeWallet (env : Env) (c : Contract) (walletPubkey : String) : Res (PolicyStore × List StorageEffect) :=
  setFrozen env c walletPubkey true "freeze" "Wallet is already frozen"

/-- The owner of a policy unfreezes its wallet. -/
def unfreezeWallet (env : Env) (c : Contract) (walletPubkey : String) : Res (PolicyStore × List StorageEffect) :=
  setFrozen env c walletPubkey false "unfreeze" "Wallet is not frozen"

/-- Delete an unlocked policy; its deposit goes to the beneficiary when there is one. -/
def deleteWalletPolicy (env : Env) (c : Contract) (walletPubkey : String) :
    Res (PolicyStore × List StorageEffect) := do
  let walletPubkey ← canonicalWalletPubkey walletPubkey
  let caller := env.predecessor
  let entry ← expect (c.walletPolicies.lookup walletPubkey) "Wallet policy not found"
  require (entry.owner = caller)
    ("Only the controller (" ++ entry.owner.name ++ ") can delete this wallet policy")
  require (((c.policyMeta.lookup walletPubkey).getD {}).locked = false)
    "policy is locked: store an unlocked policy with the approvers' quorum first"
  let item := StorageItem.walletPolicy walletPubkey
  let refundedTo := (c.storageRefundTo.lookup item).getD caller
  pure ({ c.toPolicyStore with
      walletPolicies := c.walletPolicies.erase walletPubkey
      policyMeta := c.policyMeta.erase walletPubkey
      walletOwnerIndex := Index.remove c.walletOwnerIndex caller walletPubkey
      storageRefundTo := c.storageRefundTo.erase item },
    refund refundedTo entry.storageDeposit
      ++ [emitSystemEvent c.toConfig (.walletPolicyDeleted walletPubkey caller refundedTo)])

/-- The item with its key in the form the contract stores it under. -/
def StorageItem.canonical : StorageItem → Res StorageItem
  | .walletPolicy walletPubkey => do
      let key ← canonicalWalletPubkey walletPubkey
      pure (.walletPolicy key)

/-- Hand the storage refunds of an item on to another account. -/
def setStorageRefundTo (env : Env) (c : Contract) (item : StorageItem) (storageRefundTo : AccountId) :
    Res (PolicyStore × List StorageEffect) := do
  assertNotPaused c.toConfig
  let caller := env.predecessor
  let item ← item.canonical
  let current ← expect (c.storageRefundTo.lookup item)
    "No storage beneficiary is set for this item; one is named only when the item is created"
  require (caller = current)
    ("Only the storage beneficiary (" ++ current.name ++ ") can change where this deposit is refunded")
  pure ({ c.toPolicyStore with storageRefundTo := c.storageRefundTo.insert item storageRefundTo },
    [emitSystemEvent c.toConfig (.storageRefundToChanged item storageRefundTo)])

/-! ## The contract's view -/

/-- The spelling a view looks a key up under: the canonical one, where the key can be read. -/
def lookupWalletPubkey (walletPubkey : String) : String :=
  match splitAtColon walletPubkey with
  | some (keyType, hexStr) =>
      if keyType = "ed25519" ∨ keyType = "secp256k1" then
        ((hexDecode hexStr).map fun raw => keyType ++ ":" ++ hexEncode raw).getD walletPubkey
      else walletPubkey
  | none => walletPubkey

/-- What the view of a policy answers. -/
structure WalletPolicyView where
  owner : AccountId
  encryptedData : String
  frozen : Bool
  updatedAt : Nat
  storageRefundTo : Option AccountId
  storageDeposit : Nat
  version : Nat
  locked : Bool

/-- The policy stored for a wallet, under any spelling of its key. -/
def getWalletPolicy (p : PolicyStore) (walletPubkey : String) : Option WalletPolicyView :=
  let walletPubkey := lookupWalletPubkey walletPubkey
  (p.walletPolicies.lookup walletPubkey).map fun entry =>
    let current := (p.policyMeta.lookup walletPubkey).getD {}
    { owner := entry.owner
      encryptedData := entry.encryptedData
      frozen := entry.frozen
      updatedAt := entry.updatedAt
      storageRefundTo := p.storageRefundTo.lookup (.walletPolicy walletPubkey)
      storageDeposit := entry.storageDeposit
      version := current.version
      locked := current.locked }

end Outlayer
