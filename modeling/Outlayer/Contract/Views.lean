import Outlayer.Contract.Secrets

/-!
# `Contract.Views` — what the contract answers without changing

The pages of the requests that are pending and of an account's secrets, the nonce its next payment key may take,
the one row a reader asks for together with the vault it is bound to, and what storing a secret or a wallet policy
would cost.
-/

namespace Outlayer
open Text Checked Collections

/-! ## Pages of pending requests -/

/-- The loop of a page of pending ids: the ids still to look at, how many pending ones were skipped, and what the
    page holds so far. The page is asked whether it is full after an id was added to it. -/
def pendingIdsLoop (pending : LookupMap Nat ExecutionRequest) (from_ maxLimit : Nat) :
    List Nat → Nat → List Nat → List Nat
  | [], _, result => result
  | requestId :: rest, skipped, result =>
      if (pending.lookup requestId).isSome then
        if skipped < from_ then pendingIdsLoop pending from_ maxLimit rest (skipped + 1) result
        else if maxLimit ≤ (result ++ [requestId]).length then result ++ [requestId]
        else pendingIdsLoop pending from_ maxLimit rest skipped (result ++ [requestId])
      else pendingIdsLoop pending from_ maxLimit rest skipped result

/-- A page of the ids of pending requests: 100 unless asked. -/
def getPendingRequestIds (l : Ledger) (fromIndex limit : Option Nat) : List Nat :=
  pendingIdsLoop l.pendingRequests (fromIndex.getD 0) (limit.getD 100) (List.range l.nextRequestId) 0 []

/-! ## Pages of secrets -/

/-- A secret as it is listed: everything but the ciphertext. -/
structure UserSecretInfo where
  accessor : SecretAccessor
  profile : String
  createdAt : Nat
  updatedAt : Nat
  storageDeposit : Nat
  access : AccessCondition

/-- A row of a user's list of secrets. -/
def userSecretInfo (key : SecretKey) (profile : SecretProfile) : UserSecretInfo where
  accessor := key.accessor
  profile := key.profile
  createdAt := profile.createdAt
  updatedAt := profile.updatedAt
  storageDeposit := profile.storageDeposit
  access := profile.access

/-- A page of the secrets of an account, in the order of its index: 100 unless asked, at most 500. -/
def listUserSecrets (s : SecretStore) (accountId : AccountId) (fromIndex limit : Option Nat) :
    List UserSecretInfo :=
  let fromIndex := fromIndex.getD 0
  let limit := min (limit.getD 100) 500
  match s.userSecretsIndex.lookup accountId with
  | some secretsSet =>
      ((secretsSet.elems.drop fromIndex).take limit).filterMap fun key =>
        (s.secretsStorage.lookup key).map (userSecretInfo key)
  | none => []

/-! ## Payment-key nonces -/

/-- The nonce of a payment key, as its name spells it. -/
def SecretKey.paymentKeyNonce (key : SecretKey) : Option Nat :=
  match key.accessor with
  | .system .paymentKey => parseUnsigned 32 key.profile
  | _                   => none

/-- The highest nonce among the payment keys an account has. -/
def livePaymentKeyNonce (s : SecretStore) (accountId : AccountId) : Nat :=
  match s.userSecretsIndex.lookup accountId with
  | some secretsSet => ((secretsSet.elems.filterMap SecretKey.paymentKeyNonce).max?).getD 0
  | none            => 0

/-- The nonce the next payment key may take: one above the live keys and the floor, saturating at 32 bits. -/
def getNextPaymentKeyNonce (s : SecretStore) (accountId : AccountId) : Nat :=
  let floor := paymentKeyNonceFloor s accountId
  min (max (livePaymentKeyNonce s accountId) floor + 1) (2 ^ 32 - 1)

/-! ## One row -/

/-- A stored secret as a reader sees it, with the accessor it was found under. -/
structure SecretProfileView where
  encryptedSecrets : String
  access : AccessCondition
  createdAt : Nat
  updatedAt : Nat
  storageDeposit : Nat
  accessor : SecretAccessor

/-- What the view of a secret answers. -/
def secretProfileView (accessor : SecretAccessor) (profile : SecretProfile) : SecretProfileView where
  encryptedSecrets := profile.encryptedSecrets
  access := profile.access
  createdAt := profile.createdAt
  updatedAt := profile.updatedAt
  storageDeposit := profile.storageDeposit
  accessor := accessor

/-- The row of an accessor, a profile and an owner; a branch that has none falls back to the row of no branch. -/
def getSecrets (H : Host) (s : SecretStore) (accessor : SecretAccessor) (profile : String) (owner : AccountId) :
    Option SecretProfileView :=
  let key := canonicalKey H accessor profile owner
  match s.secretsStorage.lookup key with
  | some profileData => some (secretProfileView key.accessor profileData)
  | none =>
      match key.accessor with
      | .repo repo (some _) =>
          (s.secretsStorage.lookup { key with accessor := .repo repo none }).map
            (secretProfileView (.repo repo none))
      | _ => none

/-- A row and the vault binding of the key it was found under. -/
structure SecretWithVault where
  profile : Option SecretProfileView
  vaultId : Option AccountId

/-- A secret together with the vault it is encrypted under. -/
def getSecretWithVault (H : Host) (s : SecretStore) (accessor : SecretAccessor) (profile : String)
    (owner : AccountId) : SecretWithVault :=
  let key := canonicalKey H accessor profile owner
  -- canonicalised once more inside, as the source calls one view from the other
  let secret := getSecrets H s key.accessor key.profile owner
  { profile := secret
    -- the binding of the key the row was found under, which may be the one without a branch
    vaultId := secret.bind fun view => s.secretVaultBindings.lookup { key with accessor := view.accessor } }

/-! ## Quotes -/

/-- What a payment key that is not there yet adds for its owner's floor entry. -/
def quotedFloorDeposit (s : SecretStore) (key : SecretKey) : Nat :=
  match key.accessor with
  | .system .paymentKey => if (s.secretsStorage.lookup key).isNone then nonceFloorDeposit s key.owner else 0
  | _                   => 0

/-- The quote for a secret: a condition the store would refuse is not quoted for. -/
def estimateStorageCost (H : Host) (c : Contract) (accessor : SecretAccessor) (profile : String) (owner : AccountId)
    (encryptedSecrets : String) (access : AccessCondition) (vaultId : Option AccountId) : Res Nat := do
  assertConditionBounds access
  let key := canonicalKey H accessor profile owner
  let vaultBoundAfterCall := vaultId.isSome || (c.secretVaultBindings.lookup key).isSome
  let storageBytes := calculateSecretStorageSize key encryptedSecrets access vaultBoundAfterCall
  let floorDeposit := quotedFloorDeposit c.toSecretStore key
  add 128 (storageBytes * storagePricePerByte) floorDeposit

/-- The quote for a wallet policy, whose key is measured as it is spelled. -/
def estimateWalletPolicyCost (walletPubkey encryptedData : String) (storageRefundTo : Option AccountId) : Nat :=
  calculateWalletPolicyStorageSize walletPubkey encryptedData storageRefundTo.isSome * storagePricePerByte

end Outlayer
