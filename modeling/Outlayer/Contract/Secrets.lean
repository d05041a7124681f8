import Outlayer.Contract.Wallet
import Outlayer.Lib.Json

/-!
# `Contract.Secrets` — stored secrets

A secret row is keyed by accessor, profile and owner, in one canonical spelling. Storing, deleting and
re-conditioning a row keep four maps in step: the rows, the index of each owner, the vault bindings, and the
highest payment-key nonce of each owner.
-/

namespace Outlayer
open Text Checked Collections

/-! ## Access conditions: their text and their bounds -/

/-- The names of the operators, as JSON has them. -/
def LogicOperator.name : LogicOperator → String
  | .and => "And"
  | .or  => "Or"

/-- The name of an operator in JSON. -/
def ComparisonOperator.name : ComparisonOperator → String
  | .gte => "Gte"
  | .lte => "Lte"
  | .gt  => "Gt"
  | .lt  => "Lt"
  | .eq  => "Eq"
  | .ne  => "Ne"

/-- Join with commas, as a JSON writer does. -/
def commaJoin : List String → String
  | []      => ""
  | [s]     => s
  | s :: ss => s ++ "," ++ commaJoin ss

/-- One JSON member. -/
def jsonField (name value : String) : String := Json.quote name ++ ":" ++ value

/-- An object of fields that are written already. -/
def jsonObject (fields : List String) : String := "\x7b" ++ commaJoin fields ++ "\x7d"

/-- An enum variant with fields. -/
def jsonVariant (name : String) (fields : List String) : String :=
  jsonObject [jsonField name (jsonObject fields)]

mutual

/-- The compact JSON text of a condition. -/
def AccessCondition.toJson : AccessCondition → String
  | .logic operator conditions =>
      jsonVariant "Logic"
        [jsonField "operator" (Json.quote operator.name),
         jsonField "conditions" ("[" ++ commaJoin (AccessCondition.listToJson conditions) ++ "]")]
  | .not condition            => jsonVariant "Not" [jsonField "condition" condition.toJson]
  | .allowAll                 => Json.quote "AllowAll"
  | .whitelist accounts       =>
      jsonVariant "Whitelist"
        [jsonField "accounts" ("[" ++ commaJoin (accounts.map fun a => Json.quote a.name) ++ "]")]
  | .accountPattern pattern   => jsonVariant "AccountPattern" [jsonField "pattern" (Json.quote pattern)]
  | .nearBalance operator value =>
      jsonVariant "NearBalance"
        [jsonField "operator" (Json.quote operator.name), jsonField "value" (Json.quote (toString value))]
  | .ftBalance contract operator value =>
      jsonVariant "FtBalance"
        [jsonField "contract" (Json.quote contract.name),
         jsonField "operator" (Json.quote operator.name), jsonField "value" (Json.quote (toString value))]
  | .nftOwned contract tokenId =>
      jsonVariant "NftOwned"
        [jsonField "contract" (Json.quote contract.name),
         jsonField "token_id" ((tokenId.map Json.quote).getD "null")]
  | .daoMember daoContract role =>
      jsonVariant "DaoMember"
        [jsonField "dao_contract" (Json.quote daoContract.name), jsonField "role" (Json.quote role)]
  | .validUntil untilNs       => jsonVariant "ValidUntil" [jsonField "until_ns" (Json.quote (toString untilNs))]
  | .wasmHash hash            => jsonVariant "WasmHash" [jsonField "hash" (Json.quote hash)]
  | .predecessor condition    => jsonVariant "Predecessor" [jsonField "condition" condition.toJson]

/-- The conditions of a list, one by one. -/
def AccessCondition.listToJson : List AccessCondition → List String
  | []      => []
  | a :: as => a.toJson :: AccessCondition.listToJson as

end

/-- The most patterns in one condition, their bytes together, and the most leaves that ask a chain. -/
def maxAccountPatterns : Nat := 16
def maxAccountPatternBytes : Nat := 4096
def maxChainReadLeaves : Nat := 5

/-- Pattern leaves, bytes of pattern text, leaves that ask the chain. -/
structure LeafCount where
  leaves : Nat := 0
  bytes : Nat := 0
  chainReads : Nat := 0
deriving DecidableEq

/-- Both counts together. -/
def LeafCount.add (a b : LeafCount) : LeafCount :=
  ⟨a.leaves + b.leaves, a.bytes + b.bytes, a.chainReads + b.chainReads⟩

mutual

/-- The leaves of a condition that are counted. -/
def conditionLeafCount : AccessCondition → LeafCount
  | .accountPattern pattern => ⟨1, pattern.utf8ByteSize, 0⟩
  | .nearBalance _ _        => ⟨0, 0, 1⟩
  | .ftBalance _ _ _        => ⟨0, 0, 1⟩
  | .nftOwned _ _           => ⟨0, 0, 1⟩
  | .daoMember _ _          => ⟨0, 0, 1⟩
  | .logic _ conditions     => conditionsLeafCount conditions
  | .not condition          => conditionLeafCount condition
  | .predecessor condition  => conditionLeafCount condition
  | .allowAll               => {}
  | .whitelist _            => {}
  | .validUntil _           => {}
  | .wasmHash _             => {}

/-- Those of a list. -/
def conditionsLeafCount : List AccessCondition → LeafCount
  | []      => {}
  | a :: as => (conditionLeafCount a).add (conditionsLeafCount as)

end

mutual

/-- Every `WasmHash` leaf is 64 lower-case hexadecimal characters. -/
def assertWasmHashLeaves : AccessCondition → Res Unit
  | .wasmHash hash =>
      require (hash.utf8ByteSize = 64 ∧ hash.toList.all isLowerHexdigit)
        "a WasmHash condition must be the SHA-256 of the build as 64 lowercase hex characters"
  | .logic _ conditions    => assertAllWasmHashLeaves conditions
  | .not condition         => assertWasmHashLeaves condition
  | .predecessor condition => assertWasmHashLeaves condition
  | _                      => .ok ()

/-- All conditions of a list. -/
def assertAllWasmHashLeaves : List AccessCondition → Res Unit
  | []      => .ok ()
  | a :: as => do
      assertWasmHashLeaves a
      assertAllWasmHashLeaves as

end

mutual

/-- A `Logic` node holds at least one condition. -/
def assertLogicIsNotEmpty : AccessCondition → Res Unit
  | .logic _ conditions => do
      require (conditions.isEmpty = false)
        "a Logic condition must hold at least one condition; an empty And admits everyone"
      assertAllLogicIsNotEmpty conditions
  | .not condition         => assertLogicIsNotEmpty condition
  | .predecessor condition => assertLogicIsNotEmpty condition
  | _                      => .ok ()

/-- All conditions of a list. -/
def assertAllLogicIsNotEmpty : List AccessCondition → Res Unit
  | []      => .ok ()
  | a :: as => do
      assertLogicIsNotEmpty a
      assertAllLogicIsNotEmpty as

end

/-- A condition within the bounds. -/
def assertConditionBounds (access : AccessCondition) : Res Unit := do
  let count := conditionLeafCount access
  require (count.leaves ≤ maxAccountPatterns)
    ("the condition holds " ++ toString count.leaves ++ " AccountPattern leaves; at most "
      ++ toString maxAccountPatterns ++ " are judged")
  require (count.bytes ≤ maxAccountPatternBytes)
    ("the condition's AccountPattern text is " ++ toString count.bytes ++ " bytes in all; at most "
      ++ toString maxAccountPatternBytes ++ " are judged")
  require (count.chainReads ≤ maxChainReadLeaves)
    ("the condition asks the chain " ++ toString count.chainReads ++ " times; at most "
      ++ toString maxChainReadLeaves ++ " such leaves are judged")
  assertWasmHashLeaves access
  assertLogicIsNotEmpty access

/-! ## Keys -/

/-- The one spelling of an accessor. -/
def canonicalAccessor (H : Host) : SecretAccessor → SecretAccessor
  | .wasmHash hash => .wasmHash (toLowercase H.unicode hash)
  | other          => other

/-- The one spelling of a profile: a payment key's is its nonce, printed. -/
def canonicalProfile (accessor : SecretAccessor) (profile : String) : String :=
  match accessor with
  | .system .paymentKey =>
      match parseUnsigned 32 profile with
      | some nonce => toString nonce
      | none       => profile
  | _ => profile

/-- The key a call names, in its one spelling. -/
def canonicalKey (H : Host) (accessor : SecretAccessor) (profile : String) (owner : AccountId) : SecretKey :=
  let accessor := canonicalAccessor H accessor
  { accessor, profile := canonicalProfile accessor profile, owner }

/-- The key of the payment key `nonce` of `owner`. -/
def paymentKey (owner : AccountId) (nonce : Nat) : SecretKey :=
  { accessor := .system .paymentKey, profile := toString nonce, owner }

/-- The name of an account that is a public key. -/
def isImplicitAccountName (name : String) : Bool :=
  decide (name.utf8ByteSize = 64) && name.toList.all isLowerHexdigit

/-- The shape of a profile, as messages put it, and its longest length. -/
def profileRule : String := "1–64 bytes of letters, digits, '-' or '_'"
def profileMaxBytes : Nat := 64

/-- Why a profile name cannot be stored. -/
def profileShapeError (H : Host) (profile : String) : Option String :=
  let n := profile.utf8ByteSize
  if ¬ (1 ≤ n ∧ n ≤ profileMaxBytes) then some ("got " ++ toString n ++ " bytes")
  else
    (profile.toList.find? fun c => !(isAlphanumeric H.unicode c || c == '-' || c == '_')).map fun c =>
      "it contains " ++ H.unicode.debug c

/-- A profile of that shape. -/
def assertProfileShape (H : Host) (profile : String) : Res Unit :=
  match profileShapeError H profile with
  | some why => .error ("profile must be " ++ profileRule ++ " (" ++ why ++ ")")
  | none     => .ok ()

/-! ## The price of a row -/

/-- The bytes a row takes, as it is charged. -/
def calculateSecretStorageSize (key : SecretKey) (encryptedSecrets : String) (access : AccessCondition)
    (vaultBound : Bool) : Nat :=
  let baseStorageOverhead := 40
  let indexEntryOverhead := 64
  let accessorSize := match key.accessor with
    | .repo repo branch => 1 + 4 + repo.utf8ByteSize + 1 + (branch.map fun b => 4 + b.utf8ByteSize).getD 0
    | .wasmHash hash    => 1 + 4 + hash.utf8ByteSize
    | .project id       => 1 + 4 + id.utf8ByteSize
    | .system _         => 1 + 1
  let keySize := accessorSize + 4 + key.profile.utf8ByteSize + 4 + key.owner.name.utf8ByteSize
  let encryptedSize := 4 + encryptedSecrets.utf8ByteSize
  let accessSize := access.toJson.utf8ByteSize + 10
  let valueSize := encryptedSize + accessSize + (8 + 8 + 16)
  let bindingOverhead := if vaultBound then baseStorageOverhead + keySize + 4 + 64 else 0
  baseStorageOverhead + keySize + valueSize + indexEntryOverhead + bindingOverhead

/-! ## Payment-key nonces -/

/-- The bytes of an owner's floor. -/
def nonceFloorEntryBytes (owner : AccountId) : Nat := 40 + 1 + 4 + owner.name.utf8ByteSize + 4

/-- The floor under an owner's nonces; none is 0. -/
def paymentKeyNonceFloor (s : SecretStore) (owner : AccountId) : Nat :=
  (s.paymentKeyNonceFloors.lookup owner).getD 0

/-- Raise the floor of `owner` to `nonce` if it is below it. -/
def raisePaymentKeyNonceFloor (s : SecretStore) (owner : AccountId) (nonce : Nat) : SecretStore :=
  if (s.paymentKeyNonceFloors.lookup owner).all (· < nonce) then
    { s with paymentKeyNonceFloors := s.paymentKeyNonceFloors.insert owner nonce }
  else s

/-- The one-off charge for the owner's floor entry. -/
def nonceFloorDeposit (s : SecretStore) (owner : AccountId) : Nat :=
  if owner ∈ s.paymentKeyNonceFloors then 0 else nonceFloorEntryBytes owner * storagePricePerByte

/-! ## Storing -/

/-- The largest nonce of a payment key. -/
def maxNonce : Nat := 2147483647

/-- The rules on what a secret may be bound to. -/
def validateAccessor (c : Contract) (accessor : SecretAccessor) (profile : String) : Res Unit :=
  match accessor with
  | .repo repo branch => do
      require (repo ≠ "") "Repository cannot be empty"
      match branch with
      | some b => do
          require (b ≠ "") "Branch name cannot be empty if provided"
          require (b.utf8ByteSize ≤ 255) "Branch name too long (max 255 chars)"
      | none => pure ()
  | .wasmHash hash => do
      require (hash ≠ "") "WASM hash cannot be empty"
      require (hash.utf8ByteSize = 64) "WASM hash must be 64 hex characters (SHA256)"
      require (hash.toList.all isAsciiHexdigit) "WASM hash must be hex encoded"
  | .project projectId => do
      require (projectId ≠ "") "Project ID cannot be empty"
      require (contains projectId "/") "Project ID must be in format 'owner.near/name'"
      require (c.projects.lookup projectId ≠ none) ("Project '" ++ projectId ++ "' does not exist")
  | .system .paymentKey => do
      let nonce ← expect (parseUnsigned 32 profile)
        "A payment key's profile is its nonce and must be a number"
      require (1 ≤ nonce)
        "Payment key nonce 0 is reserved. The first nonce is 1 — ask the contract with get_next_payment_key_nonce."
      require (nonce ≤ maxNonce) "Payment key nonce is too large (maximum 2147483647)"

/-- A payment key is written once and only above the owner's floor; returns the charge for the floor entry. -/
def checkNonceUnused (s : SecretStore) (key : SecretKey) : Res Nat :=
  match key.accessor with
  | .system .paymentKey => do
      require ((s.secretsStorage.lookup key).isNone)
        ("Payment key already exists for this nonce. A payment key cannot be rewritten — delete it first, "
          ++ "or use a new nonce.")
      let nonce ← expect (parseUnsigned 32 key.profile) "PaymentKey profile must be a valid u32 nonce"
      require (paymentKeyNonceFloor s key.owner < nonce)
        ("Payment key nonce " ++ toString nonce ++ " has already been used by this account: a nonce is never handed "
          ++ "out twice. Take the one get_next_payment_key_nonce answers.")
      pure (nonceFloorDeposit s key.owner)
  | _ => pure 0

/-- The deposit side of a store: an overwrite counts what is already held. -/
def secretRefund (env : Env) (existing : Option SecretProfile) (requiredDeposit floorDeposit : Nat) :
    Res Nat :=
  match existing with
  | some existing => do
      let totalAvailable ← add 128 env.attachedDeposit existing.storageDeposit
      require (totalAvailable ≥ requiredDeposit)
        ("Insufficient deposit for update. Required: " ++ toString requiredDeposit
          ++ " yoctoNEAR, available (attached " ++ toString env.attachedDeposit ++ " + old "
          ++ toString existing.storageDeposit ++ "): " ++ toString totalAvailable ++ " yoctoNEAR")
      pure (totalAvailable - requiredDeposit)
  | none => do
      let charged ← add 128 requiredDeposit floorDeposit
      require (env.attachedDeposit ≥ charged)
        ("Insufficient storage deposit. Required: " ++ toString charged ++ " yoctoNEAR, attached: "
          ++ toString env.attachedDeposit ++ " yoctoNEAR")
      pure (env.attachedDeposit - charged)

/-- Announce a new payment key to the workers, and use up its nonce. -/
def registerPaymentKey (c : Config) (s : SecretStore) (key : SecretKey) (encryptedData : String) :
    Res (SecretStore × List StorageEffect) :=
  match key.accessor with
  | .system .paymentKey => do
      -- the floor is raised by the creation, so a later deletion finds it in place
      let nonce ← expect (parseUnsigned 32 key.profile) "PaymentKey profile must be a valid u32 nonce"
      pure (raisePaymentKeyNonceFloor s key.owner nonce,
        [emitSystemEvent c
          (.topUpPaymentKey (Vector.replicate 32 0) key.owner nonce 0 encryptedData)])
  | _ => pure (s, [])

/-- The body of every store, with the owner and the payer separated. -/
def storeSecretsInternal (H : Host) (env : Env) (c : Contract) (owner payer : AccountId)
    (accessor : SecretAccessor) (profile encryptedSecrets : String) (access : AccessCondition)
    (vaultId : Option AccountId) : Res (SecretStore × List StorageEffect) := do
  let key := canonicalKey H accessor profile owner
  assertConditionBounds access
  validateAccessor c key.accessor key.profile
  assertProfileShape H key.profile
  require (encryptedSecrets ≠ "") "Encrypted secrets cannot be empty"
  require (isImplicitAccountName key.profile = false ∨ key.profile = owner.name)
    ("A profile of 64 hex characters names an AGENT, and only that agent's own secrets may use it. "
      ++ "This secret is owned by '" ++ owner.name ++ "' — give it a different profile name.")
  let vaultBoundAfterCall := vaultId.isSome || (c.secretVaultBindings.lookup key).isSome
  let requiredDeposit :=
    calculateSecretStorageSize key encryptedSecrets access vaultBoundAfterCall * storagePricePerByte
  let existing := c.secretsStorage.lookup key
  -- a payment key is refused here unless its nonce is above the floor
  let floorDeposit ← checkNonceUnused c.toSecretStore key
  let excess ← secretRefund env existing requiredDeposit floorDeposit
  let profileData : SecretProfile :=
    { encryptedSecrets, access, createdAt := env.blockTimestamp, updatedAt := env.blockTimestamp
      storageDeposit := requiredDeposit }
  let stored : SecretStore := { c.toSecretStore with
    secretsStorage := c.secretsStorage.insert key profileData
    -- no vault named: an existing binding survives
    secretVaultBindings := match vaultId with
      | some v => c.secretVaultBindings.insert key v
      | none   => c.secretVaultBindings
    userSecretsIndex :=
      if existing.isNone then Index.insert c.userSecretsIndex owner key else c.userSecretsIndex }
  let (s, events) ← registerPaymentKey c.toConfig stored key encryptedSecrets
  pure (s, refund payer excess ++ events)

/-- Store a row of the caller's own. -/
def storeSecrets (H : Host) (env : Env) (c : Contract) (accessor : SecretAccessor)
    (profile encryptedSecrets : String) (access : AccessCondition) (vaultId : Option AccountId) :
    Res (SecretStore × List StorageEffect) :=
  storeSecretsInternal H env c env.predecessor env.predecessor accessor profile encryptedSecrets access
    vaultId

/-! ## Secrets of agents -/

/-- An accessor, as a signed message spells it. -/
def accessorBinding : SecretAccessor → String
  | .project projectId   => projectId
  | .repo repo branch    => "repo:" ++ repo ++ ":" ++ branch.getD ""
  | .wasmHash hash       => "wasm:" ++ hash
  | .system .paymentKey  => "system:PaymentKey"

/-- What an agent signs to have a row deleted. -/
def secretDeleteMessage (agentPubkey : String) (accessor : SecretAccessor) (profile : String)
    (payer : AccountId) : String :=
  let binding := accessorBinding accessor
  "delete_agent_secret:v1:" ++ agentPubkey ++ ":" ++ toString binding.utf8ByteSize ++ ":" ++ binding ++ ":"
    ++ profile ++ ":" ++ payer.name

/-- What an agent signs to have a row stored. -/
def secretStoreMessage (agentPubkey : String) (accessor : SecretAccessor) (profile encryptedSecrets : String)
    (payer : AccountId) (vaultId : Option AccountId) (access : AccessCondition) : String :=
  let binding := accessorBinding accessor
  "store_secrets_for:v1:" ++ agentPubkey ++ ":" ++ toString binding.utf8ByteSize ++ ":" ++ binding ++ ":"
    ++ profile ++ ":" ++ encryptedSecrets ++ ":" ++ payer.name ++ ":"
    ++ (vaultId.map AccountId.name).getD "" ++ ":" ++ access.toJson

/-- A profile that cannot be taken for two fields. -/
def assertProfileIsUnambiguous (profile : String) : Res Unit :=
  require (contains profile ":" = false)
    ("profile must not contain ':' — it is a field separator in the signed `store_agent_secret` message, and a colon "
      ++ "there would let one signature authorise a different secret. Got '" ++ profile
      ++ "'. A profile is an agent's 64-character account or a plain name like 'production'.")

/-- Store a secret owned by the agent whose key signed it, paid for by the caller. -/
def storeAgentSecret (H : Host) (env : Env) (c : Contract) (agentPubkey : String) (accessor : SecretAccessor)
    (profile encryptedSecrets : String) (access : AccessCondition) (vaultId : Option AccountId)
    (walletSignature : String) : Res (SecretStore × List StorageEffect) := do
  let payer := env.predecessor
  let owner ← implicitAccountOf agentPubkey
  let accessor := canonicalAccessor H accessor
  let profile := canonicalProfile accessor profile
  assertProfileShape H profile
  assertProfileIsUnambiguous profile
  match accessor with
  | .repo _ _ =>
      throw "GitHub repositories are not supported for agent secrets. Use a wasm hash or a project."
  | .system _ =>
      throw "A payment key is not an agent secret. Create it with store_secrets from the account that owns it."
  | _ => do
      let messageHash := H.sha256
        (secretStoreMessage agentPubkey accessor profile encryptedSecrets payer vaultId access)
      verifyWalletSignature H agentPubkey messageHash walletSignature
      storeSecretsInternal H env c owner payer accessor profile encryptedSecrets access vaultId

/-! ## Deleting and re-conditioning -/

/-- Remove a row with its binding and index entry, and refund its deposit. -/
def deleteSecretsInternal (s : SecretStore) (key : SecretKey) (owner refundReceiver : AccountId) :
    Res (SecretStore × List StorageEffect) := do
  let profileData ← expect (s.secretsStorage.lookup key) "Secrets not found"
  pure ({ s with
      secretsStorage := s.secretsStorage.erase key
      secretVaultBindings := s.secretVaultBindings.erase key
      userSecretsIndex := Index.remove s.userSecretsIndex owner key },
    refund refundReceiver profileData.storageDeposit)

/-- Delete a row of the caller's own. -/
def deleteSecrets (H : Host) (env : Env) (c : Contract) (accessor : SecretAccessor) (profile : String) :
    Res (SecretStore × List StorageEffect) :=
  -- any row of the caller, a payment key included, and no floor is raised
  deleteSecretsInternal c.toSecretStore (canonicalKey H accessor profile env.predecessor) env.predecessor
    env.predecessor

/-- Remove an agent's secret on the authority of its key; the deposit goes to the submitter. -/
def deleteAgentSecret (H : Host) (env : Env) (c : Contract) (agentPubkey : String)
    (accessor : SecretAccessor) (profile walletSignature : String) : Res (SecretStore × List StorageEffect) := do
  let payer := env.predecessor
  let owner ← implicitAccountOf agentPubkey
  let accessor := canonicalAccessor H accessor
  let profile := canonicalProfile accessor profile
  assertProfileIsUnambiguous profile
  match accessor with
  | .project _ | .wasmHash _ => do
      let messageHash := H.sha256 (secretDeleteMessage agentPubkey accessor profile payer)
      verifyWalletSignature H agentPubkey messageHash walletSignature
      deleteSecretsInternal c.toSecretStore { accessor, profile, owner } owner payer
  | _ =>
      throw ("delete_agent_secret removes an agent SECRET, stored against a project or a wasm hash. A payment key is "
        ++ "not one: delete it with delete_payment_key, which the coordinator is told about.")

/-- Drop the vault binding of a secret of the caller. -/
def unbindSecretVault (H : Host) (env : Env) (c : Contract) (accessor : SecretAccessor) (profile : String) :
    Res (SecretStore × List StorageEffect) := do
  let key := canonicalKey H accessor profile env.predecessor
  require ((c.secretsStorage.lookup key).isSome) "secret not found or not owned by caller"
  pure ({ c.toSecretStore with secretVaultBindings := c.secretVaultBindings.erase key }, [])

/-- Replace the access condition of a secret of the caller, settling the difference in its deposit. -/
def updateAccess (H : Host) (env : Env) (c : Contract) (accessor : SecretAccessor) (profile : String)
    (newAccess : AccessCondition) : Res (SecretStore × List StorageEffect) := do
  let caller := env.predecessor
  let key := canonicalKey H accessor profile caller
  let profileData ← expect (c.secretsStorage.lookup key) "Secrets not found"
  assertConditionBounds newAccess
  -- the binding stays, and is paid for as before
  let vaultBound := (c.secretVaultBindings.lookup key).isSome
  let requiredDeposit :=
    calculateSecretStorageSize key profileData.encryptedSecrets newAccess vaultBound * storagePricePerByte
  let totalAvailable ← add 128 env.attachedDeposit profileData.storageDeposit
  require (totalAvailable ≥ requiredDeposit)
    ("Insufficient deposit for this condition. Required: " ++ toString requiredDeposit
      ++ " yoctoNEAR, available (attached " ++ toString env.attachedDeposit ++ " + already held "
      ++ toString profileData.storageDeposit ++ "): " ++ toString totalAvailable ++ " yoctoNEAR")
  pure ({ c.toSecretStore with
      secretsStorage := c.secretsStorage.insert key
        { profileData with
          access := newAccess
          updatedAt := env.blockTimestamp
          storageDeposit := requiredDeposit } },
    refund caller (totalAvailable - requiredDeposit))

end Outlayer
