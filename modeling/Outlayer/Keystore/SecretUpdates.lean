import Outlayer.Keystore.AgentSecrets
import Outlayer.Keystore.KeyOwners
import Outlayer.Keystore.NearSignatures
import Outlayer.Lib.OrderedMap
import Outlayer.Lib.TextParts

/-!
# `Keystore.SecretUpdates` — updating a user's secrets

The owner of a row signs what is to change in it; the keystore opens the row, changes the map of secrets in it, and
answers with the new ciphertext and a summary. Entries whose names begin with `PROTECTED_` are made by the keystore
alone, and stay.
-/

namespace Outlayer
open Text Json

namespace Keystore

/-! ## The request -/

/-- A secret to be generated: its name and of what kind. -/
structure GeneratedSecretSpec where
  name : String
  generationType : String
deriving DecidableEq

/-- What becomes of the names an update does not give: they stay, or all but the protected ones go. -/
inductive UpdateMode
  | append
  | reset
deriving DecidableEq

/-- The secrets of a row: serde_json's map, in the order of the names. -/
abbrev Secrets : Type := List (String × Value)

/-- The names in a map. -/
def secretKeys (m : Secrets) : List String := m.map Prod.fst

/-- A request to update a row, with the owner's signature. -/
structure UpdateUserSecretsRequest extends UpdateRequest where
  mode : UpdateMode
  /-- what is given, each name once, in the order the request's map is walked in -/
  secrets : List (String × Value)
  secrets_nodup : (secrets.map Prod.fst).Nodup
  generateProtected : Option (List GeneratedSecretSpec) := none
  signedMessage : String
  signature : String
  publicKey : String
  nonce : String
  recipient : String
  vaultId : Option String := none

/-- What an update did, name by name. -/
structure UpdateSummary where
  protectedKeysPreserved : List String
  updatedKeys : List String
  removedKeys : List String
  totalKeys : Nat
deriving DecidableEq

/-- The row's new ciphertext, and the summary. -/
structure UpdateUserSecretsResponse where
  encryptedSecretsBase64 : String
  summary : UpdateSummary
deriving DecidableEq

/-! ## Names that the worker owns -/

/-- The names of the worker's own variables. -/
def reservedSecretKeys : List String :=
  ["NEAR_SENDER_ID", "NEAR_CONTRACT_ID", "NEAR_BLOCK_HEIGHT", "NEAR_BLOCK_TIMESTAMP", "NEAR_RECEIPT_ID",
   "NEAR_PREDECESSOR_ID", "NEAR_SIGNER_PUBLIC_KEY", "NEAR_RELAYER_ID", "NEAR_GAS_BURNT", "NEAR_USER_ACCOUNT_ID",
   "NEAR_PAYMENT_YOCTO", "NEAR_TRANSACTION_HASH", "NEAR_MAX_INSTRUCTIONS", "NEAR_MAX_MEMORY_MB",
   "NEAR_MAX_EXECUTION_SECONDS", "NEAR_REQUEST_ID", "NEAR_NETWORK_ID", "OUTLAYER_PROJECT_ID", "OUTLAYER_PROJECT_UUID",
   "OUTLAYER_EXECUTION_TYPE", "OUTLAYER_CALL_ID", "OUTLAYER_PROJECT_NAME", "OUTLAYER_PROJECT_OWNER", "ATTACHED_USD",
   "USD_PAYMENT", "WALLET_ID", "NEAR_RPC_PROXY_AVAILABLE", "OUTLAYER_SECRETS_ROWS", "OUTLAYER_SECRETS_OWNER",
   "OUTLAYER_SECRETS_PROFILE"]

/-- Texts with a separator between them. -/
def joinTexts (sep : String) (texts : List String) : String := sep.intercalate texts

/-- Refuse the worker's own names. -/
def rejectReservedSecretKeys (keys : List String) : ApiResult Unit :=
  let reserved := keys.filter fun k => k ∈ reservedSecretKeys
  demand (reserved = []) (.badRequest ("Cannot use reserved system keywords as secret keys: " ++ joinTexts ", " reserved
    ++ ". These environment variables are automatically set by OutLayer worker. Please use different key names."))

/-! ## What the owner signs -/

/-- The texts in order. -/
def sortTexts (texts : List String) : List String := texts.mergeSort fun a b => decide (a ≤ b)

/-- A labelled line of names; none where there are no names. -/
def messageLine (label : String) (names : List String) : String :=
  if names = [] then "" else "\n" ++ label ++ ":" ++ joinTexts "," names

/-- The names a request generates. -/
def UpdateUserSecretsRequest.generatedNames (req : UpdateUserSecretsRequest) : List String :=
  (req.generateProtected.getD []).map GeneratedSecretSpec.name

/-- The message that has to be signed for a request. -/
def UpdateUserSecretsRequest.expectedMessage (req : UpdateUserSecretsRequest) : String :=
  "Update Outlayer secrets for " ++ req.owner ++ ":" ++ req.profile
    ++ messageLine "keys" (sortTexts (secretKeys req.secrets))
    ++ messageLine "protected" (sortTexts req.generatedNames)

/-! ## Generated secrets -/

/-- What the name of a kind is put behind. -/
def generationPrefix : String := "generate_outlayer_secret:"

/-- What is drawn for one secret. -/
structure Draw where
  bytes : (n : Nat) → List UInt8
  ed25519Secret : List UInt8
  /-- the place in the alphabet of the `i`-th character of a password -/
  place : (i : Nat) → Fin 62

/-- The characters of a generated password. -/
def passwordAlphabet : List Char := "ABCDEFGHIJKLMNOPQRSTUVWXYZabcdefghijklmnopqrstuvwxyz0123456789".toList

/-- A password of so many characters. -/
def generatePassword (d : Draw) (length : Nat) : String :=
  String.ofList ((List.range length).map fun i => passwordAlphabet.getD (d.place i) 'A')

/-- A secret of a kind, or the reason why there is none. -/
def generateSecret (d : Draw) (spec : String) : Except String String :=
  match stripPrefix spec generationPrefix with
  | none => .error "Invalid generation spec: missing prefix"
  | some rest =>
      let parts := split ':' rest
      let secretType := parts.headD ""
      if secretType = "hex32" then .ok (hexEncode (d.bytes 32))
      else if secretType = "hex16" then .ok (hexEncode (d.bytes 16))
      else if secretType = "hex64" then .ok (hexEncode (d.bytes 64))
      else if secretType = "ed25519" then .ok ("ed25519:" ++ base58Encode d.ed25519Secret)
      else if secretType = "ed25519_seed" then .ok (hexEncode (d.bytes 32))
      else if secretType = "password" then
        match parts[1]? with
        | none   => .ok (generatePassword d 32)
        | some p =>
            match parseUnsigned 64 p with
            | none        => .error ("Invalid password length: " ++ p)
            | some length => .ok (generatePassword d length)
      else .error ("Unknown secret type: " ++ secretType)

/-! ## Changing the map -/

/-- The name is one of the keystore's. -/
def isProtected (name : String) : Bool := startsWith name "PROTECTED_"

/-- What is given may not be protected. -/
def checkUserSecrets (secrets : List (String × Value)) : ApiResult Unit :=
  let taken := (secretKeys secrets).filter isProtected
  demand (taken = []) (.badRequest ("User secrets cannot use 'PROTECTED_' prefix: " ++ joinTexts ", " taken))

/-- The names a reset takes out of the map. -/
def keysToRemove (mode : UpdateMode) (m : Secrets) : List String :=
  match mode with
  | .reset  => (secretKeys m).filter fun k => isProtected k = false
  | .append => []

/-- The map without the names. -/
def removeAll (keys : List String) (m : Secrets) : Secrets := keys.foldl (fun m k => OrderedMap.erase k m) m

/-- The map with what is given. -/
def insertAll (given : List (String × Value)) (m : Secrets) : Secrets :=
  given.foldl (fun m e => OrderedMap.put e.1 e.2 m) m

/-- Generate one secret after the other; `k` is the place of the next. -/
def generateAll (draws : Nat → Draw) : (k : Nat) → List GeneratedSecretSpec → Secrets → ApiResult Secrets
  | _, [], m => .ok m
  | k, spec :: specs, m =>
      if isProtected spec.name = false then
        .error (.badRequest ("Generated secret '" ++ spec.name ++ "' must start with 'PROTECTED_' prefix"))
      else if (m.lookup spec.name).isSome then
        .error (.badRequest ("Cannot regenerate existing PROTECTED_ secret: " ++ spec.name
          ++ ". These secrets are immutable once created."))
      else
        match generateSecret (draws k) (generationPrefix ++ spec.generationType) with
        | .error e => .error (.badRequest ("Failed to generate secret '" ++ spec.name ++ "' with type '"
            ++ spec.generationType ++ "': " ++ e))
        | .ok value => generateAll draws (k + 1) specs (OrderedMap.put spec.name (.str value) m)

/-- The map after an update, and what is said of it. -/
def applyUpdate (draws : Nat → Draw) (req : UpdateUserSecretsRequest) (current : Secrets) :
    ApiResult (Secrets × UpdateSummary) := do
  let removedKeys := keysToRemove req.mode current
  let kept := removeAll removedKeys current
  let updated ← generateAll draws 0 (req.generateProtected.getD []) (insertAll req.secrets kept)
  .ok (updated,
    { protectedKeysPreserved := (secretKeys kept).filter isProtected
      updatedKeys := secretKeys req.secrets ++ req.generatedNames
      removedKeys
      totalKeys := updated.length })

/-! ## The handler -/

/-- What the contract has under an accessor: the row, and the vault it is bound to. -/
structure RowWithVault where
  profile : Option Value
  vaultId : Option String

/-- The chain, as an update asks it. -/
structure UpdateClient where
  owners : KeyOwners
  getSecretWithVault : (accessorJson : Value) → (profile owner : String) → Except String RowWithVault

/-- What an update stands on, the crates its signature is checked with among them. -/
structure UpdateHost extends NearCrypto where
  ready : Bool
  nearClient : Option UpdateClient
  ensureCustomerLoaded : Option AccountId → Except String Unit
  /-- a load that failed, as the API reports it -/
  fromCustomerLoad : String → ApiError
  decrypt : Option AccountId → String → List UInt8 → Except String (List UInt8)
  encrypt : Option AccountId → String → List UInt8 → Except String (List UInt8)
  fromUtf8 : List UInt8 → Except String String
  /-- how a number of a text is kept, and how a text that is no map is refused -/
  number : String → Option String
  jsonWording : String → String
  accountWording : String → String
  draws : Nat → Draw

/-- The vault a request names, if it names one. -/
def parseOptionalVaultId (wording : String → String) (raw : Option String) : ApiResult (Option AccountId) :=
  match givenField raw with
  | none   => .ok none
  | some s =>
      match AccountId.parse s with
      | some vault => .ok (some vault)
      | none       => .error (.badRequest ("vault_id is not a valid NEAR AccountId (" ++ s ++ "): " ++ wording s))

/-- The secrets in a row that was found, opened under the vault it is bound to. -/
def openExisting (E : UpdateHost) (req : UpdateUserSecretsRequest) (existingCustomer : Option AccountId)
    (profile : Value) : ApiResult Secrets := do
  match (profile.get "encrypted_secrets").bind Value.asStr with
  | none => .error (.internalError "Missing encrypted_secrets field")
  | some encryptedSecrets =>
      match E.base64Decode encryptedSecrets with
      | .error e => .error (.badRequest ("Invalid base64 in stored secrets: " ++ e))
      | .ok encryptedBytes =>
          let seed ← req.existingSeed
          let plaintext ← orInternal "Failed to decrypt existing secrets"
            (E.decrypt existingCustomer seed encryptedBytes)
          let text ← orInternal "Decrypted data is not valid UTF-8" (E.fromUtf8 plaintext)
          match parse E.number text with
          | some (.obj secrets) => .ok secrets
          | _                   => .error (.internalError ("Decrypted data is not valid JSON: " ++ E.jsonWording text))

/-- The secrets an update starts from. -/
def currentSecrets (E : UpdateHost) (req : UpdateUserSecretsRequest) (client : UpdateClient) : ApiResult Secrets := do
  let combined ← orInternal "Failed to fetch secrets"
    (client.getSecretWithVault (accessorToContractJson req.accessor) req.profile req.owner)
  let existingCustomer ← parseOptionalVaultId E.accountWording combined.vaultId
  orInternal ("lazy-load gate failed for existing vault " ++ (existingCustomer.map AccountId.name).getD "<none>")
    (E.ensureCustomerLoaded existingCustomer)
  match combined.profile with
  | some profile => openExisting E req existingCustomer profile
  | none =>
      if req.mode = .append then
        .error (.unavailable ("the contract shows no row to merge this update into — if it was just created, it is " ++
          "not visible yet; nothing was changed, try again in a moment"))
      else .ok []

/-- The owner's word on a request: the message spells it, the signature is of the message, the key is the owner's. -/
def checkSigned (E : UpdateHost) (req : UpdateUserSecretsRequest) : ApiResult UpdateClient := do
  demand (req.signedMessage = req.expectedMessage) (.badRequest ("Invalid message format. Expected payload to match " ++
    "request data. Expected: '" ++ req.expectedMessage ++ "', Got: '" ++ req.signedMessage ++ "'"))
  (E.verifyNearSignature req.signedMessage req.signature req.publicKey req.nonce req.recipient).mapError
    fun e => .forbidden ("Invalid signature: " ++ e)
  match E.nearClient with
  | none => .error (.internalError ("This keystore cannot check that the signing key belongs to the owner's account " ++
      "(NEAR_RPC_URL / NEAR_CONTRACT_ID are not set), so it will not update secrets."))
  | some client =>
      match client.owners.verifyAccessKeyOwner req.owner req.publicKey with
      | .ok ()                  => .ok client
      | .error (.notOwned m)    => .error (.forbidden m)
      | .error (.malformed m)   => .error (.badRequest m)
      | .error (.unanswered _)  =>
          .error (.unavailable "could not check the key's owner on chain right now; try again shortly")

/-- Update the secrets of a row. -/
def updateUserSecrets (E : UpdateHost) (req : UpdateUserSecretsRequest) : ApiResult UpdateUserSecretsResponse := do
  demand (E.ready = true)
    (.unauthorized "Keystore not ready. Waiting for DAO approval and master key from MPC.")
  rejectReservedSecretKeys (secretKeys req.secrets)
  let customer ← parseOptionalVaultId E.accountWording req.vaultId
  (E.ensureCustomerLoaded customer).mapError E.fromCustomerLoad
  let client ← checkSigned E req
  checkUserSecrets req.secrets
  let current ← currentSecrets E req client
  let (updated, summary) ← applyUpdate E.draws req current
  let encryptionSeed ← req.encryptionSeed
  let encrypted ← orInternal "Failed to encrypt secrets"
    (E.encrypt customer encryptionSeed (utf8 (Value.obj updated).compact))
  .ok { encryptedSecretsBase64 := base64Encode encrypted, summary }

end Keystore
end Outlayer
