import Outlayer.Keystore.Access
import Outlayer.Keystore.Seeds
import Outlayer.Contract.ConditionReader
import Outlayer.Contract.ConditionText

/-!
# `Keystore.AgentSecrets` — signing for the secrets of an agent

An agent's secret is stored by whoever pays for it, on the signature of the agent's wallet. The keystore opens the
ciphertext under the seed it will be read with, spells the message the contract will rebuild, and signs it with the
wallet's key. A deletion is signed the same way, with nothing to open.
-/

namespace Outlayer
open Text Json

namespace Keystore

/-! ## What a secret is stored against -/

/-- What an agent's secret may be bound to: a project or one build. -/
inductive AgentSecretTarget
  | project (projectId : String)
  | wasmHash (hash : String)
deriving DecidableEq

/-- A field of a request, if it holds anything. -/
def givenField (field : Option String) : Option String := (field.map trim).filter (· ≠ "")

/-- Exactly one of the two; a hash in lower case, as the contract stores it. -/
def AgentSecretTarget.fromFields (U : Unicode) (projectId wasmHash : Option String) : ApiResult AgentSecretTarget :=
  match givenField projectId, givenField wasmHash with
  | some _, some _ => .error (.badRequest ("Give either project_id or wasm_hash, not both — a secret is sealed to " ++
      "one scope and the two seal it differently."))
  | some p, none   => .ok (.project p)
  | none, some h   => .ok (.wasmHash (toLowercase U h))
  | none, none     => .error (.badRequest ("project_id or wasm_hash is required: a secret is stored against the " ++
      "connector's project or against one exact WASM hash."))

/-- The seed the secret is sealed to. -/
def AgentSecretTarget.seed (agentAccount : String) : AgentSecretTarget → String
  | .project projectId => "project:" ++ projectId ++ ":" ++ agentAccount
  | .wasmHash hash     => "wasm_hash:" ++ hash ++ ":" ++ agentAccount

/-- The accessor as it stands in a signed message. -/
def AgentSecretTarget.binding : AgentSecretTarget → String
  | .project projectId => projectId
  | .wasmHash hash     => "wasm:" ++ hash

/-- The accessor of a call about the same target. -/
def AgentSecretTarget.accessor : AgentSecretTarget → Outlayer.SecretAccessor
  | .project projectId => .project projectId
  | .wasmHash hash     => .wasmHash hash

/-! ## Access conditions in JSON -/

/-- The keystore's enumeration: accounts, amounts and times are texts. -/
def accessVariants : Variants AccessCondition String String String where
  account := Value.asStr
  amount := Value.asStr
  time := Value.asStr
  logic := .logic
  not := .not
  allowAll := .allowAll
  whitelist := .whitelist
  accountPattern := .accountPattern
  nearBalance := .nearBalance
  ftBalance := .ftBalance
  nftOwned := .nftOwned
  daoMember := .daoMember
  validUntil := .validUntil
  wasmHash := .wasmHash
  predecessor := .predecessor

/-- The access condition of a request. -/
def AccessCondition.read : (depth : Nat) → Value → Option AccessCondition := readCondition accessVariants

mutual

/-- A condition, as the keystore writes it. -/
def AccessCondition.toDoc : AccessCondition → Doc
  | .logic operator conditions =>
      docVariant "Logic"
        [("operator", .str operator.name), ("conditions", .arr (AccessCondition.listToDocs conditions))]
  | .not condition          => docVariant "Not" [("condition", condition.toDoc)]
  | .allowAll               => .str "AllowAll"
  | .whitelist accounts     => docVariant "Whitelist" [("accounts", .arr (accounts.map Doc.str))]
  | .accountPattern pattern => docVariant "AccountPattern" [("pattern", .str pattern)]
  | .nearBalance operator value =>
      docVariant "NearBalance" [("operator", .str operator.name), ("value", .str value)]
  | .ftBalance contract operator value =>
      docVariant "FtBalance" [("contract", .str contract), ("operator", .str operator.name), ("value", .str value)]
  | .nftOwned contract tokenId =>
      docVariant "NftOwned" [("contract", .str contract), ("token_id", (tokenId.map Doc.str).getD .null)]
  | .daoMember daoContract role =>
      docVariant "DaoMember" [("dao_contract", .str daoContract), ("role", .str role)]
  | .validUntil untilNs     => docVariant "ValidUntil" [("until_ns", .str untilNs)]
  | .wasmHash hash          => docVariant "WasmHash" [("hash", .str hash)]
  | .predecessor condition  => docVariant "Predecessor" [("condition", condition.toDoc)]

/-- The conditions of a list, each as its JSON document. -/
def AccessCondition.listToDocs : List AccessCondition → List Doc
  | []      => []
  | a :: as => a.toDoc :: AccessCondition.listToDocs as

end

/-- The condition as it stands in a signed message. -/
def accessBinding (access : AccessCondition) : String := String.ofList (write access.toDoc [])

/-! ## Messages -/

/-- What a wallet signs to store a secret, the accessor's own length before it. -/
def secretStoreMessage (walletPubkey accessorBinding profile encryptedSecrets payer vaultId accessJson : String) :
    String :=
  "store_secrets_for:v1:" ++ walletPubkey ++ ":" ++ toString accessorBinding.utf8ByteSize ++ ":" ++ accessorBinding
    ++ ":" ++ profile ++ ":" ++ encryptedSecrets ++ ":" ++ payer ++ ":" ++ vaultId ++ ":" ++ accessJson

/-- What a wallet signs to delete a secret. -/
def secretDeleteMessage (walletPubkey accessorBinding profile payer : String) : String :=
  "delete_agent_secret:v1:" ++ walletPubkey ++ ":" ++ toString accessorBinding.utf8ByteSize ++ ":" ++ accessorBinding
    ++ ":" ++ profile ++ ":" ++ payer

/-! ## The customer of a request -/

/-- A header's value; one that is no text cannot be read. -/
inductive HeaderValue
  | text (s : String)
  | binary

/-- The vault that the `X-Customer-Vault` header names. `wording` is how the account library words a refusal. -/
def extractCustomerFromHeader (wording : String → String) : Option HeaderValue → ApiResult (Option AccountId)
  | none => .ok none
  | some .binary => .error (.badRequest "X-Customer-Vault header is not valid UTF-8")
  | some (.text raw) =>
      let s := trim raw
      if s = "" then .ok none
      else match AccountId.parse s with
        | some vaultId => .ok (some vaultId)
        | none => .error (.badRequest
            ("X-Customer-Vault is not a valid NEAR AccountId (" ++ s ++ "): " ++ wording s))

/-! ## The handlers -/

/-- What the handlers ask of the keystore and of the libraries linked into it. A key is named by a customer, or none
    for the default master, and a seed. -/
structure Enclave where
  ready : Bool
  ensureCustomerLoaded : Option AccountId → ApiResult Unit
  getPublicKeyForSeed : Option AccountId → String → Except String (Vector UInt8 32)
  sign : Option AccountId → String → CryptoHash → Except String (Vector UInt8 64)
  decrypt : Option AccountId → String → List UInt8 → Except String (List UInt8)
  sha256 : String → CryptoHash
  base64Decode : String → Except String (List UInt8)
  /-- the bounds on conditions that the keystore judges by -/
  conditionBounds : Doc → Except String Unit
  accountWording : String → String
  unicode : Unicode
  chains : ChainNames

/-- A request to sign the storing of a secret. -/
structure SignSecretStoreRequest where
  walletId : String
  projectId : Option String := none
  wasmHash : Option String := none
  encryptedSecretsBase64 : String
  payer : String
  access : AccessCondition
  vaultId : Option String := none

/-- A request to sign the deletion of a secret. -/
structure SignSecretDeleteRequest where
  walletId : String
  projectId : Option String := none
  wasmHash : Option String := none
  payer : String

/-- What both handlers answer. -/
structure SignedForAgent where
  signatureHex : String
  walletPubkey : String
  agentAccount : String
deriving DecidableEq

/-- An error of a library, as a handler reports it. -/
def orInternal {α : Type} (what : String) : Except String α → ApiResult α
  | .ok a    => .ok a
  | .error e => .error (.internalError (what ++ ": " ++ e))

theorem orInternal_ok {α : Type} {what : String} {x : Except String α} {a : α} (h : orInternal what x = .ok a) :
    x = .ok a := by
  cases x with
  | error e => cases h
  | ok b => exact congrArg _ (Except.ok.inj h)

/-- Reports a parser's failure as a bad request. -/
def orBadRequest {α : Type} (what : String) : Except String α → ApiResult α
  | .ok a    => .ok a
  | .error e => .error (.badRequest (what ++ ": " ++ e))

/-- The wallet's account: its NEAR key in hexadecimal. -/
def agentAccountOf (verifyingKey : Vector UInt8 32) : String := hexEncode verifyingKey.toList

/-- Sign a message with a wallet's NEAR key. -/
def signMessage (E : Enclave) (customer : Option AccountId) (walletSeed message : String) : ApiResult String := do
  let signature ← orInternal "Signing failed" (E.sign customer walletSeed (E.sha256 message))
  .ok (hexEncode signature.toList)

/-- The message a store is signed over. -/
def SignSecretStoreRequest.message (req : SignSecretStoreRequest) (target : AgentSecretTarget) (agentAccount : String) :
    String :=
  secretStoreMessage ("ed25519:" ++ agentAccount) target.binding agentAccount req.encryptedSecretsBase64
    (trim req.payer) (req.vaultId.getD "") (accessBinding req.access)

/-- The message a deletion is signed over. -/
def SignSecretDeleteRequest.message (req : SignSecretDeleteRequest) (target : AgentSecretTarget)
    (agentAccount : String) : String :=
  secretDeleteMessage ("ed25519:" ++ agentAccount) target.binding agentAccount (trim req.payer)

/-- What both handlers begin with: the customer whose master is used. -/
def openWallet (E : Enclave) (header : Option HeaderValue) (walletId : String) : ApiResult (Option AccountId) := do
  demand (E.ready = true) (.unauthorized "Keystore not ready.")
  validateWalletId walletId
  let customer ← extractCustomerFromHeader E.accountWording header
  E.ensureCustomerLoaded customer
  .ok customer

/-- The wallet's NEAR key. -/
def walletNearKey (E : Enclave) (customer : Option AccountId) (walletId : String) : ApiResult (Vector UInt8 32) :=
  orInternal "Failed to derive public key" (E.getPublicKeyForSeed customer (walletSeed E.chains walletId "near"))

/-- Open the ciphertext under the seed that the target will be read with. -/
def openSealed (E : Enclave) (customer : Option AccountId) (seed encryptedSecretsBase64 : String) :
    ApiResult (List UInt8) := do
  let encryptedBytes ←
    orBadRequest "encrypted_secrets_base64 is not valid base64" (E.base64Decode encryptedSecretsBase64)
  match E.decrypt customer seed encryptedBytes with
  | .ok plaintext => .ok plaintext
  | .error _ => .error (.forbidden ("The secret did not decrypt under this agent's seed — refusing to sign. " ++
      "Encrypt it with the key from the agent-secret pubkey endpoint for this exact project."))

/-- Signs the storing of a secret with the wallet's own key, once the sealed secret opens and its condition is within
    bounds. -/
def walletSignSecretStore (E : Enclave) (header : Option HeaderValue) (req : SignSecretStoreRequest) :
    ApiResult SignedForAgent := do
  let customer ← openWallet E header req.walletId
  demand (req.encryptedSecretsBase64 ≠ "") (.badRequest "encrypted_secrets_base64 is required")
  let target ← AgentSecretTarget.fromFields E.unicode req.projectId req.wasmHash
  demand (trim req.payer ≠ "") (.badRequest "payer is required")
  let verifyingKey ← walletNearKey E customer req.walletId
  let agentAccount := agentAccountOf verifyingKey
  let _plaintext ← openSealed E customer (target.seed agentAccount) req.encryptedSecretsBase64
  orBadRequest "access condition refused" (E.conditionBounds req.access.toDoc)
  let signatureHex ← signMessage E customer (walletSeed E.chains req.walletId "near") (req.message target agentAccount)
  .ok ⟨signatureHex, "ed25519:" ++ agentAccount, agentAccount⟩

/-- Signs the deletion of a secret with the wallet's own key. -/
def walletSignSecretDelete (E : Enclave) (header : Option HeaderValue) (req : SignSecretDeleteRequest) :
    ApiResult SignedForAgent := do
  let customer ← openWallet E header req.walletId
  let target ← AgentSecretTarget.fromFields E.unicode req.projectId req.wasmHash
  demand (trim req.payer ≠ "") (.badRequest ("payer is required: the signature is bound to the account that will " ++
    "send the transaction, and the storage deposit comes back to it."))
  let verifyingKey ← walletNearKey E customer req.walletId
  let agentAccount := agentAccountOf verifyingKey
  let signatureHex ← signMessage E customer (walletSeed E.chains req.walletId "near") (req.message target agentAccount)
  .ok ⟨signatureHex, "ed25519:" ++ agentAccount, agentAccount⟩

/-! ## Reading a row back -/

/-- The accessor of a stored row, as a request names it. -/
def SecretAccessor.ofStored : Outlayer.SecretAccessor → SecretAccessor
  | .repo name branch   => .repo name branch
  | .wasmHash hash      => .wasmHash hash
  | .project projectId  => .project projectId
  | .system .paymentKey => .system .paymentKey

/-- The request that names a stored row. -/
def RowRequest.ofKey (key : SecretKey) : RowRequest where
  accessor := .ofStored key.accessor
  profile := key.profile
  owner := key.owner.name

/-- What a row that was found is opened to, once its reader is admitted and the master of its vault is loaded. -/
def RowRequest.openRow (q : RowRequest) (E : Enclave) (row : SecretProfileView) (vaultId : Option AccountId) :
    ApiResult (List UInt8) := do
  let seed ← q.decryptSeed row
  let encryptedBytes ← orInternal "Invalid base64 in encrypted_secrets" (E.base64Decode row.encryptedSecrets)
  orInternal "Decryption failed" (E.decrypt vaultId seed encryptedBytes)

end Keystore
end Outlayer
