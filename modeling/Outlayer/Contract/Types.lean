import Outlayer.Lib.Text

/-!
# `Contract.Types` — the contract's data types

The values the contract stores, receives and emits, field by field as the source declares them. Machine
integers are `Nat`; the operations that touch them check the width. An account id carries the proof that it is
one, so no unparseable name reaches a map.
-/

namespace Outlayer
open Text

/-! ## Accounts and the host -/

/-- The characters of an account name: lower-case letters and digits, with single separators between them.
    `sep` says that the last character read was a separator (or that nothing has been read). -/
def accountChars (sep : Bool) : List Char → Bool
  | []      => !sep
  | c :: cs =>
      if inRange 'a' 'z' c || inRange '0' '9' c then accountChars false cs
      else if c == '-' || c == '_' || c == '.' then !sep && accountChars true cs
      else false

/-- The account-id rule of the chain. -/
def isValidAccountId (s : String) : Bool :=
  decide (2 ≤ s.utf8ByteSize) && decide (s.utf8ByteSize ≤ 64) && accountChars true s.toList

/-- An account id: a name that satisfies the rule. -/
structure AccountId where
  name : String
  valid : isValidAccountId name = true
deriving DecidableEq

/-- Parse an account id. -/
def AccountId.parse (s : String) : Option AccountId :=
  if h : isValidAccountId s = true then some ⟨s, h⟩ else none

/-- 32 bytes: a data id, or a digest. -/
abbrev CryptoHash := Vector UInt8 32

/-- What the runtime and the libraries compiled in supply to every call: the hash and signature functions,
    the Unicode tables, and how the JSON library reads a number literal (its canonical text, nothing when the
    value is out of range). -/
structure Host where
  sha256 : String → CryptoHash
  /-- signature, message, public key -/
  ed25519Verify : List UInt8 → CryptoHash → List UInt8 → Bool
  /-- message, signature, recovery id; the recovered key is `x ‖ y`, 64 bytes -/
  ecrecover : CryptoHash → List UInt8 → UInt8 → Option (Vector UInt8 64)
  unicode : Unicode
  jsonNumber : String → Option String

/-- The context of one call. `dataId` is the id of the yield the call may create; `waiting` says which yields
    can still be resumed. -/
structure Env where
  predecessor : AccountId
  signer : AccountId
  current : AccountId
  attachedDeposit : Nat
  blockTimestamp : Nat
  dataId : CryptoHash
  waiting : CryptoHash → Bool := fun _ => false
  attachedDeposit_lt : attachedDeposit < 2 ^ 128 := by decide
  blockTimestamp_lt : blockTimestamp < 2 ^ 64 := by decide

/-! ## Execution requests -/

/-- Where the code of a request comes from, once resolved. -/
inductive CodeSource
  | gitHub (repo commit : String) (buildTarget : Option String)
  | wasmUrl (url hash : String) (buildTarget : Option String)
deriving DecidableEq

/-- Where the code of a request comes from, as the caller names it. -/
inductive ExecutionSource
  | gitHub (repo commit : String) (buildTarget : Option String)
  | wasmUrl (url hash : String) (buildTarget : Option String)
  | project (projectId : String) (versionKey : Option String)
deriving DecidableEq

/-- How a request is to be run, the fields left out filled in. -/
structure RequestParams where
  forceRebuild : Bool := false
  storeOnFastfs : Bool := false
  compileOnly : Bool := false
  projectUuid : Option String := none
  attachedUsd : Option Nat := none
  useBoundIdentity : Bool := false
deriving DecidableEq

/-- How the output is read. -/
inductive ResponseFormat
  | bytes
  | text
  | json
deriving DecidableEq

/-- What a run may use; what is left out has a default. -/
structure ResourceLimits where
  maxInstructions : Option Nat
  maxMemoryMb : Option Nat
  maxExecutionSeconds : Option Nat
deriving DecidableEq

/-- `ResourceLimits::default`: 1B instructions, 128 MB, 60 seconds. -/
def ResourceLimits.default : ResourceLimits := ⟨some 1000000000, some 128, some 60⟩

/-- The row of secrets a request names. -/
structure SecretsReference where
  profile : String
  accountId : AccountId
deriving DecidableEq

/-- An output as the worker sends it. A JSON value is given by its compact serialisation, which is all the
    contract keeps of it. -/
inductive ExecutionOutput
  | bytes (bs : List UInt8)
  | text (s : String)
  | json (compact : String)
deriving DecidableEq

/-- An output as the contract stores it. -/
inductive StoredOutput
  | bytes (bs : List UInt8)
  | text (utf8 : String)
  | json (compact : String)
deriving DecidableEq

/-- `From<ExecutionOutput> for StoredOutput`. -/
def StoredOutput.ofOutput : ExecutionOutput → StoredOutput
  | .bytes bs => .bytes bs
  | .text s   => .text s
  | .json v   => .json v

/-- What a run used. -/
structure ResourceMetrics where
  instructions : Nat
  timeMs : Nat
  compileTimeMs : Option Nat
deriving DecidableEq

/-- What the worker reports of a run. -/
structure ExecutionResponse where
  success : Bool
  output : Option ExecutionOutput
  error : Option String
  resourcesUsed : ResourceMetrics
  compilationNote : Option String
  refundUsd : Option Nat
deriving DecidableEq

/-- A request the contract holds until it is settled. -/
structure ExecutionRequest where
  requestId : Nat
  dataId : CryptoHash
  senderId : AccountId
  executionSource : ExecutionSource
  resolvedSource : CodeSource
  resourceLimits : ResourceLimits
  payment : Nat
  timestamp : Nat
  secretsRef : Option SecretsReference
  responseFormat : ResponseFormat
  inputData : Option String
  payerAccountId : AccountId
  attachedUsd : Nat
  pendingOutput : Option StoredOutput
  outputSubmitted : Bool
deriving DecidableEq

/-- The length of the stored input, as every settlement path reads it. -/
def ExecutionRequest.inputLen (r : ExecutionRequest) : Nat := (r.inputData.map String.utf8ByteSize).getD 0

/-! ## Secrets -/

/-- How conditions are joined. -/
inductive LogicOperator
  | and
  | or
deriving DecidableEq

/-- How an amount is compared. -/
inductive ComparisonOperator
  | gte | lte | gt | lt | eq | ne
deriving DecidableEq

/-- The access condition of a secret. The contract stores and prices it; the keystore evaluates it. -/
inductive AccessCondition
  | logic (operator : LogicOperator) (conditions : List AccessCondition)
  | not (condition : AccessCondition)
  | allowAll
  | whitelist (accounts : List AccountId)
  | accountPattern (pattern : String)
  | nearBalance (operator : ComparisonOperator) (value : Nat)
  | ftBalance (contract : AccountId) (operator : ComparisonOperator) (value : Nat)
  | nftOwned (contract : AccountId) (tokenId : Option String)
  | daoMember (daoContract : AccountId) (role : String)
  | validUntil (untilNs : Nat)
  | wasmHash (hash : String)
  | predecessor (condition : AccessCondition)

/-- What the contract itself keeps among the secrets. -/
inductive SystemSecretType
  | paymentKey
deriving DecidableEq

/-- What code may read a secret. -/
inductive SecretAccessor
  | repo (repo : String) (branch : Option String)
  | wasmHash (hash : String)
  | project (projectId : String)
  | system (kind : SystemSecretType)
deriving DecidableEq

/-- What a row is stored under. -/
structure SecretKey where
  accessor : SecretAccessor
  profile : String
  owner : AccountId
deriving DecidableEq

/-- A row of secrets. -/
structure SecretProfile where
  encryptedSecrets : String
  access : AccessCondition
  createdAt : Nat
  updatedAt : Nat
  storageDeposit : Nat

/-! ## Projects -/

/-- A project of an account. -/
structure Project where
  uuid : String
  owner : AccountId
  name : String
  activeVersion : String
  createdAt : Nat
  storageDeposit : Nat
deriving DecidableEq

/-- A version of a project's code. -/
structure VersionInfo where
  source : CodeSource
  addedAt : Nat
  storageDeposit : Nat
deriving DecidableEq

/-- An account's standing agreement to take one project from one owner. -/
structure TransferAcceptance where
  newOwner : AccountId
  «from» : AccountId
  name : String
deriving DecidableEq

/-! ## Prices -/

/-- The price of one operation, and the author's share in basis points. -/
structure OperationPrice where
  operation : String
  priceUsd : Nat
  developerShareBp : Nat
deriving DecidableEq

/-- The prices of a project, and who earns them. -/
structure ProjectPricing where
  authorAccountId : AccountId
  operations : List OperationPrice
deriving DecidableEq

/-- A plan on the price list. -/
structure SubscriptionPlan where
  index : Nat
  name : String
  priceUsd : Nat
  active : Bool
deriving DecidableEq

/-! ## Wallet policies -/

/-- The policy of a wallet. -/
structure WalletPolicyEntry where
  owner : AccountId
  encryptedData : String
  frozen : Bool
  updatedAt : Nat
  storageDeposit : Nat
deriving DecidableEq

/-- A policy's version and lock; absent reads as version 0, unlocked. -/
structure PolicyMeta where
  version : Nat := 0
  locked : Bool := false
deriving DecidableEq

/-- What a refundable storage deposit is held for. -/
inductive StorageItem
  | walletPolicy (walletPubkey : String)
deriving DecidableEq

/-! ## Transfers of the payment token -/

/-- The `msg` of an incoming token transfer. -/
inductive FtTransferAction
  | topUpPaymentKey (nonce : Nat) (owner : Option AccountId)
  | depositBalance
  | buySubscription (nonce : Nat) (owner : Option AccountId) (plan : Nat)
deriving DecidableEq

/-- What the worker reports of a top-up. -/
inductive TopUpResult
  | success (newEncryptedData : String)
  | error (message : String)
deriving DecidableEq

/-- What the worker reports of a deletion. -/
inductive DeletePaymentKeyResult
  | success
  | error (message : String)
deriving DecidableEq

/-! ## What a call emits -/

/-- Events for the workers. -/
inductive SystemEvent
  | topUpPaymentKey (dataId : CryptoHash) (owner : AccountId) (nonce amount : Nat) (encryptedData : String)
  | deletePaymentKey (dataId : CryptoHash) (owner : AccountId) (nonce : Nat)
  | subscriptionPurchased (owner : AccountId) (nonce plan paidUsd : Nat) (payer : AccountId)
  | walletPolicyUpdated (walletPubkey : String) (owner : AccountId) (encryptedData : String) (frozen : Bool)
      (version : Nat) (locked : Bool)
  | walletPolicyDeleted (walletPubkey : String) (owner refundedTo : AccountId)
  | storageRefundToChanged (item : StorageItem) (storageRefundTo : AccountId)
  | walletFrozenChanged (walletPubkey : String) (owner : AccountId) (frozen : Bool)
  | projectTransferred (oldProjectId newProjectId projectUuid : String) (oldOwner newOwner : AccountId)
  | projectTransferAccepted (newOwner «from» : AccountId) (name : String)
  | projectTransferRevoked (newOwner «from» : AccountId) (name : String)
  | projectStorageCleanup (projectId projectUuid : String) (timestamp : Nat)
deriving DecidableEq

/-- The request data a worker is handed: the arguments of the settlement callback and what it needs to run. -/
structure RequestData where
  requestId : Nat
  senderId : AccountId
  predecessorId : AccountId
  codeSource : CodeSource
  resourceLimits : ResourceLimits
  inputData : String
  inputDataInState : Bool
  secretsRef : Option SecretsReference
  responseFormat : ResponseFormat
  payment : Nat
  attachedUsd : Nat
  timestamp : Nat
  compileOnly : Bool
  forceRebuild : Bool
  storeOnFastfs : Bool
  useBoundIdentity : Bool
  projectUuid : Option String
  projectId : Option String
deriving DecidableEq

/-- The callback a yield waits for, with its arguments. -/
inductive YieldCallback
  | onExecutionResponse (data : RequestData)
  | onTopUpResponse (owner : AccountId) (nonce amount : Nat)
  | onDeletePaymentKeyResponse (owner : AccountId) (nonce : Nat)
deriving DecidableEq

/-- What a yield is resumed with. -/
inductive YieldPayload
  | executionResponse (r : ExecutionResponse)
  | topUpResult (r : TopUpResult)
  | deletePaymentKeyResult (r : DeletePaymentKeyResult)
deriving DecidableEq

/-- The event of a settled request. -/
structure ExecutionCompleted where
  senderId : AccountId
  codeSource : CodeSource
  resourcesUsed : ResourceMetrics
  success : Bool
  errorMessage : Option String
  paymentCharged : Nat
  paymentRefunded : Nat
  compilationNote : Option String
  timestamp : Nat
deriving DecidableEq

/-- The data of a logged event about an execution. -/
inductive EventData
  | executionRequested (data : RequestData) (dataId : CryptoHash) (timestamp : Nat)
  | executionCompleted (event : ExecutionCompleted)
deriving DecidableEq

/-- What a method on secrets, projects or policies does outside its own state: it may send NEAR back, log an
    event for the workers, and return a value. It can neither settle a request nor touch a yield. -/
inductive StorageEffect
  | transfer (receiver : AccountId) (amount : Nat)
  | event (standard version : String) (event : SystemEvent)
  | valueReturn (value : String)
deriving DecidableEq

/-- What a call does outside its own state: promises, machine-read logs and the returned value.
    `transfer` sends NEAR in settlement of a request; the request's id is bookkeeping for the statements about
    settlement and not part of the promise. `withdrawal` is the token transfer of a developer's earnings, with
    the callback that restores them when it fails. -/
inductive Effect
  | storage (e : StorageEffect)
  | transfer (receiver : AccountId) (amount : Nat) (settles : Nat)
  | functionCall (receiver : AccountId) (method args : String) (deposit : Nat)
  | withdrawal (token receiver : AccountId) (amount : Nat)
  | yieldCreate (dataId : CryptoHash) (gas : Nat) (callback : YieldCallback)
  | yieldResume (dataId : CryptoHash) (payload : YieldPayload)
  | event (standard version : String) (data : EventData)
  | charged (amount : Nat)
  | valueReturn (value : String)
deriving DecidableEq

/-- Send NEAR back, when there is something to send. -/
def refund (receiver : AccountId) (amount : Nat) : List StorageEffect :=
  if amount > 0 then [.transfer receiver amount] else []

/-- Send NEAR in settlement of a request, when there is something to send. -/
def settle (receiver : AccountId) (amount requestId : Nat) : List Effect :=
  if amount > 0 then [.transfer receiver amount requestId] else []

end Outlayer
