import Outlayer.Contract.Json
import Outlayer.Lib.JsonRecords

/-!
# `Worker.Monitor.Events` — the events a worker reads from the contract's logs

A worker follows the chain block by block and reads the contract's events from the logs of its receipts. `processLog`
takes one line: a text after a prefix, one JSON object, of the standard and a version the worker is set up for, with the
data of one event it knows. The types of the data are the worker's own, declared apart from the contract's.

A record is read off an object, its members by name; a member the record does not have is passed over. An event is read
off a value, which has one member of a name; the data of a request, once more, from a text. The data of a request may
also be an array of the fields; the records around them are taken from objects only, as the contract writes them, though
serde would take their fields from an array too.
-/

namespace Outlayer
open Text Json

namespace Monitor

/-! ## Requests -/

/-- A repository at a commit, to be built. -/
structure GitHubSource where
  repo : String
  commit : String
  buildTarget : Option String
deriving DecidableEq

/-- A build to be downloaded, and its hash. -/
structure WasmUrlSource where
  url : String
  hash : String
  buildTarget : Option String
deriving DecidableEq

/-- Where the code of a run comes from. -/
inductive CodeSource
  | gitHub (github : GitHubSource)
  | wasmUrl (wasmUrl : WasmUrlSource)
deriving DecidableEq

/-- Every limit is required here. -/
structure ResourceLimits where
  maxInstructions : Nat
  maxMemoryMb : Nat
  maxExecutionSeconds : Nat
deriving DecidableEq

/-- The row of secrets a request names. -/
structure SecretsReference where
  profile : String
  accountId : String
deriving DecidableEq

/-- How the output of a run is read. -/
inductive ResponseFormat
  | bytes
  | text
  | json
deriving DecidableEq

/-- What a request asks for. -/
structure RequestData where
  requestId : Nat
  senderId : String
  codeSource : CodeSource
  resourceLimits : ResourceLimits
  inputData : String
  inputDataInState : Bool
  secretsRef : Option SecretsReference
  predecessorId : Option String
  payment : String
  attachedUsd : Option String
  timestamp : Nat
  responseFormat : ResponseFormat
  compileOnly : Bool
  forceRebuild : Bool
  storeOnFastfs : Bool
  useBoundIdentity : Bool
  projectUuid : Option String
  projectId : Option String
deriving DecidableEq

/-! The data of a request are read from their text into the record, without a value between: a field that stands twice
is refused, and an array of the fields, in their order, does for an object. -/

/-- The members of each record, in the order in which an array holds them. -/
def githubFields : List String := ["repo", "commit", "build_target"]

/-- Reads a source on GitHub. -/
def GitHubSource.ofJson (v : Value) : Option GitHubSource := do
  let repo ← v.required githubFields "repo" Value.asStr
  let commit ← v.required githubFields "commit" Value.asStr
  let buildTarget ← v.nullable githubFields "build_target" Value.asStr
  pure { repo, commit, buildTarget }

/-- The fields of a source that is one compiled file. -/
def wasmUrlFields : List String := ["url", "hash", "build_target"]

/-- Reads a source that is one compiled file. -/
def WasmUrlSource.ofJson (v : Value) : Option WasmUrlSource := do
  let url ← v.required wasmUrlFields "url" Value.asStr
  let hash ← v.required wasmUrlFields "hash" Value.asStr
  let buildTarget ← v.nullable wasmUrlFields "build_target" Value.asStr
  pure { url, hash, buildTarget }

/-- The enum is untagged: the variants are tried in turn, each an object with the member of that name. -/
def CodeSource.ofJson (v : Value) : Option CodeSource :=
  match v with
  | .obj _ =>
      ((v.required ["GitHub"] "GitHub" GitHubSource.ofJson).map .gitHub).or
        ((v.required ["WasmUrl"] "WasmUrl" WasmUrlSource.ofJson).map .wasmUrl)
  | _ => none

/-- The fields of limits. -/
def limitsFields : List String := ["max_instructions", "max_memory_mb", "max_execution_seconds"]

/-- Reads limits; the worker's types take none of them as missing. -/
def ResourceLimits.ofJson (v : Value) : Option ResourceLimits := do
  let maxInstructions ← v.required limitsFields "max_instructions" (Value.asUnsigned 64)
  let maxMemoryMb ← v.required limitsFields "max_memory_mb" (Value.asUnsigned 32)
  let maxExecutionSeconds ← v.required limitsFields "max_execution_seconds" (Value.asUnsigned 64)
  pure { maxInstructions, maxMemoryMb, maxExecutionSeconds }

/-- The fields of a reference to secrets. -/
def secretsFields : List String := ["profile", "account_id"]

/-- Reads the row of secrets a request names. -/
def SecretsReference.ofJson (v : Value) : Option SecretsReference := do
  let profile ← v.required secretsFields "profile" Value.asStr
  let accountId ← v.required secretsFields "account_id" Value.asStr
  pure { profile, accountId }

/-- A variant by its name. -/
def ResponseFormat.ofName : String → Option ResponseFormat
  | "Bytes" => some .bytes
  | "Text"  => some .text
  | "Json"  => some .json
  | _       => none

/-- A variant without fields is its name, or the name with `null`. -/
def ResponseFormat.ofJson : Value → Option ResponseFormat
  | .str name            => ofName name
  | .obj [(name, .null)] => ofName name
  | _                    => none

/-- The fields of a request, in the order of the record. -/
def requestFields : List String :=
  ["request_id", "sender_id", "code_source", "resource_limits", "input_data", "input_data_in_state", "secrets_ref",
   "predecessor_id", "payment", "attached_usd", "timestamp", "response_format", "compile_only", "force_rebuild",
   "store_on_fastfs", "use_bound_identity", "project_uuid", "project_id"]

/-- A field of the data. From the twelfth on each has a default, so an array may end before it. -/
def requestField (v : Value) (name : String) : Option (Option Value) := v.memberFrom requestFields 11 name

/-- The data of a request. What is left out has a default, or is none. -/
def RequestData.ofJson (v : Value) : Option RequestData := do
  let requestId ← readRequired (requestField v "request_id") (Value.asUnsigned 64)
  let senderId ← readRequired (requestField v "sender_id") Value.asStr
  let codeSource ← readRequired (requestField v "code_source") CodeSource.ofJson
  let resourceLimits ← readRequired (requestField v "resource_limits") ResourceLimits.ofJson
  let inputData ← readRequired (requestField v "input_data") Value.asStr
  let inputDataInState ← readDefaulted (requestField v "input_data_in_state") false Value.asBool
  let secretsRef ← readNullable (requestField v "secrets_ref") SecretsReference.ofJson
  let predecessorId ← readNullable (requestField v "predecessor_id") Value.asStr
  let payment ← readRequired (requestField v "payment") Value.asStr
  let attachedUsd ← readNullable (requestField v "attached_usd") Value.asStr
  let timestamp ← readRequired (requestField v "timestamp") (Value.asUnsigned 64)
  let responseFormat ← readDefaulted (requestField v "response_format") .text ResponseFormat.ofJson
  let compileOnly ← readDefaulted (requestField v "compile_only") false Value.asBool
  let forceRebuild ← readDefaulted (requestField v "force_rebuild") false Value.asBool
  let storeOnFastfs ← readDefaulted (requestField v "store_on_fastfs") false Value.asBool
  let useBoundIdentity ← readDefaulted (requestField v "use_bound_identity") false Value.asBool
  let projectUuid ← readNullable (requestField v "project_uuid") Value.asStr
  let projectId ← readNullable (requestField v "project_id") Value.asStr
  pure { requestId, senderId, codeSource, resourceLimits, inputData, inputDataInState, secretsRef, predecessorId
         payment, attachedUsd, timestamp, responseFormat, compileOnly, forceRebuild, storeOnFastfs, useBoundIdentity
         projectUuid, projectId }

/-- The data once more, from the text the event holds them in. -/
def RequestData.ofText (number : String → Option String) (text : String) : Option RequestData :=
  (parseTree number text).bind ofJson

/-! ## Events -/

/-- What the block knows of the receipt that wrote a log. -/
structure Receipt where
  transactionHash : Option String
  receiptId : Option String
  predecessorId : Option String
  signerId : Option String
  signerPublicKey : Option String
  gasBurnt : Option Nat
deriving DecidableEq

/-- A request for an execution. All but the first three come from the block, not from the log. -/
structure ExecutionRequestedEvent where
  requestData : String
  dataId : List UInt8
  timestamp : Nat
  blockHeight : Nat
  receipt : Receipt
  /-- who relayed the call, when it is a meta-transaction -/
  relayerId : Option String
deriving DecidableEq

/-- A project is gone, and so is its storage to be. -/
structure ProjectStorageCleanupEvent where
  projectId : String
  projectUuid : String
  timestamp : Nat
  blockHeight : Nat
deriving DecidableEq

/-- A project has a new owner, and with it a new id. -/
structure ProjectTransferredEvent where
  oldProjectId : String
  newProjectId : String
  projectUuid : String
  oldOwner : String
  newOwner : String
deriving DecidableEq

/-- Tokens were sent for a payment key. -/
structure TopUpPaymentKeyEvent where
  dataId : List UInt8
  owner : String
  nonce : Nat
  amount : String
  encryptedData : String
deriving DecidableEq

/-- A payment key is to be deleted. -/
structure DeletePaymentKeyEvent where
  dataId : List UInt8
  owner : String
  nonce : Nat
deriving DecidableEq

/-- A wallet's policy was stored. -/
structure WalletPolicyUpdatedEvent where
  walletPubkey : String
  owner : String
  encryptedData : String
  frozen : Bool
deriving DecidableEq

/-- A wallet's policy was deleted. -/
structure WalletPolicyDeletedEvent where
  walletPubkey : String
  owner : String
deriving DecidableEq

/-- A wallet was frozen or released. -/
structure WalletFrozenChangedEvent where
  walletPubkey : String
  owner : String
  frozen : Bool
deriving DecidableEq

/-- A subscription was paid for. -/
structure SubscriptionPurchasedEvent where
  owner : String
  nonce : Nat
  plan : Nat
  paidUsd : String
  payer : String
  /-- the receipt that carried the payment, which the scan fills in -/
  receiptId : Option String
deriving DecidableEq

/-- The events the worker knows. -/
inductive ContractEvent
  | executionRequested (event : ExecutionRequestedEvent)
  | projectStorageCleanup (event : ProjectStorageCleanupEvent)
  | projectTransferred (event : ProjectTransferredEvent)
  | topUpPaymentKey (event : TopUpPaymentKeyEvent)
  | deletePaymentKey (event : DeletePaymentKeyEvent)
  | walletPolicyUpdated (event : WalletPolicyUpdatedEvent)
  | walletPolicyDeleted (event : WalletPolicyDeletedEvent)
  | walletFrozenChanged (event : WalletFrozenChangedEvent)
  | subscriptionPurchased (event : SubscriptionPurchasedEvent)
deriving DecidableEq

/-- A receipt nothing is known of. -/
def Receipt.unknown : Receipt := ⟨none, none, none, none, none, none⟩

/-- The data of each event, read off an object. What the block knows is filled in by the scan. -/
def ExecutionRequestedEvent.ofJson (blockHeight : Nat) (v : Value) : Option ExecutionRequestedEvent := do
  let requestData ← v.field "request_data" Value.asStr
  let dataId ← v.field "data_id" (Value.asList Value.asByte)
  let timestamp ← v.field "timestamp" (Value.asUnsigned 64)
  pure { requestData, dataId, timestamp, blockHeight, receipt := .unknown, relayerId := none }

/-- Reads the record of a project that is gone. -/
def ProjectStorageCleanupEvent.ofJson (blockHeight : Nat) (v : Value) : Option ProjectStorageCleanupEvent := do
  let projectId ← v.field "project_id" Value.asStr
  let projectUuid ← v.field "project_uuid" Value.asStr
  let timestamp ← v.field "timestamp" (Value.asUnsigned 64)
  pure { projectId, projectUuid, timestamp, blockHeight }

/-- Reads the record of a project that has a new owner. -/
def ProjectTransferredEvent.ofJson (v : Value) : Option ProjectTransferredEvent := do
  let oldProjectId ← v.field "old_project_id" Value.asStr
  let newProjectId ← v.field "new_project_id" Value.asStr
  let projectUuid ← v.field "project_uuid" Value.asStr
  let oldOwner ← v.field "old_owner" Value.asStr
  let newOwner ← v.field "new_owner" Value.asStr
  pure { oldProjectId, newProjectId, projectUuid, oldOwner, newOwner }

/-- Reads the record of a top-up. -/
def TopUpPaymentKeyEvent.ofJson (v : Value) : Option TopUpPaymentKeyEvent := do
  let dataId ← v.field "data_id" (Value.asList Value.asByte)
  let owner ← v.field "owner" Value.asStr
  let nonce ← v.field "nonce" (Value.asUnsigned 32)
  let amount ← v.field "amount" Value.asStr
  let encryptedData ← v.field "encrypted_data" Value.asStr
  pure { dataId, owner, nonce, amount, encryptedData }

/-- Reads the record of a payment key to be deleted. -/
def DeletePaymentKeyEvent.ofJson (v : Value) : Option DeletePaymentKeyEvent := do
  let dataId ← v.field "data_id" (Value.asList Value.asByte)
  let owner ← v.field "owner" Value.asStr
  let nonce ← v.field "nonce" (Value.asUnsigned 32)
  pure { dataId, owner, nonce }

/-- Reads the record of a policy that was stored. -/
def WalletPolicyUpdatedEvent.ofJson (v : Value) : Option WalletPolicyUpdatedEvent := do
  let walletPubkey ← v.field "wallet_pubkey" Value.asStr
  let owner ← v.field "owner" Value.asStr
  let encryptedData ← v.field "encrypted_data" Value.asStr
  let frozen ← v.field "frozen" Value.asBool
  pure { walletPubkey, owner, encryptedData, frozen }

/-- Reads the record of a policy that was deleted. -/
def WalletPolicyDeletedEvent.ofJson (v : Value) : Option WalletPolicyDeletedEvent := do
  let walletPubkey ← v.field "wallet_pubkey" Value.asStr
  let owner ← v.field "owner" Value.asStr
  pure { walletPubkey, owner }

/-- Reads the record of a wallet frozen or unfrozen. -/
def WalletFrozenChangedEvent.ofJson (v : Value) : Option WalletFrozenChangedEvent := do
  let walletPubkey ← v.field "wallet_pubkey" Value.asStr
  let owner ← v.field "owner" Value.asStr
  let frozen ← v.field "frozen" Value.asBool
  pure { walletPubkey, owner, frozen }

/-- Reads the record of a subscription that was bought. -/
def SubscriptionPurchasedEvent.ofJson (v : Value) : Option SubscriptionPurchasedEvent := do
  let owner ← v.field "owner" Value.asStr
  let nonce ← v.field "nonce" (Value.asUnsigned 32)
  let plan ← v.field "plan" (Value.asUnsigned 8)
  let paidUsd ← v.field "paid_usd" Value.asStr
  let payer ← v.field "payer" Value.asStr
  let receiptId ← v.optional "receipt_id" Value.asStr
  pure { owner, nonce, plan, paidUsd, payer, receiptId }

/-! ## One line of a log -/

/-- A log that is an event: it starts with the prefix and holds no line break. -/
def eventJsonPayload (log : String) : Option String :=
  if startsWith log "EVENT_JSON:" then
    let json := log.toList.drop "EVENT_JSON:".toList.length
    if '\n' ∈ json ∨ '\r' ∈ json then none else some (String.ofList json)
  else none

/-- A version of one, two or three numbers; more parts are passed over. -/
def parseSemver (version : String) : Option (Nat × Nat × Nat) :=
  match version.toList.splitOn '.' with
  | []                           => none
  | [major]                      => do
      let major ← parseUnsigned 64 (String.ofList major)
      pure (major, 0, 0)
  | [major, minor]               => do
      let major ← parseUnsigned 64 (String.ofList major)
      let minor ← parseUnsigned 64 (String.ofList minor)
      pure (major, minor, 0)
  | major :: minor :: patch :: _ => do
      let major ← parseUnsigned 64 (String.ofList major)
      let minor ← parseUnsigned 64 (String.ofList minor)
      let patch ← parseUnsigned 64 (String.ofList patch)
      pure (major, minor, patch)

/-- Compare two versions, the first number first. -/
def semverGte (actual required : Nat × Nat × Nat) : Bool :=
  decide (required.1 < actual.1) || (decide (required.1 = actual.1) &&
    (decide (required.2.1 < actual.2.1) || (decide (required.2.1 = actual.2.1) &&
      decide (required.2.2 ≤ actual.2.2))))

/-- Which events a worker is set up for. -/
structure EventFilter where
  standardName : String
  functionName : String
  minVersion : Option (Nat × Nat × Nat)

/-- An event without a version passes only when none is required. -/
def EventFilter.admitsVersion (f : EventFilter) (version : Option String) : Bool :=
  match f.minVersion with
  | none          => true
  | some required =>
      match version.bind parseSemver with
      | some actual => semverGte actual required
      | none        => false

/-- The kinds of a `system_event`, in the order they are looked for, with what reads the data of each. -/
def systemEventKinds (blockHeight : Nat) : List (String × (Value → Option ContractEvent)) :=
  [("TopUpPaymentKey", fun v => (TopUpPaymentKeyEvent.ofJson v).map .topUpPaymentKey),
   ("DeletePaymentKey", fun v => (DeletePaymentKeyEvent.ofJson v).map .deletePaymentKey),
   ("ProjectStorageCleanup", fun v =>
      (ProjectStorageCleanupEvent.ofJson blockHeight v).map .projectStorageCleanup),
   ("ProjectTransferred", fun v => (ProjectTransferredEvent.ofJson v).map .projectTransferred),
   ("SubscriptionPurchased", fun v => (SubscriptionPurchasedEvent.ofJson v).map .subscriptionPurchased),
   ("WalletPolicyUpdated", fun v => (WalletPolicyUpdatedEvent.ofJson v).map .walletPolicyUpdated),
   ("WalletPolicyDeleted", fun v => (WalletPolicyDeletedEvent.ofJson v).map .walletPolicyDeleted),
   ("WalletFrozenChanged", fun v => (WalletFrozenChangedEvent.ofJson v).map .walletFrozenChanged)]

/-- The first kind that is there decides, also when its data cannot be read. -/
def systemEvent (blockHeight : Nat) (data : Value) : Option ContractEvent :=
  ((systemEventKinds blockHeight).findSome? fun kind => (data.get kind.1).map kind.2).join

/-- The data of a request are read here only to see that they can be. -/
def executionRequested (H : Host) (blockHeight : Nat) (data : Value) : Option ContractEvent := do
  let event ← ExecutionRequestedEvent.ofJson blockHeight data
  let _ ← RequestData.ofText H.jsonNumber event.requestData
  pure (.executionRequested event)

/-- `process_log`. -/
def processLog (H : Host) (f : EventFilter) (log : String) (blockHeight : Nat) : Option ContractEvent := do
  let json ← eventJsonPayload log
  let event ← Json.parse H.jsonNumber json
  let standard ← event.field "standard" Value.asStr
  if standard ≠ f.standardName then none
  else if f.admitsVersion (event.field "version" Value.asStr) = false then none
  else do
    let eventName ← event.field "event" Value.asStr
    let dataArray ← event.field "data" Value.asArray
    let data ← dataArray.head?
    if eventName = "execution_requested" then
      if eventName ≠ f.functionName then none else executionRequested H blockHeight data
    else if eventName = "system_event" then systemEvent blockHeight data
    else none

/-! ## Lines the contract wrote -/

/-- A text without control characters is taken whole from behind the prefix. -/
theorem eventJsonPayload_append {text : String} (h : ∀ c ∈ text.toList, 0x20 ≤ c.toNat) :
    eventJsonPayload ("EVENT_JSON:" ++ text) = some text := by
  unfold eventJsonPayload startsWith
  generalize "EVENT_JSON:" = marker
  have hbreak : ¬ ('\n' ∈ text.toList ∨ '\r' ∈ text.toList) := by
    rintro (hc | hc)
    · exact absurd (h _ hc) (by decide)
    · exact absurd (h _ hc) (by decide)
  rw [String.toList_append, decide_eq_true (List.prefix_append _ _), if_pos rfl, List.drop_left]
  dsimp only
  rw [if_neg hbreak, String.ofList_toList]

/-- Events of a standard and a version a worker is set up for, executions among them. -/
structure EventFilter.Matches (f : EventFilter) (standard version : String) : Prop where
  standard : standard = f.standardName
  version : f.admitsVersion (some version) = true
  function : f.functionName = "execution_requested"

/-- **A request's line is read as far as its data.** -/
theorem processLog_logEvent {H : Host} {f : EventFilter} {standard version : String}
    (hf : f.Matches standard version) {data : Value} (hdata : data.Good H.jsonNumber (recursionLimit - 2))
    (blockHeight : Nat) :
    processLog H f (logEvent standard version "execution_requested" data) blockHeight
      = executionRequested H blockHeight (data.reread H.jsonNumber) := by
  have hkeys : (Value.obj [("standard", .str standard), ("version", .str version),
      ("event", .str "execution_requested"), ("data", .arr [data])]).Distinct :=
    distinct_of_keys ["standard", "version", "event", "data"] rfl (by decide)
  have hgood : (Value.obj [("standard", .str standard), ("version", .str version),
      ("event", .str "execution_requested"), ("data", .arr [data])]).Good H.jsonNumber recursionLimit :=
    ⟨by decide, trivial, trivial, trivial, ⟨by decide, hdata, trivial⟩, trivial⟩
  have hversion := hf.version
  unfold processLog logEvent
  rw [eventJsonPayload_append (compact_printed _ hgood)]
  simp only [Option.bind_eq_bind, Option.bind_some, parse_compact hgood]
  rw [field_reread hkeys rfl, field_reread hkeys rfl, field_reread hkeys rfl, field_reread hkeys rfl]
  simp only [Value.reread, Value.asStr, Value.asArray, rereadElements, Option.bind_some, List.head?_cons, hversion,
    ← hf.standard, hf.function, ne_eq, not_true_eq_false, if_false, if_true, Bool.true_eq_false]

end Monitor

end Outlayer
