import Outlayer.Worker.Monitor.Events

/-!
# `Worker.Monitor.Blocks` — what a worker makes of one block

A block is read as its shards' receipts with what executing them did. Two things are taken from it. The events are the
contract's own lines in receipts that committed, each with what the receipt says of it. And every committed `Delegate`
action for the contract names a receipt it made: that one arrives in a later block looking like a call of the relayer,
so the block's delegates are remembered until then (`DelegatedCalls`).

## Contents
- **Blocks.** The shapes neardata serves; `ReceiptExecutionOutcome.committed`.
- **Delegates.** `DelegatedCalls`: `record`, `prune`, `metaTransaction`.
- **Scanning.** `processShards`: a block's delegates first, its events after.
-/

namespace Outlayer
open Text Json

namespace Monitor

/-! ## Blocks -/

/-- Who signed a receipt's actions, and the actions. -/
structure ActionDetails where
  signerId : Option String
  signerPublicKey : Option String
  /-- kept as JSON: only a `Delegate` is read -/
  actions : List Value

/-- The action of a receipt. -/
structure ReceiptAction where
  action : Option ActionDetails

/-- A receipt as a block shows it. -/
structure BlockReceipt where
  receiverId : Option String
  receiptId : Option String
  predecessorId : Option String
  receipt : Option ReceiptAction

/-- What executing a receipt came to. -/
structure Outcome where
  logs : Option (List String)
  receiptIds : Option (List String)
  gasBurnt : Option Nat
  status : Option Value

/-- An outcome, where there is one. -/
structure ExecutionOutcome where
  outcome : Option Outcome

/-- A receipt with its outcome and the transaction it is of. -/
structure ReceiptExecutionOutcome where
  receipt : Option BlockReceipt
  executionOutcome : Option ExecutionOutcome
  txHash : Option String

/-- The outcomes of one shard of a block. -/
structure ShardData where
  receiptExecutionOutcomes : Option (List ReceiptExecutionOutcome)

/-- A height without a block has no shards. -/
structure BlockData where
  shards : Option (List ShardData)

/-- How an execution ended. -/
inductive ExecutionStatus
  | successValue (value : String)
  | successReceiptId (receiptId : String)
  | failure (error : Value)
  | unknown

/-- A status is an object of one member. -/
def ExecutionStatus.ofJson : Value → Option ExecutionStatus
  | .obj [(name, content)] =>
      if name = "SuccessValue" then content.asStr.map .successValue
      else if name = "SuccessReceiptId" then content.asStr.map .successReceiptId
      else if name = "Failure" then some (.failure content)
      else if name = "Unknown" ∧ content = .null then some .unknown
      else none
  | .str name => if name = "Unknown" then some .unknown else none
  | _ => none

/-- A status that is missing or not known is not a success. -/
def ExecutionOutcome.committed (execution : ExecutionOutcome) : Bool :=
  match (execution.outcome.bind Outcome.status).bind ExecutionStatus.ofJson with
  | some (.successValue _)     => true
  | some (.successReceiptId _) => true
  | some (.failure _)          => false
  | some .unknown              => false
  | none                       => false

/-- `receipt_committed`. -/
def ReceiptExecutionOutcome.committed (outcome : ReceiptExecutionOutcome) : Bool :=
  (outcome.executionOutcome.map ExecutionOutcome.committed).getD false

namespace ReceiptExecutionOutcome
variable (outcome : ReceiptExecutionOutcome)

/-- The details of the receipt's action, where it has them. -/
def details : Option ActionDetails := (outcome.receipt.bind BlockReceipt.receipt).bind ReceiptAction.action

/-- The outcome itself, where there is one. -/
def result : Option Outcome := outcome.executionOutcome.bind ExecutionOutcome.outcome

/-- What the events of a receipt are told of it. -/
def metadata : Receipt where
  transactionHash := outcome.txHash
  receiptId := outcome.receipt.bind BlockReceipt.receiptId
  predecessorId := outcome.receipt.bind BlockReceipt.predecessorId
  signerId := outcome.details.bind ActionDetails.signerId
  signerPublicKey := outcome.details.bind ActionDetails.signerPublicKey
  gasBurnt := outcome.result.bind Outcome.gasBurnt

/-- The receipt was the contract's. -/
def receivedBy (contractId : String) : Bool := decide (outcome.receipt.bind BlockReceipt.receiverId = some contractId)

end ReceiptExecutionOutcome

/-- The receipts of a block, shard by shard. -/
def outcomes (shards : List ShardData) : List ReceiptExecutionOutcome :=
  shards.flatMap fun shard => shard.receiptExecutionOutcomes.getD []

/-! ## Delegates -/

/-- A receipt a `Delegate` action made for the contract. -/
structure Delegated where
  senderId : String
  relayerId : String
  publicKey : Option String
  block : Nat
deriving DecidableEq

/-- Who relayed a call, and the key its sender signed with. -/
structure MetaTransaction where
  relayerId : String
  senderPublicKey : Option String
deriving DecidableEq

/-- Blocks a delegated receipt is remembered for after its `Delegate`. -/
def delegatedTtlBlocks : Nat := 3000

/-- The receipts `Delegate` actions made, by their ids; an id written again is written over. -/
structure DelegatedCalls where
  byReceipt : List (String × Delegated)
deriving DecidableEq

/-- The delegate of an action, when it is a `Delegate` for the contract that names its sender. -/
def delegateOf (contractId : String) (action : Value) : Option (String × Option String) := do
  let delegate ← (action.get "Delegate").bind fun d => d.get "delegate_action"
  if (delegate.get "receiver_id").bind Value.asStr ≠ some contractId then none
  else do
    let senderId ← (delegate.get "sender_id").bind Value.asStr
    pure (senderId, (delegate.get "public_key").bind Value.asStr)

/-- What a receipt's `Delegate` actions made: every receipt it made, under each of them. -/
def delegatedBy (outcome : ReceiptExecutionOutcome) (contractId : String) (block : Nat) :
    List (String × Delegated) :=
  match outcome.details with
  | none         => []
  | some details =>
      match details.signerId with
      | none           => []
      | some relayerId =>
          if outcome.committed then
            (details.actions.filterMap (delegateOf contractId)).flatMap fun delegate =>
              ((outcome.result.bind Outcome.receiptIds).getD []).map fun child =>
                (child, { senderId := delegate.1, relayerId, publicKey := delegate.2, block })
          else []

namespace DelegatedCalls

/-- No call. -/
def empty : DelegatedCalls := ⟨[]⟩

/-- What is known of a receipt that a `Delegate` made. -/
def lookup (d : DelegatedCalls) (receiptId : String) : Option Delegated := d.byReceipt.lookup receiptId

/-- Record a receipt, in place of what was recorded of it. -/
def insert (d : DelegatedCalls) (receiptId : String) (delegated : Delegated) : DelegatedCalls :=
  ⟨(receiptId, delegated) :: d.byReceipt.filter fun e => decide (e.1 ≠ receiptId)⟩

/-- Remember the receipts the `Delegate` actions of a receipt made. -/
def record (d : DelegatedCalls) (outcome : ReceiptExecutionOutcome) (contractId : String) (block : Nat) :
    DelegatedCalls :=
  (delegatedBy outcome contractId block).foldl (fun d e => d.insert e.1 e.2) d

/-- The meta-transaction behind a receipt, when a `Delegate` signed by `predecessor` and relayed by `signer` made it. A
    delegate its own sender relayed is a direct call. -/
def metaTransaction (d : DelegatedCalls) (receiptId : String) (predecessor signer : Option String) :
    Option MetaTransaction := do
  let delegated ← d.lookup receiptId
  if some delegated.senderId = predecessor ∧ some delegated.relayerId = signer ∧
      delegated.senderId ≠ delegated.relayerId then
    some { relayerId := delegated.relayerId, senderPublicKey := delegated.publicKey }
  else none

/-- Forget what is too old to be asked for. -/
def prune (d : DelegatedCalls) (block : Nat) : DelegatedCalls :=
  ⟨d.byReceipt.filter fun e => decide (block ≤ e.2.block + delegatedTtlBlocks)⟩

end DelegatedCalls

/-! ## Scanning -/

/-- What a worker is set up for: the contract it follows, and which events of it. -/
structure Setup where
  host : Host
  /-- how the standard library prints an optional text for debugging -/
  debug : Option String → String
  contractId : String
  eventFilter : EventFilter
  scanIntervalMs : Nat

/-- What a receipt says of an event in its logs. A meta-transaction's signer is its relayer: the key that counts is the
    sender's. -/
def attach (delegated : DelegatedCalls) (receipt : Receipt) : ContractEvent → ContractEvent
  | .executionRequested event =>
      match receipt.receiptId.bind fun id => delegated.metaTransaction id receipt.predecessorId receipt.signerId with
      | none      => .executionRequested { event with receipt }
      | some found => .executionRequested
          { event with receipt := { receipt with signerPublicKey := found.senderPublicKey }
                       relayerId := some found.relayerId }
  | .subscriptionPurchased event => .subscriptionPurchased { event with receiptId := receipt.receiptId }
  | event => event

/-- The events of a receipt: a failed one keeps its logs, while the chain rolled back what they announce. -/
def receiptEvents (S : Setup) (delegated : DelegatedCalls) (blockHeight : Nat) (outcome : ReceiptExecutionOutcome) :
    List ContractEvent :=
  if outcome.receivedBy S.contractId ∧ outcome.committed then
    ((outcome.result.bind Outcome.logs).getD []).filterMap fun log =>
      (processLog S.host S.eventFilter log blockHeight).map (attach delegated outcome.metadata)
  else []

/-- A block's delegates are recorded before its events are read. -/
def DelegatedCalls.scan (d : DelegatedCalls) (S : Setup) (shards : List ShardData) (blockHeight : Nat) :
    DelegatedCalls :=
  (outcomes shards).foldl (fun d outcome => d.record outcome S.contractId blockHeight) (d.prune blockHeight)

/-- `process_shards`. -/
def processShards (S : Setup) (d : DelegatedCalls) (shards : List ShardData) (blockHeight : Nat) :
    List ContractEvent × DelegatedCalls :=
  let d := d.scan S shards blockHeight
  ((outcomes shards).flatMap (receiptEvents S d blockHeight), d)

end Monitor

end Outlayer
