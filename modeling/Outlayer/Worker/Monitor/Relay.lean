import Outlayer.Worker.Monitor.Requests
import Outlayer.Worker.Monitor.Blocks
import Outlayer.Lib.OrderedMap

/-!
# `Worker.Monitor.Relay` — what becomes of one event

Each event is relayed to the coordinator as it says, or only while the contract still holds what it speaks of, or as the
contract holds it now, or later, or not at all. `relayDecision` says which; `relay` carries it out; `deliver` does both
for the events of a block and keeps those a later delivery may still get through.

What the monitor runs among is in `Answers`: every block read, view, reply and look at the clock is answered by it, in
the order the questions are asked. A `Session` is what the monitor holds behind its locks, the clock, and the record of
what was done, which only grows.

## Contents
- **Messages.** What the coordinator is told.
- **Sessions.** `Answers`, `Act`, `Session`, and the programs `Mon` over it.
- **Relaying.** The handlers of the events, `relayAsIs`, `relayWalletStateAtFinal`, `relay`.
- **Delivering.** `relayDecision`, `deliver`.
-/

namespace Outlayer
open Text Checked Json

namespace Monitor

/-! ## The queue of deferred blocks -/

/-- The pauses between two tries of one deferred block. -/
def deferredPauses : List Nat := [2000, 4000, 8000, 16000, 30000]

/-- The pause after so many tries; the last one stays. -/
def deferredPause (tries : Nat) : Nat := deferredPauses.getD (min tries (deferredPauses.length - 1)) 0

/-- How many blocks behind the head a deferred block is kept before it is given up. -/
def deferredMaxAgeBlocks : Nat := 3000

/-- The most blocks the queue holds. -/
def deferredMaxLen : Nat := 500

/-- While a block this close before a block is unread, a call in it that may be a meta-transaction waits. -/
def delegateLookbackBlocks : Nat := 10

/-- A block that waits: how often it was tried, and when it is due. -/
structure Deferred where
  tries : Nat
  nextTry : Nat
  /-- nothing while the block is unread, else those of its events that are still to be delivered -/
  events : Option (List ContractEvent)
deriving DecidableEq

/-- The queue, in the order of the heights. -/
structure DeferredBlocks where
  blocks : List (Nat × Deferred)
deriving DecidableEq

/-- A block the queue gave up, and its events still undelivered if it was read. -/
abbrev GivenUp := Nat × Option (List ContractEvent)

namespace DeferredBlocks

/-- No block waits. -/
def empty : DeferredBlocks := ⟨[]⟩

variable (q : DeferredBlocks)

/-- What is known of a block that waits. -/
def lookup (height : Nat) : Option Deferred := q.blocks.lookup height

/-- Add a block; when there are too many, the oldest is given up. -/
def insert (height : Nat) (events : Option (List ContractEvent)) (now : Nat) : DeferredBlocks × Option GivenUp :=
  let blocks := OrderedMap.put height { tries := 0, nextTry := now + deferredPause 0, events } q.blocks
  if deferredMaxLen < blocks.length then (⟨blocks.tail⟩, blocks.head?.map fun e => (e.1, e.2.events))
  else (⟨blocks⟩, none)

/-- Add a block unread. -/
def defer (height now : Nat) : DeferredBlocks × Option GivenUp := q.insert height none now

/-- Add a block read, with events still to deliver. -/
def keep (height : Nat) (events : List ContractEvent) (now : Nat) : DeferredBlocks × Option GivenUp :=
  q.insert height (some events) now

/-- The oldest blocks due, at most `limit`. -/
def due (now limit : Nat) : List Nat :=
  ((q.blocks.filter fun e => decide (e.2.nextTry ≤ now)).map Prod.fst).take limit

/-- The events still to deliver, nothing while the block is unread. -/
def events (height : Nat) : Option (List ContractEvent) := (q.lookup height).bind Deferred.events

/-- A block is not done: due after the next pause, with `events` still to deliver if it has been read. -/
def retryLater (height : Nat) (events : Option (List ContractEvent)) (now : Nat) : DeferredBlocks :=
  ⟨OrderedMap.change height (fun d => { tries := d.tries + 1, nextTry := now + deferredPause (d.tries + 1)
                                        events := events.or d.events }) q.blocks⟩

/-- The block waits no more. -/
def remove (height : Nat) : DeferredBlocks := ⟨OrderedMap.erase height q.blocks⟩

/-- Too far behind the head: unread, or read and twice as far. -/
def tooOld (head height : Nat) (d : Deferred) : Bool :=
  match d.events with
  | none   => decide (height < head - deferredMaxAgeBlocks)
  | some _ => decide (height < head - 2 * deferredMaxAgeBlocks)

/-- Have the blocks after an unread one, which may have waited for it, tried at once. -/
def release (height now : Nat) : DeferredBlocks :=
  ⟨q.blocks.map fun e =>
    if height + 1 ≤ e.1 ∧ e.1 ≤ height + delegateLookbackBlocks then (e.1, { e.2 with nextTry := now }) else e⟩

/-- Give up one block, if it is there. -/
def giveUp (height now : Nat) : DeferredBlocks × List GivenUp :=
  match q.lookup height with
  | none   => (q, [])
  | some d =>
      match d.events with
      | none        => ((q.remove height).release height now, [(height, none)])
      | some events => (q.remove height, [(height, some events)])

/-- Give up blocks, one after the other, with what is lost by it. -/
def giveUpAll (now : Nat) : List Nat → DeferredBlocks → DeferredBlocks × List GivenUp
  | [], q                => (q, [])
  | height :: heights, q =>
      let (q, givenUp) := q.giveUp height now
      let (q, rest) := giveUpAll now heights q
      (q, givenUp ++ rest)

/-- Give up the blocks too far behind the head. -/
def expire (head now : Nat) : DeferredBlocks × List GivenUp :=
  giveUpAll now ((q.blocks.filter fun e => tooOld head e.1 e.2).map Prod.fst) q

/-- Whether an unread block lies just before a block. -/
def unreadJustBefore (height : Nat) : Bool :=
  q.blocks.any fun e =>
    decide (height - delegateLookbackBlocks ≤ e.1) && decide (e.1 < height) && e.2.events.isNone

end DeferredBlocks

/-! ## Messages -/

/-- A top-up as the coordinator is asked to have it carried out. -/
structure TopUpTaskData where
  dataId : String
  owner : String
  nonce : Nat
  amount : String
  encryptedData : String
deriving DecidableEq

/-- The deletion of a payment key, likewise. -/
structure DeletePaymentKeyTaskData where
  dataId : String
  owner : String
  nonce : Nat
deriving DecidableEq

/-- What the worker sends the coordinator. -/
inductive Message
  | createTask (params : CreateTaskParams)
  | createProjectStorageCleanupTask (projectId projectUuid : String) (blockHeight : Nat)
  | invalidateProjectUuidCache (projectIds : List String)
  | createTopupTask (params : TopUpTaskData)
  | createDeletePaymentKeyTask (params : DeletePaymentKeyTaskData)
  | notifySubscriptionPurchased (receiptId owner : String) (nonce plan : Nat) (paidUsd payer : String)
  | notifyWalletPolicyUpdated (walletPubkey owner encryptedData : String) (frozen : Bool)
  | notifyWalletPolicyDeleted (walletPubkey owner : String)
  | notifyWalletFrozenChanged (walletPubkey owner : String) (frozen : Bool)
deriving DecidableEq

/-- Why a message was not taken; a terminal refusal is the coordinator's decision. -/
structure Refusal where
  terminal : Bool
  why : String
deriving DecidableEq

/-- What comes back: nothing, or why not. -/
abbrev Reply := Except Refusal Unit

/-! ## Sessions -/

/-- One read of a block. -/
inductive Read
  | block (data : BlockData)
  | notIndexed
  | failed (why : String)

/-- How everything the monitor asks is answered. The first argument counts the questions asked so far; a view or a
    message asked again after a failure is one question here, with the last answer. -/
structure Answers where
  read : Nat → (blockId timeout : Nat) → Read
  /-- how long the question took -/
  elapse : Nat → Nat
  chainTip : Nat → Option Nat
  /-- the views an execution is checked against -/
  views : Nat → Views
  /-- a view at the final block, and that block's height -/
  viewFinal : Nat → (method : String) → (args : Value) → Res (Value × Nat)
  coordinator : Nat → Message → Reply

/-- What the monitor did. -/
inductive Act
  /-- a block was read, and these are its events -/
  | scanned (height : Nat) (events : List ContractEvent)
  | sent (message : Message) (reply : Reply)
  /-- an event is done: relayed, refused or dropped for good -/
  | relayed (height : Nat) (event : ContractEvent)
  /-- an event is to be delivered again -/
  | failed (height : Nat) (event : ContractEvent)
  /-- a block was given up, and reported with the events it still had if it was read -/
  | gaveUp (height : Nat) (events : Option (List ContractEvent))

/-- What changes as the monitor runs. -/
structure Session where
  asked : Nat
  clock : Nat
  delegated : DelegatedCalls
  /-- the last chain tip read, and when -/
  tip : Option (Nat × Nat)
  acts : List Act

/-- A part of the monitor's run. -/
abbrev Mon := StateM Session

section Sessions
variable (A : Answers)

/-- Ask the world the next question, which takes its time. -/
def ask {α : Type} (answer : Nat → α) : Mon α := do
  let s ← get
  set { s with asked := s.asked + 1, clock := s.clock + A.elapse s.asked }
  pure (answer s.asked)

/-- The time. -/
def now : Mon Nat := do pure (← get).clock

/-- Wait. -/
def sleep (pause : Nat) : Mon Unit := modify fun s => { s with clock := s.clock + pause }

/-- Record what was done. -/
def note (act : Act) : Mon Unit := modify fun s => { s with acts := s.acts ++ [act] }

/-- Send a message, and record it with its reply. -/
def send (message : Message) : Mon Reply := do
  let reply ← ask A fun t => A.coordinator t message
  note (.sent message reply)
  pure reply

/-- A view of the contract at the final block. -/
def viewFinal (method : String) (args : Value) : Mon (Res (Value × Nat)) :=
  ask A fun t => (A.viewFinal t method args).mapError fun failure =>
    "RPC view " ++ method ++ " at the final block failed: " ++ failure

/-- How long a read of the chain tip is reused. -/
def tipReuse : Nat := 10000

/-- Read the chain's tip, and keep it with its time. -/
def readTip (at_ : Nat) : Mon (Option Nat) := do
  match ← ask A A.chainTip with
  | none     => pure none
  | some tip => do
      modify fun s => { s with tip := some (tip, at_) }
      pure (some tip)

/-- The final block's height. -/
def chainTip : Mon (Option Nat) := do
  let at_ ← now
  match (← get).tip with
  | none             => readTip A at_
  | some (tip, read) => if at_ - read < tipReuse then pure (some tip) else readTip A at_

end Sessions

/-! ## Relaying -/

/-- How a block reached the monitor: by the head, in order, or from the queue, after newer ones. -/
inductive Delivery
  | inOrder
  | outOfOrder
deriving DecidableEq

/-- How far a block is behind the chain tip. -/
inductive Age
  | blocks (count : Nat)
  | unknown
deriving DecidableEq

/-- An event older than this many blocks is late. -/
def lateAfterBlocks : Nat := 100

/-- Whether an event is older than is relayed without asking; unknown where its age is. -/
def Age.isLate : Age → Option Bool
  | .blocks count => some (decide (lateAfterBlocks < count))
  | .unknown      => none

/-- What the monitor does with one event. -/
inductive Relay
  | asIs
  | ifPendingAtFinal
  | ifKeyExistsAtFinal
  | walletStateAtFinal
  | later (why : String)
  | drop (why : String)
deriving DecidableEq

/-- What is done with an event that was found. -/
def relayDecision (event : ContractEvent) (delivery : Delivery) (age : Age) : Relay :=
  match event with
  | .executionRequested _ =>
      match delivery, age.isLate with
      | .inOrder, some false => .asIs
      | _, _                 => .ifPendingAtFinal
  | .topUpPaymentKey e =>
      if e.amount ≠ "0" then .asIs
      else
        match delivery with
        | .inOrder    => .asIs
        | .outOfOrder => .ifKeyExistsAtFinal
  | .deletePaymentKey _ =>
      match age.isLate with
      | some false => .asIs
      | some true  =>
          .drop "older than the yield window allows; the contract keeps the key — delete it again"
      | none       => .later "the chain tip could not be read to tell whether its yield is still open"
  | .walletPolicyUpdated _ | .walletPolicyDeleted _ | .walletFrozenChanged _ =>
      match delivery with
      | .inOrder    => .asIs
      | .outOfOrder => .walletStateAtFinal
  | .subscriptionPurchased _ => .asIs
  | .projectStorageCleanup _ => .asIs
  | .projectTransferred _ => .asIs

/-- A call signed by one account on another's behalf, with no `Delegate` found for it. -/
def mayBeUnattributedMetaTx : ContractEvent → Bool
  | .executionRequested e =>
      e.relayerId.isNone &&
        (match e.receipt.signerId, e.receipt.predecessorId with
         | some signer, some predecessor => decide (signer ≠ predecessor)
         | _, _                          => false)
  | _ => false

/-- The monitor itself; what is behind its locks is in the session. -/
structure EventMonitor where
  currentBlock : Nat
  sharedBlockHeight : Nat
  deferred : DeferredBlocks
deriving DecidableEq

section Relaying
variable (A : Answers) (S : Setup)

/-- `handle_execution_requested`; a failure is only logged. -/
def runExecutionRequested (event : ExecutionRequestedEvent) : Mon Unit := do
  match ← ask A fun t => handleExecutionRequested S.host S.debug (A.views t) S.contractId event with
  | .error _   => pure ()
  | .ok params => do
      let _ ← send A (.createTask params)
      pure ()

/-- A key's creation comes with a dummy id: one is made of its owner and nonce. -/
def topUpTaskData (event : TopUpPaymentKeyEvent) : TopUpTaskData where
  dataId :=
    if event.amount = "0" then
      hexEncode (S.host.sha256 ("init:" ++ event.owner ++ ":" ++ toString event.nonce)).toList
    else hexEncode event.dataId
  owner := event.owner
  nonce := event.nonce
  amount := event.amount
  encryptedData := event.encryptedData

/-- `handle_subscription_purchased`: without a receipt id nothing stops a second grant. -/
def handleSubscriptionPurchased (event : SubscriptionPurchasedEvent) : Mon Reply := do
  match event.receiptId with
  | none           => pure (.error ⟨false, "SubscriptionPurchased without a receipt id"⟩)
  | some receiptId =>
      send A (.notifySubscriptionPurchased receiptId event.owner event.nonce event.plan event.paidUsd event.payer)

/-- The message an event is relayed by as it says, when it is one message. -/
def ContractEvent.message : ContractEvent → Option Message
  | .executionRequested _        => none
  | .projectStorageCleanup e     => some (.createProjectStorageCleanupTask e.projectId e.projectUuid e.blockHeight)
  | .projectTransferred e        => some (.invalidateProjectUuidCache [e.oldProjectId, e.newProjectId])
  | .topUpPaymentKey e           => some (.createTopupTask (topUpTaskData S e))
  | .deletePaymentKey e          =>
      some (.createDeletePaymentKeyTask { dataId := hexEncode e.dataId, owner := e.owner, nonce := e.nonce })
  | .walletPolicyUpdated e       => some (.notifyWalletPolicyUpdated e.walletPubkey e.owner e.encryptedData e.frozen)
  | .walletPolicyDeleted e       => some (.notifyWalletPolicyDeleted e.walletPubkey e.owner)
  | .walletFrozenChanged e       => some (.notifyWalletFrozenChanged e.walletPubkey e.owner e.frozen)
  | .subscriptionPurchased _     => none

/-- Relay an event as it says. Only a purchase the coordinator may still take is delivered again; every other failure
    is logged. -/
def relayAsIs (event : ContractEvent) : Mon (Res Unit) := do
  match event with
  | .executionRequested e => do
      runExecutionRequested A S e
      pure (.ok ())
  | .subscriptionPurchased e => do
      match ← handleSubscriptionPurchased A e with
      | .ok ()         => pure (.ok ())
      | .error refusal =>
          if refusal.terminal then pure (.ok ()) else pure (.error "a subscription purchase could not be relayed")
  | event => do
      match event.message S with
      | none         => pure (.ok ())
      | some message => do
          let _ ← send A message
          pure (.ok ())

/-- What the coordinator is told of a policy read off the chain. -/
def policyMessage (walletPubkey eventOwner : String) (policy : Value) : Res Message :=
  if policy = .null then .ok (.notifyWalletPolicyDeleted walletPubkey eventOwner)
  else do
    let owner ← expect ((policy.get "owner").bind Value.asStr) "get_wallet_policy: no owner"
    let encryptedData ← expect ((policy.get "encrypted_data").bind Value.asStr)
      "get_wallet_policy: no encrypted_data"
    let frozen ← expect ((policy.get "frozen").bind Value.asBool) "get_wallet_policy: no frozen"
    pure (.notifyWalletPolicyUpdated walletPubkey owner encryptedData frozen)

/-- What is said where the node answers from an older block than the event's. -/
def behind (final notBefore : Nat) : String :=
  "the RPC's final block " ++ toString final ++ " is behind block " ++ toString notBefore

/-- Relay the wallet's policy and freeze as the final block holds them. A final block below `notBefore` may predate what
    was already relayed, and is no answer. -/
def relayWalletStateAtFinal (walletPubkey eventOwner : String) (notBefore : Nat) : Mon (Res Unit) := do
  match ← viewFinal A "get_wallet_policy" (.obj [("wallet_pubkey", .str walletPubkey)]) with
  | .error why       => pure (.error why)
  | .ok (policy, at_) =>
      if at_ < notBefore then pure (.error (behind at_ notBefore))
      else
        match policyMessage walletPubkey eventOwner policy with
        | .error why   => pure (.error why)
        | .ok message => do
            let reply ← send A message
            pure (reply.mapError Refusal.why)

/-- The wallet an event is about, and the owner it names. -/
def ContractEvent.wallet : ContractEvent → Option (String × String)
  | .walletPolicyUpdated e => some (e.walletPubkey, e.owner)
  | .walletPolicyDeleted e => some (e.walletPubkey, e.owner)
  | .walletFrozenChanged e => some (e.walletPubkey, e.owner)
  | _                      => none

/-- Relay an execution only while the contract holds the request at the final block. -/
def relayIfPending (event : ExecutionRequestedEvent) (height : Nat) : Mon (Res Unit) := do
  match RequestData.ofText S.host.jsonNumber event.requestData with
  | none      => pure (.error ("execution_requested at block " ++ toString height ++ ": request_data does not parse"))
  | some data => do
      match ← viewFinal A "get_request" (.obj [("request_id", .num (toString data.requestId))]) with
      | .error e => pure (.error ("request " ++ toString data.requestId ++ " not read at the final block: " ++ e))
      | .ok (request, final) =>
          if final < height then pure (.error (behind final height))
          else if request = .null then pure (.ok ())
          else do
            runExecutionRequested A S event
            pure (.ok ())

/-- The arguments of `secrets_exist` for a payment key. -/
def paymentKeyArgs (owner : String) (nonce : Nat) : Value :=
  .obj [("accessor", .obj [("System", .str "PaymentKey")]), ("owner", .str owner), ("profile", .str (toString nonce))]

/-- Whether a payment key exists at the final block, and that block's height. -/
def paymentKeyExistsAtFinal (owner : String) (nonce : Nat) : Mon (Res (Bool × Nat)) := do
  match ← viewFinal A "secrets_exist" (paymentKeyArgs owner nonce) with
  | .error why       => pure (.error why)
  | .ok (exists_, at_) =>
      match exists_.asBool with
      | none         => pure (.error "secrets_exist answered something other than a bool")
      | some exists_ => pure (.ok (exists_, at_))

/-- Relay a key's creation only while the key exists at the final block. -/
def relayIfKeyExists (event : TopUpPaymentKeyEvent) (height : Nat) : Mon (Res Unit) := do
  match ← paymentKeyExistsAtFinal A event.owner event.nonce with
  | .error e =>
      pure (.error ("payment key " ++ event.owner ++ ":" ++ toString event.nonce
        ++ " not read at the final block: " ++ e))
  | .ok (exists_, final) =>
      if final < height then pure (.error (behind final height))
      else if exists_ = false then pure (.ok ())
      else do
        let _ ← send A (.createTopupTask (topUpTaskData S event))
        pure (.ok ())

/-- What is said of a decision that the event cannot have. -/
def notADecision (decision : String) : String := decision ++ " is not a decision for this event"

/-- Carry out one decision. An error is a failure a later delivery of the event can get past. -/
def relay (m : EventMonitor) (event : ContractEvent) (decision : Relay) (height : Nat) : Mon (Res Unit) := do
  match decision with
  | .asIs             => relayAsIs A S event
  | .later why        => pure (.error why)
  | .drop _           => pure (.ok ())
  | .ifPendingAtFinal =>
      match event with
      | .executionRequested e => relayIfPending A S e height
      | _                     => pure (.error (notADecision "IfPendingAtFinal"))
  | .ifKeyExistsAtFinal =>
      match event with
      | .topUpPaymentKey e => relayIfKeyExists A S e height
      | _                  => pure (.error (notADecision "IfKeyExistsAtFinal"))
  | .walletStateAtFinal =>
      match event.wallet with
      | none                       => pure (.error (notADecision "WalletStateAtFinal"))
      | some (walletPubkey, owner) => do
          -- the head has relayed every block below it in order; the state relayed now is no older than those
          let notBefore := max height (m.currentBlock - 1)
          let relayed ← relayWalletStateAtFinal A walletPubkey owner notBefore
          pure (relayed.mapError fun e => "wallet " ++ walletPubkey ++ " not synced from the final block: " ++ e)

/-! ## Delivering -/

/-- What is left of a block after delivering it; `waits` when some of it waits for an older block still unread. -/
structure Leftover where
  events : List ContractEvent
  why : String
  waits : Bool

/-- How old a block is. -/
def ageOf (height : Nat) : Mon Age := do
  match ← chainTip A with
  | some tip => pure (.blocks (tip - height))
  | none     => pure .unknown

/-- Relay events one after the other: those to be delivered again, and why the last of them failed. -/
def relayAll (m : EventMonitor) (height : Nat) (delivery : Delivery) (age : Age) :
    List ContractEvent → Mon (List ContractEvent × Option String)
  | []              => pure ([], none)
  | event :: events => do
      match ← relay A S m event (relayDecision event delivery age) height with
      | .ok () => do
          note (.relayed height event)
          relayAll m height delivery age events
      | .error why => do
          note (.failed height event)
          let (again, last) ← relayAll m height delivery age events
          pure (event :: again, last.or (some why))

/-- Why the leftovers of a block are left. -/
def leftoverReason (waiting : List ContractEvent) (why : Option String) : String :=
  match waiting, why with
  | [], why         => why.getD ""
  | _, none         =>
      toString waiting.length ++ " call(s) that may be meta-transactions wait for an unread block of the "
        ++ toString delegateLookbackBlocks ++ " before it"
  | _, some why     => toString waiting.length ++ " call(s) wait for an unread block before it; " ++ why

/-- Relay the events that do not wait. -/
def relayReady (m : EventMonitor) (height : Nat) (delivery : Delivery) (events : List ContractEvent) :
    Mon (List ContractEvent × Option String) := do
  if events = [] then pure ([], none)
  else do
    let age ← ageOf A height
    relayAll A S m height delivery age events

/-- Relay the events of a block, and return what is left: everything else is done and is never delivered again. -/
def deliver (m : EventMonitor) (height : Nat) (events : List ContractEvent) (delivery : Delivery) :
    Mon (Option Leftover) := do
  if events = [] then pure none
  else do
    -- with an unread block before it, a call that may be a meta-transaction would run as its relayer: it waits
    let holds := m.deferred.unreadJustBefore height
    let waiting := events.filter fun e => holds && mayBeUnattributedMetaTx e
    let (again, why) ← relayReady A S m height delivery (events.filter fun e => !(holds && mayBeUnattributedMetaTx e))
    if waiting = [] ∧ again = [] then pure none
    else pure (some { events := again ++ waiting, why := leftoverReason waiting why, waits := !waiting.isEmpty })

end Relaying

end Monitor
end Outlayer
