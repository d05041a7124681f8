import Outlayer.Worker.Monitor.Relay

/-!
# `Worker.Monitor.Loop` — following the chain

The head reads blocks in order and never waits on one block for long: a block it cannot read is deferred and read again
on its own backoff, delivered out of order. When the blocks after it cannot be read either, neardata is down rather than
the block: the head waits, so the blocks keep their order, up to a limit.

`turn` is one turn of the loop, `afterTurns` a run of so many turns. The loop itself never ends; what holds of a run is
said of every number of turns.

## Contents
- **Reading.** `scanOnce`, `scanWithin`, `probeAhead`, `probeFar`.
- **The head.** `setHead`, `defer`, `keep`; `deliverHead`, `passUnreadable`.
- **The queue.** `serveDeferred`.
- **The loop.** `turn`, `startMonitoring`; `EventMonitor.new`, where it starts; `afterTurns`.
-/

namespace Outlayer
open Checked

namespace Monitor

/-! ## Reading -/

/-- The longest the head spends on one block, every attempt included. -/
def headBlockBudget : Nat := 15000

/-- How long one read of a block may take, in milliseconds. -/
def readTimeout : Nat := 10000

/-- The pause between two reads of the same block inside its budget. -/
def readRetryPause : Nat := 2000

/-- What one read of a block found. -/
inductive Scan
  | events (events : List ContractEvent)
  | notIndexed
  | unreadable (why : String)

section Reading
variable (A : Answers) (S : Setup)

/-- Read a block once. -/
def readOnce (blockId timeout : Nat) : Mon Read := ask A fun t => A.read t blockId timeout

/-- The events of a block that was read; its delegates are remembered. -/
def scanBlock (height : Nat) (block : BlockData) : Mon (List ContractEvent) := do
  match block.shards with
  | none        => pure []
  | some shards => do
      let s ← get
      let (events, delegated) := processShards S s.delegated shards height
      set { s with delegated }
      pure events

/-- Read and scan a block once. -/
def scanOnce (height timeout : Nat) : Mon Scan := do
  match ← readOnce A height timeout with
  | .notIndexed  => pure .notIndexed
  | .failed why  => pure (.unreadable why)
  | .block block => do
      let events ← scanBlock S height block
      note (.scanned height events)
      pure (.events events)

/-- Read and scan a block until a deadline, with at most so many tries after the first. -/
def scanUntil (height deadline : Nat) (further : Nat) : Mon Scan := do
  let left := deadline - (← now)
  match ← scanOnce A S height (min readTimeout left) with
  | .unreadable why => do
      if deadline - (← now) ≤ readRetryPause then pure (.unreadable why)
      else do
        sleep readRetryPause
        match further with
        | 0           => pure (.unreadable why)
        | further + 1 => scanUntil height deadline further
  | scan => pure scan

/-- Read and scan a block within a budget. The pauses alone use the budget up: a try for each that fits is enough. -/
def scanWithin (height budget : Nat) : Mon Scan := do
  let deadline := (← now) + budget
  scanUntil A S height deadline (budget / readRetryPause)

/-- The first of some blocks that reads, if one does before a block not indexed yet. -/
def firstReadable : List Nat → Mon (Option Nat)
  | []                => pure none
  | height :: heights => do
      match ← readOnce A height readTimeout with
      | .block _    => pure (some height)
      | .notIndexed => pure none
      | .failed _   => firstReadable heights

/-- How far past an unreadable head the monitor looks to tell one bad block from neardata being down. -/
def probeAheadBlocks : Nat := 3

/-- The first readable block of the few behind the head. -/
def probeAhead (head : Nat) : Mon (Option Nat) := firstReadable A (List.range' (head + 1) probeAheadBlocks)

/-- How far past an unreadable head it looks once neardata has been down for long. -/
def farProbeSteps : List Nat := [8, 16, 32, 64, 128, 256]

/-- A block below the tip, among those so many steps after the head, that reads. -/
def probeSteps (head tip : Nat) : List Nat → Mon (Option Nat)
  | []            => pure none
  | step :: steps => do
      if tip ≤ head + step then pure none
      else
        match ← readOnce A (head + step) readTimeout with
        | .block _ => pure (some (head + step))
        | _        => probeSteps head tip steps

/-- A readable block farther on, in steps up to the tip. -/
def probeFar (head tip : Nat) : Mon (Option Nat) := probeSteps A head tip farProbeSteps

/-! ## The head -/

/-- Move the head, and publish where it is. -/
def EventMonitor.setHead (m : EventMonitor) (height : Nat) : EventMonitor :=
  { m with currentBlock := height, sharedBlockHeight := height }

/-- Report blocks given up. -/
def noteGivenUp : List GivenUp → Mon Unit
  | []                  => pure ()
  | givenUp :: givenUps => do
      note (.gaveUp givenUp.1 givenUp.2)
      noteGivenUp givenUps

/-- Go on with a queue a block was added to, and report the one given up for it. -/
def EventMonitor.queue (m : EventMonitor) (added : DeferredBlocks × Option GivenUp) : Mon EventMonitor := do
  noteGivenUp added.2.toList
  pure { m with deferred := added.1 }

/-- Queue a block unread. -/
def EventMonitor.defer (m : EventMonitor) (height : Nat) : Mon EventMonitor := do
  let now_ ← now
  m.queue (m.deferred.defer height now_)

/-- Queue a block read, with events still to deliver. -/
def EventMonitor.keep (m : EventMonitor) (height : Nat) (events : List ContractEvent) : Mon EventMonitor := do
  let now_ ← now
  m.queue (m.deferred.keep height events now_)

/-- Defer blocks, one after the other. -/
def deferAll : List Nat → EventMonitor → Mon EventMonitor
  | [], m                => pure m
  | height :: heights, m => do
      let m ← m.defer height
      deferAll heights m

/-- How many times the head delivers a block's events before it defers what is left. -/
def maxRelayRetries : Nat := 12

/-- Hold the head's block while what is left of it may still go through in order, at most so many times; what is kept of
    it in the end. -/
def hold (m : EventMonitor) (height : Nat) : Nat → Option Leftover → Mon (Option (List ContractEvent))
  | _, none              => pure none
  | 0, some left         => pure (some left.events)
  | holds + 1, some left => do
      if left.waits then pure (some left.events)
      else do
        sleep 5000
        let left ← deliver A S m height left.events .inOrder
        hold m height holds left

/-- Deliver the events of the head's block, holding it while that may help. -/
def deliverHeld (m : EventMonitor) (head : Nat) (events : List ContractEvent) :
    Mon (Option (List ContractEvent)) := do
  let left ← deliver A S m head events .inOrder
  hold A S m head (maxRelayRetries - 1) left

/-- Keep what is left of a block, if anything is. -/
def EventMonitor.keepLeft (m : EventMonitor) (height : Nat) : Option (List ContractEvent) → Mon EventMonitor
  | none      => pure m
  | some kept => m.keep height kept

/-- Deliver the events of the head's block, and move on. -/
def deliverHead (m : EventMonitor) (events : List ContractEvent) : Mon EventMonitor := do
  let kept ← deliverHeld A S m m.currentBlock events
  let m ← m.keepLeft m.currentBlock kept
  pure (m.setHead (m.currentBlock + 1))

/-- How long the head waits on neardata being down before it defers its block anyway. -/
def headOutageMax : Nat := 300000

/-- The pauses between two tries of the head's block while neardata is down. -/
def outagePauses : List Nat := [5000, 10000, 20000, 30000]

/-- The pause after so many pauses; the last one stays. -/
def outagePause (pauses : Nat) : Nat := outagePauses.getD (min pauses (outagePauses.length - 1)) 0

/-- Since when neardata has been down, and how many pauses the head has taken in it. -/
structure Outage where
  since : Nat
  pauses : Nat
deriving DecidableEq

/-- The monitor in its loop. -/
structure Monitoring where
  monitor : EventMonitor
  outage : Option Outage
deriving DecidableEq

/-- Wait while neardata is down. -/
def waitOut (m : EventMonitor) (outage : Outage) : Mon Monitoring := do
  sleep (outagePause outage.pauses)
  pure { monitor := m, outage := some { outage with pauses := outage.pauses + 1 } }

/-- Defer the blocks up to one that reads, and go on there. -/
def skipTo (m : EventMonitor) (next : Nat) : Mon EventMonitor := do
  let head := m.currentBlock
  let m ← deferAll (List.range' head (next - head)) m
  pure (m.setHead next)

/-- The head's block could not be read. -/
def passUnreadable (m : EventMonitor) (outage : Option Outage) : Mon Monitoring := do
  let head := m.currentBlock
  match ← probeAhead A head with
  | some readable => do
      let m ← skipTo m readable
      pure { monitor := m, outage := none }
  | none => do
      let now_ ← now
      let outage := outage.getD { since := now_, pauses := 0 }
      if headOutageMax ≤ now_ - outage.since then
        match (← chainTip A).filter fun tip => decide (head < tip) with
        | none     => waitOut m outage
        | some tip => do
            let next := (← probeFar A head tip).getD (head + 1)
            let m ← skipTo m next
            pure { monitor := m, outage := some { since := now_, pauses := 0 } }
      else waitOut m outage

/-! ## The queue -/

/-- How many due deferred blocks one turn tries, and for how long at most. -/
def deferredPerTurn : Nat := 3
def deferredTurnBudget : Nat := 5000

/-- How long one read of a deferred block may take, in milliseconds. -/
def deferredReadTimeout : Nat := 5000

/-- The events a deferred block still has to deliver; nothing when it cannot be read. -/
def deferredEvents (m : EventMonitor) (height : Nat) : Mon (Option (List ContractEvent)) := do
  match m.deferred.events height with
  | some events => pure (some events)
  | none        => do
      match ← scanOnce A S height deferredReadTimeout with
      | .events events => pure (some events)
      | _              => pure none

/-- Deliver what a deferred block still has to deliver. -/
def deliverDeferred (m : EventMonitor) (height now_ : Nat) (events : List ContractEvent) : Mon EventMonitor := do
  match ← deliver A S m height events .outOfOrder with
  | none      => pure { m with deferred := m.deferred.remove height }
  | some left => pure { m with deferred := m.deferred.retryLater height (some left.events) now_ }

/-- Try one deferred block. -/
def serveOne (m : EventMonitor) (height : Nat) : Mon EventMonitor := do
  let events ← deferredEvents A S m height
  let now_ ← now
  match events with
  | none        => pure { m with deferred := m.deferred.retryLater height none now_ }
  | some events => deliverDeferred A S m height now_ events

/-- Serve the blocks that are due, until the turn's time is used up. -/
def serveDue (started : Nat) : List Nat → EventMonitor → Mon EventMonitor
  | [], m                => pure m
  | height :: heights, m => do
      if deferredTurnBudget ≤ (← now) - started then pure m
      else do
        let m ← serveOne A S m height
        serveDue started heights m

/-- Give up what is too old, and try the due deferred blocks, oldest first. -/
def serveDeferred (m : EventMonitor) : Mon EventMonitor := do
  let started ← now
  let (deferred, givenUp) := m.deferred.expire m.currentBlock started
  noteGivenUp givenUp
  serveDue A S started (deferred.due started deferredPerTurn) { m with deferred }

/-! ## The loop -/

/-- One turn of the loop. -/
def turn (l : Monitoring) : Mon Monitoring := do
  let m ← serveDeferred A S l.monitor
  match ← scanWithin A S m.currentBlock headBlockBudget with
  | .notIndexed    => do
      sleep 200
      pure { l with monitor := m }
  | .events events => do
      let m ← deliverHead A S m events
      sleep S.scanIntervalMs
      pure { monitor := m, outage := none }
  | .unreadable _  => passUnreadable A m l.outage

/-- Blocks before its first one the monitor reads for `Delegate` actions alone. -/
def delegatedBackfillBlocks : Nat := 100

/-- Record the `Delegate` actions of blocks, and nothing else of them. -/
def backfillBlocks : List Nat → Mon Unit
  | []                => pure ()
  | blockId :: blockIds => do
      match ← readOnce A blockId readTimeout with
      | .block block => do
          modify fun s => { s with
            delegated := (outcomes (block.shards.getD [])).foldl
              (fun d outcome => d.record outcome S.contractId blockId) s.delegated }
          backfillBlocks blockIds
      | _ => backfillBlocks blockIds

/-- Read the blocks before the first one for the calls they delegate. -/
def backfillDelegated (startBlock : Nat) : Mon Unit :=
  backfillBlocks A S
    (List.range' (startBlock - delegatedBackfillBlocks) (startBlock - (startBlock - delegatedBackfillBlocks)))

/-- `start_monitoring` up to its loop. -/
def startMonitoring (m : EventMonitor) : Mon Monitoring := do
  backfillDelegated A S m.currentBlock
  pure { monitor := m, outage := none }

end Reading

/-- How far behind the chain a saved block may be and still be gone on from. -/
def maxCatchupBlocks : Nat := 1000

/-- Where to start: from the saved block unless it is too far behind, else from the block set up, else from the latest
    one. -/
def startingBlock (saved : Res (Option Nat)) (latest : Res Nat) (startBlock : Nat) : Res Nat :=
  match (saved.toOption.join).filter fun block => decide (0 < block) with
  | some block =>
      let latest := latest.toOption.getD block
      .ok (if block + maxCatchupBlocks < latest then latest else block)
  | none => if startBlock = 0 then latest else .ok startBlock

/-- A monitor that starts at a block, with nothing deferred. -/
def EventMonitor.at (block : Nat) : EventMonitor where
  currentBlock := block
  sharedBlockHeight := block
  deferred := .empty

/-- `EventMonitor::new`. -/
def EventMonitor.new (saved : Res (Option Nat)) (latest : Res Nat) (startBlock : Nat) : Res EventMonitor :=
  (startingBlock saved latest startBlock).map EventMonitor.at

/-- Nothing asked, nothing done. -/
def Session.new (clock : Nat) : Session where
  asked := 0
  clock := clock
  delegated := .empty
  tip := none
  acts := []

/-- The loop and the session after so many turns of a monitor that started at `start`. -/
def afterTurns (A : Answers) (S : Setup) (start clock : Nat) : Nat → Monitoring × Session
  | 0     => (startMonitoring A S (.at start)).run (.new clock)
  | n + 1 => (turn A S (afterTurns A S start clock n).1).run (afterTurns A S start clock n).2

end Monitor

end Outlayer
