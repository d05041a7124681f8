import Outlayer.Worker.Correctness.Backlog
import Outlayer.Worker.Correctness.Intact
import Outlayer.Worker.Monitor.SystemEvents

/-!
# `Worker.Correctness.Restarts` — what a restart goes on from

The monitor publishes one number, the block its head is at; a restart goes on from there, and does not know the queue.
Of the purchases before that block, those in blocks that were done have been granted or refused for good; the others are
in the queue, or were given up and reported.
-/

namespace Outlayer
open Backlog Checked Json

namespace Monitor

/-! ## Purchases of the chain -/

/-- Blocks are served as the chain has them. -/
def ReadsChain (A : Answers) (chain : Nat → BlockData) : Prop :=
  ∀ t height timeout block, A.read t height timeout = .block block → block = chain height

/-- A subscription was purchased in a block. -/
def PurchaseIn (S : Setup) (height : Nat) (block : BlockData) (e : SubscriptionPurchasedEvent) : Prop :=
  .subscriptionPurchased e ∈ (scanned S .empty height block).1

/-- The delegates change executions alone. -/
theorem attach_purchase {d d' : DelegatedCalls} {receipt : Receipt} {event : ContractEvent}
    {e : SubscriptionPurchasedEvent} (h : attach d receipt event = .subscriptionPurchased e) :
    attach d' receipt event = .subscriptionPurchased e := by
  cases event with
  | executionRequested request =>
      simp only [attach] at h
      split at h <;> cases h
  | subscriptionPurchased purchase => exact h
  | _ => cases h

theorem receiptEvents_purchase {S : Setup} {d d' : DelegatedCalls} {height : Nat} {outcome : ReceiptExecutionOutcome}
    {e : SubscriptionPurchasedEvent} (h : .subscriptionPurchased e ∈ receiptEvents S d height outcome) :
    .subscriptionPurchased e ∈ receiptEvents S d' height outcome := by
  unfold receiptEvents at h ⊢
  by_cases hours : outcome.receivedBy S.contractId ∧ outcome.committed
  · rw [if_pos hours, List.mem_filterMap] at h ⊢
    obtain ⟨log, hlog, hevent⟩ := h
    obtain ⟨event, hprocess, hattach⟩ := Option.map_eq_some_iff.mp hevent
    exact ⟨log, hlog, Option.map_eq_some_iff.mpr ⟨event, hprocess, attach_purchase hattach⟩⟩
  · rw [if_neg hours] at h
    cases h

/-- What a line of a committed receipt of the contract says. -/
theorem mem_receiptEvents {S : Setup} {outcome : ReceiptExecutionOutcome} (hours : outcome.receivedBy S.contractId)
    (hcommitted : outcome.committed) {log : String} (hlog : log ∈ (outcome.result.bind Outcome.logs).getD [])
    {height : Nat} {event : ContractEvent} (hprocess : processLog S.host S.eventFilter log height = some event)
    (d : DelegatedCalls) : attach d outcome.metadata event ∈ receiptEvents S d height outcome := by
  unfold receiptEvents
  rw [if_pos ⟨hours, hcommitted⟩]
  refine List.mem_filterMap.mpr ⟨log, hlog, ?_⟩
  rw [hprocess]
  rfl

theorem mem_scanned {S : Setup} {d : DelegatedCalls} {height : Nat} {shards : List ShardData}
    {outcome : ReceiptExecutionOutcome} (hmem : outcome ∈ outcomes shards) {event : ContractEvent}
    (h : event ∈ receiptEvents S (d.scan S shards height) height outcome) :
    event ∈ (scanned S d height ⟨some shards⟩).1 := List.mem_flatMap.mpr ⟨outcome, hmem, h⟩

/-- A purchase is read whatever delegates are known. -/
theorem PurchaseIn.scanned {S : Setup} {height : Nat} {block : BlockData} {e : SubscriptionPurchasedEvent}
    (h : PurchaseIn S height block e) (d : DelegatedCalls) :
    .subscriptionPurchased e ∈ (scanned S d height block).1 := by
  unfold PurchaseIn at h
  unfold Monitor.scanned at h ⊢
  cases hshards : block.shards with
  | none =>
      rw [hshards] at h
      cases h
  | some shards =>
      rw [hshards] at h
      obtain ⟨outcome, hmem, hevent⟩ := List.mem_flatMap.mp h
      exact List.mem_flatMap.mpr ⟨outcome, hmem, receiptEvents_purchase hevent⟩

/-! ## What was granted -/

/-- The coordinator was told of a purchase by its receipt, and took it or refused it for good. -/
def Granted (acts : List Act) (e : SubscriptionPurchasedEvent) : Prop :=
  ∃ receiptId reply, e.receiptId = some receiptId ∧
    .sent (.notifySubscriptionPurchased receiptId e.owner e.nonce e.plan e.paidUsd e.payer) reply ∈ acts ∧ Settled reply

section Granting
variable {A : Answers} {S : Setup}

/-- A purchase on record as relayed was granted, or refused for good. -/
theorem Backed.granted {g : Stage} (h : Backed A S g) {height : Nat} {e : SubscriptionPurchasedEvent}
    (hrelayed : .relayed height (.subscriptionPurchased e) ∈ g.acts) : Granted g.acts e := by
  rcases h.acted _ hrelayed with ⟨x, events, heq⟩ | ⟨x, events, heq⟩ | ⟨head, x, delivery, events, -, hfor⟩
  · cases heq
  · cases heq
  · cases hfor with
    | relayed _ hrelays hsends =>
        obtain ⟨receiptId, reply, hreceipt, hsent, hsettled⟩ := hrelays.purchase e rfl rfl
        exact ⟨receiptId, reply, hreceipt, hsends _ hsent, hsettled⟩

/-- The purchases of a block that was done were relayed. -/
theorem FullyDone.relayed {chain : Nat → BlockData} (hchain : ReadsChain A chain) {start clock n height : Nat}
    (h : FullyDone (actsAfter A S start clock n) height) {e : SubscriptionPurchasedEvent}
    (hpurchase : PurchaseIn S height (chain height) e) :
    .relayed height (.subscriptionPurchased e) ∈ actsAfter A S start clock n := by
  obtain ⟨events, hread, hperm⟩ := h
  obtain ⟨d, d', t, timeout, block, hblock, hscan⟩ := (backed_after (A := A) (S := S) start clock n).read _ _ hread
  have hmem : .subscriptionPurchased e ∈ events := by
    have hscanned := hpurchase.scanned d
    rw [← hchain t height timeout block hblock, hscan] at hscanned
    exact hscanned
  obtain ⟨act, hact, hevent⟩ := List.mem_filterMap.mp (hperm.mem_iff.mpr hmem)
  cases act with
  | relayed x event =>
      by_cases hx : x = height
      · rw [Act.relayedAt, if_pos hx] at hevent
        obtain rfl := Option.some.inj hevent
        exact hx ▸ hact
      · rw [Act.relayedAt, if_neg hx] at hevent
        cases hevent
  | _ => cases hevent

/-! ## Restarting -/

theorem Move.front_le {g g' : Stage} (h : Move A S g g') : g.front ≤ g'.front := by
  cases h with
  | deferred => exact Nat.le_succ _
  | headed => exact Nat.le_succ _
  | _ => exact Nat.le_refl _

theorem Moves.front_le {g g' : Stage} (h : Moves A S g g') : g.front ≤ g'.front := by
  induction h with
  | refl => exact Nat.le_refl _
  | tail _ hmove ih => exact ih.trans hmove.front_le

/-- The head does not go back. -/
theorem currentBlock_le {start clock k n : Nat} (hk : k ≤ n) :
    (monitorAfter A S start clock k).currentBlock ≤ (monitorAfter A S start clock n).currentBlock :=
  (@stageAfter_moves A S start clock _ _ hk).front_le

end Granting

/-- A saved block that is not too far behind is gone on from. -/
theorem EventMonitor.new_saved {block startBlock : Nat} {latest : Res Nat} (hpos : 0 < block)
    (hlate : ∀ tip, latest = .ok tip → tip ≤ block + maxCatchupBlocks) :
    EventMonitor.new (.ok (some block)) latest startBlock = .ok (.at block) := by
  have hnot : ¬ block + maxCatchupBlocks < latest.toOption.getD block := by
    cases latest with
    | error why => exact Nat.not_lt.mpr (Nat.le_add_right block maxCatchupBlocks)
    | ok tip => exact Nat.not_lt.mpr (hlate tip rfl)
  have hsaved : (((Except.ok (some block) : Res (Option Nat)).toOption.join).filter fun b => decide (0 < b))
      = some block := Option.filter_eq_some_iff.mpr ⟨rfl, decide_eq_true hpos⟩
  have hstarting : startingBlock (.ok (some block)) latest startBlock = .ok block := by
    unfold startingBlock
    rw [hsaved]
    exact congrArg Except.ok (if_neg hnot)
  rw [EventMonitor.new, hstarting]
  rfl

/-- **What a restart may lose.** A purchase at or after the first block of a run was granted or refused for good, is in
    a block a restart from a block published before will read, or is in a block that waits in the queue or was given
    up. -/
theorem restart_loses_only_queue {A : Answers} {S : Setup} {chain : Nat → BlockData} (hchain : ReadsChain A chain)
    {start clock k n startBlock height : Nat} {latest : Res Nat} {restarted : EventMonitor} (hk : k ≤ n)
    (hpos : 0 < (monitorAfter A S start clock k).sharedBlockHeight)
    (hlate : ∀ tip, latest = .ok tip →
      tip ≤ (monitorAfter A S start clock k).sharedBlockHeight + maxCatchupBlocks)
    (hnew : EventMonitor.new (.ok (some (monitorAfter A S start clock k).sharedBlockHeight)) latest startBlock
      = .ok restarted) (hstart : start ≤ height) {e : SubscriptionPurchasedEvent}
    (hpurchase : PurchaseIn S height (chain height) e) :
    (.relayed height (.subscriptionPurchased e) ∈ actsAfter A S start clock n ∧
      Granted (actsAfter A S start clock n) e) ∨
    restarted.currentBlock ≤ height ∨
    Deferred.At (monitorAfter A S start clock n) height ∨ GivenUpAt (actsAfter A S start clock n) height := by
  rw [EventMonitor.new_saved hpos hlate] at hnew
  obtain rfl := Except.ok.inj hnew
  by_cases hread : (monitorAfter A S start clock k).sharedBlockHeight ≤ height
  · exact Or.inr (Or.inl hread)
  · have hpublished : (monitorAfter A S start clock k).sharedBlockHeight
        = (monitorAfter A S start clock k).currentBlock := (inOrder (A := A) (S := S) k).published
    have hle := @currentBlock_le A S start clock _ _ hk
    have hbehind : height < (monitorAfter A S start clock n).currentBlock := by omega
    rcases (every_block_accounted A S start clock n).one_of_three height hstart hbehind with
      ⟨hdone, -, -⟩ | ⟨-, hqueued, -⟩ | ⟨-, -, hgivenUp⟩
    · have hrelayed := hdone.relayed hchain hpurchase
      exact Or.inl ⟨hrelayed, (backed_after start clock n).granted hrelayed⟩
    · exact Or.inr (Or.inr (Or.inl hqueued))
    · exact Or.inr (Or.inr (Or.inr hgivenUp))

/-! ### A run that loses a purchase -/

/-- A subscription of bob's, in the contract's words. -/
def bobPurchase : SystemEvent := .subscriptionPurchased bobAccount 7 1 100 bobAccount

/-- The receipt it was bought in. -/
def purchaseOutcome : ReceiptExecutionOutcome where
  receipt := some { receiverId := some "outlayer.near", receiptId := some "r1", predecessorId := some "usdc.near"
                    receipt := none }
  executionOutcome := some { outcome := some {
    logs := some [logEvent World.fresh.contract.eventStandard World.fresh.contract.eventVersion "system_event"
      bobPurchase.toJson]
    receiptIds := none
    gasBurnt := none
    status := some (.obj [("SuccessValue", .str "")]) } }
  txHash := none

/-- A chain whose block 1 holds the purchase. -/
def purchaseChain (height : Nat) : BlockData :=
  if height = 1 then ⟨some [⟨some [purchaseOutcome]⟩]⟩ else ⟨none⟩

/-- A worker that reads every block as soon as it is there. -/
def readingSetup : Setup where
  host := readingHost
  debug := fun _ => ""
  contractId := "outlayer.near"
  eventFilter := defaultFilter
  scanIntervalMs := 0

/-- Block 1 does not read, and takes the head's whole budget. -/
def firstUnread : Answers where
  read _ height _ := if height = 1 then .failed "timeout" else .block (purchaseChain height)
  elapse _ := headBlockBudget
  chainTip _ := none
  views _ := { getRequest := fun _ _ => .error "", getProject := fun _ _ => .error "" }
  viewFinal _ _ _ := .error ""
  coordinator _ _ := .ok ()

theorem firstUnread_readsChain : ReadsChain firstUnread purchaseChain := by
  intro t height timeout block h
  simp only [firstUnread] at h
  split at h
  · cases h
  · exact (Read.block.inj h).symm

theorem purchase_in_first :
    PurchaseIn readingSetup 1 (purchaseChain 1)
      ⟨bobAccount.name, 7, 1, toString 100, bobAccount.name, some "r1"⟩ := by
  have hprocess := processLog_subscriptionPurchased (H := readingHost) defaultFilter_matches wholeNumbers_exponentNumber
    bobAccount (show 7 < 2 ^ 32 by decide) (show 1 < 2 ^ 8 by decide) 100 bobAccount 1
  have hours : purchaseOutcome.receivedBy readingSetup.contractId = true := by decide
  have hcommitted : purchaseOutcome.committed = true := rfl
  have hmem := mem_receiptEvents (S := readingSetup) hours hcommitted (List.mem_singleton.mpr rfl) hprocess
    (DelegatedCalls.empty.scan readingSetup [⟨some [purchaseOutcome]⟩] 1)
  exact mem_scanned (d := .empty) (by simp [outcomes]) hmem

theorem first_deferred :
    (monitorAfter firstUnread readingSetup 1 0 1).sharedBlockHeight = 2 ∧
      actsAfter firstUnread readingSetup 1 0 1 = [] := by
  refine ⟨by decide +kernel, ?_⟩
  rw [← List.isEmpty_iff]
  decide +kernel

theorem first_restarted : EventMonitor.new
    (.ok (some (monitorAfter firstUnread readingSetup 1 0 1).sharedBlockHeight)) (.ok 2) 1 = .ok (.at 2) := by
  rw [first_deferred.1]
  rfl

theorem first_tip {tip : Nat} (h : (Except.ok 2 : Res Nat) = .ok tip) :
    tip < (monitorAfter firstUnread readingSetup 1 0 1).sharedBlockHeight + maxCatchupBlocks := by
  rw [first_deferred.1, ← Except.ok.inj h]
  decide

/-- What a restart is expected not to lose: all that was neither granted nor refused for good is read again. -/
def LosesNothing (A : Answers) (S : Setup) (chain : Nat → BlockData) (start clock n : Nat) : Prop :=
  ∀ startBlock latest restarted, (∀ tip, latest = .ok tip →
      tip < (monitorAfter A S start clock n).sharedBlockHeight + maxCatchupBlocks) →
    EventMonitor.new (.ok (some (monitorAfter A S start clock n).sharedBlockHeight)) latest startBlock
      = .ok restarted →
    ∀ height e, start ≤ height → PurchaseIn S height (chain height) e →
      .relayed height (.subscriptionPurchased e) ∈ actsAfter A S start clock n ∨ restarted.currentBlock ≤ height

/-- Block 1 is in the queue when the monitor stops, and the one that starts at block 2 does not read it. -/
theorem restart_skips_queue : ReadsChain firstUnread purchaseChain ∧
    ¬ LosesNothing firstUnread readingSetup purchaseChain 1 0 1 := by
  refine ⟨firstUnread_readsChain, fun h => ?_⟩
  have hlost := h 1 (.ok 2) (.at 2) (fun _ => first_tip) first_restarted 1 _ (Nat.le_refl 1) purchase_in_first
  rw [first_deferred.2] at hlost
  rcases hlost with hrelayed | hread
  · cases hrelayed
  · exact absurd hread (by decide)

theorem restart_loses_only_queue_first :
    (.relayed 1 (.subscriptionPurchased ⟨bobAccount.name, 7, 1, toString 100, bobAccount.name, some "r1"⟩)
        ∈ actsAfter firstUnread readingSetup 1 0 1 ∧
      Granted (actsAfter firstUnread readingSetup 1 0 1)
        ⟨bobAccount.name, 7, 1, toString 100, bobAccount.name, some "r1"⟩) ∨
    (EventMonitor.at 2).currentBlock ≤ 1 ∨ Deferred.At (monitorAfter firstUnread readingSetup 1 0 1) 1 ∨
    GivenUpAt (actsAfter firstUnread readingSetup 1 0 1) 1 :=
  restart_loses_only_queue firstUnread_readsChain (Nat.le_refl 1) (by rw [first_deferred.1]; decide)
    (fun _ htip => Nat.le_of_lt (first_tip htip)) first_restarted (Nat.le_refl 1) purchase_in_first

end Monitor

end Outlayer
