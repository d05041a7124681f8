import Outlayer.Worker.Monitor.Loop
import Outlayer.Lib.Stateful

/-!
# `Worker.Monitor.Relays` — what relaying an event sends

`Relays` says what one call of `relay` may send and what its success means, kind by kind: a task is made of an execution
and nothing else, a purchase that went through was taken or refused for good, a wallet's event sends one message. The
relation is all that is used of `relay` from here on.
-/

namespace Outlayer
open Stateful Checked Json

namespace Monitor

/-! ## Asking, sending, viewing -/

/-- Programs that add to what was done and leave the delegates alone. -/
abbrev Sends {α : Type} (m : Mon α) (P : α → List Act → Prop) : Prop := Emits Session.acts Session.delegated m P

/-- Programs that do neither. -/
abbrev Asks {α : Type} (m : Mon α) (P : α → Prop) : Prop := Silent Session.acts Session.delegated m P

section Primitives
variable {A : Answers}

theorem asks_ask {α : Type} {answer : Nat → α} : Asks (ask A answer) fun a => ∃ t, a = answer t := by
  intro s
  exact ⟨rfl, [], (List.append_nil s.acts).symm, rfl, s.asked, rfl⟩

theorem asks_now : Asks now fun _ => True := silent_get.bind fun _ _ => silent_pure trivial

theorem asks_sleep {pause : Nat} : Asks (sleep pause) fun _ => True := silent_modify (fun _ => rfl) fun _ => rfl

theorem sends_note {act : Act} : Sends (note act) fun _ added => added = [act] := by
  intro s
  exact ⟨rfl, [act], rfl, rfl⟩

theorem sends_send {message : Message} : Sends (send A message) fun reply added => added = [.sent message reply] := by
  refine asks_ask.bind ?_
  rintro reply -
  refine sends_note.bind (fun _ => silent_pure (P := fun a => a = reply) rfl) ?_
  rintro _ added _ more rfl ⟨rfl, rfl⟩
  rfl

theorem asks_viewFinal {method : String} {args : Value} :
    Asks (viewFinal A method args) fun answer =>
      ∀ out, answer = .ok out → ∃ t, A.viewFinal t method args = .ok out := by
  refine asks_ask.mono ?_
  rintro _ ⟨t, rfl⟩ out h
  refine ⟨t, ?_⟩
  cases hview : A.viewFinal t method args with
  | error failure => rw [hview] at h; cases h
  | ok value => rw [hview] at h; exact h

theorem asks_readTip {at_ : Nat} : Asks (readTip A at_) fun _ => True := by
  refine asks_ask.bind ?_
  rintro tip -
  cases tip with
  | none => exact silent_pure trivial
  | some tip =>
      refine (silent_modify (f := fun s : Session => { s with tip := some (tip, at_) }) (fun _ => rfl)
        fun _ => rfl).bind ?_
      exact fun _ _ => silent_pure trivial

theorem asks_chainTip : Asks (chainTip A) fun _ => True := by
  refine asks_now.bind fun at_ _ => ?_
  refine silent_get.bind fun s _ => ?_
  cases s.tip with
  | none => exact asks_readTip
  | some last =>
      dsimp only
      split
      · exact silent_pure trivial
      · exact asks_readTip

theorem asks_ageOf {height : Nat} : Asks (ageOf A height) fun _ => True := by
  refine asks_chainTip.bind ?_
  rintro tip -
  cases tip with
  | none => exact silent_pure trivial
  | some tip => exact silent_pure trivial

end Primitives

/-! ## One event -/

/-- The wallet a message is about. -/
def Message.wallet : Message → Option String
  | .notifyWalletPolicyUpdated walletPubkey _ _ _ => some walletPubkey
  | .notifyWalletPolicyDeleted walletPubkey _     => some walletPubkey
  | .notifyWalletFrozenChanged walletPubkey _ _   => some walletPubkey
  | _                                             => none

/-- The coordinator took the message, or refused it for good. -/
def Settled : Reply → Prop
  | .ok ()         => True
  | .error refusal => refusal.terminal = true

/-- What relaying an event to the result `r` sends, with the head at `head`. -/
structure Relays (A : Answers) (S : Setup) (head height : Nat) (delivery : Delivery) (event : ContractEvent)
    (r : Res Unit) (sends : List Act) : Prop where
  /-- messages, and nothing but -/
  sends_only : ∀ act ∈ sends, ∃ message reply, act = .sent message reply
  tasks : ∀ params reply, .sent (.createTask params) reply ∈ sends → ∃ e t, event = .executionRequested e ∧
    handleExecutionRequested S.host S.debug (A.views t) S.contractId e = .ok params
  purchase : ∀ e, event = .subscriptionPurchased e → r = .ok () → ∃ receiptId reply, e.receiptId = some receiptId ∧
    .sent (.notifySubscriptionPurchased receiptId e.owner e.nonce e.plan e.paidUsd e.payer) reply ∈ sends ∧
    Settled reply
  no_wallet : event.wallet = none → ∀ message reply, .sent message reply ∈ sends → message.wallet = none
  wallet_asIs : delivery = .inOrder → event.wallet.isSome → ∃ message reply, event.message S = some message ∧
    sends = [.sent message reply]
  wallet_atFinal : ∀ w owner, delivery = .outOfOrder → event.wallet = some (w, owner) → r = .ok () →
    ∃ t policy at_ message, A.viewFinal t "get_wallet_policy" (.obj [("wallet_pubkey", .str w)]) = .ok (policy, at_) ∧
      max height (head - 1) ≤ at_ ∧ policyMessage w owner policy = .ok message ∧ sends = [.sent message (.ok ())]

section Relaying
variable {A : Answers} {S : Setup} {head height : Nat} {delivery : Delivery} {event : ContractEvent}

/-- An event that neither sends anything nor has to. -/
theorem Relays.silent {r : Res Unit} (hpurchase : ∀ e, event = .subscriptionPurchased e → r ≠ .ok ())
    (hwallet : event.wallet.isSome → delivery = .outOfOrder ∧ r ≠ .ok ()) :
    Relays A S head height delivery event r [] where
  sends_only act hact := absurd hact List.not_mem_nil
  tasks params reply hsent := absurd hsent List.not_mem_nil
  purchase e he hr := absurd hr (hpurchase e he)
  no_wallet _ message reply hsent := absurd hsent List.not_mem_nil
  wallet_asIs hdelivery hsome := absurd (hdelivery.symm.trans (hwallet hsome).1) (by decide)
  wallet_atFinal w owner _ hw hr := absurd hr (hwallet (by rw [hw]; rfl)).2

/-- An event of no wallet, not a purchase, relayed by one message that makes no task and is of no wallet. -/
theorem Relays.single {r : Res Unit} {message : Message} {reply : Reply} (hwallet : event.wallet = none)
    (hpurchase : ∀ e, event ≠ .subscriptionPurchased e) (htask : ∀ params, message ≠ .createTask params)
    (hmessage : message.wallet = none) : Relays A S head height delivery event r [.sent message reply] where
  sends_only act hact := ⟨message, reply, List.mem_singleton.mp hact⟩
  tasks params reply' hsent := by
    cases List.mem_singleton.mp hsent
    exact absurd rfl (htask params)
  purchase e he := absurd he (hpurchase e)
  no_wallet _ message' reply' hsent := by
    cases List.mem_singleton.mp hsent
    exact hmessage
  wallet_asIs _ hsome := by
    rw [hwallet] at hsome
    cases hsome
  wallet_atFinal w owner _ hw := by
    rw [hwallet] at hw
    cases hw

/-- A wallet's event, relayed as it says. -/
theorem Relays.wallet {r : Res Unit} {message : Message} {reply : Reply} (hwallet : event.wallet.isSome)
    (hmessage : event.message S = some message) :
    Relays A S head height .inOrder event r [.sent message reply] where
  sends_only act hact := ⟨message, reply, List.mem_singleton.mp hact⟩
  tasks params reply' hsent := by
    cases List.mem_singleton.mp hsent
    cases event <;> cases hwallet <;> cases hmessage
  purchase e he := by
    subst he
    cases hwallet
  no_wallet hnone := by
    rw [hnone] at hwallet
    cases hwallet
  wallet_asIs _ _ := ⟨message, reply, hmessage, rfl⟩
  wallet_atFinal w owner hdelivery := by cases hdelivery

/-- An execution: a task when the checks pass. -/
theorem relays_execution (e : ExecutionRequestedEvent) :
    Sends (do runExecutionRequested A S e; pure (.ok ()))
      (Relays A S head height delivery (.executionRequested e)) := by
  refine Emits.bind (P := fun _ added => Relays A S head height delivery (.executionRequested e) (.ok ()) added)
    ?_ (fun _ => silent_pure (P := fun r : Res Unit => r = .ok ()) rfl) ?_
  rotate_left
  · rintro _ added r more h ⟨rfl, rfl⟩
    rw [List.append_nil]
    exact h
  refine asks_ask.bind ?_
  rintro params ⟨t, ht⟩
  cases params with
  | error why =>
      exact emits_pure (Relays.silent (fun _ h => by cases h) fun h => by cases h)
  | ok params =>
      refine sends_send.bind (fun _ => silent_pure (P := fun _ => True) trivial) ?_
      rintro reply added _ more rfl ⟨rfl, -⟩
      exact {
        sends_only := fun act hact => ⟨_, _, List.mem_singleton.mp hact⟩
        tasks := fun params' reply' hsent => by
          cases List.mem_singleton.mp hsent
          exact ⟨e, t, rfl, ht.symm⟩
        purchase := fun _ h => by cases h
        no_wallet := fun _ message reply' hsent => by
          cases List.mem_singleton.mp hsent
          rfl
        wallet_asIs := fun _ h => by cases h
        wallet_atFinal := fun _ _ _ h => by cases h }

/-- A purchase: taken, refused for good, or to be relayed again. -/
theorem relays_purchase (e : SubscriptionPurchasedEvent) :
    Sends (relayAsIs A S (.subscriptionPurchased e))
      (Relays A S head height delivery (.subscriptionPurchased e)) := by
  have hsent : Sends (handleSubscriptionPurchased A e) fun reply added =>
      (reply = .error ⟨false, "SubscriptionPurchased without a receipt id"⟩ ∧ added = []) ∨
      ∃ receiptId, e.receiptId = some receiptId ∧ added =
        [.sent (.notifySubscriptionPurchased receiptId e.owner e.nonce e.plan e.paidUsd e.payer) reply] := by
    unfold handleSubscriptionPurchased
    cases e.receiptId with
    | none => exact emits_pure (Or.inl ⟨rfl, rfl⟩)
    | some receiptId => exact sends_send.mono fun h => Or.inr ⟨receiptId, rfl, h⟩
  -- whatever comes back, it is the message above that was sent, or nothing was
  have hrelays : ∀ {r : Res Unit} {reply : Reply} {added : List Act}, (r = .ok () → Settled reply) →
      ((reply = .error ⟨false, "SubscriptionPurchased without a receipt id"⟩ ∧ added = []) ∨
        ∃ receiptId, e.receiptId = some receiptId ∧ added =
          [.sent (.notifySubscriptionPurchased receiptId e.owner e.nonce e.plan e.paidUsd e.payer) reply]) →
      Relays A S head height delivery (.subscriptionPurchased e) r added := by
    rintro r reply added hsettled (⟨rfl, rfl⟩ | ⟨receiptId, hreceipt, rfl⟩)
    · refine Relays.silent (fun _ _ hr => ?_) fun h => by cases h
      exact absurd (hsettled hr) Bool.false_ne_true
    · exact {
        sends_only := fun act hact => ⟨_, _, List.mem_singleton.mp hact⟩
        tasks := fun _ _ hsent => by cases List.mem_singleton.mp hsent
        purchase := fun e' he' hr => by
          cases he'
          exact ⟨receiptId, reply, hreceipt, List.mem_singleton.mpr rfl, hsettled hr⟩
        no_wallet := fun _ message reply' hsent => by
          cases List.mem_singleton.mp hsent
          rfl
        wallet_asIs := fun _ h => by cases h
        wallet_atFinal := fun _ _ _ h => by cases h }
  refine hsent.bind (Q := fun reply r more => more = [] ∧ (r = .ok () → Settled reply)) ?_ ?_
  · rintro (refusal | ⟨⟩)
    · by_cases hterminal : refusal.terminal = true
      · dsimp only
        rw [if_pos hterminal]
        exact emits_pure ⟨rfl, fun _ => hterminal⟩
      · dsimp only
        rw [if_neg hterminal]
        exact emits_pure ⟨rfl, fun h => by cases h⟩
    · exact emits_pure ⟨rfl, fun _ => trivial⟩
  · rintro reply added r more hadded ⟨rfl, hsettled⟩
    rw [List.append_nil]
    exact hrelays hsettled hadded

/-- An event relayed by one message, as it says. -/
theorem sends_message (message : Message) :
    Sends (do let _ ← send A message; pure (Except.ok ())) fun (r : Res Unit) added =>
      r = .ok () ∧ ∃ reply, added = [.sent message reply] := by
  refine sends_send.bind (fun _ => silent_pure (P := fun r : Res Unit => r = .ok ()) rfl) ?_
  rintro reply _ r more rfl ⟨rfl, rfl⟩
  exact ⟨rfl, reply, rfl⟩

/-- Relaying an event as it says, also out of order where order is free. -/
theorem relays_asIs (hdelivery : delivery = .outOfOrder → event.wallet = none) :
    Sends (relayAsIs A S event) (Relays A S head height delivery event) := by
  cases event with
  | executionRequested e => exact relays_execution e
  | subscriptionPurchased e => exact relays_purchase e
  | projectStorageCleanup e =>
      refine (sends_message _).mono ?_
      rintro r _ ⟨-, reply, rfl⟩
      exact Relays.single rfl (fun _ h => by cases h) (fun _ h => by cases h) rfl
  | projectTransferred e =>
      refine (sends_message _).mono ?_
      rintro r _ ⟨-, reply, rfl⟩
      exact Relays.single rfl (fun _ h => by cases h) (fun _ h => by cases h) rfl
  | topUpPaymentKey e =>
      refine (sends_message _).mono ?_
      rintro r _ ⟨-, reply, rfl⟩
      exact Relays.single rfl (fun _ h => by cases h) (fun _ h => by cases h) rfl
  | deletePaymentKey e =>
      refine (sends_message _).mono ?_
      rintro r _ ⟨-, reply, rfl⟩
      exact Relays.single rfl (fun _ h => by cases h) (fun _ h => by cases h) rfl
  | walletPolicyUpdated e =>
      cases delivery with
      | outOfOrder => cases hdelivery rfl
      | inOrder =>
          refine (sends_message _).mono ?_
          rintro r _ ⟨-, reply, rfl⟩
          exact Relays.wallet rfl rfl
  | walletPolicyDeleted e =>
      cases delivery with
      | outOfOrder => cases hdelivery rfl
      | inOrder =>
          refine (sends_message _).mono ?_
          rintro r _ ⟨-, reply, rfl⟩
          exact Relays.wallet rfl rfl
  | walletFrozenChanged e =>
      cases delivery with
      | outOfOrder => cases hdelivery rfl
      | inOrder =>
          refine (sends_message _).mono ?_
          rintro r _ ⟨-, reply, rfl⟩
          exact Relays.wallet rfl rfl

/-- A wallet's state, read at a final block that is not behind. -/
theorem sends_walletStateAtFinal (w owner : String) (notBefore : Nat) :
    Sends (relayWalletStateAtFinal A w owner notBefore) fun r added =>
      (r ≠ .ok () ∧ added = []) ∨
      ∃ t policy at_ message reply,
        A.viewFinal t "get_wallet_policy" (.obj [("wallet_pubkey", .str w)]) = .ok (policy, at_) ∧
        notBefore ≤ at_ ∧ policyMessage w owner policy = .ok message ∧ added = [.sent message reply] ∧
        (r = .ok () → reply = .ok ()) := by
  refine asks_viewFinal.bind ?_
  rintro (why | ⟨policy, at_⟩) hview
  · exact emits_pure (Or.inl ⟨fun h => (by cases h), rfl⟩)
  · obtain ⟨t, hview⟩ := hview _ rfl
    dsimp only
    by_cases hbehind : at_ < notBefore
    · rw [if_pos hbehind]
      exact emits_pure (Or.inl ⟨fun h => (by cases h), rfl⟩)
    · rw [if_neg hbehind]
      cases hmessage : policyMessage w owner policy with
      | error why => exact emits_pure (Or.inl ⟨fun h => (by cases h), rfl⟩)
      | ok message =>
          refine sends_send.bind (fun reply => silent_pure (P := fun r : Res Unit => r = .ok () → reply = .ok ()) ?_) ?_
          · intro h
            cases reply with
            | error refusal => cases h
            | ok _ => rfl
          · rintro reply _ r more rfl ⟨rfl, hr⟩
            exact Or.inr ⟨t, policy, at_, message, reply, hview, Nat.not_lt.mp hbehind, hmessage, rfl, hr⟩

/-- What is sent of a wallet's state is of the wallet. -/
theorem policyMessage_wallet {w owner : String} {policy : Value} {message : Message}
    (h : policyMessage w owner policy = .ok message) : message.wallet = some w := by
  unfold policyMessage at h
  split at h
  · cases h
    rfl
  · cases howner : (policy.get "owner").bind Value.asStr with
    | none => rw [howner] at h; cases h
    | some o =>
        cases hdata : (policy.get "encrypted_data").bind Value.asStr with
        | none => rw [howner, hdata] at h; cases h
        | some d =>
            cases hfrozen : (policy.get "frozen").bind Value.asBool with
            | none => rw [howner, hdata, hfrozen] at h; cases h
            | some f =>
                rw [howner, hdata, hfrozen] at h
                cases h
                rfl

/-- A wallet's event out of order: the state of the final block. -/
theorem relays_wallet {m : EventMonitor} {w owner : String} (hwallet : event.wallet = some (w, owner)) :
    Sends (relay A S m event .walletStateAtFinal height)
      (Relays A S m.currentBlock height .outOfOrder event) := by
  unfold relay
  rw [hwallet]
  dsimp only
  refine (sends_walletStateAtFinal w owner _).bind
    (fun relayed => silent_pure (P := fun r : Res Unit => r = .ok () → relayed = .ok ()) ?_) ?_
  · intro h
    cases relayed with
    | error why => cases h
    | ok _ => rfl
  · rintro relayed added r more hadded ⟨rfl, hr⟩
    rw [List.append_nil]
    rcases hadded with ⟨hne, rfl⟩ | ⟨t, policy, at_, message, reply, hview, hle, hmessage, rfl, hreply⟩
    · refine Relays.silent (fun e he => ?_) fun _ => ⟨rfl, fun h => hne (hr h)⟩
      subst he
      cases hwallet
    · exact {
        sends_only := fun act hact => ⟨_, _, List.mem_singleton.mp hact⟩
        tasks := fun params _ hsent => by
          cases List.mem_singleton.mp hsent
          exact absurd (policyMessage_wallet hmessage) (fun h => by cases h)
        purchase := fun e he => by
          subst he
          cases hwallet
        no_wallet := fun hnone => by
          rw [hwallet] at hnone
          cases hnone
        wallet_asIs := fun h => by cases h
        wallet_atFinal := fun w' owner' _ hwallet' hok => by
          obtain ⟨rfl, rfl⟩ := Prod.mk.inj (Option.some.inj (hwallet.symm.trans hwallet'))
          exact ⟨t, policy, at_, message, hview, hle, hmessage, by rw [hreply (hr hok)]⟩ }

/-- An execution, while the request is pending. -/
theorem relays_ifPending (e : ExecutionRequestedEvent) :
    Sends (relayIfPending A S e height) (Relays A S head height delivery (.executionRequested e)) := by
  have hsilent : ∀ r, Relays A S head height delivery (.executionRequested e) r [] :=
    fun r => Relays.silent (fun _ h => by cases h) fun h => by cases h
  unfold relayIfPending
  cases RequestData.ofText S.host.jsonNumber e.requestData with
  | none => exact emits_pure (hsilent _)
  | some data =>
      refine asks_viewFinal.bind ?_
      rintro (why | ⟨request, final⟩) -
      · exact emits_pure (hsilent _)
      · dsimp only
        by_cases hbehind : final < height
        · rw [if_pos hbehind]
          exact emits_pure (hsilent _)
        · rw [if_neg hbehind]
          by_cases hnull : request = .null
          · rw [if_pos hnull]
            exact emits_pure (hsilent _)
          · rw [if_neg hnull]
            exact relays_execution e

/-- A key's creation, while the key exists. -/
theorem relays_ifKeyExists (e : TopUpPaymentKeyEvent) :
    Sends (relayIfKeyExists A S e height) (Relays A S head height delivery (.topUpPaymentKey e)) := by
  have hsilent : ∀ r, Relays A S head height delivery (.topUpPaymentKey e) r [] :=
    fun r => Relays.silent (fun _ h => by cases h) fun h => by cases h
  have hexists : Asks (paymentKeyExistsAtFinal A e.owner e.nonce) fun _ => True := by
    refine asks_viewFinal.bind ?_
    rintro (why | ⟨answer, at_⟩) -
    · exact silent_pure trivial
    · dsimp only
      cases answer.asBool with
      | none => exact silent_pure trivial
      | some exists_ => exact silent_pure trivial
  refine hexists.bind ?_
  rintro (why | ⟨exists_, final⟩) -
  · exact emits_pure (hsilent _)
  · dsimp only
    by_cases hbehind : final < height
    · rw [if_pos hbehind]
      exact emits_pure (hsilent _)
    · rw [if_neg hbehind]
      by_cases hgone : exists_ = false
      · rw [if_pos hgone]
        exact emits_pure (hsilent _)
      · rw [if_neg hgone]
        refine (sends_message _).mono ?_
        rintro r _ ⟨-, reply, rfl⟩
        exact Relays.single rfl (fun _ h => by cases h) (fun _ h => by cases h) rfl

/-- **One event, carried out as decided.** -/
theorem sends_relay (m : EventMonitor) (event : ContractEvent) (delivery : Delivery) (age : Age) (height : Nat) :
    Sends (relay A S m event (relayDecision event delivery age) height)
      (Relays A S m.currentBlock height delivery event) := by
  have hwallet : ∀ {e : ContractEvent}, e.wallet.isSome → relayDecision e .inOrder age = .asIs →
      relayDecision e .outOfOrder age = .walletStateAtFinal →
      Sends (relay A S m e (relayDecision e delivery age) height)
        (Relays A S m.currentBlock height delivery e) := by
    intro e hsome hin hout
    obtain ⟨⟨w, owner⟩, hw⟩ := Option.isSome_iff_exists.mp hsome
    cases delivery with
    | inOrder =>
        rw [hin]
        exact relays_asIs fun h => by cases h
    | outOfOrder =>
        rw [hout]
        exact relays_wallet hw
  cases event with
  | executionRequested e =>
      unfold relayDecision
      dsimp only
      split
      · exact relays_asIs fun _ => rfl
      · exact relays_ifPending e
  | topUpPaymentKey e =>
      unfold relayDecision
      dsimp only
      by_cases hamount : e.amount ≠ "0"
      · rw [if_pos hamount]
        exact relays_asIs fun _ => rfl
      · rw [if_neg hamount]
        cases delivery with
        | inOrder => exact relays_asIs fun _ => rfl
        | outOfOrder => exact relays_ifKeyExists e
  | deletePaymentKey e =>
      unfold relayDecision
      dsimp only
      rcases age.isLate with _ | _ | _
      · exact emits_pure (Relays.silent (fun _ h => by cases h) fun h => by cases h)
      · exact relays_asIs fun _ => rfl
      · exact emits_pure (Relays.silent (fun _ h => by cases h) fun h => by cases h)
  | walletPolicyUpdated e => exact hwallet rfl rfl rfl
  | walletPolicyDeleted e => exact hwallet rfl rfl rfl
  | walletFrozenChanged e => exact hwallet rfl rfl rfl
  | subscriptionPurchased e => exact relays_purchase e
  | projectStorageCleanup e => exact relays_asIs fun _ => rfl
  | projectTransferred e => exact relays_asIs fun _ => rfl

end Relaying

end Monitor

end Outlayer
