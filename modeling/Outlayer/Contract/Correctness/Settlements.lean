import Outlayer.Contract.Settlement
import Outlayer.Contract.Correctness.Payout
import Outlayer.Contract.Correctness.PriceTables

/-!
# `Contract.Correctness.Settlements` — who is paid when a paid run succeeds

What was attached is cut in three: the change and the guest's refund go back to the sender, and what remains goes to the
developers, a share of it to the author and the rest to the owner. The three accounts may be the same in any way, so
each operation is stated by what it adds to every account (`Adds`), and the parts of an account add up.
-/

namespace Outlayer
open Checked Collections Balances Runs

/-! ## The parts -/

section Parts
variable (H : Host) (c : Contract) (r : ExecutionRequest)

/-- The price of the operation a request names, as its project's table reads now; all that was attached when there is no
    table, no such operation in it, or none named. -/
def ExecutionRequest.priceNow : Nat :=
  (do let id ← r.executionSource.projectId
      let pricing ← c.projectPricing.lookup id
      let operation ← (operationFromInput H r.inputData).toOption
      priceForOperation pricing operation).getD r.attachedUsd

/-- What was attached over the price. -/
def ExecutionRequest.change : Nat := r.attachedUsd - min r.attachedUsd (r.priceNow H c)

/-- What the guest hands back, at most what it was paid. -/
def ExecutionRequest.guestRefund (refund : Nat) : Nat := min refund (min r.attachedUsd (r.priceNow H c))

/-- What is left for the developers. -/
def ExecutionRequest.remains (refund : Nat) : Nat := r.attachedUsd - (r.change H c + r.guestRefund H c refund)

/-- The project a request is for, if it still exists. -/
def ExecutionRequest.project : Option Project := r.executionSource.projectId.bind c.projects.lookup

/-- What `amount` brings `account`: a share of it as author of the operation, the rest as owner of the project, and both
    to whoever is both. -/
def developerPart (sold : Option (AccountId × Nat × Nat)) (owner : AccountId) (amount : Nat) (account : AccountId) :
    Nat :=
  match sold with
  | none                    => if account = owner then amount else 0
  | some (author, _, share) =>
      (if account = author then amount * share / 10000 else 0) +
        (if account = owner then amount - amount * share / 10000 else 0)

/-- What a settlement adds to the balance of `account`: the whole attachment, to the sender, when nobody is left to
    pay. -/
def ExecutionRequest.toBalance (refund : Nat) (account : AccountId) : Nat :=
  if account = r.senderId then
    if r.project c = none then r.attachedUsd else r.change H c + r.guestRefund H c refund
  else 0

/-- What it adds to the earnings of `account`. -/
def ExecutionRequest.toEarnings (refund : Nat) (account : AccountId) : Nat :=
  (r.project c).elim 0 fun project =>
    developerPart (pricedOperation H c r) project.owner (r.remains H c refund) account

/-- **Settled.** Every account has its part, of the balances and of the earnings, over what it had. -/
structure Settled (refund : Nat) (l' : Ledger) : Prop where
  balances : ∀ account, balance l'.userStablecoinBalances account
    = balance c.userStablecoinBalances account + r.toBalance H c refund account
  earnings : ∀ account, balance l'.developerEarnings account
    = balance c.developerEarnings account + r.toEarnings H c refund account

end Parts

/-- No row of a price list gives its author more than the whole. -/
def Contract.SharesChecked (c : Contract) : Prop :=
  ∀ id pricing, c.projectPricing.lookup id = some pricing → ∀ op ∈ pricing.operations, op.developerShareBp ≤ 10000

/-! ## What the owner's check keeps -/

theorem checkOperations_shares {seen : List String} {ops : List OperationPrice}
    (h : checkOperations seen ops = .ok ()) : ∀ op ∈ ops, op.developerShareBp ≤ 10000 := by
  induction ops generalizing seen with
  | nil => simp
  | cons op ops ih =>
      simp only [checkOperations, bind_eq_ok, require_eq_ok] at h
      obtain ⟨_, -, _, hshare, _, -, h⟩ := h
      exact List.forall_mem_cons.mpr ⟨hshare, ih h⟩

section Run
variable {H : Host} {t : Step}

theorem sharesChecked_of_same {c c' : Contract} (hprices : c'.toPriceTable = c.toPriceTable)
    (hshares : c.SharesChecked) : c'.SharesChecked := by
  intro id pricing hlookup
  rw [show c'.projectPricing = c.projectPricing from congrArg PriceTable.projectPricing hprices] at hlookup
  exact hshares id pricing hlookup

theorem sharesChecked_pricing {env : Env} {c c' : Contract} {call : Call}
    (h : runCall H env c call = .pricing (.ok c'.toPriceTable)) (hshares : c.SharesChecked) : c'.SharesChecked := by
  intro id pricing hlookup
  cases call with
  | setProjectPricing projectId new =>
      obtain ⟨-, hchecked, htable⟩ := setProjectPricing_ok (PartRun.pricing.inj h)
      rw [show c'.projectPricing = c.projectPricing.insert projectId new from
        congrArg PriceTable.projectPricing htable, LookupMap.lookup_insert_iff] at hlookup
      split at hlookup
      · cases hlookup
        exact checkOperations_shares hchecked
      · exact hshares id pricing hlookup
  | removeProjectPricing projectId =>
      have hrun := PartRun.pricing.inj h
      simp only [removeProjectPricing, bind_eq_ok, pure_eq_ok] at hrun
      obtain ⟨_, -, htable⟩ := hrun
      rw [show c'.projectPricing = c.projectPricing.erase projectId from
        congrArg PriceTable.projectPricing htable.symm, LookupMap.lookup_erase_iff] at hlookup
      split at hlookup
      · cases hlookup
      · exact hshares id pricing hlookup
  | _ => cases h

theorem sharesChecked_step (hf : Fires (World.next H) t) (hshares : t.pre.contract.SharesChecked) :
    t.post.contract.SharesChecked := by
  rcases step_parts hf with ⟨env, call, -, -, hparts⟩ | ⟨-, -, -, hprices⟩
  · rcases hparts.pricing with hp | ⟨-, hp⟩
    · exact sharesChecked_pricing hp hshares
    · exact sharesChecked_of_same hp hshares
  · exact sharesChecked_of_same hprices hshares

/-- **Shares are checked** in every state the contract reaches. -/
theorem sharesChecked_of_history {owner : AccountId} {operator : Option AccountId} {standard version : Option String}
    {tr : List Step} {w : World} (h : World.History H owner operator standard version tr w) :
    w.contract.SharesChecked := by
  refine Run.invariant (I := fun w => w.contract.SharesChecked) ?_ (fun _ hf hi => sharesChecked_step hf hi) h
  intro id pricing hlookup
  cases hlookup

end Run

/-! ## What each operation adds -/

/-- `m'` is `m` with `part` added, account by account. -/
def Adds (m m' : LookupMap AccountId Nat) (part : AccountId → Nat) : Prop :=
  ∀ account, balance m' account = balance m account + part account

section Operations
variable {H : Host} {c : Contract} {l l' : Ledger} {r : ExecutionRequest} {account : AccountId} {n : Nat}

theorem Adds.refl (m : LookupMap AccountId Nat) : Adds m m fun _ => 0 := fun _ => rfl

theorem Adds.trans {m m' m'' : LookupMap AccountId Nat} {part part' : AccountId → Nat} (h : Adds m m' part)
    (h' : Adds m' m'' part') : Adds m m'' fun a => part a + part' a := by
  intro a
  rw [h' a, h a, Nat.add_assoc]

theorem Adds.congr {m m' : LookupMap AccountId Nat} {part part' : AccountId → Nat} (h : Adds m m' part)
    (heq : ∀ a, part a = part' a) : Adds m m' part' := by
  intro a
  rw [h a, heq a]

theorem adds_credit {m m' : LookupMap AccountId Nat} (h : credit 128 m account n = .ok m') :
    Adds m m' fun a => if a = account then n else 0 := by
  obtain ⟨-, rfl⟩ := credit_eq_ok.mp h
  intro a
  show balance _ a = balance m a + if a = account then n else 0
  by_cases hsame : a = account
  · subst hsame
    rw [if_pos rfl, balance, AList.lookup_insert, Option.getD_some]
  · rw [if_neg hsame, balance, AList.lookup_insert_ne hsame, Nat.add_zero, balance]

theorem returnAttachedUsd_adds (h : returnAttachedUsd l account n = .ok l') :
    Adds l.userStablecoinBalances l'.userStablecoinBalances (fun a => if a = account then n else 0) ∧
      l'.developerEarnings = l.developerEarnings := by
  unfold returnAttachedUsd at h
  split at h
  · next hzero =>
      cases h
      exact ⟨(Adds.refl _).congr (by simp [hzero]), rfl⟩
  · simp only [bind_eq_ok, pure_eq_ok] at h
    obtain ⟨balances, hbalances, rfl⟩ := h
    exact ⟨adds_credit hbalances, rfl⟩

theorem creditEarnings_adds (h : creditEarnings l account n = .ok l') :
    l'.userStablecoinBalances = l.userStablecoinBalances ∧
      Adds l.developerEarnings l'.developerEarnings (fun a => if a = account then n else 0) := by
  simp only [creditEarnings, bind_eq_ok, pure_eq_ok] at h
  obtain ⟨earnings, hearnings, rfl⟩ := h
  exact ⟨rfl, adds_credit hearnings⟩

/-- The share of an author, where it is a share. -/
theorem splitPayment_eq {paid share : Nat} {split : Split} (hshare : share ≤ 10000)
    (h : splitPayment paid share = .ok split) :
    split = ⟨paid * share / 10000, paid - paid * share / 10000⟩ := by
  simp only [splitPayment, Nat.min_eq_left hshare, bind_eq_ok, mul_eq_ok, sub_eq_ok, pure_eq_ok] at h
  obtain ⟨_, ⟨-, rfl⟩, _, ⟨-, rfl⟩, rfl⟩ := h
  rfl

/-- The sold row is one of a table, so its share was checked. -/
theorem share_le_of_priced (hshares : c.SharesChecked) {author : AccountId} {price share : Nat}
    (h : pricedOperation H c r = some (author, price, share)) : share ≤ 10000 := by
  simp only [pricedOperation, Option.bind_eq_bind, Option.bind_eq_some_iff] at h
  obtain ⟨id, -, pricing, hpricing, operation, -, op, hop, hrow⟩ := h
  cases hrow
  exact hshares id pricing hpricing op (List.mem_of_find?_eq_some hop)

/-- The price charged is the price of the operation named. -/
theorem priceNow_eq : ((pricedOperation H c r).map fun p => p.2.1).getD r.attachedUsd = r.priceNow H c := by
  unfold pricedOperation ExecutionRequest.priceNow priceForOperation
  cases r.executionSource.projectId with
  | none => rfl
  | some id =>
      cases hpricing : c.projectPricing.lookup id with
      | none => simp [hpricing]
      | some pricing =>
          cases hoperation : (operationFromInput H r.inputData).toOption with
          | none => simp
          | some operation =>
              cases hop : pricing.operations.find? fun o => o.operation = operation with
              | none => simp [hpricing, hop]
              | some op => simp [hpricing, hop]

/-- What the developers are paid, whoever they are; nobody left to pay, the sender is. -/
theorem creditDevelopers_adds (hshares : c.SharesChecked)
    (h : creditDevelopers c l r (pricedOperation H c r) n = .ok l') :
    Adds l.userStablecoinBalances l'.userStablecoinBalances
        (fun a => if a = r.senderId then if r.project c = none then n else 0 else 0) ∧
      Adds l.developerEarnings l'.developerEarnings
        (fun a => (r.project c).elim 0 fun project => developerPart (pricedOperation H c r) project.owner n a) := by
  unfold creditDevelopers at h
  unfold ExecutionRequest.project
  cases hproject : r.executionSource.projectId.bind c.projects.lookup with
  | none =>
      rw [hproject] at h
      obtain ⟨hbalances, hearnings⟩ := returnAttachedUsd_adds h
      exact ⟨hbalances.congr (by simp), by rw [hearnings]; exact Adds.refl _⟩
  | some project =>
      rw [hproject] at h
      have hall : ∀ {l'}, creditEarnings l project.owner n = .ok l' →
          Adds l.userStablecoinBalances l'.userStablecoinBalances (fun a =>
            if a = r.senderId then if some project = none then n else 0 else 0) ∧
          Adds l.developerEarnings l'.developerEarnings (fun a => if a = project.owner then n else 0) := by
        intro l' hcredit
        obtain ⟨hbalances, hearnings⟩ := creditEarnings_adds hcredit
        rw [hbalances]
        exact ⟨(Adds.refl _).congr (by simp), hearnings⟩
      cases hpriced : pricedOperation H c r with
      | none =>
          rw [hpriced] at h
          exact hall h
      | some sold =>
          obtain ⟨author, price, share⟩ := sold
          rw [hpriced] at h
          simp only [bind_eq_ok] at h
          obtain ⟨split, hsplit, h⟩ := h
          obtain rfl := splitPayment_eq (share_le_of_priced hshares hpriced) hsplit
          split at h
          · simp only [bind_eq_ok] at h
            obtain ⟨l₁, hauthor, howner⟩ := h
            obtain ⟨hbalances₁, hearnings₁⟩ := creditEarnings_adds hauthor
            obtain ⟨hbalances₂, hearnings₂⟩ := creditEarnings_adds howner
            rw [hbalances₂, hbalances₁]
            exact ⟨(Adds.refl _).congr (by simp), hearnings₁.trans hearnings₂⟩
          · next hnothing =>
              -- an author's share of nothing: the owner has it all
              obtain ⟨hbalances, hearnings⟩ := hall h
              have hzero : n * share / 10000 = 0 := Nat.eq_zero_of_not_pos hnothing
              refine ⟨hbalances, hearnings.congr fun a => ?_⟩
              simp [developerPart, hzero]

/-- What is given back and what is shared, by the price charged. -/
theorem settleAttached_eq (refund : Nat) :
    settleAttached r.attachedUsd (r.priceNow H c) refund
      = (r.change H c + r.guestRefund H c refund, r.remains H c refund) := by
  have hcharge : r.attachedUsd - (r.attachedUsd - r.priceNow H c) = min r.attachedUsd (r.priceNow H c) := by omega
  unfold settleAttached ExecutionRequest.remains ExecutionRequest.change ExecutionRequest.guestRefund
  simp only [hcharge]
  ext
  · dsimp only
    omega
  · dsimp only
    omega

/-- **The division of what was attached.** -/
theorem settleUsd_adds (hshares : c.SharesChecked) (hpaid : 0 < r.attachedUsd) {refund : Nat}
    (h : settleUsd H c l r refund = .ok l') :
    Adds l.userStablecoinBalances l'.userStablecoinBalances (r.toBalance H c refund) ∧
      Adds l.developerEarnings l'.developerEarnings (r.toEarnings H c refund) := by
  simp only [settleUsd, if_pos hpaid, priceNow_eq, settleAttached_eq, bind_eq_ok] at h
  obtain ⟨l₁, hback, h⟩ := h
  obtain ⟨hbalances₁, hearnings₁⟩ := returnAttachedUsd_adds hback
  have hsum : r.change H c + r.guestRefund H c refund + r.remains H c refund = r.attachedUsd := by
    unfold ExecutionRequest.remains ExecutionRequest.change ExecutionRequest.guestRefund
    omega
  have hwhole : ∀ a, (if a = r.senderId then r.change H c + r.guestRefund H c refund else 0)
      + (if a = r.senderId then if r.project c = none then r.remains H c refund else 0 else 0)
      = r.toBalance H c refund a := by
    intro a
    unfold ExecutionRequest.toBalance
    split
    · split
      · exact hsum
      · rfl
    · rfl
  split at h
  · obtain ⟨hbalances₂, hearnings₂⟩ := creditDevelopers_adds hshares h
    rw [hearnings₁] at hearnings₂
    exact ⟨(hbalances₁.trans hbalances₂).congr hwhole, hearnings₂⟩
  · next hnothing =>
      cases h
      have hzero : r.remains H c refund = 0 := Nat.eq_zero_of_not_pos hnothing
      refine ⟨hbalances₁.congr fun a => ?_, ?_⟩
      · rw [← hwhole a, hzero]
        simp
      · rw [hearnings₁]
        refine (Adds.refl _).congr fun a => ?_
        unfold ExecutionRequest.toEarnings
        cases r.project c with
        | none => rfl
        | some project =>
            rw [hzero]
            cases pricedOperation H c r with
            | none => simp [developerPart]
            | some sold => simp [developerPart]

/-! ## Going through -/

theorem exists_creditEarnings (h : balance l.developerEarnings account + n < 2 ^ 128) :
    ∃ l', creditEarnings l account n = .ok l' := by
  simp only [creditEarnings, bind_eq_ok, credit_eq_ok, pure_eq_ok]
  exact ⟨_, _, ⟨h, rfl⟩, rfl⟩

/-- A payment that ten thousand times over fits is split. -/
theorem exists_splitPayment {paid share : Nat} (hfits : paid * 10000 < 2 ^ 128) :
    ∃ split, splitPayment paid share = .ok split ∧ split.authorUsd + split.ownerUsd = paid := by
  have hscaled : paid * min share 10000 < 2 ^ 128 :=
    lt_of_le_of_lt (Nat.mul_le_mul_left _ (Nat.min_le_right _ _)) hfits
  have hpart : paid * min share 10000 / 10000 ≤ paid := by
    have := Nat.mul_le_mul_left paid (Nat.min_le_right share 10000)
    omega
  refine ⟨⟨paid * min share 10000 / 10000, paid - paid * min share 10000 / 10000⟩, ?_, Nat.add_sub_cancel' hpart⟩
  simp only [splitPayment, bind_eq_ok, mul_eq_ok, sub_eq_ok, pure_eq_ok]
  exact ⟨_, ⟨hscaled, rfl⟩, _, ⟨hpart, rfl⟩, rfl⟩

theorem exists_creditDevelopers {priced : Option (AccountId × Nat × Nat)} (hfits : n * 10000 < 2 ^ 128)
    (hbalance : balance l.userStablecoinBalances r.senderId + n < 2 ^ 128)
    (hearnings : ∀ a, balance l.developerEarnings a + n < 2 ^ 128) :
    ∃ l', creditDevelopers c l r priced n = .ok l' := by
  unfold creditDevelopers
  cases r.executionSource.projectId.bind c.projects.lookup with
  | none => exact exists_returnAttachedUsd hbalance
  | some project =>
      cases priced with
      | none => exact exists_creditEarnings (hearnings _)
      | some sold =>
          obtain ⟨author, price, share⟩ := sold
          obtain ⟨split, hsplit, hsum⟩ := @exists_splitPayment n share hfits
          simp only [hsplit]
          show ∃ l', (if split.authorUsd > 0 then _ else _) = _
          split
          · have hauthor : balance l.developerEarnings author + split.authorUsd < 2 ^ 128 :=
              lt_of_le_of_lt (by omega) (hearnings author)
            obtain ⟨l₁, hl₁⟩ := exists_creditEarnings hauthor
            have howner : balance l₁.developerEarnings project.owner + split.ownerUsd < 2 ^ 128 := by
              have hadds := (creditEarnings_adds hl₁).2 project.owner
              have hroom := hearnings project.owner
              rw [hadds]
              dsimp only
              split <;> omega
            obtain ⟨l₂, hl₂⟩ := exists_creditEarnings howner
            exact ⟨l₂, bind_eq_ok.mpr ⟨l₁, hl₁, hl₂⟩⟩
          · exact exists_creditEarnings (hearnings _)

/-- What was attached is divided when the accounts have room for it. -/
theorem exists_settleUsd {refund : Nat} (hfits : r.attachedUsd * 10000 < 2 ^ 128)
    (hbalance : balance l.userStablecoinBalances r.senderId + r.attachedUsd < 2 ^ 128)
    (hearnings : ∀ a, balance l.developerEarnings a + r.attachedUsd < 2 ^ 128) :
    ∃ l', settleUsd H c l r refund = .ok l' := by
  unfold settleUsd
  split
  · have hsum := settleAttached_sum r.attachedUsd
      (((pricedOperation H c r).map fun p => p.2.1).getD r.attachedUsd) refund
    dsimp only
    generalize settleAttached r.attachedUsd (((pricedOperation H c r).map fun p => p.2.1).getD r.attachedUsd) refund
      = parts at hsum ⊢
    obtain ⟨l₁, hl₁⟩ := @exists_returnAttachedUsd l r.senderId parts.1 (by omega)
    obtain ⟨hadds, hkept⟩ := returnAttachedUsd_adds hl₁
    have hsender : balance l₁.userStablecoinBalances r.senderId
        = balance l.userStablecoinBalances r.senderId + parts.1 := by
      rw [hadds r.senderId]
      simp
    have hdevelopers : ∃ l', (if parts.2 > 0 then creditDevelopers c l₁ r (pricedOperation H c r) parts.2
        else pure l₁) = .ok l' := by
      split
      · have hle : parts.2 ≤ r.attachedUsd := hsum ▸ Nat.le_add_left _ _
        have hroom : balance l₁.userStablecoinBalances r.senderId + parts.2 < 2 ^ 128 := by
          rw [hsender, Nat.add_assoc, hsum]
          exact hbalance
        refine exists_creditDevelopers (lt_of_le_of_lt (Nat.mul_le_mul_right _ hle) hfits) hroom fun a => ?_
        rw [hkept]
        exact lt_of_le_of_lt (Nat.add_le_add_left hle _) (hearnings a)
      · exact ⟨l₁, rfl⟩
    obtain ⟨l', hl'⟩ := hdevelopers
    exact ⟨l', bind_eq_ok.mpr ⟨l₁, hl₁, hl'⟩⟩
  · exact ⟨l, rfl⟩

end Operations

/-! ## The callback -/

section Callback
variable {H : Host} {env : Env} {c : Contract} {data : RequestData} {r : ExecutionRequest}
  {response : ExecutionResponse}

/-- **A successful paid run is settled exactly.** Every account's balance and earnings grow by their parts and by
    nothing else, whichever of the three accounts are one; and the settlement goes through when the counters and the
    accounts have room for it. -/
theorem paid_run_settled (hrow : c.pendingRequests.lookup data.requestId = some r) (hpaid : 0 < r.attachedUsd)
    (hfits : r.attachedUsd * 10000 < 2 ^ 128) (hsuccess : response.success = true) (hshares : c.SharesChecked) :
    (∀ l' es, onExecutionResponse H env c data (some response) = .ok (l', es) →
      Settled H c r (response.refundUsd.getD 0) l') ∧
    (∀ cost, calculateCost c.toConfig response.resourcesUsed = .ok cost → c.totalFeesCollected + cost < 2 ^ 128 →
      c.totalExecutions + 1 < 2 ^ 64 → balance c.userStablecoinBalances r.senderId + r.attachedUsd < 2 ^ 128 →
      (∀ a, balance c.developerEarnings a + r.attachedUsd < 2 ^ 128) →
      ∃ l' es, onExecutionResponse H env c data (some response) = .ok (l', es)) := by
  constructor
  · intro l' es h
    simp only [onExecutionResponse, hrow, hsuccess, if_true, settleSuccess, bind_eq_ok, pure_eq_ok] at h
    obtain ⟨executions, -, cost, -, l₁, hl₁, fees, -, h⟩ := h
    cases h
    obtain ⟨hbalances, hearnings⟩ := settleUsd_adds hshares hpaid hl₁
    exact ⟨hbalances, hearnings⟩
  · intro cost hcost hfees hexecutions hbalance hearnings
    simp only [onExecutionResponse, hrow, hsuccess, if_true, settleSuccess, cappedCost, hcost, bind_eq_ok, add_eq_ok,
      pure_eq_ok]
    obtain ⟨l₁, hl₁⟩ := @exists_settleUsd H c
      { c.toLedger with
        pendingRequests := c.pendingRequests.erase data.requestId
        totalExecutions := c.totalExecutions + 1 } r (response.refundUsd.getD 0) hfits hbalance hearnings
    have hkept := (settleUsd_credits hl₁).fees
    refine ⟨_, _, _, ⟨hexecutions, rfl⟩, _, ⟨cost, rfl, rfl⟩, l₁, hl₁, _, ⟨?_, rfl⟩, rfl⟩
    rw [hkept]
    exact lt_of_le_of_lt (Nat.add_le_add_left (Nat.min_le_left _ _) _) hfees

end Callback

/-- A run of the one operation of alice's project, which bob buys and is the author of. -/
def runByItsAuthor : RequestArgs where
  source := .project "alice.near/app" none
  resourceLimits := some .default
  inputData := some "\x7b\"operation\":\"run\"\x7d"
  params := some { attachedUsd := some 5 }

/-- The operation costs four units, half of them the author's. -/
def authorsRun : List Event :=
  [callBy ownerAccount (.setPaymentTokenContract (some tokenAccount)),
   callBy tokenAccount (.ftOnTransfer bobAccount 5 (some .depositBalance)),
   callBy aliceAccount (.createProject "app" (.gitHub "alice/app" "main" none)) (10 ^ 24),
   callBy ownerAccount (.setProjectPricing "alice.near/app" ⟨bobAccount, [⟨"run", 4, 5000⟩]⟩),
   callBy bobAccount (.requestExecution runByItsAuthor) (10 ^ 24) 0 1]

/-- A request of a project's author to run it. -/
def authorsRequest : RequestData :=
  runByItsAuthor.toData (envOf bobAccount (10 ^ 24) 0 1) 0 (.gitHub "alice/app" "main" none) none

/-- The run succeeds, and the guest hands one unit back. -/
def oneUnitBack : ExecutionResponse where
  success := true
  output := none
  error := none
  resourcesUsed := { instructions := 0, timeMs := 0, compileTimeMs := none }
  compilationNote := none
  refundUsd := some 1

/-- Five units attached to an operation of four: one is change, one the guest's refund; of the three that remain the
    author has one and the owner two. -/
theorem authors_run_settled : ∃ tr w l' es, World.History asciiHost ownerAccount none none none tr w ∧
    onExecutionResponse asciiHost (envOf ownerAccount 0 0 0) w.contract authorsRequest (some oneUnitBack)
      = .ok (l', es) ∧
    balance l'.userStablecoinBalances bobAccount = 2 ∧ balance l'.developerEarnings bobAccount = 1 ∧
    balance l'.developerEarnings aliceAccount = 2 := by
  obtain ⟨tr, w, h, hp⟩ := exists_history authorsRun
    (fun x => decide (∃ r ∈ x.2.request 0, r.attachedUsd = 5 ∧
        balance x.2.contract.userStablecoinBalances bobAccount + r.toBalance asciiHost x.2.contract 1 bobAccount = 2 ∧
        balance x.2.contract.developerEarnings bobAccount + r.toEarnings asciiHost x.2.contract 1 bobAccount = 1 ∧
        balance x.2.contract.developerEarnings aliceAccount + r.toEarnings asciiHost x.2.contract 1 aliceAccount = 2) &&
      (onExecutionResponse asciiHost (envOf ownerAccount 0 0 0) x.2.contract authorsRequest (some oneUnitBack)).toBool)
    (by decide +kernel)
  rw [Bool.and_eq_true] at hp
  obtain ⟨r, hrow, hattached, hbob, hbob', halice⟩ := of_decide_eq_true hp.1
  cases hsettled : onExecutionResponse asciiHost (envOf ownerAccount 0 0 0) w.contract authorsRequest
      (some oneUnitBack) with
  | error why =>
      rw [hsettled] at hp
      cases hp.2
  | ok result =>
      obtain ⟨l', es⟩ := result
      have hpending : w.contract.pendingRequests.lookup authorsRequest.requestId = some r := hrow
      have hpaid : 0 < r.attachedUsd := by rw [hattached]; decide
      have hfits : r.attachedUsd * 10000 < 2 ^ 128 := by rw [hattached]; decide
      have hset := (paid_run_settled hpending hpaid hfits rfl (sharesChecked_of_history h)).1 l' es hsettled
      refine ⟨tr, w, l', es, h, hsettled, ?_, ?_, ?_⟩
      · exact (hset.balances bobAccount).trans hbob
      · exact (hset.earnings bobAccount).trans hbob'
      · exact (hset.earnings aliceAccount).trans halice

end Outlayer
