import Outlayer.Contract.Steps

/-!
# `Contract.Settlement` — what each operation on the ledger does

One specification per operation that touches pending requests, stablecoin or fees. They are stated through
two relations: `Credits` (stablecoin appears on a balance, the requests stay) and `Ends` (requests are removed,
and exactly the removed ones are paid back).
-/

namespace Outlayer
open Checked Collections Balances

/-! ## Measures -/

/-- Stablecoin on user balances and developer earnings. -/
def Ledger.cash (l : Ledger) : Nat := holdings l.userStablecoinBalances + holdings l.developerEarnings

/-- Stablecoin attached to pending requests. -/
def Ledger.escrow (l : Ledger) : Nat := LookupMap.total (fun _ r => r.attachedUsd) l.pendingRequests

/-- The NEAR a list of effects transfers to `a` in settlement of request `id`. -/
def settledTo (a : AccountId) (id : Nat) : List Effect → Nat
  | []                    => 0
  | .transfer b n s :: es => (if b = a ∧ s = id then n else 0) + settledTo a id es
  | _ :: es               => settledTo a id es

/-- An effect that neither settles a request, nor withdraws earnings, nor creates a yield for a request. -/
def Effect.Quiet : Effect → Prop
  | .transfer _ _ _                            => False
  | .withdrawal _ _ _                          => False
  | .yieldCreate _ _ (.onExecutionResponse _)  => False
  | _                                          => True

/-- Every effect is quiet. -/
def AllQuiet (es : List Effect) : Prop := ∀ e ∈ es, e.Quiet

/-- No yield for a request is created. -/
def NoExecutionYield (es : List Effect) : Prop :=
  ∀ d gas data, Effect.yieldCreate d gas (.onExecutionResponse data) ∉ es

/-- No earnings are withdrawn. -/
def NoWithdrawal (es : List Effect) : Prop := ∀ token a n, Effect.withdrawal token a n ∉ es

section Effects
variable {a b : AccountId} {id id' n : Nat} {es es' : List Effect}

@[simp] theorem settledTo_append : settledTo a id (es ++ es') = settledTo a id es + settledTo a id es' := by
  induction es with
  | nil => simp [settledTo]
  | cons e es ih => cases e <;> simp [settledTo, ih, Nat.add_assoc]

theorem NoWithdrawal.append (h : NoWithdrawal es) (h' : NoWithdrawal es') : NoWithdrawal (es ++ es') :=
  fun tk x m hmem => (List.mem_append.mp hmem).elim (h tk x m) (h' tk x m)

theorem NoExecutionYield.append (h : NoExecutionYield es) (h' : NoExecutionYield es') :
    NoExecutionYield (es ++ es') :=
  fun d gas data hmem => (List.mem_append.mp hmem).elim (h d gas data) (h' d gas data)

theorem AllQuiet.settledTo (h : AllQuiet es) (a : AccountId) (id : Nat) : settledTo a id es = 0 := by
  induction es with
  | nil => rfl
  | cons e es ih =>
      have he := h e List.mem_cons_self
      have hes : AllQuiet es := fun x hx => h x (List.mem_cons_of_mem _ hx)
      cases e with
      | transfer _ _ _ => exact he.elim
      | _ => exact ih hes

theorem NoWithdrawal.withdrawalsIn (h : NoWithdrawal es) : withdrawalsIn es = 0 := by
  induction es with
  | nil => rfl
  | cons e es ih =>
      have hes : NoWithdrawal es := fun tk x n hx => h tk x n (List.mem_cons_of_mem _ hx)
      cases e with
      | withdrawal tk x n => exact absurd List.mem_cons_self (h tk x n)
      | _ => exact ih hes

theorem AllQuiet.noWithdrawal (h : AllQuiet es) : NoWithdrawal es := fun _ _ _ hmem => h _ hmem

theorem AllQuiet.noYield (h : AllQuiet es) : NoExecutionYield es := fun _ _ _ hmem => h _ hmem

/-- What storage methods emit is quiet. -/
theorem allQuiet_storage (ses : List StorageEffect) : AllQuiet (ses.map .storage) := by
  intro e he
  obtain ⟨s, -, rfl⟩ := List.mem_map.mp he
  trivial

@[simp] theorem settledTo_settle : settledTo a id (settle b n id') = if b = a ∧ id' = id then n else 0 := by
  unfold settle
  split
  · simp [settledTo]
  · next h =>
      obtain rfl : n = 0 := by omega
      simp [settledTo]

theorem noWithdrawal_settle : NoWithdrawal (settle b n id') := by
  intro tk x m
  unfold settle
  split <;> simp

theorem noYield_settle : NoExecutionYield (settle b n id') := by
  intro d gas data
  unfold settle
  split <;> simp

end Effects

/-! ## Crediting stablecoin -/

/-- `l'` is `l` with `n` more stablecoin on balances; requests and fees are the same. -/
structure Credits (l l' : Ledger) (n : Nat) : Prop where
  pending : l'.pendingRequests = l.pendingRequests
  next : l'.nextRequestId = l.nextRequestId
  fees : l'.totalFeesCollected = l.totalFeesCollected
  cash : l'.cash = l.cash + n

theorem Credits.refl (l : Ledger) : Credits l l 0 := ⟨rfl, rfl, rfl, rfl⟩

theorem Credits.trans {l₁ l₂ l₃ : Ledger} {m n : Nat} (h₁ : Credits l₁ l₂ m) (h₂ : Credits l₂ l₃ n) :
    Credits l₁ l₃ (m + n) where
  pending := h₂.pending.trans h₁.pending
  next := h₂.next.trans h₁.next
  fees := h₂.fees.trans h₁.fees
  cash := by rw [h₂.cash, h₁.cash, Nat.add_assoc]

section Credit
variable {l l' : Ledger} {account : AccountId} {n : Nat}

theorem returnAttachedUsd_credits (h : returnAttachedUsd l account n = .ok l') : Credits l l' n := by
  unfold returnAttachedUsd at h
  split at h
  · next hn =>
      cases h
      exact hn ▸ Credits.refl l
  · simp only [bind_eq_ok, pure_eq_ok] at h
    obtain ⟨b, hb, rfl⟩ := h
    refine ⟨rfl, rfl, rfl, ?_⟩
    have := holdings_credit hb
    simp only [Ledger.cash]
    omega

/-- A return goes through when the balance can take it. -/
theorem exists_returnAttachedUsd (h : balance l.userStablecoinBalances account + n < 2 ^ 128) :
    ∃ l', returnAttachedUsd l account n = .ok l' := by
  unfold returnAttachedUsd
  split
  · exact ⟨l, rfl⟩
  · simp only [bind_eq_ok, credit_eq_ok, pure_eq_ok]
    exact ⟨_, _, ⟨h, rfl⟩, rfl⟩

theorem creditEarnings_credits (h : creditEarnings l account n = .ok l') : Credits l l' n := by
  simp only [creditEarnings, bind_eq_ok, pure_eq_ok] at h
  obtain ⟨b, hb, rfl⟩ := h
  refine ⟨rfl, rfl, rfl, ?_⟩
  have := holdings_credit hb
  simp only [Ledger.cash]
  omega

/-- Whoever is left to pay, the whole amount is paid. -/
theorem creditDevelopers_credits {c : Contract} {r : ExecutionRequest}
    {priced : Option (AccountId × Nat × Nat)} (h : creditDevelopers c l r priced n = .ok l') :
    Credits l l' n := by
  unfold creditDevelopers at h
  split at h
  · exact returnAttachedUsd_credits h
  · split at h
    · exact creditEarnings_credits h
    -- the two shares make up the amount, so paying both pays all of it
    · simp only [bind_eq_ok] at h
      obtain ⟨split, hsplit, h⟩ := h
      have hsum := splitPayment_sum hsplit
      split at h
      · simp only [bind_eq_ok] at h
        obtain ⟨l₁, h₁, h₂⟩ := h
        exact hsum ▸ (creditEarnings_credits h₁).trans (creditEarnings_credits h₂)
      · exact creditEarnings_credits h

/-- A successful run divides exactly what was attached. -/
theorem settleUsd_credits {H : Host} {c : Contract} {r : ExecutionRequest} {guestRefund : Nat}
    (h : settleUsd H c l r guestRefund = .ok l') : Credits l l' r.attachedUsd := by
  unfold settleUsd at h
  split at h
  · simp only [bind_eq_ok] at h
    obtain ⟨l₁, h₁, h₂⟩ := h
    have hsum := settleAttached_sum r.attachedUsd
      (((pricedOperation H c r).map fun p => p.2.1).getD r.attachedUsd) guestRefund
    have hc₁ := returnAttachedUsd_credits h₁
    split at h₂
    · exact hsum ▸ hc₁.trans (creditDevelopers_credits h₂)
    · next hzero =>
        cases h₂
        -- nothing is left for the developers: all of it went back
        have hz := Nat.eq_zero_of_not_pos hzero
        rw [hz, Nat.add_zero] at hsum
        exact hsum ▸ hc₁
  · next hzero =>
      cases h
      rw [Nat.eq_zero_of_not_pos hzero]
      exact Credits.refl l

/-- Admission takes exactly what is attached. -/
theorem takeAttachedUsd_credits {env : Env} {source : ExecutionSource}
    (h : takeAttachedUsd env l source n = .ok l') : Credits l' l n := by
  unfold takeAttachedUsd at h
  split at h
  · simp only [bind_eq_ok, require_eq_ok, pure_eq_ok] at h
    obtain ⟨_, -, _, hle, rfl⟩ := h
    refine ⟨rfl, rfl, rfl, ?_⟩
    have := holdings_insert l.userStablecoinBalances env.predecessor
      (balance l.userStablecoinBalances env.predecessor - n)
    simp only [Ledger.cash]
    omega
  · next hzero =>
      cases h
      rw [Nat.eq_zero_of_not_pos hzero]
      exact Credits.refl l

end Credit

/-! ## Admission -/

/-- **Admission.** The stablecoin leaves the caller's balance, the attached NEAR covers the cost and the
    storage part, and the request is stored under the next id with a yield that carries its payment. -/
structure Admits (H : Host) (env : Env) (c : Contract) (a : RequestArgs) (l' : Ledger) (es : List Effect) :
    Prop where
  next : l'.nextRequestId = c.nextRequestId + 1
  pending : ∃ resolved, l'.pendingRequests
    = c.pendingRequests.insert c.nextRequestId (a.toRequest env c.nextRequestId resolved)
  fees : l'.totalFeesCollected = c.totalFeesCollected
  cash : l'.cash + a.attachedUsd = c.toLedger.cash
  cost : ∃ cost, admissionCost H c a = .ok cost ∧
    cost + inputStorageDeposit a.inputLen ≤ env.attachedDeposit
  silent : ∀ x id, settledTo x id es = 0
  withdraws : NoWithdrawal es
  yields : ∀ d gas data, Effect.yieldCreate d gas (.onExecutionResponse data) ∈ es →
    data.requestId = c.nextRequestId ∧ data.payment = env.attachedDeposit

theorem requestExecution_admits {H : Host} {env : Env} {c : Contract} {a : RequestArgs} {l' : Ledger}
    {es : List Effect} (h : requestExecution H env c a = .ok (l', es)) : Admits H env c a l' es := by
  simp only [requestExecution, bind_eq_ok, require_eq_ok, add_eq_ok, pure_eq_ok] at h
  obtain ⟨_, -, _, -, ⟨resolved, uuid⟩, -, _, -, _, -, cost, hcost, l, hl, h⟩ := h
  obtain ⟨required, ⟨-, hrequired⟩, _, hpay, next, ⟨-, hnext⟩, h⟩ := h
  cases h
  have hc := takeAttachedUsd_credits hl
  constructor
  case next => exact hc.next ▸ hnext
  case pending =>
    refine ⟨resolved, ?_⟩
    rw [hc.pending, hc.next]
  case fees => exact hc.fees.symm
  case cash => exact hc.cash.symm
  case cost => exact ⟨cost, hcost, hrequired ▸ hpay⟩
  case silent => exact fun _ _ => rfl
  case withdraws => simp [NoWithdrawal, emitEvent]
  case yields =>
    intro d gas data hmem
    simp only [List.mem_cons, Effect.yieldCreate.injEq, emitEvent, reduceCtorEq, List.not_mem_nil, or_false,
      YieldCallback.onExecutionResponse.injEq] at hmem
    obtain ⟨-, -, rfl⟩ := hmem
    exact ⟨hc.next.symm, rfl⟩

/-- What admission needs, and what it then stores. -/
theorem requestExecution_eq_ok {H : Host} {env : Env} {c : Contract} {a : RequestArgs} {l : Ledger}
    {resolved : CodeSource} {uuid : Option String} {cost : Nat} (hpaused : c.paused = false)
    (hsecrets : assertSecretsRef H a.secretsRef = .ok ())
    (hresolve : resolveExecutionSource c a.source = .ok (resolved, uuid))
    (hinline : assertInlineSource a.source resolved = .ok ())
    (hparams : assertParams resolved (a.params.getD {}) a.compileOnly a.inputData = .ok ())
    (hcost : admissionCost H c a = .ok cost)
    (husd : takeAttachedUsd env c.toLedger a.source a.attachedUsd = .ok l)
    (hpay : cost + inputStorageDeposit a.inputLen ≤ env.attachedDeposit)
    (hid : l.nextRequestId + 1 < 2 ^ 64) :
    requestExecution H env c a = .ok
      ({ l with
          nextRequestId := l.nextRequestId + 1
          pendingRequests := l.pendingRequests.insert l.nextRequestId
            (a.toRequest env l.nextRequestId resolved) },
        [.yieldCreate env.dataId (responseGas a.inputLen)
          (.onExecutionResponse (a.toData env l.nextRequestId resolved uuid)),
         emitEvent c.toConfig (.executionRequested (a.toData env l.nextRequestId resolved uuid) env.dataId
          env.blockTimestamp)]) := by
  have hfit : cost + inputStorageDeposit a.inputLen < 2 ^ 128 := by
    have := env.attachedDeposit_lt
    omega
  simp only [requestExecution, bind_eq_ok, require_eq_ok, add_eq_ok, pure_eq_ok]
  exact ⟨(), by simp [assertNotPaused, hpaused], (), hsecrets, (resolved, uuid), hresolve, (), hinline, (),
    hparams, cost, hcost, l, husd, _, ⟨hfit, rfl⟩, (), hpay, _, ⟨hid, rfl⟩, rfl⟩

/-! ## Ending requests -/

/-- **Requests end.** Some requests are removed, no other entry changes, and each removed request `r` under
    `id` is paid `refund id r`, to its payer and nobody else. -/
structure Ends (l l' : Ledger) (es : List Effect) (refund : Nat → ExecutionRequest → Nat) : Prop where
  next : l'.nextRequestId = l.nextRequestId
  kept : ∀ id, l'.pendingRequests.lookup id = l.pendingRequests.lookup id ∨
    l'.pendingRequests.lookup id = none
  paid : ∀ id r, l.pendingRequests.lookup id = some r → l'.pendingRequests.lookup id = none →
    ∀ x, settledTo x id es = if r.payerAccountId = x then refund id r else 0
  silent : ∀ id, l'.pendingRequests.lookup id = l.pendingRequests.lookup id → ∀ x, settledTo x id es = 0
  withdraws : NoWithdrawal es
  yields : NoExecutionYield es

section Ending
variable {l l₁ l' : Ledger} {es hd : List Effect} {refund : Nat → ExecutionRequest → Nat} {id : Nat}
  {r : ExecutionRequest}

theorem Ends.nil (l : Ledger) (refund : Nat → ExecutionRequest → Nat) : Ends l l [] refund where
  next := rfl
  kept _ := Or.inl rfl
  paid id r h h' := by simp [h] at h'
  silent _ _ _ := rfl
  withdraws _ _ _ := List.not_mem_nil
  yields _ _ _ := List.not_mem_nil

/-- What a single removal emits: a payment to the payer, nothing else that matters to a ledger. -/
structure Pays (es : List Effect) (id : Nat) (r : ExecutionRequest) (amount : Nat) : Prop where
  paid : ∀ x i, settledTo x i es = if r.payerAccountId = x ∧ id = i then amount else 0
  withdraws : NoWithdrawal es
  yields : NoExecutionYield es

theorem pays_settle_append {n : Nat} (h : AllQuiet es) :
    Pays (settle r.payerAccountId n id ++ es) id r n where
  paid x i := by rw [settledTo_append, settledTo_settle, h.settledTo, Nat.add_zero]
  withdraws := noWithdrawal_settle.append h.noWithdrawal
  yields := noYield_settle.append h.noYield

theorem pays_transfer (id : Nat) (r : ExecutionRequest) (n : Nat) :
    Pays [.transfer r.payerAccountId n id] id r n where
  paid x i := by simp [settledTo]
  withdraws _ _ _ := by simp
  yields _ _ _ := by simp

/-- One request is removed and paid, then others end: together, requests end. -/
theorem Ends.cons (he : Ends l₁ l' es refund) (hr : l.pendingRequests.lookup id = some r)
    (hnext : l₁.nextRequestId = l.nextRequestId) (herase : l₁.pendingRequests = l.pendingRequests.erase id)
    (hp : Pays hd id r (refund id r)) : Ends l l' (hd ++ es) refund := by
  have hlook : ∀ i, l₁.pendingRequests.lookup i = if i = id then none else l.pendingRequests.lookup i := by
    intro i
    rw [herase, LookupMap.lookup_erase_iff]
  have hgone : l'.pendingRequests.lookup id = none := by
    rcases he.kept id with h | h
    · rw [h, hlook, if_pos rfl]
    · exact h
  constructor
  case next => exact he.next.trans hnext
  case kept =>
    intro i
    by_cases hi : i = id
    · exact Or.inr (hi ▸ hgone)
    · rcases he.kept i with h | h
      · rw [hlook, if_neg hi] at h
        exact Or.inl h
      · exact Or.inr h
  case paid =>
    intro i r' hr' hnone x
    rw [settledTo_append, hp.paid]
    by_cases hi : i = id
    · subst hi
      obtain rfl : r = r' := Option.some.inj (hr.symm.trans hr')
      -- the rest finds it gone, and pays nothing more for it
      rw [he.silent i (by rw [hgone, hlook, if_pos rfl])]
      simp
    · rw [if_neg (fun h => hi h.2.symm), he.paid i r' (by rw [hlook, if_neg hi, hr']) hnone, Nat.zero_add]
  case silent =>
    intro i hsame x
    have hi : i ≠ id := by
      rintro rfl
      rw [hgone, hr] at hsame
      cases hsame
    rw [settledTo_append, hp.paid, if_neg (fun h => hi h.2.symm), Nat.zero_add]
    exact he.silent i (by rw [hlook, if_neg hi, hsame]) x
  case withdraws => exact hp.withdraws.append he.withdraws
  case yields => exact hp.yields.append he.yields

/-- Stablecoin that moves from escrow to balances as a request ends. -/
theorem escrow_erase (hr : l.pendingRequests.lookup id = some r)
    (herase : l'.pendingRequests = l.pendingRequests.erase id) : l'.escrow + r.attachedUsd = l.escrow := by
  have h := LookupMap.total_erase (fun _ (x : ExecutionRequest) => x.attachedUsd) id l.pendingRequests
  rw [hr] at h
  rw [Ledger.escrow, Ledger.escrow, herase]
  exact h

/-- **One request ends.** It is removed and refunded, a fee is collected, and its stablecoin is back on
    balances. -/
structure Closes (l l' : Ledger) (es : List Effect) (id : Nat) (r : ExecutionRequest) (refund fee : Nat) :
    Prop where
  pending : l.pendingRequests.lookup id = some r
  removed : l'.pendingRequests = l.pendingRequests.erase id
  next : l'.nextRequestId = l.nextRequestId
  fees : l'.totalFeesCollected = l.totalFeesCollected + fee
  cash : l'.cash = l.cash + r.attachedUsd
  pays : Pays es id r refund

theorem Closes.ends {n fee : Nat} (h : Closes l l' es id r n fee) (refund : Nat → ExecutionRequest → Nat)
    (hn : refund id r = n) : Ends l l' es refund := by
  have he := (Ends.nil l' refund).cons h.pending h.next h.removed (hn ▸ h.pays)
  rwa [List.append_nil] at he

/-- Closing a request leaves balances and escrow together as they were. -/
theorem Closes.usd {n fee : Nat} (h : Closes l l' es id r n fee) :
    l'.cash + l'.escrow = l.cash + l.escrow := by
  have := escrow_erase h.pending h.removed
  have := h.cash
  omega

/-- Every single closing has this shape: take the request out, return its stablecoin, book the fee. -/
theorem closes_of_credits {l₂ : Ledger} {n fee : Nat} (hc : Credits l₁ l₂ r.attachedUsd)
    (hr : l.pendingRequests.lookup id = some r)
    (htake : l₁.pendingRequests = l.pendingRequests.erase id ∧ l₁.nextRequestId = l.nextRequestId ∧
      l₁.cash = l.cash)
    (hbook : l'.pendingRequests = l₂.pendingRequests ∧ l'.nextRequestId = l₂.nextRequestId ∧
      l'.cash = l₂.cash)
    (hfees : l'.totalFeesCollected = l.totalFeesCollected + fee) (hp : Pays es id r n) :
    Closes l l' es id r n fee where
  pending := hr
  removed := by rw [hbook.1, hc.pending, htake.1]
  next := by rw [hbook.2.1, hc.next, htake.2.1]
  fees := hfees
  cash := by rw [hbook.2.2, hc.cash, htake.2.2]
  pays := hp

end Ending

/-! ## The settlement callback -/

section Response
variable {H : Host} {env : Env} {c : Contract} {l l' : Ledger} {es : List Effect} {r : ExecutionRequest}
  {data : RequestData}

/-- The cost of a run never reaches into the storage part. -/
theorem cappedCost_le {payment cost : Nat} {m : ResourceMetrics}
    (h : cappedCost c.toConfig r payment m = .ok cost) :
    cost ≤ payment - inputStorageDeposit r.inputLen := by
  simp only [cappedCost, bind_eq_ok, pure_eq_ok] at h
  obtain ⟨full, -, rfl⟩ := h
  exact Nat.min_le_right _ _

/-- The request as the callback takes it out: removed, and counted. -/
def Ledger.taken (l : Ledger) (id executions : Nat) : Ledger :=
  { l with pendingRequests := l.pendingRequests.erase id, totalExecutions := executions }

theorem settleSuccess_closes {n : Nat} {x : ExecutionResponse}
    (hr : l.pendingRequests.lookup data.requestId = some r)
    (h : settleSuccess H env c (l.taken data.requestId n) r data x = .ok (l', es)) :
    ∃ fee, fee ≤ data.payment - inputStorageDeposit r.inputLen ∧
      Closes l l' es data.requestId r (data.payment - fee) fee := by
  simp only [settleSuccess, bind_eq_ok, add_eq_ok, pure_eq_ok, Prod.mk.injEq] at h
  obtain ⟨cost, hcost, l₂, hl₂, fees, ⟨-, rfl⟩, rfl, rfl⟩ := h
  have hc := settleUsd_credits hl₂
  refine ⟨cost, cappedCost_le hcost, ?_⟩
  refine closes_of_credits hc hr ⟨rfl, rfl, rfl⟩ ⟨rfl, rfl, rfl⟩ ?_ (pays_settle_append ?_)
  · show l₂.totalFeesCollected + cost = _
    rw [hc.fees]
    rfl
  · intro e he
    simp only [List.mem_cons, List.not_mem_nil, or_false] at he
    rcases he with rfl | rfl | rfl <;> trivial

theorem settleFailure_closes {n : Nat} {x : ExecutionResponse}
    (hr : l.pendingRequests.lookup data.requestId = some r)
    (h : settleFailure env c (l.taken data.requestId n) r data x = .ok (l', es)) :
    ∃ fee, fee ≤ data.payment - inputStorageDeposit r.inputLen ∧
      Closes l l' es data.requestId r (data.payment - fee) fee := by
  simp only [settleFailure, bind_eq_ok, add_eq_ok, pure_eq_ok, Prod.mk.injEq] at h
  obtain ⟨cost, hcost, l₂, hl₂, fees, ⟨-, rfl⟩, rfl, rfl⟩ := h
  have hc := returnAttachedUsd_credits hl₂
  refine ⟨cost, cappedCost_le hcost, ?_⟩
  refine closes_of_credits hc hr ⟨rfl, rfl, rfl⟩ ⟨rfl, rfl, rfl⟩ ?_ (pays_settle_append ?_)
  · show l₂.totalFeesCollected + cost = _
    rw [hc.fees]
    rfl
  · intro e he
    simp only [List.mem_cons, List.not_mem_nil, or_false] at he
    rcases he with rfl | rfl | rfl <;> trivial

/-- The timed-out path books the base fee whole, whatever the payment was. -/
theorem settlePromiseError_closes {n : Nat} (hr : l.pendingRequests.lookup data.requestId = some r)
    (h : settlePromiseError c (l.taken data.requestId n) r data = .ok (l', es)) :
    Closes l l' es data.requestId r (data.payment - c.baseFee) c.baseFee := by
  simp only [settlePromiseError, bind_eq_ok, add_eq_ok, pure_eq_ok, Prod.mk.injEq] at h
  obtain ⟨l₂, hl₂, fees, ⟨-, rfl⟩, rfl, rfl⟩ := h
  have hc := returnAttachedUsd_credits hl₂
  refine closes_of_credits hc hr ⟨rfl, rfl, rfl⟩ ⟨rfl, rfl, rfl⟩ ?_ (pays_settle_append ?_)
  · show l₂.totalFeesCollected + c.baseFee = _
    rw [hc.fees]
    rfl
  · intro e he
    simp only [List.mem_cons, List.not_mem_nil, or_false] at he
    rcases he with rfl | rfl <;> trivial

/-- **The settlement callback** does nothing for a request that is gone, and closes one that is pending: at a
    cost that spares the storage part when there is a response, at the base fee when there is none. -/
theorem onExecutionResponse_cases {response : Option ExecutionResponse}
    (h : onExecutionResponse H env c data response = .ok (l', es)) :
    (c.pendingRequests.lookup data.requestId = none ∧ l' = c.toLedger ∧ AllQuiet es) ∨
      ∃ r fee, Closes c.toLedger l' es data.requestId r (data.payment - fee) fee ∧
        (response = none ∧ fee = c.baseFee ∨
          response ≠ none ∧ fee ≤ data.payment - inputStorageDeposit r.inputLen) := by
  unfold onExecutionResponse at h
  cases hr : c.pendingRequests.lookup data.requestId with
  | none =>
      rw [hr] at h
      cases h
      refine Or.inl ⟨rfl, rfl, ?_⟩
      intro e he
      obtain rfl := List.mem_singleton.mp he
      trivial
  | some r =>
      rw [hr] at h
      simp only [bind_eq_ok] at h
      obtain ⟨n, -, h⟩ := h
      right
      cases response with
      | none => exact ⟨r, c.baseFee, settlePromiseError_closes hr h, Or.inl ⟨rfl, rfl⟩⟩
      | some x =>
          dsimp only at h
          split at h
          · obtain ⟨fee, hle, hcl⟩ := settleSuccess_closes hr h
            exact ⟨r, fee, hcl, Or.inr ⟨Option.some_ne_none x, hle⟩⟩
          · obtain ⟨fee, hle, hcl⟩ := settleFailure_closes hr h
            exact ⟨r, fee, hcl, Or.inr ⟨Option.some_ne_none x, hle⟩⟩

/-- The settlement callback runs on a timed-out yield whenever its sums fit. -/
theorem onExecutionResponse_timedOut (hr : c.pendingRequests.lookup data.requestId = some r)
    (hexec : c.totalExecutions + 1 < 2 ^ 64)
    (husd : balance c.userStablecoinBalances r.senderId + r.attachedUsd < 2 ^ 128)
    (hfees : c.totalFeesCollected + c.baseFee < 2 ^ 128) :
    ∃ l' es, onExecutionResponse H env c data none = .ok (l', es) := by
  obtain ⟨l₂, hl₂⟩ : ∃ l₂, returnAttachedUsd (c.toLedger.taken data.requestId (c.totalExecutions + 1))
      r.senderId r.attachedUsd = .ok l₂ := exists_returnAttachedUsd husd
  have hsame : l₂.totalFeesCollected = c.totalFeesCollected := (returnAttachedUsd_credits hl₂).fees
  refine ⟨{ l₂ with totalFeesCollected := c.totalFeesCollected + c.baseFee },
    settle r.payerAccountId (data.payment - c.baseFee) data.requestId
      ++ [.charged c.baseFee, .valueReturn (outputReturnBytes none)], ?_⟩
  simp only [onExecutionResponse, hr, settlePromiseError, bind_eq_ok, add_eq_ok, pure_eq_ok]
  exact ⟨_, ⟨hexec, rfl⟩, l₂, hl₂, _, ⟨by rwa [hsame], rfl⟩, by rw [hsame]⟩

end Response

/-! ## Cancellations -/

section Cancel
variable {env : Env} {c : Contract} {l l' : Ledger} {es : List Effect} {id : Nat}

/-- The sender's cancellation charges at most the payment. -/
theorem cancelStaleExecution_closes (h : cancelStaleExecution env c id = .ok (l', es)) :
    ∃ r charge, staleCharge c.toConfig r = .ok charge ∧
      Closes c.toLedger l' es id r (r.payment - min r.payment charge) (min r.payment charge) := by
  simp only [cancelStaleExecution, bind_eq_ok, expect_eq_ok, require_eq_ok, add_eq_ok, pure_eq_ok,
    Prod.mk.injEq] at h
  obtain ⟨r, hr, _, -, _, -, _, -, charge, hcharge, fees, ⟨-, rfl⟩, l₂, hl₂, rfl, rfl⟩ := h
  have hc := returnAttachedUsd_credits hl₂
  refine ⟨r, charge, hcharge, closes_of_credits hc hr ⟨rfl, rfl, rfl⟩ ⟨rfl, rfl, rfl⟩ hc.fees
    (pays_settle_append ?_)⟩
  intro e he
  obtain rfl := List.mem_singleton.mp he
  trivial

theorem emergencyCancelExecution_closes (h : emergencyCancelExecution env c id = .ok (l', es)) :
    ∃ r, Closes c.toLedger l' es id r r.payment 0 := by
  simp only [emergencyCancelExecution, dropRequest, bind_eq_ok, expect_eq_ok, pure_eq_ok, Prod.mk.injEq] at h
  obtain ⟨_, -, r, hr, l₂, hl₂, rfl, rfl⟩ := h
  have hc := returnAttachedUsd_credits hl₂
  exact ⟨r, closes_of_credits hc hr ⟨rfl, rfl, rfl⟩ ⟨rfl, rfl, rfl⟩ hc.fees (pays_transfer id r r.payment)⟩

/-- What the bulk cancellations have in common. -/
structure Sweeps (l l' : Ledger) (es : List Effect) (lost : Nat) : Prop where
  ends : Ends l l' es (fun _ r => r.payment)
  fees : l'.totalFeesCollected = l.totalFeesCollected
  usd : l'.cash + l'.escrow + lost = l.cash + l.escrow

/-- Stablecoin attached to the pending requests that `ids` names. -/
def Ledger.attachedTo (l : Ledger) (ids : List Nat) : Nat :=
  LookupMap.total (fun id r => if id ∈ ids then r.attachedUsd else 0) l.pendingRequests

theorem attachedTo_nil (l : Ledger) : l.attachedTo [] = 0 := by simp [Ledger.attachedTo]

theorem attachedTo_cons_none {ids : List Nat} (h : l.pendingRequests.lookup id = none) :
    l.attachedTo (id :: ids) = l.attachedTo ids := by
  refine LookupMap.total_congr fun i r hi => ?_
  have hne : i ≠ id := by
    rintro rfl
    rw [h] at hi
    cases hi
  simp [hne]

theorem attachedTo_cons_some {ids : List Nat} {r : ExecutionRequest}
    (h : l.pendingRequests.lookup id = some r) (herase : l'.pendingRequests = l.pendingRequests.erase id) :
    l'.attachedTo ids + r.attachedUsd = l.attachedTo (id :: ids) := by
  have htotal := LookupMap.total_erase
    (fun i (x : ExecutionRequest) => if i ∈ id :: ids then x.attachedUsd else 0) id l.pendingRequests
  rw [h] at htotal
  have hcongr : l'.attachedTo ids = l'.attachedTo (id :: ids) :=
    (attachedTo_cons_none (by rw [herase, AList.lookup_erase])).symm
  rw [hcongr, Ledger.attachedTo, Ledger.attachedTo, herase, ← htotal]
  simp

/-- A request dropped without its stablecoin, then a sweep. -/
theorem Sweeps.cons_lost {r : ExecutionRequest} {n : Nat} (hr : l.pendingRequests.lookup id = some r)
    (h : Sweeps (dropRequest l id r).1 l' es n) :
    Sweeps l l' ((dropRequest l id r).2 ++ es) (n + r.attachedUsd) where
  ends := h.ends.cons hr rfl rfl (pays_transfer id r r.payment)
  fees := h.fees
  usd := by
    have hu := h.usd
    have he : (dropRequest l id r).1.escrow + r.attachedUsd = l.escrow := escrow_erase hr rfl
    have hcash : (dropRequest l id r).1.cash = l.cash := rfl
    omega

/-- A request dropped and its stablecoin returned, then a sweep. -/
theorem Sweeps.cons_returned {r : ExecutionRequest} {l₁ : Ledger} {n : Nat}
    (hr : l.pendingRequests.lookup id = some r)
    (hret : returnAttachedUsd (dropRequest l id r).1 r.senderId r.attachedUsd = .ok l₁)
    (h : Sweeps l₁ l' es n) : Sweeps l l' ((dropRequest l id r).2 ++ es) n := by
  have hc := returnAttachedUsd_credits hret
  refine ⟨h.ends.cons hr hc.next hc.pending (pays_transfer id r r.payment), h.fees.trans hc.fees, ?_⟩
  have hu := h.usd
  have he : l₁.escrow + r.attachedUsd = l.escrow := escrow_erase hr hc.pending
  have hcash : l₁.cash = l.cash + r.attachedUsd := hc.cash
  omega

theorem Sweeps.refl (l : Ledger) : Sweeps l l [] 0 := ⟨Ends.nil l _, rfl, rfl⟩

/-- A log line after a sweep. -/
theorem Sweeps.append_valueReturn {n : Nat} {v : String} (h : Sweeps l l' es n) :
    Sweeps l l' (es ++ [.valueReturn v]) n where
  ends := {
    next := h.ends.next
    kept := h.ends.kept
    paid := fun i r hr hn x => by simpa [settledTo] using h.ends.paid i r hr hn x
    silent := fun i hs x => by simpa [settledTo] using h.ends.silent i hs x
    withdraws := fun tk x m hmem => h.ends.withdraws tk x m (by simpa using hmem)
    yields := fun d gas data hmem => h.ends.yields d gas data (by simpa using hmem) }
  fees := h.fees
  usd := h.usd

/-- **`cancel_pending_requests` drops the stablecoin** of every request it removes. -/
theorem cancelEach_sweeps (l : Ledger) (ids : List Nat) :
    Sweeps l (cancelEach l ids).1 (cancelEach l ids).2 (l.attachedTo ids) := by
  induction ids generalizing l with
  | nil => exact attachedTo_nil l ▸ Sweeps.refl l
  | cons id ids ih =>
      unfold cancelEach
      cases hr : l.pendingRequests.lookup id with
      | none =>
          rw [attachedTo_cons_none hr]
          exact ih l
      | some r =>
          have hlost : (dropRequest l id r).1.attachedTo ids + r.attachedUsd = l.attachedTo (id :: ids) :=
            attachedTo_cons_some hr rfl
          rw [← hlost]
          exact (ih (dropRequest l id r).1).cons_lost hr

/-- The other bulk cancellation returns it. -/
theorem clearEach_sweeps {limit : Nat} {ids : List Nat} (h : clearEach l limit ids = .ok (l', es)) :
    Sweeps l l' es 0 := by
  induction ids generalizing l limit es with
  | nil =>
      cases limit <;> cases h <;> exact Sweeps.refl _
  | cons id ids ih =>
      cases limit with
      | zero =>
          cases h
          exact Sweeps.refl _
      | succ limit =>
          unfold clearEach at h
          cases hr : l.pendingRequests.lookup id with
          | none =>
              rw [hr] at h
              exact ih h
          | some r =>
              rw [hr] at h
              simp only [bind_eq_ok, pure_eq_ok] at h
              obtain ⟨l₁, hl₁, ⟨l₂, rest⟩, hrest, h⟩ := h
              cases h
              exact (ih hrest).cons_returned hr hl₁

theorem cancelPendingRequests_sweeps {ids : List Nat} (h : cancelPendingRequests env c ids = .ok (l', es)) :
    Sweeps c.toLedger l' es (c.toLedger.attachedTo ids) := by
  simp only [cancelPendingRequests, bind_eq_ok, pure_eq_ok] at h
  obtain ⟨_, -, h⟩ := h
  cases h
  exact (cancelEach_sweeps c.toLedger ids).append_valueReturn

theorem clearAllPendingRequests_sweeps {limit : Option Nat}
    (h : clearAllPendingRequests env c limit = .ok (l', es)) : Sweeps c.toLedger l' es 0 := by
  simp only [clearAllPendingRequests, bind_eq_ok, pure_eq_ok] at h
  obtain ⟨_, -, ⟨l₁, rest⟩, hrest, h⟩ := h
  cases h
  exact (clearEach_sweeps hrest).append_valueReturn

end Cancel

end Outlayer
