import Outlayer.Contract.LedgerSteps
import Outlayer.Contract.Replay
import Mathlib.Algebra.BigOperators.Group.List.Basic

/-!
# `Contract.Correctness.Conservation` — stablecoin is accounted for

Every stablecoin accepted is on a user balance, in a developer's earnings, attached to a pending request, in a
withdrawal that has not come back, or withdrawn. Exactly two kinds of step break this: a bulk cancellation of
a request that has stablecoin attached, and a failed withdrawal whose callback cannot restore the earnings.
-/

namespace Outlayer
open Checked Collections Balances Runs

/-! ## What comes in, what goes out, what is held -/

/-- Stablecoin the contract holds for somebody: user balances, developer earnings, what is attached to pending
    requests, and withdrawals whose callback has not run. -/
def World.stablecoin (w : World) : Nat :=
  holdings w.contract.userStablecoinBalances + holdings w.contract.developerEarnings
    + LookupMap.total (fun _ r => r.attachedUsd) w.contract.pendingRequests
    + LookupMap.total (fun _ x => x.amount) w.withdrawals

/-- Stablecoin a step accepted by `DepositBalance`. -/
def Step.depositedUsd (t : Step) : Nat :=
  match t.event with
  | .call _ call => call.depositedUsd
  | _            => 0

/-- Stablecoin of a withdrawal whose transfer succeeded. -/
def Step.withdrawnUsd (t : Step) : Nat :=
  match t.event with
  | .withdrawn receipt true => (t.pre.withdrawals.lookup receipt).elim 0 Withdrawal.amount
  | _                       => 0

/-- The two kinds of step that lose stablecoin, excluded. -/
def Step.KeepsUsd (t : Step) : Prop :=
  match t.event with
  | .call _ (.cancelPendingRequests ids) =>
      ∀ id ∈ ids, ∀ r, t.pre.contract.pendingRequests.lookup id = some r → r.attachedUsd = 0
  | .withdrawn receipt false =>
      ∀ x, t.pre.withdrawals.lookup receipt = some x →
        balance t.pre.contract.developerEarnings x.developer + x.amount < 2 ^ 128
  | _ => True

/-- Stablecoin a step loses. -/
def Step.lostUsd (t : Step) : Nat :=
  match t.event with
  | .call _ call => call.forfeitedUsd t.pre.contract
  | .withdrawn receipt false =>
      (t.pre.withdrawals.lookup receipt).elim 0 fun x =>
        if 2 ^ 128 ≤ balance t.pre.contract.developerEarnings x.developer + x.amount then x.amount else 0
  | _ => 0

/-! ## One step -/

/-- Withdrawals in flight are numbered below the next receipt and are not empty. -/
structure WithdrawalInv (w : World) : Prop where
  fresh : w.ReceiptsFresh
  positive : ∀ n x, w.withdrawals.lookup n = some x → 0 < x.amount

section Step
variable {H : Host} {t : Step}

/-- A call withdraws something or nothing, never zero. -/
theorem ledgerCall_withdrawal {env : Env} {c : Contract} {call : Call} {l' : Ledger} {es : List Effect}
    (h : LedgerCall H env c call l' es) {token a : AccountId} {n : Nat}
    (hmem : Effect.withdrawal token a n ∈ es) : 0 < n := by
  have habs : NoWithdrawal es → 0 < n := fun hno => absurd hmem (hno token a n)
  cases h with
  | idle quiet _ _ => exact habs quiet.noWithdrawal
  | deposit _ quiet => exact habs quiet.noWithdrawal
  | withdraw positive _ =>
      cases List.mem_singleton.mp hmem
      exact positive
  | requested admits => exact habs admits.withdraws
  | submit _ _ _ _ quiet _ _ => exact habs quiet.noWithdrawal
  | stale _ _ _ closes => exact habs closes.pays.withdraws
  | emergency _ closes => exact habs closes.pays.withdraws
  | cancelPending sweeps => exact habs sweeps.ends.withdraws
  | clearAll sweeps => exact habs sweeps.ends.withdraws

/-- What a call does to the stablecoin on the ledger. -/
theorem ledgerCall_usd {env : Env} {c : Contract} {call : Call} {l' : Ledger} {es : List Effect}
    (hfresh : c.pendingRequests.lookup c.nextRequestId = none) (h : LedgerCall H env c call l' es) :
    l'.cash + l'.escrow + withdrawalsIn es + call.forfeitedUsd c
      = c.toLedger.cash + c.toLedger.escrow + call.depositedUsd := by
  cases h with
  | idle quiet deposited forfeited => rw [quiet.noWithdrawal.withdrawalsIn, deposited, forfeited]
  | deposit credits quiet =>
      have hcash := credits.cash
      have hesc : l'.escrow = c.toLedger.escrow := by rw [Ledger.escrow, credits.pending, Ledger.escrow]
      rw [quiet.noWithdrawal.withdrawalsIn, hcash, hesc]
      simp only [Call.forfeitedUsd, Call.depositedUsd]
      omega
  | withdraw _ credits =>
      have hcash := credits.cash
      have hesc : c.toLedger.escrow = l'.escrow := by rw [Ledger.escrow, credits.pending, Ledger.escrow]
      rw [hcash, hesc]
      simp only [withdrawalsIn, Call.forfeitedUsd, Call.depositedUsd]
      omega
  | @requested a _ _ admits =>
      have hcash := admits.cash
      obtain ⟨resolved, hp⟩ := admits.pending
      have hesc := LookupMap.total_insert (fun _ (r : ExecutionRequest) => r.attachedUsd) c.nextRequestId
        (a.toRequest env c.nextRequestId resolved) c.pendingRequests
      -- the id is new, so no other request's stablecoin is written over
      rw [hfresh, ← hp] at hesc
      have hesc' : l'.escrow = c.toLedger.escrow + a.attachedUsd := hesc
      rw [admits.withdraws.withdrawalsIn, hesc', ← hcash]
      simp only [Call.forfeitedUsd, Call.depositedUsd]
      omega
  | submit id r output pending quiet deposited forfeited =>
      have hesc := LookupMap.total_insert (fun _ (x : ExecutionRequest) => x.attachedUsd) id
        (r.delivered output) c.pendingRequests
      rw [pending] at hesc
      have hesc' : LookupMap.total (fun _ (x : ExecutionRequest) => x.attachedUsd)
          (c.pendingRequests.insert id (r.delivered output)) = c.toLedger.escrow :=
        Nat.add_right_cancel hesc
      rw [quiet.noWithdrawal.withdrawalsIn, deposited, forfeited]
      exact congrArg (c.toLedger.cash + ·) hesc'
  | stale r charge charged closes =>
      rw [closes.pays.withdraws.withdrawalsIn, closes.usd]
      rfl
  | emergency r closes =>
      rw [closes.pays.withdraws.withdrawalsIn, closes.usd]
      rfl
  | cancelPending sweeps =>
      rw [sweeps.ends.withdraws.withdrawalsIn]
      exact sweeps.usd
  | clearAll sweeps =>
      rw [sweeps.ends.withdraws.withdrawalsIn]
      exact sweeps.usd

/-- A callback keeps the stablecoin on the ledger. -/
theorem callback_usd {env : Env} {c c' : Contract} {payload : Option YieldPayload} {cb : YieldCallback}
    {es : List Effect} (h : (runCallback H env c payload cb).commit c = .ok (c', es)) :
    c'.toLedger.cash + c'.toLedger.escrow = c.toLedger.cash + c.toLedger.escrow ∧ NoWithdrawal es := by
  rcases callback_ledger h with ⟨hl, hq⟩ | ⟨_, _, _, -, hcl, -⟩
  · exact ⟨by rw [hl], hq.noWithdrawal⟩
  · exact ⟨hcl.usd, hcl.pays.withdraws⟩

theorem stablecoin_eq (w : World) :
    w.stablecoin = w.contract.toLedger.cash + w.contract.toLedger.escrow + w.inFlight := rfl

/-- Withdrawals that have come back leave the rest as it was. -/
theorem withdrawalInv_settled {w : World} {receipt : Nat} {c : Contract} (inv : WithdrawalInv w) :
    WithdrawalInv { w with withdrawals := w.withdrawals.erase receipt, contract := c } := by
  have hold : ∀ {n : Nat} {x : Withdrawal}, (w.withdrawals.erase receipt).lookup n = some x →
      w.withdrawals.lookup n = some x := by
    intro n x h
    obtain ⟨-, h⟩ := LookupMap.lookup_of_erase h
    exact h
  constructor
  · intro n hn
    by_contra hne
    obtain ⟨x, hx⟩ := Option.ne_none_iff_exists'.mp hne
    have hnone := inv.fresh n hn
    rw [hold hx] at hnone
    cases hnone
  · exact fun n x hx => inv.positive n x (hold hx)

theorem withdrawalInv_step (h : Fires (World.next H) t) (inv : WithdrawalInv t.pre) :
    WithdrawalInv t.post := by
  cases step_cases h with
  | call env call event run post =>
      rw [post]
      refine ⟨(after_inFlight inv.fresh _ _).1, fun n x hx => ?_⟩
      rcases after_withdrawal hx with hold | ⟨token, hmem⟩
      · exact inv.positive n x hold
      · exact ledgerCall_withdrawal (exec_ledger run) hmem
  | callback env d delivery y payload event waiting delivered run post =>
      rw [post]
      refine ⟨(after_inFlight (w := t.pre.spend d) inv.fresh _ _).1, fun n x hx => ?_⟩
      rcases after_withdrawal hx with hold | ⟨token, hmem⟩
      · exact inv.positive n x hold
      · exact absurd hmem ((callback_usd run).2 token x.developer x.amount)
  | spent env d delivery event failed out post =>
      rw [post]
      exact ⟨inv.fresh, inv.positive⟩
  | withdrawn receipt transferOk x l event pending run out post =>
      rw [post]
      exact withdrawalInv_settled inv
  | stuck receipt x event pending overflow out post =>
      rw [post]
      exact withdrawalInv_settled inv

/-- A withdrawal that came back is no longer in flight. -/
theorem inFlight_settled {w : World} {receipt : Nat} {x : Withdrawal} {c : Contract}
    (h : w.withdrawals.lookup receipt = some x) :
    World.inFlight { w with withdrawals := w.withdrawals.erase receipt, contract := c } + x.amount
      = w.inFlight := by
  have htotal := LookupMap.total_erase (fun _ (y : Withdrawal) => y.amount) receipt w.withdrawals
  rw [h] at htotal
  exact htotal

/-- **One step.** What is held afterwards, what was withdrawn and what was lost make up what was held before
    and what was deposited. -/
theorem step_usd (h : Fires (World.next H) t) (inv : LedgerInv t.pre) (winv : WithdrawalInv t.pre) :
    t.post.stablecoin + (t.withdrawnUsd + t.lostUsd) = t.pre.stablecoin + t.depositedUsd := by
  rw [stablecoin_eq, stablecoin_eq]
  cases step_cases h with
  | call env call event run post =>
      have husd := ledgerCall_usd (inv.fresh _ (Nat.le_refl _)) (exec_ledger run)
      have hin := (after_inFlight winv.fresh t.post.contract t.out).2
      rw [← post] at hin
      have hw : t.withdrawnUsd = 0 := by rw [Step.withdrawnUsd, event]
      have hl : t.lostUsd = call.forfeitedUsd t.pre.contract := by rw [Step.lostUsd, event]
      have hd : t.depositedUsd = call.depositedUsd := by rw [Step.depositedUsd, event]
      rw [hin, hw, hl, hd]
      omega
  | callback env d delivery y payload event waiting delivered run post =>
      obtain ⟨husd, hno⟩ := callback_usd run
      have hin := (after_inFlight (w := t.pre.spend d) winv.fresh t.post.contract t.out).2
      rw [← post, hno.withdrawalsIn] at hin
      have hspend : (t.pre.spend d).inFlight = t.pre.inFlight := rfl
      have hw : t.withdrawnUsd = 0 := by rw [Step.withdrawnUsd, event]
      have hl : t.lostUsd = 0 := by rw [Step.lostUsd, event]
      have hd : t.depositedUsd = 0 := by rw [Step.depositedUsd, event]
      rw [hin, hspend, hw, hl, hd, husd]
      omega
  | spent env d delivery event failed out post =>
      have hw : t.withdrawnUsd = 0 := by rw [Step.withdrawnUsd, event]
      have hl : t.lostUsd = 0 := by rw [Step.lostUsd, event]
      have hd : t.depositedUsd = 0 := by rw [Step.depositedUsd, event]
      rw [hw, hl, hd, post]
      rfl
  | withdrawn receipt transferOk x l event pending run out post =>
      have hcr := onWithdrawDeveloperEarnings_credits run
      have hin := inFlight_settled (c := { t.pre.contract with toLedger := l }) pending
      rw [← post] at hin
      have hled : t.post.contract.toLedger = l := by rw [post]
      have hesc : l.escrow = t.pre.contract.toLedger.escrow := by
        rw [Ledger.escrow, hcr.pending, Ledger.escrow]
      have hcash := hcr.cash
      have hd : t.depositedUsd = 0 := by rw [Step.depositedUsd, event]
      rw [hled, hesc, hcash, hd]
      cases transferOk with
      | true =>
          have hw : t.withdrawnUsd = x.amount := by
            rw [Step.withdrawnUsd, event]
            simp [pending]
          have hl : t.lostUsd = 0 := by rw [Step.lostUsd, event]
          rw [hw, hl, if_pos rfl]
          omega
      | false =>
          have hw : t.withdrawnUsd = 0 := by rw [Step.withdrawnUsd, event]
          -- the callback went through, so the earnings did not overflow
          have hl : t.lostUsd = 0 := by
            simp only [onWithdrawDeveloperEarnings, Bool.false_eq_true, if_false, bind_eq_ok, credit_eq_ok]
              at run
            obtain ⟨_, ⟨hlt, -⟩, -⟩ := run
            rw [Step.lostUsd, event]
            simp only [pending, Option.elim_some]
            exact if_neg (Nat.not_le.mpr hlt)
          rw [hw, hl, if_neg Bool.false_ne_true]
          omega
  | stuck receipt x event pending overflow out post =>
      -- neither on the ledger nor in flight any more: this amount is lost
      have hin := inFlight_settled (c := t.pre.contract) pending
      have hw : t.withdrawnUsd = 0 := by rw [Step.withdrawnUsd, event]
      have hl : t.lostUsd = x.amount := by
        rw [Step.lostUsd, event]
        simp only [pending, Option.elim_some]
        exact if_pos overflow
      have hd : t.depositedUsd = 0 := by rw [Step.depositedUsd, event]
      have hc : t.post.contract = t.pre.contract := by rw [post]
      have hpost : t.post.inFlight + x.amount = t.pre.inFlight := by
        rw [post]
        exact hin
      rw [hw, hl, hd, hc]
      omega

end Step

/-! ## Whole histories -/

section History
variable {H : Host} {owner : AccountId} {operator : Option AccountId} {standard version : Option String}
  {tr : List Step} {w : World}

theorem moneyInv_deploy (owner : AccountId) (operator : Option AccountId) (standard version : Option String) :
    LedgerInv (World.deploy (Contract.new owner operator standard version)) ∧
      WithdrawalInv (World.deploy (Contract.new owner operator standard version)) := by
  refine ⟨ledgerInv_deploy owner operator standard version, fun _ _ => rfl, ?_⟩
  intro _ _ hx
  cases hx

theorem moneyInv_step {t : Step} (hf : Fires (World.next H) t) (h : LedgerInv t.pre ∧ WithdrawalInv t.pre) :
    LedgerInv t.post ∧ WithdrawalInv t.post :=
  ⟨ledgerInv_step hf h.1, withdrawalInv_step hf h.2⟩

/-- Both invariants hold in every reachable world. -/
theorem moneyInv_history (h : World.History H owner operator standard version tr w) :
    LedgerInv w ∧ WithdrawalInv w :=
  Run.invariant (I := fun w => LedgerInv w ∧ WithdrawalInv w) (moneyInv_deploy owner operator standard version)
    (fun _ => moneyInv_step) h

/-- **The books.** Over any history, what is held, what was withdrawn and what was lost make up what was
    deposited. -/
theorem stablecoin_accounted (h : World.History H owner operator standard version tr w) :
    w.stablecoin + (tr.map fun t => t.withdrawnUsd + t.lostUsd).sum = (tr.map Step.depositedUsd).sum := by
  have hbal := Run.balance (fun w => LedgerInv w ∧ WithdrawalInv w) World.stablecoin Step.depositedUsd
    (fun t : Step => t.withdrawnUsd + t.lostUsd)
    (moneyInv_deploy owner operator standard version) (fun _ => moneyInv_step)
    (fun _ hf hi => step_usd hf hi.1 hi.2) h
  have hzero : (World.deploy (Contract.new owner operator standard version)).stablecoin = 0 := rfl
  rwa [hzero, Nat.zero_add] at hbal

/-- Nothing is attached to the named requests exactly when each of them has nothing attached. -/
theorem attachedTo_eq_zero {l : Ledger} {ids : List Nat} :
    l.attachedTo ids = 0 ↔ ∀ id ∈ ids, ∀ r, l.pendingRequests.lookup id = some r → r.attachedUsd = 0 := by
  constructor
  · intro h id hid r hr
    -- the sum is zero, so each of its terms is
    have hle := LookupMap.le_total (f := fun i (x : ExecutionRequest) => if i ∈ ids then x.attachedUsd else 0) hr
    rw [if_pos hid] at hle
    exact Nat.le_zero.mp (h ▸ hle)
  · intro h
    rw [← LookupMap.total_zero l.pendingRequests]
    refine LookupMap.total_congr fun id r hr => ?_
    split
    · next hid => exact h id hid r hr
    · rfl

/-- A step loses nothing exactly when it is of neither kind. -/
theorem lostUsd_eq_zero {t : Step} (winv : WithdrawalInv t.pre) : t.lostUsd = 0 ↔ t.KeepsUsd := by
  unfold Step.lostUsd Step.KeepsUsd
  cases t.event with
  | call env call =>
      cases call with
      | cancelPendingRequests ids => exact attachedTo_eq_zero
      | _ => simp [Call.forfeitedUsd]
  | yielded env d delivery => simp
  | withdrawn receipt transferOk =>
      cases transferOk with
      | true => simp
      | false =>
          cases hx : t.pre.withdrawals.lookup receipt with
          | none => simp [hx]
          | some x =>
              have hpos := winv.positive receipt x hx
              simp only [hx, Option.elim_some, Option.some.injEq, forall_eq']
              split <;> omega

/-- **Stablecoin conservation**, and exactly when it holds: after a history, what the contract holds for its
    users and what was withdrawn add up to what was deposited if and only if no step of the history cancelled
    in bulk a request with stablecoin attached, and no failed withdrawal met earnings too large to restore. -/
theorem stablecoin_conserved_iff (h : World.History H owner operator standard version tr w) :
    w.stablecoin + (tr.map Step.withdrawnUsd).sum = (tr.map Step.depositedUsd).sum ↔
      ∀ t ∈ tr, t.KeepsUsd := by
  have hbooks := stablecoin_accounted h
  rw [List.sum_map_add] at hbooks
  have hkeeps : ∀ t ∈ tr, t.lostUsd = 0 ↔ t.KeepsUsd := by
    intro t ht
    obtain ⟨_, hrun, -⟩ := h.fired ht
    exact lostUsd_eq_zero (moneyInv_history hrun).2
  have hsum : (tr.map Step.lostUsd).sum = 0 ↔ ∀ t ∈ tr, t.KeepsUsd := by
    rw [List.sum_eq_zero_iff_forall_eq_nat]
    constructor
    · intro hz t ht
      exact (hkeeps t ht).mp (hz _ (List.mem_map_of_mem ht))
    · intro hk n hn
      obtain ⟨t, ht, rfl⟩ := List.mem_map.mp hn
      exact (hkeeps t ht).mpr (hk t ht)
  rw [← hsum]
  omega

end History

/-- The emergency cancellation returns the stablecoin, and the books balance. -/
theorem stablecoin_conserved_by_emergency : ∃ tr w,
    World.History asciiHost ownerAccount none none none tr w ∧ w.stablecoin = 5 ∧
      w.contract.pendingRequests = ∅ ∧ ∀ t ∈ tr, t.KeepsUsd := by
  obtain ⟨tr, w, h, hp⟩ := exists_history
    (attachedRun [callBy ownerAccount (.emergencyCancelExecution 0)])
    (fun r => decide (r.2.stablecoin = 5 ∧ r.2.contract.pendingRequests.entries = [] ∧
      r.2.stablecoin + (r.1.map Step.withdrawnUsd).sum = (r.1.map Step.depositedUsd).sum))
    (by decide +kernel)
  obtain ⟨hfive, hempty, hbooks⟩ := of_decide_eq_true hp
  exact ⟨tr, w, h, hfive, AList.ext hempty, (stablecoin_conserved_iff h).mp hbooks⟩

/-- The bulk cancellation of the same request does not: five units were accepted and no row holds them. -/
theorem stablecoin_lost_by_cancel_pending : ∃ tr w,
    World.History asciiHost ownerAccount none none none tr w ∧ (tr.map Step.depositedUsd).sum = 5 ∧
      w.stablecoin + (tr.map Step.withdrawnUsd).sum = 0 := by
  obtain ⟨tr, w, h, hp⟩ := exists_history
    (attachedRun [callBy ownerAccount (.cancelPendingRequests [0])])
    (fun r => decide ((r.1.map Step.depositedUsd).sum = 5 ∧
      r.2.stablecoin + (r.1.map Step.withdrawnUsd).sum = 0))
    (by decide +kernel)
  exact ⟨tr, w, h, of_decide_eq_true hp⟩

end Outlayer
