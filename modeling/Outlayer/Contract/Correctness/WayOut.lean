import Outlayer.Contract.Correctness.Payout

/-!
# `Contract.Correctness.WayOut` — the sender's own cancellation

A sender whose request went stale cancels it without anybody's help. The cancellation can fail only in its
checked arithmetic, and with prices and balances of a realistic size only the estimate for the stored limits
can overflow. Admission bounds the limits of a run; it does not bound those of a compilation.
-/

namespace Outlayer
open Checked Collections Balances Runs

/-- Prices and balances on the path of a cancellation are below 2^100. -/
structure Realistic (c : Contract) (r : ExecutionRequest) : Prop where
  baseFee : c.baseFee < 2 ^ 100
  perMillion : c.perMillionInstructionsFee < 2 ^ 100
  perMs : c.perMsFee < 2 ^ 100
  fees : c.totalFeesCollected < 2 ^ 100
  balance : balance c.userStablecoinBalances r.senderId < 2 ^ 100
  attached : r.attachedUsd < 2 ^ 100
  payment : r.payment < 2 ^ 100

/-- The estimate for these limits fits: the time in milliseconds into 64 bits, the two products and the sum
    into 128. -/
def LimitsFit (c : Config) (limits : ResourceLimits) : Prop :=
  let instructions := limits.maxInstructions.getD 1000000000 / 1000000
  let timeMs := limits.maxExecutionSeconds.getD 60 * 1000
  timeMs < 2 ^ 64 ∧
    c.baseFee + instructions * c.perMillionInstructionsFee + timeMs * c.perMsFee < 2 ^ 128

/-! ## The estimate -/

theorem estimateCost_ok_iff {c : Config} {limits : ResourceLimits} :
    (∃ cost, estimateCost c limits = .ok cost) ↔ LimitsFit c limits := by
  simp only [estimateCost, bind_eq_ok, mul_eq_ok, add_eq_ok]
  constructor
  · rintro ⟨_, _, ⟨htime, rfl⟩, _, ⟨-, rfl⟩, _, ⟨-, rfl⟩, _, ⟨-, rfl⟩, hsum, rfl⟩
    exact ⟨htime, hsum⟩
  · rintro ⟨htime, hsum⟩
    exact ⟨_, _, ⟨htime, rfl⟩, _, ⟨by omega, rfl⟩, _, ⟨by omega, rfl⟩, _, ⟨by omega, rfl⟩, hsum, rfl⟩

/-- Limits within the hard caps fit at any realistic price. -/
theorem limitsFit_of_caps {c : Config} {limits : ResourceLimits} (hcaps : assertHardCaps limits = .ok ())
    (hbase : c.baseFee < 2 ^ 100) (hmillion : c.perMillionInstructionsFee < 2 ^ 100)
    (hms : c.perMsFee < 2 ^ 100) : LimitsFit c limits := by
  simp only [assertHardCaps, bind_eq_ok, require_eq_ok] at hcaps
  obtain ⟨_, hinstr, _, hsec, -⟩ := hcaps
  unfold maxInstructions at hinstr
  unfold maxExecutionSeconds at hsec
  have hi : limits.maxInstructions.getD 1000000000 / 1000000 ≤ 500000 := by
    cases hl : limits.maxInstructions with
    | none => simp
    | some n =>
        rw [hl, Option.getD_some] at hinstr
        rw [Option.getD_some]
        omega
  have ht : limits.maxExecutionSeconds.getD 60 * 1000 ≤ 180000 := by
    cases hl : limits.maxExecutionSeconds with
    | none => simp
    | some n =>
        rw [hl, Option.getD_some] at hsec
        rw [Option.getD_some]
        omega
  have hmi := Nat.mul_le_mul_right c.perMillionInstructionsFee hi
  have hmt := Nat.mul_le_mul_right c.perMsFee ht
  refine ⟨by omega, ?_⟩
  omega

/-! ## The cancellation -/

section Cancel
variable {H : Host} {env : Env} {c : Contract} {id : Nat} {r : ExecutionRequest}

theorem staleCharge_ok_iff :
    (∃ charge, staleCharge c.toConfig r = .ok charge) ↔
      (r.outputSubmitted = true → LimitsFit c.toConfig r.resourceLimits) := by
  unfold staleCharge
  split
  · next hsub =>
      rw [estimateCost_ok_iff]
      exact ⟨fun h _ => h, fun h => h hsub⟩
  · next hsub =>
      simp only [pure_eq_ok, exists_eq']
      exact iff_of_true trivial fun h => absurd h hsub

/-- **When a stale request can be cancelled.** -/
theorem cancelStaleExecution_ok_iff (hr : c.pendingRequests.lookup id = some r)
    (hwho : env.predecessor = r.senderId) (htime : r.timestamp + executionTimeout < env.blockTimestamp)
    (hreal : Realistic c r) :
    (∃ l es, cancelStaleExecution env c id = .ok (l, es)) ↔
      (r.outputSubmitted = true → LimitsFit c.toConfig r.resourceLimits) := by
  rw [← staleCharge_ok_iff]
  constructor
  · rintro ⟨l, es, h⟩
    obtain ⟨r', charge, hcharge, hcl⟩ := cancelStaleExecution_closes h
    obtain rfl : r' = r := Option.some.inj (hcl.pending.symm.trans hr)
    exact ⟨charge, hcharge⟩
  · rintro ⟨charge, hcharge⟩
    have hstamp := env.blockTimestamp_lt
    have hkept : min r.payment charge ≤ r.payment := Nat.min_le_left _ _
    have hpay := hreal.payment
    have hfees := hreal.fees
    have hbal := hreal.balance
    have hatt := hreal.attached
    let l₁ : Ledger := { c.toLedger with
      pendingRequests := c.pendingRequests.erase id
      totalFeesCollected := c.totalFeesCollected + min r.payment charge }
    -- no sum on the way overflows, so only the charge can fail
    obtain ⟨l₂, hl₂⟩ : ∃ l₂, returnAttachedUsd l₁ r.senderId r.attachedUsd = .ok l₂ :=
      exists_returnAttachedUsd (show balance c.userStablecoinBalances r.senderId + _ < _ by omega)
    refine ⟨l₂, settle r.payerAccountId (r.payment - min r.payment charge) id
      ++ [.charged (min r.payment charge)], ?_⟩
    simp only [cancelStaleExecution, bind_eq_ok, expect_eq_ok, require_eq_ok, add_eq_ok, pure_eq_ok]
    exact ⟨r, hr, (), hwho, _, ⟨by omega, rfl⟩, (), htime, charge, hcharge, _, ⟨by omega, rfl⟩, l₂, hl₂, rfl⟩

theorem exec_cancelStale_iff (hdeposit : env.attachedDeposit = 0) :
    (∃ c' es, exec H env c (.cancelStaleExecution id) = .ok (c', es)) ↔
      ∃ l es, cancelStaleExecution env c id = .ok (l, es) := by
  constructor
  · rintro ⟨c', es, h⟩
    obtain ⟨l, hl, -⟩ := commit_ledger (exec_commit h).2
    exact ⟨l, es, hl⟩
  · rintro ⟨l, es, h⟩
    refine ⟨{ c with toLedger := l }, es, ?_⟩
    simp only [exec, runCall, h, PartRun.commit, bind_eq_ok, require_eq_ok]
    exact ⟨(), Or.inr hdeposit, _, rfl, rfl⟩

end Cancel

/-! ## Over a history -/

section History
variable {H : Host} {owner : AccountId} {operator : Option AccountId} {standard version : Option String}
  {tr₁ tr₂ : List Step} {ta : Step} {w : World} {a : RequestArgs} {env : Env} {r : ExecutionRequest}

/-- A step of `request_execution` is an admission. -/
theorem admits_of_request (hf : Fires (World.next H) ta) (ha : ta.event.request = some a) :
    ∃ env, Admits H env ta.pre.contract a ta.post.contract.toLedger ta.out := by
  cases step_cases hf with
  | call env call event run post =>
      rw [event] at ha
      cases call with
      | requestExecution _ =>
          cases ha
          obtain ⟨l, hl, hc⟩ := commit_ledger (exec_commit run).2
          rw [hc]
          exact ⟨_, requestExecution_admits hl⟩
      | _ => cases ha
  | callback _ _ _ _ _ event _ _ _ _ =>
      rw [event] at ha
      cases ha
  | spent _ _ _ event _ _ _ =>
      rw [event] at ha
      cases ha
  | withdrawn _ _ _ _ event _ _ _ _ =>
      rw [event] at ha
      cases ha
  | stuck _ _ event _ _ _ _ =>
      rw [event] at ha
      cases ha

/-- A request still pending has the limits it was admitted with, and those of a run are within the caps. -/
theorem pending_limits (h : World.History H owner operator standard version (tr₁ ++ ta :: tr₂) w)
    (ha : ta.event.request = some a) (hr : w.request ta.pre.contract.nextRequestId = some r) :
    r.resourceLimits = a.limits ∧ (a.compileOnly = false → assertHardCaps a.limits = .ok ()) := by
  obtain ⟨hrun₁, hf, hrun₂⟩ := h.at_split
  obtain ⟨env₀, hadm⟩ := admits_of_request hf ha
  obtain ⟨resolved, hp⟩ := hadm.pending
  have hlt : ta.pre.contract.nextRequestId < ta.post.contract.nextRequestId := by
    have := hadm.next
    omega
  obtain ⟨r₀, hr₀, hsame⟩ := request_run hrun₂ hlt hr
  rw [World.request, hp, AList.lookup_insert] at hr₀
  cases hr₀
  constructor
  · rcases hsame with rfl | ⟨_, rfl⟩
    · rfl
    · rfl
  · intro hmode
    obtain ⟨cost, hcost, -⟩ := hadm.cost
    rw [admissionCost, if_neg (by simp [hmode])] at hcost
    simp only [bind_eq_ok] at hcost
    obtain ⟨_, hcaps, -⟩ := hcost
    exact hcaps

/-- **The sender's way out.** A pending request admitted with arguments `a` can be cancelled by its sender once
    it is stale, at realistic prices and balances, in every reachable world, if and only if it is not a
    compilation with its output submitted whose limits are too large to price. -/
theorem sender_way_out_iff (h : World.History H owner operator standard version (tr₁ ++ ta :: tr₂) w)
    (ha : ta.event.request = some a) (hr : w.request ta.pre.contract.nextRequestId = some r)
    (hwho : env.predecessor = r.senderId) (hdeposit : env.attachedDeposit = 0)
    (htime : r.timestamp + executionTimeout < env.blockTimestamp) (hreal : Realistic w.contract r) :
    (∃ c' es, exec H env w.contract (.cancelStaleExecution ta.pre.contract.nextRequestId) = .ok (c', es)) ↔
      (a.compileOnly = true → r.outputSubmitted = true → LimitsFit w.contract.toConfig a.limits) := by
  obtain ⟨hlimits, hcaps⟩ := pending_limits h ha hr
  rw [exec_cancelStale_iff hdeposit, cancelStaleExecution_ok_iff hr hwho htime hreal, hlimits]
  constructor
  · exact fun hfit _ => hfit
  · intro hfit hsub
    cases hmode : a.compileOnly with
    | true => exact hfit hmode hsub
    -- a run was admitted within the caps, a compilation was not checked against them
    | false => exact limitsFit_of_caps (hcaps hmode) hreal.baseFee hreal.perMillion hreal.perMs

end History

/-- Bob's request is admitted and its output submitted. -/
def submittedRun (limits : ResourceLimits) (compileOnly : Bool) : List Event :=
  [callBy bobAccount (.requestExecution
      { source := .gitHub "alice/app" "main" none, resourceLimits := some limits, params := some { compileOnly } })
      (10 ^ 24) 0 1,
   callBy ownerAccount (.submitExecutionOutput 0 (.text "done"))]

/-- Bob, an hour later. -/
def hourLater : Env := envOf bobAccount 0 3600000000000 2

/-- Everything asked of a stale request and of the call that cancels it. -/
def Cancellable (w : World) (env : Env) (id : Nat) (r : ExecutionRequest) : Prop :=
  w.request id = some r ∧ env.predecessor = r.senderId ∧ env.attachedDeposit = 0 ∧
    r.timestamp + executionTimeout < env.blockTimestamp ∧ r.outputSubmitted = true ∧
    w.contract.baseFee < 2 ^ 100 ∧ w.contract.perMillionInstructionsFee < 2 ^ 100 ∧
    w.contract.perMsFee < 2 ^ 100 ∧ w.contract.totalFeesCollected < 2 ^ 100 ∧
    balance w.contract.userStablecoinBalances r.senderId < 2 ^ 100 ∧ r.attachedUsd < 2 ^ 100 ∧
    r.payment < 2 ^ 100

instance (w : World) (env : Env) (id : Nat) (r : ExecutionRequest) : Decidable (Cancellable w env id r) :=
  inferInstanceAs (Decidable (_ ∧ _ ∧ _ ∧ _ ∧ _ ∧ _ ∧ _ ∧ _ ∧ _ ∧ _ ∧ _ ∧ _))

/-- A run with its output submitted can be cancelled. -/
theorem run_way_out : ∃ tr w r, World.History asciiHost ownerAccount none none none tr w ∧
    Cancellable w hourLater 0 r ∧
    ∃ c' es, exec asciiHost hourLater w.contract (.cancelStaleExecution 0) = .ok (c', es) := by
  obtain ⟨tr, w, h, hp⟩ := exists_history (submittedRun .default false)
    (fun x => decide (∃ ta ∈ x.1.head?, ∃ a ∈ ta.event.request, ∃ r ∈ x.2.request 0,
      ta.pre.contract.nextRequestId = 0 ∧ a.compileOnly = false ∧ Cancellable x.2 hourLater 0 r))
    (by decide +kernel)
  obtain ⟨ta, hta, a, ha, r, -, hid, hmode, hcan⟩ := of_decide_eq_true hp
  obtain ⟨rest, rfl⟩ := List.head?_eq_some_iff.mp hta
  refine ⟨_, w, r, h, hcan, ?_⟩
  obtain ⟨hr, hwho, hdeposit, htime, -, hreal⟩ := hcan
  have hstart : World.History asciiHost ownerAccount none none none ([] ++ ta :: rest) w := h
  rw [← hid] at hr
  have hout := sender_way_out_iff hstart ha hr hwho hdeposit htime
    ⟨hreal.1, hreal.2.1, hreal.2.2.1, hreal.2.2.2.1, hreal.2.2.2.2.1, hreal.2.2.2.2.2.1, hreal.2.2.2.2.2.2⟩
  rw [hid] at hout
  exact hout.mpr fun hcompile => absurd (hcompile.symm.trans hmode) (by decide)

/-- A compilation with the largest time limit cannot: its limit in milliseconds does not fit into 64 bits. -/
theorem compilation_no_way_out : ∃ tr w r, World.History asciiHost ownerAccount none none none tr w ∧
    Cancellable w hourLater 0 r ∧
    ¬ ∃ c' es, exec asciiHost hourLater w.contract (.cancelStaleExecution 0) = .ok (c', es) := by
  obtain ⟨tr, w, h, hp⟩ := exists_history (submittedRun ⟨none, none, some (2 ^ 64 - 1)⟩ true)
    (fun x => decide (∃ r ∈ x.2.request 0, Cancellable x.2 hourLater 0 r ∧
      (exec asciiHost hourLater x.2.contract (.cancelStaleExecution 0)).isOk = false)) (by decide +kernel)
  obtain ⟨r, -, hcan, hfail⟩ := of_decide_eq_true hp
  refine ⟨tr, w, r, h, hcan, ?_⟩
  rintro ⟨c', es, hok⟩
  rw [hok] at hfail
  cases hfail

end Outlayer
