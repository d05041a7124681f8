import Outlayer.Contract.Correctness.Payout
import Outlayer.Worker.NearClient

/-!
# `Worker.Correctness.Charges` — the cost a worker reports, and the cost the contract charges

A resolution logs what the run cost, and the worker reads it from there. The charge is booked later, by the callback
of the request, which caps it at what was attached for compute. The two are the same number exactly when the cap is
not reached (`reported_is_charged_iff`): a compilation that costs more than was attached is reported at its full cost
and charged at what was attached (`reported_above_charge`).
-/

namespace Outlayer
open Text Checked Collections Runs

namespace Worker

/-! ## Prices -/

/-- The prices a run is charged by are the same. -/
structure SamePrices (c c' : Config) : Prop where
  baseFee : c.baseFee = c'.baseFee
  perMillionInstructionsFee : c.perMillionInstructionsFee = c'.perMillionInstructionsFee
  perMsFee : c.perMsFee = c'.perMsFee
  perCompileMsFee : c.perCompileMsFee = c'.perCompileMsFee

theorem SamePrices.calculateCost {c c' : Config} (h : SamePrices c c') (m : ResourceMetrics) :
    Outlayer.calculateCost c m = Outlayer.calculateCost c' m := by
  simp only [Outlayer.calculateCost, h.baseFee, h.perMillionInstructionsFee, h.perMsFee, h.perCompileMsFee]

/-! ## The charge -/

section Charge
variable {H : Host} {env : Env} {c : Contract} {l' : Ledger} {es : List Effect} {r : ExecutionRequest}
  {data : RequestData} {x : ExecutionResponse}

theorem cappedCost_ok {cost payment : Nat} {m : ResourceMetrics}
    (h : cappedCost c.toConfig r payment m = .ok cost) :
    ∃ full, calculateCost c.toConfig m = .ok full ∧ cost = min full (payment - inputStorageDeposit r.inputLen) := by
  simp only [cappedCost, bind_eq_ok, pure_eq_ok] at h
  obtain ⟨full, hfull, rfl⟩ := h
  exact ⟨full, hfull, rfl⟩

/-- **What the callback books** for a response: the cost of the run, up to what was attached for compute. -/
theorem onExecutionResponse_fees (hr : c.pendingRequests.lookup data.requestId = some r)
    (h : onExecutionResponse H env c data (some x) = .ok (l', es)) :
    ∃ full, calculateCost c.toConfig x.resourcesUsed = .ok full ∧
      l'.totalFeesCollected
        = c.totalFeesCollected + min full (data.payment - inputStorageDeposit r.inputLen) := by
  unfold onExecutionResponse at h
  rw [hr] at h
  obtain ⟨n, -, h⟩ := bind_eq_ok.mp h
  dsimp only at h
  split at h
  · simp only [settleSuccess, bind_eq_ok, add_eq_ok, pure_eq_ok, Prod.mk.injEq] at h
    obtain ⟨cost, hcost, l₂, hl₂, fees, ⟨-, rfl⟩, rfl, -⟩ := h
    obtain ⟨full, hfull, rfl⟩ := cappedCost_ok hcost
    refine ⟨full, hfull, ?_⟩
    show l₂.totalFeesCollected + _ = _
    rw [(settleUsd_credits hl₂).fees]
  · simp only [settleFailure, bind_eq_ok, add_eq_ok, pure_eq_ok, Prod.mk.injEq] at h
    obtain ⟨cost, hcost, l₂, hl₂, fees, ⟨-, rfl⟩, rfl, -⟩ := h
    obtain ⟨full, hfull, rfl⟩ := cappedCost_ok hcost
    refine ⟨full, hfull, ?_⟩
    show l₂.totalFeesCollected + _ = _
    rw [(returnAttachedUsd_credits hl₂).fees]

end Charge

/-! ## From the report to the charge -/

/-- `t₁` is a call that resolves a pending request with the response `x`; in `t₂` the callback of the request settles
    it with that response, at the same prices. -/
structure SettledWith (t₁ t₂ : Step) (call : Call) (id : Nat) (request : ExecutionRequest) (x : ExecutionResponse) :
    Prop where
  called : ∃ env, t₁.event = .call env call
  resolution : call.resolution = some (id, x)
  pending : t₁.pre.request id = some request
  delivered : ∃ env, t₂.event = .yielded env request.dataId .resumed
  answered : ∃ data, t₂.pre.yields.lookup request.dataId
    = some ⟨.onExecutionResponse data, some (.executionResponse x)⟩
  settles : t₂.Settles id
  prices : SamePrices t₁.pre.contract.toConfig t₂.pre.contract.toConfig

section Settled
variable {H : Host} {owner : AccountId} {operator : Option AccountId} {standard version : Option String}
  {tr₁ tr₂ : List Step} {t₁ t₂ : Step} {w : World} {call : Call} {id : Nat} {request : ExecutionRequest}
  {x : ExecutionResponse}

/-- What a callback with a response books, on the terms the request has when it runs. -/
theorem responded_fees (hf : Fires (World.next H) t₂) (inv : LedgerInv t₂.pre) {env : Env} {d : CryptoHash}
    {data : RequestData} (event : t₂.event = .yielded env d .resumed)
    (waiting : t₂.pre.yields.lookup d = some ⟨.onExecutionResponse data, some (.executionResponse x)⟩)
    (settles : t₂.Settles id) :
    ∃ r full, t₂.pre.request id = some r ∧ calculateCost t₂.pre.contract.toConfig x.resourcesUsed = .ok full ∧
      t₂.post.contract.totalFeesCollected = t₂.pre.contract.totalFeesCollected
        + min full (r.payment - inputStorageDeposit r.inputLen) := by
  obtain ⟨r, hr⟩ := Option.ne_none_iff_exists'.mp settles.1
  have hgone : t₂.post.contract.pendingRequests.lookup id = none := settles.2
  cases step_cases hf with
  | call _ _ event' _ _ => cases event.symm.trans event'
  | callback env' d' delivery' y payload event' waiting' delivered run post =>
      cases event.symm.trans event'
      cases waiting.symm.trans waiting'
      rcases delivered with ⟨hno, -⟩ | ⟨-, rfl, -⟩
      · cases hno
      · obtain ⟨l', hrun, hpost⟩ := commit_ledger run
        rw [hpost] at hgone ⊢
        obtain ⟨response, hresponse, hrun⟩ := bind_eq_ok.mp hrun
        obtain rfl : some x = response := Except.ok.inj hresponse
        rcases onExecutionResponse_cases hrun with ⟨-, rfl, -⟩ | ⟨r', fee, closes, -⟩
        · exact absurd hgone settles.1
        · -- the request it closes is the one that is gone
          obtain ⟨rfl, rfl, -⟩ := closes.settled hr hgone
          obtain ⟨full, hfull, hfees⟩ := onExecutionResponse_fees hr hrun
          have hpaid := (inv.yields d _ data waiting rfl).2 r' hr
          exact ⟨r', full, hr, hfull, by rw [hpaid]; exact hfees⟩
  | spent env' d' delivery' event' failed out post =>
      rw [show t₂.post.contract = t₂.pre.contract by rw [post]; rfl] at hgone
      exact absurd hgone settles.1
  | withdrawn _ _ _ _ event' _ _ _ _ => cases event.symm.trans event'
  | stuck _ _ event' _ _ _ _ => cases event.symm.trans event'

/-- **The reported cost is the charged cost exactly when it is within what was attached for compute.** -/
theorem reported_is_charged_iff (h : World.History H owner operator standard version (tr₁ ++ t₁ :: (tr₂ ++ [t₂])) w)
    (settled : SettledWith t₁ t₂ call id request x) {cost : Nat}
    (costs : calculateCost t₁.pre.contract.toConfig x.resourcesUsed = .ok cost) {logs : List String}
    (logged : call.resolutionLogs t₁.pre.contract.toConfig request = .ok logs) {outcome : FinalExecutionOutcomeView}
    (committed : outcome.committedLogs = logs) :
    t₂.post.contract.totalFeesCollected
        = t₂.pre.contract.totalFeesCollected + extractPaymentFromLogs H outcome ↔
      cost ≤ request.payment - inputStorageDeposit request.inputLen := by
  obtain ⟨hrun₁, hf₁, hrun₂⟩ := h.at_split
  obtain ⟨hrun₂, hf₂, -⟩ := hrun₂.at_split
  have hinv₁ := ledgerInv_history hrun₁
  have hinv₂ : LedgerInv t₂.pre :=
    hrun₂.invariant (ledgerInv_step hf₁ hinv₁) (fun _ hf hi => ledgerInv_step hf hi)
  obtain ⟨env, delivered⟩ := settled.delivered
  obtain ⟨data, answered⟩ := settled.answered
  obtain ⟨r, full, hr, hfull, hfees⟩ := responded_fees hf₂ hinv₂ delivered answered settled.settles
  obtain rfl : full = cost := by
    rw [← settled.prices.calculateCost, costs] at hfull
    exact (Except.ok.inj hfull).symm
  -- the request has kept its terms since it was resolved
  have hlt := hinv₁.lt_next settled.pending
  obtain ⟨r₁, hr₁, hsame⟩ := request_run (Run.append (.step .start hf₁) hrun₂) hlt hr
  obtain rfl : r₁ = request := Option.some.inj (hr₁.symm.trans settled.pending)
  obtain ⟨hpayment, -, hlen⟩ := hsame.facts
  rw [extract_resolution settled.resolution costs logged committed, hfees, hpayment, hlen]
  omega

end Settled

/-! ## A compilation, within and above what was attached

`bobAccount` asks for a compilation and attaches the base fee. -/

/-- The response of a compilation. -/
def compiledIn (compileTimeMs : Option Nat) : ExecutionResponse where
  success := true
  output := none
  error := none
  resourcesUsed := { instructions := 0, timeMs := 0, compileTimeMs }
  compilationNote := none
  refundUsd := none

/-- The request, and its resolution by the operator, who is the owner. -/
def compiledRun (compileTimeMs : Option Nat) : List Event :=
  [callBy bobAccount (.requestExecution { source := .gitHub "alice/app" "main" none }) (10 ^ 21) 0 1,
   callBy ownerAccount (.resolveExecution 0 (compiledIn compileTimeMs)),
   .yielded (envOf ownerAccount 0 0 0) (Vector.replicate 32 1) .resumed]

/-- The outcome of the operator's transaction, with the logs of the resolution. -/
def resolvedOutcome (logs : List String) : FinalExecutionOutcomeView where
  receiverId := ownerAccount
  receiptsOutcome := [{ executorId := ownerAccount, status := .successValue, logs }]

theorem committedLogs_resolvedOutcome (logs : List String) : (resolvedOutcome logs).committedLogs = logs := by
  simp [FinalExecutionOutcomeView.committedLogs, resolvedOutcome, ExecutionStatusView.committed]

/-- The test of a run of three steps: the last two are the resolution of request 0 with the response, and its
    settlement. -/
def isSettledWith (x : ExecutionResponse) (t₁ t₂ : Step) : Bool :=
  match t₁.event, t₂.event, t₁.pre.request 0 with
  | .call _ (.resolveExecution 0 x'), .yielded _ d .resumed, some request =>
      match t₂.pre.yields.lookup d with
      | some ⟨.onExecutionResponse _, some (.executionResponse x'')⟩ =>
          decide (x' = x ∧ x'' = x ∧ d = request.dataId ∧ t₂.Settles 0
            ∧ t₁.pre.contract.baseFee = t₂.pre.contract.baseFee
            ∧ t₁.pre.contract.perMillionInstructionsFee = t₂.pre.contract.perMillionInstructionsFee
            ∧ t₁.pre.contract.perMsFee = t₂.pre.contract.perMsFee
            ∧ t₁.pre.contract.perCompileMsFee = t₂.pre.contract.perCompileMsFee)
      | _ => false
  | _, _, _ => false

theorem settledWith_of_isSettledWith {x : ExecutionResponse} {t₁ t₂ : Step} (h : isSettledWith x t₁ t₂ = true) :
    ∃ request, SettledWith t₁ t₂ (.resolveExecution 0 x) 0 request x := by
  unfold isSettledWith at h
  split at h
  · next env x' env' d request called delivered pending =>
      split at h
      · next data x'' answered =>
          obtain ⟨rfl, rfl, rfl, settles, hbase, hinstructions, hms, hcompile⟩ := of_decide_eq_true h
          exact ⟨request, ⟨env, called⟩, rfl, pending, ⟨env', delivered⟩, ⟨data, answered⟩, settles,
            ⟨hbase, hinstructions, hms, hcompile⟩⟩
      · cases h
  · cases h

/-- A compilation is resolved and settled, with something asked of the run besides. -/
theorem exists_compiled (compileTimeMs : Option Nat) (p : Step → Step → Bool)
    (h : (World.replay (compiledRun compileTimeMs)).any (fun r => ofThree (fun _ t₁ t₂ =>
      isSettledWith (compiledIn compileTimeMs) t₁ t₂ && p t₁ t₂) r.1) = true) :
    ∃ t₀ t₁ t₂ w request, World.History asciiHost ownerAccount none none none ([t₀] ++ t₁ :: ([] ++ [t₂])) w ∧
      SettledWith t₁ t₂ (.resolveExecution 0 (compiledIn compileTimeMs)) 0 request (compiledIn compileTimeMs) ∧
      p t₁ t₂ = true := by
  obtain ⟨tr, w, hrun, hp⟩ := exists_history (compiledRun compileTimeMs) _ h
  obtain ⟨t₀, t₁, t₂, rfl, ht⟩ := exists_of_ofThree hp
  obtain ⟨hsettled, hp⟩ := (Bool.and_eq_true _ _).mp ht
  obtain ⟨request, hsettled⟩ := settledWith_of_isSettledWith hsettled
  exact ⟨t₀, t₁, t₂, w, request, hrun, hsettled, hp⟩

/-- The logs of the resolution, when its cost is known. -/
theorem resolutionLogs_compiled {c : Config} (request : ExecutionRequest) {x : ExecutionResponse} {cost : Nat}
    (costs : calculateCost c x.resourcesUsed = .ok cost) :
    (Call.resolveExecution 0 x).resolutionLogs c request = .ok [resolvingLine request 0 x, chargedLine cost] := by
  simp only [Call.resolutionLogs, resolveExecutionInternalLogs, costs]
  rfl

/-- A compilation that took no time is reported at what is charged. -/
theorem reported_at_charge : ∃ t₀ t₁ t₂ w request outcome,
    World.History asciiHost ownerAccount none none none ([t₀] ++ t₁ :: ([] ++ [t₂])) w ∧
      SettledWith t₁ t₂ (.resolveExecution 0 (compiledIn none)) 0 request (compiledIn none) ∧
      (Call.resolveExecution 0 (compiledIn none)).resolutionLogs t₁.pre.contract.toConfig request
        = .ok outcome.committedLogs ∧
      t₂.post.contract.totalFeesCollected
        = t₂.pre.contract.totalFeesCollected + extractPaymentFromLogs asciiHost outcome := by
  obtain ⟨t₀, t₁, t₂, w, request, hrun, hsettled, hp⟩ := exists_compiled none
    (fun t₁ _ => decide (
      (calculateCost t₁.pre.contract.toConfig (compiledIn none).resourcesUsed).toOption = some (10 ^ 21) ∧
      ∀ r ∈ t₁.pre.request 0, 10 ^ 21 ≤ r.payment - inputStorageDeposit r.inputLen)) (by decide +kernel)
  obtain ⟨hcost, hcovered⟩ := of_decide_eq_true hp
  have costs := toOption_eq_some.mp hcost
  have logged := resolutionLogs_compiled request costs
  have committed := committedLogs_resolvedOutcome [resolvingLine request 0 (compiledIn none), chargedLine (10 ^ 21)]
  refine ⟨t₀, t₁, t₂, w, request, _, hrun, hsettled, committed ▸ logged, ?_⟩
  exact (reported_is_charged_iff hrun hsettled costs logged committed).mpr (hcovered request hsettled.pending)

/-- **A compilation that costs more than was attached** is reported above the charge: it took 5000 ms. -/
theorem reported_above_charge : ∃ t₀ t₁ t₂ w request outcome,
    World.History asciiHost ownerAccount none none none ([t₀] ++ t₁ :: ([] ++ [t₂])) w ∧
      SettledWith t₁ t₂ (.resolveExecution 0 (compiledIn (some 5000))) 0 request (compiledIn (some 5000)) ∧
      (Call.resolveExecution 0 (compiledIn (some 5000))).resolutionLogs t₁.pre.contract.toConfig request
        = .ok outcome.committedLogs ∧
      extractPaymentFromLogs asciiHost outcome = 15 * 10 ^ 20 ∧
      t₂.post.contract.totalFeesCollected = t₂.pre.contract.totalFeesCollected + 10 ^ 21 := by
  obtain ⟨t₀, t₁, t₂, w, request, hrun, hsettled, hp⟩ := exists_compiled (some 5000)
    (fun t₁ t₂ => decide
      ((calculateCost t₁.pre.contract.toConfig (compiledIn (some 5000)).resourcesUsed).toOption = some (15 * 10 ^ 20)
      ∧ t₂.post.contract.totalFeesCollected = t₂.pre.contract.totalFeesCollected + 10 ^ 21)) (by decide +kernel)
  obtain ⟨hcost, hfees⟩ := of_decide_eq_true hp
  have costs := toOption_eq_some.mp hcost
  have logged := resolutionLogs_compiled request costs
  have committed := committedLogs_resolvedOutcome
    [resolvingLine request 0 (compiledIn (some 5000)), chargedLine (15 * 10 ^ 20)]
  have hread := extract_resolution (H := asciiHost) hsettled.resolution costs logged committed
  exact ⟨t₀, t₁, t₂, w, request, _, hrun, hsettled, committed ▸ logged, hread, hfees⟩

end Worker

end Outlayer
