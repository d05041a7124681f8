import Outlayer.Contract.Settlement

/-!
# `Contract.LedgerSteps` — what a step does to the ledger

`LedgerCall` lists what a public call can do to requests, stablecoin and fees, `callback_ledger` what a
callback can do; `LedgerMove` puts the two together for a step of the world. `LedgerInv` is what every
reachable world satisfies.
-/

namespace Outlayer
open Checked Collections Balances Runs

/-! ## Calls -/

/-- Stablecoin a call deposits. -/
def Call.depositedUsd : Call → Nat
  | .ftOnTransfer _ amount (some .depositBalance) => amount
  | _                                             => 0

/-- Stablecoin attached to the pending requests that a bulk cancellation names. -/
def Call.forfeitedUsd (c : Contract) : Call → Nat
  | .cancelPendingRequests ids => c.toLedger.attachedTo ids
  | _                          => 0

/-- A request with its output delivered. -/
def ExecutionRequest.delivered (r : ExecutionRequest) (output : ExecutionOutput) : ExecutionRequest :=
  { r with pendingOutput := some (.ofOutput output), outputSubmitted := true }

/-- The three ways the owner ends requests. -/
def Call.EndsByOwner : Call → Prop
  | .emergencyCancelExecution _ | .cancelPendingRequests _ | .clearAllPendingRequests _ => True
  | _ => False

/-- What a call that went through did to the ledger. -/
inductive LedgerCall (H : Host) (env : Env) (c : Contract) : Call → Ledger → List Effect → Prop
  | idle {call : Call} {es : List Effect} (quiet : AllQuiet es) (deposited : call.depositedUsd = 0)
      (forfeited : call.forfeitedUsd c = 0) : LedgerCall H env c call c.toLedger es
  | deposit {senderId : AccountId} {amount : Nat} {l' : Ledger} {es : List Effect}
      (credits : Credits c.toLedger l' amount) (quiet : AllQuiet es) :
      LedgerCall H env c (.ftOnTransfer senderId amount (some .depositBalance)) l' es
  | withdraw {l' : Ledger} {token : AccountId} {amount : Nat} (positive : 0 < amount)
      (credits : Credits l' c.toLedger amount) :
      LedgerCall H env c .withdrawDeveloperEarnings l' [.withdrawal token env.predecessor amount]
  | requested {a : RequestArgs} {l' : Ledger} {es : List Effect} (admits : Admits H env c a l' es) :
      LedgerCall H env c (.requestExecution a) l' es
  | submit {call : Call} {es : List Effect} (id : Nat) (r : ExecutionRequest) (output : ExecutionOutput)
      (pending : c.pendingRequests.lookup id = some r) (quiet : AllQuiet es)
      (deposited : call.depositedUsd = 0) (forfeited : call.forfeitedUsd c = 0) :
      LedgerCall H env c call
        { c.toLedger with pendingRequests := c.pendingRequests.insert id (r.delivered output) } es
  | stale {id : Nat} {l' : Ledger} {es : List Effect} (r : ExecutionRequest) (charge : Nat)
      (charged : staleCharge c.toConfig r = .ok charge)
      (closes : Closes c.toLedger l' es id r (r.payment - min r.payment charge) (min r.payment charge)) :
      LedgerCall H env c (.cancelStaleExecution id) l' es
  | emergency {id : Nat} {l' : Ledger} {es : List Effect} (r : ExecutionRequest)
      (closes : Closes c.toLedger l' es id r r.payment 0) :
      LedgerCall H env c (.emergencyCancelExecution id) l' es
  | cancelPending {ids : List Nat} {l' : Ledger} {es : List Effect}
      (sweeps : Sweeps c.toLedger l' es (c.toLedger.attachedTo ids)) :
      LedgerCall H env c (.cancelPendingRequests ids) l' es
  | clearAll {limit : Option Nat} {l' : Ledger} {es : List Effect} (sweeps : Sweeps c.toLedger l' es 0) :
      LedgerCall H env c (.clearAllPendingRequests limit) l' es

section Calls
variable {H : Host} {env : Env} {c c' : Contract} {l' : Ledger} {es : List Effect}

theorem allQuiet_nil : AllQuiet [] := fun _ h => absurd h List.not_mem_nil

theorem submitExecutionOutputInternal_ok {l : Ledger} {id : Nat} {output : ExecutionOutput}
    (h : submitExecutionOutputInternal l id output = .ok l') :
    ∃ r, l.pendingRequests.lookup id = some r ∧
      l' = { l with pendingRequests := l.pendingRequests.insert id (r.delivered output) } := by
  simp only [submitExecutionOutputInternal, bind_eq_ok, expect_eq_ok, require_eq_ok, pure_eq_ok] at h
  obtain ⟨r, hr, _, -, rfl⟩ := h
  exact ⟨r, hr, rfl⟩

theorem resolveExecutionInternal_quiet {cfg : Config} {l : Ledger} {id : Nat} {x : ExecutionResponse}
    (h : resolveExecutionInternal env cfg l id x = .ok es) : AllQuiet es := by
  simp only [resolveExecutionInternal, bind_eq_ok, pure_eq_ok] at h
  obtain ⟨_, -, _, -, _, -, rfl⟩ := h
  intro e he
  simp only [List.mem_cons, List.not_mem_nil, or_false] at he
  rcases he with rfl | rfl <;> trivial

theorem submitExecutionOutput_ledger {id : Nat} {output : ExecutionOutput}
    (h : submitExecutionOutput env c id output = .ok (l', es)) :
    LedgerCall H env c (.submitExecutionOutput id output) l' es := by
  simp only [submitExecutionOutput, bind_eq_ok, pure_eq_ok] at h
  obtain ⟨_, -, l₁, hl₁, h⟩ := h
  cases h
  obtain ⟨r, hr, rfl⟩ := submitExecutionOutputInternal_ok hl₁
  exact .submit id r output hr allQuiet_nil rfl rfl

theorem submitExecutionOutputAndResolve_ledger {id : Nat} {output : ExecutionOutput} {success : Bool}
    {error : Option String} {used : ResourceMetrics} {note : Option String}
    (h : submitExecutionOutputAndResolve env c id output success error used note = .ok (l', es)) :
    LedgerCall H env c (.submitExecutionOutputAndResolve id output success error used note) l' es := by
  simp only [submitExecutionOutputAndResolve, bind_eq_ok, pure_eq_ok] at h
  obtain ⟨_, -, l₁, hl₁, effects, heffects, h⟩ := h
  cases h
  obtain ⟨r, hr, rfl⟩ := submitExecutionOutputInternal_ok hl₁
  exact .submit id r output hr (resolveExecutionInternal_quiet heffects) rfl rfl

theorem resolveExecution_ledger {id : Nat} {x : ExecutionResponse}
    (h : resolveExecution env c id x = .ok (l', es)) :
    LedgerCall H env c (.resolveExecution id x) l' es := by
  simp only [resolveExecution, bind_eq_ok, pure_eq_ok] at h
  obtain ⟨_, -, effects, heffects, h⟩ := h
  cases h
  exact .idle (resolveExecutionInternal_quiet heffects) rfl rfl

theorem withdrawDeveloperEarnings_ledger (h : withdrawDeveloperEarnings env c = .ok (l', es)) :
    LedgerCall H env c .withdrawDeveloperEarnings l' es := by
  simp only [withdrawDeveloperEarnings, bind_eq_ok, require_eq_ok, expect_eq_ok, pure_eq_ok] at h
  obtain ⟨_, -, _, hpos, token, -, h⟩ := h
  cases h
  refine .withdraw hpos ⟨rfl, rfl, rfl, ?_⟩
  have := holdings_erase c.developerEarnings env.predecessor
  simp only [Ledger.cash]
  omega

theorem ftOnTransfer_ledger {senderId : AccountId} {amount : Nat} {msg : Option FtTransferAction}
    (h : ftOnTransfer env c senderId amount msg = .ok (l', es)) :
    LedgerCall H env c (.ftOnTransfer senderId amount msg) l' es := by
  simp only [ftOnTransfer, bind_eq_ok, expect_eq_ok, require_eq_ok] at h
  obtain ⟨token, -, _, -, action, rfl, h⟩ := h
  cases action with
  | topUpPaymentKey nonce owner =>
      simp only [handleTopUp, bind_eq_ok, pure_eq_ok] at h
      obtain ⟨effects, ⟨_, -, _, -, rfl⟩, h⟩ := h
      cases h
      refine .idle ?_ rfl rfl
      intro e he
      simp only [List.mem_cons, List.not_mem_nil, or_false] at he
      rcases he with rfl | rfl <;> trivial
  | depositBalance =>
      simp only [handleDepositBalance, bind_eq_ok, pure_eq_ok] at h
      obtain ⟨balances, hb, h⟩ := h
      cases h
      refine .deposit ⟨rfl, rfl, rfl, ?_⟩ ?_
      · have := holdings_credit hb
        simp only [Ledger.cash]
        omega
      · intro e he
        obtain rfl := List.mem_singleton.mp he
        trivial
  | buySubscription nonce owner plan =>
      simp only [handleBuySubscription, bind_eq_ok, pure_eq_ok] at h
      obtain ⟨effects, ⟨_, -, _, -, rfl⟩, h⟩ := h
      cases h
      refine .idle ?_ rfl rfl
      intro e he
      simp only [List.mem_cons, List.not_mem_nil, or_false] at he
      rcases he with rfl | rfl <;> trivial

theorem onWithdrawDeveloperEarnings_credits {l : Ledger} {developer : AccountId} {amount : Nat}
    {transferOk : Bool} (h : onWithdrawDeveloperEarnings l developer amount transferOk = .ok l') :
    Credits l l' (if transferOk then 0 else amount) := by
  cases transferOk with
  | true =>
      cases h
      exact Credits.refl l'
  | false =>
      simp only [onWithdrawDeveloperEarnings, Bool.false_eq_true, if_false, bind_eq_ok, pure_eq_ok] at h
      obtain ⟨earnings, he, rfl⟩ := h
      refine ⟨rfl, rfl, rfl, ?_⟩
      have := holdings_credit he
      simp only [Ledger.cash, Bool.false_eq_true, if_false]
      omega

/-- Runs that neither touch the ledger nor emit anything but storage effects. -/
def PartRun.OffLedger : PartRun → Prop
  | .ledger _ => False
  | .emits _  => False
  | _         => True

theorem commit_offLedger {r : PartRun} (h : r.commit c = .ok (c', es)) (hr : r.OffLedger) :
    c'.toLedger = c.toLedger ∧ AllQuiet es := by
  cases r with
  | config _ =>
      obtain ⟨_, -, rfl, rfl⟩ := commit_config h
      exact ⟨rfl, allQuiet_nil⟩
  | ledger _ => exact hr.elim
  | secrets _ =>
      obtain ⟨_, ses, -, rfl, rfl⟩ := commit_secrets h
      exact ⟨rfl, allQuiet_storage ses⟩
  | registry _ =>
      obtain ⟨_, ses, -, rfl, rfl⟩ := commit_registry h
      exact ⟨rfl, allQuiet_storage ses⟩
  | pricing _ =>
      obtain ⟨_, -, rfl, rfl⟩ := commit_pricing h
      exact ⟨rfl, allQuiet_nil⟩
  | policies _ =>
      obtain ⟨_, ses, -, rfl, rfl⟩ := commit_policies h
      exact ⟨rfl, allQuiet_storage ses⟩
  | emits _ => exact hr.elim

theorem resumeTopup_quiet {d : String} {x : TopUpResult} (h : resumeTopup env c d x = .ok es) :
    AllQuiet es := by
  simp only [resumeTopup, bind_eq_ok, pure_eq_ok] at h
  obtain ⟨_, -, hash, -, _, -, rfl⟩ := h
  intro e he
  obtain rfl := List.mem_singleton.mp he
  trivial

theorem deletePaymentKey_quiet {nonce : Nat} (h : deletePaymentKey env c nonce = .ok es) : AllQuiet es := by
  simp only [deletePaymentKey, bind_eq_ok, pure_eq_ok] at h
  obtain ⟨_, -, _, -, rfl⟩ := h
  intro e he
  simp only [List.mem_cons, List.not_mem_nil, or_false] at he
  rcases he with rfl | rfl <;> trivial

theorem resumeDeletePaymentKey_quiet {d : String} {x : DeletePaymentKeyResult}
    (h : resumeDeletePaymentKey env c d x = .ok es) : AllQuiet es := by
  simp only [resumeDeletePaymentKey, bind_eq_ok, pure_eq_ok] at h
  obtain ⟨_, -, hash, -, _, -, rfl⟩ := h
  intro e he
  obtain rfl := List.mem_singleton.mp he
  trivial

theorem topUpPaymentKeyWithNear_quiet {nonce : Nat} {swap : AccountId}
    (h : topUpPaymentKeyWithNear env c nonce swap = .ok es) : AllQuiet es := by
  simp only [topUpPaymentKeyWithNear, bind_eq_ok, pure_eq_ok] at h
  obtain ⟨_, -, _, -, _, -, _, -, _, -, rfl⟩ := h
  intro e he
  simp only [List.mem_cons, List.not_mem_nil, or_false] at he
  rcases he with rfl | rfl | rfl <;> trivial

/-- **Inversion of calls.** -/
theorem exec_ledger {call : Call} (h : exec H env c call = .ok (c', es)) :
    LedgerCall H env c call c'.toLedger es := by
  replace h := (exec_commit h).2
  -- for the methods on the ledger, each has its own specification
  have hledger : ∀ {r : Res (Ledger × List Effect)}, (PartRun.ledger r).commit c = .ok (c', es) →
      r = .ok (c'.toLedger, es) := by
    intro r hr
    obtain ⟨p, hp, rfl⟩ := commit_ledger hr
    exact hp
  -- for the methods that only emit, the ledger stays
  have hemits : ∀ {r : Res (List Effect)}, (PartRun.emits r).commit c = .ok (c', es) →
      (r = .ok es → AllQuiet es) → call.depositedUsd = 0 → call.forfeitedUsd c = 0 →
      LedgerCall H env c call c'.toLedger es := by
    intro r hr hq hd hf
    obtain ⟨hp, rfl⟩ := commit_emits hr
    exact .idle (hq hp) hd hf
  cases call with
  | requestExecution a => exact .requested (requestExecution_admits (hledger h))
  | submitExecutionOutput id output => exact submitExecutionOutput_ledger (hledger h)
  | submitExecutionOutputAndResolve => exact submitExecutionOutputAndResolve_ledger (hledger h)
  | resolveExecution id response => exact resolveExecution_ledger (hledger h)
  | cancelStaleExecution id =>
      obtain ⟨r, charge, hcharge, hcl⟩ := cancelStaleExecution_closes (hledger h)
      exact .stale r charge hcharge hcl
  | withdrawDeveloperEarnings => exact withdrawDeveloperEarnings_ledger (hledger h)
  | ftOnTransfer senderId amount msg => exact ftOnTransfer_ledger (hledger h)
  | resumeTopup => exact hemits h resumeTopup_quiet rfl rfl
  | deletePaymentKey => exact hemits h deletePaymentKey_quiet rfl rfl
  | resumeDeletePaymentKey => exact hemits h resumeDeletePaymentKey_quiet rfl rfl
  | topUpPaymentKeyWithNear => exact hemits h topUpPaymentKeyWithNear_quiet rfl rfl
  | topUpPaymentKeyWithToken => exact hemits h (fun hr => absurd hr throw_ne_ok) rfl rfl
  | emergencyCancelExecution id =>
      obtain ⟨r, hcl⟩ := emergencyCancelExecution_closes (hledger h)
      exact .emergency r hcl
  | cancelPendingRequests ids => exact .cancelPending (cancelPendingRequests_sweeps (hledger h))
  | clearAllPendingRequests limit => exact .clearAll (clearAllPendingRequests_sweeps (hledger h))
  | _ =>
      obtain ⟨hl, hq⟩ := commit_offLedger h trivial
      rw [hl]
      exact .idle hq rfl rfl

end Calls

/-! ## Callbacks -/

section Callbacks
variable {H : Host} {env : Env} {c c' : Contract} {es : List Effect} {payload : Option YieldPayload}

theorem callbackResult_none {α : Type} {decode : YieldPayload → Option α} {result : Option α}
    (h : callbackResult decode payload = .ok result) : result = none ↔ payload = none := by
  cases payload with
  | none =>
      cases h
      simp
  | some p =>
      simp only [callbackResult, bind_eq_ok, pure_eq_ok] at h
      obtain ⟨r, -, rfl⟩ := h
      simp

/-- **Inversion of callbacks.** A callback leaves the ledger alone or closes the request it was created
    for. -/
theorem callback_ledger {cb : YieldCallback}
    (h : (runCallback H env c payload cb).commit c = .ok (c', es)) :
    (c'.toLedger = c.toLedger ∧ AllQuiet es) ∨
      ∃ data r fee, cb = .onExecutionResponse data ∧
        Closes c.toLedger c'.toLedger es data.requestId r (data.payment - fee) fee ∧
        (payload = none ∧ fee = c.baseFee ∨
          payload ≠ none ∧ fee ≤ data.payment - inputStorageDeposit r.inputLen) := by
  cases cb with
  | onExecutionResponse data =>
      obtain ⟨l', hr, rfl⟩ := commit_ledger h
      simp only [bind_eq_ok] at hr
      obtain ⟨response, hresp, hrun⟩ := hr
      rcases onExecutionResponse_cases hrun with ⟨-, rfl, hq⟩ | ⟨r, fee, hcl, hfee⟩
      · exact Or.inl ⟨rfl, hq⟩
      · rw [Ne, callbackResult_none hresp] at hfee
        exact Or.inr ⟨data, r, fee, rfl, hcl, hfee⟩
  | onTopUpResponse _ _ _ => exact Or.inl (commit_offLedger h trivial)
  | onDeletePaymentKeyResponse _ _ => exact Or.inl (commit_offLedger h trivial)

end Callbacks

/-! ## Steps -/

/-- What a step did to requests and fees. -/
inductive LedgerMove (H : Host) (t : Step) : Prop
  /-- nothing -/
  | keeps (pending : t.post.contract.pendingRequests = t.pre.contract.pendingRequests)
      (next : t.post.contract.nextRequestId = t.pre.contract.nextRequestId)
      (fees : t.post.contract.totalFeesCollected = t.pre.contract.totalFeesCollected)
      (silent : ∀ a id, settledTo a id t.out = 0) (yields : NoExecutionYield t.out)
  | admits (env : Env) (a : RequestArgs) (event : t.event = .call env (.requestExecution a))
      (admits : Admits H (t.pre.seenBy env) t.pre.contract a t.post.contract.toLedger t.out)
  /-- an output is put with its request -/
  | submits (id : Nat) (r : ExecutionRequest) (output : ExecutionOutput)
      (pending : t.pre.contract.pendingRequests.lookup id = some r)
      (post : t.post.contract.toLedger = { t.pre.contract.toLedger with
        pendingRequests := t.pre.contract.pendingRequests.insert id (r.delivered output) })
      (quiet : AllQuiet t.out)
  /-- the settlement callback with a response -/
  | responds (env : Env) (d : CryptoHash) (y : Yield) (data : RequestData) (r : ExecutionRequest) (fee : Nat)
      (event : t.event = .yielded env d .resumed) (waiting : t.pre.yields.lookup d = some y)
      (callback : y.callback = .onExecutionResponse data)
      (spares : fee ≤ data.payment - inputStorageDeposit r.inputLen)
      (closes : Closes t.pre.contract.toLedger t.post.contract.toLedger t.out data.requestId r
        (data.payment - fee) fee)
  /-- the settlement callback without one -/
  | timesOut (env : Env) (d : CryptoHash) (y : Yield) (data : RequestData) (r : ExecutionRequest)
      (event : t.event = .yielded env d .timedOut) (waiting : t.pre.yields.lookup d = some y)
      (callback : y.callback = .onExecutionResponse data)
      (closes : Closes t.pre.contract.toLedger t.post.contract.toLedger t.out data.requestId r
        (data.payment - t.pre.contract.baseFee) t.pre.contract.baseFee)
  | goesStale (env : Env) (id : Nat) (r : ExecutionRequest) (charge : Nat)
      (event : t.event = .call env (.cancelStaleExecution id))
      (charged : staleCharge t.pre.contract.toConfig r = .ok charge)
      (closes : Closes t.pre.contract.toLedger t.post.contract.toLedger t.out id r
        (r.payment - min r.payment charge) (min r.payment charge))
  /-- the owner's cancellations -/
  | cancels (env : Env) (call : Call) (event : t.event = .call env call)
      (owners : call.EndsByOwner)
      (ends : Ends t.pre.contract.toLedger t.post.contract.toLedger t.out (fun _ r => r.payment))
      (fees : t.post.contract.totalFeesCollected = t.pre.contract.totalFeesCollected)

theorem ledgerMove_of_call {H : Host} {t : Step} {env : Env} {call : Call}
    (event : t.event = .call env call)
    (h : LedgerCall H (t.pre.seenBy env) t.pre.contract call t.post.contract.toLedger t.out) :
    LedgerMove H t := by
  generalize hl : t.post.contract.toLedger = l' at h
  generalize hes : t.out = es at h
  cases h with
  | idle quiet _ _ =>
      subst hes
      exact .keeps (congrArg Ledger.pendingRequests hl) (congrArg Ledger.nextRequestId hl)
        (congrArg Ledger.totalFeesCollected hl) quiet.settledTo quiet.noYield
  | deposit credits quiet =>
      subst hl hes
      exact .keeps credits.pending credits.next credits.fees quiet.settledTo quiet.noYield
  | withdraw _ credits =>
      subst hl
      refine .keeps credits.pending.symm credits.next.symm credits.fees.symm ?_ ?_
      · intro a id
        rw [hes]
        rfl
      · intro d gas data
        rw [hes]
        simp
  | requested admits =>
      subst hl hes
      exact .admits env _ event admits
  | submit id r output pending quiet _ _ =>
      subst hes
      exact .submits id r output pending hl quiet
  | stale r charge charged closes =>
      subst hl hes
      exact .goesStale env _ r charge event charged closes
  | emergency r closes =>
      subst hl hes
      exact .cancels env _ event trivial (closes.ends _ rfl) closes.fees
  | cancelPending sweeps =>
      subst hl hes
      exact .cancels env _ event trivial sweeps.ends sweeps.fees
  | clearAll sweeps =>
      subst hl hes
      exact .cancels env _ event trivial sweeps.ends sweeps.fees

/-- **Inversion of steps, on requests and fees.** -/
theorem ledger_move {H : Host} {t : Step} (h : Fires (World.next H) t) : LedgerMove H t := by
  have hsilent : ∀ {es : List Effect}, es = [] → (∀ a id, settledTo a id es = 0) ∧ NoExecutionYield es := by
    rintro _ rfl
    exact ⟨fun _ _ => rfl, fun _ _ _ => List.not_mem_nil⟩
  cases step_cases h with
  | call env call event run post => exact ledgerMove_of_call event (exec_ledger run)
  | callback env d delivery y payload event waiting delivered run post =>
      rcases callback_ledger run with ⟨hl, hq⟩ | ⟨data, r, fee, hcb, hcl, hfee⟩
      · exact .keeps (congrArg Ledger.pendingRequests hl) (congrArg Ledger.nextRequestId hl)
          (congrArg Ledger.totalFeesCollected hl) hq.settledTo hq.noYield
      · rcases hfee with ⟨hnone, rfl⟩ | ⟨hsome, hle⟩
        -- no response means the yield timed out, and the other way round
        · rcases delivered with ⟨rfl, -⟩ | ⟨-, -, hsome⟩
          · exact .timesOut env d y data r event waiting hcb hcl
          · exact absurd hnone hsome
        · rcases delivered with ⟨-, hp⟩ | ⟨rfl, -, -⟩
          · exact absurd hp hsome
          · exact .responds env d y data r fee event waiting hcb hle hcl
  | spent env d delivery event failed out post =>
      obtain ⟨hs, hy⟩ := hsilent out
      have hc : t.post.contract = t.pre.contract := by
        rw [post]
        rfl
      exact .keeps (by rw [hc]) (by rw [hc]) (by rw [hc]) hs hy
  | withdrawn receipt transferOk x l event pending run out post =>
      obtain ⟨hs, hy⟩ := hsilent out
      have hc : t.post.contract.toLedger = l := by rw [post]
      have hcr := onWithdrawDeveloperEarnings_credits run
      rw [← hc] at hcr
      exact .keeps hcr.pending hcr.next hcr.fees hs hy
  | stuck receipt x event pending overflow out post =>
      obtain ⟨hs, hy⟩ := hsilent out
      have hc : t.post.contract = t.pre.contract := by rw [post]
      exact .keeps (by rw [hc]) (by rw [hc]) (by rw [hc]) hs hy

/-! ## Where requests come from -/

section Origin
variable {H : Host} {t : Step}

/-- Request ids only grow, and only an admission takes one. -/
theorem next_mono (h : Fires (World.next H) t) :
    t.pre.contract.nextRequestId ≤ t.post.contract.nextRequestId := by
  cases ledger_move h with
  | keeps _ next _ _ _ => omega
  | admits _ _ _ hadm =>
      have := hadm.next
      omega
  | submits id r output _ post _ => exact Nat.le_of_eq (congrArg Ledger.nextRequestId post).symm
  | responds _ _ _ _ _ _ _ _ _ _ closes => exact Nat.le_of_eq closes.next.symm
  | timesOut _ _ _ _ _ _ _ _ closes => exact Nat.le_of_eq closes.next.symm
  | goesStale _ _ _ _ _ _ closes => exact Nat.le_of_eq closes.next.symm
  | cancels _ _ _ _ ends _ => exact Nat.le_of_eq ends.next.symm

/-- What a pending request was before the step: it was admitted just now, or it was the same up to a
    delivered output. -/
inductive Origin (H : Host) (t : Step) (id : Nat) (r' : ExecutionRequest) : Prop
  | admitted (env : Env) (a : RequestArgs) (resolved : CodeSource)
      (event : t.event = .call env (.requestExecution a)) (id_eq : id = t.pre.contract.nextRequestId)
      (next : t.post.contract.nextRequestId = id + 1)
      (request : r' = a.toRequest (t.pre.seenBy env) id resolved)
      (cost : ∃ cost, admissionCost H t.pre.contract a = .ok cost ∧
        cost + inputStorageDeposit a.inputLen ≤ env.attachedDeposit)
  | kept (r : ExecutionRequest) (pending : t.pre.contract.pendingRequests.lookup id = some r)
      (request : r' = r ∨ ∃ output, r' = r.delivered output)

theorem Ends.origin {l l' : Ledger} {es : List Effect} {refund : Nat → ExecutionRequest → Nat} {id : Nat}
    {r : ExecutionRequest} (he : Ends l l' es refund) (h : l'.pendingRequests.lookup id = some r) :
    l.pendingRequests.lookup id = some r := by
  rcases he.kept id with hk | hk
  · rw [← hk, h]
  · rw [hk] at h
    cases h

theorem request_origin (h : Fires (World.next H) t) {id : Nat} {r' : ExecutionRequest}
    (hr : t.post.contract.pendingRequests.lookup id = some r') : Origin H t id r' := by
  cases ledger_move h with
  | keeps pending _ _ _ _ =>
      rw [pending] at hr
      exact .kept r' hr (Or.inl rfl)
  | admits env a event hadm =>
      obtain ⟨resolved, hp⟩ := hadm.pending
      rw [hp, LookupMap.lookup_insert_iff] at hr
      split at hr
      · next hid =>
          subst hid
          exact .admitted env a resolved event rfl hadm.next (Option.some.inj hr).symm hadm.cost
      · exact .kept r' hr (Or.inl rfl)
  | submits id' r output pending post _ =>
      rw [show t.post.contract.pendingRequests = _ from congrArg Ledger.pendingRequests post,
        LookupMap.lookup_insert_iff] at hr
      split at hr
      · next hid =>
          subst hid
          exact .kept r pending (Or.inr ⟨output, (Option.some.inj hr).symm⟩)
      · exact .kept r' hr (Or.inl rfl)
  | responds _ _ _ _ _ _ _ _ _ _ closes =>
      exact .kept r' ((closes.ends (fun _ _ => _) rfl).origin hr) (Or.inl rfl)
  | timesOut _ _ _ _ _ _ _ _ closes =>
      exact .kept r' ((closes.ends (fun _ _ => _) rfl).origin hr) (Or.inl rfl)
  | goesStale _ _ _ _ _ _ closes =>
      exact .kept r' ((closes.ends (fun _ _ => _) rfl).origin hr) (Or.inl rfl)
  | cancels _ _ _ _ ends _ => exact .kept r' (ends.origin hr) (Or.inl rfl)

/-- A yield for a request is created by its admission only. -/
theorem executionYield_origin (h : Fires (World.next H) t) {d : CryptoHash} {gas : Nat} {data : RequestData}
    (hmem : Effect.yieldCreate d gas (.onExecutionResponse data) ∈ t.out) :
    data.requestId = t.pre.contract.nextRequestId ∧ t.post.contract.nextRequestId = data.requestId + 1 ∧
      ∃ r, t.post.contract.pendingRequests.lookup data.requestId = some r ∧ r.payment = data.payment := by
  cases ledger_move h with
  | keeps _ _ _ _ yields => exact absurd hmem (yields d gas data)
  | admits env a event hadm =>
      obtain ⟨hid, hpay⟩ := hadm.yields d gas data hmem
      obtain ⟨resolved, hp⟩ := hadm.pending
      refine ⟨hid, hid ▸ hadm.next, a.toRequest (t.pre.seenBy env) t.pre.contract.nextRequestId resolved, ?_,
        hpay.symm⟩
      rw [hp, hid]
      exact AList.lookup_insert _
  | submits _ _ _ _ _ quiet => exact absurd hmem (quiet.noYield d gas data)
  | responds _ _ _ _ _ _ _ _ _ _ closes => exact absurd hmem (closes.pays.yields d gas data)
  | timesOut _ _ _ _ _ _ _ _ closes => exact absurd hmem (closes.pays.yields d gas data)
  | goesStale _ _ _ _ _ _ closes => exact absurd hmem (closes.pays.yields d gas data)
  | cancels _ _ _ _ ends _ => exact absurd hmem (ends.yields d gas data)

end Origin

/-! ## The invariant -/

/-- What holds of requests in every reachable world: ids are handed out in order, every payment covers its
    storage part, and a yield for a request knows its payment. -/
structure LedgerInv (w : World) : Prop where
  fresh : ∀ id, w.contract.nextRequestId ≤ id → w.contract.pendingRequests.lookup id = none
  storage : ∀ id r, w.contract.pendingRequests.lookup id = some r →
    inputStorageDeposit r.inputLen ≤ r.payment
  yields : ∀ d y data, w.yields.lookup d = some y → y.callback = .onExecutionResponse data →
    data.requestId < w.contract.nextRequestId ∧
      ∀ r, w.contract.pendingRequests.lookup data.requestId = some r → r.payment = data.payment

theorem LedgerInv.lt_next {w : World} (h : LedgerInv w) {id : Nat} {r : ExecutionRequest}
    (hr : w.contract.pendingRequests.lookup id = some r) : id < w.contract.nextRequestId := by
  by_contra hle
  rw [h.fresh id (Nat.le_of_not_lt hle)] at hr
  cases hr

theorem ledgerInv_deploy (owner : AccountId) (operator : Option AccountId) (standard version : Option String) :
    LedgerInv (World.deploy (Contract.new owner operator standard version)) where
  fresh _ _ := rfl
  storage _ _ h := by cases h
  yields _ _ _ h := by cases h

theorem ledgerInv_step {H : Host} {t : Step} (h : Fires (World.next H) t) (inv : LedgerInv t.pre) :
    LedgerInv t.post := by
  have hmono := next_mono h
  constructor
  case fresh =>
    intro id hid
    by_contra hne
    obtain ⟨r, hr⟩ := Option.ne_none_iff_exists'.mp hne
    cases request_origin h hr with
    -- the admission moved the next id past the new one
    | admitted _ _ _ _ _ next _ _ => omega
    | kept r₀ pending _ =>
        have := inv.lt_next pending
        omega
  case storage =>
    intro id r hr
    cases request_origin h hr with
    | admitted env a resolved _ _ _ request cost =>
        obtain ⟨cost, -, hle⟩ := cost
        subst request
        show inputStorageDeposit a.inputLen ≤ env.attachedDeposit
        omega
    | kept r₀ pending request =>
        have hle := inv.storage id r₀ pending
        rcases request with rfl | ⟨output, rfl⟩
        · exact hle
        · exact hle
  case yields =>
    intro d y data hy hcb
    rcases step_yield h hy with ⟨y₀, h₀, hcb₀⟩ | ⟨gas, hmem⟩
    · obtain ⟨hlt, hpay⟩ := inv.yields d y₀ data h₀ (hcb₀.trans hcb)
      refine ⟨by omega, fun r hr => ?_⟩
      cases request_origin h hr with
      -- an older yield names an older id, so the request just admitted is not its own
      | admitted _ _ _ _ id_eq _ _ _ => omega
      | kept r₀ pending request =>
          rcases request with rfl | ⟨output, rfl⟩
          · exact hpay _ pending
          · exact hpay r₀ pending
    · rw [hcb] at hmem
      obtain ⟨-, hnext, r₁, hr₁, hpay⟩ := executionYield_origin h hmem
      refine ⟨by omega, fun r hr => ?_⟩
      rw [hr₁] at hr
      cases hr
      exact hpay

/-- **The ledger invariant holds in every reachable world.** -/
theorem ledgerInv_history {H : Host} {owner : AccountId} {operator : Option AccountId}
    {standard version : Option String} {tr : List Step} {w : World}
    (h : World.History H owner operator standard version tr w) : LedgerInv w :=
  Run.invariant (ledgerInv_deploy owner operator standard version) (fun _ hf hi => ledgerInv_step hf hi) h

end Outlayer
