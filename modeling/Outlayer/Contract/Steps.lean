import Outlayer.Contract.World

/-!
# `Contract.Steps` — what a step of the world can do

The inversion lemmas every invariant is derived from. `step_cases` lists the five things a step can be;
`commit_ledger` and its siblings say that committing a computation on one part changes that part only;
`after_*` say what the effects of an execution put in flight.
-/

namespace Outlayer
open Checked Collections Runs

/-! ## Committing a part -/

section Commit
variable {c c' : Contract} {es : List Effect}

theorem commit_config {r : Res Config} (h : (PartRun.config r).commit c = .ok (c', es)) :
    ∃ p, r = .ok p ∧ c' = { c with toConfig := p } ∧ es = [] := by
  simp only [PartRun.commit, bind_eq_ok, pure_eq_ok, Prod.mk.injEq] at h
  obtain ⟨p, hp, rfl, rfl⟩ := h
  exact ⟨p, hp, rfl, rfl⟩

theorem commit_ledger {r : Res (Ledger × List Effect)} (h : (PartRun.ledger r).commit c = .ok (c', es)) :
    ∃ p, r = .ok (p, es) ∧ c' = { c with toLedger := p } := by
  simp only [PartRun.commit, bind_eq_ok, pure_eq_ok, Prod.mk.injEq] at h
  obtain ⟨⟨p, _⟩, hp, rfl, rfl⟩ := h
  exact ⟨p, hp, rfl⟩

theorem commit_secrets {r : Res (SecretStore × List StorageEffect)}
    (h : (PartRun.secrets r).commit c = .ok (c', es)) :
    ∃ p ses, r = .ok (p, ses) ∧ c' = { c with toSecretStore := p } ∧ es = ses.map .storage := by
  simp only [PartRun.commit, bind_eq_ok, pure_eq_ok, Prod.mk.injEq] at h
  obtain ⟨⟨p, ses⟩, hp, rfl, rfl⟩ := h
  exact ⟨p, ses, hp, rfl, rfl⟩

theorem commit_registry {r : Res (Registry × List StorageEffect)}
    (h : (PartRun.registry r).commit c = .ok (c', es)) :
    ∃ p ses, r = .ok (p, ses) ∧ c' = { c with toRegistry := p } ∧ es = ses.map .storage := by
  simp only [PartRun.commit, bind_eq_ok, pure_eq_ok, Prod.mk.injEq] at h
  obtain ⟨⟨p, ses⟩, hp, rfl, rfl⟩ := h
  exact ⟨p, ses, hp, rfl, rfl⟩

theorem commit_pricing {r : Res PriceTable} (h : (PartRun.pricing r).commit c = .ok (c', es)) :
    ∃ p, r = .ok p ∧ c' = { c with toPriceTable := p } ∧ es = [] := by
  simp only [PartRun.commit, bind_eq_ok, pure_eq_ok, Prod.mk.injEq] at h
  obtain ⟨p, hp, rfl, rfl⟩ := h
  exact ⟨p, hp, rfl, rfl⟩

theorem commit_policies {r : Res (PolicyStore × List StorageEffect)}
    (h : (PartRun.policies r).commit c = .ok (c', es)) :
    ∃ p ses, r = .ok (p, ses) ∧ c' = { c with toPolicyStore := p } ∧ es = ses.map .storage := by
  simp only [PartRun.commit, bind_eq_ok, pure_eq_ok, Prod.mk.injEq] at h
  obtain ⟨⟨p, ses⟩, hp, rfl, rfl⟩ := h
  exact ⟨p, ses, hp, rfl, rfl⟩

theorem commit_emits {r : Res (List Effect)} (h : (PartRun.emits r).commit c = .ok (c', es)) :
    r = .ok es ∧ c' = c := by
  simp only [PartRun.commit, bind_eq_ok, pure_eq_ok, Prod.mk.injEq] at h
  obtain ⟨_, hp, rfl, rfl⟩ := h
  exact ⟨hp, rfl⟩

/-- A call that runs is its body, committed. -/
theorem exec_commit {H : Host} {env : Env} {call : Call} (h : exec H env c call = .ok (c', es)) :
    (call.payable = true ∨ env.attachedDeposit = 0) ∧ (runCall H env c call).commit c = .ok (c', es) := by
  simp only [exec, bind_eq_ok, require_eq_ok] at h
  obtain ⟨_, hpay, h⟩ := h
  exact ⟨hpay, h⟩

/-- Seen from each part: a run either is on that part or leaves it as it is. -/
structure PartsKept (c c' : Contract) (r : PartRun) (es : List Effect) : Prop where
  secrets : (∃ ses, r = .secrets (.ok (c'.toSecretStore, ses)) ∧ es = ses.map .storage) ∨
    (∀ x, r ≠ .secrets x) ∧ c'.toSecretStore = c.toSecretStore
  registry : (∃ ses, r = .registry (.ok (c'.toRegistry, ses)) ∧ es = ses.map .storage) ∨
    (∀ x, r ≠ .registry x) ∧ c'.toRegistry = c.toRegistry
  policies : (∃ ses, r = .policies (.ok (c'.toPolicyStore, ses)) ∧ es = ses.map .storage) ∨
    (∀ x, r ≠ .policies x) ∧ c'.toPolicyStore = c.toPolicyStore
  pricing : r = .pricing (.ok c'.toPriceTable) ∨ (∀ x, r ≠ .pricing x) ∧ c'.toPriceTable = c.toPriceTable

theorem commit_parts {r : PartRun} (h : r.commit c = .ok (c', es)) : PartsKept c c' r es := by
  cases r with
  | config _ =>
      obtain ⟨_, -, rfl, -⟩ := commit_config h
      exact ⟨Or.inr ⟨nofun, rfl⟩, Or.inr ⟨nofun, rfl⟩, Or.inr ⟨nofun, rfl⟩, Or.inr ⟨nofun, rfl⟩⟩
  | ledger _ =>
      obtain ⟨_, -, rfl⟩ := commit_ledger h
      exact ⟨Or.inr ⟨nofun, rfl⟩, Or.inr ⟨nofun, rfl⟩, Or.inr ⟨nofun, rfl⟩, Or.inr ⟨nofun, rfl⟩⟩
  | secrets _ =>
      obtain ⟨_, ses, rfl, rfl, hes⟩ := commit_secrets h
      exact ⟨Or.inl ⟨ses, rfl, hes⟩, Or.inr ⟨nofun, rfl⟩, Or.inr ⟨nofun, rfl⟩, Or.inr ⟨nofun, rfl⟩⟩
  | registry _ =>
      obtain ⟨_, ses, rfl, rfl, hes⟩ := commit_registry h
      exact ⟨Or.inr ⟨nofun, rfl⟩, Or.inl ⟨ses, rfl, hes⟩, Or.inr ⟨nofun, rfl⟩, Or.inr ⟨nofun, rfl⟩⟩
  | pricing _ =>
      obtain ⟨_, rfl, rfl, -⟩ := commit_pricing h
      exact ⟨Or.inr ⟨nofun, rfl⟩, Or.inr ⟨nofun, rfl⟩, Or.inr ⟨nofun, rfl⟩, Or.inl rfl⟩
  | policies _ =>
      obtain ⟨_, ses, rfl, rfl, hes⟩ := commit_policies h
      exact ⟨Or.inr ⟨nofun, rfl⟩, Or.inr ⟨nofun, rfl⟩, Or.inl ⟨ses, rfl, hes⟩, Or.inr ⟨nofun, rfl⟩⟩
  | emits _ =>
      obtain ⟨-, rfl⟩ := commit_emits h
      exact ⟨Or.inr ⟨nofun, rfl⟩, Or.inr ⟨nofun, rfl⟩, Or.inr ⟨nofun, rfl⟩, Or.inr ⟨nofun, rfl⟩⟩

end Commit

/-! ## What effects send back -/

/-- The NEAR an effect of a storage method sends. -/
def StorageEffect.sent : StorageEffect → Nat
  | .transfer _ n => n
  | _             => 0

/-- The NEAR sent back by the effects of a storage method. -/
def refunded (ses : List StorageEffect) : Nat := (ses.map StorageEffect.sent).sum

@[simp] theorem refunded_nil : refunded [] = 0 := rfl

@[simp] theorem refunded_append (ses ses' : List StorageEffect) :
    refunded (ses ++ ses') = refunded ses + refunded ses' := by
  simp [refunded]

@[simp] theorem refunded_refund (receiver : AccountId) (n : Nat) : refunded (refund receiver n) = n := by
  unfold refund
  split
  · simp [refunded, StorageEffect.sent]
  · simp only [refunded_nil]
    omega

@[simp] theorem refunded_emit (c : Config) (e : SystemEvent) : refunded [emitSystemEvent c e] = 0 := rfl

/-! ## What effects put in flight -/

/-- Stablecoin put in flight by withdrawals. -/
def withdrawalsIn : List Effect → Nat
  | []                      => 0
  | .withdrawal _ _ n :: es => n + withdrawalsIn es
  | _ :: es                 => withdrawalsIn es

/-- Stablecoin in withdrawals whose callback has not run. -/
def World.inFlight (w : World) : Nat := LookupMap.total (fun _ x => x.amount) w.withdrawals

/-- Receipt numbers not handed out yet name no withdrawal. -/
def World.ReceiptsFresh (w : World) : Prop := ∀ n, w.nextReceipt ≤ n → w.withdrawals.lookup n = none

section After
variable {w : World} {c : Contract}

@[simp] theorem apply_contract (w : World) (e : Effect) : (w.apply e).contract = w.contract := by
  cases e <;> rfl

/-- Effects do not touch the contract. -/
@[simp] theorem after_contract (w : World) (c : Contract) (es : List Effect) :
    (w.after c es).contract = c := by
  have h : ∀ (es : List Effect) (v : World), (es.foldl World.apply v).contract = v.contract := by
    intro es
    induction es with
    | nil => exact fun _ => rfl
    | cons e es ih => exact fun v => (ih _).trans (apply_contract v e)
  exact h es _

private theorem apply_inFlight {v : World} (hf : v.ReceiptsFresh) (e : Effect) :
    (v.apply e).ReceiptsFresh ∧ (v.apply e).inFlight = v.inFlight + withdrawalsIn [e] := by
  cases e with
  | withdrawal tk a n =>
      constructor
      · intro m hm
        change v.nextReceipt + 1 ≤ m at hm
        show (v.withdrawals.insert v.nextReceipt ⟨a, n⟩).lookup m = none
        rw [LookupMap.lookup_insert_iff, if_neg (by omega)]
        exact hf m (by omega)
      · have h := LookupMap.total_insert (fun _ (x : Withdrawal) => x.amount) v.nextReceipt ⟨a, n⟩
          v.withdrawals
        rw [hf v.nextReceipt (Nat.le_refl _)] at h
        simpa [World.inFlight, World.apply, withdrawalsIn] using h
  | _ => exact ⟨hf, rfl⟩

/-- What is in flight after an execution: what was, plus the withdrawals it made. -/
theorem after_inFlight (hf : w.ReceiptsFresh) (c : Contract) (es : List Effect) :
    (w.after c es).ReceiptsFresh ∧ (w.after c es).inFlight = w.inFlight + withdrawalsIn es := by
  have h : ∀ (es : List Effect) (v : World), v.ReceiptsFresh →
      (es.foldl World.apply v).ReceiptsFresh ∧
        (es.foldl World.apply v).inFlight = v.inFlight + withdrawalsIn es := by
    intro es
    induction es with
    | nil => exact fun v hv => ⟨hv, rfl⟩
    | cons e es ih =>
        intro v hv
        obtain ⟨hf', hin⟩ := apply_inFlight hv e
        obtain ⟨hf'', hin'⟩ := ih _ hf'
        refine ⟨hf'', ?_⟩
        have hcons : withdrawalsIn (e :: es) = withdrawalsIn [e] + withdrawalsIn es := by
          cases e <;> simp [withdrawalsIn]
        rw [List.foldl_cons, hin', hin, hcons]
        omega
  exact h es { w with contract := c } hf

private theorem apply_yield {v : World} {e : Effect} {d : CryptoHash} {y : Yield}
    (h : (v.apply e).yields.lookup d = some y) :
    (∃ y₀, v.yields.lookup d = some y₀ ∧ y₀.callback = y.callback) ∨
      ∃ gas, e = .yieldCreate d gas y.callback := by
  cases e with
  | yieldCreate d' gas cb =>
      change (v.yields.insert d' ⟨cb, none⟩).lookup d = some y at h
      rw [LookupMap.lookup_insert_iff] at h
      split at h
      · next hd =>
          cases h
          exact Or.inr ⟨gas, by rw [hd]⟩
      · exact Or.inl ⟨y, h, rfl⟩
  | yieldResume d' p =>
      change (resumeYield v.yields d' p).lookup d = some y at h
      unfold resumeYield at h
      cases hl : v.yields.lookup d' with
      | none =>
          rw [hl] at h
          exact Or.inl ⟨y, h, rfl⟩
      | some y' =>
          rw [hl] at h
          dsimp only at h
          rw [LookupMap.lookup_insert_iff] at h
          split at h
          · next hd =>
              cases h
              exact Or.inl ⟨y', hd ▸ hl, rfl⟩
          · exact Or.inl ⟨y, h, rfl⟩
  | _ => exact Or.inl ⟨y, h, rfl⟩

/-- A yield in flight after an execution was in flight before it, or the execution created it. -/
theorem after_yield {es : List Effect} {d : CryptoHash} {y : Yield}
    (h : (w.after c es).yields.lookup d = some y) :
    (∃ y₀, w.yields.lookup d = some y₀ ∧ y₀.callback = y.callback) ∨
      ∃ gas, Effect.yieldCreate d gas y.callback ∈ es := by
  have hfold : ∀ (es : List Effect) (v : World) (y : Yield),
      (es.foldl World.apply v).yields.lookup d = some y →
      (∃ y₀, v.yields.lookup d = some y₀ ∧ y₀.callback = y.callback) ∨
        ∃ gas, Effect.yieldCreate d gas y.callback ∈ es := by
    intro es
    induction es with
    | nil => exact fun v y h => Or.inl ⟨y, h, rfl⟩
    | cons e es ih =>
        intro v y h
        rcases ih _ y h with ⟨y₁, h₁, hcb⟩ | ⟨gas, hmem⟩
        · rcases apply_yield h₁ with ⟨y₀, h₀, hcb₀⟩ | ⟨gas, he⟩
          · exact Or.inl ⟨y₀, h₀, hcb₀.trans hcb⟩
          · exact Or.inr ⟨gas, by rw [he, hcb]; exact List.mem_cons_self⟩
        · exact Or.inr ⟨gas, List.mem_cons_of_mem _ hmem⟩
  exact hfold es { w with contract := c } y h

/-- A withdrawal in flight after an execution was in flight before it, or the execution made it. -/
theorem after_withdrawal {es : List Effect} {n : Nat} {x : Withdrawal}
    (h : (w.after c es).withdrawals.lookup n = some x) :
    w.withdrawals.lookup n = some x ∨ ∃ token, Effect.withdrawal token x.developer x.amount ∈ es := by
  have hfold : ∀ (es : List Effect) (v : World), (es.foldl World.apply v).withdrawals.lookup n = some x →
      v.withdrawals.lookup n = some x ∨ ∃ token, Effect.withdrawal token x.developer x.amount ∈ es := by
    intro es
    induction es with
    | nil => exact fun v h => Or.inl h
    | cons e es ih =>
        intro v h
        rcases ih _ h with h₁ | ⟨token, hmem⟩
        · cases e with
          | withdrawal token a amount =>
              change (v.withdrawals.insert v.nextReceipt ⟨a, amount⟩).lookup n = some x at h₁
              rw [LookupMap.lookup_insert_iff] at h₁
              split at h₁
              · cases h₁
                exact Or.inr ⟨token, List.mem_cons_self⟩
              · exact Or.inl h₁
          | _ => exact Or.inl h₁
        · exact Or.inr ⟨token, List.mem_cons_of_mem _ hmem⟩
  exact hfold es { w with contract := c } h

end After

/-! ## The cases of a step -/

/-- What a step `t` can be. -/
inductive StepCase (H : Host) (t : Step) : Prop
  /-- a public call that went through -/
  | call (env : Env) (call : Call) (event : t.event = .call env call)
      (run : exec H (t.pre.seenBy env) t.pre.contract call = .ok (t.post.contract, t.out))
      (post : t.post = t.pre.after t.post.contract t.out)
  /-- the callback of a yield that went through -/
  | callback (env : Env) (dataId : CryptoHash) (delivery : Delivery) (y : Yield)
      (payload : Option YieldPayload) (event : t.event = .yielded env dataId delivery)
      (waiting : t.pre.yields.lookup dataId = some y)
      (delivered : delivery = .timedOut ∧ payload = none ∨
        delivery = .resumed ∧ payload = y.payload ∧ payload ≠ none)
      (run : (runCallback H env t.pre.contract payload y.callback).commit t.pre.contract
        = .ok (t.post.contract, t.out))
      (post : t.post = (t.pre.spend dataId).after t.post.contract t.out)
  /-- a yield whose callback panicked or ran out of gas -/
  | spent (env : Env) (dataId : CryptoHash) (delivery : Delivery)
      (event : t.event = .yielded env dataId delivery)
      (failed : delivery = .resumed → ∀ y, t.pre.yields.lookup dataId = some y →
        ∀ r, (runCallback H env t.pre.contract y.payload y.callback).commit t.pre.contract ≠ .ok r)
      (out : t.out = []) (post : t.post = t.pre.spend dataId)
  /-- the result of a withdrawal -/
  | withdrawn (receipt : Nat) (transferOk : Bool) (x : Withdrawal) (l : Ledger)
      (event : t.event = .withdrawn receipt transferOk)
      (pending : t.pre.withdrawals.lookup receipt = some x)
      (run : onWithdrawDeveloperEarnings t.pre.contract.toLedger x.developer x.amount transferOk = .ok l)
      (out : t.out = [])
      (post : t.post = { t.pre with
        withdrawals := t.pre.withdrawals.erase receipt
        contract := { t.pre.contract with toLedger := l } })
  /-- a failed withdrawal whose callback panicked: the restored balance does not fit -/
  | stuck (receipt : Nat) (x : Withdrawal) (event : t.event = .withdrawn receipt false)
      (pending : t.pre.withdrawals.lookup receipt = some x)
      (overflow : 2 ^ 128 ≤ Balances.balance t.pre.contract.developerEarnings x.developer + x.amount)
      (out : t.out = [])
      (post : t.post = { t.pre with withdrawals := t.pre.withdrawals.erase receipt })

private theorem callback_cases {H : Host} {w : World} {env : Env} {d : CryptoHash} {y : Yield}
    {payload : Option YieldPayload} {w' : World} {es : List Effect}
    (h : w.callback H env d y payload = (w', es)) :
    ((runCallback H env w.contract payload y.callback).commit w.contract = .ok (w'.contract, es) ∧
        w' = (w.spend d).after w'.contract es) ∨
      ((∀ r, (runCallback H env w.contract payload y.callback).commit w.contract ≠ .ok r) ∧ es = [] ∧
        w' = w.spend d) := by
  unfold World.callback at h
  split at h
  · next c effects hrun =>
      cases h
      left
      rw [after_contract]
      exact ⟨hrun, rfl⟩
  · next hrun =>
      cases h
      right
      rw [hrun]
      exact ⟨nofun, rfl, rfl⟩

/-- **Inversion.** Every step is one of the five cases. -/
theorem step_cases {H : Host} {t : Step} (h : Fires (World.next H) t) : StepCase H t := by
  obtain ⟨w, e, es, w'⟩ := t
  change World.next H w e = some (w', es) at h
  cases e with
  | call env call =>
      change w.call H env call = some (w', es) at h
      unfold World.call at h
      split at h
      · cases h
      · split at h
        · next c effects hrun =>
            cases h
            exact .call env call rfl (by simpa using hrun) (by simp)
        · cases h
  | yielded env d delivery =>
      change w.deliver H env d delivery = some (w', es) at h
      unfold World.deliver at h
      cases hy : w.yields.lookup d with
      | none =>
          rw [hy] at h
          cases h
      | some y =>
          rw [hy] at h
          cases delivery with
          | outOfGas =>
              cases h
              exact .spent env d .outOfGas rfl nofun rfl rfl
          | timedOut =>
              rcases callback_cases (Option.some.inj h) with ⟨hrun, hpost⟩ | ⟨-, hout, hpost⟩
              · exact .callback env d .timedOut y none rfl hy (Or.inl ⟨rfl, rfl⟩) hrun hpost
              · exact .spent env d .timedOut rfl nofun hout hpost
          | resumed =>
              dsimp only at h
              split at h
              · next hsome =>
                  have hne : y.payload ≠ none := Option.isSome_iff_ne_none.mp hsome
                  rcases callback_cases (Option.some.inj h) with ⟨hrun, hpost⟩ | ⟨hfailed, hout, hpost⟩
                  · exact .callback env d .resumed y y.payload rfl hy (Or.inr ⟨rfl, rfl, hne⟩) hrun hpost
                  · refine .spent env d .resumed rfl ?_ hout hpost
                    intro _ y' hy'
                    obtain rfl : y = y' := Option.some.inj (hy.symm.trans hy')
                    exact hfailed
              · cases h
  | withdrawn receipt transferOk =>
      change w.settleWithdrawal receipt transferOk = some (w', es) at h
      unfold World.settleWithdrawal at h
      cases hx : w.withdrawals.lookup receipt with
      | none =>
          rw [hx] at h
          cases h
      | some x =>
          rw [hx] at h
          dsimp only at h
          split at h
          · next l hrun =>
              cases h
              exact .withdrawn receipt transferOk x l rfl hx hrun rfl rfl
          · next hrun =>
              cases h
              -- the success branch returns, so the transfer failed and the credit overflowed
              cases transferOk with
              | true => simp [onWithdrawDeveloperEarnings, pure, Except.pure] at hrun
              | false =>
                  refine .stuck receipt x rfl hx ?_ rfl rfl
                  by_contra hlt
                  change ¬ 2 ^ 128 ≤ Balances.balance w.contract.developerEarnings x.developer + x.amount at hlt
                  rw [onWithdrawDeveloperEarnings, if_neg (by decide)] at hrun
                  rw [Balances.credit, Checked.add, if_pos (by omega)] at hrun
                  cases hrun

/-- What a step does to registry, policies and prices: only a call touches them. -/
theorem step_parts {H : Host} {t : Step} (h : Fires (World.next H) t) :
    (∃ env call, t.event = .call env call ∧ (call.payable = true ∨ env.attachedDeposit = 0) ∧
      PartsKept t.pre.contract t.post.contract (runCall H (t.pre.seenBy env) t.pre.contract call) t.out) ∨
    ((∀ env call, t.event ≠ .call env call) ∧
      t.post.contract.toRegistry = t.pre.contract.toRegistry ∧
      t.post.contract.toPolicyStore = t.pre.contract.toPolicyStore ∧
      t.post.contract.toPriceTable = t.pre.contract.toPriceTable) := by
  cases step_cases h with
  | call env call event run post =>
      obtain ⟨hpay, hcommit⟩ := exec_commit run
      exact Or.inl ⟨env, call, event, hpay, commit_parts hcommit⟩
  | callback env d delivery y payload event waiting delivered run post =>
      refine Or.inr ⟨by simp [event], ?_⟩
      cases hcb : y.callback with
      | onExecutionResponse data =>
          rw [hcb] at run
          obtain ⟨_, -, hc⟩ := commit_ledger run
          exact ⟨by rw [hc], by rw [hc], by rw [hc]⟩
      | onTopUpResponse owner nonce amount =>
          rw [hcb] at run
          obtain ⟨_, _, -, hc, -⟩ := commit_secrets run
          exact ⟨by rw [hc], by rw [hc], by rw [hc]⟩
      | onDeletePaymentKeyResponse owner nonce =>
          rw [hcb] at run
          obtain ⟨_, _, -, hc, -⟩ := commit_secrets run
          exact ⟨by rw [hc], by rw [hc], by rw [hc]⟩
  | spent env d delivery event failed out post =>
      refine Or.inr ⟨by simp [event], ?_⟩
      rw [post]
      exact ⟨rfl, rfl, rfl⟩
  | withdrawn receipt transferOk x l event pending run out post =>
      refine Or.inr ⟨by simp [event], ?_⟩
      rw [post]
      exact ⟨rfl, rfl, rfl⟩
  | stuck receipt x event pending overflow out post =>
      refine Or.inr ⟨by simp [event], ?_⟩
      rw [post]
      exact ⟨rfl, rfl, rfl⟩

/-- Using up a receipt leaves the other yields. -/
theorem lookup_of_spend {w : World} {d d' : CryptoHash} {y : Yield}
    (h : (w.spend d').yields.lookup d = some y) : w.yields.lookup d = some y :=
  (LookupMap.lookup_of_erase h).2

/-- A yield in flight after a step was in flight before it, or the step created it. -/
theorem step_yield {H : Host} {t : Step} (h : Fires (World.next H) t) {d : CryptoHash} {y : Yield}
    (hy : t.post.yields.lookup d = some y) :
    (∃ y₀, t.pre.yields.lookup d = some y₀ ∧ y₀.callback = y.callback) ∨
      ∃ gas, Effect.yieldCreate d gas y.callback ∈ t.out := by
  cases step_cases h with
  | call _ _ _ _ post =>
      rw [post] at hy
      exact after_yield hy
  | callback _ d' _ _ _ _ _ _ _ post =>
      rw [post] at hy
      rcases after_yield hy with ⟨y₀, h₀, hcb⟩ | hnew
      · exact Or.inl ⟨y₀, lookup_of_spend h₀, hcb⟩
      · exact Or.inr hnew
  | spent _ _ _ _ _ _ post =>
      rw [post] at hy
      exact Or.inl ⟨y, lookup_of_spend hy, rfl⟩
  | withdrawn _ _ _ _ _ _ _ _ post =>
      rw [post] at hy
      exact Or.inl ⟨y, hy, rfl⟩
  | stuck _ _ _ _ _ _ post =>
      rw [post] at hy
      exact Or.inl ⟨y, hy, rfl⟩

/-! ## Making a step -/

section Fires
variable {H : Host} {w : World} {env : Env} {c : Contract} {es : List Effect}

/-- A call that runs is a step, when the yield it may create is new. -/
theorem next_call {call : Call} (hnew : env.dataId ∉ w.yields)
    (h : exec H (w.seenBy env) w.contract call = .ok (c, es)) :
    World.next H w (.call env call) = some (w.after c es, es) := by
  show World.call H w env call = _
  rw [World.call, if_neg hnew, h]

/-- A callback that runs on a timed-out yield is a step. -/
theorem next_timedOut {d : CryptoHash} {y : Yield} (hy : w.yields.lookup d = some y)
    (h : (runCallback H env w.contract none y.callback).commit w.contract = .ok (c, es)) :
    World.next H w (.yielded env d .timedOut) = some ((w.spend d).after c es, es) := by
  show World.deliver H w env d .timedOut = _
  rw [World.deliver, hy]
  simp only [World.callback, h]

end Fires

end Outlayer
