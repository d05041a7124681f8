import Outlayer.Vault.Chain

/-!
# `Vault.Steps` — what a step does

`Move` lists what an execution of the contract can do, by what started it; `StepCase` lists the steps of the
chain. Nothing after this module unfolds a method.
-/

namespace Outlayer
open Checked Collections Runs

namespace Vault

/-! ## Executions of the contract -/

/-- What starts an execution: a call, or the delivery of a receipt with what the DAO answered. -/
inductive Start
  | call (call : Call)
  | callback (r : Receipt) (answer : Answer)

/-- What an execution can do. -/
inductive Move (env : Env) (current : AccountId) (v : Vault) : Start → Vault → Outcome → Prop
  | propose (k : PublicKey) (locked : v.unlocked = false) :
      Move env current v (.call (.proposeTeeKey k)) v { promise := some (.isKeystoreApproved k) }
  | register (k : PublicKey) (notInitial : v.initialTeeKey ≠ some k) (unlisted : k ∉ v.registeredTeeKeys)
      (room : v.registeredTeeKeys.length < maxRegisteredTeeKeys) :
      Move env current v (.callback (.promise (.isKeystoreApproved k)) (.value true))
        { v with registeredTeeKeys := v.registeredTeeKeys ++ [k] }
        { logs := ["vault_tee_key_added"], promise := some (.addTeeKey k) }
  | requestMaster (request args : String) (locked : v.unlocked = false) :
      Move env current v (.call (.requestMaster request)) v
        { promise := some (.requestAppPrivateKey v.mpcContract args) }
  | clear (ks registered : List PublicKey) (logs : List String) (parent : env.predecessor = v.parent)
      (nodup : ks.Nodup) (left : v.unlocked = true ∨ ks.length < v.registeredTeeKeys.length)
      (unlisted : unlist v.registeredTeeKeys ks = .ok registered) :
      Move env current v (.call (.clearUnusedTeeKeys ks)) { v with registeredTeeKeys := registered }
        { logs, promise := some (.deleteKeys ks) }
  | askToInitiate (locked : v.unlocked = false) (none_ : v.recovery = none) :
      Move env current v (.call .initiateRecovery) v { promise := some .isCeasedToInitiate }
  | initiate (none_ : v.recovery = none) (finalizeBefore : Nat) :
      Move env current v (.callback (.promise .isCeasedToInitiate) (.value true))
        { v with recovery := some ⟨env.blockTimestamp, env.blockTimestamp + cessationDelayNs, finalizeBefore,
            .cessation⟩ }
        { logs := ["recovery_initiated_cessation"] }
  | exit (locked : v.unlocked = false) (parent : env.predecessor = v.parent) (none_ : v.recovery = none)
      (finalizeBefore : Nat) :
      Move env current v (.call .unilateralInitiateRecovery)
        { v with recovery := some ⟨env.blockTimestamp, env.blockTimestamp + v.unilateralExitWindowSecs * secondNs,
            finalizeBefore, .unilateral⟩ }
        { logs := ["recovery_initiated_unilateral"] }
  | setWindow (secs : Nat) (logs : List String) (parent : env.predecessor = v.parent)
      (low : minUnilateralExitWindowSecs ≤ secs) (high : secs ≤ maxUnilateralExitWindowSecs) :
      Move env current v (.call (.setExitWindow secs)) { v with unilateralExitWindowSecs := secs } { logs }
  /-- `finalize_recovery`, within the window or past it -/
  | finalize (k : PublicKey) (r : RecoveryState) (v' : Vault) (o : Outcome) (locked : v.unlocked = false)
      (parent : env.predecessor = v.parent) (recovery : v.recovery = some r)
      (elapsed : r.finalizeAfter ≤ env.blockTimestamp)
      (result : v' = { v with recovery := none } ∧ o.promise = none ∨
        v' = v ∧ (o.promise = some (.isCeasedToFinalize k) ∨ o.promise = some (v.dispatchSwap k false))) :
      Move env current v (.call (.finalizeRecovery k)) v' o
  /-- `callback_finalize`, on whatever recovery there is -/
  | finalized (k : PublicKey) (answer : Answer) (v' : Vault) (o : Outcome)
      (result : (v' = v ∨ v' = { v with recovery := none }) ∧ o.promise = none ∨
        v' = v ∧ o.promise = some (v.dispatchSwap k true)) :
      Move env current v (.callback (.promise (.isCeasedToFinalize k)) answer) v' o
  | unlock (cessation : Bool) (answer : Answer) (o : Outcome) (promise : o.promise = none) :
      Move env current v (.callback (.swapped cessation true) answer)
        { v with unlocked := true, recovery := none, initialTeeKey := none, registeredTeeKeys := [] } o
  | swapFailed (cessation : Bool) (answer : Answer) (o : Outcome) (promise : o.promise = none) :
      Move env current v (.callback (.swapped cessation false) answer) v o
  | addKey (k : PublicKey) (fullAccess : Bool) (allowance : Option Nat) (permission : Permission)
      (unlocked : v.unlocked = true) (parent : env.predecessor = v.parent) :
      Move env current v (.call (.unlockedAddKey k fullAccess allowance)) v
        { promise := some (.addKey k permission) }

section Executions
variable {env : Env} {current : AccountId} {v v' : Vault} {o : Outcome}

theorem finalizeRecovery_move {k : PublicKey} (h : finalizeRecovery env v k = .ok (v', o)) :
    Move env current v (.call (.finalizeRecovery k)) v' o := by
  simp only [finalizeRecovery, bind_eq_ok, require_eq_ok, expect_eq_ok] at h
  obtain ⟨_, hlocked, _, hparent, r, hr, _, helapsed, h⟩ := h
  refine .finalize k r v' o hlocked hparent hr helapsed ?_
  split at h
  · cases h
    exact Or.inl ⟨rfl, rfl⟩
  · right
    cases htrigger : r.trigger with
    | cessation =>
        rw [htrigger] at h
        cases h
        exact ⟨rfl, Or.inl rfl⟩
    | unilateral =>
        rw [htrigger] at h
        cases h
        exact ⟨rfl, Or.inr rfl⟩

/-- **Inversion.** A call that went through made one of the moves. -/
theorem exec_move {call : Call} (h : exec env current v call = .ok (v', o)) :
    Move env current v (.call call) v' o := by
  simp only [exec, bind_eq_ok, require_eq_ok] at h
  obtain ⟨_, -, h⟩ := h
  cases call with
  | proposeTeeKey k =>
      simp only [runCall, proposeTeeKey, bind_eq_ok, require_eq_ok, pure_eq_ok] at h
      obtain ⟨_, hlocked, _, -, _, -, _, -, h⟩ := h
      cases h
      exact .propose k hlocked
  | requestMaster request =>
      simp only [runCall, requestMaster, bind_eq_ok, require_eq_ok, pure_eq_ok] at h
      obtain ⟨_, -, _, hlocked, h⟩ := h
      cases h
      exact .requestMaster request _ hlocked
  | clearUnusedTeeKeys ks =>
      simp only [runCall, clearUnusedTeeKeys, bind_eq_ok, require_eq_ok, pure_eq_ok] at h
      obtain ⟨_, hparent, _, -, _, hnodup, _, hleft, registered, hunlist, h⟩ := h
      cases h
      exact .clear ks registered _ hparent hnodup hleft hunlist
  | initiateRecovery =>
      simp only [runCall, initiateRecovery, bind_eq_ok, require_eq_ok, pure_eq_ok] at h
      obtain ⟨_, hlocked, _, hnone, h⟩ := h
      cases h
      exact .askToInitiate hlocked hnone
  | unilateralInitiateRecovery =>
      simp only [runCall, unilateralInitiateRecovery, bind_eq_ok, require_eq_ok, mul_eq_ok, add_eq_ok,
        pure_eq_ok] at h
      obtain ⟨_, hlocked, _, hparent, _, hnone, _, ⟨-, rfl⟩, _, ⟨-, rfl⟩, _, ⟨-, rfl⟩, h⟩ := h
      cases h
      exact .exit hlocked hparent hnone _
  | setExitWindow secs =>
      simp only [runCall, setExitWindow, assertExitWindowInRange, bind_eq_ok, require_eq_ok, pure_eq_ok] at h
      obtain ⟨_, hparent, _, ⟨hlow, hhigh⟩, h⟩ := h
      cases h
      exact .setWindow secs _ hparent hlow hhigh
  | finalizeRecovery k => exact finalizeRecovery_move h
  | unlockedAddKey k fullAccess allowance =>
      simp only [runCall, unlockedAddKey, bind_eq_ok, require_eq_ok] at h
      obtain ⟨_, hunlocked, _, hparent, h⟩ := h
      split at h
      · cases h
        exact .addKey k _ allowance _ hunlocked hparent
      · simp only [bind_eq_ok, require_eq_ok, pure_eq_ok] at h
        obtain ⟨_, -, h⟩ := h
        cases h
        exact .addKey k _ allowance _ hunlocked hparent

theorem result_eq_ok {answer : Answer} {r : Option Bool} (h : answer.result = .ok r) :
    r = none ∨ ∃ b, answer = .value b ∧ r = some b := by
  cases answer with
  | value b =>
      cases h
      exact Or.inr ⟨b, rfl, rfl⟩
  | failed =>
      cases h
      exact Or.inl rfl
  | unreadable => cases h

theorem callbackFinalize_move {k : PublicKey} {answer : Answer} {r : Option Bool}
    (h : callbackFinalize env v k r = (v', o)) :
    Move env current v (.callback (.promise (.isCeasedToFinalize k)) answer) v' o := by
  refine .finalized k answer v' o ?_
  unfold callbackFinalize at h
  split at h
  · cases h
    exact Or.inl ⟨Or.inl rfl, rfl⟩
  · split at h
    · cases h
      exact Or.inl ⟨Or.inr rfl, rfl⟩
    · split at h
      · cases h
        exact Or.inl ⟨Or.inl rfl, rfl⟩
      · cases h
        exact Or.inl ⟨Or.inr rfl, rfl⟩
      · cases h
        exact Or.inr ⟨rfl, rfl⟩

/-- **Inversion.** A callback that did not panic made one of the moves. -/
theorem callback_move {r : Receipt} {answer : Answer}
    (h : r.callback env v answer = some (.ok (v', o))) : Move env current v (.callback r answer) v' o := by
  cases r with
  | promise p =>
      cases p with
      | isKeystoreApproved k =>
          have hrun := Option.some.inj h
          simp only [callbackAddTeeKey, bind_eq_ok, expect_eq_ok, require_eq_ok, pure_eq_ok] at hrun
          obtain ⟨result, hresult, approved, rfl, _, rfl, _, hinitial, _, hlisted, _, hroom, hrun⟩ := hrun
          cases hrun
          rcases result_eq_ok hresult with hnone | ⟨b, rfl, hb⟩
          · cases hnone
          · cases hb
            exact .register k hinitial hlisted hroom
      | isCeasedToInitiate =>
          have hrun := Option.some.inj h
          simp only [callbackInitiate, bind_eq_ok, expect_eq_ok, require_eq_ok, add_eq_ok, pure_eq_ok] at hrun
          obtain ⟨result, hresult, ceased, rfl, _, rfl, _, hnone, _, ⟨-, rfl⟩, _, ⟨-, rfl⟩, hrun⟩ := hrun
          cases hrun
          rcases result_eq_ok hresult with hfailed | ⟨b, rfl, hb⟩
          · cases hfailed
          · cases hb
            exact .initiate hnone _
      | isCeasedToFinalize k =>
          have hrun := Option.some.inj h
          simp only [bind_eq_ok, pure_eq_ok] at hrun
          obtain ⟨result, -, hrun⟩ := hrun
          exact callbackFinalize_move hrun
      | addTeeKey k => cases h
      | deleteKeys ks => cases h
      | swap deleted k cessation => cases h
      | addKey k permission => cases h
      | requestAppPrivateKey receiver args => cases h
  | swapped cessation ok =>
      have hrun := Option.some.inj h
      simp only [pure_eq_ok] at hrun
      cases ok with
      | true =>
          cases hrun
          exact .unlock cessation answer _ rfl
      | false =>
          cases hrun
          exact .swapFailed cessation answer _ rfl

end Executions

/-! ## Steps of the chain -/

section Projections
variable {w : Chain} {v : Vault} {o : Outcome} {n m : Nat} {r : Receipt} {p : Promise} {ok : Bool}

@[simp] theorem after_vault : (w.after v o).vault = v := by
  unfold Chain.after
  split <;> rfl

@[simp] theorem after_keys : (w.after v o).keys = w.keys := by
  unfold Chain.after
  split <;> rfl

@[simp] theorem after_account : (w.after v o).account = w.account := by
  unfold Chain.after
  split <;> rfl

@[simp] theorem report_vault : (w.report p ok).vault = w.vault := by
  unfold Chain.report
  split <;> rfl

@[simp] theorem report_keys : (w.report p ok).keys = w.keys := by
  unfold Chain.report
  split <;> rfl

@[simp] theorem report_account : (w.report p ok).account = w.account := by
  unfold Chain.report
  split <;> rfl

theorem send_inFlight {r' : Receipt} (h : (w.send r').inFlight.lookup n = some r) :
    w.inFlight.lookup n = some r ∨ n = w.nextReceipt ∧ r = r' := by
  change (w.inFlight.insert w.nextReceipt r').lookup n = some r at h
  rw [LookupMap.lookup_insert_iff] at h
  split at h
  · next hn => exact Or.inr ⟨hn, (Option.some.inj h).symm⟩
  · exact Or.inl h

/-- What is in flight after an execution was in flight before, or is the promise just made. -/
theorem after_inFlight (h : (w.after v o).inFlight.lookup n = some r) :
    w.inFlight.lookup n = some r ∨ ∃ p, o.promise = some p ∧ n = w.nextReceipt ∧ r = .promise p := by
  unfold Chain.after at h
  split at h
  · exact Or.inl h
  · exact Or.inl h
  · next p _ hp =>
      rcases send_inFlight h with h | ⟨hn, rfl⟩
      · exact Or.inl h
      · exact Or.inr ⟨p, hp, hn, rfl⟩

theorem spend_inFlight (h : (w.spend m).inFlight.lookup n = some r) :
    n ≠ m ∧ w.inFlight.lookup n = some r :=
  LookupMap.lookup_of_erase h

/-- What is in flight after a batch was in flight before, or is the callback of a swap. -/
theorem report_inFlight (h : (w.report p ok).inFlight.lookup n = some r) :
    w.inFlight.lookup n = some r ∨
      ∃ deleted k cessation, p = .swap deleted k cessation ∧ r = .swapped cessation ok := by
  unfold Chain.report at h
  split at h
  · next deleted k cessation =>
      rcases send_inFlight h with h | ⟨-, rfl⟩
      · exact Or.inl h
      · exact Or.inr ⟨deleted, k, cessation, rfl, rfl⟩
  · exact Or.inl h

end Projections

/-- The steps: an execution of the contract, a receipt used up in vain, a batch applied or refused, and keys
    changed directly. -/
inductive StepCase (t : Step) : Prop
  | call (env : Env) (call : Call) (v : Vault) (event : t.event = .call env call)
      (move : Move env t.pre.account t.pre.vault (.call call) v t.out) (post : t.post = t.pre.after v t.out)
  | callback (env : Env) (n : Nat) (r : Receipt) (answer : Answer) (v : Vault)
      (event : t.event = .callback env n answer) (held : t.pre.inFlight.lookup n = some r)
      (move : Move env t.pre.account t.pre.vault (.callback r answer) v t.out)
      (post : t.post = (t.pre.spend n).after v t.out)
  | lost (n : Nat) (out : t.out = {}) (post : t.post = t.pre.spend n)
  | applied (n : Nat) (p : Promise) (origin : KeyOrigin) (actions : List KeyAction) (keys : Keys)
      (event : t.event = .batch n false) (held : t.pre.inFlight.lookup n = some (.promise p))
      (batch : p.batch t.pre.account = some (origin, actions))
      (applied : applyBatch origin t.pre.keys actions = some keys) (out : t.out = {})
      (post : t.post = ({ t.pre.spend n with keys := keys }).report p true)
  | refused (n : Nat) (p : Promise) (held : t.pre.inFlight.lookup n = some (.promise p)) (out : t.out = {})
      (post : t.post = (t.pre.spend n).report p false)
  | signed (signer : PublicKey) (origin : KeyOrigin) (actions : List KeyAction) (keys : Keys)
      (holder : t.pre.keys.lookup signer = some ⟨.fullAccess, origin⟩)
      (applied : applyBatch .other t.pre.keys actions = some keys) (out : t.out = {})
      (post : t.post = { t.pre with keys := keys })

/-- **Inversion.** Every step is one of the six cases. -/
theorem step_cases {t : Step} (h : Fires Chain.next t) : StepCase t := by
  obtain ⟨w, e, o, w'⟩ := t
  change Chain.next w e = some (w', o) at h
  cases e with
  | call env call =>
      unfold Chain.next at h
      dsimp only at h
      split at h
      · next v o' hrun =>
          cases h
          exact .call env call v rfl (exec_move hrun) rfl
      · cases h
  | callback env n answer =>
      simp only [Chain.next, Option.bind_eq_bind, Option.bind_eq_some_iff] at h
      obtain ⟨r, hr, run, hrun, h⟩ := h
      unfold Chain.resume at h
      split at h
      · next v o' =>
          cases h
          exact .callback env n r answer v rfl hr (callback_move hrun) rfl
      · cases h
        exact .lost n rfl rfl
  | outOfGas n =>
      simp only [Chain.next, Option.bind_eq_bind, Option.bind_eq_some_iff] at h
      obtain ⟨r, hr, h⟩ := h
      split at h
      · cases h
        exact .lost n rfl rfl
      · cases h
  | batch n refused =>
      unfold Chain.next at h
      dsimp only at h
      split at h
      · next p hp =>
          obtain ⟨⟨origin, actions⟩, hbatch, h⟩ := Option.map_eq_some_iff.mp h
          cases h
          cases refused with
          | true => exact .refused n p hp rfl rfl
          | false =>
              -- a batch that does not apply ends like one that is refused
              cases happ : applyBatch origin w.keys actions with
              | none => exact .refused n p hp rfl (by simp [Chain.runBatch, happ])
              | some keys =>
                  exact .applied n p origin actions keys rfl hp hbatch happ rfl (by simp [Chain.runBatch, happ])
      · cases h
  | signed signer actions =>
      unfold Chain.next at h
      dsimp only at h
      split at h
      · next origin hkey =>
          obtain ⟨keys, happ, h⟩ := Option.map_eq_some_iff.mp h
          cases h
          exact .signed signer origin actions keys hkey happ rfl rfl
      · cases h

/-- The contract ran, for a call or for a callback, or its state is what it was. -/
theorem step_vault {t : Step} (h : Fires Chain.next t) :
    (∃ env call, t.event = .call env call ∧
        Move env t.pre.account t.pre.vault (.call call) t.post.vault t.out) ∨
      (∃ env n r answer, t.event = .callback env n answer ∧ t.pre.inFlight.lookup n = some r ∧
        Move env t.pre.account t.pre.vault (.callback r answer) t.post.vault t.out) ∨
      t.post.vault = t.pre.vault ∧ t.out.promise = none := by
  cases step_cases h with
  | call env call v event move post =>
      rw [post, after_vault]
      exact Or.inl ⟨env, call, event, move⟩
  | callback env n r answer v event held move post =>
      rw [post, after_vault]
      exact Or.inr (Or.inl ⟨env, n, r, answer, event, held, move⟩)
  | lost n out post =>
      rw [post, out]
      exact Or.inr (Or.inr ⟨rfl, rfl⟩)
  | applied n p origin actions keys event held batch applied out post =>
      rw [post, report_vault, out]
      exact Or.inr (Or.inr ⟨rfl, rfl⟩)
  | refused n p held out post =>
      rw [post, report_vault, out]
      exact Or.inr (Or.inr ⟨rfl, rfl⟩)
  | signed signer origin actions keys holder applied out post =>
      rw [post, out]
      exact Or.inr (Or.inr ⟨rfl, rfl⟩)

/-- A receipt in flight was in flight before, or is the promise of this step, or reports a swap that was in
    flight. -/
theorem step_receipt {t : Step} (h : Fires Chain.next t) {n : Nat} {r : Receipt}
    (hr : t.post.inFlight.lookup n = some r) :
    t.pre.inFlight.lookup n = some r ∨ (∃ p, t.out.promise = some p ∧ r = .promise p) ∨
      ∃ m deleted k cessation ok, t.pre.inFlight.lookup m = some (.promise (.swap deleted k cessation)) ∧
        r = .swapped cessation ok := by
  cases step_cases h with
  | call env call v event move post =>
      rw [post] at hr
      rcases after_inFlight hr with hr | ⟨p, hp, -, rfl⟩
      · exact Or.inl hr
      · exact Or.inr (Or.inl ⟨p, hp, rfl⟩)
  | callback env m r' answer v event held move post =>
      rw [post] at hr
      rcases after_inFlight hr with hr | ⟨p, hp, -, rfl⟩
      · exact Or.inl (spend_inFlight hr).2
      · exact Or.inr (Or.inl ⟨p, hp, rfl⟩)
  | lost m out post =>
      rw [post] at hr
      exact Or.inl (spend_inFlight hr).2
  | applied m p origin actions keys event held batch applied out post =>
      rw [post] at hr
      rcases report_inFlight hr with hr | ⟨deleted, k, cessation, rfl, rfl⟩
      · exact Or.inl (spend_inFlight hr).2
      · exact Or.inr (Or.inr ⟨m, deleted, k, cessation, true, held, rfl⟩)
  | refused m p held out post =>
      rw [post] at hr
      rcases report_inFlight hr with hr | ⟨deleted, k, cessation, rfl, rfl⟩
      · exact Or.inl (spend_inFlight hr).2
      · exact Or.inr (Or.inr ⟨m, deleted, k, cessation, false, held, rfl⟩)
  | signed signer origin actions keys holder applied out post =>
      rw [post] at hr
      exact Or.inl hr

end Vault

end Outlayer
