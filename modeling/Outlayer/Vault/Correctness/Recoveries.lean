import Outlayer.Vault.Correctness.TeeKeys

/-!
# `Vault.Correctness.Recoveries` — a recovery that is over

`finalize_recovery` looks at the recovery in force, and what it starts comes to its end several receipts later. The
callbacks do not know which recovery they are for: `callback_finalize` takes the one in force then, whenever it was
initiated, and `callback_initiate` does not look whether the vault was unlocked meanwhile. So what a finalization
left in flight can act on a recovery initiated later, and an unlocked vault can have a recovery. Where no recovery is
initiated between a finalization and a callback of it, and none on an unlocked vault, neither happens: every swap
belongs to the recovery that `finalize_recovery` checked.
-/

namespace Outlayer
open Checked Collections Runs

namespace Vault

/-! ## Where a receipt comes from -/

/-- The receipt `n`, holding `r`, goes back to the call of `finalize_recovery` at step `f`; the steps since then are
    listed. The call sends the question to the DAO or a swap, the answer sends a swap, and a swap its result. -/
inductive GoesBack (f : Step) : List Step → Nat → Receipt → Prop
  | sent (env : Env) (k : PublicKey) (p : Promise) (event : f.event = .call env (.finalizeRecovery k))
      (promise : f.out.promise = some p) : GoesBack f [] f.pre.nextReceipt (.promise p)
  | kept {tr : List Step} {n : Nat} {r : Receipt} (t : Step) (before : GoesBack f tr n r)
      (held : t.post.inFlight.lookup n = some r) : GoesBack f (tr ++ [t]) n r
  | answered {tr : List Step} {m : Nat} {k : PublicKey} (t : Step) (env : Env) (answer : Answer)
      (deleted : List PublicKey) (cessation : Bool) (before : GoesBack f tr m (.promise (.isCeasedToFinalize k)))
      (event : t.event = .callback env m answer) (promise : t.out.promise = some (.swap deleted k cessation)) :
      GoesBack f (tr ++ [t]) t.pre.nextReceipt (.promise (.swap deleted k cessation))
  | reported {tr : List Step} {m : Nat} {deleted : List PublicKey} {k : PublicKey} {cessation : Bool} (t : Step)
      (refused ok : Bool) (before : GoesBack f tr m (.promise (.swap deleted k cessation)))
      (event : t.event = .batch m refused) : GoesBack f (tr ++ [t]) t.pre.nextReceipt (.swapped cessation ok)

/-- A question to the DAO was sent by the call itself. -/
theorem GoesBack.asked {f : Step} {tr : List Step} {n : Nat} {r : Receipt} (h : GoesBack f tr n r) {k : PublicKey}
    (hr : r = .promise (.isCeasedToFinalize k)) : f.out.promise = some (.isCeasedToFinalize k) := by
  induction h with
  | sent env k' p event promise =>
      cases hr
      exact promise
  | kept t before held ih => exact ih hr
  | answered t env answer deleted cessation before event promise ih => cases hr
  | reported t refused ok before event ih => cases hr

/-! ## Executions, in full -/

/-- A call that went through, as the method ran. -/
theorem call_fires {t : Step} (h : Fires Chain.next t) {env : Env} {call : Call} (event : t.event = .call env call) :
    exec env t.pre.account t.pre.vault call = .ok (t.post.vault, t.out) := by
  obtain ⟨w, e, o, w'⟩ := t
  change e = .call env call at event
  subst event
  change Chain.next w (.call env call) = some (w', o) at h
  unfold Chain.next at h
  dsimp only at h
  split at h
  · next v o' hrun =>
      cases h
      rw [after_vault]
      exact hrun
  · cases h

/-- A callback, as it ran; one that panicked changed nothing. -/
theorem callback_fires {t : Step} (h : Fires Chain.next t) {env : Env} {n : Nat} {answer : Answer}
    (event : t.event = .callback env n answer) :
    ∃ r, t.pre.inFlight.lookup n = some r ∧
      (r.callback env t.pre.vault answer = some (.ok (t.post.vault, t.out)) ∨
        t.post.vault = t.pre.vault ∧ t.out = {}) := by
  obtain ⟨w, e, o, w'⟩ := t
  change e = .callback env n answer at event
  subst event
  change Chain.next w (.callback env n answer) = some (w', o) at h
  simp only [Chain.next, Option.bind_eq_bind, Option.bind_eq_some_iff] at h
  obtain ⟨r, hr, run, hrun, h⟩ := h
  refine ⟨r, hr, ?_⟩
  unfold Chain.resume at h
  split at h
  · next v o' =>
      cases h
      left
      rw [after_vault]
      exact hrun
  · cases h
    exact Or.inr ⟨rfl, rfl⟩

/-- What `finalize_recovery` asks for goes by the trigger of the recovery it found. -/
theorem finalizeRecovery_promise {env : Env} {v v' : Vault} {k : PublicKey} {o : Outcome}
    (h : finalizeRecovery env v k = .ok (v', o)) {p : Promise} (hp : o.promise = some p) :
    ∃ r, v.recovery = some r ∧ r.finalizeAfter ≤ env.blockTimestamp ∧ env.predecessor = v.parent ∧ v' = v ∧
      (r.trigger = .cessation ∧ p = .isCeasedToFinalize k ∨
        r.trigger = .unilateral ∧ p = v.dispatchSwap k false) := by
  simp only [finalizeRecovery, bind_eq_ok, require_eq_ok, expect_eq_ok] at h
  obtain ⟨_, -, _, hparent, r, hr, _, helapsed, h⟩ := h
  split at h
  · cases h
    cases hp
  · refine ⟨r, hr, helapsed, hparent, ?_⟩
    cases htrigger : r.trigger with
    | cessation =>
        rw [htrigger] at h
        cases h
        exact ⟨rfl, Or.inl ⟨rfl, (Option.some.inj hp).symm⟩⟩
    | unilateral =>
        rw [htrigger] at h
        cases h
        exact ⟨rfl, Or.inr ⟨rfl, (Option.some.inj hp).symm⟩⟩

/-- The callback does something when there is a recovery: the swap succeeded, the DAO answered, or it did not and it
    is too late. -/
def Receipt.acts (env : Env) (r : RecoveryState) (answer : Answer) : Receipt → Bool
  | .swapped _ ok                    => ok
  | .promise (.isCeasedToFinalize _) =>
      match answer with
      | .value _    => true
      | .failed     => decide (r.finalizeBefore < env.blockTimestamp)
      | .unreadable => false
  | _                                => false

/-- `callback_finalize` leaves the recovery alone, unless it is one that acts. -/
theorem callbackFinalize_acts {env : Env} {v v' : Vault} {k : PublicKey} {answer : Answer} {result : Option Bool}
    {o : Outcome} (hanswer : answer.result = .ok result) (h : callbackFinalize env v k result = (v', o))
    (hdone : v' ≠ v ∨ o.promise ≠ none) :
    ∃ r, v.recovery = some r ∧
      (Receipt.promise (.isCeasedToFinalize k)).acts env r answer = true ∧
      (o.promise ≠ none → o.promise = some (v.dispatchSwap k true)) := by
  have hidle : ∀ P : Prop, v' = v → o.promise = none → P := by
    intro P hv ho
    rcases hdone with hdone | hdone
    · exact absurd hv hdone
    · exact absurd ho hdone
  unfold callbackFinalize at h
  split at h
  · cases h
    exact hidle _ rfl rfl
  · next r hr =>
      refine ⟨r, hr, ?_⟩
      split at h
      · next hlate =>
          cases h
          refine ⟨?_, fun hp => absurd rfl hp⟩
          cases answer with
          | value b => rfl
          | failed => exact decide_eq_true hlate
          | unreadable => cases hanswer
      · rcases result_eq_ok hanswer with rfl | ⟨b, rfl, rfl⟩
        · cases h
          exact hidle _ rfl rfl
        · refine ⟨rfl, ?_⟩
          cases b with
          | true =>
              cases h
              exact fun _ => rfl
          | false =>
              cases h
              exact fun hp => absurd rfl hp

/-! ## Receipts of finalizations -/

/-- A promise on the way to an unlocking was on its way before, or is sent by `finalize_recovery`, or by the answer
    to it. -/
theorem finalizing_promise_step {t : Step} (h : Fires Chain.next t) {n : Nat} {p : Promise}
    (hr : t.post.inFlight.lookup n = some (.promise p)) (hfinal : (Receipt.promise p).finalizes = true) :
    t.pre.inFlight.lookup n = some (.promise p) ∨
      n = t.pre.nextReceipt ∧ t.out.promise = some p ∧
        ((∃ env k, t.event = .call env (.finalizeRecovery k)) ∨
          ∃ env m answer k deleted cessation, t.event = .callback env m answer ∧
            t.pre.inFlight.lookup m = some (.promise (.isCeasedToFinalize k)) ∧ p = .swap deleted k cessation) := by
  cases step_cases h with
  | call env call v event move post =>
      rw [post] at hr
      rcases after_inFlight hr with hr | ⟨p', hp, hn, heq⟩
      · exact Or.inl hr
      · cases heq
        refine Or.inr ⟨hn, hp, Or.inl ⟨env, ?_⟩⟩
        generalize t.out = o at hp move
        cases move with
        | finalize k r v' o locked parent recovery elapsed result => exact ⟨k, event⟩
        | exit locked parent none_ finalizeBefore => cases hp
        | setWindow secs logs parent low high => cases hp
        | _ =>
            cases hp
            cases hfinal
  | callback env m r answer v event held move post =>
      rw [post] at hr
      rcases after_inFlight hr with hr | ⟨p', hp, hn, heq⟩
      · exact Or.inl (spend_inFlight hr).2
      · cases heq
        refine Or.inr ⟨hn, hp, Or.inr ⟨env, m, answer, ?_⟩⟩
        generalize t.out = o at hp move
        cases move with
        | register k notInitial unlisted room =>
            cases hp
            cases hfinal
        | initiate none_ finalizeBefore => cases hp
        | finalized k answer v' o result =>
            rcases result with ⟨-, hnone⟩ | ⟨-, hswap⟩
            · rw [hnone] at hp
              cases hp
            · rw [hswap] at hp
              cases hp
              exact ⟨k, _, _, event, held, rfl⟩
        | unlock cessation answer o promise =>
            rw [promise] at hp
            cases hp
        | swapFailed cessation answer o promise =>
            rw [promise] at hp
            cases hp
  | lost m out post =>
      rw [post] at hr
      exact Or.inl (spend_inFlight hr).2
  | applied m p' origin actions keys event held batch applied out post =>
      rw [post] at hr
      rcases report_inFlight hr with hr | ⟨deleted, k, cessation, -, heq⟩
      · exact Or.inl (spend_inFlight hr).2
      · cases heq
  | refused m p' held out post =>
      rw [post] at hr
      rcases report_inFlight hr with hr | ⟨deleted, k, cessation, -, heq⟩
      · exact Or.inl (spend_inFlight hr).2
      · cases heq
  | signed signer origin actions keys holder applied out post =>
      rw [post] at hr
      exact Or.inl hr

/-- What a batch leaves in flight was in flight before, or is the result of a swap. -/
theorem runBatch_inFlight {w : Chain} {m n : Nat} {p : Promise} {refused : Bool} {origin : KeyOrigin}
    {actions : List KeyAction} {r : Receipt}
    (hr : (w.runBatch m p refused origin actions).inFlight.lookup n = some r) :
    w.inFlight.lookup n = some r ∨
      n = w.nextReceipt ∧ ∃ deleted k cessation ok, p = .swap deleted k cessation ∧ r = .swapped cessation ok := by
  have hreport : ∀ keys ok, (({ w.spend m with keys := keys }).report p ok).inFlight.lookup n = some r →
      w.inFlight.lookup n = some r ∨
        n = w.nextReceipt ∧ ∃ deleted k cessation ok, p = .swap deleted k cessation ∧ r = .swapped cessation ok := by
    intro keys ok hr
    cases p with
    | swap deleted k cessation =>
        rcases send_inFlight hr with hr | ⟨hn, heq⟩
        · exact Or.inl (spend_inFlight hr).2
        · exact Or.inr ⟨hn, deleted, k, cessation, ok, rfl, heq⟩
    | _ => exact Or.inl (spend_inFlight hr).2
  unfold Chain.runBatch at hr
  split at hr
  · exact hreport _ _ hr
  · exact hreport w.keys _ hr

/-- The result of a swap is in flight from the execution of the swap on. -/
theorem swapped_step {t : Step} (h : Fires Chain.next t) {n : Nat} {cessation ok : Bool}
    (hr : t.post.inFlight.lookup n = some (.swapped cessation ok)) :
    t.pre.inFlight.lookup n = some (.swapped cessation ok) ∨
      n = t.pre.nextReceipt ∧ ∃ m refused deleted k, t.event = .batch m refused ∧
        t.pre.inFlight.lookup m = some (.promise (.swap deleted k cessation)) := by
  rcases step_receipt h hr with hold | ⟨p, -, heq⟩ | ⟨m', deleted', k', cessation', ok', -, -⟩
  · exact Or.inl hold
  · cases heq
  obtain ⟨w, e, o, w'⟩ := t
  change Chain.next w e = some (w', o) at h
  cases e with
  | batch m refused =>
      unfold Chain.next at h
      dsimp only at h
      split at h
      · next p hp =>
          obtain ⟨⟨origin, actions⟩, hbatch, h⟩ := Option.map_eq_some_iff.mp h
          cases h
          rcases runBatch_inFlight hr with hr | ⟨hn, deleted, k, c, ok', rfl, heq⟩
          · exact Or.inl hr
          · cases heq
            exact Or.inr ⟨hn, m, refused, deleted, k, rfl, hp⟩
      · cases h
  -- nothing else reports a swap
  | call env call =>
      unfold Chain.next at h
      dsimp only at h
      split at h
      · cases h
        rcases after_inFlight hr with hr | ⟨p, -, -, heq⟩
        · exact Or.inl hr
        · cases heq
      · cases h
  | callback env m answer =>
      simp only [Chain.next, Option.bind_eq_bind, Option.bind_eq_some_iff] at h
      obtain ⟨r, -, run, -, h⟩ := h
      unfold Chain.resume at h
      split at h
      · cases h
        rcases after_inFlight hr with hr | ⟨p, -, -, heq⟩
        · exact Or.inl (spend_inFlight hr).2
        · cases heq
      · cases h
        exact Or.inl (spend_inFlight hr).2
  | outOfGas m =>
      simp only [Chain.next, Option.bind_eq_bind, Option.bind_eq_some_iff] at h
      obtain ⟨r, -, h⟩ := h
      split at h
      · cases h
        exact Or.inl (spend_inFlight hr).2
      · cases h
  | signed signer actions =>
      unfold Chain.next at h
      dsimp only at h
      split at h
      · obtain ⟨keys, -, h⟩ := Option.map_eq_some_iff.mp h
        cases h
        exact Or.inl hr
      · cases h

/-- **Every receipt of a finalization goes back to a call of `finalize_recovery`.** -/
theorem goesBack_of_inFlight {w₀ : Chain} (hempty : ∀ n, w₀.inFlight.lookup n = none) {tr : List Step} {w : Chain}
    (h : Run Chain.next w₀ tr w) {n : Nat} {r : Receipt} (hr : w.inFlight.lookup n = some r)
    (hfinal : r.finalizes = true) : ∃ tr₁ f tr₂, tr = tr₁ ++ f :: tr₂ ∧ GoesBack f tr₂ n r := by
  induction h generalizing n r with
  | start =>
      rw [hempty] at hr
      cases hr
  | @step tr t hrun hf ih =>
      -- a receipt that stays in flight, or one sent by another: its history is longer by this step
      have hkept : t.pre.inFlight.lookup n = some r →
          ∃ tr₁ f tr₂, tr ++ [t] = tr₁ ++ f :: tr₂ ∧ GoesBack f tr₂ n r := by
        intro hpre
        obtain ⟨tr₁, f, tr₂, rfl, hback⟩ := ih hpre hfinal
        exact ⟨tr₁, f, tr₂ ++ [t], by simp, .kept t hback hr⟩
      cases r with
      | promise p =>
          rcases finalizing_promise_step hf hr hfinal with
            hpre | ⟨rfl, hp, ⟨env, k, event⟩ | ⟨env, m, answer, k, deleted, cessation, event, held, rfl⟩⟩
          · exact hkept hpre
          · exact ⟨tr, t, [], rfl, .sent env k p event hp⟩
          · obtain ⟨tr₁, f, tr₂, rfl, hback⟩ := ih held rfl
            exact ⟨tr₁, f, tr₂ ++ [t], by simp, .answered t env answer deleted cessation hback event hp⟩
      | swapped cessation ok =>
          rcases swapped_step hf hr with hpre | ⟨rfl, m, refused, deleted, k, event, held⟩
          · exact hkept hpre
          · obtain ⟨tr₁, f, tr₂, rfl, hback⟩ := ih held rfl
            exact ⟨tr₁, f, tr₂ ++ [t], by simp, .reported t refused ok hback event⟩

/-! ## The property, and the orders it needs -/

/-- The step initiates a recovery. -/
def Step.Starts (t : Step) : Prop := t.pre.vault.recovery = none ∧ t.post.vault.recovery ≠ none

/-- What step `t` does, after the steps `tr`, it does for the recovery `r` that `finalize_recovery` checked: it is
    that call, or a callback that goes back to that call, and `r` has been in force since. -/
inductive Belongs (tr : List Step) (t : Step) (r : RecoveryState) : Prop
  | called (finalizes : t.Finalizes r)
  | resumed (tr₁ : List Step) (f : Step) (tr₂ : List Step) (env : Env) (n : Nat) (answer : Answer)
      (receipt : Receipt) (split : tr = tr₁ ++ f :: tr₂) (finalizes : f.Finalizes r)
      (event : t.event = .callback env n answer) (held : t.pre.inFlight.lookup n = some receipt)
      (back : GoesBack f tr₂ n receipt)
      (inForce : ∀ u ∈ tr₂, u.pre.vault.recovery = some r ∧ u.post.vault.recovery = some r)
      (still : t.pre.vault.recovery = some r)

/-- The trigger a swap is reported under. -/
def swapTrigger (cessation : Bool) : RecoveryTrigger := if cessation then .cessation else .unilateral

/-- A recovery that is over stays over: an unlocked vault has none, every swap belongs to a recovery that
    `finalize_recovery` checked, of the trigger it is reported under, and a callback ends no other recovery. -/
structure RecoveriesOver (tr : List Step) (w : Chain) : Prop where
  unlocked : w.vault.unlocked = true → w.vault.recovery = none
  swaps : ∀ tr₁ t tr₂ deleted k cessation, tr = tr₁ ++ t :: tr₂ →
    t.out.promise = some (.swap deleted k cessation) → ∃ r, Belongs tr₁ t r ∧ r.trigger = swapTrigger cessation
  callbacks : ∀ tr₁ t tr₂ env n answer r, tr = tr₁ ++ t :: tr₂ → t.event = .callback env n answer →
    t.pre.vault.recovery = some r → t.post.vault.recovery ≠ some r → Belongs tr₁ t r

/-- No answer to `initiate_recovery` finds the vault unlocked, and no recovery is initiated between a call of
    `finalize_recovery` and a callback of it that acts. -/
structure Timely (tr : List Step) : Prop where
  initiations : ∀ t ∈ tr, ∀ env n, t.event = .callback env n (.value true) →
    t.pre.inFlight.lookup n = some (.promise .isCeasedToInitiate) → t.pre.vault.unlocked = false
  finalizations : ∀ tr₁ f tr₂ t tr₃ env n answer receipt r, tr = tr₁ ++ f :: tr₂ ++ t :: tr₃ →
    GoesBack f tr₂ n receipt → t.event = .callback env n answer → t.pre.inFlight.lookup n = some receipt →
    t.pre.vault.recovery = some r → receipt.acts env r answer = true → ∀ i ∈ tr₂, ¬ i.Starts

/-! ## Unlocked vaults -/

/-- A step that initiates a recovery finds the vault locked, or is the answer to `initiate_recovery`. -/
theorem settled_step {t : Step} (h : Fires Chain.next t)
    (hlocked : ∀ env n, t.event = .callback env n (.value true) →
      t.pre.inFlight.lookup n = some (.promise .isCeasedToInitiate) → t.pre.vault.unlocked = false)
    (hpre : t.pre.vault.unlocked = true → t.pre.vault.recovery = none) :
    t.post.vault.unlocked = true → t.post.vault.recovery = none := by
  rcases step_vault h with ⟨env, call, -, move⟩ | ⟨env, n, r, answer, event, held, move⟩ | ⟨hsame, -⟩
  · generalize t.post.vault = v at move ⊢
    generalize t.out = o at move
    cases move with
    | exit locked parent none_ finalizeBefore =>
        intro hunlocked
        rw [show t.pre.vault.unlocked = true from hunlocked] at locked
        cases locked
    | finalize k r v' o locked parent recovery elapsed result =>
        rcases result with ⟨rfl, -⟩ | ⟨rfl, -⟩
        · exact fun _ => rfl
        · exact hpre
    | _ => exact hpre
  · generalize t.post.vault = v at move ⊢
    generalize t.out = o at move
    cases move with
    | initiate none_ finalizeBefore =>
        intro hunlocked
        have hno := hlocked env n event held
        rw [show t.pre.vault.unlocked = true from hunlocked] at hno
        cases hno
    | finalized k answer v' o result =>
        rcases result with ⟨rfl | rfl, -⟩ | ⟨rfl, -⟩
        · exact hpre
        · exact fun _ => rfl
        · exact hpre
    | unlock cessation answer o promise => exact fun _ => rfl
    | _ => exact hpre
  · rw [hsame]
    exact hpre

/-! ## The recovery a callback finds -/

/-- A recovery in force at the end of a run that initiates none was in force all along. -/
theorem inForce_of_no_start {w₀ w : Chain} {tr : List Step} (h : Run Chain.next w₀ tr w)
    (hno : ∀ i ∈ tr, ¬ i.Starts) {r : RecoveryState} (hr : w.vault.recovery = some r) :
    w₀.vault.recovery = some r ∧ ∀ u ∈ tr, u.pre.vault.recovery = some r ∧ u.post.vault.recovery = some r := by
  induction h with
  | start => exact ⟨hr, fun u hu => absurd hu List.not_mem_nil⟩
  | @step tr t hrun hf ih =>
      have hpre : t.pre.vault.recovery = some r := by
        rcases recovery_step hf hr with hpre | ⟨hnone, -⟩
        · exact hpre
        · have hstart : Step.Starts t := ⟨hnone, by rw [hr]; exact Option.some_ne_none r⟩
          exact absurd hstart (hno t (by simp))
      obtain ⟨hfirst, hall⟩ := ih (fun i hi => hno i (List.mem_append_left _ hi)) hpre
      refine ⟨hfirst, ?_⟩
      intro u hu
      rcases List.mem_append.mp hu with hu | hu
      · exact hall u hu
      · obtain rfl := List.mem_singleton.mp hu
        exact ⟨hpre, hr⟩

/-- What goes back to a step goes back to a call of `finalize_recovery` that asked for something. -/
theorem GoesBack.call {f : Step} {tr : List Step} {n : Nat} {r : Receipt} (h : GoesBack f tr n r) :
    ∃ env k p, f.event = .call env (.finalizeRecovery k) ∧ f.out.promise = some p := by
  induction h with
  | sent env k p event promise => exact ⟨env, k, p, event, promise⟩
  | kept t before held ih => exact ih
  | answered t env answer deleted cessation before event promise ih => exact ih
  | reported t refused ok before event ih => exact ih

/-- A call of `finalize_recovery` that asks for something found a recovery past its delay, and leaves it in force. -/
theorem finalizes_of_promise {f : Step} (h : Fires Chain.next f) {env : Env} {k : PublicKey} {p : Promise}
    (event : f.event = .call env (.finalizeRecovery k)) (promise : f.out.promise = some p) :
    ∃ r, f.Finalizes r ∧ f.post.vault.recovery = some r ∧
      (r.trigger = .cessation ∧ p = .isCeasedToFinalize k ∨
        r.trigger = .unilateral ∧ p = f.pre.vault.dispatchSwap k false) := by
  have hexec := call_fires h event
  simp only [exec, bind_eq_ok, require_eq_ok, runCall] at hexec
  obtain ⟨_, -, hrun⟩ := hexec
  obtain ⟨r, hr, helapsed, hparent, hsame, hkind⟩ := finalizeRecovery_promise hrun promise
  refine ⟨r, ⟨⟨env, k, event, hparent, helapsed⟩, hr⟩, ?_, hkind⟩
  rw [hsame]
  exact hr

section Callbacks
variable {w₀ w : Chain} {tr₁ tr₂ : List Step} {t : Step} {env : Env} {n : Nat} {answer : Answer}
  {receipt : Receipt} {r : RecoveryState}

/-- **The recovery a callback finds.** In a timely run, a callback of a finalization that acts finds the recovery its
    call checked. -/
theorem belongs_of_acts (hempty : ∀ n, w₀.inFlight.lookup n = none)
    (h : Run Chain.next w₀ (tr₁ ++ t :: tr₂) w) (htimely : Timely (tr₁ ++ t :: tr₂))
    (event : t.event = .callback env n answer) (held : t.pre.inFlight.lookup n = some receipt)
    (hfinal : receipt.finalizes = true) (hr : t.pre.vault.recovery = some r)
    (hacts : receipt.acts env r answer = true) :
    Belongs tr₁ t r ∧ ∀ k, receipt = .promise (.isCeasedToFinalize k) → r.trigger = .cessation := by
  obtain ⟨hbefore, -, -⟩ := h.at_split
  obtain ⟨tr₀, f, trf, rfl, hback⟩ := goesBack_of_inFlight hempty hbefore held hfinal
  have hno := htimely.finalizations tr₀ f trf t tr₂ env n answer receipt r rfl hback event held hr hacts
  obtain ⟨-, hf, hsince⟩ := hbefore.at_split
  obtain ⟨hfirst, hforce⟩ := inForce_of_no_start hsince hno hr
  obtain ⟨envf, kf, p, hevent, hpromise⟩ := hback.call
  obtain ⟨rf, hfinalizes, hkept, hkind⟩ := finalizes_of_promise hf hevent hpromise
  -- the recovery found is the one checked: it was in force right after the call
  have hsame : rf = r := Option.some.inj (hkept.symm.trans hfirst)
  subst hsame
  refine ⟨.resumed tr₀ f trf env n answer receipt rfl hfinalizes event held hback hforce hr, ?_⟩
  intro k hk
  have hasked := hback.asked hk
  rw [hpromise] at hasked
  cases hasked
  rcases hkind with ⟨htrigger, -⟩ | ⟨-, hswap⟩
  · exact htrigger
  · cases hswap

/-- `callback_finalize` that changes the recovery or dispatches a swap. -/
theorem finalized_acts {v v' : Vault} {k : PublicKey} {o : Outcome} (hr : v.recovery = some r)
    (hrun : (Receipt.promise (.isCeasedToFinalize k)).callback env v answer = some (.ok (v', o)))
    (hdone : v'.recovery ≠ some r ∨ o.promise ≠ none) :
    (Receipt.promise (.isCeasedToFinalize k)).acts env r answer = true ∧
      (o.promise ≠ none → o.promise = some (v.dispatchSwap k true)) := by
  have hrun := Option.some.inj hrun
  simp only [bind_eq_ok, pure_eq_ok] at hrun
  obtain ⟨result, hanswer, hrun⟩ := hrun
  have hchange : v' ≠ v ∨ o.promise ≠ none := by
    rcases hdone with hdone | hdone
    · left
      rintro rfl
      exact hdone hr
    · exact Or.inr hdone
  obtain ⟨r', hr', hacts, hswap⟩ := callbackFinalize_acts hanswer hrun hchange
  have hsame : r' = r := Option.some.inj (hr'.symm.trans hr)
  subst hsame
  exact ⟨hacts, hswap⟩

/-- A callback that changes the recovery is one of a finalization, and acts. -/
theorem acts_of_change (h : Fires Chain.next t) (event : t.event = .callback env n answer)
    (hr : t.pre.vault.recovery = some r) (hdone : t.post.vault.recovery ≠ some r) :
    ∃ receipt, t.pre.inFlight.lookup n = some receipt ∧ receipt.finalizes = true ∧
      receipt.acts env r answer = true := by
  obtain ⟨receipt, held, hrun | ⟨hsame, -⟩⟩ := callback_fires h event
  · refine ⟨receipt, held, ?_⟩
    have hmove : Move env t.pre.account t.pre.vault (.callback receipt answer) t.post.vault t.out :=
      callback_move hrun
    generalize t.post.vault = v at hrun hmove hdone
    generalize t.out = o at hrun hmove
    cases hmove with
    | register k notInitial unlisted room => exact absurd hr hdone
    | initiate none_ finalizeBefore =>
        rw [none_] at hr
        cases hr
    | finalized k answer v' o result => exact ⟨rfl, (finalized_acts hr hrun (Or.inl hdone)).1⟩
    | unlock cessation answer o promise => exact ⟨rfl, rfl⟩
    | swapFailed cessation answer o promise => exact absurd hr hdone
  · rw [hsame] at hdone
    exact absurd hr hdone

/-- A swap is dispatched by `finalize_recovery`, for a unilateral recovery, or by `callback_finalize`. -/
theorem swap_dispatched (h : Fires Chain.next t) {deleted : List PublicKey} {k : PublicKey} {cessation : Bool}
    (hswap : t.out.promise = some (.swap deleted k cessation)) :
    (cessation = false ∧ ∃ r, t.Finalizes r ∧ r.trigger = .unilateral) ∨
      cessation = true ∧ ∃ env n answer r k', t.event = .callback env n answer ∧
        t.pre.inFlight.lookup n = some (.promise (.isCeasedToFinalize k')) ∧ t.pre.vault.recovery = some r ∧
        (Receipt.promise (.isCeasedToFinalize k')).acts env r answer = true := by
  rcases step_vault h with ⟨env, call, event, move⟩ | ⟨env, n, receipt, answer, event, held, move⟩ | ⟨-, hnone⟩
  · left
    have hcall : ∃ k', call = .finalizeRecovery k' := by
      generalize t.post.vault = v at move
      generalize t.out = o at hswap move
      cases move with
      | finalize k' r v' o locked parent recovery elapsed result => exact ⟨k', rfl⟩
      | _ => cases hswap
    obtain ⟨k', rfl⟩ := hcall
    obtain ⟨r, hfinalizes, -, ⟨-, hask⟩ | ⟨htrigger, hsame⟩⟩ := finalizes_of_promise h event hswap
    · cases hask
    · cases hsame
      exact ⟨rfl, r, hfinalizes, htrigger⟩
  · right
    have hreceipt : ∃ k', receipt = .promise (.isCeasedToFinalize k') := by
      generalize t.post.vault = v at move
      generalize t.out = o at hswap move
      cases move with
      | finalized k' answer v' o result => exact ⟨k', rfl⟩
      | unlock cessation answer o promise =>
          rw [promise] at hswap
          cases hswap
      | swapFailed cessation answer o promise =>
          rw [promise] at hswap
          cases hswap
      | _ => cases hswap
    obtain ⟨k', rfl⟩ := hreceipt
    have hsome : t.out.promise ≠ none := by
      rw [hswap]
      exact Option.some_ne_none _
    obtain ⟨receipt, held', hrun | ⟨-, hout⟩⟩ := callback_fires h event
    · rw [held] at held'
      cases held'
      cases hr : t.pre.vault.recovery with
      | none =>
          -- without a recovery the callback does nothing
          have hrun := Option.some.inj hrun
          simp only [bind_eq_ok, pure_eq_ok] at hrun
          obtain ⟨result, -, hrun⟩ := hrun
          simp only [callbackFinalize, hr] at hrun
          obtain ⟨-, hout⟩ := Prod.mk.inj hrun
          rw [← hout] at hswap
          cases hswap
      | some r =>
          obtain ⟨hacts, hsame⟩ := finalized_acts hr hrun (Or.inr hsome)
          have hflag := hsame hsome
          rw [hswap] at hflag
          injection hflag with hflag
          injection hflag with _ _ hflag
          exact ⟨hflag, env, n, answer, r, k', event, held, rfl, hacts⟩
    · rw [hout] at hsome
      exact absurd rfl hsome
  · rw [hnone] at hswap
    cases hswap

end Callbacks

/-! ## Recoveries that are over -/

/-- **A recovery that is over stays over**, in every history in which no answer to `initiate_recovery` finds the
    vault unlocked and no recovery is initiated between a finalization and a callback of it that acts. -/
theorem recoveries_over_when_timely {account parent keystoreDao mpcContract : AccountId}
    {initial : Option PublicKey} {window : Option Nat} {tr : List Step} {w : Chain}
    (h : Chain.History account parent keystoreDao mpcContract initial window tr w) (timely : Timely tr) :
    RecoveriesOver tr w := by
  obtain ⟨v, hnew, hrun⟩ := h
  have hempty : ∀ n, (Chain.deploy account v).inFlight.lookup n = none := fun _ => rfl
  have hlocked : v.unlocked = false := by
    simp only [new, bind_eq_ok, pure_eq_ok] at hnew
    obtain ⟨_, -, _, -, rfl⟩ := hnew
    rfl
  refine ⟨?_, ?_, ?_⟩
  · refine hrun.invariant_of (I := fun w => w.vault.unlocked = true → w.vault.recovery = none) ?_
      (fun t hf hc hpre => settled_step hf hc hpre) timely.initiations
    intro hunlocked
    change v.unlocked = true at hunlocked
    rw [hlocked] at hunlocked
    cases hunlocked
  · rintro tr₁ t tr₂ deleted k cessation rfl hswap
    obtain ⟨-, hf, -⟩ := hrun.at_split
    rcases swap_dispatched hf hswap with
      ⟨rfl, r, hfinalizes, htrigger⟩ | ⟨rfl, env, n, answer, r, k', event, held, hr, hacts⟩
    · exact ⟨r, .called hfinalizes, htrigger⟩
    · obtain ⟨hbelongs, htrigger⟩ := belongs_of_acts hempty hrun timely event held rfl hr hacts
      exact ⟨r, hbelongs, htrigger k' rfl⟩
  · rintro tr₁ t tr₂ env n answer r rfl event hr hdone
    obtain ⟨-, hf, -⟩ := hrun.at_split
    obtain ⟨receipt, held, hfinal, hacts⟩ := acts_of_change hf event hr hdone
    exact (belongs_of_acts hempty hrun timely event held hfinal hr hacts).1

/-- The step is a call of `finalize_recovery`. -/
def Step.callsFinalize (t : Step) : Bool :=
  match t.event with
  | .call _ (.finalizeRecovery _) => true
  | _                             => false

/-- No recovery is initiated after the first finalization, and nothing happens to an unlocked vault. -/
def isTimely : List Step → Bool
  | []      => true
  | t :: ts =>
      (!t.callsFinalize || ts.all fun i => i.post.vault.recovery.isNone || i.pre.vault.recovery.isSome) &&
        !t.pre.vault.unlocked && isTimely ts

theorem timely_of_isTimely {tr : List Step} (h : isTimely tr = true) : Timely tr := by
  induction tr with
  | nil =>
      refine ⟨fun t ht => absurd ht List.not_mem_nil, ?_⟩
      intro tr₁ f tr₂ t tr₃ env n answer receipt r hsplit
      simp at hsplit
  | cons u us ih =>
      simp only [isTimely, Bool.and_eq_true, Bool.not_eq_true', Bool.or_eq_true, List.all_eq_true] at h
      obtain ⟨⟨hstarts, hlocked⟩, hus⟩ := h
      have htimely := ih hus
      constructor
      · intro t ht env n event held
        rcases List.mem_cons.mp ht with rfl | ht
        · exact hlocked
        · exact htimely.initiations t ht env n event held
      · intro tr₁ f tr₂ t tr₃ env n answer receipt r hsplit hback event held hr hacts
        cases tr₁ with
        | nil =>
            rw [List.nil_append, List.cons_append] at hsplit
            injection hsplit with hu hus'
            subst hu
            obtain ⟨envf, k, p, hcall, -⟩ := hback.call
            intro i hi hstart
            rcases hstarts with hnot | hall
            · simp [Step.callsFinalize, hcall] at hnot
            · rcases hall i (by rw [hus']; exact List.mem_append_left _ hi) with hnone | hsome
              · exact hstart.2 (Option.isNone_iff_eq_none.mp hnone)
              · rw [hstart.1] at hsome
                cases hsome
        | cons u' tr₁ =>
            rw [List.cons_append, List.cons_append] at hsplit
            injection hsplit with _ hus'
            exact htimely.finalizations tr₁ f tr₂ t tr₃ env n answer receipt r hus' hback event held hr hacts

/-- The DAO ceased and the parent takes the vault over: question, recovery, question, swap. -/
theorem recovery_over_after_cessation : ∃ tr w,
    Chain.History vaultAccount parentAccount daoAccount mpcAccount (some (keyOf 0)) none tr w ∧ Timely tr ∧
      w.vault.unlocked = true ∧ RecoveriesOver tr w := by
  obtain ⟨tr, w, h, hp⟩ := exists_vault_history
    [.call (envOn daoAccount 1) .initiateRecovery, .callback (envOn vaultAccount 1) 0 (.value true),
     .call (envOn parentAccount 8) (.finalizeRecovery (keyOf 9)), .callback (envOn vaultAccount 8) 1 (.value true),
     .batch 2 false, .callback (envOn vaultAccount 8) 3 (.value true)]
    (fun p => isTimely p.1 && p.2.vault.unlocked) (by decide +kernel)
  obtain ⟨htimely, hunlocked⟩ := (Bool.and_eq_true _ _).mp hp
  have timely := timely_of_isTimely htimely
  exact ⟨tr, w, h, timely, hunlocked, recoveries_over_when_timely h timely⟩

/-- The event is not a call, or an earlier one than `time`. -/
def Event.calledBefore (time : Nat) : Event → Bool
  | .call env _ => decide (env.blockTimestamp < time)
  | _           => true

/-- The last step dispatches a swap, and no call up to then was as late as the recovery in force asks for. -/
def swapsEarly (tr : List Step) : Bool :=
  tr.getLast?.any fun t => t.out.promise.any Promise.isSwap &&
    t.pre.vault.recovery.any fun r => tr.all fun u => u.event.calledBefore r.finalizeAfter

/-- Such a swap belongs to no recovery: no call can have checked the one in force. -/
theorem not_belongs_of_swapsEarly {tr : List Step} (h : swapsEarly tr = true) :
    ∃ tr₁ t deleted k cessation, tr = tr₁ ++ [t] ∧ t.out.promise = some (.swap deleted k cessation) ∧
      ∀ r, ¬ Belongs tr₁ t r := by
  obtain ⟨t, ht, hlast⟩ := (Option.any_eq_true _ _).mp h
  obtain ⟨hswap, hearly⟩ := (Bool.and_eq_true _ _).mp hlast
  obtain ⟨p, hp, hkind⟩ := (Option.any_eq_true _ _).mp hswap
  obtain ⟨r', hr', hall⟩ := (Option.any_eq_true _ _).mp hearly
  obtain ⟨tr₁, rfl⟩ : ∃ tr₁, tr = tr₁ ++ [t] := List.getLast?_eq_some_iff.mp ht
  have hcalls : ∀ u ∈ tr₁ ++ [t], ∀ env call, u.event = .call env call → env.blockTimestamp < r'.finalizeAfter := by
    intro u hu env call hevent
    have hbefore := List.all_eq_true.mp hall u hu
    rw [hevent] at hbefore
    exact of_decide_eq_true hbefore
  have hchecked : ∀ u ∈ tr₁ ++ [t], ¬ u.Finalizes r' := by
    intro u hu hfinal
    obtain ⟨env, k, hevent, -, helapsed⟩ := hfinal.called
    exact absurd helapsed (Nat.not_le.mpr (hcalls u hu env _ hevent))
  cases p with
  | swap deleted k cessation =>
      refine ⟨tr₁, t, deleted, k, cessation, rfl, hp, ?_⟩
      intro r hbelongs
      cases hbelongs with
      | called finalizes =>
          have hsame : r' = r := Option.some.inj (hr'.symm.trans finalizes.inForce)
          subst hsame
          exact hchecked t (by simp) finalizes
      | resumed tr₀ f tr₂ env n answer receipt split finalizes event held back inForce still =>
          have hsame : r' = r := Option.some.inj (hr'.symm.trans still)
          subst hsame
          exact hchecked f (by simp [split]) finalizes
  | _ => cases hkind

/-- A vault handed over while its recovery had run out gets another one, of an answer under way since before; and of
    two finalizations under way, one cancels the recovery and the other swaps for the next one, a day early. -/
theorem recoveries_not_over :
    (∃ tr w, Chain.History vaultAccount parentAccount daoAccount mpcAccount (some (keyOf 0)) none tr w ∧
      w.vault.unlocked = true ∧ w.vault.recovery ≠ none ∧ ¬ RecoveriesOver tr w) ∧
    ∃ tr w, Chain.History vaultAccount parentAccount daoAccount mpcAccount (some (keyOf 0)) none tr w ∧
      swapsEarly tr = true ∧ ¬ RecoveriesOver tr w := by
  constructor
  · obtain ⟨tr, w, h, hp⟩ := exists_vault_history
      [.call (envOn parentAccount 1) .unilateralInitiateRecovery,
       .call (envOn parentAccount 9) (.finalizeRecovery (keyOf 9)),
       .call (envOn parentAccount 10) (.finalizeRecovery (keyOf 9)), .call (envOn daoAccount 10) .initiateRecovery,
       .batch 0 false, .callback (envOn vaultAccount 10) 2 (.value true),
       .callback (envOn vaultAccount 10) 1 (.value true)]
      (fun p => p.2.vault.unlocked && p.2.vault.recovery.isSome) (by decide +kernel)
    obtain ⟨hunlocked, hsome⟩ := (Bool.and_eq_true _ _).mp hp
    have hrecovery : w.vault.recovery ≠ none := Option.isSome_iff_ne_none.mp hsome
    exact ⟨tr, w, h, hunlocked, hrecovery, fun hover => hrecovery (hover.unlocked hunlocked)⟩
  · obtain ⟨tr, w, h, hearly⟩ := exists_vault_history
      [.call (envOn daoAccount 1) .initiateRecovery, .callback (envOn vaultAccount 1) 0 (.value true),
       .call (envOn parentAccount 8) (.finalizeRecovery (keyOf 9)),
       .call (envOn parentAccount 8) (.finalizeRecovery (keyOf 9)), .callback (envOn vaultAccount 8) 1 (.value false),
       .call (envOn parentAccount 8) .unilateralInitiateRecovery, .callback (envOn vaultAccount 8) 2 (.value true)]
      (fun p => swapsEarly p.1) (by decide +kernel)
    refine ⟨tr, w, h, hearly, ?_⟩
    intro hover
    obtain ⟨tr₁, t, deleted, k, cessation, rfl, hswap, hnot⟩ := not_belongs_of_swapsEarly hearly
    obtain ⟨r, hbelongs, -⟩ := hover.swaps tr₁ t [] deleted k cessation rfl hswap
    exact hnot r hbelongs

end Vault

end Outlayer
