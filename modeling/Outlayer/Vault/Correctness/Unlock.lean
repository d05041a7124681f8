import Outlayer.Vault.Steps

/-!
# `Vault.Correctness.Unlock` — a vault is unlocked by a recovery only

Initiation, finalization and swap are spread over receipts, and between two of them anything can happen. Still, a
vault is unlocked only after its parent called `finalize_recovery` when the delay of the recovery then in force
had passed; and that recovery had been in force, the same one, ever since it was initiated.
-/

namespace Outlayer
open Checked Collections Runs

namespace Vault

/-! ## Recoveries -/

/-- The step initiates the recovery `r`: the DAO's answer to `initiate_recovery`, with the fixed delay, or the
    parent's call, with the exit window as it is then. -/
inductive Step.Initiates (t : Step) (r : RecoveryState) : Prop
  | cessation (env : Env) (n : Nat) (event : t.event = .callback env n (.value true))
      (held : t.pre.inFlight.lookup n = some (.promise .isCeasedToInitiate)) (trigger : r.trigger = .cessation)
      (initiatedAt : r.initiatedAt = env.blockTimestamp)
      (delay : r.finalizeAfter = r.initiatedAt + cessationDelayNs)
  | exit (env : Env) (event : t.event = .call env .unilateralInitiateRecovery)
      (parent : env.predecessor = t.pre.vault.parent) (trigger : r.trigger = .unilateral)
      (initiatedAt : r.initiatedAt = env.blockTimestamp)
      (delay : r.finalizeAfter = r.initiatedAt + t.pre.vault.unilateralExitWindowSecs * secondNs)

/-- The step is a call of `finalize_recovery` that went through, by the parent and after the delay of the recovery
    `r` in force. -/
structure Step.Finalizes (t : Step) (r : RecoveryState) : Prop where
  called : ∃ env k, t.event = .call env (.finalizeRecovery k) ∧ env.predecessor = t.pre.vault.parent ∧
    r.finalizeAfter ≤ env.blockTimestamp
  inForce : t.pre.vault.recovery = some r

/-- A recovery in force after a step was in force before it, or was initiated by it. -/
theorem recovery_step {t : Step} (h : Fires Chain.next t) {r : RecoveryState}
    (hr : t.post.vault.recovery = some r) :
    t.pre.vault.recovery = some r ∨ t.pre.vault.recovery = none ∧ t.Initiates r := by
  rcases step_vault h with ⟨env, call, event, move⟩ | ⟨env, n, r', answer, event, held, move⟩ | ⟨hsame, -⟩
  · generalize t.post.vault = v at hr move
    generalize t.out = o at move
    cases move with
    | exit locked parent none_ finalizeBefore =>
        cases hr
        exact Or.inr ⟨none_, .exit env event parent rfl rfl rfl⟩
    | finalize k r' v' o locked parent recovery elapsed result =>
        rcases result with ⟨rfl, -⟩ | ⟨rfl, -⟩
        · cases hr
        · exact Or.inl hr
    | _ => exact Or.inl hr
  · generalize t.post.vault = v at hr move
    generalize t.out = o at move
    cases move with
    | initiate none_ finalizeBefore =>
        cases hr
        exact Or.inr ⟨none_, .cessation env n event held rfl rfl rfl⟩
    | finalized k answer v' o result =>
        rcases result with ⟨rfl | rfl, -⟩ | ⟨rfl, -⟩
        · exact Or.inl hr
        · cases hr
        · exact Or.inl hr
    | unlock cessation answer o promise => cases hr
    | _ => exact Or.inl hr
  · rw [hsame] at hr
    exact Or.inl hr

/-! ## Finalizations -/

/-- The receipt is on the way from a finalization to the unlocking. -/
def Receipt.finalizes : Receipt → Bool
  | .promise (.isCeasedToFinalize _) | .promise (.swap _ _ _) | .swapped _ _ => true
  | _ => false

/-- The vault is unlocked, or something that can unlock it is in flight. -/
def Chain.Finalizing (w : Chain) : Prop :=
  w.vault.unlocked = true ∨ ∃ n r, w.inFlight.lookup n = some r ∧ r.finalizes = true

/-- A vault that a step unlocked had the callback of a swap in flight. -/
theorem unlocked_step {t : Step} (h : Fires Chain.next t) (hpost : t.post.vault.unlocked = true) :
    t.pre.Finalizing := by
  rcases step_vault h with ⟨env, call, -, move⟩ | ⟨env, n, r', answer, -, held, move⟩ | ⟨hsame, -⟩
  · left
    generalize t.post.vault = v at hpost move
    generalize t.out = o at move
    cases move with
    | finalize k r v' o locked parent recovery elapsed result =>
        rcases result with ⟨rfl, -⟩ | ⟨rfl, -⟩
        · exact hpost
        · exact hpost
    | _ => exact hpost
  · generalize t.post.vault = v at hpost move
    generalize t.out = o at move
    cases move with
    | finalized k answer v' o result =>
        rcases result with ⟨rfl | rfl, -⟩ | ⟨rfl, -⟩
        · exact Or.inl hpost
        · exact Or.inl hpost
        · exact Or.inl hpost
    -- the one case that sets the flag
    | unlock cessation answer o promise => exact Or.inr ⟨n, _, held, rfl⟩
    | _ => exact Or.inl hpost
  · rw [hsame] at hpost
    exact Or.inl hpost

/-- A promise on the way to the unlocking is made by `finalize_recovery` or by its callback. -/
theorem finalizing_promise {t : Step} (h : Fires Chain.next t) {p : Promise} (hp : t.out.promise = some p)
    (hfinal : (Receipt.promise p).finalizes = true) : t.pre.Finalizing ∨ ∃ r, t.Finalizes r := by
  rcases step_vault h with ⟨env, call, event, move⟩ | ⟨env, n, r', answer, -, held, move⟩ | ⟨-, hnone⟩
  · generalize t.post.vault = v at move
    generalize t.out = o at hp move
    cases move with
    | finalize k r v' o locked parent recovery elapsed result =>
        exact Or.inr ⟨r, ⟨env, k, event, parent, elapsed⟩, recovery⟩
    | exit locked parent none_ finalizeBefore => cases hp
    | setWindow secs logs parent low high => cases hp
    | _ =>
        cases hp
        cases hfinal
  · generalize t.post.vault = v at move
    generalize t.out = o at hp move
    cases move with
    | register k notInitial unlisted room =>
        cases hp
        cases hfinal
    | initiate none_ finalizeBefore => cases hp
    | finalized k answer v' o result => exact Or.inl (Or.inr ⟨n, _, held, rfl⟩)
    | unlock cessation answer o promise => exact Or.inl (Or.inr ⟨n, _, held, rfl⟩)
    | swapFailed cessation answer o promise => exact Or.inl (Or.inr ⟨n, _, held, rfl⟩)
  · rw [hnone] at hp
    cases hp

/-- Only `finalize_recovery` starts what can unlock the vault. -/
theorem finalizing_step {t : Step} (h : Fires Chain.next t) (hpost : t.post.Finalizing) :
    t.pre.Finalizing ∨ ∃ r, t.Finalizes r := by
  rcases hpost with hunlocked | ⟨n, r, hr, hfinal⟩
  · exact Or.inl (unlocked_step h hunlocked)
  · rcases step_receipt h hr with hold | ⟨p, hp, rfl⟩ | ⟨m, deleted, k, cessation, ok, hold, -⟩
    · exact Or.inl (Or.inr ⟨n, r, hold, hfinal⟩)
    · exact finalizing_promise h hp hfinal
    -- the report of a swap: the swap itself was in flight before
    · exact Or.inl (Or.inr ⟨m, _, hold, rfl⟩)

/-! ## What does not change -/

/-- The vault belongs to `parent`, and its exit window is in range. -/
structure Configured (parent : AccountId) (v : Vault) : Prop where
  parent : v.parent = parent
  low : minUnilateralExitWindowSecs ≤ v.unilateralExitWindowSecs
  high : v.unilateralExitWindowSecs ≤ maxUnilateralExitWindowSecs

theorem Move.configured {env : Env} {current parent : AccountId} {start : Start} {v v' : Vault} {o : Outcome}
    (h : Move env current v start v' o) (hv : v.Configured parent) : v'.Configured parent := by
  cases h with
  | setWindow secs logs parent low high => exact ⟨hv.parent, low, high⟩
  | finalize k r v' o locked parent recovery elapsed result =>
      rcases result with ⟨rfl, -⟩ | ⟨rfl, -⟩
      · exact ⟨hv.parent, hv.low, hv.high⟩
      · exact hv
  | finalized k answer v' o result =>
      rcases result with ⟨rfl | rfl, -⟩ | ⟨rfl, -⟩
      · exact hv
      · exact ⟨hv.parent, hv.low, hv.high⟩
      · exact hv
  | _ => exact ⟨hv.parent, hv.low, hv.high⟩

theorem configured_step {t : Step} (h : Fires Chain.next t) {parent : AccountId}
    (hv : t.pre.vault.Configured parent) : t.post.vault.Configured parent := by
  rcases step_vault h with ⟨env, call, -, move⟩ | ⟨env, n, r, answer, -, -, move⟩ | ⟨hsame, -⟩
  · exact move.configured hv
  · exact move.configured hv
  · rwa [hsame]

theorem configured_new {account parent keystoreDao mpcContract : AccountId} {initial : Option PublicKey}
    {window : Option Nat} {v : Vault} (h : new account parent keystoreDao mpcContract initial window = .ok v) :
    v.Configured parent := by
  simp only [new, assertExitWindowInRange, bind_eq_ok, require_eq_ok, pure_eq_ok] at h
  obtain ⟨_, -, _, ⟨hlow, hhigh⟩, rfl⟩ := h
  exact ⟨rfl, hlow, hhigh⟩

/-! ## Unlocking -/

/-- The recovery `r` was initiated by step `i`, stayed in force through `tr`, and was finalized by step `f`. -/
structure RecoveryRun (parent : AccountId) (i : Step) (tr : List Step) (f : Step) (r : RecoveryState) :
    Prop where
  initiates : i.Initiates r
  first : i.pre.vault.recovery = none
  inForce : i.post.vault.recovery = some r ∧
    ∀ t ∈ tr, t.pre.vault.recovery = some r ∧ t.post.vault.recovery = some r
  finalizes : f.Finalizes r
  configured : i.pre.vault.Configured parent ∧ f.pre.vault.Configured parent

/-- **A vault is unlocked by a recovery only.** In every history that ends unlocked, the parent called
    `finalize_recovery` when the delay of a recovery had passed, and nothing cancelled or replaced that recovery
    since its initiation. -/
theorem unlocked_only_by_recovery {account parent keystoreDao mpcContract : AccountId}
    {initial : Option PublicKey} {window : Option Nat} {tr : List Step} {w : Chain}
    (h : Chain.History account parent keystoreDao mpcContract initial window tr w)
    (unlocked : w.vault.unlocked = true) :
    ∃ tr₁ i tr₂ f tr₃ r, tr = tr₁ ++ i :: tr₂ ++ f :: tr₃ ∧ RecoveryRun parent i tr₂ f r := by
  obtain ⟨v, hnew, hrun⟩ := h
  have hconf := configured_new hnew
  have hv : v.unlocked = false ∧ v.recovery = none := by
    simp only [new, bind_eq_ok, pure_eq_ok] at hnew
    obtain ⟨_, -, _, -, rfl⟩ := hnew
    exact ⟨rfl, rfl⟩
  -- the finalization is the step since which something could unlock the vault
  have hstart : ¬ (Chain.deploy account v).Finalizing := by
    rintro (hyes | ⟨n, r, hr, -⟩)
    · change v.unlocked = true at hyes
      rw [hv.1] at hyes
      cases hyes
    · cases hr
  obtain ⟨trf, f, tr₃, rfl, hno, hyes, -⟩ := hrun.since hstart (Or.inl unlocked)
  obtain ⟨hto, hf, -⟩ := hrun.at_split
  obtain ⟨r, hfinal⟩ := (finalizing_step hf hyes).resolve_left hno
  -- the initiation is the step since which its recovery has been in force
  have hnone : ¬ (Chain.deploy account v).vault.recovery = some r := by
    intro hsome
    change v.recovery = some r at hsome
    rw [hv.2] at hsome
    cases hsome
  obtain ⟨tr₁, i, tr₂, rfl, hbefore, hafter, hforce⟩ :=
    hto.since (Q := fun w => w.vault.recovery = some r) hnone hfinal.inForce
  obtain ⟨hfirst, hi, -⟩ := hto.at_split
  obtain ⟨hempty, hinit⟩ := (recovery_step hi hafter).resolve_left hbefore
  have hstep : ∀ t, Fires Chain.next t → t.pre.vault.Configured parent → t.post.vault.Configured parent :=
    fun _ hf => configured_step hf
  refine ⟨tr₁, i, tr₂, f, tr₃, r, rfl, hinit, hempty, ⟨hafter, hforce⟩, hfinal, ?_, ?_⟩
  · exact hfirst.invariant (I := fun w => w.vault.Configured parent) hconf hstep
  · exact hto.invariant (I := fun w => w.vault.Configured parent) hconf hstep

/-! ## A vault of `customer.near` -/

/-- The accounts around one vault: its parent, itself, the DAO and the signer. -/
def parentAccount : AccountId := ⟨"customer.near", by decide⟩
def vaultAccount : AccountId := ⟨"vault.customer.near", by decide⟩
def daoAccount : AccountId := ⟨"keystore-dao.outlayer.near", by decide⟩
def mpcAccount : AccountId := ⟨"v1.signer.near", by decide⟩

/-- The keys of these histories: the worker's with which the vault is deployed is `keyOf 0`. -/
def keyOf (n : UInt8) : PublicKey := .ed25519 (Vector.replicate 32 n)

/-- The context of a call by `who` on day `day`. -/
def envOn (who : AccountId) (day : Nat) : Env where
  predecessor := who
  attachedDeposit := 0
  blockTimestamp := day * daySecs * secondNs % 2 ^ 64
  blockTimestamp_lt := Nat.mod_lt _ (by decide)

/-- The vault as it is deployed. -/
def deployed : Vault where
  parent := parentAccount
  keystoreDao := daoAccount
  mpcContract := mpcAccount
  initialTeeKey := some (keyOf 0)
  registeredTeeKeys := []
  recovery := none
  unlocked := false
  unilateralExitWindowSecs := defaultUnilateralExitWindowSecs

theorem exists_vault_history (es : List Event) (p : List Step × Chain → Bool)
    (h : (replay Chain.next (Chain.deploy vaultAccount deployed) es).any p = true) :
    ∃ tr w, Chain.History vaultAccount parentAccount daoAccount mpcAccount (some (keyOf 0)) none tr w ∧
      p (tr, w) = true := by
  obtain ⟨tr, w, hrun, hp⟩ := exists_run h
  exact ⟨tr, w, ⟨deployed, rfl, hrun⟩, hp⟩

/-- The parent leaves: initiation, finalization a day later, the swap and its callback. -/
theorem unlocked_by_exit : ∃ tr w,
    Chain.History vaultAccount parentAccount daoAccount mpcAccount (some (keyOf 0)) none tr w ∧
      w.vault.unlocked = true ∧
      ∃ tr₁ i tr₂ f tr₃ r, tr = tr₁ ++ i :: tr₂ ++ f :: tr₃ ∧ RecoveryRun parentAccount i tr₂ f r := by
  obtain ⟨tr, w, h, hp⟩ := exists_vault_history
    [.call (envOn parentAccount 1) .unilateralInitiateRecovery,
     .call (envOn parentAccount 2) (.finalizeRecovery (keyOf 9)), .batch 0 false,
     .callback (envOn vaultAccount 2) 1 (.value true)]
    (fun p => p.2.vault.unlocked) (by decide +kernel)
  exact ⟨tr, w, h, hp, unlocked_only_by_recovery h hp⟩

end Vault

end Outlayer
