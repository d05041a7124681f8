import Outlayer.Contract.SecretMaps
import Outlayer.Contract.RegistryMaps
import Outlayer.Contract.PolicySteps
import Outlayer.Contract.Replay
import Mathlib.Algebra.BigOperators.Group.List.Basic

/-!
# `Contract.Correctness.Deposits` — storage deposits are conserved

A dozen methods take deposits for what they store and send deposits back for what they drop. What they took and
did not send back is what the records say is held for them, except for what two methods keep without a record:
deleting a project keeps the deposits of its versions, and asking to delete a payment key keeps everything that
was attached beyond the one yocto it asks for.
-/

namespace Outlayer
open Text Checked Collections Runs

/-! ## What is held -/

/-- The deposits behind the stored policies. -/
def policyDeposits (policies : LookupMap String WalletPolicyEntry) : Nat :=
  LookupMap.total (fun _ entry => entry.storageDeposit) policies

/-- The deposits behind the projects. -/
def projectDeposits (projects : LookupMap String Project) : Nat :=
  LookupMap.total (fun _ project => project.storageDeposit) projects

/-- The deposits held for the versions of one project. -/
def versionDeposits (versions : LookupMap String VersionInfo) : Nat :=
  LookupMap.total (fun _ version => version.storageDeposit) versions

/-- The deposits behind the versions of every project. -/
def allVersionDeposits (projectVersions : LookupMap String (LookupMap String VersionInfo)) : Nat :=
  LookupMap.total (fun _ versions => versionDeposits versions) projectVersions

/-- The deposits behind the acceptances of transfers. -/
def acceptanceDeposits (acceptances : LookupMap TransferAcceptance Nat) : Nat :=
  LookupMap.total (fun _ deposit => deposit) acceptances

/-- The deposits held for projects, versions and acceptances. -/
def Registry.deposits (g : Registry) : Nat :=
  projectDeposits g.projects + allVersionDeposits g.projectVersions
    + acceptanceDeposits g.projectTransferAcceptances

/-- **What the records say**: the deposits of the secrets, the policies, the projects, their versions and the
    acceptances, and the charges for the nonce floors. -/
def Contract.storageDeposits (c : Contract) : Nat :=
  c.toSecretStore.deposits + policyDeposits c.walletPolicies + c.toRegistry.deposits

/-! ## Secrets -/

/-- A move takes in what is paid with it and accounts for it. -/
theorem SecretMove.balance {H : Host} {s s' : SecretStore} {paid : Nat} {act : SecretAct}
    {ses : List StorageEffect} (h : SecretMove H s paid act s' ses) (hs : s.Consistent H) :
    s'.deposits + refunded ses = s.deposits + paid := by
  have hwithout {key : SecretKey} {row : SecretProfile} (held : s.secretsStorage.lookup key = some row) :
      (s.without key).deposits + row.storageDeposit = s.deposits := by
    have hrows := rowDeposits_erase s.secretsStorage key
    rw [held, Option.elim_some] at hrows
    simp only [SecretStore.deposits, SecretStore.without]
    omega
  have hrewrite {key : SecretKey} {row : SecretProfile} (held : s.secretsStorage.lookup key = some row)
      (row' : SecretProfile) :
      SecretStore.deposits { s with secretsStorage := s.secretsStorage.insert key row' } + row.storageDeposit
        = s.deposits + row'.storageDeposit := by
    have hrows := rowDeposits_insert s.secretsStorage key row'
    rw [held, Option.elim_some] at hrows
    simp only [SecretStore.deposits]
    omega
  cases h with
  | store key row s' ses kind stores floors => exact stores.balance
  | create owner nonce row s' ses stores new above fits floors => exact stores.balance
  | delete key row receiver held unpaid =>
      have := hwithout held
      rw [refunded_refund, unpaid]
      omega
  | deletePaymentKey owner nonce row held unpaid =>
      have := hwithout held
      rw [hs.raise_without held, refunded_refund, unpaid]
      omega
  | unbind key row held unpaid =>
      rw [unpaid]
      rfl
  | recondition key row row' receiver held priced covered =>
      have := hrewrite held row'
      rw [refunded_refund]
      omega
  | topUp owner nonce data time row held unpaid =>
      have := hrewrite held { row with encryptedSecrets := data, updatedAt := time }
      have hquiet : refunded [.valueReturn (u128Json 0)] = 0 := rfl
      rw [unpaid, hquiet]
      dsimp only at this ⊢
      omega
  | missed owner nonce amount data gone unpaid =>
      rw [unpaid]
      rfl
  | idle ses quiet unpaid => rw [unpaid, quiet]

/-! ## Policies -/

section Policies
variable {H : Host} {env : Env} {c : Contract} {call : Call} {p : PolicyStore} {ses : List StorageEffect}

/-- A policy written over whatever was held for its key. -/
theorem policyDeposits_insert (policies : LookupMap String WalletPolicyEntry) (key : String)
    (entry : WalletPolicyEntry) :
    policyDeposits (policies.insert key entry) = entry.storageDeposit + policyDeposits (policies.erase key) :=
  LookupMap.total_insert_erase _ key entry policies

/-- A call on the policies takes in what is paid with it and accounts for it. -/
theorem policy_balance (h : PolicyCall H env c call p ses) (hpay : call.payable = true ∨ env.attachedDeposit = 0) :
    policyDeposits p.walletPolicies + refunded ses
      = policyDeposits c.walletPolicies + env.attachedDeposit := by
  have herase {key : String} {old : WalletPolicyEntry} (held : c.walletPolicies.lookup key = some old) :
      policyDeposits (c.walletPolicies.erase key) + old.storageDeposit = policyDeposits c.walletPolicies :=
    LookupMap.total_erase_old held
  cases h with
  | create key deposit excess receiver event canonical signed new paid =>
      have hnone : policyDeposits (c.walletPolicies.erase key) = policyDeposits c.walletPolicies := by
        have := LookupMap.total_erase (fun _ (entry : WalletPolicyEntry) => entry.storageDeposit) key c.walletPolicies
        rwa [new, Option.elim_none, Nat.add_zero] at this
      simp only [policyDeposits_insert, refunded_append, refunded_refund, refunded_emit, hnone]
      omega
  | update key old deposit excess receiver event canonical signed exists_ owner paid =>
      have := herase exists_
      simp only [policyDeposits_insert, refunded_append, refunded_refund, refunded_emit]
      omega
  | freeze key old event canonical exists_ owner =>
      have := herase exists_
      simp only [policyDeposits_insert, refunded_emit, hpay.resolve_left nofun]
      omega
  | unfreeze key old event canonical exists_ owner =>
      have := herase exists_
      simp only [policyDeposits_insert, refunded_emit, hpay.resolve_left nofun]
      omega
  | delete key old receiver event canonical exists_ owner unlocked =>
      have := herase exists_
      simp only [refunded_append, refunded_refund, refunded_emit, hpay.resolve_left nofun]
      omega
  | redirect key event canonical beneficiary =>
      rw [hpay.resolve_left nofun]
      rfl

end Policies

/-! ## Projects -/

section Registry
variable {env : Env} {c : Contract} {call : Call} {g : Registry} {ses : List StorageEffect}

/-- The deposits of the versions a project would take with it. -/
def Contract.versionsOf (c : Contract) (id : String) : Nat :=
  ((c.projects.lookup id).bind fun project => c.projectVersions.lookup project.uuid).elim 0 versionDeposits

/-- What a call keeps without a record: the deposits of the versions of a deleted project, and what is attached
    to the deletion of a payment key beyond one yocto. -/
def Call.stranded (env : Env) (c : Contract) : Call → Nat
  | .deleteProject name => c.versionsOf (projectIdOf env.predecessor name)
  | .deletePaymentKey _ => env.attachedDeposit - 1
  | _                   => 0

/-- A project rewritten with its deposit as it was. -/
theorem projectDeposits_rewrite {projects : LookupMap String Project} {id : String} {project project' : Project}
    (held : projects.lookup id = some project) (same : project'.storageDeposit = project.storageDeposit) :
    projectDeposits (projects.insert id project') = projectDeposits projects := by
  have htotal := LookupMap.total_insert_old (f := fun _ (p : Project) => p.storageDeposit) held project'
  unfold projectDeposits
  omega

/-- A call on the registry takes in what is paid with it and accounts for it, but for the versions of a
    deleted project. -/
theorem registry_balance (h : RegistryCall env c call g ses) (hg : c.toRegistry.Sound)
    (hpay : call.payable = true ∨ env.attachedDeposit = 0) :
    g.deposits + refunded ses + call.stranded env c = c.toRegistry.deposits + env.attachedDeposit := by
  have hfree (hnot : call.payable = false) : env.attachedDeposit = 0 := by
    rcases hpay with hp | hp
    · rw [hnot] at hp
      cases hp
    · exact hp
  cases h with
  | create project key version free uuid active priced paid _ _ _ =>
      have hproject : projectDeposits _ = projectDeposits c.projects + project.storageDeposit :=
        LookupMap.total_insert_new free project
      have hfirst : versionDeposits (AList.insert key version ∅) = 0 + version.storageDeposit :=
        LookupMap.total_insert_new rfl version
      have hversion : allVersionDeposits _ = allVersionDeposits c.projectVersions + versionDeposits _ :=
        LookupMap.total_insert_new (uuid ▸ hg.fresh (Nat.lt_succ_self _)) (AList.insert key version ∅)
      simp only [Registry.deposits, refunded_refund, Call.stranded, hproject, hversion, hfirst]
      omega
  | @addVersion name source setActive project versions key version exists_ found new priced paid _ _ =>
      have hadded : versionDeposits _ = versionDeposits versions + version.storageDeposit :=
        LookupMap.total_insert_new new version
      have hversion : allVersionDeposits _ + versionDeposits versions
          = allVersionDeposits c.projectVersions + versionDeposits _ :=
        LookupMap.total_insert_old found (versions.insert key version)
      have hproject : projectDeposits (if setActive then
          c.projects.insert (projectIdOf env.predecessor name) { project with activeVersion := key }
          else c.projects) = projectDeposits c.projects := by
        split
        · exact projectDeposits_rewrite exists_ rfl
        · rfl
      simp only [Registry.deposits, refunded_refund, Call.stranded, hproject]
      omega
  | @activate name key project versions exists_ found held _ =>
      have hproject : projectDeposits (c.projects.insert (projectIdOf env.predecessor name)
          { project with activeVersion := key }) = projectDeposits c.projects :=
        projectDeposits_rewrite exists_ rfl
      simp only [Registry.deposits, refunded_nil, Call.stranded, hfree rfl, hproject]
  | @removeVersion name key project versions version exists_ inactive found held _ =>
      have hremoved : versionDeposits _ + version.storageDeposit = versionDeposits versions :=
        LookupMap.total_erase_old held
      have hversion : allVersionDeposits _ + versionDeposits versions
          = allVersionDeposits c.projectVersions + versionDeposits _ :=
        LookupMap.total_insert_old found (versions.erase key)
      simp only [Registry.deposits, refunded_refund, Call.stranded, hfree rfl]
      omega
  | delete project event exists_ _ =>
      have hproject : projectDeposits _ + project.storageDeposit = projectDeposits c.projects :=
        LookupMap.total_erase_old exists_
      obtain ⟨versions, found, -⟩ := hg.active _ project exists_
      have hversion : allVersionDeposits _ + versionDeposits versions = allVersionDeposits c.projectVersions :=
        LookupMap.total_erase_old found
      simp only [Registry.deposits, refunded_append, refunded_refund, refunded_emit, Call.stranded,
        Contract.versionsOf, exists_, Option.bind_some, found, Option.elim_some, hfree rfl]
      omega
  | accept deposit event new paid _ =>
      have hacceptance : acceptanceDeposits _ = acceptanceDeposits c.projectTransferAcceptances + deposit :=
        LookupMap.total_insert_new new deposit
      simp only [Registry.deposits, refunded_append, refunded_refund, refunded_emit, Call.stranded,
        hacceptance]
      omega
  | revoke deposit event held =>
      have hacceptance : acceptanceDeposits _ + deposit = acceptanceDeposits c.projectTransferAcceptances :=
        LookupMap.total_erase_old held
      simp only [Registry.deposits, refunded_append, refunded_refund, refunded_emit, Call.stranded,
        hfree rfl]
      omega
  | @transfer name newOwner project deposit event unpriced exists_ free held _ =>
      have hleft : projectDeposits _ + project.storageDeposit = projectDeposits c.projects :=
        LookupMap.total_erase_old exists_
      have hmoved : projectDeposits _ = projectDeposits _ + project.storageDeposit :=
        LookupMap.total_insert_new free { project with owner := newOwner }
      have hacceptance : acceptanceDeposits _ + deposit = acceptanceDeposits c.projectTransferAcceptances :=
        LookupMap.total_erase_old held
      simp only [Registry.deposits, refunded_append, refunded_refund, refunded_emit, Call.stranded,
        hfree rfl]
      omega

end Registry

/-! ## One step -/

/-- The methods that take deposits for storage or send them back. -/
def Call.movesDeposits : Call → Bool
  | .storeSecrets _ _ _ _ _ | .storeAgentSecret _ _ _ _ _ _ _ | .updateAccess _ _ _ | .deleteSecrets _ _
  | .deleteAgentSecret _ _ _ _ | .deletePaymentKey _ | .storeWalletPolicy _ _ _ _ _ _ _
  | .deleteWalletPolicy _ | .createProject _ _ | .addVersion _ _ _ | .removeVersion _ _ | .deleteProject _
  | .acceptProjectTransfer _ _ | .revokeProjectTransfer _ _ | .transferProject _ _ => true
  | _ => false

/-- What is attached to such a call, the one yocto that the deletion of a payment key asks for aside. -/
def Call.depositPaid (env : Env) : Call → Nat
  | .deletePaymentKey _ => env.attachedDeposit - 1
  | call                => if call.movesDeposits then env.attachedDeposit else 0

/-- NEAR sent back by a storage method. -/
def Effect.storageSent : Effect → Nat
  | .storage e => e.sent
  | _          => 0

/-- What a call sends back of the deposits. -/
def Call.depositRefunded (call : Call) (es : List Effect) : Nat :=
  if call.movesDeposits then (es.map Effect.storageSent).sum else 0

/-- The callback that deletes a payment key sends its deposit back. -/
def YieldCallback.depositRefunded (es : List Effect) : YieldCallback → Nat
  | .onDeletePaymentKeyResponse _ _ => (es.map Effect.storageSent).sum
  | _                               => 0

/-- What a step takes in for storage. -/
def Step.depositPaid (t : Step) : Nat :=
  match t.event with
  | .call env call => call.depositPaid env
  | _              => 0

/-- What a step sends back: one of those calls, or the callback that deletes a payment key. -/
def Step.depositRefunded (t : Step) : Nat :=
  match t.event with
  | .call _ call   => call.depositRefunded t.out
  | .yielded _ d _ => (t.pre.yields.lookup d).elim 0 fun y => y.callback.depositRefunded t.out
  | .withdrawn _ _ => 0

/-- What a step keeps without a record. -/
def Step.stranded (t : Step) : Nat :=
  match t.event with
  | .call env call => call.stranded env t.pre.contract
  | _              => 0

theorem sum_storageSent (ses : List StorageEffect) :
    ((ses.map Effect.storage).map Effect.storageSent).sum = refunded ses := by
  rw [List.map_map]
  rfl

section Tracked
variable {H : Host} {env : Env} {c : Contract} {call : Call} {ses : List StorageEffect}

/-- The books of a call on a storage part: everything attached, everything sent back. -/
structure Tracked (env : Env) (call : Call) (ses : List StorageEffect) : Prop where
  paid : call.depositPaid env = env.attachedDeposit
  refunds : call.depositRefunded (ses.map .storage) = refunded ses

theorem tracked_of_moves (hmoves : call.movesDeposits = true) (hkey : ∀ nonce, call ≠ .deletePaymentKey nonce) :
    Tracked env call ses where
  paid := by
    unfold Call.depositPaid
    split
    · exact absurd rfl (hkey _)
    · rw [if_pos hmoves]
  refunds := by
    rw [Call.depositRefunded, if_pos hmoves, sum_storageSent]

theorem tracked_of_quiet (hstill : call.movesDeposits = false) (hpay : env.attachedDeposit = 0)
    (hquiet : refunded ses = 0) : Tracked env call ses where
  paid := by
    unfold Call.depositPaid
    split
    · rw [hpay]
    · rw [hstill, hpay]
      rfl
  refunds := by
    rw [Call.depositRefunded, hstill, hquiet]
    rfl

/-- A call on a storage part that moves no deposits takes none and sends none. -/
theorem tracked_secrets {p : SecretStore} (hpay : call.payable = true ∨ env.attachedDeposit = 0)
    (h : runCall H env c call = .secrets (.ok (p, ses))) : Tracked env call ses := by
  cases call with
  | unbindSecretVault accessor profile =>
      have hrun := PartRun.secrets.inj h
      simp only [unbindSecretVault, bind_eq_ok, pure_eq_ok, Prod.mk.injEq] at hrun
      obtain ⟨_, -, -, rfl⟩ := hrun
      exact tracked_of_quiet rfl (hpay.resolve_left nofun) rfl
  | storeSecrets _ _ _ _ _ => exact tracked_of_moves rfl nofun
  | storeAgentSecret _ _ _ _ _ _ _ => exact tracked_of_moves rfl nofun
  | deleteAgentSecret _ _ _ _ => exact tracked_of_moves rfl nofun
  | deleteSecrets _ _ => exact tracked_of_moves rfl nofun
  | updateAccess _ _ _ => exact tracked_of_moves rfl nofun
  | _ => cases h

theorem tracked_registry {g : Registry} (hpay : call.payable = true ∨ env.attachedDeposit = 0)
    (h : RegistryCall env c call g ses) : Tracked env call ses := by
  cases h with
  | activate project versions exists_ found held _ =>
      exact tracked_of_quiet rfl (hpay.resolve_left nofun) rfl
  | create _ _ _ _ _ _ _ _ _ _ _ => exact tracked_of_moves rfl nofun
  | addVersion _ _ _ _ _ _ _ _ _ _ _ => exact tracked_of_moves rfl nofun
  | removeVersion _ _ _ _ _ _ _ _ => exact tracked_of_moves rfl nofun
  | delete _ _ _ _ => exact tracked_of_moves rfl nofun
  | accept _ _ _ _ _ => exact tracked_of_moves rfl nofun
  | revoke _ _ _ => exact tracked_of_moves rfl nofun
  | transfer _ _ _ _ _ _ _ _ => exact tracked_of_moves rfl nofun

theorem tracked_policies {p : PolicyStore} (hpay : call.payable = true ∨ env.attachedDeposit = 0)
    (h : PolicyCall H env c call p ses) : Tracked env call ses := by
  cases h with
  | create _ _ _ _ _ _ _ _ _ => exact tracked_of_moves rfl nofun
  | update _ _ _ _ _ _ _ _ _ _ _ => exact tracked_of_moves rfl nofun
  | delete _ _ _ _ _ _ _ _ => exact tracked_of_moves rfl nofun
  | freeze _ _ _ _ _ _ => exact tracked_of_quiet rfl (hpay.resolve_left nofun) rfl
  | unfreeze _ _ _ _ _ _ => exact tracked_of_quiet rfl (hpay.resolve_left nofun) rfl
  | redirect _ _ _ _ => exact tracked_of_quiet rfl (hpay.resolve_left nofun) rfl

/-- What strands deposits runs on the registry, or on no part at all. -/
theorem stranded_eq_zero (hregistry : ∀ x, runCall H env c call ≠ .registry x)
    (hemits : ∀ x, runCall H env c call ≠ .emits x) : call.stranded env c = 0 := by
  unfold Call.stranded
  split
  · exact absurd rfl (hregistry _)
  · exact absurd rfl (hemits _)
  · rfl

/-- A call off the storage parts takes nothing, but for what is stranded. -/
theorem untracked {c' : Contract} {es : List Effect} (hcommit : (runCall H env c call).commit c = .ok (c', es))
    (hsecrets : ∀ x, runCall H env c call ≠ .secrets x) (hregistry : ∀ x, runCall H env c call ≠ .registry x)
    (hpolicies : ∀ x, runCall H env c call ≠ .policies x) :
    call.depositRefunded es + call.stranded env c = call.depositPaid env := by
  cases call with
  | deletePaymentKey nonce =>
      obtain ⟨hrun, -⟩ := commit_emits hcommit
      simp only [deletePaymentKey, bind_eq_ok, pure_eq_ok] at hrun
      obtain ⟨_, -, _, -, rfl⟩ := hrun
      exact Nat.zero_add _
  | _ => first
      | exact absurd rfl (hsecrets _)
      | exact absurd rfl (hregistry _)
      | exact absurd rfl (hpolicies _)
      | rfl

/-- A call off the storage parts leaves what they hold. -/
theorem storageDeposits_kept {c' : Contract} {es : List Effect}
    (hcommit : (runCall H env c call).commit c = .ok (c', es))
    (hsecrets : ∀ x, runCall H env c call ≠ .secrets x) (hregistry : ∀ x, runCall H env c call ≠ .registry x)
    (hpolicies : ∀ x, runCall H env c call ≠ .policies x) : c'.storageDeposits = c.storageDeposits := by
  have hparts := commit_parts hcommit
  have hs : c'.toSecretStore = c.toSecretStore := by
    refine (hparts.secrets.resolve_left ?_).2
    rintro ⟨ses, hrun, -⟩
    exact hsecrets _ hrun
  have hg : c'.toRegistry = c.toRegistry := by
    refine (hparts.registry.resolve_left ?_).2
    rintro ⟨ses, hrun, -⟩
    exact hregistry _ hrun
  have hp : c'.toPolicyStore = c.toPolicyStore := by
    refine (hparts.policies.resolve_left ?_).2
    rintro ⟨ses, hrun, -⟩
    exact hpolicies _ hrun
  rw [Contract.storageDeposits, hs, hg, hp, Contract.storageDeposits]

/-- **A call balances its books.** -/
theorem call_deposits {c' : Contract} {es : List Effect} (h : exec H env c call = .ok (c', es))
    (hs : c.toSecretStore.Consistent H) (hg : c.toRegistry.Sound) :
    c'.storageDeposits + call.depositRefunded es + call.stranded env c
      = c.storageDeposits + call.depositPaid env := by
  obtain ⟨hpay, hcommit⟩ := exec_commit h
  unfold Contract.storageDeposits
  cases hr : runCall H env c call with
  | secrets r =>
      rw [hr] at hcommit
      obtain ⟨p, ses, rfl, rfl, rfl⟩ := commit_secrets hcommit
      have htracked := tracked_secrets hpay hr
      have hbalance := (secret_call hpay hr).balance hs
      have hstranded : call.stranded env c = 0 := stranded_eq_zero (by rw [hr]; nofun) (by rw [hr]; nofun)
      rw [htracked.paid, htracked.refunds, hstranded]
      dsimp only
      omega
  | registry r =>
      rw [hr] at hcommit
      obtain ⟨g, ses, rfl, rfl, rfl⟩ := commit_registry hcommit
      have hcall := registry_call hr
      have htracked := tracked_registry hpay hcall
      have hbalance := registry_balance hcall hg hpay
      rw [htracked.paid, htracked.refunds]
      dsimp only
      omega
  | policies r =>
      rw [hr] at hcommit
      obtain ⟨p, ses, rfl, rfl, rfl⟩ := commit_policies hcommit
      have hcall := policy_call hr
      have htracked := tracked_policies hpay hcall
      have hbalance := policy_balance hcall hpay
      have hstranded : call.stranded env c = 0 := stranded_eq_zero (by rw [hr]; nofun) (by rw [hr]; nofun)
      rw [htracked.paid, htracked.refunds, hstranded]
      dsimp only
      omega
  | _ =>
      have hother : (∀ x, runCall H env c call ≠ .secrets x) ∧ (∀ x, runCall H env c call ≠ .registry x) ∧
          ∀ x, runCall H env c call ≠ .policies x := by
        rw [hr]
        exact ⟨nofun, nofun, nofun⟩
      obtain ⟨hsecrets, hregistry, hpolicies⟩ := hother
      have huntracked := untracked hcommit hsecrets hregistry hpolicies
      have hkept : c'.storageDeposits = c.storageDeposits :=
        storageDeposits_kept hcommit hsecrets hregistry hpolicies
      unfold Contract.storageDeposits at hkept
      omega

end Tracked

section Step
variable {H : Host} {t : Step}

/-- The answer to a top-up sends nothing back. -/
theorem refunded_onTopUpResponse (env : Env) (s : SecretStore) (owner : AccountId) (nonce amount : Nat)
    (result : Option TopUpResult) : refunded (onTopUpResponse env s owner nonce amount result).2 = 0 := by
  unfold onTopUpResponse
  split
  · split <;> rfl
  · rfl
  · rfl

/-- A callback balances its books. -/
theorem callback_deposits {env : Env} {c c' : Contract} {payload : Option YieldPayload}
    {callback : YieldCallback} {es : List Effect} (hs : c.toSecretStore.Consistent H)
    (h : (runCallback H env c payload callback).commit c = .ok (c', es)) :
    c'.storageDeposits + callback.depositRefunded es = c.storageDeposits := by
  cases callback with
  | onExecutionResponse data =>
      obtain ⟨_, -, rfl⟩ := commit_ledger h
      rfl
  | onTopUpResponse owner nonce amount =>
      obtain ⟨p, ses, hrun, rfl, rfl⟩ := commit_secrets h
      have hbalance := (onTopUpResponse_move (H := H) hrun).balance hs
      simp only [bind_eq_ok, pure_eq_ok] at hrun
      obtain ⟨result, -, hrun⟩ := hrun
      have hquiet : refunded ses = 0 := by
        have hnone := refunded_onTopUpResponse env c.toSecretStore owner nonce amount result
        rwa [hrun] at hnone
      simp only [Contract.storageDeposits, YieldCallback.depositRefunded]
      omega
  | onDeletePaymentKeyResponse owner nonce =>
      obtain ⟨p, ses, hrun, rfl, rfl⟩ := commit_secrets h
      have hbalance := (onDeletePaymentKeyResponse_move (H := H) hrun).balance hs
      simp only [Contract.storageDeposits, YieldCallback.depositRefunded, sum_storageSent]
      omega

/-- **A step balances its books.** -/
theorem step_deposits (hf : Fires (World.next H) t) (hs : t.pre.contract.toSecretStore.Consistent H)
    (hg : t.pre.contract.toRegistry.Sound) :
    t.post.contract.storageDeposits + t.depositRefunded + t.stranded
      = t.pre.contract.storageDeposits + t.depositPaid := by
  have hsilent (hevent : ∀ env call, t.event ≠ .call env call) : t.stranded = 0 ∧ t.depositPaid = 0 := by
    unfold Step.stranded Step.depositPaid
    cases he : t.event with
    | call env call => exact absurd he (hevent env call)
    | yielded _ _ _ => exact ⟨rfl, rfl⟩
    | withdrawn _ _ => exact ⟨rfl, rfl⟩
  cases step_cases hf with
  | call env call event run post =>
      have hcall := call_deposits run hs hg
      simp only [Step.depositRefunded, Step.stranded, Step.depositPaid, event]
      exact hcall
  | callback env d delivery y payload event waiting delivered run post =>
      obtain ⟨hstranded, hpaid⟩ := hsilent (by simp [event])
      have hcallback := callback_deposits hs run
      simp only [hstranded, hpaid, Step.depositRefunded, event, waiting, Option.elim_some]
      exact hcallback
  | spent env d delivery event failed out post =>
      obtain ⟨hstranded, hpaid⟩ := hsilent (by simp [event])
      have hrefunded : t.depositRefunded = 0 := by
        simp only [Step.depositRefunded, event, out]
        cases t.pre.yields.lookup d with
        | none => rfl
        | some y => cases hcb : y.callback <;> simp [hcb, YieldCallback.depositRefunded]
      rw [hstranded, hpaid, hrefunded, post]
      rfl
  | withdrawn receipt transferOk x l event pending run out post =>
      obtain ⟨hstranded, hpaid⟩ := hsilent (by simp [event])
      rw [hstranded, hpaid, post]
      simp only [Step.depositRefunded, event]
      rfl
  | stuck receipt x event pending overflow out post =>
      obtain ⟨hstranded, hpaid⟩ := hsilent (by simp [event])
      rw [hstranded, hpaid, post]
      simp only [Step.depositRefunded, event]

/-- Deleting a project strands NEAR, and so does attaching more than one yocto to the deletion of a payment
    key. -/
def Event.strands : Event → Bool
  | .call _ (.deleteProject _)      => true
  | .call env (.deletePaymentKey _) => decide (1 < env.attachedDeposit)
  | _                               => false

/-- A project that is there has a version that was paid for. -/
theorem versionsOf_pos {c : Contract} (hg : c.toRegistry.Sound) {id : String} {project : Project}
    (exists_ : c.projects.lookup id = some project) : 0 < c.versionsOf id := by
  obtain ⟨versions, found, hheld⟩ := hg.active id project exists_
  obtain ⟨version, hversion⟩ := Option.ne_none_iff_exists'.mp hheld
  have hle := LookupMap.le_total (f := fun _ (v : VersionInfo) => v.storageDeposit) hversion
  have hpos := hg.priced _ versions _ version found hversion
  rw [Contract.versionsOf, exists_, Option.bind_some, found, Option.elim_some]
  exact Nat.lt_of_lt_of_le hpos hle

/-- The steps that strand something are those whose event says so. -/
theorem stranded_eq_zero_iff (hf : Fires (World.next H) t) (hg : t.pre.contract.toRegistry.Sound) :
    t.stranded = 0 ↔ t.event.strands = false := by
  unfold Step.stranded Event.strands
  cases he : t.event with
  | call env call =>
      cases call with
      | deleteProject name =>
          refine iff_of_false ?_ nofun
          rcases step_parts hf with ⟨env', call', he', -, hparts⟩ | ⟨hno, -⟩
          · rw [he] at he'
            cases he'
            rcases hparts.registry with ⟨ses, hrun, -⟩ | ⟨hoff, -⟩
            · have hcall := registry_call hrun
              generalize t.post.contract.toRegistry = g at hcall
              cases hcall with
              | delete project event exists_ _ => exact Nat.ne_of_gt (versionsOf_pos hg exists_)
            · exact absurd rfl (hoff _)
          · exact absurd he (hno env _)
      | deletePaymentKey nonce =>
          show env.attachedDeposit - 1 = 0 ↔ decide (1 < env.attachedDeposit) = false
          rw [decide_eq_false_iff_not]
          omega
      | _ => exact iff_of_true rfl rfl
  | yielded _ _ _ => exact iff_of_true rfl rfl
  | withdrawn _ _ => exact iff_of_true rfl rfl

end Step

/-! ## Whole histories -/

/-- **Deposits are conserved** over a history: what the storage methods took in is what the records say is held
    now and what was sent back. -/
def DepositsConserved (tr : List Step) (w : World) : Prop :=
  (tr.map Step.depositPaid).sum = w.contract.storageDeposits + (tr.map Step.depositRefunded).sum

instance (tr : List Step) (w : World) : Decidable (DepositsConserved tr w) :=
  inferInstanceAs (Decidable (_ = _))

section History
variable {H : Host} {owner : AccountId} {operator : Option AccountId} {standard version : Option String}
  {tr : List Step} {w : World}

/-- What was taken in is held, was sent back, or is stranded. -/
theorem deposits_accounted (h : World.History H owner operator standard version tr w) :
    w.contract.storageDeposits + (tr.map Step.depositRefunded).sum + (tr.map Step.stranded).sum
      = (tr.map Step.depositPaid).sum := by
  have hbalance := Run.balance
    (fun w => w.contract.toSecretStore.Consistent H ∧ w.contract.toRegistry.Sound)
    (fun w => w.contract.storageDeposits) Step.depositPaid (fun t : Step => t.depositRefunded + t.stranded)
    ⟨consistent_deploy owner operator standard version, nofun, nofun, nofun, nofun⟩
    (fun t hf hi => ⟨consistent_step hf hi.1, sound_step hf hi.2⟩)
    (fun t hf hi => by have := step_deposits hf hi.1 hi.2; omega) h
  have hzero : (World.deploy (Contract.new owner operator standard version)).contract.storageDeposits = 0 :=
    rfl
  rw [List.sum_map_add, hzero] at hbalance
  omega

/-- **Deposits are conserved exactly when nothing is stranded**: no project was deleted, and no deletion of a
    payment key was asked for with more than one yocto. -/
theorem deposits_conserved_iff (h : World.History H owner operator standard version tr w) :
    DepositsConserved tr w ↔ ∀ t ∈ tr, t.event.strands = false := by
  have haccounted := deposits_accounted h
  have hsum : (tr.map Step.stranded).sum = 0 ↔ ∀ t ∈ tr, t.event.strands = false := by
    rw [List.sum_eq_zero_iff_forall_eq_nat]
    simp only [List.mem_map, forall_exists_index, and_imp, forall_apply_eq_imp_iff₂]
    refine forall₂_congr fun t ht => ?_
    obtain ⟨tr₁, hrun, hf⟩ := h.fired ht
    exact stranded_eq_zero_iff hf (sound_history hrun)
  rw [← hsum, DepositsConserved]
  omega

end History

/-- Alice creates a project, with more attached than it costs. -/
def aliceCreatesProject : Event :=
  callBy aliceAccount (.createProject "app" (.gitHub "github.com/alice/app" "v1" none)) (10 ^ 24)

/-- A project, a version added and removed again, a payment key: everything is held or was sent back. -/
theorem deposits_conserved_with_versions : ∃ tr w,
    World.History asciiHost ownerAccount none none none tr w ∧ DepositsConserved tr w ∧
      0 < (tr.map Step.depositRefunded).sum ∧ 0 < w.contract.storageDeposits := by
  obtain ⟨tr, w, h, hp⟩ := exists_history
    [aliceCreatesProject,
     callBy aliceAccount (.addVersion "app" (.gitHub "github.com/alice/app" "v2" none) false) (10 ^ 24),
     callBy aliceAccount (.removeVersion "app" "github.com/alice/app@v2"),
     callBy aliceAccount (.storeSecrets (.system .paymentKey) "1" "a2V5" .allowAll none) (10 ^ 24)]
    (fun x => decide ((∀ t ∈ x.1, t.event.strands = false) ∧ 0 < (x.1.map Step.depositRefunded).sum ∧
      0 < x.2.contract.storageDeposits)) (by decide +kernel)
  obtain ⟨hkept, hrefunded, hheld⟩ := of_decide_eq_true hp
  exact ⟨tr, w, h, (deposits_conserved_iff h).mpr hkept, hrefunded, hheld⟩

/-- The deposit of the first version is taken with the project and not sent back with it: nothing is held, and
    more came in than went out. -/
theorem deposit_stranded_by_delete : ∃ tr w, World.History asciiHost ownerAccount none none none tr w ∧
    ¬ DepositsConserved tr w ∧ w.contract.storageDeposits = 0 ∧
      (tr.map Step.depositRefunded).sum < (tr.map Step.depositPaid).sum := by
  obtain ⟨tr, w, h, hp⟩ := exists_history
    [aliceCreatesProject, callBy aliceAccount (.deleteProject "app")]
    (fun x => decide (¬ DepositsConserved x.1 x.2 ∧ x.2.contract.storageDeposits = 0 ∧
      (x.1.map Step.depositRefunded).sum < (x.1.map Step.depositPaid).sum)) (by decide +kernel)
  exact ⟨tr, w, h, of_decide_eq_true hp⟩

end Outlayer
