import Outlayer.Contract.RegistrySteps
import Outlayer.Contract.SecretSteps
import Outlayer.Contract.Settlement
import Outlayer.Lib.JsonText

/-!
# `Contract.TopUpSteps` — what a step does to the yields, and what announces a top-up

A yield is created by a call, under the id the chain gave to that call, and by nothing else; what is in flight
keeps its callback and its first resumption until it is delivered. An event that announces a top-up is logged
by the call that created the yield the top-up waits on, and only `resumeTopup` resumes it with a new ciphertext.
The creation of a payment key logs the same event with an amount of zero, and no yield.
-/

namespace Outlayer
open Checked Collections Runs

/-! ## Effects that neither create a yield, nor announce a top-up, nor resume one with success -/

/-- An event that announces no top-up of anything. -/
def SystemEvent.Bare : SystemEvent → Prop
  | .topUpPaymentKey _ _ _ amount _ => amount = 0
  | _                               => True

/-- An effect on the storage that announces no top-up. -/
def StorageEffect.Bare : StorageEffect → Prop
  | .event _ _ e => e.Bare
  | _            => True

/-- An effect that neither waits for a top-up nor answers one. -/
def Effect.Bare : Effect → Prop
  | .yieldCreate _ _ _                         => False
  | .yieldResume _ (.topUpResult (.success _)) => False
  | .storage e                                 => e.Bare
  | _                                          => True

/-- Every effect is bare. -/
def AllBare (es : List Effect) : Prop := ∀ e ∈ es, e.Bare

/-- Every effect on the storage is bare. -/
def AllBareStorage (ses : List StorageEffect) : Prop := ∀ e ∈ ses, e.Bare

section Bare
variable {es es' : List Effect} {ses ses' : List StorageEffect}

@[simp] theorem allBare_nil : AllBare [] := fun _ h => absurd h List.not_mem_nil

@[simp] theorem allBare_cons {e : Effect} : AllBare (e :: es) ↔ e.Bare ∧ AllBare es := List.forall_mem_cons

@[simp] theorem allBare_append : AllBare (es ++ es') ↔ AllBare es ∧ AllBare es' := List.forall_mem_append

@[simp] theorem allBareStorage_nil : AllBareStorage [] := fun _ h => absurd h List.not_mem_nil

@[simp] theorem allBareStorage_cons {e : StorageEffect} : AllBareStorage (e :: ses) ↔ e.Bare ∧ AllBareStorage ses :=
  List.forall_mem_cons

@[simp] theorem allBareStorage_append : AllBareStorage (ses ++ ses') ↔ AllBareStorage ses ∧ AllBareStorage ses' :=
  List.forall_mem_append

@[simp] theorem bare_emit (c : Config) (e : SystemEvent) : (emitSystemEvent c e).Bare ↔ e.Bare := Iff.rfl

@[simp] theorem allBare_settle (receiver : AccountId) (n id : Nat) : AllBare (settle receiver n id) := by
  unfold settle
  split <;> simp [Effect.Bare]

@[simp] theorem allBareStorage_refund (receiver : AccountId) (n : Nat) : AllBareStorage (refund receiver n) := by
  unfold refund
  split <;> simp [StorageEffect.Bare]

/-- What a storage method does is bare when its own effects are. -/
theorem allBare_storage (h : AllBareStorage ses) : AllBare (ses.map .storage) := by
  intro e he
  obtain ⟨x, hx, rfl⟩ := List.mem_map.mp he
  exact h x hx

end Bare

/-! ## Calls on requests and money -/

section Ledger
variable {H : Host} {env : Env} {c : Contract} {l' : Ledger} {es : List Effect}

theorem resolveExecutionInternal_bare {cfg : Config} {l : Ledger} {id : Nat} {x : ExecutionResponse}
    (h : resolveExecutionInternal env cfg l id x = .ok es) : AllBare es := by
  simp only [resolveExecutionInternal, bind_eq_ok, pure_eq_ok] at h
  obtain ⟨_, -, _, -, _, -, rfl⟩ := h
  simp [Effect.Bare]

theorem cancelStaleExecution_bare {id : Nat} (h : cancelStaleExecution env c id = .ok (l', es)) : AllBare es := by
  simp only [cancelStaleExecution, bind_eq_ok, pure_eq_ok, Prod.mk.injEq] at h
  obtain ⟨_, -, _, -, _, -, _, -, _, -, _, -, _, -, -, rfl⟩ := h
  simp [Effect.Bare]

theorem emergencyCancelExecution_bare {id : Nat} (h : emergencyCancelExecution env c id = .ok (l', es)) :
    AllBare es := by
  simp only [emergencyCancelExecution, dropRequest, bind_eq_ok, pure_eq_ok, Prod.mk.injEq] at h
  obtain ⟨_, -, _, -, _, -, -, rfl⟩ := h
  simp [Effect.Bare]

theorem cancelEach_bare (l : Ledger) (ids : List Nat) : AllBare (cancelEach l ids).2 := by
  induction ids generalizing l with
  | nil => exact allBare_nil
  | cons id ids ih =>
      unfold cancelEach
      split
      · exact ih l
      · simpa [dropRequest, Effect.Bare] using ih _

theorem clearEach_bare {l : Ledger} {limit : Nat} {ids : List Nat}
    (h : clearEach l limit ids = .ok (l', es)) : AllBare es := by
  induction ids generalizing l limit es with
  | nil =>
      cases limit <;> cases h <;> exact allBare_nil
  | cons id ids ih =>
      cases limit with
      | zero =>
          cases h
          exact allBare_nil
      | succ limit =>
          unfold clearEach at h
          split at h
          · exact ih h
          · simp only [bind_eq_ok, pure_eq_ok] at h
            obtain ⟨_, -, ⟨_, rest⟩, hrest, h⟩ := h
            cases h
            simpa [dropRequest, Effect.Bare] using ih hrest

theorem onExecutionResponse_bare {data : RequestData} {response : Option ExecutionResponse}
    (h : onExecutionResponse H env c data response = .ok (l', es)) : AllBare es := by
  unfold onExecutionResponse at h
  split at h
  · cases h
    simp [Effect.Bare]
  · obtain ⟨_, -, h⟩ := bind_eq_ok.mp h
    split at h
    · split at h
      · simp only [settleSuccess, bind_eq_ok, pure_eq_ok, Prod.mk.injEq] at h
        obtain ⟨_, -, _, -, _, -, -, rfl⟩ := h
        simp [Effect.Bare, completedEvent, emitEvent]
      · simp only [settleFailure, bind_eq_ok, pure_eq_ok, Prod.mk.injEq] at h
        obtain ⟨_, -, _, -, _, -, -, rfl⟩ := h
        simp [Effect.Bare, completedEvent, emitEvent]
    · simp only [settlePromiseError, bind_eq_ok, pure_eq_ok, Prod.mk.injEq] at h
      obtain ⟨_, -, _, -, -, rfl⟩ := h
      simp [Effect.Bare]

end Ledger

/-! ## Calls on what is stored -/

section Stored
variable {H : Host} {env : Env} {c : Contract} {ses : List StorageEffect}

/-- A store announces nothing but the creation of a payment key, with an amount of zero. -/
theorem storeSecretsInternal_bare {s : SecretStore} {owner payer : AccountId} {accessor : SecretAccessor}
    {profile encrypted : String} {access : AccessCondition} {vaultId : Option AccountId}
    (h : storeSecretsInternal H env c owner payer accessor profile encrypted access vaultId = .ok (s, ses)) :
    AllBareStorage ses := by
  simp only [storeSecretsInternal, bind_eq_ok, pure_eq_ok] at h
  obtain ⟨_, -, _, -, _, -, _, -, _, -, _, -, _, -, ⟨s', events⟩, hregister, h⟩ := h
  cases h
  rw [allBareStorage_append]
  refine ⟨allBareStorage_refund _ _, ?_⟩
  unfold registerPaymentKey at hregister
  split at hregister
  · simp only [bind_eq_ok, pure_eq_ok, Prod.mk.injEq] at hregister
    obtain ⟨_, -, -, rfl⟩ := hregister
    simp [SystemEvent.Bare]
  · cases hregister
    exact allBareStorage_nil

theorem secrets_bare {s : SecretStore} {call : Call} (h : runCall H env c call = .secrets (.ok (s, ses))) :
    AllBareStorage ses := by
  cases call with
  | storeSecrets _ _ _ _ _ => exact storeSecretsInternal_bare (PartRun.secrets.inj h)
  | storeAgentSecret _ _ _ _ _ _ _ =>
      obtain ⟨_, _, _, -, hstore⟩ := storeAgentSecret_ok (PartRun.secrets.inj h)
      exact storeSecretsInternal_bare hstore
  | deleteAgentSecret _ _ _ _ =>
      obtain ⟨key, _, -, hdelete⟩ := deleteAgentSecret_ok (PartRun.secrets.inj h)
      obtain ⟨_, -, -, rfl⟩ := deleteSecretsInternal_ok key hdelete
      exact allBareStorage_refund _ _
  | deleteSecrets _ _ =>
      obtain ⟨_, -, -, rfl⟩ := deleteSecretsInternal_ok _ (PartRun.secrets.inj h)
      exact allBareStorage_refund _ _
  | unbindSecretVault _ _ =>
      replace h := PartRun.secrets.inj h
      simp only [unbindSecretVault, bind_eq_ok, pure_eq_ok, Prod.mk.injEq] at h
      obtain ⟨_, -, -, rfl⟩ := h
      exact allBareStorage_nil
  | updateAccess _ _ _ =>
      replace h := PartRun.secrets.inj h
      simp only [updateAccess, bind_eq_ok, pure_eq_ok, Prod.mk.injEq] at h
      obtain ⟨_, -, _, -, _, -, _, -, -, rfl⟩ := h
      exact allBareStorage_refund _ _
  | _ => cases h

theorem registry_bare {g : Registry} {call : Call} (h : runCall H env c call = .registry (.ok (g, ses))) :
    AllBareStorage ses := by
  cases call with
  | createProject _ _ =>
      cases registry_call h
      exact allBareStorage_refund _ _
  | addVersion _ _ _ =>
      cases registry_call h
      exact allBareStorage_refund _ _
  | setActiveVersion _ _ =>
      cases registry_call h
      exact allBareStorage_nil
  | removeVersion _ _ =>
      cases registry_call h
      exact allBareStorage_refund _ _
  | deleteProject _ =>
      replace h := PartRun.registry.inj h
      simp only [deleteProject, bind_eq_ok, pure_eq_ok, Prod.mk.injEq] at h
      obtain ⟨_, -, _, -, -, rfl⟩ := h
      simp [SystemEvent.Bare]
  | acceptProjectTransfer _ _ =>
      replace h := PartRun.registry.inj h
      simp only [acceptProjectTransfer, bind_eq_ok, pure_eq_ok, Prod.mk.injEq] at h
      obtain ⟨_, -, _, -, _, -, _, -, _, -, -, rfl⟩ := h
      simp [SystemEvent.Bare]
  | revokeProjectTransfer _ _ =>
      replace h := PartRun.registry.inj h
      simp only [revokeProjectTransfer, bind_eq_ok, pure_eq_ok, Prod.mk.injEq] at h
      obtain ⟨_, -, -, rfl⟩ := h
      simp [SystemEvent.Bare]
  | transferProject _ _ =>
      replace h := PartRun.registry.inj h
      simp only [transferProject, bind_eq_ok, pure_eq_ok, Prod.mk.injEq] at h
      obtain ⟨_, -, _, -, _, -, _, -, _, -, -, rfl⟩ := h
      simp [SystemEvent.Bare]
  | _ => cases h

theorem setFrozen_bare {p : PolicyStore} {walletPubkey verb alreadyMsg : String} {frozen : Bool}
    (h : setFrozen env c walletPubkey frozen verb alreadyMsg = .ok (p, ses)) : AllBareStorage ses := by
  simp only [setFrozen, bind_eq_ok, pure_eq_ok, Prod.mk.injEq] at h
  obtain ⟨_, -, _, -, _, -, _, -, _, -, -, rfl⟩ := h
  simp [SystemEvent.Bare]

theorem policies_bare {p : PolicyStore} {call : Call} (h : runCall H env c call = .policies (.ok (p, ses))) :
    AllBareStorage ses := by
  cases call with
  | storeWalletPolicy _ _ _ _ _ _ _ =>
      replace h := PartRun.policies.inj h
      simp only [storeWalletPolicy, bind_eq_ok, pure_eq_ok, Prod.mk.injEq] at h
      obtain ⟨_, -, _, -, _, -, _, -, _, -, _, -, _, -, _, -, _, -, _, -, _, -, _, -, -, rfl⟩ := h
      simp [SystemEvent.Bare]
  | freezeWallet _ => exact setFrozen_bare (PartRun.policies.inj h)
  | unfreezeWallet _ => exact setFrozen_bare (PartRun.policies.inj h)
  | deleteWalletPolicy _ =>
      replace h := PartRun.policies.inj h
      simp only [deleteWalletPolicy, bind_eq_ok, pure_eq_ok, Prod.mk.injEq] at h
      obtain ⟨_, -, _, -, _, -, _, -, -, rfl⟩ := h
      simp [SystemEvent.Bare]
  | setStorageRefundTo _ _ =>
      replace h := PartRun.policies.inj h
      simp only [setStorageRefundTo, bind_eq_ok, pure_eq_ok, Prod.mk.injEq] at h
      obtain ⟨_, -, _, -, _, -, _, -, -, rfl⟩ := h
      simp [SystemEvent.Bare]
  | _ => cases h

end Stored

/-! ## Calls -/

/-- What a call that went through does to the yields: nothing to a top-up's, a new one that is no top-up's, the
    one of a top-up together with its announcement, or a top-up resumed with success. -/
inductive FlightCall (env : Env) : Call → List Effect → Prop
  | bare {call : Call} {es : List Effect} (bare : AllBare es) : FlightCall env call es
  | waits {call : Call} {es : List Effect} (gas : Nat) (callback : YieldCallback)
      (other : ∀ owner nonce amount, callback ≠ .onTopUpResponse owner nonce amount) (bare : AllBare es) :
      FlightCall env call (.yieldCreate env.dataId gas callback :: es)
  | topUp {call : Call} (gas : Nat) (owner : AccountId) (nonce amount : Nat) (standard version data : String)
      (positive : 0 < amount) :
      FlightCall env call
        [.yieldCreate env.dataId gas (.onTopUpResponse owner nonce amount),
         .storage (.event standard version (.topUpPaymentKey env.dataId owner nonce amount data))]
  | resumes {text : String} (dataId : CryptoHash) (data : String) (decoded : decodeDataId text = .ok dataId) :
      FlightCall env (.resumeTopup text (.success data)) [.yieldResume dataId (.topUpResult (.success data))]

section Calls
variable {H : Host} {env : Env} {c c' : Contract} {es : List Effect}

private theorem execution_ne_topUp (data : RequestData) (owner : AccountId) (nonce amount : Nat) :
    YieldCallback.onExecutionResponse data ≠ .onTopUpResponse owner nonce amount := by
  intro h
  cases h

private theorem deletion_ne_topUp (owner' : AccountId) (nonce' : Nat) (owner : AccountId) (nonce amount : Nat) :
    YieldCallback.onDeletePaymentKeyResponse owner' nonce' ≠ .onTopUpResponse owner nonce amount := by
  intro h
  cases h

/-- A transfer announces a top-up of a positive amount, or nothing that waits. -/
theorem ftOnTransfer_flight {l' : Ledger} {senderId : AccountId} {amount : Nat} {msg : Option FtTransferAction}
    (h : ftOnTransfer env c senderId amount msg = .ok (l', es)) :
    FlightCall env (.ftOnTransfer senderId amount msg) es := by
  simp only [ftOnTransfer, bind_eq_ok] at h
  obtain ⟨_, -, _, -, action, -, h⟩ := h
  cases action with
  | topUpPaymentKey nonce owner =>
      simp only [handleTopUp, bind_eq_ok, pure_eq_ok, Prod.mk.injEq] at h
      obtain ⟨_, ⟨_, hmin, _, -, rfl⟩, -, rfl⟩ := h
      have hmin := require_eq_ok.mp hmin
      simp only [minTopUpAmount] at hmin
      exact .topUp _ _ _ _ _ _ _ (by omega)
  | depositBalance =>
      simp only [handleDepositBalance, bind_eq_ok, pure_eq_ok, Prod.mk.injEq] at h
      obtain ⟨_, -, -, rfl⟩ := h
      exact .bare (by simp [Effect.Bare, keepEverything])
  | buySubscription nonce owner plan =>
      simp only [handleBuySubscription, bind_eq_ok, pure_eq_ok, Prod.mk.injEq] at h
      obtain ⟨_, ⟨_, -, _, -, rfl⟩, -, rfl⟩ := h
      exact .bare (by simp [Effect.Bare, keepEverything, SystemEvent.Bare])

theorem ledger_flight {l' : Ledger} {call : Call} (h : runCall H env c call = .ledger (.ok (l', es))) :
    FlightCall env call es := by
  cases call with
  | requestExecution _ =>
      replace h := PartRun.ledger.inj h
      simp only [requestExecution, bind_eq_ok, pure_eq_ok, Prod.mk.injEq] at h
      obtain ⟨_, -, _, -, _, -, _, -, _, -, _, -, _, -, _, -, _, -, _, -, -, rfl⟩ := h
      exact .waits _ _ (execution_ne_topUp _) (by simp [Effect.Bare, emitEvent])
  | submitExecutionOutput _ _ =>
      replace h := PartRun.ledger.inj h
      simp only [submitExecutionOutput, bind_eq_ok, pure_eq_ok, Prod.mk.injEq] at h
      obtain ⟨_, -, _, -, -, rfl⟩ := h
      exact .bare allBare_nil
  | submitExecutionOutputAndResolve _ _ _ _ _ _ =>
      replace h := PartRun.ledger.inj h
      simp only [submitExecutionOutputAndResolve, bind_eq_ok, pure_eq_ok, Prod.mk.injEq] at h
      obtain ⟨_, -, _, -, _, heffects, -, rfl⟩ := h
      exact .bare (resolveExecutionInternal_bare heffects)
  | resolveExecution _ _ =>
      replace h := PartRun.ledger.inj h
      simp only [resolveExecution, bind_eq_ok, pure_eq_ok, Prod.mk.injEq] at h
      obtain ⟨_, -, _, heffects, -, rfl⟩ := h
      exact .bare (resolveExecutionInternal_bare heffects)
  | cancelStaleExecution _ => exact .bare (cancelStaleExecution_bare (PartRun.ledger.inj h))
  | withdrawDeveloperEarnings =>
      replace h := PartRun.ledger.inj h
      simp only [withdrawDeveloperEarnings, bind_eq_ok, pure_eq_ok, Prod.mk.injEq] at h
      obtain ⟨_, -, _, -, _, -, -, rfl⟩ := h
      exact .bare (by simp [Effect.Bare])
  | ftOnTransfer _ _ _ => exact ftOnTransfer_flight (PartRun.ledger.inj h)
  | emergencyCancelExecution _ => exact .bare (emergencyCancelExecution_bare (PartRun.ledger.inj h))
  | cancelPendingRequests ids =>
      replace h := PartRun.ledger.inj h
      simp only [cancelPendingRequests, bind_eq_ok, pure_eq_ok, Prod.mk.injEq] at h
      obtain ⟨_, -, -, rfl⟩ := h
      exact .bare (allBare_append.mpr ⟨cancelEach_bare _ _, by simp [Effect.Bare]⟩)
  | clearAllPendingRequests _ =>
      replace h := PartRun.ledger.inj h
      simp only [clearAllPendingRequests, bind_eq_ok, pure_eq_ok] at h
      obtain ⟨_, -, ⟨_, rest⟩, hrest, h⟩ := h
      cases h
      exact .bare (allBare_append.mpr ⟨clearEach_bare hrest, by simp [Effect.Bare]⟩)
  | _ => cases h

/-- A resumption that is accepted names a yield in flight. -/
theorem resumeTopup_ok {text : String} {result : TopUpResult} (h : resumeTopup env c text result = .ok es) :
    ∃ dataId, decodeDataId text = .ok dataId ∧ env.waiting dataId = true ∧
      es = [.yieldResume dataId (.topUpResult result)] := by
  simp only [resumeTopup, bind_eq_ok, require_eq_ok, pure_eq_ok] at h
  obtain ⟨_, -, dataId, hdecoded, _, hwaiting, rfl⟩ := h
  exact ⟨dataId, hdecoded, hwaiting, rfl⟩

theorem emits_flight {call : Call} (h : runCall H env c call = .emits (.ok es)) : FlightCall env call es := by
  cases call with
  | resumeTopup _ result =>
      obtain ⟨dataId, hdecoded, -, rfl⟩ := resumeTopup_ok (PartRun.emits.inj h)
      cases result with
      | success data => exact .resumes dataId data hdecoded
      | error _ => exact .bare (by simp [Effect.Bare])
  | deletePaymentKey _ =>
      replace h := PartRun.emits.inj h
      simp only [deletePaymentKey, bind_eq_ok, pure_eq_ok] at h
      obtain ⟨_, -, _, -, rfl⟩ := h
      exact .waits _ _ (deletion_ne_topUp _ _) (by simp [Effect.Bare, SystemEvent.Bare])
  | resumeDeletePaymentKey _ _ =>
      replace h := PartRun.emits.inj h
      simp only [resumeDeletePaymentKey, bind_eq_ok, pure_eq_ok] at h
      obtain ⟨_, -, _, -, _, -, rfl⟩ := h
      exact .bare (by simp [Effect.Bare])
  | topUpPaymentKeyWithNear _ _ =>
      replace h := PartRun.emits.inj h
      simp only [topUpPaymentKeyWithNear, bind_eq_ok, pure_eq_ok] at h
      obtain ⟨_, -, _, -, _, -, _, -, _, -, rfl⟩ := h
      exact .bare (by simp [Effect.Bare])
  | topUpPaymentKeyWithToken _ _ _ _ => exact absurd (PartRun.emits.inj h) throw_ne_ok
  | _ => cases h

/-- **Inversion of calls, on what they put in flight.** -/
theorem exec_flight {call : Call} (h : exec H env c call = .ok (c', es)) : FlightCall env call es := by
  replace h := (exec_commit h).2
  cases hr : runCall H env c call with
  | config r =>
      rw [hr] at h
      obtain ⟨_, -, -, rfl⟩ := commit_config h
      exact .bare allBare_nil
  | ledger r =>
      rw [hr] at h
      obtain ⟨_, rfl, -⟩ := commit_ledger h
      exact ledger_flight hr
  | secrets r =>
      rw [hr] at h
      obtain ⟨_, _, rfl, -, rfl⟩ := commit_secrets h
      exact .bare (allBare_storage (secrets_bare hr))
  | registry r =>
      rw [hr] at h
      obtain ⟨_, _, rfl, -, rfl⟩ := commit_registry h
      exact .bare (allBare_storage (registry_bare hr))
  | pricing r =>
      rw [hr] at h
      obtain ⟨_, -, -, rfl⟩ := commit_pricing h
      exact .bare allBare_nil
  | policies r =>
      rw [hr] at h
      obtain ⟨_, _, rfl, -, rfl⟩ := commit_policies h
      exact .bare (allBare_storage (policies_bare hr))
  | emits r =>
      rw [hr] at h
      obtain ⟨rfl, -⟩ := commit_emits h
      exact emits_flight hr

end Calls

/-! ## Callbacks -/

/-- A callback puts nothing in flight, and announces no top-up. -/
theorem callback_bare {H : Host} {env : Env} {c c' : Contract} {payload : Option YieldPayload}
    {callback : YieldCallback} {es : List Effect}
    (h : (runCallback H env c payload callback).commit c = .ok (c', es)) : AllBare es := by
  cases callback with
  | onExecutionResponse data =>
      obtain ⟨l', hr, -⟩ := commit_ledger h
      obtain ⟨response, -, hrun⟩ := bind_eq_ok.mp hr
      exact onExecutionResponse_bare hrun
  | onTopUpResponse owner nonce amount =>
      obtain ⟨s, ses, hr, -, rfl⟩ := commit_secrets h
      simp only [bind_eq_ok, pure_eq_ok] at hr
      obtain ⟨result, -, hrun⟩ := hr
      refine allBare_storage ?_
      unfold onTopUpResponse at hrun
      split at hrun
      · split at hrun <;> cases hrun <;> simp [StorageEffect.Bare]
      · cases hrun
        simp [StorageEffect.Bare]
      · cases hrun
        simp [StorageEffect.Bare]
  | onDeletePaymentKeyResponse owner nonce =>
      obtain ⟨s, ses, hr, -, rfl⟩ := commit_secrets h
      obtain ⟨result, -, hrun⟩ := bind_eq_ok.mp hr
      refine allBare_storage ?_
      unfold onDeletePaymentKeyResponse at hrun
      split at hrun
      · simp only [bind_eq_ok, pure_eq_ok, Prod.mk.injEq] at hrun
        obtain ⟨⟨s', ses'⟩, hdelete, -, rfl⟩ := hrun
        obtain ⟨_, -, -, rfl⟩ := deleteSecretsInternal_ok (paymentKey owner nonce) hdelete
        exact allBareStorage_refund _ _
      · cases hrun
        exact allBareStorage_nil
      · cases hrun
        exact allBareStorage_nil

/-! ## Yields in flight -/

/-- `y'` is `y`, perhaps resumed since; a first resumption stays. -/
structure Yield.Later (y y' : Yield) : Prop where
  callback : y'.callback = y.callback
  payload : ∀ p, y.payload = some p → y'.payload = some p

theorem Yield.Later.refl (y : Yield) : y.Later y := ⟨rfl, fun _ h => h⟩

theorem Yield.Later.trans {y y' y'' : Yield} (h : y.Later y') (h' : y'.Later y'') : y.Later y'' :=
  ⟨h'.callback.trans h.callback, fun p hp => h'.payload p (h.payload p hp)⟩

/-- The text of an id is decoded to the id. -/
theorem decodeDataId_hexEncode (d : CryptoHash) : decodeDataId (Text.hexEncode d.toList) = .ok d := by
  have hd : decodeDataId (Text.hexEncode d.toList)
      = if h : d.toList.toArray.size = 32 then .ok ⟨d.toList.toArray, h⟩ else .error "Invalid data_id length" := by
    rw [decodeDataId, Text.hexDecode_hexEncode]
    rfl
  rw [hd, dif_pos (by simp)]
  simp only [Vector.toArray_toList]

section Yields
variable {w : World} {c : Contract} {es : List Effect} {d : CryptoHash} {y : Yield}

/-- An effect that does not create the yield anew keeps it. -/
theorem apply_later {e : Effect} (hnew : ∀ gas cb, e ≠ .yieldCreate d gas cb)
    (h : w.yields.lookup d = some y) : ∃ y', (w.apply e).yields.lookup d = some y' ∧ y.Later y' := by
  cases e with
  | yieldCreate d' gas cb =>
      refine ⟨y, ?_, .refl y⟩
      show (w.yields.insert d' ⟨cb, none⟩).lookup d = some y
      rw [LookupMap.lookup_insert_iff, if_neg]
      · exact h
      · rintro rfl
        exact hnew gas cb rfl
  | yieldResume d' p =>
      show ∃ y', (resumeYield w.yields d' p).lookup d = some y' ∧ y.Later y'
      unfold resumeYield
      cases hd' : w.yields.lookup d' with
      | none => exact ⟨y, h, .refl y⟩
      | some y₀ =>
          simp only [LookupMap.lookup_insert_iff]
          by_cases hd : d = d'
          · subst hd
            obtain rfl : y = y₀ := Option.some.inj (h.symm.trans hd')
            rw [if_pos rfl]
            refine ⟨_, rfl, rfl, ?_⟩
            intro q hq
            simp [hq]
          · rw [if_neg hd]
            exact ⟨y, h, .refl y⟩
  | _ => exact ⟨y, h, .refl y⟩

/-- An execution that does not create the yield anew keeps it. -/
theorem after_later (hnew : ∀ gas cb, Effect.yieldCreate d gas cb ∉ es) (h : w.yields.lookup d = some y) :
    ∃ y', (w.after c es).yields.lookup d = some y' ∧ y.Later y' := by
  have hfold : ∀ (es : List Effect) (v : World) (y : Yield), (∀ gas cb, Effect.yieldCreate d gas cb ∉ es) →
      v.yields.lookup d = some y → ∃ y', (es.foldl World.apply v).yields.lookup d = some y' ∧ y.Later y' := by
    intro es
    induction es with
    | nil => exact fun v y _ hv => ⟨y, hv, .refl y⟩
    | cons e es ih =>
        intro v y hno hv
        obtain ⟨y₁, h₁, hl₁⟩ := apply_later (fun gas cb he => hno gas cb (he ▸ List.mem_cons_self)) hv
        obtain ⟨y₂, h₂, hl₂⟩ := ih _ y₁ (fun gas cb hm => hno gas cb (List.mem_cons_of_mem _ hm)) h₁
        exact ⟨y₂, h₂, hl₁.trans hl₂⟩
  exact hfold es { w with contract := c } y hnew h

theorem AllBare.no_create (h : AllBare es) (gas : Nat) (cb : YieldCallback) :
    Effect.yieldCreate d gas cb ∉ es := fun hmem => h _ hmem

/-- A call creates a yield under its own id only. -/
theorem FlightCall.create {env : Env} {call : Call} {gas : Nat} {cb : YieldCallback}
    (h : FlightCall env call es) (hmem : Effect.yieldCreate d gas cb ∈ es) : d = env.dataId := by
  cases h with
  | bare hb => exact absurd hmem (hb.no_create gas cb)
  | waits _ _ _ hb =>
      rcases List.mem_cons.mp hmem with heq | hmem
      · cases heq
        rfl
      · exact absurd hmem (hb.no_create gas cb)
  | topUp _ _ _ _ _ _ _ _ =>
      rcases List.mem_cons.mp hmem with heq | hmem
      · cases heq
        rfl
      · cases List.mem_singleton.mp hmem
  | resumes _ _ _ => cases List.mem_singleton.mp hmem

/-- No top-up is of nothing. -/
theorem FlightCall.positive {env : Env} {call : Call} {gas : Nat} {owner : AccountId} {nonce amount : Nat}
    (h : FlightCall env call es) (hmem : Effect.yieldCreate d gas (.onTopUpResponse owner nonce amount) ∈ es) :
    0 < amount := by
  cases h with
  | bare hb => exact absurd hmem (hb.no_create gas _)
  | waits _ _ other hb =>
      rcases List.mem_cons.mp hmem with heq | hmem
      · cases heq
        exact absurd rfl (other owner nonce amount)
      · exact absurd hmem (hb.no_create gas _)
  | topUp _ _ _ _ _ _ _ positive =>
      rcases List.mem_cons.mp hmem with heq | hmem
      · cases heq
        exact positive
      · cases List.mem_singleton.mp hmem
  | resumes _ _ _ => cases List.mem_singleton.mp hmem

/-- An announced top-up waits under the id it was announced with. -/
theorem FlightCall.announced {env : Env} {call : Call} {standard version data : String} {owner : AccountId}
    {nonce amount : Nat} (h : FlightCall env call es)
    (hmem : Effect.storage (.event standard version (.topUpPaymentKey d owner nonce amount data)) ∈ es)
    (positive : amount ≠ 0) :
    (w.after c es).yields.lookup d = some ⟨.onTopUpResponse owner nonce amount, none⟩ := by
  cases h with
  | bare hb => exact absurd (hb _ hmem) positive
  | waits _ _ _ hb =>
      rcases List.mem_cons.mp hmem with heq | hmem
      · cases heq
      · exact absurd (hb _ hmem) positive
  | topUp _ _ _ _ _ _ _ _ =>
      rcases List.mem_cons.mp hmem with heq | hmem
      · cases heq
      · cases List.mem_singleton.mp hmem
        exact AList.lookup_insert _
  | resumes _ _ _ => cases List.mem_singleton.mp hmem

/-- A call that resumes no top-up with success resumes none. -/
theorem FlightCall.resumed {env : Env} {call : Call} {data : String} (h : FlightCall env call es)
    (hmem : Effect.yieldResume d (.topUpResult (.success data)) ∈ es) :
    ∃ text, call = .resumeTopup text (.success data) ∧ decodeDataId text = .ok d := by
  cases h with
  | bare hb => exact (hb _ hmem).elim
  | waits _ _ _ hb =>
      rcases List.mem_cons.mp hmem with heq | hmem
      · cases heq
      · exact (hb _ hmem).elim
  | topUp _ _ _ _ _ _ _ _ =>
      rcases List.mem_cons.mp hmem with heq | hmem
      · cases heq
      · cases List.mem_singleton.mp hmem
  | @resumes text _ _ decoded =>
      cases List.mem_singleton.mp hmem
      exact ⟨text, rfl, decoded⟩

/-- Where the resumption of a yield comes from, effect by effect. -/
private theorem apply_payload {e : Effect} {p : YieldPayload} (h : (w.apply e).yields.lookup d = some y)
    (hp : y.payload = some p) :
    (∃ y₀, w.yields.lookup d = some y₀ ∧ y₀.payload = some p) ∨ e = .yieldResume d p := by
  cases e with
  | yieldCreate d' gas cb =>
      change (w.yields.insert d' ⟨cb, none⟩).lookup d = some y at h
      rw [LookupMap.lookup_insert_iff] at h
      split at h
      · cases h
        cases hp
      · exact Or.inl ⟨y, h, hp⟩
  | yieldResume d' p' =>
      change (resumeYield w.yields d' p').lookup d = some y at h
      unfold resumeYield at h
      cases hl : w.yields.lookup d' with
      | none =>
          rw [hl] at h
          exact Or.inl ⟨y, h, hp⟩
      | some y₀ =>
          rw [hl] at h
          dsimp only at h
          rw [LookupMap.lookup_insert_iff] at h
          split at h
          · next hd =>
              subst hd
              cases h
              cases hpre : y₀.payload with
              | none =>
                  simp only [hpre, Option.getD_none, Option.some.injEq] at hp
                  exact Or.inr (by rw [hp])
              | some q =>
                  simp only [hpre, Option.getD_some] at hp
                  exact Or.inl ⟨y₀, hl, hpre.trans hp⟩
          · exact Or.inl ⟨y, h, hp⟩
  | _ => exact Or.inl ⟨y, h, hp⟩

/-- A resumption after an execution was there before it, or the execution made it. -/
theorem after_payload {p : YieldPayload} (h : (w.after c es).yields.lookup d = some y)
    (hp : y.payload = some p) :
    (∃ y₀, w.yields.lookup d = some y₀ ∧ y₀.payload = some p) ∨ Effect.yieldResume d p ∈ es := by
  have hfold : ∀ (es : List Effect) (v : World) (y : Yield),
      (es.foldl World.apply v).yields.lookup d = some y → y.payload = some p →
      (∃ y₀, v.yields.lookup d = some y₀ ∧ y₀.payload = some p) ∨ Effect.yieldResume d p ∈ es := by
    intro es
    induction es with
    | nil => exact fun v y h hp => Or.inl ⟨y, h, hp⟩
    | cons e es ih =>
        intro v y h hp
        rcases ih _ y h hp with ⟨y₁, h₁, hp₁⟩ | hmem
        · rcases apply_payload h₁ hp₁ with hold | he
          · exact Or.inl hold
          · exact Or.inr (he ▸ List.mem_cons_self)
        · exact Or.inr (List.mem_cons_of_mem _ hmem)
  exact hfold es { w with contract := c } y h hp

end Yields

/-! ## The callback of a top-up -/

section TopUpCallback
variable {H : Host} {env : Env} {c c' : Contract} {es : List Effect} {payload : Option YieldPayload}
  {owner : AccountId} {nonce amount : Nat}

theorem u128Json_inj {m n : Nat} (h : u128Json m = u128Json n) : m = n := by
  have hq := congrArg (fun s : String => s.toList ++ []) h
  simp only [u128Json, Json.quote_toList_append] at hq
  exact Text.toString_nat_inj (Json.writeString_inj hq).1

/-- What the callback of a top-up stores and answers, read off its result. -/
theorem topUp_callback
    (h : (runCallback H env c payload (.onTopUpResponse owner nonce amount)).commit c = .ok (c', es)) :
    ∃ result, callbackResult YieldPayload.asTopUpResult payload = .ok result ∧
      c'.toSecretStore = (onTopUpResponse env c.toSecretStore owner nonce amount result).1 ∧
      es = (onTopUpResponse env c.toSecretStore owner nonce amount result).2.map .storage := by
  obtain ⟨s, ses, hr, rfl, rfl⟩ := commit_secrets h
  simp only [bind_eq_ok, pure_eq_ok] at hr
  obtain ⟨result, hresult, hrun⟩ := hr
  exact ⟨result, hresult, by rw [hrun], by rw [hrun]⟩

/-- A success is read off a payload of success, never off a deletion's. -/
theorem callbackResult_success {data : String}
    (h : callbackResult YieldPayload.asTopUpResult payload = .ok (some (.success data))) :
    payload = some (.topUpResult (.success data)) := by
  cases payload with
  | none => cases h
  | some p =>
      simp only [callbackResult, bind_eq_ok, expect_eq_ok, pure_eq_ok, Option.some.injEq] at h
      obtain ⟨r, hr, rfl⟩ := h
      -- a refused deletion is read as a refusal
      cases p with
      | topUpResult r' =>
          obtain rfl : r' = .success data := Option.some.inj hr
          rfl
      | executionResponse _ => cases hr
      | deletePaymentKeyResult r' => cases r' <;> cases hr

/-- Only nothing given back is everything kept. -/
theorem eq_zero_of_returned {n : Nat}
    (h : Effect.storage (.valueReturn (u128Json 0)) ∈ ([.valueReturn (u128Json n)] : List StorageEffect).map .storage) :
    n = 0 := by
  obtain ⟨e, he, heq⟩ := List.mem_map.mp h
  obtain rfl := List.mem_singleton.mp he
  exact (u128Json_inj (StorageEffect.valueReturn.inj (Effect.storage.inj heq).symm)).symm

/-- A success keeps the tokens, when the key is still there. -/
theorem topUp_keeps {data : String}
    (h : (runCallback H env c (some (.topUpResult (.success data))) (.onTopUpResponse owner nonce amount)).commit c
      = .ok (c', es))
    (held : paymentKey owner nonce ∈ c.secretsStorage) :
    Effect.storage (.valueReturn (u128Json 0)) ∈ es := by
  obtain ⟨result, hresult, -, rfl⟩ := topUp_callback h
  cases hresult
  obtain ⟨row, hrow⟩ := LookupMap.mem_iff_lookup.mp held
  simp [onTopUpResponse, hrow]

/-- **What the callback of a top-up does to the stored key**: it stores the new ciphertext and keeps the tokens, or
    it leaves the secrets alone and keeps nothing. -/
theorem topUp_stores (positive : 0 < amount) {row : SecretProfile}
    (held : c.secretsStorage.lookup (paymentKey owner nonce) = some row)
    (h : (runCallback H env c payload (.onTopUpResponse owner nonce amount)).commit c = .ok (c', es)) :
    (∃ data, payload = some (.topUpResult (.success data)) ∧
        c'.toSecretStore = { c.toSecretStore with
          secretsStorage := c.secretsStorage.insert (paymentKey owner nonce)
            { row with encryptedSecrets := data, updatedAt := env.blockTimestamp } } ∧
        Effect.storage (.valueReturn (u128Json 0)) ∈ es) ∨
      c'.toSecretStore = c.toSecretStore ∧ Effect.storage (.valueReturn (u128Json 0)) ∉ es := by
  obtain ⟨result, hresult, hstore, hes⟩ := topUp_callback h
  -- what goes back is not nothing
  have hback : Effect.storage (.valueReturn (u128Json 0))
      ∉ ([.valueReturn (u128Json amount)] : List StorageEffect).map Effect.storage := by
    intro hmem
    have := eq_zero_of_returned hmem
    omega
  rcases result with _ | ⟨data⟩ | ⟨_⟩
  · exact Or.inr ⟨hstore, hes ▸ hback⟩
  · refine Or.inl ⟨data, callbackResult_success hresult, ?_, ?_⟩
    · rw [hstore]
      simp only [onTopUpResponse, held]
    · rw [hes]
      simp [onTopUpResponse, held]
  · exact Or.inr ⟨hstore, hes ▸ hback⟩

/-- **The tokens of a top-up are kept only if it was resumed with success.** -/
theorem topUp_kept (positive : 0 < amount)
    (h : (runCallback H env c payload (.onTopUpResponse owner nonce amount)).commit c = .ok (c', es))
    (hkept : Effect.storage (.valueReturn (u128Json 0)) ∈ es) :
    ∃ data, payload = some (.topUpResult (.success data)) := by
  obtain ⟨result, hresult, -, rfl⟩ := topUp_callback h
  rcases result with _ | ⟨data⟩ | ⟨_⟩
  · have := eq_zero_of_returned hkept
    omega
  · exact ⟨data, callbackResult_success hresult⟩
  · have := eq_zero_of_returned hkept
    omega

end TopUpCallback

/-! ## Steps -/

section Steps
variable {H : Host} {t : Step} {d : CryptoHash}

/-- What a step has for effects: those of a call, or bare ones. -/
theorem step_flight (h : Fires (World.next H) t) :
    (∃ env call, t.event = .call env call ∧ FlightCall (t.pre.seenBy env) call t.out ∧
      t.post = t.pre.after t.post.contract t.out) ∨ AllBare t.out := by
  cases step_cases h with
  | call env call event run post => exact Or.inl ⟨env, call, event, exec_flight run, post⟩
  | callback env d' delivery y payload event waiting delivered run post => exact Or.inr (callback_bare run)
  | spent env d' delivery event failed out post => exact Or.inr (out ▸ allBare_nil)
  | withdrawn receipt transferOk x l event pending run out post => exact Or.inr (out ▸ allBare_nil)
  | stuck receipt x event pending overflow out post => exact Or.inr (out ▸ allBare_nil)

/-- A call that is a step got a new id from the chain. -/
theorem call_id_new {env : Env} {call : Call} (h : Fires (World.next H) t) (event : t.event = .call env call) :
    env.dataId ∉ t.pre.yields := by
  unfold Fires World.next at h
  rw [event] at h
  change World.call H t.pre env call = _ at h
  unfold World.call at h
  split at h
  · cases h
  · assumption

/-- A yield that is delivered is gone. -/
theorem delivered_gone (h : Fires (World.next H) t) {env : Env} {delivery : Delivery}
    (event : t.event = .yielded env d delivery) : t.post.yields.lookup d = none := by
  have hgone : (t.pre.spend d).yields.lookup d = none := by
    show (t.pre.yields.erase d).lookup d = none
    rw [LookupMap.lookup_erase_iff, if_pos rfl]
  cases step_cases h with
  | call _ _ event' _ _ => cases event.symm.trans event'
  | callback env' d' delivery' y payload event' waiting delivered run post =>
      cases event.symm.trans event'
      rw [post]
      by_contra hne
      obtain ⟨y₁, hy₁⟩ := Option.ne_none_iff_exists'.mp hne
      rcases after_yield hy₁ with ⟨y₀, h₀, -⟩ | ⟨gas, hmem⟩
      · rw [hgone] at h₀
        cases h₀
      · exact (callback_bare run).no_create gas _ hmem
  | spent env' d' delivery' event' failed out post =>
      cases event.symm.trans event'
      rw [post]
      exact hgone
  | withdrawn _ _ _ _ event' _ _ _ _ => cases event.symm.trans event'
  | stuck _ _ event' _ _ _ _ => cases event.symm.trans event'

/-- **A yield that is not delivered stays in flight**, with its callback and its first resumption. -/
theorem step_yield_later (h : Fires (World.next H) t) (stays : ∀ env delivery, t.event ≠ .yielded env d delivery)
    {y : Yield} (hy : t.pre.yields.lookup d = some y) :
    ∃ y', t.post.yields.lookup d = some y' ∧ y.Later y' := by
  have hspend : ∀ {d' : CryptoHash}, d' ≠ d → (t.pre.spend d').yields.lookup d = some y := by
    intro d' hne
    show (t.pre.yields.erase d').lookup d = some y
    rw [LookupMap.lookup_erase_iff, if_neg (Ne.symm hne)]
    exact hy
  cases step_cases h with
  | call env call event run post =>
      rw [post]
      refine after_later ?_ hy
      intro gas cb hmem
      -- a new id is not the id of what is in flight
      have hd : d = env.dataId := (exec_flight run).create hmem
      exact call_id_new h event (hd ▸ LookupMap.mem_iff_lookup.mpr ⟨y, hy⟩)
  | callback env d' delivery y' payload event waiting delivered run post =>
      have hne : d' ≠ d := fun hd => stays env delivery (hd ▸ event)
      rw [post]
      exact after_later (callback_bare run).no_create (hspend hne)
  | spent env d' delivery event failed out post =>
      have hne : d' ≠ d := fun hd => stays env delivery (hd ▸ event)
      rw [post]
      exact ⟨y, hspend hne, .refl y⟩
  | withdrawn receipt transferOk x l event pending run out post =>
      rw [post]
      exact ⟨y, hy, .refl y⟩
  | stuck receipt x event pending overflow out post =>
      rw [post]
      exact ⟨y, hy, .refl y⟩

/-- A yield that was not in flight before a step is created by it, under the id of the call. -/
theorem step_yield_new (h : Fires (World.next H) t) (hold : t.pre.yields.lookup d = none) {y : Yield}
    (hy : t.post.yields.lookup d = some y) : ∃ env call, t.event = .call env call ∧ env.dataId = d := by
  rcases step_yield h hy with ⟨y₀, h₀, -⟩ | ⟨gas, hmem⟩
  · rw [hold] at h₀
    cases h₀
  · rcases step_flight h with ⟨env, call, event, hflight, -⟩ | hbare
    · exact ⟨env, call, event, (hflight.create hmem).symm⟩
    · exact absurd hmem (hbare.no_create gas _)

/-- **A top-up that a step announces waits**, under the id it was announced with. -/
theorem step_announced (h : Fires (World.next H) t) {standard version data : String} {owner : AccountId}
    {nonce amount : Nat}
    (hmem : Effect.storage (.event standard version (.topUpPaymentKey d owner nonce amount data)) ∈ t.out)
    (positive : amount ≠ 0) :
    t.post.yields.lookup d = some ⟨.onTopUpResponse owner nonce amount, none⟩ := by
  rcases step_flight h with ⟨env, call, event, hflight, post⟩ | hbare
  · rw [post]
    exact hflight.announced hmem positive
  · exact absurd (hbare _ hmem) positive

/-- **Only `resumeTopup` resumes a top-up with success.** -/
theorem step_topUp_resumed (h : Fires (World.next H) t) {y : Yield} {data : String}
    (hy : t.post.yields.lookup d = some y) (hp : y.payload = some (.topUpResult (.success data))) :
    (∃ y₀, t.pre.yields.lookup d = some y₀ ∧ y₀.payload = some (.topUpResult (.success data))) ∨
      ∃ env text, t.event = .call env (.resumeTopup text (.success data)) ∧ decodeDataId text = .ok d := by
  cases step_cases h with
  | call env call event run post =>
      rw [post] at hy
      rcases after_payload hy hp with hold | hmem
      · exact Or.inl hold
      · obtain ⟨text, rfl, hdecoded⟩ := (exec_flight run).resumed hmem
        exact Or.inr ⟨env, text, event, hdecoded⟩
  | callback env d' delivery y' payload event waiting delivered run post =>
      rw [post] at hy
      rcases after_payload hy hp with ⟨y₀, h₀, hp₀⟩ | hmem
      · exact Or.inl ⟨y₀, lookup_of_spend h₀, hp₀⟩
      · exact (callback_bare run _ hmem).elim
  | spent env d' delivery event failed out post =>
      rw [post] at hy
      exact Or.inl ⟨y, lookup_of_spend hy, hp⟩
  | withdrawn receipt transferOk x l event pending run out post =>
      rw [post] at hy
      exact Or.inl ⟨y, hy, hp⟩
  | stuck receipt x event pending overflow out post =>
      rw [post] at hy
      exact Or.inl ⟨y, hy, hp⟩

/-- A resumption that is a step finds its yield; the first one stays. -/
theorem step_resumes (h : Fires (World.next H) t) {env : Env} {text : String} {result : TopUpResult}
    (event : t.event = .call env (.resumeTopup text result)) :
    ∃ d y, decodeDataId text = .ok d ∧ t.pre.yields.lookup d = some y ∧
      t.post.yields.lookup d = some { y with payload := some (y.payload.getD (.topUpResult result)) } := by
  cases step_cases h with
  | call env' call event' run post =>
      cases event.symm.trans event'
      obtain ⟨hrun, -⟩ := commit_emits (exec_commit run).2
      obtain ⟨d, hdecoded, hwaiting, hes⟩ := resumeTopup_ok hrun
      obtain ⟨y, hy⟩ := LookupMap.mem_iff_lookup.mp (of_decide_eq_true hwaiting)
      refine ⟨d, y, hdecoded, hy, ?_⟩
      rw [post, hes]
      show (resumeYield t.pre.yields d (.topUpResult result)).lookup d = _
      rw [resumeYield, hy]
      exact AList.lookup_insert _
  | callback _ _ _ _ _ event' _ _ _ _ => cases event.symm.trans event'
  | spent _ _ _ event' _ _ _ => cases event.symm.trans event'
  | withdrawn _ _ _ _ event' _ _ _ _ => cases event.symm.trans event'
  | stuck _ _ event' _ _ _ _ => cases event.symm.trans event'

/-- Every top-up in flight is of something. -/
def World.TopUpsPositive (w : World) : Prop :=
  ∀ d y owner nonce amount, w.yields.lookup d = some y → y.callback = .onTopUpResponse owner nonce amount →
    0 < amount

theorem topUpsPositive_step (h : Fires (World.next H) t) (inv : t.pre.TopUpsPositive) : t.post.TopUpsPositive := by
  intro d y owner nonce amount hy hcb
  rcases step_yield h hy with ⟨y₀, h₀, hcb₀⟩ | ⟨gas, hmem⟩
  · exact inv d y₀ owner nonce amount h₀ (hcb₀.trans hcb)
  · rw [hcb] at hmem
    rcases step_flight h with ⟨env, call, event, hflight, -⟩ | hbare
    · exact hflight.positive hmem
    · exact absurd hmem (hbare.no_create gas _)

section Delivered
variable {env : Env} {delivery : Delivery} {y : Yield} {owner : AccountId} {nonce amount : Nat}

/-- **A top-up resumed with success and delivered keeps its tokens**, when its key is still there. -/
theorem delivered_keeps (h : Fires (World.next H) t) (event : t.event = .yielded env d .resumed)
    (waiting : t.pre.yields.lookup d = some y) (callback : y.callback = .onTopUpResponse owner nonce amount)
    {data : String} (payload : y.payload = some (.topUpResult (.success data)))
    (held : paymentKey owner nonce ∈ t.pre.contract.secretsStorage) :
    Effect.storage (.valueReturn (u128Json 0)) ∈ t.out := by
  cases step_cases h with
  | call _ _ event' _ _ => cases event.symm.trans event'
  | callback env' d' delivery' y' payload' event' waiting' delivered run post =>
      cases event.symm.trans event'
      obtain rfl : y = y' := Option.some.inj (waiting.symm.trans waiting')
      rcases delivered with ⟨hno, -⟩ | ⟨-, rfl, -⟩
      · cases hno
      · rw [payload, callback] at run
        exact topUp_keeps run held
  | spent env' d' delivery' event' failed out post =>
      cases event.symm.trans event'
      -- the answer to a top-up does not fail
      have hact := YieldCallback.secretAct_of_failed (failed rfl y waiting)
      rw [payload, callback] at hact
      cases hact
  | withdrawn _ _ _ _ event' _ _ _ _ => cases event.symm.trans event'
  | stuck _ _ event' _ _ _ _ => cases event.symm.trans event'

/-- A top-up that keeps its tokens was resumed with success. -/
theorem delivered_kept (h : Fires (World.next H) t) (event : t.event = .yielded env d delivery)
    (waiting : t.pre.yields.lookup d = some y) (callback : y.callback = .onTopUpResponse owner nonce amount)
    (positive : 0 < amount) (hkept : Effect.storage (.valueReturn (u128Json 0)) ∈ t.out) :
    ∃ data, y.payload = some (.topUpResult (.success data)) := by
  cases step_cases h with
  | call _ _ event' _ _ => cases event.symm.trans event'
  | callback env' d' delivery' y' payload' event' waiting' delivered run post =>
      cases event.symm.trans event'
      obtain rfl : y = y' := Option.some.inj (waiting.symm.trans waiting')
      rw [callback] at run
      obtain ⟨data, hdata⟩ := topUp_kept positive run hkept
      rcases delivered with ⟨-, hnone⟩ | ⟨-, hpayload, -⟩
      · rw [hdata] at hnone
        cases hnone
      · exact ⟨data, hpayload ▸ hdata⟩
  | spent env' d' delivery' event' failed out post =>
      rw [out] at hkept
      cases hkept
  | withdrawn _ _ _ _ event' _ _ _ _ => cases event.symm.trans event'
  | stuck _ _ event' _ _ _ _ => cases event.symm.trans event'

/-- **A top-up that is delivered** is resumed with success, stores its ciphertext and keeps its tokens, or it leaves
    the secrets alone and keeps nothing. -/
theorem delivered_stores (h : Fires (World.next H) t) (event : t.event = .yielded env d delivery)
    (waiting : t.pre.yields.lookup d = some y) (callback : y.callback = .onTopUpResponse owner nonce amount)
    (positive : 0 < amount) {row : SecretProfile}
    (held : t.pre.contract.secretsStorage.lookup (paymentKey owner nonce) = some row) :
    (∃ data time, delivery = .resumed ∧ y.payload = some (.topUpResult (.success data)) ∧
        t.post.contract.toSecretStore = { t.pre.contract.toSecretStore with
          secretsStorage := t.pre.contract.secretsStorage.insert (paymentKey owner nonce)
            { row with encryptedSecrets := data, updatedAt := time } } ∧
        Effect.storage (.valueReturn (u128Json 0)) ∈ t.out) ∨
      t.post.contract.toSecretStore = t.pre.contract.toSecretStore ∧
        Effect.storage (.valueReturn (u128Json 0)) ∉ t.out := by
  cases step_cases h with
  | call _ _ event' _ _ => cases event.symm.trans event'
  | callback env' d' delivery' y' payload' event' waiting' delivered run post =>
      cases event.symm.trans event'
      obtain rfl : y = y' := Option.some.inj (waiting.symm.trans waiting')
      rw [callback] at run
      rcases topUp_stores positive held run with ⟨data, hpayload, hstore, hout⟩ | hidle
      · rcases delivered with ⟨-, hnone⟩ | ⟨hresumed, hsame, -⟩
        · rw [hpayload] at hnone
          cases hnone
        · exact Or.inl ⟨data, _, hresumed, hsame ▸ hpayload, hstore, hout⟩
      · exact Or.inr hidle
  | spent env' d' delivery' event' failed out post =>
      refine Or.inr ⟨by rw [post]; rfl, ?_⟩
      rw [out]
      exact List.not_mem_nil
  | withdrawn _ _ _ _ event' _ _ _ _ => cases event.symm.trans event'
  | stuck _ _ event' _ _ _ _ => cases event.symm.trans event'

end Delivered

end Steps

end Outlayer
