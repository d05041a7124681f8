import Outlayer.Contract.Correctness.Nonces

/-!
# `Contract.Correctness.NonceReuse` — nonces of keys the floor does not cover

A chain that was migrated holds payment keys older than the floor map: nothing says how their nonces relate to
the floors. From any such state a nonce stays used after its key is gone when the key goes through the payment
door, which raises the floor. The general door for secrets removes the row and leaves the floor, and a nonce
above it is free again.
-/

namespace Outlayer
open Text Checked Collections Runs

/-! ## Used up for good -/

/-- No store takes this nonce: the floor covers it, or it is too large. -/
def SecretStore.Retired (s : SecretStore) (owner : AccountId) (nonce : Nat) : Prop :=
  nonce ≤ paymentKeyNonceFloor s owner ∨ maxNonce < nonce

section Retired
variable {H : Host} {s s' : SecretStore} {owner : AccountId} {nonce : Nat} {t : Step}

theorem SecretStore.Retired.not_accepts {c : Contract} (h : c.toSecretStore.Retired owner nonce) :
    ¬ AcceptsNonce H c owner nonce := by
  intro haccepts
  obtain ⟨habove, hfits⟩ := above_of_accepts haccepts
  rcases h with hle | hlarge
  · omega
  · omega

/-- Raising a floor lowers none. -/
theorem floor_le_raise (s : SecretStore) (owner owner' : AccountId) (nonce : Nat) :
    paymentKeyNonceFloor s owner' ≤ paymentKeyNonceFloor (raisePaymentKeyNonceFloor s owner nonce) owner' := by
  by_cases hlt : paymentKeyNonceFloor s owner < nonce
  · rw [raise_of_lt hlt]
    by_cases howner : owner' = owner
    · subst howner
      simp only [paymentKeyNonceFloor, AList.lookup_insert, Option.getD_some] at hlt ⊢
      omega
    · simp only [paymentKeyNonceFloor, AList.lookup_insert_ne howner]
      exact Nat.le_refl _
  · unfold raisePaymentKeyNonceFloor
    split
    · next hall =>
        -- only an absent entry passes the test with a floor that is not below the nonce
        cases hl : s.paymentKeyNonceFloors.lookup owner with
        | none =>
            rw [paymentKeyNonceFloor, hl] at hlt
            obtain rfl : nonce = 0 := by simpa using hlt
            by_cases howner : owner' = owner
            · subst howner
              simp [paymentKeyNonceFloor, hl]
            · simp only [paymentKeyNonceFloor, AList.lookup_insert_ne howner]
              exact Nat.le_refl _
        | some floor =>
            rw [hl] at hall
            rw [paymentKeyNonceFloor, hl] at hlt
            exact absurd (by simpa using hall) hlt
    · exact Nat.le_refl _

/-- The raised floor covers the nonce. -/
theorem le_floor_raise (s : SecretStore) (owner : AccountId) (nonce : Nat) :
    nonce ≤ paymentKeyNonceFloor (raisePaymentKeyNonceFloor s owner nonce) owner := by
  by_cases hlt : paymentKeyNonceFloor s owner < nonce
  · rw [raise_of_lt hlt]
    simp [paymentKeyNonceFloor]
  · exact Nat.le_trans (Nat.le_of_not_lt hlt) (floor_le_raise s owner owner nonce)

theorem floor_le_move {paid : Nat} {act : SecretAct} {ses : List StorageEffect}
    (h : SecretMove H s paid act s' ses) (owner : AccountId) :
    paymentKeyNonceFloor s owner ≤ paymentKeyNonceFloor s' owner := by
  cases h with
  | store key row s' ses kind stores floors =>
      rw [paymentKeyNonceFloor, paymentKeyNonceFloor, floors]
  | create owner' nonce row s' ses stores new above fits floors =>
      by_cases howner : owner = owner'
      · subst howner
        have hnew : paymentKeyNonceFloor s' owner = nonce := by
          rw [paymentKeyNonceFloor, floors, AList.lookup_insert, Option.getD_some]
        omega
      · simp only [paymentKeyNonceFloor, floors, AList.lookup_insert_ne howner]
        exact Nat.le_refl _
  | delete key row receiver held unpaid => exact Nat.le_refl _
  | deletePaymentKey owner' nonce row held unpaid =>
      exact floor_le_raise (s.without (paymentKey owner' nonce)) owner' owner nonce
  | unbind key row held unpaid => exact Nat.le_refl _
  | recondition key row row' receiver held priced covered => exact Nat.le_refl _
  | topUp owner' nonce data time row held unpaid => exact Nat.le_refl _
  | missed owner' nonce amount data gone unpaid => exact Nat.le_refl _
  | idle ses quiet unpaid => exact Nat.le_refl _

/-- **No step lowers a floor**, from whatever state. -/
theorem floor_le_step (hf : Fires (World.next H) t) (owner : AccountId) :
    paymentKeyNonceFloor t.pre.contract.toSecretStore owner
      ≤ paymentKeyNonceFloor t.post.contract.toSecretStore owner := by
  rcases step_secrets hf with ⟨_, _, hmove⟩ | ⟨-, hsame⟩
  · exact floor_le_move hmove owner
  · rw [hsame]

theorem retired_step (hf : Fires (World.next H) t)
    (h : t.pre.contract.toSecretStore.Retired owner nonce) :
    t.post.contract.toSecretStore.Retired owner nonce :=
  h.imp (fun hle => Nat.le_trans hle (floor_le_step hf owner)) id

/-- A retired nonce is not created. -/
theorem SecretStore.Retired.not_created (hf : Fires (World.next H) t)
    (h : t.pre.contract.toSecretStore.Retired owner nonce) : t.createdNonce owner ≠ some nonce := by
  intro hcreated
  have hact := createdNonce_eq_some.mp hcreated
  rcases step_secrets hf with ⟨_, _, hmove⟩ | ⟨hother, -⟩
  · rw [hact] at hmove
    cases hmove with
    | create owner nonce row s ses stores new above fits floors =>
        rcases h with hle | hlarge
        · omega
        · omega
  · rw [hact] at hother
    cases hother

end Retired

/-! ## How a payment key leaves -/

/-- The payment key is there before the step and not after it. -/
def Step.Drops (t : Step) (owner : AccountId) (nonce : Nat) : Prop :=
  paymentKey owner nonce ∈ t.pre.contract.secretsStorage ∧
    paymentKey owner nonce ∉ t.post.contract.secretsStorage

/-- Whose payment key the general door is asked to remove, and its nonce. -/
def Step.generalDrop (t : Step) : Option (AccountId × Nat) :=
  match t.event with
  | .call env (.deleteSecrets (.system .paymentKey) profile) =>
      (parseUnsigned 32 profile).map fun nonce => (env.predecessor, nonce)
  | _ => none

/-- The step removes, by the general door, a payment key whose nonce the floor of its owner does not cover. -/
def Step.DropsAboveFloor (t : Step) : Prop :=
  ∃ key ∈ t.generalDrop,
    paymentKeyNonceFloor t.pre.contract.toSecretStore key.1 < key.2 ∧ key.2 ≤ maxNonce

instance (t : Step) : Decidable t.DropsAboveFloor :=
  inferInstanceAs (Decidable (∃ key ∈ t.generalDrop, _))

instance (t : Step) (owner : AccountId) (nonce : Nat) : Decidable (t.Drops owner nonce) :=
  inferInstanceAs (Decidable (_ ∧ _))

theorem generalDrop_eq_some {t : Step} {owner : AccountId} {nonce : Nat} :
    t.generalDrop = some (owner, nonce) ↔
      ∃ env profile, t.event = .call env (.deleteSecrets (.system .paymentKey) profile) ∧
        env.predecessor = owner ∧ parseUnsigned 32 profile = some nonce := by
  constructor
  · intro h
    unfold Step.generalDrop at h
    split at h
    · next env profile event =>
        obtain ⟨n, hparse, heq⟩ := Option.map_eq_some_iff.mp h
        cases heq
        exact ⟨env, profile, event, rfl, hparse⟩
    · cases h
  · rintro ⟨env, profile, event, rfl, hparse⟩
    simp only [Step.generalDrop, event, hparse, Option.map_some]

section Leaves
variable {H : Host} {env : Env} {c : Contract} {s : SecretStore} {ses : List StorageEffect}
  {owner : AccountId} {nonce : Nat} {t : Step}

theorem registerPaymentKey_rows {cfg : Config} {s₀ : SecretStore} {key : SecretKey} {data : String}
    (h : registerPaymentKey cfg s₀ key data = .ok (s, ses)) : s.secretsStorage = s₀.secretsStorage := by
  unfold registerPaymentKey at h
  split at h
  · simp only [bind_eq_ok, pure_eq_ok, Prod.mk.injEq] at h
    obtain ⟨_, -, rfl, -⟩ := h
    exact raise_secretsStorage _ _ _
  · cases h
    rfl

/-- A store drops no row. -/
theorem storeSecretsInternal_keeps {keyOwner payer : AccountId} {accessor : SecretAccessor}
    {profile encrypted : String} {access : AccessCondition} {vaultId : Option AccountId}
    (h : storeSecretsInternal H env c keyOwner payer accessor profile encrypted access vaultId = .ok (s, ses))
    {key : SecretKey} (hkey : key ∈ c.secretsStorage) : key ∈ s.secretsStorage := by
  simp only [storeSecretsInternal, bind_eq_ok, pure_eq_ok] at h
  obtain ⟨_, -, _, -, _, -, _, -, _, -, _, -, _, -, ⟨s', events⟩, hregister, h⟩ := h
  cases h
  show key ∈ s'.secretsStorage
  rw [registerPaymentKey_rows hregister]
  exact (AList.mem_insert _).mpr (Or.inr hkey)

theorem storeAgentSecret_keeps {agentPubkey : String} {accessor : SecretAccessor} {profile encrypted : String}
    {access : AccessCondition} {vaultId : Option AccountId} {signature : String}
    (h : storeAgentSecret H env c agentPubkey accessor profile encrypted access vaultId signature
      = .ok (s, ses)) {key : SecretKey} (hkey : key ∈ c.secretsStorage) : key ∈ s.secretsStorage := by
  obtain ⟨_, _, _, -, hstore⟩ := storeAgentSecret_ok h
  exact storeSecretsInternal_keeps hstore hkey

/-- Deleting an agent's secret does not touch payment keys. -/
theorem deleteAgentSecret_keeps {agentPubkey : String} {accessor : SecretAccessor} {profile signature : String}
    (h : deleteAgentSecret H env c agentPubkey accessor profile signature = .ok (s, ses))
    (hkey : paymentKey owner nonce ∈ c.secretsStorage) : paymentKey owner nonce ∈ s.secretsStorage := by
  obtain ⟨key, receiver, hkind, hdelete⟩ := deleteAgentSecret_ok h
  obtain ⟨row, -, rfl, -⟩ := deleteSecretsInternal_ok key hdelete
  refine AList.mem_erase.mpr ⟨?_, hkey⟩
  intro heq
  exact hkind (heq ▸ rfl)

/-- The key a deletion of a payment key names. -/
theorem canonicalKey_eq_paymentKey {caller : AccountId} {accessor : SecretAccessor} {profile : String}
    (h : canonicalKey H accessor profile caller = paymentKey owner nonce) :
    accessor = .system .paymentKey ∧ caller = owner ∧
      (parseUnsigned 32 profile = some nonce ∨ maxNonce < nonce) := by
  have hacc : canonicalAccessor H accessor = .system .paymentKey := congrArg SecretKey.accessor h
  have hcaller : caller = owner := congrArg SecretKey.owner h
  have hsystem : accessor = .system .paymentKey := by
    cases accessor with
    | system kind => exact hacc
    | wasmHash _ => cases hacc
    | repo _ _ => cases hacc
    | project _ => cases hacc
  subst hsystem
  have hprofile : canonicalProfile (.system .paymentKey) profile = toString nonce :=
    congrArg SecretKey.profile h
  refine ⟨rfl, hcaller, ?_⟩
  cases hparse : parseUnsigned 32 profile with
  | some n =>
      left
      simp only [canonicalProfile, hparse] at hprofile
      rw [toString_nat_inj hprofile]
  | none =>
      right
      simp only [canonicalProfile, hparse] at hprofile
      -- a profile that is no number stays as it is, and a nonce in range is a number
      by_contra hfits
      rw [hprofile, parseUnsigned_toString (lt_of_le_maxNonce (Nat.le_of_not_lt hfits))] at hparse
      cases hparse

/-- The general door takes out the one row it names. -/
theorem deleteSecrets_drops {accessor : SecretAccessor} {profile : String}
    (h : deleteSecrets H env c accessor profile = .ok (s, ses))
    (hin : paymentKey owner nonce ∈ c.secretsStorage) (hgone : paymentKey owner nonce ∉ s.secretsStorage) :
    s = c.toSecretStore.without (paymentKey owner nonce) ∧ accessor = .system .paymentKey ∧
      env.predecessor = owner ∧ (parseUnsigned 32 profile = some nonce ∨ maxNonce < nonce) := by
  obtain ⟨row, held, rfl, -⟩ := deleteSecretsInternal_ok _ h
  have hkey : canonicalKey H accessor profile env.predecessor = paymentKey owner nonce := by
    by_contra hne
    apply hgone
    show paymentKey owner nonce ∈ c.secretsStorage.erase _
    exact AList.mem_erase.mpr ⟨fun heq => hne heq.symm, hin⟩
  exact ⟨by rw [hkey], canonicalKey_eq_paymentKey hkey⟩

theorem unbindSecretVault_rows {accessor : SecretAccessor} {profile : String}
    (h : unbindSecretVault H env c accessor profile = .ok (s, ses)) :
    s.secretsStorage = c.secretsStorage := by
  simp only [unbindSecretVault, bind_eq_ok, pure_eq_ok, Prod.mk.injEq] at h
  obtain ⟨_, -, rfl, -⟩ := h
  rfl

theorem updateAccess_keeps {accessor : SecretAccessor} {profile : String} {access : AccessCondition}
    (h : updateAccess H env c accessor profile access = .ok (s, ses)) {key : SecretKey}
    (hkey : key ∈ c.secretsStorage) : key ∈ s.secretsStorage := by
  simp only [updateAccess, bind_eq_ok, pure_eq_ok, Prod.mk.injEq] at h
  obtain ⟨row, -, _, -, _, -, _, -, rfl, -⟩ := h
  exact (AList.mem_insert _).mpr (Or.inr hkey)

/-- A call takes a payment key out only through the general door. -/
theorem call_drops {call : Call} (h : runCall H env c call = .secrets (.ok (s, ses)))
    (hin : paymentKey owner nonce ∈ c.secretsStorage) (hgone : paymentKey owner nonce ∉ s.secretsStorage) :
    maxNonce < nonce ∨ ∃ profile, call = .deleteSecrets (.system .paymentKey) profile ∧
      env.predecessor = owner ∧ parseUnsigned 32 profile = some nonce ∧
      s = c.toSecretStore.without (paymentKey owner nonce) := by
  cases call with
  | storeSecrets _ _ _ _ _ => exact absurd (storeSecretsInternal_keeps (PartRun.secrets.inj h) hin) hgone
  | storeAgentSecret _ _ _ _ _ _ _ => exact absurd (storeAgentSecret_keeps (PartRun.secrets.inj h) hin) hgone
  | deleteAgentSecret _ _ _ _ => exact absurd (deleteAgentSecret_keeps (PartRun.secrets.inj h) hin) hgone
  | deleteSecrets accessor profile =>
      obtain ⟨hs, rfl, howner, hparse | hlarge⟩ := deleteSecrets_drops (PartRun.secrets.inj h) hin hgone
      · exact Or.inr ⟨profile, rfl, howner, hparse, hs⟩
      · exact Or.inl hlarge
  | unbindSecretVault _ _ =>
      rw [unbindSecretVault_rows (PartRun.secrets.inj h)] at hgone
      exact absurd hin hgone
  | updateAccess _ _ _ => exact absurd (updateAccess_keeps (PartRun.secrets.inj h) hin) hgone
  | _ => cases h

/-- A callback that takes a payment key out raises the floor over it. -/
theorem callback_drops {payload : Option YieldPayload} {callback : YieldCallback}
    (h : runCallback H env c payload callback = .secrets (.ok (s, ses)))
    (hin : paymentKey owner nonce ∈ c.secretsStorage) (hgone : paymentKey owner nonce ∉ s.secretsStorage) :
    s.Retired owner nonce := by
  cases callback with
  | onExecutionResponse _ => cases h
  | onTopUpResponse owner' nonce' amount =>
      have h := PartRun.secrets.inj h
      simp only [bind_eq_ok, pure_eq_ok] at h
      obtain ⟨result, -, h⟩ := h
      unfold onTopUpResponse at h
      split at h
      · split at h
        · cases h
          exact absurd ((AList.mem_insert _).mpr (Or.inr hin)) hgone
        · cases h
          exact absurd hin hgone
      · cases h
        exact absurd hin hgone
      · cases h
        exact absurd hin hgone
  | onDeletePaymentKeyResponse owner' nonce' =>
      obtain ⟨result, -, h⟩ := bind_eq_ok.mp (PartRun.secrets.inj h)
      unfold onDeletePaymentKeyResponse at h
      split at h
      · simp only [bind_eq_ok, pure_eq_ok, Prod.mk.injEq] at h
        obtain ⟨⟨s', ses'⟩, hdelete, rfl, rfl⟩ := h
        obtain ⟨row, held, rfl, -⟩ := deleteSecretsInternal_ok (paymentKey owner' nonce') hdelete
        have hkey : paymentKey owner nonce = paymentKey owner' nonce' := by
          by_contra hne
          apply hgone
          rw [raise_secretsStorage]
          exact AList.mem_erase.mpr ⟨hne, hin⟩
        -- the row that left is the one the callback names, and its nonce is under the floor now
        obtain ⟨rfl, rfl⟩ := paymentKey_inj.mp hkey
        exact Or.inl (le_floor_raise _ owner nonce)
      · cases h
        exact absurd hin hgone
      · cases h
        exact absurd hin hgone

/-- **How a payment key leaves**: with its nonce retired, or through the general door with the floors as they
    were. -/
theorem drops_cases (hf : Fires (World.next H) t) (hdrop : t.Drops owner nonce) :
    t.post.contract.toSecretStore.Retired owner nonce ∨
    ∃ env profile, t.event = .call env (.deleteSecrets (.system .paymentKey) profile) ∧
      env.predecessor = owner ∧ parseUnsigned 32 profile = some nonce ∧
      t.post.contract.toSecretStore = t.pre.contract.toSecretStore.without (paymentKey owner nonce) := by
  obtain ⟨hin, hgone⟩ := hdrop
  -- a step that leaves the secrets alone drops nothing
  have hkept (hsame : t.post.contract.toSecretStore = t.pre.contract.toSecretStore) : False := by
    apply hgone
    rw [show t.post.contract.secretsStorage = t.pre.contract.secretsStorage from
      congrArg SecretStore.secretsStorage hsame]
    exact hin
  cases step_cases hf with
  | call env call event run post =>
      obtain ⟨-, hcommit⟩ := exec_commit run
      rcases (commit_parts hcommit).secrets with ⟨ses, hrun, -⟩ | ⟨-, hsame⟩
      · rcases call_drops hrun hin hgone with hlarge | ⟨profile, rfl, howner, hparse, hs⟩
        · exact Or.inl (Or.inr hlarge)
        · exact Or.inr ⟨env, profile, event, howner, hparse, hs⟩
      · exact absurd hsame hkept
  | callback env d delivery y payload event waiting delivered run post =>
      rcases (commit_parts run).secrets with ⟨ses, hrun, -⟩ | ⟨-, hsame⟩
      · exact Or.inl (callback_drops hrun hin hgone)
      · exact absurd hsame hkept
  | spent env d delivery event failed out post => exact absurd (by rw [post]; rfl) hkept
  | withdrawn receipt transferOk x l event pending run out post => exact absurd (by rw [post]) hkept
  | stuck receipt x event pending overflow out post => exact absurd (by rw [post]) hkept

end Leaves

/-! ## Whole runs -/

/-- Once a payment key has left, no store takes its nonce for that owner again, at the step it left, after any
    later step, or as a step of the run. -/
def NoncesStayUsed (H : Host) (tr : List Step) : Prop :=
  ∀ tr₁ t tr₂, tr = tr₁ ++ t :: tr₂ → ∀ owner nonce, t.Drops owner nonce →
    ¬ AcceptsNonce H t.post.contract owner nonce ∧
    ∀ u ∈ tr₂, u.createdNonce owner ≠ some nonce ∧ ¬ AcceptsNonce H u.post.contract owner nonce

section Runs
variable {H : Host} {w₀ w : World} {tr : List Step} {t : Step}

/-- A removal the condition allows retires the nonce. -/
theorem retired_of_drops (hf : Fires (World.next H) t) (hc : ¬ t.DropsAboveFloor) {owner : AccountId}
    {nonce : Nat} (hdrop : t.Drops owner nonce) : t.post.contract.toSecretStore.Retired owner nonce := by
  rcases drops_cases hf hdrop with hretired | ⟨env, profile, event, rfl, hparse, hpost⟩
  · exact hretired
  · rw [hpost]
    by_contra hfree
    have hfree : ¬ t.pre.contract.toSecretStore.Retired env.predecessor nonce := hfree
    -- the general door leaves the floors, so what is free after it was free before
    simp only [SecretStore.Retired, not_or, Nat.not_le, Nat.not_lt] at hfree
    exact hc ⟨(env.predecessor, nonce), generalDrop_eq_some.mpr ⟨env, profile, event, rfl, hparse⟩, hfree⟩

/-- A removal above the floor frees the nonce at once. -/
theorem accepts_of_dropsAboveFloor (hf : Fires (World.next H) t) (hd : t.DropsAboveFloor) :
    ∃ owner nonce, t.Drops owner nonce ∧ AcceptsNonce H t.post.contract owner nonce := by
  obtain ⟨⟨owner, nonce⟩, hdrop, habove, hfits⟩ := hd
  obtain ⟨env, profile, event, rfl, hparse⟩ := generalDrop_eq_some.mp hdrop
  refine ⟨env.predecessor, nonce, ?_⟩
  cases step_cases hf with
  | call env' call event' run post =>
      rw [event] at event'
      cases event'
      obtain ⟨-, hcommit⟩ := exec_commit run
      rcases (commit_parts hcommit).secrets with ⟨ses, hrun, -⟩ | ⟨hoff, -⟩
      · obtain ⟨row, held, hs, -⟩ := deleteSecretsInternal_ok _ (PartRun.secrets.inj hrun)
        have hkey : canonicalKey H (.system .paymentKey) profile env.predecessor
            = paymentKey env.predecessor nonce := by
          simp only [canonicalKey, canonicalAccessor, canonicalProfile, hparse, paymentKey]
        change t.pre.contract.secretsStorage.lookup
          (canonicalKey H (.system .paymentKey) profile env.predecessor) = some row at held
        change t.post.contract.toSecretStore = t.pre.contract.toSecretStore.without
          (canonicalKey H (.system .paymentKey) profile env.predecessor) at hs
        rw [hkey] at held hs
        -- nothing of the key is left, and its nonce is above the floor: a store of it goes through
        have hrow : t.post.contract.secretsStorage.lookup (paymentKey env.predecessor nonce) = none := by
          rw [hs]
          exact AList.lookup_erase _ _
        have hbinding : t.post.contract.secretVaultBindings.lookup (paymentKey env.predecessor nonce)
            = none := by
          rw [hs]
          exact AList.lookup_erase _ _
        refine ⟨⟨LookupMap.mem_iff_lookup.mpr ⟨row, held⟩, AList.lookup_eq_none.mp hrow⟩, ?_⟩
        refine accepts_of_unused hrow hbinding ?_ hfits
        rw [hs]
        exact habove
      · exact absurd rfl (hoff _)
  | callback _ _ _ _ _ event' _ _ _ _ => rw [event] at event'; cases event'
  | spent _ _ _ event' _ _ _ => rw [event] at event'; cases event'
  | withdrawn _ _ _ _ event' _ _ _ _ => rw [event] at event'; cases event'
  | stuck _ _ event' _ _ _ _ => rw [event] at event'; cases event'

/-- **Nonces stay used.** In every run from any state whatever, so also from one that holds payment keys above
    their owner's floor: no nonce whose key has left is ever taken again, exactly when no payment key above its
    owner's floor is removed by the general door. -/
theorem nonces_stay_used_iff (h : Run (World.next H) w₀ tr w) :
    NoncesStayUsed H tr ↔ ∀ t ∈ tr, ¬ t.DropsAboveFloor := by
  constructor
  · intro hused t ht hd
    obtain ⟨tr₁, tr₂, rfl⟩ := List.append_of_mem ht
    obtain ⟨-, hf, -⟩ := h.at_split
    obtain ⟨owner, nonce, hdrop, haccepts⟩ := accepts_of_dropsAboveFloor hf hd
    exact (hused tr₁ t tr₂ rfl owner nonce hdrop).1 haccepts
  · intro hc tr₁ t tr₂ hsplit owner nonce hdrop
    subst hsplit
    obtain ⟨-, hf, hlater⟩ := h.at_split
    -- a retired nonce stays retired from any state on, since no step lowers a floor
    have hretired := retired_of_drops hf (hc t (by simp)) hdrop
    refine ⟨hretired.not_accepts, fun u hu => ?_⟩
    obtain ⟨hpre, hpost⟩ := hlater.stays (I := fun w => w.contract.toSecretStore.Retired owner nonce) hretired
      (fun _ hf h => retired_step hf h) hu
    obtain ⟨_, -, hfu⟩ := hlater.fired hu
    exact ⟨hpre.not_created hfu, hpost.not_accepts⟩

end Runs

/-- A migrated chain: Alice has payment key 5, and no floor entry. -/
def World.migrated : World :=
  let key := paymentKey aliceAccount 5
  let row : SecretProfile :=
    { encryptedSecrets := "a2V5", access := .allowAll, createdAt := 0, updatedAt := 0, storageDeposit := 0 }
  World.deploy
    { Contract.new ownerAccount none none none with
      secretsStorage := AList.insert key row ∅
      userSecretsIndex := Index.insert ∅ aliceAccount key }

/-- Alice deletes key 5 through the payment door, and its nonce stays used. -/
theorem nonce_stays_used_after_payment_delete : ∃ tr w, Run (World.next asciiHost) World.migrated tr w ∧
    (∃ t ∈ tr, Step.Drops t aliceAccount 5) ∧ NoncesStayUsed asciiHost tr := by
  obtain ⟨tr, w, h, hp⟩ := exists_replay asciiHost World.migrated
    [callBy aliceAccount (.deletePaymentKey 5) 1 0 1,
     callBy ownerAccount (.resumeDeletePaymentKey (hexEncode (List.replicate 32 1)) .success),
     .yielded (envOf ownerAccount 0 0 2) (Vector.replicate 32 1) .resumed]
    (fun x => decide ((∀ t ∈ x.1, ¬ Step.DropsAboveFloor t) ∧ ∃ t ∈ x.1, Step.Drops t aliceAccount 5))
    (by decide +kernel)
  obtain ⟨hc, hdrop⟩ := of_decide_eq_true hp
  exact ⟨tr, w, h, hdrop, (nonces_stay_used_iff h).mpr hc⟩

/-- Alice deletes key 5 through the general door, and creates it again. -/
theorem nonce_reused_after_general_delete : ∃ tr w, Run (World.next asciiHost) World.migrated tr w ∧
    ¬ NoncesStayUsed asciiHost tr := by
  obtain ⟨tr, w, h, hp⟩ := exists_replay asciiHost World.migrated
    [callBy aliceAccount (.deleteSecrets (.system .paymentKey) "5"),
     callBy aliceAccount (.storeSecrets (.system .paymentKey) "5" "bmV3" .allowAll none) (10 ^ 24)]
    (fun x => ofTwo (fun (t u : Step) => decide (Step.Drops t aliceAccount 5 ∧
        Step.createdNonce aliceAccount u = some 5)) x.1)
    (by decide +kernel)
  refine ⟨tr, w, h, fun hused => ?_⟩
  obtain ⟨t, u, htr, hp⟩ := exists_of_ofTwo hp
  obtain ⟨hdrop, hcreated⟩ := of_decide_eq_true hp
  have hlater := (hused [] t [u] htr aliceAccount 5 hdrop).2 u List.mem_cons_self
  exact hlater.1 hcreated

end Outlayer
