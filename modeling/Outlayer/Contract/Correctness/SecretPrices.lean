import Outlayer.Contract.SecretSteps
import Outlayer.Contract.Replay

/-!
# `Contract.Correctness.SecretPrices` — a row holds the deposit for its bytes

A row is priced when it is stored and when its condition changes. The answer to a top-up replaces the
ciphertext and leaves the deposit: a longer ciphertext is stored underpaid, and nothing else is.
-/

namespace Outlayer
open Text Checked Collections Runs

/-- The deposit a row is to hold. -/
def secretPrice (key : SecretKey) (encryptedSecrets : String) (access : AccessCondition) (vaultBound : Bool) :
    Nat :=
  calculateSecretStorageSize key encryptedSecrets access vaultBound * storagePricePerByte

/-- Every row holds at least the price of what is stored, its vault binding included. -/
def SecretStore.PaidFor (s : SecretStore) : Prop :=
  ∀ key row, s.secretsStorage.lookup key = some row →
    secretPrice key row.encryptedSecrets row.access (s.secretVaultBindings.lookup key).isSome
      ≤ row.storageDeposit

/-- The act replaces no ciphertext by one that the deposit of its row does not pay for. -/
def SecretAct.Fits (s : SecretStore) : SecretAct → Prop
  | .topUp owner nonce newEncryptedData =>
      ∀ row ∈ s.secretsStorage.lookup (paymentKey owner nonce),
        secretPrice (paymentKey owner nonce) newEncryptedData row.access
          (s.secretVaultBindings.lookup (paymentKey owner nonce)).isSome ≤ row.storageDeposit
  | _ => True

instance (s : SecretStore) : (act : SecretAct) → Decidable (act.Fits s)
  | .topUp owner nonce _ => inferInstanceAs (Decidable (∀ row ∈ s.secretsStorage.lookup (paymentKey owner nonce), _))
  | .create _ _          => isTrue trivial
  | .other               => isTrue trivial

/-- The step replaces no ciphertext by one that the deposit of its row does not pay for. -/
def Step.TopUpFits (t : Step) : Prop := t.secretAct.Fits t.pre.contract.toSecretStore

instance (t : Step) : Decidable t.TopUpFits := inferInstanceAs (Decidable (SecretAct.Fits _ _))

/-! ## One step -/

/-- A binding only adds to the price. -/
theorem secretPrice_mono {key : SecretKey} {data : String} {access : AccessCondition} {b b' : Bool}
    (h : b = true → b' = true) : secretPrice key data access b ≤ secretPrice key data access b' := by
  unfold secretPrice
  refine Nat.mul_le_mul_right _ ?_
  cases b with
  | true => rw [h rfl]
  | false =>
      simp only [calculateSecretStorageSize]
      split <;> simp

section Moves
variable {H : Host} {s s' : SecretStore}

/-- Writing one row that holds its price, with the bindings of the others as they were. -/
theorem SecretStore.PaidFor.insert (hs : s.PaidFor) {key : SecretKey} {row : SecretProfile}
    (rows : s'.secretsStorage = s.secretsStorage.insert key row)
    (bindings : ∀ key', key' ≠ key → s'.secretVaultBindings.lookup key' = s.secretVaultBindings.lookup key')
    (paid : secretPrice key row.encryptedSecrets row.access (s'.secretVaultBindings.lookup key).isSome
      ≤ row.storageDeposit) : s'.PaidFor := by
  intro key' row' hrow
  rw [rows, LookupMap.lookup_insert_iff] at hrow
  split at hrow
  · next hkey =>
      subst hkey
      cases hrow
      exact paid
  · next hne =>
      rw [bindings key' hne]
      exact hs key' row' hrow

theorem Stores.paidFor {paid : Nat} {key : SecretKey} {row : SecretProfile} {ses : List StorageEffect}
    (h : Stores H s paid key row s' ses) (hs : s.PaidFor) : s'.PaidFor := by
  refine hs.insert h.rows ?_ (Nat.le_of_eq h.priced.symm)
  intro key' hne
  rcases h.bindings with hb | ⟨vault, hb⟩
  · rw [hb]
  · rw [hb]
    exact AList.lookup_insert_ne hne

theorem SecretStore.PaidFor.without (hs : s.PaidFor) (key : SecretKey) : (s.without key).PaidFor := by
  intro key' row hrow
  change (s.secretsStorage.erase key).lookup key' = some row at hrow
  show secretPrice _ _ _ ((s.secretVaultBindings.erase key).lookup key').isSome ≤ _
  obtain ⟨hne, hrow⟩ := LookupMap.lookup_of_erase hrow
  rw [LookupMap.lookup_erase_iff, if_neg hne]
  exact hs key' row hrow

/-- Raising a floor moves no row. -/
theorem SecretStore.PaidFor.raise (hs : s.PaidFor) (owner : AccountId) (nonce : Nat) :
    (raisePaymentKeyNonceFloor s owner nonce).PaidFor := by
  unfold raisePaymentKeyNonceFloor
  split
  · exact hs
  · exact hs

/-- Every move that fits keeps the rows paid for. -/
theorem paidFor_move {paid : Nat} {act : SecretAct} {ses : List StorageEffect}
    (h : SecretMove H s paid act s' ses) (hs : s.PaidFor) (hfits : act.Fits s) : s'.PaidFor := by
  cases h with
  | store key row s' ses kind stores floors => exact stores.paidFor hs
  | create owner nonce row s' ses stores new above fits floors => exact stores.paidFor hs
  | delete key row receiver held unpaid => exact hs.without key
  | deletePaymentKey owner nonce row held unpaid => exact (hs.without _).raise owner nonce
  | unbind key row held unpaid =>
      intro key' row' hrow
      -- without its binding a row costs less, and its deposit stays
      refine Nat.le_trans (secretPrice_mono ?_) (hs key' row' hrow)
      intro hbound
      rw [LookupMap.lookup_erase_iff] at hbound
      split at hbound
      · cases hbound
      · exact hbound
  | recondition key row row' receiver held priced covered =>
      exact hs.insert rfl (fun _ _ => rfl) (Nat.le_of_eq priced.symm)
  -- the one move that writes a row at the deposit it had
  | topUp owner nonce data time row held unpaid => exact hs.insert rfl (fun _ _ => rfl) (hfits row held)
  | missed owner nonce amount data gone unpaid => exact hs
  | idle ses quiet unpaid => exact hs

/-- A move that does not fit leaves a row underpaid. -/
theorem fits_of_paidFor {paid : Nat} {act : SecretAct} {ses : List StorageEffect}
    (h : SecretMove H s paid act s' ses) (hs : s'.PaidFor) : act.Fits s := by
  cases h with
  | topUp owner nonce data time row held unpaid =>
      intro row' held'
      obtain rfl : row = row' := Option.some.inj (held.symm.trans held')
      exact hs (paymentKey owner nonce) { row with encryptedSecrets := data, updatedAt := time }
        (AList.lookup_insert _)
  | missed owner nonce amount data gone unpaid =>
      intro row held
      rw [gone] at held
      cases held
  | store key row s' ses kind stores floors => trivial
  | create owner nonce row s' ses stores new above fits floors => trivial
  | delete key row receiver held unpaid => trivial
  | deletePaymentKey owner nonce row held unpaid => trivial
  | unbind key row held unpaid => trivial
  | recondition key row row' receiver held priced covered => trivial
  | idle ses quiet unpaid => trivial

end Moves

theorem paidFor_step {H : Host} {t : Step} (hf : Fires (World.next H) t) (hfits : t.TopUpFits)
    (hs : t.pre.contract.toSecretStore.PaidFor) : t.post.contract.toSecretStore.PaidFor := by
  rcases step_secrets hf with ⟨_, _, hmove⟩ | ⟨-, hsame⟩
  · exact paidFor_move hmove hs hfits
  · rwa [hsame]

theorem topUpFits_step {H : Host} {t : Step} (hf : Fires (World.next H) t)
    (hs : t.post.contract.toSecretStore.PaidFor) : t.TopUpFits := by
  rcases step_secrets hf with ⟨_, _, hmove⟩ | ⟨hact, -⟩
  · exact fits_of_paidFor hmove hs
  · rw [Step.TopUpFits, hact]
    trivial

/-! ## Whole histories -/

/-- **No secret is underpaid exactly when every top-up fits.** The rows are paid for in every world a history
    passes through if and only if each ciphertext that answered a top-up is covered by the deposit the row
    already held. -/
theorem secrets_paid_for_iff {H : Host} {owner : AccountId} {operator : Option AccountId}
    {standard version : Option String} {tr : List Step} {w : World}
    (h : World.History H owner operator standard version tr w) :
    (∀ t ∈ tr, t.post.contract.toSecretStore.PaidFor) ↔ ∀ t ∈ tr, t.TopUpFits := by
  constructor
  · intro hpaid t ht
    obtain ⟨_, -, hf⟩ := h.fired ht
    exact topUpFits_step hf (hpaid t ht)
  · intro hfits t ht
    obtain ⟨tr₁, tr₂, rfl⟩ := List.append_of_mem ht
    obtain ⟨hrun, hf, -⟩ := h.at_split
    have hpre : t.pre.contract.toSecretStore.PaidFor := by
      refine Run.invariant_of (I := fun w => w.contract.toSecretStore.PaidFor) (C := Step.TopUpFits) ?_
        (fun _ hf hc hi => paidFor_step hf hc hi) hrun
        (fun u hu => hfits u (List.mem_append_left _ hu))
      intro key row hrow
      cases hrow
    exact paidFor_step hf (hfits t ht) hpre

/-- Alice creates her payment key 1 and it is topped up; the worker answers with `newEncryptedData`. -/
def topUpRun (newEncryptedData : String) : List Event :=
  [callBy aliceAccount (.storeSecrets (.system .paymentKey) "1" "a2V5" .allowAll none) (10 ^ 24),
   callBy ownerAccount (.setPaymentTokenContract (some tokenAccount)),
   callBy tokenAccount (.ftOnTransfer aliceAccount 10000 (some (.topUpPaymentKey 1 none))) 0 0 1,
   callBy ownerAccount (.resumeTopup (hexEncode (List.replicate 32 1)) (.success newEncryptedData)),
   .yielded (envOf ownerAccount 0 0 2) (Vector.replicate 32 1) .resumed]

/-- A ciphertext of the same length fits. -/
theorem topped_up_paid_for : ∃ tr w, World.History asciiHost ownerAccount none none none tr w ∧
    (∀ t ∈ tr, t.post.contract.toSecretStore.PaidFor) ∧
    ∃ t ∈ tr, t.secretAct = .topUp aliceAccount 1 "bmV3" := by
  obtain ⟨tr, w, h, hp⟩ := exists_history (topUpRun "bmV3")
    (fun x => decide ((∀ t ∈ x.1, Step.TopUpFits t) ∧
      ∃ t ∈ x.1, Step.secretAct t = .topUp aliceAccount 1 "bmV3")) (by decide +kernel)
  obtain ⟨hfits, htopUp⟩ := of_decide_eq_true hp
  exact ⟨tr, w, h, (secrets_paid_for_iff h).mpr hfits, htopUp⟩

/-- A longer one is stored under the old deposit. -/
theorem underpaid_after_top_up : ∃ tr w, World.History asciiHost ownerAccount none none none tr w ∧
    ¬ w.contract.toSecretStore.PaidFor := by
  obtain ⟨tr, w, h, hp⟩ := exists_history (topUpRun "bG9uZ2Vy")
    (fun x => (x.2.contract.secretsStorage.lookup (paymentKey aliceAccount 1)).any fun row =>
      decide (row.storageDeposit < secretPrice (paymentKey aliceAccount 1) row.encryptedSecrets row.access
        (x.2.contract.secretVaultBindings.lookup (paymentKey aliceAccount 1)).isSome)) (by decide +kernel)
  obtain ⟨row, hrow, hlt⟩ := (Option.any_eq_true _ _).mp hp
  exact ⟨tr, w, h, fun hpaid => absurd (hpaid _ row hrow) (Nat.not_le_of_lt (of_decide_eq_true hlt))⟩

end Outlayer
