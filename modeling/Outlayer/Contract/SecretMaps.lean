import Outlayer.Contract.SecretSteps

/-!
# `Contract.SecretMaps` — the four maps of the secrets agree

The rows, the index of each owner, the vault bindings and the nonce floors are written by different methods.
`SecretStore.Consistent` says how they agree, `consistent_move` that every move keeps it so.
-/

namespace Outlayer
open Text Checked Collections Runs

/-- The rows, the index, the bindings and the floors agree with each other. -/
structure SecretStore.Consistent (H : Host) (s : SecretStore) : Prop where
  index : ∀ owner key, Index.Lists s.userSecretsIndex owner key ↔ key.owner = owner ∧ key ∈ s.secretsStorage
  noEmpty : Index.NoEmpty s.userSecretsIndex
  bindings : ∀ key, key ∈ s.secretVaultBindings → key ∈ s.secretsStorage
  canonical : ∀ key, key ∈ s.secretsStorage → key.Canonical H
  paymentKeys : ∀ key, key ∈ s.secretsStorage → key.accessor = .system .paymentKey →
    ∃ nonce floor, key = paymentKey key.owner nonce ∧
      s.paymentKeyNonceFloors.lookup key.owner = some floor ∧ nonce ≤ floor
  floors : ∀ owner floor, s.paymentKeyNonceFloors.lookup owner = some floor → floor ≤ maxNonce

section Consistent
variable {H : Host} {s s' : SecretStore}

/-- Rewriting rows in place, or dropping a binding, keeps everything in agreement. -/
theorem SecretStore.Consistent.of_same_keys (hs : s.Consistent H)
    (rows : ∀ key, key ∈ s'.secretsStorage ↔ key ∈ s.secretsStorage)
    (index : s'.userSecretsIndex = s.userSecretsIndex)
    (bindings : ∀ key, key ∈ s'.secretVaultBindings → key ∈ s.secretVaultBindings)
    (floors : s'.paymentKeyNonceFloors = s.paymentKeyNonceFloors) : s'.Consistent H where
  index := by
    intro owner key
    rw [index, rows]
    exact hs.index owner key
  noEmpty := index ▸ hs.noEmpty
  bindings := fun key hkey => (rows key).mpr (hs.bindings key (bindings key hkey))
  canonical := fun key hkey => hs.canonical key ((rows key).mp hkey)
  paymentKeys := by
    rw [floors]
    exact fun key hkey => hs.paymentKeys key ((rows key).mp hkey)
  floors := floors ▸ hs.floors

/-- Writing a row that is there changes no key. -/
theorem mem_insert_of_held {rows : LookupMap SecretKey SecretProfile} {key : SecretKey} {row : SecretProfile}
    (held : rows.lookup key = some row) (row' : SecretProfile) (key' : SecretKey) :
    key' ∈ rows.insert key row' ↔ key' ∈ rows := by
  rw [AList.mem_insert]
  constructor
  · rintro (rfl | hmem)
    · exact LookupMap.mem_iff_lookup.mpr ⟨row, held⟩
    · exact hmem
  · exact Or.inr

/-- So does removing a row from all three maps. -/
theorem SecretStore.Consistent.without (hs : s.Consistent H) (key : SecretKey) :
    (s.without key).Consistent H where
  index := by
    intro owner key'
    show Index.Lists (Index.remove _ _ _) _ _ ↔ _ ∧ key' ∈ s.secretsStorage.erase key
    rw [Index.lists_remove, hs.index, AList.mem_erase]
    constructor
    · rintro ⟨⟨rfl, hmem⟩, hne⟩
      exact ⟨rfl, fun he => hne ⟨congrArg SecretKey.owner he, he⟩, hmem⟩
    · rintro ⟨rfl, hne, hmem⟩
      exact ⟨⟨rfl, hmem⟩, fun he => hne he.2⟩
  noEmpty := Index.noEmpty_remove hs.noEmpty _ _
  bindings := by
    intro key' hkey
    obtain ⟨hne, hmem⟩ := AList.mem_erase.mp hkey
    exact AList.mem_erase.mpr ⟨hne, hs.bindings key' hmem⟩
  canonical := fun key' hkey => hs.canonical key' (AList.mem_erase.mp hkey).2
  paymentKeys := fun key' hkey => hs.paymentKeys key' (AList.mem_erase.mp hkey).2
  floors := hs.floors

/-- The floor of a payment key that is there needs no raising. -/
theorem SecretStore.Consistent.raise_without (hs : s.Consistent H) {owner : AccountId} {nonce : Nat}
    {row : SecretProfile} (held : s.secretsStorage.lookup (paymentKey owner nonce) = some row) :
    raisePaymentKeyNonceFloor (s.without (paymentKey owner nonce)) owner nonce
      = s.without (paymentKey owner nonce) := by
  obtain ⟨nonce', floor, hkey, hfloor, hle⟩ :=
    hs.paymentKeys _ (LookupMap.mem_iff_lookup.mpr ⟨row, held⟩) rfl
  obtain rfl : nonce = nonce' := (paymentKey_inj.mp hkey).2
  exact raise_of_le hfloor hle

/-- A stored row enters the maps it belongs to. -/
theorem Stores.mem_rows {paid : Nat} {key : SecretKey} {row : SecretProfile} {ses : List StorageEffect}
    (h : Stores H s paid key row s' ses) {key' : SecretKey} :
    key' ∈ s'.secretsStorage ↔ key' = key ∨ key' ∈ s.secretsStorage := by
  rw [h.rows, AList.mem_insert]

theorem Stores.lists {paid : Nat} {key : SecretKey} {row : SecretProfile} {ses : List StorageEffect}
    (h : Stores H s paid key row s' ses) (hs : s.Consistent H) (owner : AccountId) (key' : SecretKey) :
    Index.Lists s'.userSecretsIndex owner key' ↔ key'.owner = owner ∧ key' ∈ s'.secretsStorage := by
  rw [h.index, h.mem_rows]
  split
  · rw [Index.lists_insert, hs.index]
    constructor
    · rintro (⟨rfl, rfl⟩ | ⟨ho, hmem⟩)
      · exact ⟨rfl, Or.inl rfl⟩
      · exact ⟨ho, Or.inr hmem⟩
    · rintro ⟨rfl, rfl | hmem⟩
      · exact Or.inl ⟨rfl, rfl⟩
      · exact Or.inr ⟨rfl, hmem⟩
  · next hold =>
      rw [hs.index]
      have hmem : key ∈ s.secretsStorage := by
        rw [← AList.lookup_isSome, Option.isSome_iff_ne_none]
        simpa using hold
      constructor
      · rintro ⟨ho, hm⟩
        exact ⟨ho, Or.inr hm⟩
      · rintro ⟨ho, rfl | hm⟩
        · exact ⟨ho, hmem⟩
        · exact ⟨ho, hm⟩

theorem Stores.consistent {paid : Nat} {key : SecretKey} {row : SecretProfile} {ses : List StorageEffect}
    (h : Stores H s paid key row s' ses) (hs : s.Consistent H)
    (paymentKeys : ∀ key, key ∈ s'.secretsStorage → key.accessor = .system .paymentKey →
      ∃ nonce floor, key = paymentKey key.owner nonce ∧
        s'.paymentKeyNonceFloors.lookup key.owner = some floor ∧ nonce ≤ floor)
    (floors : ∀ owner floor, s'.paymentKeyNonceFloors.lookup owner = some floor → floor ≤ maxNonce) :
    s'.Consistent H where
  index := h.lists hs
  noEmpty := by
    rw [h.index]
    split
    · exact Index.noEmpty_insert hs.noEmpty _ _
    · exact hs.noEmpty
  bindings := by
    intro key' hkey
    rw [h.mem_rows]
    rcases h.bindings with hb | ⟨vault, hb⟩
    · rw [hb] at hkey
      exact Or.inr (hs.bindings key' hkey)
    · rw [hb, AList.mem_insert] at hkey
      exact hkey.imp_right (hs.bindings key')
  canonical := by
    intro key' hkey
    rcases h.mem_rows.mp hkey with rfl | hmem
    · exact h.canonical
    · exact hs.canonical key' hmem
  paymentKeys := paymentKeys
  floors := floors

/-- **Every move keeps the maps in agreement.** -/
theorem consistent_move {paid : Nat} {act : SecretAct} {ses : List StorageEffect}
    (h : SecretMove H s paid act s' ses) (hs : s.Consistent H) : s'.Consistent H := by
  cases h with
  | store key row s' ses kind stores floors =>
      refine stores.consistent hs ?_ (floors ▸ hs.floors)
      intro key' hkey hpay
      rw [floors]
      rcases stores.mem_rows.mp hkey with rfl | hmem
      · exact absurd hpay kind
      · exact hs.paymentKeys key' hmem hpay
  | create owner nonce row s' ses stores new above fits floors =>
      refine stores.consistent hs ?_ ?_
      · intro key' hkey hpay
        rw [floors, LookupMap.lookup_insert_iff]
        rcases stores.mem_rows.mp hkey with rfl | hmem
        · exact ⟨nonce, nonce, rfl, if_pos rfl, Nat.le_refl _⟩
        · obtain ⟨n, floor, hkey', hfloor, hle⟩ := hs.paymentKeys key' hmem hpay
          by_cases howner : key'.owner = owner
          · rw [if_pos howner]
            rw [paymentKeyNonceFloor, ← howner, hfloor] at above
            exact ⟨n, nonce, hkey', rfl, Nat.le_trans hle (Nat.le_of_lt above)⟩
          · rw [if_neg howner]
            exact ⟨n, floor, hkey', hfloor, hle⟩
      · intro owner' floor hfloor
        rw [floors, LookupMap.lookup_insert_iff] at hfloor
        split at hfloor
        · cases hfloor
          exact fits
        · exact hs.floors owner' floor hfloor
  | delete key row receiver held unpaid => exact hs.without key
  | deletePaymentKey owner nonce row held unpaid =>
      rw [hs.raise_without held]
      exact hs.without _
  | unbind key row held unpaid =>
      exact hs.of_same_keys (fun _ => Iff.rfl) rfl (fun _ hkey => (AList.mem_erase.mp hkey).2) rfl
  | recondition key row row' receiver held priced covered =>
      exact hs.of_same_keys (mem_insert_of_held held row') rfl (fun _ => id) rfl
  | topUp owner nonce data time row held unpaid =>
      exact hs.of_same_keys (mem_insert_of_held held _) rfl (fun _ => id) rfl
  | missed owner nonce amount data gone unpaid => exact hs
  | idle ses quiet unpaid => exact hs

theorem consistent_step {t : Step} (hf : Fires (World.next H) t)
    (hs : t.pre.contract.toSecretStore.Consistent H) : t.post.contract.toSecretStore.Consistent H := by
  rcases step_secrets hf with ⟨paid, ses, hmove⟩ | ⟨-, hsame⟩
  · exact consistent_move hmove hs
  · rwa [hsame]

/-- A contract starts without secrets. -/
theorem consistent_deploy (owner : AccountId) (operator : Option AccountId) (standard version : Option String) :
    (World.deploy (Contract.new owner operator standard version)).contract.toSecretStore.Consistent H where
  index := fun owner key =>
    ⟨fun h => absurd h (Index.not_lists_empty owner key), fun h => absurd h.2 (AList.notMem_empty key)⟩
  noEmpty := Index.noEmpty_empty
  bindings := fun key h => absurd h (AList.notMem_empty key)
  canonical := fun key h => absurd h (AList.notMem_empty key)
  paymentKeys := fun key h => absurd h (AList.notMem_empty key)
  floors := nofun

/-- **The maps agree in every world a history reaches.** -/
theorem consistent_history {owner : AccountId} {operator : Option AccountId} {standard version : Option String}
    {tr : List Step} {w : World} (h : World.History H owner operator standard version tr w) :
    w.contract.toSecretStore.Consistent H :=
  Run.invariant (I := fun w => w.contract.toSecretStore.Consistent H) (consistent_deploy _ _ _ _)
    (fun _ hf hs => consistent_step hf hs) h

end Consistent

end Outlayer
