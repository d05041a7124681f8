import Outlayer.Contract.Steps

/-!
# `Contract.SecretSteps` — what a step does to the stored secrets

`SecretMove` lists everything that can happen to the secrets: a row is stored, a payment key is created, a row
is deleted, loses its binding or gets a new condition, a top-up replaces a ciphertext. Every statement about
secrets is derived from it. Each move also says what was paid with it and what it sends back.
-/

namespace Outlayer
open Text Checked Collections Runs

/-! ## Spelling -/

/-- The key is in its one spelling. -/
def SecretKey.Canonical (H : Host) (key : SecretKey) : Prop :=
  canonicalKey H key.accessor key.profile key.owner = key

theorem canonicalProfile_idem (accessor : SecretAccessor) (profile : String) :
    canonicalProfile accessor (canonicalProfile accessor profile) = canonicalProfile accessor profile := by
  cases accessor with
  | system kind =>
      cases kind
      cases hp : parseUnsigned 32 profile with
      | none => simp only [canonicalProfile, hp]
      | some nonce => simp only [canonicalProfile, hp, parseUnsigned_toString (parseUnsigned_lt hp)]
  | repo _ _ => rfl
  | wasmHash _ => rfl
  | project _ => rfl

/-- A hexadecimal digit is an ASCII character. -/
private theorem toNat_lt_of_hexdigit {ch : Char} (h : isAsciiHexdigit ch = true) : ch.toNat < 128 := by
  simp only [isAsciiHexdigit, inRange, Char.reduceToNat, Bool.or_eq_true, Bool.and_eq_true,
    decide_eq_true_eq] at h
  omega

/-- A key that passed the checks of a store is canonical. -/
theorem canonicalKey_canonical {H : Host} {c : Contract} {accessor : SecretAccessor} {profile : String}
    {owner : AccountId}
    (h : validateAccessor c (canonicalKey H accessor profile owner).accessor
      (canonicalKey H accessor profile owner).profile = .ok ()) :
    (canonicalKey H accessor profile owner).Canonical H := by
  have hacc : canonicalAccessor H (canonicalAccessor H accessor) = canonicalAccessor H accessor := by
    cases accessor with
    | wasmHash hash =>
        -- only here may lower-casing twice differ from lower-casing once, and the hash is hexadecimal
        simp only [canonicalKey, canonicalAccessor, validateAccessor, bind_eq_ok, require_eq_ok] at h
        obtain ⟨_, -, _, -, hhex⟩ := h
        show SecretAccessor.wasmHash _ = .wasmHash _
        rw [toLowercase_eq_self]
        intro ch hch
        exact ⟨not_upper_of_mem_toLowercase hch, toNat_lt_of_hexdigit (List.all_eq_true.mp hhex ch hch)⟩
    | repo _ _ => rfl
    | project _ => rfl
    | system _ => rfl
  simp only [SecretKey.Canonical, canonicalKey, hacc, canonicalProfile_idem]

/-- What the checks of a store establish about the code a secret is bound to. -/
def SecretAccessor.Shaped : SecretAccessor → Prop
  | .project projectId => '/' ∈ projectId.toList
  | .wasmHash hash     => ∀ ch ∈ hash.toList, isAsciiHexdigit ch = true
  | _                  => True

theorem shaped_of_validate {c : Contract} {accessor : SecretAccessor} {profile : String}
    (h : validateAccessor c accessor profile = .ok ()) : accessor.Shaped := by
  cases accessor with
  | repo _ _ => trivial
  | system _ => trivial
  | wasmHash hash =>
      simp only [validateAccessor, bind_eq_ok, require_eq_ok] at h
      obtain ⟨_, -, _, -, hhex⟩ := h
      exact List.all_eq_true.mp hhex
  | project projectId =>
      simp only [validateAccessor, bind_eq_ok, require_eq_ok] at h
      obtain ⟨_, -, _, hslash, -⟩ := h
      exact (contains_char rfl).mp hslash

theorem paymentKey_inj {owner owner' : AccountId} {nonce nonce' : Nat} :
    paymentKey owner nonce = paymentKey owner' nonce' ↔ owner = owner' ∧ nonce = nonce' := by
  constructor
  · intro h
    exact ⟨congrArg SecretKey.owner h, toString_nat_inj (congrArg SecretKey.profile h)⟩
  · rintro ⟨rfl, rfl⟩
    rfl

/-! ## Moves -/

/-- The deposits held for the rows. -/
def rowDeposits (rows : LookupMap SecretKey SecretProfile) : Nat :=
  LookupMap.total (fun _ row => row.storageDeposit) rows

/-- What the floor entries were charged, once each. -/
def floorCharges (floors : LookupMap AccountId Nat) : Nat :=
  LookupMap.total (fun owner _ => nonceFloorEntryBytes owner * storagePricePerByte) floors

/-- What the contract holds for the secrets. -/
def SecretStore.deposits (s : SecretStore) : Nat :=
  rowDeposits s.secretsStorage + floorCharges s.paymentKeyNonceFloors

theorem rowDeposits_insert (rows : LookupMap SecretKey SecretProfile) (key : SecretKey) (row : SecretProfile) :
    rowDeposits (rows.insert key row) + (rows.lookup key).elim 0 SecretProfile.storageDeposit
      = rowDeposits rows + row.storageDeposit :=
  LookupMap.total_insert (fun _ (row : SecretProfile) => row.storageDeposit) key row rows

theorem rowDeposits_erase (rows : LookupMap SecretKey SecretProfile) (key : SecretKey) :
    rowDeposits (rows.erase key) + (rows.lookup key).elim 0 SecretProfile.storageDeposit
      = rowDeposits rows :=
  LookupMap.total_erase (fun _ (row : SecretProfile) => row.storageDeposit) key rows

/-- The first nonce of an owner adds the charge for the entry, a later one adds nothing. -/
theorem floorCharges_insert (s : SecretStore) (owner : AccountId) (nonce : Nat) :
    floorCharges (s.paymentKeyNonceFloors.insert owner nonce)
      = floorCharges s.paymentKeyNonceFloors + nonceFloorDeposit s owner := by
  have h := LookupMap.total_insert (fun owner (_ : Nat) => nonceFloorEntryBytes owner * storagePricePerByte)
    owner nonce s.paymentKeyNonceFloors
  unfold nonceFloorDeposit floorCharges
  cases hl : s.paymentKeyNonceFloors.lookup owner with
  | none =>
      rw [hl] at h
      rw [if_neg (AList.lookup_eq_none.mp hl)]
      simpa using h
  | some floor =>
      rw [hl] at h
      rw [if_pos (LookupMap.mem_iff_lookup.mpr ⟨floor, hl⟩)]
      simp only [Option.elim_some] at h
      omega

/-- The store without a row, its binding and its index entry. -/
def SecretStore.without (s : SecretStore) (key : SecretKey) : SecretStore :=
  { s with
    secretsStorage := s.secretsStorage.erase key
    secretVaultBindings := s.secretVaultBindings.erase key
    userSecretsIndex := Index.remove s.userSecretsIndex key.owner key }

/-- The row is stored under the key, paid for with `paid`; the floors are not described. -/
structure Stores (H : Host) (c : SecretStore) (paid : Nat) (key : SecretKey) (row : SecretProfile)
    (s : SecretStore) (ses : List StorageEffect) : Prop where
  canonical : key.Canonical H
  shaped : key.accessor.Shaped
  rows : s.secretsStorage = c.secretsStorage.insert key row
  index : s.userSecretsIndex =
    if (c.secretsStorage.lookup key).isNone then Index.insert c.userSecretsIndex key.owner key
    else c.userSecretsIndex
  bindings : s.secretVaultBindings = c.secretVaultBindings ∨
    ∃ vault, s.secretVaultBindings = c.secretVaultBindings.insert key vault
  priced : row.storageDeposit =
    calculateSecretStorageSize key row.encryptedSecrets row.access (s.secretVaultBindings.lookup key).isSome
      * storagePricePerByte
  balance : s.deposits + refunded ses = c.deposits + paid

/-- What is known of a move before it is made: it creates a payment key, it answers a top-up with a new
    ciphertext, or it is any other. -/
inductive SecretAct
  | create (owner : AccountId) (nonce : Nat)
  | topUp (owner : AccountId) (nonce : Nat) (newEncryptedData : String)
  | other
deriving DecidableEq

/-- What can happen to the secrets in one execution that was paid `paid`: the store it leaves and what it
    sends back. -/
inductive SecretMove (H : Host) (c : SecretStore) (paid : Nat) :
    SecretAct → SecretStore → List StorageEffect → Prop
  | store (key : SecretKey) (row : SecretProfile) (s : SecretStore) (ses : List StorageEffect)
      (kind : key.accessor ≠ .system .paymentKey) (stores : Stores H c paid key row s ses)
      (floors : s.paymentKeyNonceFloors = c.paymentKeyNonceFloors) : SecretMove H c paid .other s ses
  | create (owner : AccountId) (nonce : Nat) (row : SecretProfile) (s : SecretStore)
      (ses : List StorageEffect) (stores : Stores H c paid (paymentKey owner nonce) row s ses)
      (new : c.secretsStorage.lookup (paymentKey owner nonce) = none)
      (above : paymentKeyNonceFloor c owner < nonce) (fits : nonce ≤ maxNonce)
      (floors : s.paymentKeyNonceFloors = c.paymentKeyNonceFloors.insert owner nonce) :
      SecretMove H c paid (.create owner nonce) s ses
  | delete (key : SecretKey) (row : SecretProfile) (receiver : AccountId)
      (held : c.secretsStorage.lookup key = some row) (unpaid : paid = 0) :
      SecretMove H c paid .other (c.without key) (refund receiver row.storageDeposit)
  | deletePaymentKey (owner : AccountId) (nonce : Nat) (row : SecretProfile)
      (held : c.secretsStorage.lookup (paymentKey owner nonce) = some row) (unpaid : paid = 0) :
      SecretMove H c paid .other
        (raisePaymentKeyNonceFloor (c.without (paymentKey owner nonce)) owner nonce)
        (refund owner row.storageDeposit)
  | unbind (key : SecretKey) (row : SecretProfile) (held : c.secretsStorage.lookup key = some row)
      (unpaid : paid = 0) :
      SecretMove H c paid .other { c with secretVaultBindings := c.secretVaultBindings.erase key } []
  | recondition (key : SecretKey) (row row' : SecretProfile) (receiver : AccountId)
      (held : c.secretsStorage.lookup key = some row)
      (priced : row'.storageDeposit =
        calculateSecretStorageSize key row'.encryptedSecrets row'.access
          (c.secretVaultBindings.lookup key).isSome * storagePricePerByte)
      (covered : row'.storageDeposit ≤ paid + row.storageDeposit) :
      SecretMove H c paid .other { c with secretsStorage := c.secretsStorage.insert key row' }
        (refund receiver (paid + row.storageDeposit - row'.storageDeposit))
  | topUp (owner : AccountId) (nonce : Nat) (data : String) (time : Nat) (row : SecretProfile)
      (held : c.secretsStorage.lookup (paymentKey owner nonce) = some row) (unpaid : paid = 0) :
      SecretMove H c paid (.topUp owner nonce data)
        { c with
          secretsStorage := c.secretsStorage.insert (paymentKey owner nonce)
            { row with encryptedSecrets := data, updatedAt := time } }
        [.valueReturn (u128Json 0)]
  | missed (owner : AccountId) (nonce amount : Nat) (data : String)
      (gone : c.secretsStorage.lookup (paymentKey owner nonce) = none) (unpaid : paid = 0) :
      SecretMove H c paid (.topUp owner nonce data) c [.valueReturn (u128Json amount)]
  | idle (ses : List StorageEffect) (quiet : refunded ses = 0) (unpaid : paid = 0) :
      SecretMove H c paid .other c ses

/-! ## Storing -/

/-- What storing a row of `owner` amounts to. -/
def storeAct (owner : AccountId) (accessor : SecretAccessor) (profile : String) : SecretAct :=
  match accessor with
  | .system .paymentKey => (parseUnsigned 32 profile).elim .other fun nonce => .create owner nonce
  | _                   => .other

theorem storeAct_of_ne {owner : AccountId} {accessor : SecretAccessor} {profile : String}
    (h : accessor ≠ .system .paymentKey) : storeAct owner accessor profile = .other := by
  cases accessor with
  | system kind =>
      cases kind
      exact absurd rfl h
  | _ => rfl

section Store
variable {H : Host} {env : Env} {c : Contract}

/-- What was attached and held pays for what is required; the rest is the refund. -/
theorem secretRefund_ok {existing : Option SecretProfile} {required floorDeposit excess : Nat}
    (h : secretRefund env existing required floorDeposit = .ok excess)
    (hfloor : existing.isSome → floorDeposit = 0) :
    excess + required + floorDeposit = env.attachedDeposit + existing.elim 0 SecretProfile.storageDeposit := by
  cases existing with
  | some row =>
      simp only [secretRefund, bind_eq_ok, add_eq_ok, require_eq_ok, pure_eq_ok] at h
      obtain ⟨_, ⟨-, rfl⟩, _, hcovered, rfl⟩ := h
      have := hfloor rfl
      simp only [Option.elim_some]
      omega
  | none =>
      simp only [secretRefund, bind_eq_ok, add_eq_ok, require_eq_ok, pure_eq_ok] at h
      obtain ⟨_, ⟨-, rfl⟩, _, hcovered, rfl⟩ := h
      simp only [Option.elim_none]
      omega

/-- Raising a floor that is below the nonce writes the nonce. -/
theorem raise_of_lt {s : SecretStore} {owner : AccountId} {nonce : Nat}
    (h : paymentKeyNonceFloor s owner < nonce) :
    raisePaymentKeyNonceFloor s owner nonce
      = { s with paymentKeyNonceFloors := s.paymentKeyNonceFloors.insert owner nonce } := by
  rw [raisePaymentKeyNonceFloor, if_pos]
  unfold paymentKeyNonceFloor at h
  cases hl : s.paymentKeyNonceFloors.lookup owner with
  | none => rfl
  | some floor =>
      rw [hl] at h
      simpa using h

@[simp] theorem raise_secretsStorage (s : SecretStore) (owner : AccountId) (nonce : Nat) :
    (raisePaymentKeyNonceFloor s owner nonce).secretsStorage = s.secretsStorage := by
  unfold raisePaymentKeyNonceFloor
  split <;> rfl

/-- Raising a floor that is there and high enough does nothing. -/
theorem raise_of_le {s : SecretStore} {owner : AccountId} {nonce floor : Nat}
    (hl : s.paymentKeyNonceFloors.lookup owner = some floor) (h : nonce ≤ floor) :
    raisePaymentKeyNonceFloor s owner nonce = s := by
  rw [raisePaymentKeyNonceFloor, if_neg]
  rw [hl]
  simpa using h

/-- A row written with its binding and index entry, and paid for. -/
theorem stores_row {s₀ s : SecretStore} {paid : Nat} {key : SecretKey} {row : SecretProfile}
    {vaultId : Option AccountId} {payer : AccountId} {excess floorDeposit : Nat} {events : List StorageEffect}
    (canonical : key.Canonical H) (shaped : key.accessor.Shaped)
    (rows : s.secretsStorage = s₀.secretsStorage.insert key row)
    (index : s.userSecretsIndex =
      if (s₀.secretsStorage.lookup key).isNone then Index.insert s₀.userSecretsIndex key.owner key
      else s₀.userSecretsIndex)
    (bindings : s.secretVaultBindings = match vaultId with
      | some vault => s₀.secretVaultBindings.insert key vault
      | none       => s₀.secretVaultBindings)
    (priced : row.storageDeposit =
      calculateSecretStorageSize key row.encryptedSecrets row.access
        (vaultId.isSome || (s₀.secretVaultBindings.lookup key).isSome) * storagePricePerByte)
    (charged : floorCharges s.paymentKeyNonceFloors = floorCharges s₀.paymentKeyNonceFloors + floorDeposit)
    (paidFor : excess + row.storageDeposit + floorDeposit
      = paid + (s₀.secretsStorage.lookup key).elim 0 SecretProfile.storageDeposit)
    (quiet : refunded events = 0) :
    Stores H s₀ paid key row s (refund payer excess ++ events) where
  canonical := canonical
  shaped := shaped
  rows := rows
  index := index
  bindings := by
    cases vaultId with
    | none => exact Or.inl bindings
    | some vault => exact Or.inr ⟨vault, bindings⟩
  priced := by
    rw [priced, bindings]
    cases vaultId with
    | none => rfl
    | some vault => simp
  balance := by
    have htotal := rowDeposits_insert s₀.secretsStorage key row
    simp only [SecretStore.deposits, rows, charged, refunded_append, refunded_refund, quiet]
    omega

/-- A payment key's name that passed the checks is its nonce, printed. -/
theorem canonicalKey_paymentKey (H : Host) (owner : AccountId) {profile : String}
    (h : validateAccessor c (.system .paymentKey) (canonicalProfile (.system .paymentKey) profile) = .ok ()) :
    ∃ nonce, parseUnsigned 32 profile = some nonce ∧ nonce ≤ maxNonce ∧
      canonicalKey H (.system .paymentKey) profile owner = paymentKey owner nonce := by
  simp only [validateAccessor, bind_eq_ok, expect_eq_ok, require_eq_ok] at h
  obtain ⟨n, hread, _, -, hfits⟩ := h
  cases hparse : parseUnsigned 32 profile with
  | none => simp [canonicalProfile, hparse] at hread
  | some nonce =>
      have hprofile : canonicalProfile (.system .paymentKey) profile = toString nonce := by
        simp only [canonicalProfile, hparse]
      rw [hprofile, parseUnsigned_toString (parseUnsigned_lt hparse)] at hread
      cases hread
      exact ⟨_, rfl, hfits, by simp only [canonicalKey, canonicalAccessor, hprofile, paymentKey]⟩

theorem lt_of_le_maxNonce {nonce : Nat} (h : nonce ≤ maxNonce) : nonce < 2 ^ 32 :=
  Nat.lt_of_le_of_lt h (by decide)

/-- A payment key is new and above its owner's floor. -/
theorem checkNonceUnused_paymentKey {s : SecretStore} {owner : AccountId} {nonce floorDeposit : Nat}
    (hfits : nonce ≤ maxNonce) (h : checkNonceUnused s (paymentKey owner nonce) = .ok floorDeposit) :
    s.secretsStorage.lookup (paymentKey owner nonce) = none ∧ paymentKeyNonceFloor s owner < nonce ∧
      floorDeposit = nonceFloorDeposit s owner := by
  have hparse : parseUnsigned 32 (paymentKey owner nonce).profile = some nonce :=
    parseUnsigned_toString (lt_of_le_maxNonce hfits)
  unfold checkNonceUnused at h
  split at h
  · simp only [hparse, bind_eq_ok, require_eq_ok, expect_eq_ok, pure_eq_ok, Option.some.injEq] at h
    obtain ⟨_, hnew, _, rfl, _, habove, hcharge⟩ := h
    exact ⟨Option.isNone_iff_eq_none.mp hnew, habove, hcharge.symm⟩
  · next hkind => exact absurd rfl hkind

/-- Registering a payment key above the floor raises the floor to it. -/
theorem registerPaymentKey_paymentKey {cfg : Config} {s s' : SecretStore} {owner : AccountId} {nonce : Nat}
    {data : String} {events : List StorageEffect} (hfits : nonce ≤ maxNonce)
    (habove : paymentKeyNonceFloor s owner < nonce)
    (h : registerPaymentKey cfg s (paymentKey owner nonce) data = .ok (s', events)) :
    s' = { s with paymentKeyNonceFloors := s.paymentKeyNonceFloors.insert owner nonce } ∧
      refunded events = 0 := by
  have hparse : parseUnsigned 32 (paymentKey owner nonce).profile = some nonce :=
    parseUnsigned_toString (lt_of_le_maxNonce hfits)
  unfold registerPaymentKey at h
  split at h
  · simp only [hparse, bind_eq_ok, expect_eq_ok, pure_eq_ok, Option.some.injEq, Prod.mk.injEq] at h
    obtain ⟨_, rfl, rfl, rfl⟩ := h
    exact ⟨raise_of_lt habove, rfl⟩
  · next hkind => exact absurd rfl hkind

/-- Any other row touches no nonce. -/
theorem checkNonceUnused_other {s : SecretStore} {key : SecretKey} {floorDeposit : Nat}
    (hkind : key.accessor ≠ .system .paymentKey) (h : checkNonceUnused s key = .ok floorDeposit) :
    floorDeposit = 0 := by
  unfold checkNonceUnused at h
  split at h
  · next hpay => exact absurd hpay hkind
  · exact (pure_eq_ok.mp h).symm

theorem registerPaymentKey_other {cfg : Config} {s s' : SecretStore} {key : SecretKey} {data : String}
    {events : List StorageEffect} (hkind : key.accessor ≠ .system .paymentKey)
    (h : registerPaymentKey cfg s key data = .ok (s', events)) : s' = s ∧ events = [] := by
  unfold registerPaymentKey at h
  split at h
  · next hpay => exact absurd hpay hkind
  · cases h
    exact ⟨rfl, rfl⟩

/-- **A store**, as a move. -/
theorem storeSecretsInternal_move {owner payer : AccountId} {accessor : SecretAccessor}
    {profile encrypted : String} {access : AccessCondition} {vaultId : Option AccountId} {s : SecretStore}
    {ses : List StorageEffect}
    (h : storeSecretsInternal H env c owner payer accessor profile encrypted access vaultId = .ok (s, ses)) :
    SecretMove H c.toSecretStore env.attachedDeposit (storeAct owner accessor profile) s ses := by
  simp only [storeSecretsInternal, bind_eq_ok, require_eq_ok, pure_eq_ok] at h
  obtain ⟨_, -, _, hvalid, _, -, _, -, _, -, floorDeposit, hnonce, excess, hexcess, ⟨s', events⟩, hregister,
    h⟩ := h
  cases h
  have hcanon := canonicalKey_canonical hvalid
  have hshaped := shaped_of_validate hvalid
  by_cases hkind : accessor = .system .paymentKey
  · subst hkind
    obtain ⟨nonce, hparse, hfits, hkey⟩ := canonicalKey_paymentKey H owner hvalid
    rw [hkey] at hcanon hshaped hnonce hexcess hregister
    obtain ⟨hnew, habove, rfl⟩ := checkNonceUnused_paymentKey hfits hnonce
    obtain ⟨rfl, hquiet⟩ := registerPaymentKey_paymentKey hfits (by exact habove) hregister
    rw [storeAct, hparse]
    have hpaid := secretRefund_ok hexcess (fun hsome => by rw [hnew] at hsome; cases hsome)
    exact .create owner nonce _ _ _
      (stores_row hcanon hshaped rfl rfl rfl rfl (floorCharges_insert _ _ _) hpaid hquiet) hnew habove hfits rfl
  · have hkind' : (canonicalKey H accessor profile owner).accessor ≠ .system .paymentKey := by
      cases accessor with
      | system kind => exact hkind
      | _ => intro heq; cases heq
    obtain rfl := checkNonceUnused_other hkind' hnonce
    obtain ⟨rfl, rfl⟩ := registerPaymentKey_other hkind' hregister
    rw [storeAct_of_ne hkind]
    have hpaid := secretRefund_ok hexcess (fun _ => rfl)
    exact .store _ _ _ _ hkind' (stores_row hcanon hshaped rfl rfl rfl rfl rfl hpaid rfl) rfl

end Store

/-! ## Methods and callbacks -/

/-- What a call does to the secrets. -/
def Call.secretAct (env : Env) : Call → SecretAct
  | .storeSecrets accessor profile _ _ _ => storeAct env.predecessor accessor profile
  | _                                    => .other

/-- What a callback does to the secrets when it is handed `payload`. -/
def YieldCallback.secretAct (payload : Option YieldPayload) : YieldCallback → SecretAct
  | .onTopUpResponse owner nonce _ =>
      match payload.bind YieldPayload.asTopUpResult with
      | some (.success newEncryptedData) => .topUp owner nonce newEncryptedData
      | _                                => .other
  | _ => .other

section Methods
variable {H : Host} {env : Env} {c : Contract} {s : SecretStore} {ses : List StorageEffect}

/-- An agent's secret is stored by the common body, under the canonical accessor. -/
theorem storeAgentSecret_ok {agentPubkey : String} {accessor : SecretAccessor} {profile encrypted : String}
    {access : AccessCondition} {vaultId : Option AccountId} {signature : String}
    (h : storeAgentSecret H env c agentPubkey accessor profile encrypted access vaultId signature
      = .ok (s, ses)) :
    ∃ owner accessor' profile', accessor' ≠ .system .paymentKey ∧
      storeSecretsInternal H env c owner env.predecessor accessor' profile' encrypted access vaultId
        = .ok (s, ses) := by
  simp only [storeAgentSecret, bind_eq_ok] at h
  obtain ⟨owner, -, _, -, _, -, h⟩ := h
  cases accessor with
  | repo _ _ => exact absurd h throw_ne_ok
  | system _ => exact absurd h throw_ne_ok
  | wasmHash _ =>
      obtain ⟨_, -, h⟩ := bind_eq_ok.mp h
      exact ⟨owner, _, _, SecretAccessor.noConfusion, h⟩
  | project _ =>
      obtain ⟨_, -, h⟩ := bind_eq_ok.mp h
      exact ⟨owner, _, _, SecretAccessor.noConfusion, h⟩

theorem storeAgentSecret_move {agentPubkey : String} {accessor : SecretAccessor} {profile encrypted : String}
    {access : AccessCondition} {vaultId : Option AccountId} {signature : String}
    (h : storeAgentSecret H env c agentPubkey accessor profile encrypted access vaultId signature
      = .ok (s, ses)) :
    SecretMove H c.toSecretStore env.attachedDeposit .other s ses := by
  obtain ⟨owner, accessor', profile', hkind, hstore⟩ := storeAgentSecret_ok h
  have hact : storeAct owner accessor' profile' = .other := storeAct_of_ne hkind
  exact hact ▸ storeSecretsInternal_move hstore

/-- A deletion takes the row with its binding and index entry, and sends its deposit back. -/
theorem deleteSecretsInternal_ok {s₀ : SecretStore} (key : SecretKey) {receiver : AccountId}
    (h : deleteSecretsInternal s₀ key key.owner receiver = .ok (s, ses)) :
    ∃ row, s₀.secretsStorage.lookup key = some row ∧ s = s₀.without key ∧
      ses = refund receiver row.storageDeposit := by
  simp only [deleteSecretsInternal, bind_eq_ok, expect_eq_ok, pure_eq_ok, Prod.mk.injEq] at h
  obtain ⟨row, held, rfl, rfl⟩ := h
  exact ⟨row, held, rfl, rfl⟩

theorem deleteSecrets_move {accessor : SecretAccessor} {profile : String} (hpaid : env.attachedDeposit = 0)
    (h : deleteSecrets H env c accessor profile = .ok (s, ses)) :
    SecretMove H c.toSecretStore env.attachedDeposit .other s ses := by
  obtain ⟨row, held, rfl, rfl⟩ := deleteSecretsInternal_ok _ h
  exact .delete _ row _ held hpaid

/-- The signed deletion removes a row of the agent, and no payment key. -/
theorem deleteAgentSecret_ok {agentPubkey : String} {accessor : SecretAccessor} {profile signature : String}
    (h : deleteAgentSecret H env c agentPubkey accessor profile signature = .ok (s, ses)) :
    ∃ key receiver, key.accessor ≠ .system .paymentKey ∧
      deleteSecretsInternal c.toSecretStore key key.owner receiver = .ok (s, ses) := by
  simp only [deleteAgentSecret, bind_eq_ok] at h
  obtain ⟨owner, -, _, -, h⟩ := h
  cases accessor with
  | repo _ _ => exact absurd h throw_ne_ok
  | system _ => exact absurd h throw_ne_ok
  | wasmHash _ =>
      obtain ⟨_, -, h⟩ := bind_eq_ok.mp h
      exact ⟨_, _, SecretAccessor.noConfusion, h⟩
  | project _ =>
      obtain ⟨_, -, h⟩ := bind_eq_ok.mp h
      exact ⟨_, _, SecretAccessor.noConfusion, h⟩

theorem deleteAgentSecret_move {agentPubkey : String} {accessor : SecretAccessor} {profile signature : String}
    (hpaid : env.attachedDeposit = 0)
    (h : deleteAgentSecret H env c agentPubkey accessor profile signature = .ok (s, ses)) :
    SecretMove H c.toSecretStore env.attachedDeposit .other s ses := by
  obtain ⟨key, receiver, -, hdelete⟩ := deleteAgentSecret_ok h
  obtain ⟨row, held, rfl, rfl⟩ := deleteSecretsInternal_ok key hdelete
  exact .delete key row receiver held hpaid

theorem unbindSecretVault_move {accessor : SecretAccessor} {profile : String} (hpaid : env.attachedDeposit = 0)
    (h : unbindSecretVault H env c accessor profile = .ok (s, ses)) :
    SecretMove H c.toSecretStore env.attachedDeposit .other s ses := by
  simp only [unbindSecretVault, bind_eq_ok, require_eq_ok, pure_eq_ok, Prod.mk.injEq] at h
  obtain ⟨_, hsome, rfl, rfl⟩ := h
  obtain ⟨row, held⟩ := Option.isSome_iff_exists.mp hsome
  exact .unbind _ row held hpaid

theorem updateAccess_move {accessor : SecretAccessor} {profile : String} {access : AccessCondition}
    (h : updateAccess H env c accessor profile access = .ok (s, ses)) :
    SecretMove H c.toSecretStore env.attachedDeposit .other s ses := by
  simp only [updateAccess, bind_eq_ok, expect_eq_ok, add_eq_ok, require_eq_ok, pure_eq_ok,
    Prod.mk.injEq] at h
  obtain ⟨row, held, _, -, _, ⟨-, rfl⟩, _, covered, rfl, rfl⟩ := h
  exact .recondition _ row _ _ held rfl covered

/-- **Every call on the secrets** is a move, paid with what was attached. -/
theorem secret_call {call : Call} (hpay : call.payable = true ∨ env.attachedDeposit = 0)
    (h : runCall H env c call = .secrets (.ok (s, ses))) :
    SecretMove H c.toSecretStore env.attachedDeposit (call.secretAct env) s ses := by
  have hfree (hnot : call.payable = false) : env.attachedDeposit = 0 := by
    rcases hpay with hp | hp
    · rw [hnot] at hp
      cases hp
    · exact hp
  cases call with
  | storeSecrets _ _ _ _ _ => exact storeSecretsInternal_move (PartRun.secrets.inj h)
  | storeAgentSecret _ _ _ _ _ _ _ => exact storeAgentSecret_move (PartRun.secrets.inj h)
  | deleteAgentSecret _ _ _ _ => exact deleteAgentSecret_move (hfree rfl) (PartRun.secrets.inj h)
  | deleteSecrets _ _ => exact deleteSecrets_move (hfree rfl) (PartRun.secrets.inj h)
  | unbindSecretVault _ _ => exact unbindSecretVault_move (hfree rfl) (PartRun.secrets.inj h)
  | updateAccess _ _ _ => exact updateAccess_move (PartRun.secrets.inj h)
  | _ => cases h

/-- Nothing but a call on the secrets creates a payment key. -/
theorem secretAct_of_ne_secrets {call : Call} (h : ∀ x, runCall H env c call ≠ .secrets x) :
    call.secretAct env = .other := by
  cases call with
  | storeSecrets _ _ _ _ _ => exact absurd rfl (h _)
  | _ => rfl

theorem onTopUpResponse_move {owner : AccountId} {nonce amount : Nat} {payload : Option YieldPayload}
    (h : (do
      let result ← callbackResult YieldPayload.asTopUpResult payload
      pure (onTopUpResponse env c.toSecretStore owner nonce amount result) : Res _) = .ok (s, ses)) :
    SecretMove H c.toSecretStore 0 ((YieldCallback.onTopUpResponse owner nonce amount).secretAct payload) s
      ses := by
  simp only [bind_eq_ok, pure_eq_ok] at h
  obtain ⟨result, hresult, h⟩ := h
  -- what the act reads off the payload is what the callback was handed
  have hbind : payload.bind YieldPayload.asTopUpResult = result := by
    cases payload with
    | none => exact pure_eq_ok.mp hresult
    | some p =>
        simp only [callbackResult, bind_eq_ok, expect_eq_ok, pure_eq_ok] at hresult
        obtain ⟨r, hr, rfl⟩ := hresult
        exact hr
  simp only [YieldCallback.secretAct, hbind]
  unfold onTopUpResponse at h
  split at h
  · next data =>
      split at h
      · next row held =>
          cases h
          exact .topUp owner nonce data env.blockTimestamp row held rfl
      · next gone =>
          cases h
          exact .missed owner nonce amount data gone rfl
  · cases h
    exact .idle _ rfl rfl
  · cases h
    exact .idle _ rfl rfl

theorem onDeletePaymentKeyResponse_move {owner : AccountId} {nonce : Nat} {payload : Option YieldPayload}
    (h : (do
      let result ← callbackResult YieldPayload.asDeletePaymentKeyResult payload
      onDeletePaymentKeyResponse c.toSecretStore owner nonce result : Res _) = .ok (s, ses)) :
    SecretMove H c.toSecretStore 0 .other s ses := by
  obtain ⟨result, -, h⟩ := bind_eq_ok.mp h
  unfold onDeletePaymentKeyResponse at h
  split at h
  · simp only [bind_eq_ok, pure_eq_ok, Prod.mk.injEq] at h
    obtain ⟨⟨s', ses'⟩, hdelete, rfl, rfl⟩ := h
    obtain ⟨row, held, rfl, rfl⟩ := deleteSecretsInternal_ok (paymentKey owner nonce) hdelete
    exact .deletePaymentKey owner nonce row held rfl
  · cases h
    exact .idle _ rfl rfl
  · cases h
    exact .idle _ rfl rfl

/-- **Every callback on the secrets** is a move, paid with nothing. -/
theorem secret_callback {payload : Option YieldPayload} {callback : YieldCallback}
    (h : runCallback H env c payload callback = .secrets (.ok (s, ses))) :
    SecretMove H c.toSecretStore 0 (callback.secretAct payload) s ses := by
  cases callback with
  | onExecutionResponse _ => cases h
  | onTopUpResponse owner nonce amount => exact onTopUpResponse_move (PartRun.secrets.inj h)
  | onDeletePaymentKeyResponse owner nonce => exact onDeletePaymentKeyResponse_move (PartRun.secrets.inj h)

end Methods

/-! ## Steps -/

/-- What a step does to the secrets. -/
def Step.secretAct (t : Step) : SecretAct :=
  match t.event with
  | .call env call         => call.secretAct env
  | .yielded _ d .resumed  => (t.pre.yields.lookup d).elim .other fun y => y.callback.secretAct y.payload
  | _                      => .other

theorem YieldCallback.secretAct_none (callback : YieldCallback) : callback.secretAct none = .other := by
  cases callback <;> rfl

/-- A callback off the secrets does nothing to them. -/
theorem YieldCallback.secretAct_of_ne_secrets {H : Host} {env : Env} {c : Contract}
    {payload : Option YieldPayload} {callback : YieldCallback}
    (h : ∀ x, runCallback H env c payload callback ≠ .secrets x) : callback.secretAct payload = .other := by
  cases callback with
  | onTopUpResponse _ _ _ => exact absurd rfl (h _)
  | onExecutionResponse _ => rfl
  | onDeletePaymentKeyResponse _ _ => rfl

/-- A callback that fails does nothing to the secrets: the answer to a top-up does not fail. -/
theorem YieldCallback.secretAct_of_failed {H : Host} {env : Env} {c : Contract}
    {payload : Option YieldPayload} {callback : YieldCallback}
    (h : ∀ r, (runCallback H env c payload callback).commit c ≠ .ok r) : callback.secretAct payload = .other := by
  cases callback with
  | onTopUpResponse owner nonce amount =>
      cases payload with
      | none => rfl
      | some p =>
          cases hp : p.asTopUpResult with
          | none => simp [YieldCallback.secretAct, hp]
          | some r =>
              have hrun : runCallback H env c (some p) (.onTopUpResponse owner nonce amount)
                  = .secrets (.ok (Outlayer.onTopUpResponse env c.toSecretStore owner nonce amount (some r))) := by
                simp only [runCallback, callbackResult, hp, expect]
                rfl
              rw [hrun] at h
              exact absurd rfl (h _)
  | onExecutionResponse _ => rfl
  | onDeletePaymentKeyResponse _ _ => rfl

/-- **What a step does to the secrets**: a move, or nothing. -/
theorem step_secrets {H : Host} {t : Step} (h : Fires (World.next H) t) :
    (∃ paid ses, SecretMove H t.pre.contract.toSecretStore paid t.secretAct t.post.contract.toSecretStore ses) ∨
    (t.secretAct = .other ∧ t.post.contract.toSecretStore = t.pre.contract.toSecretStore) := by
  cases step_cases h with
  | call env call event run post =>
      obtain ⟨hpay, hcommit⟩ := exec_commit run
      have hact : t.secretAct = call.secretAct (t.pre.seenBy env) := by
        rw [Step.secretAct, event]
        cases call <;> rfl
      rw [hact]
      rcases (commit_parts hcommit).secrets with ⟨ses, hrun, -⟩ | ⟨hoff, hsame⟩
      · exact Or.inl ⟨_, ses, secret_call hpay hrun⟩
      · exact Or.inr ⟨secretAct_of_ne_secrets hoff, hsame⟩
  | callback env d delivery y payload event waiting delivered run post =>
      have hact : t.secretAct = y.callback.secretAct payload := by
        rcases delivered with ⟨rfl, rfl⟩ | ⟨rfl, rfl, -⟩
        · rw [Step.secretAct, event, YieldCallback.secretAct_none]
        · rw [Step.secretAct, event]
          simp only [waiting, Option.elim_some]
      rw [hact]
      -- a callback off the secrets acts on none
      rcases (commit_parts run).secrets with ⟨ses, hrun, -⟩ | ⟨hoff, hsame⟩
      · exact Or.inl ⟨_, ses, secret_callback hrun⟩
      · exact Or.inr ⟨YieldCallback.secretAct_of_ne_secrets hoff, hsame⟩
  | spent env d delivery event failed out post =>
      refine Or.inr ⟨?_, by rw [post]; rfl⟩
      rw [Step.secretAct, event]
      cases delivery with
      | resumed =>
          cases hy : t.pre.yields.lookup d with
          | none => simp [hy]
          | some y => simpa [hy] using YieldCallback.secretAct_of_failed (failed rfl y hy)
      | timedOut => rfl
      | outOfGas => rfl
  | withdrawn receipt transferOk x l event pending run out post =>
      exact Or.inr ⟨by rw [Step.secretAct, event], by rw [post]⟩
  | stuck receipt x event pending overflow out post =>
      exact Or.inr ⟨by rw [Step.secretAct, event], by rw [post]⟩

end Outlayer
