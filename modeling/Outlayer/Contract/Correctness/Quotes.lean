import Outlayer.Contract.Messages
import Outlayer.Contract.SecretSteps
import Outlayer.Contract.PolicySteps
import Outlayer.Contract.Views
import Outlayer.Contract.Replay

/-!
# `Contract.Correctness.Quotes` — a quote is what the store charges

The views that quote a deposit and the methods that take it compute it apart. For a secret the quote is the least
deposit that stores it. For a wallet policy it is what has to be held after the call: a deposit held already counts.
-/

namespace Outlayer
open Text Checked Collections

/-- The same call with another deposit. -/
def Env.attaching (env : Env) (deposit : Nat) (fits : deposit < 2 ^ 128) : Env :=
  { env with attachedDeposit := deposit, attachedDeposit_lt := fits }

/-! ## Secrets -/

section Secrets
variable {H : Host} {env : Env} {c : Contract} {owner payer : AccountId} {accessor : SecretAccessor}
  {profile encrypted : String} {access : AccessCondition} {vaultId : Option AccountId}

/-- What a store checks before it looks at the deposit. -/
structure StoreAccepts (H : Host) (c : Contract) (owner : AccountId) (accessor : SecretAccessor)
    (profile encrypted : String) (access : AccessCondition) : Prop where
  bounds : assertConditionBounds access = .ok ()
  valid : validateAccessor c (canonicalKey H accessor profile owner).accessor
    (canonicalKey H accessor profile owner).profile = .ok ()
  shape : assertProfileShape H (canonicalKey H accessor profile owner).profile = .ok ()
  nonempty : encrypted ≠ ""
  ofAgent : isImplicitAccountName (canonicalKey H accessor profile owner).profile = false ∨
    (canonicalKey H accessor profile owner).profile = owner.name
  unused : ∃ floorDeposit, checkNonceUnused c.toSecretStore (canonicalKey H accessor profile owner) = .ok floorDeposit

/-- The charge for the floor entry is the one that is quoted. -/
theorem checkNonceUnused_eq_quoted {s : SecretStore} {key : SecretKey} {floorDeposit : Nat}
    (h : checkNonceUnused s key = .ok floorDeposit) : floorDeposit = quotedFloorDeposit s key := by
  unfold checkNonceUnused at h
  split at h
  · next hkind =>
      simp only [bind_eq_ok, require_eq_ok, expect_eq_ok, pure_eq_ok] at h
      obtain ⟨_, hnew, _, -, _, -, rfl⟩ := h
      unfold quotedFloorDeposit
      rw [hkind]
      exact (if_pos hnew).symm
  · next hkind =>
      obtain rfl := pure_eq_ok.mp h
      unfold quotedFloorDeposit
      split
      · next hpay => exact absurd hpay hkind
      · rfl

/-- A payment key that may be created is registered. -/
theorem exists_registerPaymentKey {cfg : Config} {s s' : SecretStore} {key : SecretKey} {data : String}
    {floorDeposit : Nat} (h : checkNonceUnused s' key = .ok floorDeposit) :
    ∃ registered, registerPaymentKey cfg s key data = .ok registered := by
  unfold checkNonceUnused at h
  unfold registerPaymentKey
  split at h
  · simp only [bind_eq_ok, require_eq_ok, expect_eq_ok, pure_eq_ok] at h
    obtain ⟨_, -, nonce, hnonce, _⟩ := h
    simp only [bind_eq_ok, expect_eq_ok, pure_eq_ok]
    exact ⟨_, nonce, hnonce, rfl⟩
  · exact ⟨_, rfl⟩

/-- What is charged for a row that is not there yet. -/
def secretCharge (H : Host) (c : Contract) (owner : AccountId) (accessor : SecretAccessor) (profile encrypted : String)
    (access : AccessCondition) (vaultId : Option AccountId) : Nat :=
  let key := canonicalKey H accessor profile owner
  calculateSecretStorageSize key encrypted access (vaultId.isSome || (c.secretVaultBindings.lookup key).isSome)
      * storagePricePerByte
    + quotedFloorDeposit c.toSecretStore key

/-- A new row is stored exactly when the checks pass and the charge is attached. -/
theorem exists_storeSecretsInternal_iff
    (hnew : c.secretsStorage.lookup (canonicalKey H accessor profile owner) = none) :
    (∃ r, storeSecretsInternal H env c owner payer accessor profile encrypted access vaultId = .ok r) ↔
      StoreAccepts H c owner accessor profile encrypted access ∧
        secretCharge H c owner accessor profile encrypted access vaultId ≤ env.attachedDeposit := by
  simp only [storeSecretsInternal, hnew, secretRefund, bind_eq_ok, require_eq_ok, add_eq_ok, pure_eq_ok]
  constructor
  · rintro ⟨_, ⟨⟩, hbounds, ⟨⟩, hvalid, ⟨⟩, hshape, ⟨⟩, hnonempty, ⟨⟩, hagent, floorDeposit, hnonce, _,
      ⟨_, ⟨-, rfl⟩, _, hpaid, -⟩, -⟩
    obtain rfl := checkNonceUnused_eq_quoted hnonce
    exact ⟨⟨hbounds, hvalid, hshape, hnonempty, hagent, _, hnonce⟩, hpaid⟩
  · rintro ⟨⟨hbounds, hvalid, hshape, hnonempty, hagent, floorDeposit, hnonce⟩, hpaid⟩
    obtain rfl := checkNonceUnused_eq_quoted hnonce
    obtain ⟨registered, hregistered⟩ := exists_registerPaymentKey hnonce
    exact ⟨_, (), hbounds, (), hvalid, (), hshape, (), hnonempty, (), hagent, _, hnonce, _,
      ⟨_, ⟨lt_of_le_of_lt hpaid env.attachedDeposit_lt, rfl⟩, (), hpaid, rfl⟩, registered, hregistered, rfl⟩

/-- Registering a payment key moves no row and no deposit. -/
theorem registerPaymentKey_quiet {cfg : Config} {s s' : SecretStore} {key : SecretKey} {data : String}
    {events : List StorageEffect} (h : registerPaymentKey cfg s key data = .ok (s', events)) :
    s'.secretsStorage = s.secretsStorage ∧ refunded events = 0 := by
  unfold registerPaymentKey at h
  split at h
  · simp only [bind_eq_ok, expect_eq_ok, pure_eq_ok, Prod.mk.injEq] at h
    obtain ⟨nonce, -, rfl, rfl⟩ := h
    exact ⟨raise_secretsStorage _ _ _, rfl⟩
  · cases h
    exact ⟨rfl, rfl⟩

/-- What a store of a new row records, and what it keeps of the deposit. -/
theorem storeSecretsInternal_records
    (hnew : c.secretsStorage.lookup (canonicalKey H accessor profile owner) = none) {s : SecretStore}
    {ses : List StorageEffect}
    (h : storeSecretsInternal H env c owner payer accessor profile encrypted access vaultId = .ok (s, ses)) :
    ∃ row floorDeposit, s.secretsStorage.lookup (canonicalKey H accessor profile owner) = some row ∧
      checkNonceUnused c.toSecretStore (canonicalKey H accessor profile owner) = .ok floorDeposit ∧
      row.storageDeposit + floorDeposit = secretCharge H c owner accessor profile encrypted access vaultId ∧
      refunded ses + secretCharge H c owner accessor profile encrypted access vaultId = env.attachedDeposit := by
  simp only [storeSecretsInternal, hnew, secretRefund, bind_eq_ok, require_eq_ok, add_eq_ok, pure_eq_ok] at h
  obtain ⟨_, -, _, -, _, -, _, -, _, -, floorDeposit, hnonce, excess, ⟨_, ⟨-, rfl⟩, _, hpaid, rfl⟩, ⟨s', events⟩,
    hregister, h⟩ := h
  cases h
  obtain ⟨hrows, hquiet⟩ := registerPaymentKey_quiet hregister
  obtain rfl := checkNonceUnused_eq_quoted hnonce
  have hkept : refunded (refund payer (env.attachedDeposit - secretCharge H c owner accessor profile encrypted access
      vaultId) ++ events) + secretCharge H c owner accessor profile encrypted access vaultId = env.attachedDeposit := by
    rw [refunded_append, refunded_refund, hquiet, Nat.add_zero]
    exact Nat.sub_add_cancel hpaid
  have hrow := congrArg (AList.lookup (canonicalKey H accessor profile owner)) hrows
  exact ⟨_, _, hrow.trans (AList.lookup_insert _), hnonce, rfl, hkept⟩

/-- What is quoted is the charge, where it can be attached at all. -/
theorem estimateStorageCost_eq_ok (hbounds : assertConditionBounds access = .ok ())
    (hfits : secretCharge H c owner accessor profile encrypted access vaultId < 2 ^ 128) :
    estimateStorageCost H c accessor profile owner encrypted access vaultId
      = .ok (secretCharge H c owner accessor profile encrypted access vaultId) := by
  simp only [estimateStorageCost, bind_eq_ok, add_eq_ok]
  exact ⟨(), hbounds, hfits, rfl⟩

theorem secretCharge_pos : 0 < secretCharge H c owner accessor profile encrypted access vaultId := by
  have hsize : 0 < calculateSecretStorageSize (canonicalKey H accessor profile owner) encrypted access
      (vaultId.isSome || (c.secretVaultBindings.lookup (canonicalKey H accessor profile owner)).isSome) := by
    simp only [calculateSecretStorageSize]
    omega
  exact Nat.add_pos_left (Nat.mul_pos hsize (by decide)) _

/-- **The quote for a secret is exact.** For a key that is not stored and arguments a store accepts, the quote is the
    least deposit that stores them: that much and no less goes through, it is what the row records together with the
    charge for the nonce floor, and whatever is attached over it comes back. -/
theorem secret_quote_exact
    (hnew : c.secretsStorage.lookup (canonicalKey H accessor profile env.predecessor) = none)
    (haccepted : ∃ deposit fits r,
      storeSecrets H (env.attaching deposit fits) c accessor profile encrypted access vaultId = .ok r) :
    ∃ quote, estimateStorageCost H c accessor profile env.predecessor encrypted access vaultId = .ok quote ∧
      0 < quote ∧ quote < 2 ^ 128 ∧
      (∀ deposit fits,
        (∃ r, storeSecrets H (env.attaching deposit fits) c accessor profile encrypted access vaultId = .ok r) ↔
          quote ≤ deposit) ∧
      (∀ deposit fits s ses,
        storeSecrets H (env.attaching deposit fits) c accessor profile encrypted access vaultId = .ok (s, ses) →
          ∃ row floorDeposit,
            s.secretsStorage.lookup (canonicalKey H accessor profile env.predecessor) = some row ∧
            checkNonceUnused c.toSecretStore (canonicalKey H accessor profile env.predecessor) = .ok floorDeposit ∧
            row.storageDeposit + floorDeposit = quote ∧ refunded ses + quote = deposit) := by
  obtain ⟨deposit₀, fits₀, hstored⟩ := haccepted
  have hstores : ∀ deposit fits,
      (∃ r, storeSecrets H (env.attaching deposit fits) c accessor profile encrypted access vaultId = .ok r) ↔
        StoreAccepts H c env.predecessor accessor profile encrypted access ∧
          secretCharge H c env.predecessor accessor profile encrypted access vaultId ≤ deposit :=
    fun deposit fits => @exists_storeSecretsInternal_iff H (env.attaching deposit fits) _ _ _ _ _ _ _ _ hnew
  obtain ⟨accepts, hcovered⟩ := (hstores deposit₀ fits₀).mp hstored
  have hfits : secretCharge H c env.predecessor accessor profile encrypted access vaultId < 2 ^ 128 :=
    lt_of_le_of_lt hcovered fits₀
  refine ⟨_, estimateStorageCost_eq_ok accepts.bounds hfits, secretCharge_pos, hfits, ?_, ?_⟩
  · intro deposit fits
    exact (hstores deposit fits).trans (and_iff_right accepts)
  · intro deposit fits s ses h
    exact @storeSecretsInternal_records H (env.attaching deposit fits) _ _ _ _ _ _ _ _ hnew _ _ h

end Secrets

/-- What returned, returned something. -/
theorem exists_ok_of_toBool {α : Type} {x : Res α} (h : x.toBool = true) : ∃ r, x = .ok r := by
  cases x with
  | ok r => exact ⟨r, rfl⟩
  | error why => cases h

/-- The first payment key of an account: the quote has the nonce floor in it, and is the least that pays for it. -/
theorem first_payment_key_quoted :
    ∃ quote, estimateStorageCost asciiHost World.fresh.contract (.system .paymentKey) "1" bobAccount "key" .allowAll
        none = .ok quote ∧
      ∀ deposit fits, (∃ r, storeSecrets asciiHost ((envOf bobAccount 0 0 0).attaching deposit fits)
        World.fresh.contract (.system .paymentKey) "1" "key" .allowAll none = .ok r) ↔ quote ≤ deposit := by
  have haccepted : ∃ deposit fits r, storeSecrets asciiHost ((envOf bobAccount 0 0 0).attaching deposit fits)
      World.fresh.contract (.system .paymentKey) "1" "key" .allowAll none = .ok r :=
    ⟨10 ^ 24, by decide, exists_ok_of_toBool (by decide +kernel)⟩
  obtain ⟨quote, hquote, -, -, hleast, -⟩ := secret_quote_exact rfl haccepted
  exact ⟨quote, hquote, hleast⟩

/-! ## Wallet policies -/

section Keys

/-- A character that is a hexadecimal digit takes one byte. -/
theorem utf8Size_of_hexDigitVal {ch : Char} {v : Nat} (h : hexDigitVal ch = some v) : ch.utf8Size = 1 := by
  have hrange : ∀ {lo hi : Char}, hi.toNat < 128 → inRange lo hi ch = true → ch.toNat < 128 := by
    intro lo hi hhi hr
    simp only [inRange, Bool.and_eq_true, decide_eq_true_eq] at hr
    omega
  have hlt : ch.toNat < 128 := by
    unfold hexDigitVal at h
    split at h
    · next hr => exact hrange (by decide) hr
    · split at h
      · next hr => exact hrange (by decide) hr
      · split at h
        · next hr => exact hrange (by decide) hr
        · cases h
  exact Char.utf8Size_eq_one_iff.mpr (UInt32.le_iff_toNat_le.mpr (Nat.le_of_lt_succ hlt))

theorem size_hexEncodeByte (b : UInt8) : Json.size (hexEncodeByte b) = 2 := by
  have hdigit : ∀ d, d < 16 → (Nat.digitChar d).utf8Size = 1 := by decide
  have hb := b.toNat_lt
  simp only [hexEncodeByte, Json.size_cons, Json.size_nil, hdigit (b.toNat / 16) (by omega),
    hdigit (b.toNat % 16) (by omega)]

/-- Decoding and encoding again may change the case of a digit, and the size of nothing. -/
theorem size_of_hexDecodeList : ∀ {cs : List Char} {bytes : List UInt8}, hexDecodeList cs = some bytes →
    Json.size (bytes.flatMap hexEncodeByte) = Json.size cs
  | [], _, h => by
      cases h
      rfl
  | [_], _, h => by cases h
  | a :: b :: cs, _, h => by
      simp only [hexDecodeList, Option.bind_eq_bind, Option.bind_eq_some_iff, Option.pure_def, Option.some.injEq] at h
      obtain ⟨hi, ha, lo, hb, rest, hrest, rfl⟩ := h
      rw [List.flatMap_cons, Json.size_append, size_hexEncodeByte, size_of_hexDecodeList hrest, Json.size_cons,
        Json.size_cons, utf8Size_of_hexDigitVal ha, utf8Size_of_hexDigitVal hb]
      omega

theorem WalletKeyType.name_of_parse {kind : String} {keyType : WalletKeyType}
    (h : WalletKeyType.parse kind = some keyType) : keyType.name = kind := by
  unfold WalletKeyType.parse at h
  split at h
  · next hkind =>
      cases h
      exact hkind.symm
  · split at h
    · next hkind =>
        cases h
        exact hkind.symm
    · cases h

/-- **A key measures the same in every spelling.** -/
theorem canonicalWalletPubkey_size {raw key : String} (h : canonicalWalletPubkey raw = .ok key) :
    key.utf8ByteSize = raw.utf8ByteSize := by
  simp only [canonicalWalletPubkey, parseWalletPubkey, bind_eq_ok, expect_eq_ok, pure_eq_ok, Prod.exists] at h
  obtain ⟨keyType, bytes, ⟨kind, hex, hsplit, keyType', hkind, bytes', hdecode, hchecked⟩, rfl⟩ := h
  obtain ⟨rfl, rfl⟩ : keyType' = keyType ∧ bytes' = bytes := by
    cases keyType' with
    | ed25519 =>
        simp only [bind_eq_ok, pure_eq_ok, Prod.mk.injEq] at hchecked
        obtain ⟨_, -, rfl, rfl⟩ := hchecked
        exact ⟨rfl, rfl⟩
    | secp256k1 =>
        simp only [bind_eq_ok, pure_eq_ok, Prod.mk.injEq] at hchecked
        obtain ⟨_, -, _, -, rfl, rfl⟩ := hchecked
        exact ⟨rfl, rfl⟩
  have hhex : (hexEncode bytes').utf8ByteSize = hex.utf8ByteSize := by
    rw [← Json.size_toList, ← Json.size_toList, hexEncode, String.toList_ofList]
    exact size_of_hexDecodeList hdecode
  have hraw : raw.utf8ByteSize = kind.utf8ByteSize + (1 + hex.utf8ByteSize) := by
    rw [← Json.size_toList, (splitAtColon_some hsplit).1, Json.size_append, Json.size_cons, Json.size_toList,
      Json.size_toList]
    rfl
  rw [hraw, String.utf8ByteSize_append, String.utf8ByteSize_append, hhex, WalletKeyType.name_of_parse hkind,
    Nat.add_assoc]
  rfl

end Keys

section Policies
variable {H : Host} {env : Env} {c : Contract} {walletPubkey encryptedData walletSignature : String}
  {version validUntil : Nat} {locked : Bool} {storageRefundTo : Option AccountId}

/-- Who is paid back after a store: whoever was named when the policy was created. -/
def beneficiaryAfter (c : Contract) (key : String) (storageRefundTo : Option AccountId) : Option AccountId :=
  match c.walletPolicies.lookup key with
  | some _ => c.storageRefundTo.lookup (.walletPolicy key)
  | none   => storageRefundTo

/-- What is held for a policy already. -/
def heldFor (c : Contract) (key : String) : Nat := (c.walletPolicies.lookup key).elim 0 WalletPolicyEntry.storageDeposit

theorem policyBeneficiary_eq_ok {key : String} {beneficiary : Option AccountId}
    (h : policyBeneficiary c (.walletPolicy key) (c.walletPolicies.lookup key) storageRefundTo = .ok beneficiary) :
    beneficiary = beneficiaryAfter c key storageRefundTo := by
  unfold policyBeneficiary at h
  unfold beneficiaryAfter
  cases hexisting : c.walletPolicies.lookup key with
  | none =>
      rw [hexisting] at h
      exact (pure_eq_ok.mp h).symm
  | some entry =>
      rw [hexisting] at h
      simp only [bind_eq_ok, pure_eq_ok] at h
      obtain ⟨_, -, rfl⟩ := h
      rfl

/-- The deposit side: the controller pays, and what is held counts. -/
theorem exists_policyRefund_iff {existing : Option WalletPolicyEntry} {requiredDeposit : Nat} :
    (∃ excess, policyRefund env existing requiredDeposit = .ok excess) ↔
      (∀ entry, existing = some entry → entry.owner = env.predecessor) ∧
        requiredDeposit ≤ env.attachedDeposit + existing.elim 0 WalletPolicyEntry.storageDeposit ∧
        env.attachedDeposit + existing.elim 0 WalletPolicyEntry.storageDeposit < 2 ^ 128 := by
  cases existing with
  | none =>
      simp only [policyRefund, bind_eq_ok, require_eq_ok, pure_eq_ok, Option.elim_none, Nat.add_zero]
      constructor
      · rintro ⟨_, _, hpaid, -⟩
        refine ⟨?_, hpaid, env.attachedDeposit_lt⟩
        intro entry h
        cases h
      · rintro ⟨-, hpaid, -⟩
        exact ⟨_, (), hpaid, rfl⟩
  | some entry =>
      simp only [policyRefund, bind_eq_ok, require_eq_ok, add_eq_ok, pure_eq_ok, Option.elim_some]
      constructor
      · rintro ⟨_, _, howner, _, ⟨hfits, rfl⟩, _, hpaid, -⟩
        refine ⟨?_, hpaid, hfits⟩
        intro entry' hsame
        cases hsame
        exact howner
      · rintro ⟨howner, hpaid, hfits⟩
        exact ⟨_, (), howner entry rfl, _, ⟨hfits, rfl⟩, (), hpaid, rfl⟩

/-- What was attached and held pays for what is required; the rest is the refund. -/
theorem policyRefund_ok {existing : Option WalletPolicyEntry} {requiredDeposit excess : Nat}
    (h : policyRefund env existing requiredDeposit = .ok excess) :
    excess + requiredDeposit = env.attachedDeposit + existing.elim 0 WalletPolicyEntry.storageDeposit := by
  cases existing with
  | none =>
      simp only [policyRefund, bind_eq_ok, require_eq_ok, pure_eq_ok] at h
      obtain ⟨_, hpaid, rfl⟩ := h
      exact Nat.sub_add_cancel hpaid
  | some entry =>
      simp only [policyRefund, bind_eq_ok, require_eq_ok, add_eq_ok, pure_eq_ok] at h
      obtain ⟨_, -, _, ⟨-, rfl⟩, _, hpaid, rfl⟩ := h
      exact Nat.sub_add_cancel hpaid

/-- What is required for a policy is what is quoted for its key in any spelling. -/
theorem required_eq_quote {key : String} (hkey : canonicalWalletPubkey walletPubkey = .ok key)
    (beneficiary : Option AccountId) :
    calculateWalletPolicyStorageSize key encryptedData beneficiary.isSome * storagePricePerByte
      = estimateWalletPolicyCost walletPubkey encryptedData beneficiary := by
  simp only [estimateWalletPolicyCost, calculateWalletPolicyStorageSize, canonicalWalletPubkey_size hkey]

/-- **The quote for a wallet policy is exact.** For a call its checks accept, with some deposit, the quote for the same
    policy and for the beneficiary it has after the call is what must be held: the call goes through with any deposit
    that, with what is held already, reaches it, and the entry records it. An update may name no beneficiary, so its
    quote is asked for with the one the policy has. -/
theorem policy_quote_exact
    (haccepted : ∃ deposit fits r, storeWalletPolicy H (env.attaching deposit fits) c walletPubkey encryptedData
      walletSignature version locked validUntil storageRefundTo = .ok r) :
    ∃ key, canonicalWalletPubkey walletPubkey = .ok key ∧
      (∀ deposit fits,
        (∃ r, storeWalletPolicy H (env.attaching deposit fits) c walletPubkey encryptedData walletSignature version
          locked validUntil storageRefundTo = .ok r) ↔
        estimateWalletPolicyCost walletPubkey encryptedData (beneficiaryAfter c key storageRefundTo)
            ≤ deposit + heldFor c key ∧
          deposit + heldFor c key < 2 ^ 128) ∧
      (∀ deposit fits s ses,
        storeWalletPolicy H (env.attaching deposit fits) c walletPubkey encryptedData walletSignature version locked
          validUntil storageRefundTo = .ok (s, ses) →
        ∃ entry, s.walletPolicies.lookup key = some entry ∧
          entry.storageDeposit
            = estimateWalletPolicyCost walletPubkey encryptedData (beneficiaryAfter c key storageRefundTo) ∧
          refunded ses + entry.storageDeposit = deposit + heldFor c key) := by
  obtain ⟨deposit₀, fits₀, r₀, hstored⟩ := haccepted
  simp only [storeWalletPolicy, bind_eq_ok, require_eq_ok, add_eq_ok, pure_eq_ok] at hstored
  obtain ⟨_, hrunning, _, hkeyed, _, hdata, _, hsize, _, hsigned, key, hkey, _, ⟨hversion, rfl⟩, _, hexpected, _,
    hvalid, _, hverified, beneficiary, hbeneficiary, excess₀, hrefund₀, -⟩ := hstored
  obtain rfl := policyBeneficiary_eq_ok hbeneficiary
  have howner := (exists_policyRefund_iff.mp ⟨excess₀, hrefund₀⟩).1
  refine ⟨key, hkey, ?_, ?_⟩
  · intro deposit fits
    have hpaid := @exists_policyRefund_iff (env.attaching deposit fits) (c.walletPolicies.lookup key)
      (calculateWalletPolicyStorageSize key encryptedData (beneficiaryAfter c key storageRefundTo).isSome
        * storagePricePerByte)
    rw [required_eq_quote hkey] at hpaid
    refine Iff.trans ?_ (hpaid.trans (and_iff_right howner))
    simp only [storeWalletPolicy, bind_eq_ok, require_eq_ok, add_eq_ok, pure_eq_ok]
    constructor
    · rintro ⟨_, _, -, _, -, _, -, _, -, _, -, key', hkey', _, -, _, -, _, -, _, -, beneficiary', hbeneficiary', excess,
        hrefund, -⟩
      obtain rfl := Except.ok.inj (hkey.symm.trans hkey')
      obtain rfl := policyBeneficiary_eq_ok hbeneficiary'
      rw [required_eq_quote hkey] at hrefund
      exact ⟨excess, hrefund⟩
    · rintro ⟨excess, hrefund⟩
      rw [← required_eq_quote hkey] at hrefund
      exact ⟨_, (), hrunning, (), hkeyed, (), hdata, (), hsize, (), hsigned, key, hkey, _, ⟨hversion, rfl⟩, (),
        hexpected, (), hvalid, (), hverified, _, hbeneficiary, excess, hrefund, rfl⟩
  · intro deposit fits s ses h
    simp only [storeWalletPolicy, bind_eq_ok, require_eq_ok, add_eq_ok, pure_eq_ok] at h
    obtain ⟨_, -, _, -, _, -, _, -, _, -, key', hkey', _, -, _, -, _, -, _, -, beneficiary', hbeneficiary', excess,
      hrefund, h⟩ := h
    obtain rfl := Except.ok.inj (hkey.symm.trans hkey')
    obtain rfl := policyBeneficiary_eq_ok hbeneficiary'
    cases h
    refine ⟨_, AList.lookup_insert _, required_eq_quote hkey _, ?_⟩
    rw [refunded_append, refunded_refund]
    exact policyRefund_ok hrefund

end Policies

/-- The policy `aliceAccount` files for the wallet: the first of its key, so nothing is held for it. -/
theorem first_policy_quoted :
    ∃ key, canonicalWalletPubkey walletKey = .ok key ∧ ∀ deposit fits,
      (∃ r, storeWalletPolicy walletHost ((envOf aliceAccount 0 0 0).attaching deposit fits) World.fresh.contract
        walletKey "policy" walletSignature 1 false 1000 none = .ok r) ↔
      estimateWalletPolicyCost walletKey "policy" (beneficiaryAfter World.fresh.contract key none)
          ≤ deposit + heldFor World.fresh.contract key ∧
        deposit + heldFor World.fresh.contract key < 2 ^ 128 := by
  have haccepted : ∃ deposit fits r, storeWalletPolicy walletHost ((envOf aliceAccount 0 0 0).attaching deposit fits)
      World.fresh.contract walletKey "policy" walletSignature 1 false 1000 none = .ok r :=
    ⟨10 ^ 24, by decide, exists_ok_of_toBool (by decide +kernel)⟩
  obtain ⟨key, hkey, hgoes, -⟩ := policy_quote_exact haccepted
  exact ⟨key, hkey, hgoes⟩

end Outlayer
