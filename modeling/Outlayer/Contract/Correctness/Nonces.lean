import Outlayer.Contract.SecretMaps
import Outlayer.Contract.Views
import Outlayer.Contract.Replay
import Mathlib.Order.Bounds.Defs

/-!
# `Contract.Correctness.Nonces` — a payment-key nonce is used once

The floor of an owner is the last nonce at which the owner created a payment key, whatever happened to that key
since. So the nonces of an owner only go up, and the contract's answer to "which nonce is next" is the lowest
one a store takes, for as long as there is one.
-/

namespace Outlayer
open Text Checked Collections Runs

/-! ## The floor remembers the last nonce -/

/-- The nonce at which the step creates a payment key of `owner`. -/
def Step.createdNonce (owner : AccountId) (t : Step) : Option Nat :=
  match t.event with
  | .call env (.storeSecrets (.system .paymentKey) profile _ _ _) =>
      if env.predecessor = owner then parseUnsigned 32 profile else none
  | _ => none

/-- The nonces at which payment keys of `owner` were created, oldest first. -/
def createdNonces (owner : AccountId) (tr : List Step) : List Nat := tr.filterMap (Step.createdNonce owner)

theorem YieldCallback.secretAct_ne_create (payload : Option YieldPayload) (callback : YieldCallback)
    (owner : AccountId) (nonce : Nat) : callback.secretAct payload ≠ .create owner nonce := by
  unfold YieldCallback.secretAct
  split
  · split
    · nofun
    · nofun
  · nofun

/-- A store of a payment key creates it for its caller, under the nonce its name spells. -/
theorem storeAct_eq_create {caller owner : AccountId} {accessor : SecretAccessor} {profile : String}
    {nonce : Nat} :
    storeAct caller accessor profile = .create owner nonce ↔
      accessor = .system .paymentKey ∧ caller = owner ∧ parseUnsigned 32 profile = some nonce := by
  cases accessor with
  | system kind =>
      cases kind
      cases hparse : parseUnsigned 32 profile with
      | none => simp [storeAct, hparse]
      | some n => simp [storeAct, hparse]
  | repo _ _ => simp [storeAct]
  | wasmHash _ => simp [storeAct]
  | project _ => simp [storeAct]

theorem createdNonce_eq_some {t : Step} {owner : AccountId} {nonce : Nat} :
    t.createdNonce owner = some nonce ↔ t.secretAct = .create owner nonce := by
  unfold Step.createdNonce Step.secretAct
  cases t.event with
  | call env call =>
      cases call with
      | storeSecrets accessor profile _ _ _ =>
          show _ ↔ storeAct env.predecessor accessor profile = _
          rw [storeAct_eq_create]
          cases accessor with
          | system kind => cases kind; simp
          | repo _ _ => simp
          | wasmHash _ => simp
          | project _ => simp
      | _ => exact ⟨nofun, nofun⟩
  | yielded env d delivery =>
      refine ⟨nofun, fun h => ?_⟩
      cases delivery with
      | resumed =>
          cases hy : t.pre.yields.lookup d with
          | none => simp [hy] at h
          | some y => exact absurd (by simpa [hy] using h) (YieldCallback.secretAct_ne_create _ _ owner nonce)
      | timedOut => cases h
      | outOfGas => cases h
  | withdrawn receipt transferOk => exact ⟨nofun, nofun⟩

section Moves
variable {H : Host} {s s' : SecretStore} {paid : Nat} {act : SecretAct} {ses : List StorageEffect}
  {owner : AccountId} {nonce : Nat}

/-- A payment key appears in the move that creates it and in no other. -/
theorem move_appears_iff (h : SecretMove H s paid act s' ses) :
    (paymentKey owner nonce ∉ s.secretsStorage ∧ paymentKey owner nonce ∈ s'.secretsStorage) ↔
      act = .create owner nonce := by
  -- a move that only drops or rewrites rows makes none appear
  have hold (hsub : paymentKey owner nonce ∈ s'.secretsStorage → paymentKey owner nonce ∈ s.secretsStorage)
      (hact : act ≠ .create owner nonce) :
      (paymentKey owner nonce ∉ s.secretsStorage ∧ paymentKey owner nonce ∈ s'.secretsStorage) ↔
        act = .create owner nonce :=
    iff_of_false (fun hkey => hkey.1 (hsub hkey.2)) hact
  cases h with
  | store key row s' ses kind stores floors =>
      refine hold (fun hmem => ?_) nofun
      rcases stores.mem_rows.mp hmem with rfl | hmem
      · exact absurd rfl kind
      · exact hmem
  | create owner' nonce' row s' ses stores new above fits floors =>
      rw [stores.mem_rows]
      constructor
      · rintro ⟨hnew, hkey | hmem⟩
        · obtain ⟨rfl, rfl⟩ := paymentKey_inj.mp hkey
          rfl
        · exact absurd hmem hnew
      · rintro ⟨⟩
        exact ⟨AList.lookup_eq_none.mp new, Or.inl rfl⟩
  | delete key row receiver held unpaid => exact hold (fun hmem => (AList.mem_erase.mp hmem).2) nofun
  | deletePaymentKey owner' nonce' row held unpaid =>
      refine hold (fun hmem => ?_) nofun
      rw [raise_secretsStorage] at hmem
      exact (AList.mem_erase.mp hmem).2
  | unbind key row held unpaid => exact hold id nofun
  | recondition key row row' receiver held priced covered =>
      exact hold (mem_insert_of_held held row' _).mp nofun
  | topUp owner' nonce' data time row held unpaid => exact hold (mem_insert_of_held held _ _).mp nofun
  | missed owner' nonce' amount data gone unpaid => exact hold id nofun
  | idle ses quiet unpaid => exact hold id nofun

/-- The floors after a move: the nonce it created on top, and otherwise what they were. -/
theorem move_floors (h : SecretMove H s paid act s' ses) (hs : s.Consistent H) :
    (∃ owner nonce, act = .create owner nonce ∧ paymentKeyNonceFloor s owner < nonce ∧ nonce ≤ maxNonce ∧
      s'.paymentKeyNonceFloors = s.paymentKeyNonceFloors.insert owner nonce) ∨
    ((∀ owner nonce, act ≠ .create owner nonce) ∧ s'.paymentKeyNonceFloors = s.paymentKeyNonceFloors) := by
  cases h with
  | store key row s' ses kind stores floors => exact Or.inr ⟨nofun, floors⟩
  | create owner nonce row s' ses stores new above fits floors =>
      exact Or.inl ⟨owner, nonce, rfl, above, fits, floors⟩
  | delete key row receiver held unpaid => exact Or.inr ⟨nofun, rfl⟩
  | deletePaymentKey owner nonce row held unpaid =>
      rw [hs.raise_without held]
      exact Or.inr ⟨nofun, rfl⟩
  | unbind key row held unpaid => exact Or.inr ⟨nofun, rfl⟩
  | recondition key row row' receiver held priced covered => exact Or.inr ⟨nofun, rfl⟩
  | topUp owner nonce data time row held unpaid => exact Or.inr ⟨nofun, rfl⟩
  | missed owner nonce amount data gone unpaid => exact Or.inr ⟨nofun, rfl⟩
  | idle ses quiet unpaid => exact Or.inr ⟨nofun, rfl⟩

end Moves

section Step
variable {H : Host} {t : Step} {owner : AccountId} {nonce : Nat}

theorem paymentKey_appears_iff (hf : Fires (World.next H) t) :
    (paymentKey owner nonce ∉ t.pre.contract.secretsStorage ∧
        paymentKey owner nonce ∈ t.post.contract.secretsStorage) ↔
      t.createdNonce owner = some nonce := by
  rw [createdNonce_eq_some]
  rcases step_secrets hf with ⟨_, _, hmove⟩ | ⟨hact, hsame⟩
  · exact move_appears_iff hmove
  · rw [show t.post.contract.secretsStorage = t.pre.contract.secretsStorage from
      congrArg SecretStore.secretsStorage hsame, hact]
    exact iff_of_false (fun hkey => hkey.1 hkey.2) nofun

/-- A creation goes above the floor and the floor follows it; any other step leaves the floor. -/
theorem step_floor (hf : Fires (World.next H) t) (hs : t.pre.contract.toSecretStore.Consistent H)
    (owner : AccountId) :
    (∃ nonce, t.createdNonce owner = some nonce ∧
      paymentKeyNonceFloor t.pre.contract.toSecretStore owner < nonce ∧ nonce ≤ maxNonce ∧
      t.post.contract.paymentKeyNonceFloors.lookup owner = some nonce) ∨
    (t.createdNonce owner = none ∧
      t.post.contract.paymentKeyNonceFloors.lookup owner
        = t.pre.contract.paymentKeyNonceFloors.lookup owner) := by
  have hother (hne : ∀ nonce, t.secretAct ≠ .create owner nonce) : t.createdNonce owner = none := by
    by_contra hsome
    obtain ⟨nonce, hnonce⟩ := Option.ne_none_iff_exists'.mp hsome
    exact hne nonce (createdNonce_eq_some.mp hnonce)
  rcases step_secrets hf with ⟨_, _, hmove⟩ | ⟨hact, hsame⟩
  · rcases move_floors hmove hs with ⟨owner', nonce, hact, above, fits, hfloors⟩ | ⟨hact, hfloors⟩
    · by_cases howner : owner' = owner
      · subst howner
        exact Or.inl ⟨nonce, createdNonce_eq_some.mpr hact, above, fits, by rw [hfloors, AList.lookup_insert]⟩
      · refine Or.inr ⟨hother fun n hn => ?_, ?_⟩
        · rw [hact] at hn
          cases hn
          exact howner rfl
        · rw [hfloors, AList.lookup_insert_ne (Ne.symm howner)]
    · exact Or.inr ⟨hother (hact owner), by rw [hfloors]⟩
  · refine Or.inr ⟨hother fun n hn => ?_, by rw [hsame]⟩
    rw [hact] at hn
    cases hn

end Step

/-! ## Whole histories -/

section History
variable {H : Host} {account : AccountId} {operator : Option AccountId} {standard version : Option String}
  {tr : List Step} {w : World}

/-- The nonces of an owner go up, and the floor is the last of them. -/
structure NoncesUsedUp (tr : List Step) (w : World) (owner : AccountId) : Prop where
  increasing : (createdNonces owner tr).Pairwise (· < ·)
  last : w.contract.paymentKeyNonceFloors.lookup owner = (createdNonces owner tr).getLast?
  below : ∀ nonce ∈ createdNonces owner tr, nonce ≤ paymentKeyNonceFloor w.contract.toSecretStore owner

theorem noncesUsedUp_history (h : World.History H account operator standard version tr w) (owner : AccountId) :
    NoncesUsedUp tr w owner := by
  unfold World.History at h
  induction h with
  | start => exact ⟨List.Pairwise.nil, rfl, nofun⟩
  | @step tr t hrun hf ih =>
      have happend : createdNonces owner (tr ++ [t])
          = createdNonces owner tr ++ (Step.createdNonce owner t).toList := by
        simp only [createdNonces, List.filterMap_append]
        cases ht : Step.createdNonce owner t <;> simp [ht]
      rcases step_floor hf (consistent_history hrun) owner with ⟨nonce, hcreated, above, -, hfloor⟩ |
        ⟨hcreated, hfloor⟩
      -- every nonce so far is under the floor, and the new one is above it
      · rw [hcreated, Option.toList_some] at happend
        constructor
        · rw [happend, List.pairwise_append]
          refine ⟨ih.increasing, List.pairwise_singleton _ _, ?_⟩
          intro a ha b hb
          obtain rfl := List.mem_singleton.mp hb
          exact Nat.lt_of_le_of_lt (ih.below a ha) above
        · rw [happend, hfloor, List.getLast?_concat]
        · intro n hn
          rw [paymentKeyNonceFloor, hfloor, Option.getD_some]
          rw [happend, List.mem_append, List.mem_singleton] at hn
          rcases hn with hn | rfl
          · exact Nat.le_of_lt (Nat.lt_of_le_of_lt (ih.below n hn) above)
          · exact Nat.le_refl _
      · rw [hcreated, Option.toList_none, List.append_nil] at happend
        constructor
        · rw [happend]
          exact ih.increasing
        · rw [happend, hfloor]
          exact ih.last
        · rw [happend, paymentKeyNonceFloor, hfloor]
          exact ih.below

end History

/-! ## Which nonces a store takes -/

/-- Some store of `owner` takes a payment key under this nonce. -/
def AcceptsNonce (H : Host) (c : Contract) (owner : AccountId) (nonce : Nat) : Prop :=
  ∃ env profile encryptedSecrets access vaultId, env.predecessor = owner ∧
    parseUnsigned 32 profile = some nonce ∧
    ∃ r, exec H env c (.storeSecrets (.system .paymentKey) profile encryptedSecrets access vaultId) = .ok r

section Accepts
variable {H : Host} {c : Contract} {owner : AccountId} {nonce : Nat}

/-- A nonce that is taken is above the floor and not too large. -/
theorem above_of_accepts (h : AcceptsNonce H c owner nonce) :
    paymentKeyNonceFloor c.toSecretStore owner < nonce ∧ nonce ≤ maxNonce := by
  obtain ⟨env, profile, data, access, vaultId, rfl, hparse, ⟨c', es⟩, hexec⟩ := h
  obtain ⟨hpay, hcommit⟩ := exec_commit hexec
  rcases (commit_parts hcommit).secrets with ⟨ses, hrun, -⟩ | ⟨hoff, -⟩
  · have hmove := secret_call hpay hrun
    -- the store is a creation, and a creation has passed the checks
    have hact : Call.secretAct env (.storeSecrets (.system .paymentKey) profile data access vaultId)
        = .create env.predecessor nonce := storeAct_eq_create.mpr ⟨rfl, rfl, hparse⟩
    rw [hact] at hmove
    cases hmove with
    | create owner nonce row s ses stores new above fits floors => exact ⟨above, fits⟩
  · exact absurd rfl (hoff _)

/-- A printed nonce is a short text of ASCII digits. -/
theorem toString_nonce (hfits : nonce ≤ maxNonce) :
    1 ≤ (toString nonce).utf8ByteSize ∧ (toString nonce).utf8ByteSize ≤ 10 ∧
      ∀ ch ∈ (toString nonce).toList, ch.isDigit := by
  have hlist : (toString nonce).toList = Nat.toDigits 10 nonce := Nat.toList_repr
  have hdigit : ∀ ch ∈ Nat.toDigits 10 nonce, ch.isDigit := fun ch hch =>
    Nat.isDigit_of_mem_toDigits (by decide) (by decide) hch
  have hsize : ∀ cs : List Char, (∀ ch ∈ cs, ch.isDigit) → Json.size cs = cs.length := by
    intro cs
    induction cs with
    | nil => exact fun _ => rfl
    | cons ch cs ih =>
        intro hcs
        have hone : ch.utf8Size = 1 := by
          have hch := hcs ch List.mem_cons_self
          simp only [Char.isDigit, Bool.and_eq_true, decide_eq_true_eq] at hch
          exact Char.utf8Size_eq_one_iff.mpr (UInt32.le_trans hch.2 (by decide))
        rw [Json.size_cons, hone, ih (fun c hc => hcs c (List.mem_cons_of_mem ch hc)), List.length_cons]
        omega
  have hlen : (Nat.toDigits 10 nonce).length ≤ 10 := by
    rw [Nat.length_toDigits_le_iff (by decide) (by decide)]
    exact Nat.lt_of_le_of_lt hfits (by decide)
  have hpos : 0 < (Nat.toDigits 10 nonce).length := Nat.length_toDigits_pos
  rw [← Json.size_toList, hlist, hsize _ hdigit]
  exact ⟨hpos, hlen, hdigit⟩

/-- A printed nonce has the shape of a profile. -/
theorem assertProfileShape_nonce (H : Host) (hfits : nonce ≤ maxNonce) :
    assertProfileShape H (toString nonce) = .ok () := by
  obtain ⟨hpos, hlen, hdigit⟩ := toString_nonce hfits
  have hfind : ((toString nonce).toList.find? fun ch =>
      !(isAlphanumeric H.unicode ch || ch == '-' || ch == '_')) = none := by
    rw [List.find?_eq_none]
    intro ch hch
    have hd := hdigit ch hch
    simp only [Char.isDigit, Bool.and_eq_true, decide_eq_true_eq, UInt32.le_iff_toNat_le] at hd
    have halpha : isAlphanumeric H.unicode ch = true := by
      have hlow : 48 ≤ ch.toNat := hd.1
      have hhigh : ch.toNat ≤ 57 := hd.2
      simp [isAlphanumeric, isAsciiAlphanumeric, inRange, show ch.toNat < 128 by omega, hlow, hhigh]
    simp [halpha]
  have hshape : profileShapeError H (toString nonce) = none := by
    unfold profileShapeError
    simp only [hfind, Option.map_none]
    rw [if_neg]
    simp only [profileMaxBytes]
    omega
  rw [assertProfileShape, hshape]

/-- A short payment key without a binding costs little. -/
theorem paymentKey_price (owner : AccountId) (hfits : nonce ≤ maxNonce) :
    calculateSecretStorageSize (paymentKey owner nonce) "x" .allowAll false * storagePricePerByte
      + nonceFloorEntryBytes owner * storagePricePerByte ≤ 10 ^ 22 := by
  have hname : owner.name.utf8ByteSize ≤ 64 := by
    have hvalid := owner.valid
    simp only [isValidAccountId, Bool.and_eq_true, decide_eq_true_eq] at hvalid
    exact hvalid.1.2
  obtain ⟨-, hlen, -⟩ := toString_nonce hfits
  have hdata : "x".utf8ByteSize = 1 := by decide
  have haccess : AccessCondition.allowAll.toJson.utf8ByteSize = 10 := by decide +kernel
  have hsize : calculateSecretStorageSize (paymentKey owner nonce) "x" .allowAll false
      = 40 + (2 + 4 + (toString nonce).utf8ByteSize + 4 + owner.name.utf8ByteSize) + (5 + 20 + 32) + 64 := by
    simp only [calculateSecretStorageSize, paymentKey, hdata, haccess]
    rfl
  rw [hsize]
  simp only [nonceFloorEntryBytes, storagePricePerByte]
  omega

/-- A payment key that is new, above the floor and paid for passes every check of a store. -/
theorem exists_storeSecretsInternal (H : Host) (env : Env) (payer : AccountId)
    (hdeposit : env.attachedDeposit = 10 ^ 22)
    (hnew : c.secretsStorage.lookup (paymentKey owner nonce) = none)
    (hunbound : c.secretVaultBindings.lookup (paymentKey owner nonce) = none)
    (habove : paymentKeyNonceFloor c.toSecretStore owner < nonce) (hfits : nonce ≤ maxNonce) :
    ∃ p, storeSecretsInternal H env c owner payer (.system .paymentKey) (toString nonce) "x" .allowAll none
      = .ok p := by
  have hparse : parseUnsigned 32 (paymentKey owner nonce).profile = some nonce :=
    parseUnsigned_toString (lt_of_le_maxNonce hfits)
  have hkey : canonicalKey H (.system .paymentKey) (toString nonce) owner = paymentKey owner nonce := by
    change parseUnsigned 32 (toString nonce) = some nonce at hparse
    simp only [canonicalKey, canonicalAccessor, canonicalProfile, hparse, paymentKey]
  have hvalid : validateAccessor c (paymentKey owner nonce).accessor (paymentKey owner nonce).profile
      = .ok () := by
    show validateAccessor c (.system .paymentKey) _ = _
    simp only [validateAccessor, bind_eq_ok, expect_eq_ok, require_eq_ok]
    exact ⟨nonce, hparse, (), by omega, hfits⟩
  have hagent : isImplicitAccountName (paymentKey owner nonce).profile = false := by
    have hlen : (paymentKey owner nonce).profile.utf8ByteSize ≤ 10 := (toString_nonce hfits).2.1
    simp only [isImplicitAccountName, Bool.and_eq_false_iff, decide_eq_false_iff_not]
    omega
  have hnonce : checkNonceUnused c.toSecretStore (paymentKey owner nonce)
      = .ok (nonceFloorDeposit c.toSecretStore owner) := by
    show (do
      require ((c.secretsStorage.lookup (paymentKey owner nonce)).isNone) _
      let n ← expect (parseUnsigned 32 (paymentKey owner nonce).profile) _
      require (paymentKeyNonceFloor c.toSecretStore owner < n) _
      pure (nonceFloorDeposit c.toSecretStore owner) : Res Nat) = _
    simp only [bind_eq_ok, require_eq_ok, expect_eq_ok, pure_eq_ok]
    exact ⟨(), by rw [hnew]; rfl, nonce, hparse, (), habove, trivial⟩
  have hregister (s : SecretStore) (data : String) :
      ∃ p, registerPaymentKey c.toConfig s (paymentKey owner nonce) data = .ok p := by
    show ∃ p, (do
      let n ← expect (parseUnsigned 32 (paymentKey owner nonce).profile) _
      pure (raisePaymentKeyNonceFloor s owner n, _) : Res _) = .ok p
    simp only [bind_eq_ok, expect_eq_ok, pure_eq_ok]
    exact ⟨_, nonce, hparse, rfl⟩
  have hprice := paymentKey_price owner hfits
  have hcharge : nonceFloorDeposit c.toSecretStore owner ≤ nonceFloorEntryBytes owner * storagePricePerByte := by
    unfold nonceFloorDeposit
    split
    · exact Nat.zero_le _
    · exact Nat.le_refl _
  have hrefund : ∃ excess, secretRefund env none
      (calculateSecretStorageSize (paymentKey owner nonce) "x" .allowAll false * storagePricePerByte)
      (nonceFloorDeposit c.toSecretStore owner) = .ok excess := by
    simp only [secretRefund, bind_eq_ok, add_eq_ok, require_eq_ok, pure_eq_ok]
    exact ⟨_, _, ⟨by omega, rfl⟩, (), by omega, rfl⟩
  obtain ⟨excess, hrefund⟩ := hrefund
  rw [← hkey] at hnew hunbound
  simp only [storeSecretsInternal, bind_eq_ok, require_eq_ok, pure_eq_ok, hunbound, hnew, hkey,
    Option.isSome_none, Bool.or_false]
  obtain ⟨p, hp⟩ := hregister _ "x"
  exact ⟨_, (), rfl, (), hvalid, (), assertProfileShape_nonce H hfits, (), by decide, (), Or.inl hagent, _,
    hnonce, excess, hrefund, p, hp, rfl⟩

/-- A nonce above the floor that is not too large is taken, where no row and no binding is in its way. -/
theorem accepts_of_unused (hnew : c.secretsStorage.lookup (paymentKey owner nonce) = none)
    (hunbound : c.secretVaultBindings.lookup (paymentKey owner nonce) = none)
    (habove : paymentKeyNonceFloor c.toSecretStore owner < nonce) (hfits : nonce ≤ maxNonce) :
    AcceptsNonce H c owner nonce := by
  let env : Env :=
    { predecessor := owner, signer := owner, current := owner, attachedDeposit := 10 ^ 22
      blockTimestamp := 0, dataId := Vector.replicate 32 0 }
  obtain ⟨p, hp⟩ := exists_storeSecretsInternal H env owner rfl hnew hunbound habove hfits
  refine ⟨env, toString nonce, "x", .allowAll, none, rfl, parseUnsigned_toString (lt_of_le_maxNonce hfits), ?_⟩
  have hrun : storeSecrets H env c (.system .paymentKey) (toString nonce) "x" .allowAll none = .ok p := hp
  simp only [exec, bind_eq_ok, require_eq_ok, runCall, hrun]
  exact ⟨_, (), Or.inl rfl, rfl⟩

/-- **Any nonce above the floor that is not too large is taken.** -/
theorem accepts_of_above (hs : c.toSecretStore.Consistent H)
    (habove : paymentKeyNonceFloor c.toSecretStore owner < nonce) (hfits : nonce ≤ maxNonce) :
    AcceptsNonce H c owner nonce := by
  -- a key above the floor is not there, and has no binding
  have hgone : paymentKey owner nonce ∉ c.secretsStorage := by
    intro hmem
    obtain ⟨n, floor, hn, hfloor, hle⟩ := hs.paymentKeys _ hmem rfl
    obtain rfl : nonce = n := (paymentKey_inj.mp hn).2
    change c.paymentKeyNonceFloors.lookup owner = some floor at hfloor
    rw [paymentKeyNonceFloor, hfloor] at habove
    exact absurd habove (Nat.not_lt_of_le hle)
  have hunbound : paymentKey owner nonce ∉ c.secretVaultBindings := fun hmem => hgone (hs.bindings _ hmem)
  exact accepts_of_unused (AList.lookup_eq_none.mpr hgone) (AList.lookup_eq_none.mpr hunbound) habove hfits

/-- No live key is above the floor. -/
theorem livePaymentKeyNonce_le {s : SecretStore} (hs : s.Consistent H) (owner : AccountId) :
    livePaymentKeyNonce s owner ≤ paymentKeyNonceFloor s owner := by
  unfold livePaymentKeyNonce
  split
  · next set hset =>
      cases hmax : (set.elems.filterMap SecretKey.paymentKeyNonce).max? with
      | none => exact Nat.zero_le _
      | some n =>
          obtain ⟨key, hkey, hn⟩ := List.mem_filterMap.mp (List.max?_mem hmax)
          obtain ⟨rfl, hmem⟩ := (hs.index owner key).mp ⟨set, hset, hkey⟩
          have hkind : key.accessor = .system .paymentKey := by
            unfold SecretKey.paymentKeyNonce at hn
            split at hn
            · next h => exact h
            · cases hn
          obtain ⟨nonce, floor, hpay, hfloor, hle⟩ := hs.paymentKeys key hmem hkind
          have hlt : nonce < 2 ^ 32 := lt_of_le_maxNonce (hle.trans (hs.floors _ _ hfloor))
          have hparse : key.paymentKeyNonce = some nonce := by
            rw [hpay]
            exact parseUnsigned_toString hlt
          rw [hparse] at hn
          cases hn
          rwa [paymentKeyNonceFloor, hfloor]
  · exact Nat.zero_le _

/-- The answer is one above the floor. -/
theorem getNextPaymentKeyNonce_eq {s : SecretStore} (hs : s.Consistent H) (owner : AccountId) :
    getNextPaymentKeyNonce s owner = paymentKeyNonceFloor s owner + 1 := by
  have hlive := livePaymentKeyNonce_le hs owner
  have hfloor : paymentKeyNonceFloor s owner ≤ maxNonce := by
    unfold paymentKeyNonceFloor
    cases hl : s.paymentKeyNonceFloors.lookup owner with
    | none => exact Nat.zero_le _
    | some floor => exact hs.floors owner floor hl
  have hmax : maxNonce + 1 ≤ 2 ^ 32 - 1 := by decide
  unfold getNextPaymentKeyNonce
  simp only [Nat.max_eq_right hlive]
  omega

end Accepts

/-! ## The result -/

/-- The owner has not used up the largest nonce exactly when its floor is below it. -/
theorem NoncesUsedUp.floor_lt_iff {H : Host} {tr : List Step} {w : World} {owner : AccountId}
    (h : NoncesUsedUp tr w owner) (hs : w.contract.toSecretStore.Consistent H) :
    paymentKeyNonceFloor w.contract.toSecretStore owner < maxNonce ↔ maxNonce ∉ createdNonces owner tr := by
  constructor
  · intro hlt hmem
    exact absurd (h.below maxNonce hmem) (Nat.not_le_of_lt hlt)
  · intro hnot
    unfold paymentKeyNonceFloor
    cases hl : w.contract.paymentKeyNonceFloors.lookup owner with
    | none => decide
    | some floor =>
        have hmem : floor ∈ createdNonces owner tr := List.mem_of_getLast? (h.last.symm.trans hl)
        have hne : floor ≠ maxNonce := fun he => hnot (he ▸ hmem)
        exact Nat.lt_of_le_of_ne (hs.floors owner floor hl) hne

/-- **A nonce is used once.** In every history: the nonces at which payment keys of an owner are created only
    go up, and a payment key appears in no other way. The contract answers with the least nonce a store takes
    until the owner has created a key under the largest nonce; from then on a store takes none. -/
theorem nonces_used_once {H : Host} {account : AccountId} {operator : Option AccountId}
    {standard version : Option String} {tr : List Step} {w : World}
    (h : World.History H account operator standard version tr w) (owner : AccountId) :
    (createdNonces owner tr).Pairwise (· < ·) ∧
    (∀ t ∈ tr, ∀ nonce,
      (paymentKey owner nonce ∉ t.pre.contract.secretsStorage ∧
        paymentKey owner nonce ∈ t.post.contract.secretsStorage) ↔ t.createdNonce owner = some nonce) ∧
    (IsLeast {nonce | AcceptsNonce H w.contract owner nonce}
        (getNextPaymentKeyNonce w.contract.toSecretStore owner) ↔ maxNonce ∉ createdNonces owner tr) ∧
    (maxNonce ∈ createdNonces owner tr → ∀ nonce, ¬ AcceptsNonce H w.contract owner nonce) := by
  have hs := consistent_history h
  have hused := noncesUsedUp_history h owner
  refine ⟨hused.increasing, ?_, ?_, ?_⟩
  · intro t ht nonce
    obtain ⟨_, -, hf⟩ := h.fired ht
    exact paymentKey_appears_iff hf
  · rw [getNextPaymentKeyNonce_eq hs, ← hused.floor_lt_iff hs]
    constructor
    · exact fun hleast => (above_of_accepts hleast.1).2
    · exact fun hlt => ⟨accepts_of_above hs (Nat.lt_succ_self _) hlt, fun n hn => (above_of_accepts hn).1⟩
  · intro hmem nonce hnonce
    obtain ⟨habove, hfits⟩ := above_of_accepts hnonce
    exact absurd hmem ((hused.floor_lt_iff hs).mp (Nat.lt_of_lt_of_le habove hfits))

/-- Alice creates a payment key under `nonce`. -/
def aliceCreates (nonce : String) : Event :=
  callBy aliceAccount (.storeSecrets (.system .paymentKey) nonce "a2V5" .allowAll none) (10 ^ 24)

/-- Two keys with a gap, the second deleted again: the next nonce is above both. -/
theorem nonces_after_gap_and_delete : ∃ tr w, World.History asciiHost ownerAccount none none none tr w ∧
    createdNonces aliceAccount tr = [2, 7] ∧
    paymentKey aliceAccount 7 ∉ w.contract.secretsStorage ∧
    IsLeast {nonce | AcceptsNonce asciiHost w.contract aliceAccount nonce} 8 := by
  obtain ⟨tr, w, h, hp⟩ := exists_history
    [aliceCreates "2", aliceCreates "007", callBy aliceAccount (.deleteSecrets (.system .paymentKey) "7")]
    (fun x => decide (createdNonces aliceAccount x.1 = [2, 7] ∧
      paymentKey aliceAccount 7 ∉ x.2.contract.secretsStorage ∧
      getNextPaymentKeyNonce x.2.contract.toSecretStore aliceAccount = 8)) (by decide +kernel)
  obtain ⟨hcreated, hgone, hnext⟩ := of_decide_eq_true hp
  refine ⟨tr, w, h, hcreated, hgone, ?_⟩
  obtain ⟨-, -, hleast, -⟩ := nonces_used_once h aliceAccount
  rw [← hnext]
  exact hleast.mpr (by rw [hcreated]; decide)

/-- After the largest nonce the contract answers with one that no store takes. -/
theorem next_nonce_not_accepted : ∃ tr w, World.History asciiHost ownerAccount none none none tr w ∧
    getNextPaymentKeyNonce w.contract.toSecretStore aliceAccount = 2147483648 ∧
    ¬ IsLeast {nonce | AcceptsNonce asciiHost w.contract aliceAccount nonce}
      (getNextPaymentKeyNonce w.contract.toSecretStore aliceAccount) := by
  obtain ⟨tr, w, h, hp⟩ := exists_history [aliceCreates "2147483647"]
    (fun x => decide (getNextPaymentKeyNonce x.2.contract.toSecretStore aliceAccount = 2147483648))
    (by decide +kernel)
  have hnext := of_decide_eq_true hp
  refine ⟨tr, w, h, hnext, ?_⟩
  intro hleast
  have hfits := (above_of_accepts hleast.1).2
  rw [show getNextPaymentKeyNonce w.contract.toSecretStore aliceAccount = 2147483648 from hnext] at hfits
  exact absurd hfits (by decide)

end Outlayer
