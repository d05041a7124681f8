import Outlayer.Contract.Steps

/-!
# `Contract.PolicySteps` — what a call does to the wallet policies

`PolicyCall` lists the outcomes of the five methods on wallet policies: a policy created or updated under the
wallet's signature, frozen, unfrozen, deleted, or its storage refunds handed on. Everything a method checked on
the way is in the case it ended in, so every statement about policies is derived from this list.
-/

namespace Outlayer
open Text Checked Collections Runs

/-! ## Canonical keys -/

theorem splitAtColon_append {pre rest : String} (h : ':' ∉ pre.toList) :
    splitAtColon (pre ++ ":" ++ rest) = some (pre, rest) := by
  have hall : ∀ c ∈ pre.toList, decide (c ≠ ':') = true := by
    intro c hc
    refine decide_eq_true ?_
    rintro rfl
    exact h hc
  have hlist : (pre ++ ":" ++ rest).toList = pre.toList ++ ':' :: rest.toList := by
    simp [String.toList_append]
  have htake : (pre.toList ++ ':' :: rest.toList).takeWhile (· ≠ ':') = pre.toList := by
    rw [List.takeWhile_append_of_pos hall]
    simp
  have hdrop : (pre.toList ++ ':' :: rest.toList).dropWhile (· ≠ ':') = ':' :: rest.toList := by
    rw [List.dropWhile_append_of_pos hall]
    simp
  rw [splitAtColon, hlist, hdrop, htake]
  simp

theorem WalletKeyType.parse_name (kind : WalletKeyType) : WalletKeyType.parse kind.name = some kind := by
  cases kind <;> decide

theorem WalletKeyType.no_colon (kind : WalletKeyType) : ':' ∉ kind.name.toList := by
  cases kind <;> decide

/-- The canonical spelling of a key parses back to the key. -/
theorem parse_canonical {walletPubkey : String} {kind : WalletKeyType} {raw : List UInt8}
    (h : parseWalletPubkey walletPubkey = .ok (kind, raw)) :
    parseWalletPubkey (kind.name ++ ":" ++ hexEncode raw) = .ok (kind, raw) := by
  simp only [parseWalletPubkey, bind_eq_ok, expect_eq_ok] at h ⊢
  obtain ⟨_, -, kind', -, raw', -, h⟩ := h
  refine ⟨_, splitAtColon_append kind.no_colon, kind, kind.parse_name, raw, hexDecode_hexEncode raw, ?_⟩
  cases kind' with
  | ed25519 =>
      simp only [bind_eq_ok, require_eq_ok, pure_eq_ok, Prod.mk.injEq] at h
      obtain ⟨_, hlen, rfl, rfl⟩ := h
      simp [hlen]
  | secp256k1 =>
      simp only [bind_eq_ok, require_eq_ok, pure_eq_ok, Prod.mk.injEq] at h
      obtain ⟨_, hlen, _, hhead, rfl, rfl⟩ := h
      simp [hlen, hhead]

/-- **Canonicalising twice is canonicalising once.** -/
theorem canonical_canonical {walletPubkey key : String} (h : canonicalWalletPubkey walletPubkey = .ok key) :
    canonicalWalletPubkey key = .ok key := by
  simp only [canonicalWalletPubkey, bind_eq_ok, pure_eq_ok] at h ⊢
  obtain ⟨⟨kind, raw⟩, hparse, rfl⟩ := h
  exact ⟨(kind, raw), parse_canonical hparse, rfl⟩

/-! ## Calls -/

/-- A policy's version and lock. -/
def PolicyStore.metaOf (p : PolicyStore) (key : String) : PolicyMeta := (p.policyMeta.lookup key).getD {}

theorem metaOf_eq {p : PolicyStore} {key : String} {m : PolicyMeta} (h : p.policyMeta.lookup key = some m) :
    p.metaOf key = m := by
  rw [PolicyStore.metaOf, h, Option.getD_some]

theorem metaOf_congr {p p' : PolicyStore} {key : String}
    (h : p'.policyMeta.lookup key = p.policyMeta.lookup key) : p'.metaOf key = p.metaOf key := by
  rw [PolicyStore.metaOf, h, PolicyStore.metaOf]

/-- What a store must show to go through: the wallet's signature over exactly this write, made for the next
    version and not expired. -/
structure Signed (H : Host) (env : Env) (p : PolicyStore) (key encryptedData signature : String) (version : Nat)
    (locked : Bool) (validUntil : Nat) : Prop where
  next : version = (p.metaOf key).version + 1
  inTime : env.blockTimestamp / 1000000000 ≤ validUntil
  verified : verifyWalletSignature H key
    (H.sha256 (policyStoreMessage key version locked validUntil encryptedData env.predecessor)) signature = .ok ()

/-- What a call that went through did to the policies. -/
inductive PolicyCall (H : Host) (env : Env) (c : Contract) : Call → PolicyStore → List StorageEffect → Prop
  | create {walletPubkey encryptedData signature : String} {version : Nat} {locked : Bool} {validUntil : Nat}
      {refundTo : Option AccountId} (key : String) (deposit excess : Nat) (receiver : AccountId)
      (event : SystemEvent) (canonical : canonicalWalletPubkey walletPubkey = .ok key)
      (signed : Signed H env c.toPolicyStore key encryptedData signature version locked validUntil)
      (new : c.walletPolicies.lookup key = none) (paid : excess + deposit = env.attachedDeposit) :
      PolicyCall H env c
        (.storeWalletPolicy walletPubkey encryptedData signature version locked validUntil refundTo)
        { walletPolicies := c.walletPolicies.insert key
            { owner := env.predecessor, encryptedData, frozen := false, updatedAt := env.blockTimestamp
              storageDeposit := deposit }
          walletOwnerIndex := Index.insert c.walletOwnerIndex env.predecessor key
          storageRefundTo := refundTo.elim c.storageRefundTo
            fun account => c.storageRefundTo.insert (.walletPolicy key) account
          policyMeta := c.policyMeta.insert key { version, locked } }
        (refund receiver excess ++ [emitSystemEvent c.toConfig event])
  | update {walletPubkey encryptedData signature : String} {version : Nat} {locked : Bool} {validUntil : Nat}
      (key : String) (old : WalletPolicyEntry) (deposit excess : Nat) (receiver : AccountId)
      (event : SystemEvent) (canonical : canonicalWalletPubkey walletPubkey = .ok key)
      (signed : Signed H env c.toPolicyStore key encryptedData signature version locked validUntil)
      (exists_ : c.walletPolicies.lookup key = some old) (owner : old.owner = env.predecessor)
      (paid : excess + deposit = env.attachedDeposit + old.storageDeposit) :
      PolicyCall H env c
        (.storeWalletPolicy walletPubkey encryptedData signature version locked validUntil none)
        { c.toPolicyStore with
          walletPolicies := c.walletPolicies.insert key
            { owner := env.predecessor, encryptedData, frozen := old.frozen, updatedAt := env.blockTimestamp
              storageDeposit := deposit }
          policyMeta := c.policyMeta.insert key { version, locked } }
        (refund receiver excess ++ [emitSystemEvent c.toConfig event])
  | freeze {walletPubkey : String} (key : String) (old : WalletPolicyEntry) (event : SystemEvent)
      (canonical : canonicalWalletPubkey walletPubkey = .ok key)
      (exists_ : c.walletPolicies.lookup key = some old) (owner : old.owner = env.predecessor) :
      PolicyCall H env c (.freezeWallet walletPubkey)
        { c.toPolicyStore with
          walletPolicies := c.walletPolicies.insert key
            { old with frozen := true, updatedAt := env.blockTimestamp } }
        [emitSystemEvent c.toConfig event]
  | unfreeze {walletPubkey : String} (key : String) (old : WalletPolicyEntry) (event : SystemEvent)
      (canonical : canonicalWalletPubkey walletPubkey = .ok key)
      (exists_ : c.walletPolicies.lookup key = some old) (owner : old.owner = env.predecessor) :
      PolicyCall H env c (.unfreezeWallet walletPubkey)
        { c.toPolicyStore with
          walletPolicies := c.walletPolicies.insert key
            { old with frozen := false, updatedAt := env.blockTimestamp } }
        [emitSystemEvent c.toConfig event]
  | delete {walletPubkey : String} (key : String) (old : WalletPolicyEntry) (receiver : AccountId)
      (event : SystemEvent) (canonical : canonicalWalletPubkey walletPubkey = .ok key)
      (exists_ : c.walletPolicies.lookup key = some old) (owner : old.owner = env.predecessor)
      (unlocked : (c.toPolicyStore.metaOf key).locked = false) :
      PolicyCall H env c (.deleteWalletPolicy walletPubkey)
        { walletPolicies := c.walletPolicies.erase key
          walletOwnerIndex := Index.remove c.walletOwnerIndex env.predecessor key
          storageRefundTo := c.storageRefundTo.erase (.walletPolicy key)
          policyMeta := c.policyMeta.erase key }
        (refund receiver old.storageDeposit ++ [emitSystemEvent c.toConfig event])
  | redirect {walletPubkey : String} {account : AccountId} (key : String) (event : SystemEvent)
      (canonical : canonicalWalletPubkey walletPubkey = .ok key)
      (beneficiary : c.storageRefundTo.lookup (.walletPolicy key) = some env.predecessor) :
      PolicyCall H env c (.setStorageRefundTo (.walletPolicy walletPubkey) account)
        { c.toPolicyStore with storageRefundTo := c.storageRefundTo.insert (.walletPolicy key) account }
        [emitSystemEvent c.toConfig event]

section Methods
variable {H : Host} {env : Env} {c : Contract} {p : PolicyStore} {ses : List StorageEffect}

theorem storeWalletPolicy_call {walletPubkey encryptedData signature : String} {version : Nat} {locked : Bool}
    {validUntil : Nat} {refundTo : Option AccountId}
    (h : storeWalletPolicy H env c walletPubkey encryptedData signature version locked validUntil refundTo
      = .ok (p, ses)) :
    PolicyCall H env c
      (.storeWalletPolicy walletPubkey encryptedData signature version locked validUntil refundTo) p ses := by
  simp only [storeWalletPolicy, bind_eq_ok, require_eq_ok, add_eq_ok, pure_eq_ok] at h
  obtain ⟨_, -, _, -, _, -, _, -, _, -, key, hkey, _, ⟨-, rfl⟩, _, hnext, _, htime, _, hverified, beneficiary,
    hbeneficiary, excess, hexcess, h⟩ := h
  have hsigned : Signed H env c.toPolicyStore key encryptedData signature version locked validUntil :=
    ⟨hnext, htime, hverified⟩
  cases hold : c.walletPolicies.lookup key with
  | none =>
      simp only [hold, policyRefund, bind_eq_ok, require_eq_ok, pure_eq_ok] at hexcess
      obtain ⟨_, hcovered, rfl⟩ := hexcess
      simp only [hold] at h
      cases refundTo <;>
        · cases h
          exact .create key _ _ _ _ hkey hsigned hold (by omega)
  | some old =>
      simp only [hold, policyRefund, bind_eq_ok, require_eq_ok, add_eq_ok, pure_eq_ok] at hexcess
      obtain ⟨_, howner, _, ⟨-, rfl⟩, _, hcovered, rfl⟩ := hexcess
      simp only [hold, policyBeneficiary, bind_eq_ok, require_eq_ok, pure_eq_ok] at hbeneficiary
      obtain ⟨_, rfl, -⟩ := hbeneficiary
      simp only [hold] at h
      cases h
      exact .update key old _ _ _ _ hkey hsigned hold howner (by omega)

/-- A store sees the key in its canonical spelling only. -/
theorem storeWalletPolicy_spelling {spelling spelling' encryptedData signature : String} {version : Nat}
    {locked : Bool} {validUntil : Nat} {refundTo : Option AccountId} (hne : spelling ≠ "") (hne' : spelling' ≠ "")
    (same : canonicalWalletPubkey spelling = canonicalWalletPubkey spelling') :
    storeWalletPolicy H env c spelling encryptedData signature version locked validUntil refundTo
      = storeWalletPolicy H env c spelling' encryptedData signature version locked validUntil refundTo := by
  unfold storeWalletPolicy
  simp only [same, hne, hne', ne_eq, not_false_eq_true]

theorem freezeWallet_call {walletPubkey : String} (h : freezeWallet env c walletPubkey = .ok (p, ses)) :
    PolicyCall H env c (.freezeWallet walletPubkey) p ses := by
  simp only [freezeWallet, setFrozen, bind_eq_ok, expect_eq_ok, require_eq_ok, pure_eq_ok] at h
  obtain ⟨_, -, key, hkey, old, hold, _, howner, _, -, h⟩ := h
  cases h
  exact .freeze key old _ hkey hold howner

theorem unfreezeWallet_call {walletPubkey : String} (h : unfreezeWallet env c walletPubkey = .ok (p, ses)) :
    PolicyCall H env c (.unfreezeWallet walletPubkey) p ses := by
  simp only [unfreezeWallet, setFrozen, bind_eq_ok, expect_eq_ok, require_eq_ok, pure_eq_ok] at h
  obtain ⟨_, -, key, hkey, old, hold, _, howner, _, -, h⟩ := h
  cases h
  exact .unfreeze key old _ hkey hold howner

theorem deleteWalletPolicy_call {walletPubkey : String}
    (h : deleteWalletPolicy env c walletPubkey = .ok (p, ses)) :
    PolicyCall H env c (.deleteWalletPolicy walletPubkey) p ses := by
  simp only [deleteWalletPolicy, bind_eq_ok, expect_eq_ok, require_eq_ok, pure_eq_ok] at h
  obtain ⟨key, hkey, old, hold, _, howner, _, hunlocked, h⟩ := h
  cases h
  exact .delete key old _ _ hkey hold howner hunlocked

theorem setStorageRefundTo_call {item : StorageItem} {account : AccountId}
    (h : setStorageRefundTo env c item account = .ok (p, ses)) :
    PolicyCall H env c (.setStorageRefundTo item account) p ses := by
  obtain ⟨walletPubkey⟩ := item
  simp only [setStorageRefundTo, StorageItem.canonical, bind_eq_ok, expect_eq_ok, require_eq_ok, pure_eq_ok] at h
  obtain ⟨_, -, _, ⟨key, hkey, rfl⟩, current, hcurrent, _, rfl, h⟩ := h
  cases h
  exact .redirect key _ hkey hcurrent

/-- **Inversion of policy calls.** -/
theorem policy_call {call : Call} (h : runCall H env c call = .policies (.ok (p, ses))) :
    PolicyCall H env c call p ses := by
  cases call with
  | storeWalletPolicy key data signature version locked validUntil refundTo =>
      exact storeWalletPolicy_call (PartRun.policies.inj h)
  | freezeWallet key => exact freezeWallet_call (PartRun.policies.inj h)
  | unfreezeWallet key => exact unfreezeWallet_call (PartRun.policies.inj h)
  | deleteWalletPolicy key => exact deleteWalletPolicy_call (PartRun.policies.inj h)
  | setStorageRefundTo item account => exact setStorageRefundTo_call (PartRun.policies.inj h)
  | _ => cases h

end Methods

end Outlayer
