import Outlayer.Contract.PolicySteps
import Outlayer.Contract.Replay

/-!
# `Contract.Correctness.Policies` — the life of a wallet policy

A policy is created and rewritten under its wallet's signature, frozen and unfrozen by its owner, and deleted by
its owner while it is not locked. `PolicyStore.Consistent` says that the maps about policies agree with each
other; `PolicyStep` says what one step can do to a stored policy, and `policy_lifetime` what any number of steps
add up to while the policy stays stored.
-/

namespace Outlayer
open Text Checked Collections Runs

/-! ## The maps -/

/-- The maps about policies tell the same story: the index lists exactly the policies of each owner, keys are in
    their one spelling, and versions and beneficiaries are kept for stored policies only. -/
structure PolicyStore.Consistent (p : PolicyStore) : Prop where
  index : Index.Follows WalletPolicyEntry.owner p.walletOwnerIndex p.walletPolicies
  canonical : LookupMap.All (fun key _ => canonicalWalletPubkey key = .ok key) p.walletPolicies
  versions : LookupMap.All (fun key _ => p.walletPolicies.lookup key ≠ none) p.policyMeta
  beneficiaries : LookupMap.All
    (fun item _ => ∃ key, item = .walletPolicy key ∧ p.walletPolicies.lookup key ≠ none) p.storageRefundTo

section Maps
variable {H : Host} {env : Env} {c : Contract} {call : Call} {p : PolicyStore} {ses : List StorageEffect}

/-- Writing one policy leaves every policy stored, so versions and beneficiaries stay accounted for. -/
theorem PolicyStore.Consistent.stored_insert (hp : p.Consistent) (key : String) (entry : WalletPolicyEntry) :
    LookupMap.All (fun key' _ => (p.walletPolicies.insert key entry).lookup key' ≠ none) p.policyMeta ∧
      LookupMap.All (fun item _ => ∃ key', item = .walletPolicy key' ∧
        (p.walletPolicies.insert key entry).lookup key' ≠ none) p.storageRefundTo := by
  constructor
  · refine hp.versions.mono ?_
    intro key' _ hstored
    exact LookupMap.lookup_insert_ne_none hstored
  · refine hp.beneficiaries.mono ?_
    rintro item _ ⟨key', hitem, hstored⟩
    exact ⟨key', hitem, LookupMap.lookup_insert_ne_none hstored⟩

theorem stored_self (policies : LookupMap String WalletPolicyEntry) (key : String) (entry : WalletPolicyEntry) :
    (policies.insert key entry).lookup key ≠ none := by
  rw [AList.lookup_insert]
  exact Option.some_ne_none entry

/-- A policy rewritten by its owner, with whatever version. -/
theorem PolicyStore.Consistent.rewrite (hp : p.Consistent) {key : String} {old : WalletPolicyEntry}
    (entry : WalletPolicyEntry) (exists_ : p.walletPolicies.lookup key = some old) (owner : entry.owner = old.owner) :
    PolicyStore.Consistent { p with walletPolicies := p.walletPolicies.insert key entry } where
  index := hp.index.rewrite exists_ owner
  canonical := hp.canonical.insert (hp.canonical key old exists_)
  versions := (hp.stored_insert key entry).1
  beneficiaries := (hp.stored_insert key entry).2

/-- **Every call keeps the maps about policies consistent.** -/
theorem consistent_policy_call (h : PolicyCall H env c call p ses) (hp : c.toPolicyStore.Consistent) :
    p.Consistent := by
  cases h with
  | @create walletPubkey data signature version locked validUntil refundTo key deposit excess receiver event
      canonical signed new paid =>
      obtain ⟨hversions, hbeneficiaries⟩ := hp.stored_insert key
        { owner := env.predecessor, encryptedData := data, frozen := false, updatedAt := env.blockTimestamp
          storageDeposit := deposit }
      refine { index := hp.index.add new rfl, canonical := hp.canonical.insert (canonical_canonical canonical),
               versions := hversions.insert (stored_self _ key _), beneficiaries := ?_ }
      cases refundTo with
      | none => exact hbeneficiaries
      | some account => exact hbeneficiaries.insert ⟨key, rfl, stored_self _ key _⟩
  | @update walletPubkey data signature version locked validUntil key old deposit excess receiver event canonical
      signed exists_ owner paid =>
      have hkept := hp.rewrite
        { owner := env.predecessor, encryptedData := data, frozen := old.frozen, updatedAt := env.blockTimestamp
          storageDeposit := deposit }
        exists_ owner.symm
      exact { hkept with versions := hkept.versions.insert (stored_self _ key _) }
  | freeze key old event canonical exists_ owner => exact hp.rewrite _ exists_ rfl
  | unfreeze key old event canonical exists_ owner => exact hp.rewrite _ exists_ rfl
  | delete key old receiver event canonical exists_ owner unlocked =>
      refine { index := hp.index.drop exists_ owner, canonical := hp.canonical.erase key,
               versions := ?_, beneficiaries := ?_ }
      · intro key' m hm
        obtain ⟨hne, hm⟩ := LookupMap.lookup_of_erase hm
        exact LookupMap.lookup_erase_ne_none (hp.versions key' m hm) hne
      · intro item account hitem
        obtain ⟨hne, hitem⟩ := LookupMap.lookup_of_erase hitem
        obtain ⟨key', rfl, hstored⟩ := hp.beneficiaries item account hitem
        refine ⟨key', rfl, LookupMap.lookup_erase_ne_none hstored ?_⟩
        rintro rfl
        exact hne rfl
  | redirect key event canonical beneficiary =>
      obtain ⟨key', hkey', hstored⟩ := hp.beneficiaries _ _ beneficiary
      exact { hp with beneficiaries := hp.beneficiaries.insert ⟨key', hkey', hstored⟩ }

end Maps

theorem consistent_policy_step {H : Host} {t : Step} (hf : Fires (World.next H) t)
    (hp : t.pre.contract.toPolicyStore.Consistent) : t.post.contract.toPolicyStore.Consistent := by
  rcases step_parts hf with ⟨env, call, -, -, hparts⟩ | ⟨-, -, hsame, -⟩
  · rcases hparts.policies with ⟨ses, hrun, -⟩ | ⟨-, hsame⟩
    · exact consistent_policy_call (policy_call hrun) hp
    · rwa [hsame]
  · rwa [hsame]

/-! ## The life of one policy -/

/-- The event is a store of the policy of `key`. -/
def Event.storesPolicy (key : String) : Event → Bool
  | .call _ (.storeWalletPolicy walletPubkey _ _ _ _ _ _) => decide (canonicalWalletPubkey walletPubkey = .ok key)
  | _ => false

/-- `owner` sets the flag of the policy of `key` to `frozen`. -/
def Event.SetsFrozen (key : String) (frozen : Bool) (owner : AccountId) : Event → Prop
  | .call env (.freezeWallet walletPubkey) =>
      frozen = true ∧ env.predecessor = owner ∧ canonicalWalletPubkey walletPubkey = .ok key
  | .call env (.unfreezeWallet walletPubkey) =>
      frozen = false ∧ env.predecessor = owner ∧ canonicalWalletPubkey walletPubkey = .ok key
  | _ => False

/-- `owner` deletes the policy of `key`. -/
def Event.DeletesPolicy (key : String) (owner : AccountId) : Event → Prop
  | .call env (.deleteWalletPolicy walletPubkey) =>
      env.predecessor = owner ∧ canonicalWalletPubkey walletPubkey = .ok key
  | _ => False

/-- `beneficiary` hands the storage refunds of the policy of `key` on to `account`. -/
def Event.Redirects (key : String) (beneficiary account : AccountId) : Event → Prop
  | .call env (.setStorageRefundTo (.walletPolicy walletPubkey) receiver) =>
      env.predecessor = beneficiary ∧ receiver = account ∧ canonicalWalletPubkey walletPubkey = .ok key
  | _ => False

/-- The event stores `entry` with `m` as the policy of `key`, on the wallet's signature over exactly that. -/
def Event.StoresSigned (H : Host) (p : PolicyStore) (key : String) (entry : WalletPolicyEntry) (m : PolicyMeta) :
    Event → Prop
  | .call env (.storeWalletPolicy walletPubkey encryptedData signature version locked validUntil _) =>
      canonicalWalletPubkey walletPubkey = .ok key ∧ env.predecessor = entry.owner ∧
        encryptedData = entry.encryptedData ∧ m = ⟨version, locked⟩ ∧
        Signed H env p key encryptedData signature version locked validUntil
  | _ => False

/-- What an event may do to a policy that is stored before and after it. -/
structure PolicyKept (H : Host) (key : String) (e : Event) (p p' : PolicyStore) (old new : WalletPolicyEntry) :
    Prop where
  owner : new.owner = old.owner
  version : (p'.metaOf key).version = (p.metaOf key).version + (e.storesPolicy key).toNat
  frozen : new.frozen ≠ old.frozen → e.SetsFrozen key new.frozen old.owner
  rewritten : new.encryptedData ≠ old.encryptedData ∨ new.storageDeposit ≠ old.storageDeposit ∨
    p'.metaOf key ≠ p.metaOf key → e.StoresSigned H p key new (p'.metaOf key)
  beneficiary : p'.storageRefundTo.lookup (.walletPolicy key) ≠ p.storageRefundTo.lookup (.walletPolicy key) →
    ∃ current next, p.storageRefundTo.lookup (.walletPolicy key) = some current ∧
      p'.storageRefundTo.lookup (.walletPolicy key) = some next ∧ e.Redirects key current next

/-- What an event may do to a stored policy: delete it, by its owner and not while it is locked, or keep it. -/
structure PolicyStep (H : Host) (key : String) (e : Event) (p p' : PolicyStore) (old : WalletPolicyEntry) :
    Prop where
  deleted : p'.walletPolicies.lookup key = none →
    e.DeletesPolicy key old.owner ∧ (p.metaOf key).locked = false
  kept : ∀ new, p'.walletPolicies.lookup key = some new → PolicyKept H key e p p' old new

section OneStep
variable {H : Host} {env : Env} {w : World} {c : Contract} {call : Call} {p p' : PolicyStore}
  {ses : List StorageEffect} {key : String} {old : WalletPolicyEntry}

/-- An event that is not about the policy leaves it as it is. -/
theorem PolicyStep.untouched {e : Event} (exists_ : p.walletPolicies.lookup key = some old)
    (entry : p'.walletPolicies.lookup key = p.walletPolicies.lookup key)
    (version : p'.metaOf key = p.metaOf key)
    (beneficiary : p'.storageRefundTo.lookup (.walletPolicy key) = p.storageRefundTo.lookup (.walletPolicy key))
    (other : e.storesPolicy key = false) : PolicyStep H key e p p' old where
  deleted := by
    intro hnone
    rw [entry, exists_] at hnone
    cases hnone
  kept := by
    intro new hnew
    rw [entry, exists_] at hnew
    cases hnew
    refine ⟨rfl, ?_, fun h => absurd rfl h, ?_, fun h => absurd beneficiary h⟩
    · rw [version, other]
      rfl
    · rintro (h | h | h)
      · exact absurd rfl h
      · exact absurd rfl h
      · exact absurd version h

theorem walletItem_ne {key' : String} (hne : key ≠ key') : StorageItem.walletPolicy key ≠ .walletPolicy key' := by
  intro he
  exact hne (StorageItem.walletPolicy.inj he)

/-- A store of another wallet's policy. -/
theorem not_storesPolicy {walletPubkey data signature : String} {version : Nat} {locked : Bool}
    {validUntil : Nat} {refundTo : Option AccountId} {key' : String}
    (canonical : canonicalWalletPubkey walletPubkey = .ok key') (hne : key ≠ key') :
    (Event.call env (.storeWalletPolicy walletPubkey data signature version locked validUntil refundTo)).storesPolicy
      key = false := by
  apply decide_eq_false
  rw [canonical]
  intro he
  exact hne (Except.ok.inj he).symm

/-- A policy's owner sets its flag; the policy may be this one or another. -/
theorem PolicyStep.set_frozen {e : Event} {key' : String} {old' : WalletPolicyEntry} {frozen : Bool} {time : Nat}
    (exists_ : p.walletPolicies.lookup key = some old) (exists' : p.walletPolicies.lookup key' = some old')
    (sets : e.SetsFrozen key' frozen old'.owner) (other : e.storesPolicy key = false) :
    PolicyStep H key e p
      { p with walletPolicies := p.walletPolicies.insert key' { old' with frozen, updatedAt := time } } old := by
  by_cases hkey : key = key'
  · subst hkey
    obtain rfl : old = old' := Option.some.inj (exists_.symm.trans exists')
    refine ⟨fun hnone => absurd hnone (stored_self _ key _), fun new hnew => ?_⟩
    obtain rfl := Option.some.inj ((AList.lookup_insert _).symm.trans hnew)
    refine ⟨rfl, ?_, fun _ => sets, ?_, fun h => absurd rfl h⟩
    · rw [other]
      rfl
    · rintro (h | h | h) <;> exact absurd rfl h
  · exact .untouched exists_ (AList.lookup_insert_ne hkey) rfl rfl other

/-- **What a call can do to a stored policy.** -/
theorem policy_step_call (h : PolicyCall H (w.seenBy env) c call p ses)
    (exists_ : c.walletPolicies.lookup key = some old) :
    PolicyStep H key (.call env call) c.toPolicyStore p old := by
  cases h with
  | @create walletPubkey data signature version locked validUntil refundTo key' deposit excess receiver event
      canonical signed new paid =>
      -- the policy that is there is another one
      have hne : key ≠ key' := by
        rintro rfl
        exact nomatch exists_.symm.trans new
      refine .untouched exists_ (AList.lookup_insert_ne hne) ?_ ?_ (not_storesPolicy canonical hne)
      · exact metaOf_congr (AList.lookup_insert_ne hne)
      · cases refundTo with
        | none => rfl
        | some account => exact AList.lookup_insert_ne (walletItem_ne hne)
  | @update walletPubkey data signature version locked validUntil key' old' deposit excess receiver event canonical
      signed exists' owner paid =>
      by_cases hkey : key = key'
      · subst hkey
        obtain rfl : old = old' := Option.some.inj (exists_.symm.trans exists')
        refine ⟨fun hnone => absurd hnone (stored_self _ key _), fun new hnew => ?_⟩
        obtain rfl := Option.some.inj ((AList.lookup_insert _).symm.trans hnew)
        refine ⟨owner.symm, ?_, fun h => absurd rfl h, fun _ => ?_, fun h => absurd rfl h⟩
        -- the one event that counts as a store of this policy
        · have hstores : (Event.call env (.storeWalletPolicy walletPubkey data signature version locked validUntil
              none)).storesPolicy key = true := decide_eq_true canonical
          rw [metaOf_eq (AList.lookup_insert _), hstores]
          exact signed.next
        · exact ⟨canonical, rfl, rfl, metaOf_eq (AList.lookup_insert _), signed.next, signed.inTime,
            signed.verified⟩
      · refine .untouched exists_ (AList.lookup_insert_ne hkey) ?_ rfl (not_storesPolicy canonical hkey)
        exact metaOf_congr (AList.lookup_insert_ne hkey)
  | freeze key' old' event canonical exists' owner =>
      exact .set_frozen exists_ exists' ⟨rfl, owner.symm, canonical⟩ rfl
  | unfreeze key' old' event canonical exists' owner =>
      exact .set_frozen exists_ exists' ⟨rfl, owner.symm, canonical⟩ rfl
  | delete key' old' receiver event canonical exists' owner unlocked =>
      by_cases hkey : key = key'
      · subst hkey
        obtain rfl : old = old' := Option.some.inj (exists_.symm.trans exists')
        refine ⟨fun _ => ⟨⟨owner.symm, canonical⟩, unlocked⟩, fun new hnew => ?_⟩
        exact absurd hnew (by rw [AList.lookup_erase]; nofun)
      · refine .untouched exists_ (AList.lookup_erase_ne hkey) ?_ (AList.lookup_erase_ne (walletItem_ne hkey)) rfl
        exact metaOf_congr (AList.lookup_erase_ne hkey)
  | @redirect walletPubkey account key' event canonical beneficiary =>
      by_cases hkey : key = key'
      · subst hkey
        refine ⟨fun hnone => ?_, fun new hnew => ?_⟩
        · exact nomatch exists_.symm.trans hnone
        · obtain rfl := Option.some.inj (exists_.symm.trans hnew)
          refine ⟨rfl, rfl, fun h => absurd rfl h, ?_, fun _ => ?_⟩
          · rintro (h | h | h) <;> exact absurd rfl h
          · exact ⟨env.predecessor, account, beneficiary, AList.lookup_insert _, rfl, rfl, canonical⟩
      · exact .untouched exists_ rfl rfl (AList.lookup_insert_ne (walletItem_ne hkey)) rfl

/-- **What a step can do to a stored policy.** -/
theorem policy_step {t : Step} (hf : Fires (World.next H) t)
    (exists_ : t.pre.contract.walletPolicies.lookup key = some old) :
    PolicyStep H key t.event t.pre.contract.toPolicyStore t.post.contract.toPolicyStore old := by
  rcases step_parts hf with ⟨env, call, he, -, hparts⟩ | ⟨hno, -, hsame, -⟩
  · rw [he]
    rcases hparts.policies with ⟨ses, hrun, -⟩ | ⟨hoff, hsame⟩
    · exact policy_step_call (policy_call hrun) exists_
    · rw [hsame]
      refine .untouched exists_ rfl rfl rfl ?_
      cases call with
      | storeWalletPolicy => exact absurd rfl (hoff _)
      | _ => rfl
  · rw [hsame]
    refine .untouched exists_ rfl rfl rfl ?_
    cases he : t.event with
    | call env call => exact absurd he (hno env call)
    | yielded _ _ _ => rfl
    | withdrawn _ _ => rfl

end OneStep

/-! ## Histories -/

section Histories
variable {H : Host} {w₀ w : World} {tr : List Step} {key : String} {entry : WalletPolicyEntry}

/-- **A policy's lifetime.** As long as it stays stored, its owner is the same and its version counts the
    stores. -/
theorem policy_lifetime (hrun : Run (World.next H) w₀ tr w)
    (exists_ : w₀.contract.walletPolicies.lookup key = some entry) :
    (∀ t ∈ tr, t.post.contract.walletPolicies.lookup key ≠ none) →
      ∃ last, w.contract.walletPolicies.lookup key = some last ∧ last.owner = entry.owner ∧
        (w.contract.metaOf key).version
          = (w₀.contract.metaOf key).version + tr.countP fun t => t.event.storesPolicy key := by
  induction hrun with
  | start => exact fun _ => ⟨entry, exists_, rfl, rfl⟩
  | @step tr t hrun hf ih =>
      intro hstored
      obtain ⟨last, hlast, howner, hversion⟩ := ih fun u hu => hstored u (List.mem_append_left _ hu)
      obtain ⟨new, hnew⟩ := Option.ne_none_iff_exists'.mp (hstored t (by simp))
      -- stored after the step, so the step was no deletion
      have hkept := (policy_step hf hlast).kept new hnew
      refine ⟨new, hnew, hkept.owner.trans howner, ?_⟩
      rw [hkept.version, hversion, List.countP_append, List.countP_singleton, Nat.add_assoc]
      cases t.event.storesPolicy key <;> rfl

end Histories

/-- The state machine of wallet policies, along a history `tr` that ends in `w`. -/
structure PolicyMachine (H : Host) (tr : List Step) (w : World) : Prop where
  consistent : w.contract.toPolicyStore.Consistent
  steps : ∀ t ∈ tr, ∀ key entry, t.pre.contract.walletPolicies.lookup key = some entry →
    PolicyStep H key t.event t.pre.contract.toPolicyStore t.post.contract.toPolicyStore entry
  lifetime : ∀ tr₁ u tr₂ key entry, tr = tr₁ ++ u :: tr₂ →
    u.post.contract.walletPolicies.lookup key = some entry →
    (∀ t ∈ tr₂, t.post.contract.walletPolicies.lookup key ≠ none) →
    ∃ last, w.contract.walletPolicies.lookup key = some last ∧ last.owner = entry.owner ∧
      (w.contract.metaOf key).version
        = (u.post.contract.metaOf key).version + tr₂.countP fun t => t.event.storesPolicy key

/-- **Wallet policies keep to their state machine in every history.** -/
theorem policies_keep_to_machine {H : Host} {owner : AccountId} {operator : Option AccountId}
    {standard version : Option String} {tr : List Step} {w : World}
    (h : World.History H owner operator standard version tr w) : PolicyMachine H tr w where
  consistent := Run.invariant (I := fun w => w.contract.toPolicyStore.Consistent)
    ⟨Index.follows_empty, LookupMap.all_empty, LookupMap.all_empty, LookupMap.all_empty⟩
    (fun _ hf hp => consistent_policy_step hf hp) h
  steps := by
    intro t ht key entry hentry
    obtain ⟨_, -, hf⟩ := h.fired ht
    exact policy_step hf hentry
  lifetime := by
    rintro tr₁ u tr₂ key entry rfl hentry hstored
    obtain ⟨-, -, hrest⟩ := h.at_split
    exact policy_lifetime hrest hentry hstored

/-- A policy is filed, frozen and unfrozen by its owner, and deleted. -/
theorem filed_policy_keeps_to_machine :
    ∃ tr w, World.History walletHost ownerAccount none none none tr w ∧ tr.length = 4 ∧
      PolicyMachine walletHost tr w := by
  obtain ⟨tr, w, h, hp⟩ := exists_replay walletHost World.fresh
    [filePolicy 1, callBy aliceAccount (.freezeWallet walletKey), callBy aliceAccount (.unfreezeWallet walletKey),
     callBy aliceAccount (.deleteWalletPolicy walletKey)]
    (fun r => r.1.length == 4) (by decide +kernel)
  exact ⟨tr, w, h, by simpa using hp, policies_keep_to_machine h⟩

end Outlayer
