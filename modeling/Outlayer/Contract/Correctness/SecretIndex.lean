import Outlayer.Contract.SecretMaps
import Outlayer.Contract.Views
import Outlayer.Contract.Replay

/-!
# `Contract.Correctness.SecretIndex` — the index is exact, and so are its pages

An account reads its secrets page by page until a page comes back short. What it has read then is every secret
it owns, once.
-/

namespace Outlayer
open Text Checked Collections Runs

/-- The key a listed secret of `owner` is stored under. -/
def UserSecretInfo.key (owner : AccountId) (info : UserSecretInfo) : SecretKey :=
  { accessor := info.accessor, profile := info.profile, owner }

/-- The first `n` pages of `k` secrets each. -/
def firstPages (s : SecretStore) (owner : AccountId) (k n : Nat) : List UserSecretInfo :=
  (List.range n).flatMap fun i => listUserSecrets s owner (some (i * k)) (some k)

/-- The list holds every secret of `owner` once, as it is stored, and nothing else. -/
structure ListsExactly (s : SecretStore) (owner : AccountId) (infos : List UserSecretInfo) : Prop where
  once : (infos.map (UserSecretInfo.key owner)).Nodup
  every : ∀ key, key ∈ infos.map (UserSecretInfo.key owner) ↔ key.owner = owner ∧ key ∈ s.secretsStorage
  stored : ∀ info ∈ infos, ∃ row, s.secretsStorage.lookup (info.key owner) = some row ∧
    info = userSecretInfo (info.key owner) row

section Pages
variable {H : Host} {s : SecretStore}

/-- The keys of an account, in the order of its index. -/
def secretKeys (s : SecretStore) (owner : AccountId) : List SecretKey :=
  ((s.userSecretsIndex.lookup owner).map UnorderedSet.elems).getD []

theorem secretKeys_nodup (s : SecretStore) (owner : AccountId) : (secretKeys s owner).Nodup := by
  unfold secretKeys
  cases s.userSecretsIndex.lookup owner with
  | none => exact List.nodup_nil
  | some set => exact set.nodup

theorem mem_secretKeys (hs : s.Consistent H) {owner : AccountId} {key : SecretKey} :
    key ∈ secretKeys s owner ↔ key.owner = owner ∧ key ∈ s.secretsStorage := by
  rw [← hs.index, secretKeys, Index.Lists]
  cases s.userSecretsIndex.lookup owner with
  | none => simp
  | some set => simp [UnorderedSet.mem_def]

/-- The secrets stored under some keys, as they are listed. -/
def infosOf (s : SecretStore) (keys : List SecretKey) : List UserSecretInfo :=
  keys.filterMap fun key => (s.secretsStorage.lookup key).map (userSecretInfo key)

/-- A page is cut from the keys of the account. -/
theorem listUserSecrets_eq (s : SecretStore) (owner : AccountId) {k : Nat} (hk : k ≤ 500) (start : Nat) :
    listUserSecrets s owner (some start) (some k) = infosOf s (((secretKeys s owner).drop start).take k) := by
  unfold listUserSecrets secretKeys infosOf
  simp only [Option.getD_some, Nat.min_eq_left hk]
  cases s.userSecretsIndex.lookup owner with
  | none => simp
  | some set => rfl

theorem firstPages_eq (s : SecretStore) (owner : AccountId) {k : Nat} (hk : k ≤ 500) (n : Nat) :
    firstPages s owner k n = infosOf s ((secretKeys s owner).take (n * k)) := by
  simp only [firstPages, listUserSecrets_eq s owner hk, infosOf]
  rw [← flatMap_pages, List.filterMap_flatMap]

/-- Every key of the account is stored, so listing loses none: the keys of what is listed are the keys. -/
theorem map_key_infosOf (hs : s.Consistent H) {owner : AccountId} {keys : List SecretKey}
    (hkeys : ∀ key ∈ keys, key ∈ secretKeys s owner) :
    (infosOf s keys).map (UserSecretInfo.key owner) = keys := by
  induction keys with
  | nil => rfl
  | cons key keys ih =>
      obtain ⟨howner, hmem⟩ := (mem_secretKeys hs).mp (hkeys key List.mem_cons_self)
      obtain ⟨row, hrow⟩ := LookupMap.mem_iff_lookup.mp hmem
      have hinfos : infosOf s (key :: keys) = userSecretInfo key row :: infosOf s keys := by
        simp [infosOf, hrow]
      have hkey : (userSecretInfo key row).key owner = key := by
        rw [← howner]
        rfl
      rw [hinfos, List.map_cons, ih (fun k hk => hkeys k (List.mem_cons_of_mem key hk)), hkey]

/-- What is listed is what is stored. -/
theorem stored_of_mem_infosOf {owner : AccountId} {keys : List SecretKey} {info : UserSecretInfo}
    (howner : ∀ key ∈ keys, key.owner = owner) (h : info ∈ infosOf s keys) :
    ∃ row, s.secretsStorage.lookup (info.key owner) = some row ∧ info = userSecretInfo (info.key owner) row := by
  simp only [infosOf, List.mem_filterMap, Option.map_eq_some_iff] at h
  obtain ⟨key, hkey, row, hrow, rfl⟩ := h
  have hsame : (userSecretInfo key row).key owner = key := by
    rw [← howner key hkey]
    rfl
  rw [hsame]
  exact ⟨row, hrow, rfl⟩

theorem listsExactly_all (hs : s.Consistent H) (owner : AccountId) :
    ListsExactly s owner (infosOf s (secretKeys s owner)) where
  once := by
    rw [map_key_infosOf hs (fun _ => id)]
    exact secretKeys_nodup s owner
  every := by
    intro key
    rw [map_key_infosOf hs (fun _ => id)]
    exact mem_secretKeys hs
  stored := fun _ h => stored_of_mem_infosOf (fun _ hkey => ((mem_secretKeys hs).mp hkey).1) h

/-- A page is as long as the piece of the index it is cut from. -/
theorem length_page (hs : s.Consistent H) (owner : AccountId) {k : Nat} (hk : k ≤ 500) (start : Nat) :
    (listUserSecrets s owner (some start) (some k)).length = min k ((secretKeys s owner).length - start) := by
  rw [listUserSecrets_eq s owner hk]
  have hcut : ∀ key ∈ ((secretKeys s owner).drop start).take k, key ∈ secretKeys s owner :=
    fun key hkey => List.mem_of_mem_drop (List.mem_of_mem_take hkey)
  have hmap := map_key_infosOf hs hcut
  rw [← List.length_map (UserSecretInfo.key owner), hmap, List.length_take, List.length_drop]

/-- **Reading until a page is short reads everything.** -/
theorem listsExactly_of_short (hs : s.Consistent H) (owner : AccountId) {k : Nat} (hk : k ≤ 500) {n : Nat}
    (hshort : (listUserSecrets s owner (some (n * k)) (some k)).length < k) :
    ListsExactly s owner (firstPages s owner k (n + 1)) := by
  rw [length_page hs owner hk] at hshort
  rw [firstPages_eq s owner hk, List.take_of_length_le]
  · exact listsExactly_all hs owner
  · rw [Nat.succ_mul]
    omega

/-- Some page is short. -/
theorem exists_short (hs : s.Consistent H) (owner : AccountId) {k : Nat} (hpos : 1 ≤ k) (hk : k ≤ 500) :
    ∃ n, (listUserSecrets s owner (some (n * k)) (some k)).length < k := by
  refine ⟨(secretKeys s owner).length, ?_⟩
  rw [length_page hs owner hk]
  have hle : (secretKeys s owner).length ≤ (secretKeys s owner).length * k := Nat.le_mul_of_pos_right _ hpos
  omega

end Pages

/-- **The index is exact, and so are its pages.** In every world a history reaches: a key is in the index of
    an account exactly when it is stored with that owner, no account has an empty index, bindings belong to
    stored secrets, and every key is in its one spelling. An account that reads its secrets in pages of `k`,
    from the first until one comes back short, has then read every secret it owns, once, and nothing else. -/
theorem secrets_indexed_and_paged {H : Host} {owner : AccountId} {operator : Option AccountId}
    {standard version : Option String} {tr : List Step} {w : World}
    (h : World.History H owner operator standard version tr w) :
    (∀ account key, Index.Lists w.contract.userSecretsIndex account key ↔
      key.owner = account ∧ key ∈ w.contract.secretsStorage) ∧
    Index.NoEmpty w.contract.userSecretsIndex ∧
    (∀ key, key ∈ w.contract.secretVaultBindings → key ∈ w.contract.secretsStorage) ∧
    (∀ key, key ∈ w.contract.secretsStorage → canonicalKey H key.accessor key.profile key.owner = key) ∧
    ∀ account k, 1 ≤ k → k ≤ 500 →
      (∃ n, (listUserSecrets w.contract.toSecretStore account (some (n * k)) (some k)).length < k) ∧
      ∀ n, (listUserSecrets w.contract.toSecretStore account (some (n * k)) (some k)).length < k →
        ListsExactly w.contract.toSecretStore account
          (firstPages w.contract.toSecretStore account k (n + 1)) := by
  have hs := consistent_history h
  refine ⟨hs.index, hs.noEmpty, hs.bindings, hs.canonical, ?_⟩
  intro account k hpos hk
  exact ⟨exists_short hs account hpos hk, fun n hshort => listsExactly_of_short hs account hk hshort⟩

/-- A secret of alice for a repository. -/
def aliceStores (profile : String) : Event :=
  callBy aliceAccount (.storeSecrets (.repo "github.com/alice/app" none) profile "c2VjcmV0" .allowAll none)
    (10 ^ 24)

/-- Three secrets in pages of two: a full page and a short one. -/
theorem three_secrets_paged : ∃ tr w, World.History asciiHost ownerAccount none none none tr w ∧
    (listUserSecrets w.contract.toSecretStore aliceAccount (some 0) (some 2)).map (·.profile) = ["a", "b"] ∧
    (listUserSecrets w.contract.toSecretStore aliceAccount (some 2) (some 2)).map (·.profile) = ["c"] ∧
    ListsExactly w.contract.toSecretStore aliceAccount
      (firstPages w.contract.toSecretStore aliceAccount 2 2) := by
  obtain ⟨tr, w, h, hp⟩ := exists_history [aliceStores "a", aliceStores "b", aliceStores "c"]
    (fun x => decide
      ((listUserSecrets x.2.contract.toSecretStore aliceAccount (some 0) (some 2)).map (·.profile) = ["a", "b"] ∧
       (listUserSecrets x.2.contract.toSecretStore aliceAccount (some 2) (some 2)).map (·.profile) = ["c"]))
    (by decide +kernel)
  obtain ⟨hfirst, hsecond⟩ := of_decide_eq_true hp
  refine ⟨tr, w, h, hfirst, hsecond, ?_⟩
  obtain ⟨-, -, -, -, hpages⟩ := secrets_indexed_and_paged h
  refine (hpages aliceAccount 2 (by decide) (by decide)).2 1 ?_
  have hlen := congrArg List.length hsecond
  rw [List.length_map] at hlen
  exact hlen ▸ by decide

end Outlayer
