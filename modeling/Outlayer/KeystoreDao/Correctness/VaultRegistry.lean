import Outlayer.KeystoreDao.Correctness.Quorum

/-!
# `KeystoreDao.Correctness.VaultRegistry` — vaults and versions on the books

A vault is verified or banned, a version is approved and described, and what the first voter said of a version is held
while the version is being voted on. The versions are kept in order by every call. The other two are not: a ban leaves
the vault among those verified, and what a member said of a version stays when that member, alone in voting for it, is
removed. Both are in order in every history that avoids these two calls.
-/

namespace Outlayer
open Checked Collections Runs

namespace KeystoreDao

/-- The books are in order after `tr`. -/
structure InOrder (tr : List Step) (d : KeystoreDao) : Prop where
  apart : ∀ v, ¬ (v ∈ d.verifiedVaults ∧ v ∈ d.bannedVaults)
  marked : ∀ tr₁ t tr₂ v reason, tr = tr₁ ++ t :: tr₂ → t.event.call = .banVault v reason →
    d.isVaultVerified v = true → ∃ u ∈ tr₂, u.event.call = .markVaultVerified v
  versions : ∀ h, h ∈ d.approvedVaultCodeHashes ↔ ∃ info, d.vaultVersions.lookup h = some info
  args : ∀ h args, d.vaultVersionApprovalArgs.lookup h = some args →
    ∃ m ∈ d.daoMembers, m ∈ d.votersOf (.approve h)

/-- Of the members, only `m` is on the record for approving a version. -/
def LoneApprover (d : KeystoreDao) (h : CryptoHash) (m : AccountId) : Prop :=
  m ∈ d.votersOf (.approve h) ∧ ∀ m' ∈ d.daoMembers.elems, m' ≠ m → m' ∉ d.votersOf (.approve h)

instance (d : KeystoreDao) (h : CryptoHash) (m : AccountId) : Decidable (d.LoneApprover h m) :=
  inferInstanceAs (Decidable (_ ∧ _))

/-- No vault is banned that is verified, and nobody is removed who is alone in voting for a version. -/
structure KeepsOrder (t : Step) : Prop where
  ban : ∀ v reason, t.event.call = .banVault v reason → v ∉ t.pre.verifiedVaults
  remove : ∀ m h, t.event.call = .removeDaoMember m → h ∈ t.pre.vaultVersionApprovalArgs → ¬ t.pre.LoneApprover h m

section Steps
variable {current : AccountId} {env : Env} {d d' : KeystoreDao} {call : Call} {o : Outcome}

/-! ## Vaults -/

/-- A vault becomes verified by being marked, and then it is not banned. -/
theorem Move.verified (hmove : Move current env d call d' o) {v : AccountId} (hv : v ∈ d'.verifiedVaults) :
    v ∈ d.verifiedVaults ∨ call = .markVaultVerified v ∧ v ∉ d'.bannedVaults := by
  cases hmove with
  | mark v' notBanned =>
      rcases UnorderedSet.mem_insert.mp hv with rfl | hv
      · exact Or.inr ⟨rfl, notBanned⟩
      · exact Or.inl hv
  | vote id approve p d' o member kind found pending first result =>
      obtain ⟨votesFor, votesAgainst, status, ks, rfl⟩ := result.frame
      exact Or.inl hv
  | voteRevoke id approve p d' o member found pending first result =>
      obtain ⟨votesFor, votesAgainst, status, ks, rfl⟩ := result.frame
      exact Or.inl hv
  | propose ks d₁ d' o o' p member keys pending made first result outcome =>
      obtain ⟨votesFor, votesAgainst, status, ks', rfl⟩ := result.frame
      subst made
      exact Or.inl hv
  | _ => exact Or.inl hv

/-- A vault becomes banned by a ban. -/
theorem Move.banned (hmove : Move current env d call d' o) {v : AccountId} (hv : v ∈ d'.bannedVaults) :
    v ∈ d.bannedVaults ∨ ∃ reason, call = .banVault v reason := by
  cases hmove with
  | ban v' reason =>
      rcases UnorderedSet.mem_insert.mp hv with rfl | hv
      · exact Or.inr ⟨reason, rfl⟩
      · exact Or.inl hv
  | unban v' => exact Or.inl (UnorderedSet.mem_remove.mp hv).2
  | vote id approve p d' o member kind found pending first result =>
      obtain ⟨votesFor, votesAgainst, status, ks, rfl⟩ := result.frame
      exact Or.inl hv
  | voteRevoke id approve p d' o member found pending first result =>
      obtain ⟨votesFor, votesAgainst, status, ks, rfl⟩ := result.frame
      exact Or.inl hv
  | propose ks d₁ d' o o' p member keys pending made first result outcome =>
      obtain ⟨votesFor, votesAgainst, status, ks', rfl⟩ := result.frame
      subst made
      exact Or.inl hv
  | _ => exact Or.inl hv

/-- A call that bans no verified vault keeps the two sets apart. -/
theorem Move.apart (hmove : Move current env d call d' o)
    (hban : ∀ v reason, call = .banVault v reason → v ∉ d.verifiedVaults)
    (hpre : ∀ v, ¬ (v ∈ d.verifiedVaults ∧ v ∈ d.bannedVaults)) (v : AccountId) :
    ¬ (v ∈ d'.verifiedVaults ∧ v ∈ d'.bannedVaults) := by
  rintro ⟨hverified, hbanned⟩
  rcases hmove.verified hverified with hold | ⟨-, hfree⟩
  · rcases hmove.banned hbanned with hwas | ⟨reason, hcall⟩
    · exact hpre v ⟨hold, hwas⟩
    · exact hban v reason hcall hold
  · exact hfree hbanned

/-! ## Versions -/

/-- The versions that are approved are those that are described. -/
def Described (d : KeystoreDao) : Prop :=
  ∀ h, h ∈ d.approvedVaultCodeHashes ↔ ∃ info, d.vaultVersions.lookup h = some info

theorem Move.described (hmove : Move current env d call d' o) (hpre : d.Described) : d'.Described := by
  cases hmove with
  | approve h label url count member args quorum =>
      intro h'
      change h' ∈ d.approvedVaultCodeHashes.insert h ↔ ∃ info, (d.vaultVersions.insert h _).lookup h' = some info
      rw [UnorderedSet.mem_insert, hpre h', LookupMap.lookup_insert_iff]
      by_cases heq : h' = h
      · simp [heq]
      · simp [heq]
  | revoke h count member quorum =>
      intro h'
      change h' ∈ d.approvedVaultCodeHashes.remove h ↔ ∃ info, (d.vaultVersions.erase h).lookup h' = some info
      rw [UnorderedSet.mem_remove, hpre h', LookupMap.lookup_erase_iff]
      by_cases heq : h' = h
      · simp [heq]
      · simp [heq]
  | deprecateVersion h info found =>
      -- rewritten, so still there
      intro h'
      change h' ∈ d.approvedVaultCodeHashes ↔ ∃ info', (d.vaultVersions.insert h _).lookup h' = some info'
      rw [hpre h', LookupMap.lookup_insert_iff]
      by_cases heq : h' = h
      · subst heq
        simp [found]
      · simp [heq]
  | vote id approve p d' o member kind found pending first result =>
      obtain ⟨votesFor, votesAgainst, status, ks, rfl⟩ := result.frame
      exact hpre
  | voteRevoke id approve p d' o member found pending first result =>
      obtain ⟨votesFor, votesAgainst, status, ks, rfl⟩ := result.frame
      exact hpre
  | propose ks d₁ d' o o' p member keys pending made first result outcome =>
      obtain ⟨votesFor, votesAgainst, status, ks', rfl⟩ := result.frame
      subst made
      exact hpre
  | _ => exact hpre

/-! ## What was said of a version -/

/-- What was said of a version is held while some member is on the record for it. -/
def ArgsBacked (d : KeystoreDao) : Prop :=
  ∀ h args, d.vaultVersionApprovalArgs.lookup h = some args → ∃ m ∈ d.daoMembers, m ∈ d.votersOf (.approve h)

/-- The caller is one of the voters. -/
theorem caller_mem_votersWith (action : VaultVersionAction) : env.predecessor ∈ votersWith env d action := by
  unfold votersWith
  dsimp only
  split
  · next hin => exact hin
  · exact List.mem_append_right _ (List.mem_singleton.mpr rfl)

/-- A vote on another action leaves the record of this one. -/
theorem mem_voters_insert {action action' : VaultVersionAction} {voters : List AccountId} {a : AccountId}
    (hne : action' ≠ action) (ha : a ∈ d.votersOf action') :
    a ∈ ((d.vaultVersionVotes.insert action voters).lookup action').getD [] := by
  rw [AList.lookup_insert_ne hne]
  exact ha

theorem mem_voters_erase {action action' : VaultVersionAction} {a : AccountId} (hne : action' ≠ action)
    (ha : a ∈ d.votersOf action') : a ∈ ((d.vaultVersionVotes.erase action).lookup action').getD [] := by
  rw [AList.lookup_erase_ne hne]
  exact ha

/-- A removal leaves a member on the record, when who is removed was not alone. -/
theorem exists_approver_of_remove {h : CryptoHash} {m m₀ : AccountId} (hm₀ : m₀ ∈ d.daoMembers)
    (hvoter : m₀ ∈ d.votersOf (.approve h)) (hlone : ¬ d.LoneApprover h m) :
    ∃ m' ∈ d.daoMembers.remove m, m' ∈ d.votersOf (.approve h) := by
  by_cases heq : m₀ = m
  · subst heq
    by_contra hno
    refine hlone ⟨hvoter, ?_⟩
    intro m' hm' hne hvoter'
    exact hno ⟨m', UnorderedSet.mem_remove.mpr ⟨hne, hm'⟩, hvoter'⟩
  · exact ⟨m₀, UnorderedSet.mem_remove.mpr ⟨heq, hm₀⟩, hvoter⟩

theorem Move.argsBacked (hmove : Move current env d call d' o)
    (hremove : ∀ m h, call = .removeDaoMember m → h ∈ d.vaultVersionApprovalArgs → ¬ d.LoneApprover h m)
    (hpre : d.ArgsBacked) : d'.ArgsBacked := by
  intro h args hargs
  cases hmove with
  | approve h' label url count member args' quorum =>
      change (d.vaultVersionApprovalArgs.erase h').lookup h = some args at hargs
      obtain ⟨hne, hargs⟩ := LookupMap.lookup_of_erase hargs
      have hne' : VaultVersionAction.approve h ≠ .approve h' := fun heq => hne (by cases heq; rfl)
      obtain ⟨m, hm, hvoter⟩ := hpre h args hargs
      exact ⟨m, hm, mem_voters_erase hne' hvoter⟩
  | approveVote h' label url o member args' quiet =>
      by_cases heq : h = h'
      · -- the caller has just voted
        subst heq
        refine ⟨env.predecessor, member, ?_⟩
        unfold votersOf
        rw [AList.lookup_insert]
        exact caller_mem_votersWith _
      · change (d.vaultVersionApprovalArgs.insert h' _).lookup h = some args at hargs
        rw [AList.lookup_insert_ne heq] at hargs
        have hne' : VaultVersionAction.approve h ≠ .approve h' := fun he => heq (by cases he; rfl)
        obtain ⟨m, hm, hvoter⟩ := hpre h args hargs
        exact ⟨m, hm, mem_voters_insert hne' hvoter⟩
  | revoke h' count member quorum =>
      have hne : VaultVersionAction.approve h ≠ .revoke h' := nofun
      obtain ⟨m, hm, hvoter⟩ := hpre h args hargs
      exact ⟨m, hm, mem_voters_erase hne hvoter⟩
  | revokeVote h' o member quiet =>
      have hne : VaultVersionAction.approve h ≠ .revoke h' := nofun
      obtain ⟨m, hm, hvoter⟩ := hpre h args hargs
      exact ⟨m, hm, mem_voters_insert hne hvoter⟩
  | addMember m =>
      obtain ⟨m', hm', hvoter⟩ := hpre h args hargs
      exact ⟨m', UnorderedSet.mem_insert.mpr (Or.inr hm'), hvoter⟩
  | removeMember m left =>
      obtain ⟨m', hm', hvoter⟩ := hpre h args hargs
      have hheld : h ∈ d.vaultVersionApprovalArgs := LookupMap.mem_iff_lookup.mpr ⟨args, hargs⟩
      exact exists_approver_of_remove hm' hvoter (hremove m h rfl hheld)
  | vote id approve p d' o member kind found pending first result =>
      obtain ⟨votesFor, votesAgainst, status, ks, rfl⟩ := result.frame
      exact hpre h args hargs
  | voteRevoke id approve p d' o member found pending first result =>
      obtain ⟨votesFor, votesAgainst, status, ks, rfl⟩ := result.frame
      exact hpre h args hargs
  | propose ks d₁ d' o o' p member keys pending made first result outcome =>
      obtain ⟨votesFor, votesAgainst, status, ks', rfl⟩ := result.frame
      subst made
      exact hpre h args hargs
  | _ => exact hpre h args hargs

end Steps

/-! ## Runs -/

/-- What holds in each state on the way. -/
structure Booked (d : KeystoreDao) : Prop where
  apart : ∀ v, ¬ (v ∈ d.verifiedVaults ∧ v ∈ d.bannedVaults)
  described : d.Described
  backed : d.ArgsBacked

theorem booked_step {A : Attestation} {current : AccountId} {t : Step} (h : Fires (next A current) t)
    (hkeeps : KeepsOrder t) (hpre : t.pre.Booked) : t.post.Booked where
  apart := (step_move h).apart hkeeps.ban hpre.apart
  described := (step_move h).described hpre.described
  backed := (step_move h).argsBacked hkeeps.remove hpre.backed

theorem booked_new {ownerId initAccountId mpcContractId : AccountId} {members : List AccountId} {d : KeystoreDao}
    (h : new ownerId initAccountId members mpcContractId = .ok d) : d.Booked := by
  simp only [new, bind_eq_ok, pure_eq_ok] at h
  obtain ⟨_, -, rfl⟩ := h
  refine ⟨fun v hv => UnorderedSet.not_mem_empty v hv.1, ?_, ?_⟩
  · intro h
    constructor
    · exact fun hin => absurd hin (UnorderedSet.not_mem_empty h)
    · rintro ⟨info, hinfo⟩
      cases hinfo
  · intro h args hargs
    cases hargs

/-- **The registry.** In every history in which no verified vault is banned and nobody is removed who is alone in
    voting for a version, the books are in order. -/
theorem registry_in_order {A : Attestation} {current ownerId initAccountId mpcContractId : AccountId}
    {members : List AccountId} {tr : List Step} {d : KeystoreDao}
    (history : History A current ownerId initAccountId members mpcContractId tr d)
    (calls : ∀ t ∈ tr, KeepsOrder t) : InOrder tr d := by
  obtain ⟨d₀, hnew, hrun⟩ := history
  have hbooked := hrun.invariant_of (I := Booked) (C := KeepsOrder) (booked_new hnew)
    (fun t hf hkeeps hpre => booked_step hf hkeeps hpre) calls
  refine ⟨hbooked.apart, ?_, hbooked.described, hbooked.backed⟩
  rintro tr₁ t tr₂ v reason rfl hcall hverified
  obtain ⟨-, ht, hafter⟩ := hrun.at_split
  have hnow : v ∈ d.verifiedVaults := of_decide_eq_true ((Bool.and_eq_true _ _).mp hverified).1
  -- not verified when it was banned, so it was marked since
  have hthen : v ∉ t.post.verifiedVaults := by
    intro hpost
    rcases (step_move ht).verified hpost with hpre | ⟨hmark, -⟩
    · exact (calls t (by simp)).ban v reason hcall hpre
    · rw [hcall] at hmark
      cases hmark
  obtain ⟨tr₃, u, tr₄, rfl, hno, hyes, -⟩ := hafter.since (Q := fun d => v ∈ d.verifiedVaults) hthen hnow
  obtain ⟨-, hu, -⟩ := hafter.at_split
  rcases (step_move hu).verified hyes with hpre | ⟨hmark, -⟩
  · exact absurd hpre hno
  · exact ⟨u, by simp, hmark⟩

/-! ## The registry of `dao.near` -/

/-- The condition of `KeepsOrder`, for the versions something was said of. -/
def keepsOrder (t : Step) : Bool :=
  match t.event.call with
  | .banVault v _ => decide (v ∉ t.pre.verifiedVaults)
  | .removeDaoMember m => decide (∀ h ∈ t.pre.vaultVersionApprovalArgs.keys, ¬ t.pre.LoneApprover h m)
  | _ => true

theorem keepsOrder_of_test {t : Step} (h : keepsOrder t = true) : KeepsOrder t := by
  unfold keepsOrder at h
  constructor
  · intro v reason hcall
    rw [hcall] at h
    exact of_decide_eq_true h
  · intro m hash hcall hheld
    rw [hcall] at h
    exact of_decide_eq_true h hash (AList.mem_keys.mp hheld)

/-- A vault's account. -/
def vaultA : AccountId := ⟨"vault-a.near", by decide⟩

/-- A version is carried by the two members left of three, and a vault is marked after a ban was lifted. -/
theorem vault_marked_after_ban : ∃ tr d,
    History upToDate daoSelf daoOwner daoInit [memberA, memberB, memberC] daoMpc tr d ∧ (∀ t ∈ tr, KeepsOrder t) ∧
      codeHash ∈ d.approvedVaultCodeHashes ∧ d.isVaultVerified vaultA = true ∧ InOrder tr d := by
  obtain ⟨tr, d, h, hp⟩ := exists_dao_history [memberA, memberB, memberC]
    [sentBy memberA (.approveVaultVersion codeHash "v1.0" none), sentBy daoOwner (.removeDaoMember memberC),
     sentBy memberB (.approveVaultVersion codeHash "v1.0" none), sentBy memberA (.banVault vaultA "race"),
     sentBy memberB (.unbanVault vaultA), sentBy daoSelf (.markVaultVerified vaultA)]
    (fun p => p.1.all keepsOrder &&
      decide (codeHash ∈ p.2.approvedVaultCodeHashes ∧ p.2.isVaultVerified vaultA = true)) (by decide +kernel)
  obtain ⟨htest, hstate⟩ := (Bool.and_eq_true _ _).mp hp
  obtain ⟨happroved, hverified⟩ := of_decide_eq_true hstate
  have calls : ∀ t ∈ tr, KeepsOrder t := fun t ht => keepsOrder_of_test (List.all_eq_true.mp htest t ht)
  exact ⟨tr, d, h, calls, happroved, hverified, registry_in_order h calls⟩

/-- A vault that is marked and then banned is in both sets, and counts as verified when the ban is lifted. What a
    member said of a version binds the others when that member is gone: they cannot say something else. -/
theorem registry_not_in_order :
    (∃ tr d, History upToDate daoSelf daoOwner daoInit [memberA] daoMpc tr d ∧
      vaultA ∈ d.verifiedVaults ∧ vaultA ∈ d.bannedVaults ∧ ¬ InOrder tr d ∧
      ∃ d' o, next upToDate daoSelf d (sentBy memberA (.unbanVault vaultA)) = some (d', o) ∧
        d'.isVaultVerified vaultA = true) ∧
    ∃ tr d, History upToDate daoSelf daoOwner daoInit [memberA, memberB, memberC] daoMpc tr d ∧
      d.votersOf (.approve codeHash) = [memberA] ∧ memberA ∉ d.daoMembers ∧
      next upToDate daoSelf d (sentBy memberB (.approveVaultVersion codeHash "v2.0" none)) = none ∧
      ¬ InOrder tr d := by
  constructor
  · obtain ⟨tr, d, h, hp⟩ := exists_dao_history [memberA]
      [sentBy daoSelf (.markVaultVerified vaultA), sentBy memberA (.banVault vaultA "race")]
      (fun p => decide (vaultA ∈ p.2.verifiedVaults ∧ vaultA ∈ p.2.bannedVaults) &&
        (next upToDate daoSelf p.2 (sentBy memberA (.unbanVault vaultA))).any fun r => r.1.isVaultVerified vaultA)
      (by decide +kernel)
    obtain ⟨hboth, hlifted⟩ := (Bool.and_eq_true _ _).mp hp
    obtain ⟨hverified, hbanned⟩ := of_decide_eq_true hboth
    obtain ⟨⟨d', o⟩, hnext, hagain⟩ := (Option.any_eq_true _ _).mp hlifted
    exact ⟨tr, d, h, hverified, hbanned, fun hin => hin.apart vaultA ⟨hverified, hbanned⟩, d', o, hnext, hagain⟩
  · obtain ⟨tr, d, h, hp⟩ := exists_dao_history [memberA, memberB, memberC]
      [sentBy memberA (.approveVaultVersion codeHash "v1.0" none), sentBy daoOwner (.removeDaoMember memberA)]
      (fun p => decide (p.2.votersOf (.approve codeHash) = [memberA] ∧ memberA ∉ p.2.daoMembers ∧
          p.2.vaultVersionApprovalArgs.lookup codeHash = some ⟨"v1.0", none⟩) &&
        (next upToDate daoSelf p.2 (sentBy memberB (.approveVaultVersion codeHash "v2.0" none))).isNone)
      (by decide +kernel)
    obtain ⟨hstate, hrefused⟩ := (Bool.and_eq_true _ _).mp hp
    obtain ⟨hvoters, hgone, hargs⟩ := of_decide_eq_true hstate
    refine ⟨tr, d, h, hvoters, hgone, Option.isNone_iff_eq_none.mp hrefused, ?_⟩
    intro hin
    obtain ⟨m, hm, hvoter⟩ := hin.args codeHash _ hargs
    rw [hvoters] at hvoter
    rw [List.mem_singleton.mp hvoter] at hm
    exact hgone hm

end KeystoreDao

end Outlayer
