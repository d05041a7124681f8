import Outlayer.KeystoreDao.Correctness.Quorum

/-!
# `KeystoreDao.Correctness.RevokedKeys` — a key that was revoked

A keystore makes a new key on every start, and the contract relies on it: a registration is refused for a key that is
approved, not for one that was. Two proposals for one key can be pending, and a key that was revoked can be submitted
again; in both cases a vote brings the key back. It stays away where no vote is cast on a registration of a key that
was revoked before.
-/

namespace Outlayer
open Checked Collections Runs

namespace KeystoreDao

/-- Every key that was revoked is not approved now. -/
def RevokedStay (tr : List Step) (d : KeystoreDao) : Prop :=
  ∀ tr₁ t tr₂ k, tr = tr₁ ++ t :: tr₂ → Log.keystoreKeyRevoked k ∈ t.out.logs → k ∉ d.approvedKeystores

/-- No vote is cast on the registration of a key that was revoked before. -/
def NotVotedAgain (tr : List Step) : Prop :=
  ∀ tr₁ t tr₂ u tr₃ k id approve, tr = tr₁ ++ t :: tr₂ ++ u :: tr₃ → Log.keystoreKeyRevoked k ∈ t.out.logs →
    u.event.call = .vote id approve → u.pre.registers id ≠ some k

section Steps
variable {current : AccountId} {env : Env} {d d' : KeystoreDao} {call : Call} {o : Outcome} {k : KeystoreKey}

theorem RevocationVote.revoked {id : Nat} {approve : Bool} {p : RevokeKeysProposal}
    (h : RevocationVote env d id approve p d' o) (hlog : Log.keystoreKeyRevoked k ∈ o.logs) :
    k ∉ d'.approvedKeystores := by
  cases h with
  | carried votesFor votesAgainst votes approved revoked gone tallied result =>
      obtain ⟨rfl, rfl⟩ := result
      rcases List.mem_append.mp hlog with hlog | hlog
      · obtain ⟨k', hk', heq⟩ := List.mem_map.mp hlog
        cases heq
        intro hin
        exact (mem_revokeKeys.mp hin).2 (mem_of_revoked hk')
      · cases List.mem_singleton.mp hlog
  | rejected votesFor votesAgainst votes tallied => cases List.mem_singleton.mp hlog
  | undecided votesFor votesAgainst votes tallied => cases List.mem_singleton.mp hlog

/-- A call that reports a key as revoked leaves it out of the approved ones. -/
theorem Move.revoked (h : Move current env d call d' o) (hlog : Log.keystoreKeyRevoked k ∈ o.logs) :
    k ∉ d'.approvedKeystores := by
  cases h with
  | submit k' quote appId m o fresh quiet => cases quiet.logs _ hlog
  | vote id approve p d' o member kind found pending first result =>
      cases result with
      | carried votesFor votesAgainst votes tallied =>
          rcases List.mem_cons.mp hlog with hlog | hlog
          · cases hlog
          · cases List.mem_singleton.mp hlog
      | rejected votesFor votesAgainst votes tallied => cases List.mem_singleton.mp hlog
      | undecided votesFor votesAgainst votes tallied => exact absurd hlog List.not_mem_nil
  | voteRevoke id approve p d' o member found pending first result => exact result.revoked hlog
  | propose ks d₁ d' o o' p member keys pending made first result outcome =>
      rw [outcome.1] at hlog
      rcases List.mem_cons.mp hlog with hlog | hlog
      · cases hlog
      · exact result.revoked hlog
  | approveVote h label url o member args quiet => cases quiet.logs _ hlog
  | revokeVote h o member quiet => cases quiet.logs _ hlog
  | other call ms cs ceased o quiet => cases quiet.logs _ hlog
  | _ => cases List.mem_singleton.mp hlog

/-- A key becomes approved by a vote on its registration only. -/
theorem Move.notApproved (h : Move current env d call d' o) (hpre : k ∉ d.approvedKeystores)
    (hvotes : ∀ id approve, call = .vote id approve → d.registers id ≠ some k) : k ∉ d'.approvedKeystores := by
  cases h.keyChange with
  | none same quiet =>
      rw [same]
      exact hpre
  | register id approve k' votes called subject kind tallied keys promises =>
      rw [keys, UnorderedSet.mem_insert]
      rintro (rfl | hin)
      · exact hvotes id approve called subject
      · exact hpre hin
  | revoke id approve ks votes called tallied keys promises =>
      rw [keys, mem_revokeKeys]
      exact fun hin => hpre hin.1

end Steps

/-- **Revoked keys.** In every history in which no vote is cast on the registration of a key that was revoked before,
    a key that was revoked is never approved again. -/
theorem revoked_keys_stay {A : Attestation} {current ownerId initAccountId mpcContractId : AccountId}
    {members : List AccountId} {tr : List Step} {d : KeystoreDao}
    (history : History A current ownerId initAccountId members mpcContractId tr d) (voted : NotVotedAgain tr) :
    RevokedStay tr d := by
  rintro tr₁ t tr₂ k rfl hlog
  obtain ⟨d₀, -, hrun⟩ := history
  obtain ⟨-, ht, hafter⟩ := hrun.at_split
  refine hafter.invariant_of (I := fun d => k ∉ d.approvedKeystores)
    (C := fun u => ∀ id approve, u.event.call = .vote id approve → u.pre.registers id ≠ some k)
    ((step_move ht).revoked hlog) (fun u hf hc hpre => (step_move hf).notApproved hpre hc) ?_
  intro u hu id approve hcall
  obtain ⟨tr₃, tr₄, rfl⟩ := List.append_of_mem hu
  exact voted tr₁ t tr₃ u tr₄ k id approve (by simp) hlog hcall

/-- A vote on a proposal. -/
def Call.isVote : Call → Bool
  | .vote _ _ => true
  | _         => false

/-- The log of a key's revocation. -/
def Log.isKeyRevoked : Log → Bool
  | .keystoreKeyRevoked _ => true
  | _                     => false

/-- A test that is enough: no vote at all after a key was revoked. -/
def noVoteAfterRevoked : List Step → Bool
  | []      => true
  | t :: ts =>
      (!t.out.logs.any Log.isKeyRevoked || ts.all fun u => !u.event.call.isVote) && noVoteAfterRevoked ts

theorem noVoteAfterRevoked_append {tr tr' : List Step} (hquiet : ∀ t ∈ tr, t.out.Quiet)
    (h : noVoteAfterRevoked tr' = true) : noVoteAfterRevoked (tr ++ tr') = true := by
  induction tr with
  | nil => exact h
  | cons t ts ih =>
      have hrest := ih fun u hu => hquiet u (List.mem_cons_of_mem t hu)
      have hnone : t.out.logs.any Log.isKeyRevoked = false := by
        refine List.any_eq_false.mpr fun l hl hrevoked => ?_
        have hline := (hquiet t List.mem_cons_self).logs l hl
        cases l with
        | keystoreKeyRevoked k => cases hline
        | _ => cases hrevoked
      simp [noVoteAfterRevoked, hnone, hrest]

theorem notVotedAgain_of_test {tr : List Step} (h : noVoteAfterRevoked tr = true) : NotVotedAgain tr := by
  induction tr with
  | nil =>
      intro tr₁ t tr₂ u tr₃ k id approve hsplit
      simp at hsplit
  | cons v vs ih =>
      simp only [noVoteAfterRevoked, Bool.and_eq_true, Bool.or_eq_true, Bool.not_eq_true', List.all_eq_true] at h
      obtain ⟨hfirst, hrest⟩ := h
      intro tr₁ t tr₂ u tr₃ k id approve hsplit hlog hcall
      cases tr₁ with
      | nil =>
          rw [List.nil_append, List.cons_append] at hsplit
          injection hsplit with hv hvs
          subst hv
          rcases hfirst with hnone | hall
          · have hany : v.out.logs.any Log.isKeyRevoked = true := List.any_eq_true.mpr ⟨_, hlog, rfl⟩
            rw [hnone] at hany
            cases hany
          · have hvote := hall u (by rw [hvs]; simp)
            rw [hcall] at hvote
            cases hvote
      | cons v' tr₁ =>
          rw [List.cons_append, List.cons_append] at hsplit
          injection hsplit with _ hvs
          exact ih hrest tr₁ t tr₂ u tr₃ k id approve hvs hlog hcall

/-- A key is registered and revoked, and that is the end of it. -/
theorem revoked_key_stays_away : ∃ tr d,
    History upToDate daoSelf daoOwner daoInit [memberA] daoMpc tr d ∧ NotVotedAgain tr ∧
      (∃ t ∈ tr, Log.keystoreKeyRevoked (.ed25519 keystoreKey) ∈ t.out.logs) ∧ RevokedStay tr d := by
  obtain ⟨tr, tr', d, h, hsetUp, hp⟩ := exists_ready_history [memberA]
    [submission, sentBy memberA (.vote 1 true), sentBy memberA (.proposeRevokeKeystoreKeys [.ed25519 keystoreKey])]
    (fun p => noVoteAfterRevoked p.1 &&
      decide (∃ t ∈ p.1, Log.keystoreKeyRevoked (.ed25519 keystoreKey) ∈ t.out.logs)) (by decide +kernel)
  obtain ⟨htest, hrevoked⟩ := (Bool.and_eq_true _ _).mp hp
  have voted := notVotedAgain_of_test (noVoteAfterRevoked_append (fun t ht => (hsetUp t ht).2) htest)
  obtain ⟨t, ht, hlog⟩ := of_decide_eq_true hrevoked
  exact ⟨tr ++ tr', d, h, voted, ⟨t, List.mem_append_right tr ht, hlog⟩, revoked_keys_stay h voted⟩

/-- A key was revoked, and is approved. -/
def broughtBack (k : KeystoreKey) (tr : List Step) (d : KeystoreDao) : Bool :=
  decide (∃ t ∈ tr, Log.keystoreKeyRevoked k ∈ t.out.logs) && decide (k ∈ d.approvedKeystores)

theorem not_stay_of_broughtBack {k : KeystoreKey} {tr tr' : List Step} {d : KeystoreDao}
    (h : broughtBack k tr' d = true) : ¬ RevokedStay (tr ++ tr') d := by
  obtain ⟨hrevoked, happroved⟩ := (Bool.and_eq_true _ _).mp h
  obtain ⟨t, ht, hlog⟩ := of_decide_eq_true hrevoked
  intro hstay
  obtain ⟨tr₁, tr₂, hsplit⟩ := List.append_of_mem (List.mem_append_right tr ht)
  exact hstay tr₁ t tr₂ k hsplit hlog (of_decide_eq_true happroved)

/-- A key submitted twice is registered, revoked, and registered again by the proposal that was pending; and a key
    that was revoked is submitted and registered again. -/
theorem revoked_key_comes_back :
    (∃ tr d, History upToDate daoSelf daoOwner daoInit [memberA] daoMpc tr d ∧ ¬ RevokedStay tr d) ∧
    ∃ tr d, History upToDate daoSelf daoOwner daoInit [memberA] daoMpc tr d ∧ ¬ RevokedStay tr d := by
  constructor
  · obtain ⟨tr, tr', d, h, -, hp⟩ := exists_ready_history [memberA]
      [submission, submission, sentBy memberA (.vote 1 true),
       sentBy memberA (.proposeRevokeKeystoreKeys [.ed25519 keystoreKey]), sentBy memberA (.vote 2 true)]
      (fun p => broughtBack (.ed25519 keystoreKey) p.1 p.2) (by decide +kernel)
    exact ⟨tr ++ tr', d, h, not_stay_of_broughtBack hp⟩
  · obtain ⟨tr, tr', d, h, -, hp⟩ := exists_ready_history [memberA]
      [submission, sentBy memberA (.vote 1 true),
       sentBy memberA (.proposeRevokeKeystoreKeys [.ed25519 keystoreKey]), submission, sentBy memberA (.vote 3 true)]
      (fun p => broughtBack (.ed25519 keystoreKey) p.1 p.2) (by decide +kernel)
    exact ⟨tr ++ tr', d, h, not_stay_of_broughtBack hp⟩

end KeystoreDao

end Outlayer
