import Outlayer.KeystoreDao.Steps

/-!
# `KeystoreDao.Correctness.Ballots` — proposals and the votes on them

Both kinds of proposals take their ids from one counter, and the votes are kept by id and member and never dropped.
So what an id stands for does not change, and a vote that is on record was cast on just that proposal.
-/

namespace Outlayer
open Checked Collections Runs

namespace KeystoreDao

/-! ## Ids -/

/-- What has an id has one the counter gave out, and no id stands for two proposals. -/
structure Ids (d : KeystoreDao) : Prop where
  proposals : LookupMap.All (fun id _ => id < d.nextProposalId) d.proposals
  revocations : LookupMap.All (fun id _ => id < d.nextProposalId) d.revokeProposals
  votes : LookupMap.All (fun vote _ => vote.1 < d.nextProposalId) d.votes
  apart : ∀ id, d.proposals.lookup id = none ∨ d.revokeProposals.lookup id = none

section Updates
variable {d : KeystoreDao} {env : Env} {id : Nat} {approve : Bool}

/-- The next id stands for nothing yet. -/
theorem Ids.fresh (h : d.Ids) :
    d.proposals.lookup d.nextProposalId = none ∧ d.revokeProposals.lookup d.nextProposalId = none ∧
      ∀ a, d.votes.lookup (d.nextProposalId, a) = none := by
  refine ⟨?_, ?_, ?_⟩
  · by_contra hp
    obtain ⟨p, hp⟩ := Option.ne_none_iff_exists'.mp hp
    exact absurd (h.proposals _ p hp) (Nat.lt_irrefl _)
  · by_contra hp
    obtain ⟨p, hp⟩ := Option.ne_none_iff_exists'.mp hp
    exact absurd (h.revocations _ p hp) (Nat.lt_irrefl _)
  · intro a
    by_contra hv
    obtain ⟨b, hv⟩ := Option.ne_none_iff_exists'.mp hv
    exact absurd (h.votes _ b hv) (Nat.lt_irrefl _)

/-- A proposal is rewritten, or put on the record under an id of its own, and nothing else is known under that id. -/
theorem apart_insert {V W : Type} {m : LookupMap Nat V} {m' : LookupMap Nat W}
    (h : ∀ id, m.lookup id = none ∨ m'.lookup id = none) {id : Nat} (hother : m'.lookup id = none) (v : V) :
    ∀ id', (m.insert id v).lookup id' = none ∨ m'.lookup id' = none := by
  intro id'
  rw [LookupMap.lookup_insert_iff]
  split
  · next heq =>
      rw [heq]
      exact Or.inr hother
  · exact h id'

/-- A vote on a registration keeps the ids in order. -/
theorem Ids.vote (h : d.Ids) {p : KeystoreProposal} (found : d.proposals.lookup id = some p)
    (kind : d.revokeProposals.lookup id = none) (q : KeystoreProposal) (ks : UnorderedSet KeystoreKey) :
    Ids { withVote env d id approve with proposals := d.proposals.insert id q, approvedKeystores := ks } where
  proposals := h.proposals.insert (h.proposals id p found)
  revocations := h.revocations
  votes := h.votes.insert (h.proposals id p found)
  apart := apart_insert h.apart kind q

/-- A vote on a revocation keeps the ids in order. -/
theorem Ids.voteRevoke (h : d.Ids) (hid : id < d.nextProposalId) (kind : d.proposals.lookup id = none)
    (q : RevokeKeysProposal) (ks : UnorderedSet KeystoreKey) :
    Ids { withVote env d id approve with
          approvedKeystores := ks, revokeProposals := d.revokeProposals.insert id q } where
  proposals := h.proposals
  revocations := h.revocations.insert hid
  votes := h.votes.insert hid
  apart := fun id' => (apart_insert (fun id => (h.apart id).symm) kind q id').symm

/-- The state in which a revocation is put on the record, before the proposer's vote. -/
theorem Ids.propose (h : d.Ids) (p : RevokeKeysProposal) :
    Ids { d with nextProposalId := d.nextProposalId + 1
                 revokeProposals := d.revokeProposals.insert d.nextProposalId p } where
  proposals := h.proposals.mono fun _ _ hlt => Nat.lt_succ_of_lt hlt
  revocations := (h.revocations.mono fun _ _ hlt => Nat.lt_succ_of_lt hlt).insert (Nat.lt_succ_self _)
  votes := h.votes.mono fun _ _ hlt => Nat.lt_succ_of_lt hlt
  apart := fun id' => (apart_insert (fun id => (h.apart id).symm) h.fresh.1 p id').symm

/-- The state in which a registration is put on the record. -/
theorem Ids.submit (h : d.Ids) (p : KeystoreProposal) :
    Ids { d with proposals := d.proposals.insert d.nextProposalId p
                 nextProposalId := d.nextProposalId + 1 } where
  proposals := (h.proposals.mono fun _ _ hlt => Nat.lt_succ_of_lt hlt).insert (Nat.lt_succ_self _)
  revocations := h.revocations.mono fun _ _ hlt => Nat.lt_succ_of_lt hlt
  votes := h.votes.mono fun _ _ hlt => Nat.lt_succ_of_lt hlt
  apart := apart_insert h.apart h.fresh.2.1 p

end Updates

theorem Move.ids {current : AccountId} {env : Env} {d d' : KeystoreDao} {call : Call} {o : Outcome}
    (h : Move current env d call d' o) (hids : d.Ids) : d'.Ids := by
  cases h with
  | submit k quote appId m o fresh quiet => exact hids.submit _
  | vote id approve p d' o member kind found pending first result =>
      obtain ⟨votesFor, votesAgainst, status, ks, rfl⟩ := result.frame
      exact hids.vote found kind _ ks
  | voteRevoke id approve p d' o member found pending first result =>
      obtain ⟨votesFor, votesAgainst, status, ks, rfl⟩ := result.frame
      have hkind : d.proposals.lookup id = none :=
        (hids.apart id).resolve_right fun hnone => absurd (hnone.symm.trans found) nofun
      exact hids.voteRevoke (hids.revocations id p found) hkind _ ks
  | propose ks d₁ d' o o' p member keys pending made first result outcome =>
      obtain ⟨votesFor, votesAgainst, status, ks', rfl⟩ := result.frame
      subst made
      exact (hids.propose p).voteRevoke (Nat.lt_succ_self _) hids.fresh.1 _ ks'
  | _ => exact ⟨hids.proposals, hids.revocations, hids.votes, hids.apart⟩

theorem ids_step {A : Attestation} {current : AccountId} {t : Step} (h : Fires (next A current) t)
    (hids : t.pre.Ids) : t.post.Ids := (step_move h).ids hids

theorem ids_new {ownerId initAccountId mpcContractId : AccountId} {members : List AccountId} {d : KeystoreDao}
    (h : new ownerId initAccountId members mpcContractId = .ok d) : d.Ids := by
  simp only [new, bind_eq_ok, pure_eq_ok] at h
  obtain ⟨_, -, rfl⟩ := h
  exact ⟨LookupMap.all_empty, LookupMap.all_empty, LookupMap.all_empty, fun _ => Or.inl rfl⟩

/-! ## What an id stands for -/

/-- The key a proposal would register. -/
def registers (d : KeystoreDao) (id : Nat) : Option KeystoreKey := (d.proposals.lookup id).map (·.publicKey)

/-- The keys a proposal would revoke. -/
def revokes (d : KeystoreDao) (id : Nat) : Option (List KeystoreKey) := (d.revokeProposals.lookup id).map (·.publicKeys)

section Subjects
variable {A : Attestation} {current : AccountId} {env : Env} {d d' : KeystoreDao} {call : Call} {o : Outcome} {id : Nat}

/-- Writing a proposal about `v` under an id that stood for `v`, or for nothing, keeps what every id stands for. -/
theorem map_lookup_insert {V W : Type} {f : V → W} {m : LookupMap Nat V} {v : V} {w : W} {id' : Nat}
    (hsame : m.lookup id' = none ∨ (m.lookup id').map f = some (f v)) (h : (m.lookup id).map f = some w) :
    ((m.insert id' v).lookup id).map f = some w := by
  rw [LookupMap.lookup_insert_iff]
  split
  · next heq =>
      subst heq
      rcases hsame with hnone | hsame
      · rw [hnone] at h
        cases h
      · rw [← h, hsame]
        rfl
  · exact h

/-- The key an id stands for does not change. -/
theorem Move.registers (h : Move current env d call d' o) (hids : d.Ids) {k : KeystoreKey}
    (hk : d.registers id = some k) : d'.registers id = some k := by
  cases h with
  | submit k' quote appId m o fresh quiet => exact map_lookup_insert (Or.inl hids.fresh.1) hk
  | vote id' approve p d' o member kind found pending first result =>
      obtain ⟨votesFor, votesAgainst, status, ks, rfl⟩ := result.frame
      exact map_lookup_insert (Or.inr (congrArg _ found)) hk
  | voteRevoke id' approve p d' o member found pending first result =>
      obtain ⟨votesFor, votesAgainst, status, ks, rfl⟩ := result.frame
      exact hk
  | propose ks d₁ d' o o' p member keys pending made first result outcome =>
      obtain ⟨votesFor, votesAgainst, status, ks', rfl⟩ := result.frame
      subst made
      exact hk
  | _ => exact hk

/-- The keys an id stands for do not change. -/
theorem Move.revokes (h : Move current env d call d' o) (hids : d.Ids) {ks : List KeystoreKey}
    (hks : d.revokes id = some ks) : d'.revokes id = some ks := by
  cases h with
  | vote id' approve p d' o member kind found pending first result =>
      obtain ⟨votesFor, votesAgainst, status, ks', rfl⟩ := result.frame
      exact hks
  | voteRevoke id' approve p d' o member found pending first result =>
      obtain ⟨votesFor, votesAgainst, status, ks', rfl⟩ := result.frame
      exact map_lookup_insert (Or.inr (congrArg _ found)) hks
  | propose ks' d₁ d' o o' p member keys pending made first result outcome =>
      obtain ⟨votesFor, votesAgainst, status, ks'', rfl⟩ := result.frame
      subst made
      refine map_lookup_insert (Or.inr ?_) (map_lookup_insert (Or.inl hids.fresh.2.1) hks)
      rw [AList.lookup_insert]
      rfl
  | _ => exact hks

theorem registers_run {tr : List Step} (h : Run (next A current) d tr d') (hids : d.Ids) {k : KeystoreKey}
    (hk : d.registers id = some k) : d'.registers id = some k :=
  (h.invariant (I := fun d => d.Ids ∧ d.registers id = some k) ⟨hids, hk⟩
    (fun _ hf hpre => ⟨ids_step hf hpre.1, (step_move hf).registers hpre.1 hpre.2⟩)).2

theorem revokes_run {tr : List Step} (h : Run (next A current) d tr d') (hids : d.Ids) {ks : List KeystoreKey}
    (hks : d.revokes id = some ks) : d'.revokes id = some ks :=
  (h.invariant (I := fun d => d.Ids ∧ d.revokes id = some ks) ⟨hids, hks⟩
    (fun _ hf hpre => ⟨ids_step hf hpre.1, (step_move hf).revokes hpre.1 hpre.2⟩)).2

/-! ## Votes -/

/-- A vote on the record after this one was there before, or is this one. -/
theorem withVote_lookup {approve : Bool} {id' : Nat} {a : AccountId} {b : Bool}
    (h : (withVote env d id approve).votes.lookup (id', a) = some b) :
    d.votes.lookup (id', a) = some b ∨ id' = id ∧ a = env.predecessor ∧ b = approve := by
  change (d.votes.insert (id, env.predecessor) approve).lookup (id', a) = some b at h
  rw [LookupMap.lookup_insert_iff] at h
  split at h
  · next heq =>
      obtain ⟨hid, ha⟩ := Prod.mk.inj heq
      exact Or.inr ⟨hid, ha, (Option.some.inj h).symm⟩
  · exact Or.inl h

/-- A vote on the record was there before the call, or the call casts it: a vote on a registration or a revocation, or
    the proposal of a revocation. -/
theorem Move.cast (h : Move current env d call d' o) {a : AccountId} {b : Bool}
    (hpost : d'.votes.lookup (id, a) = some b) :
    d.votes.lookup (id, a) = some b ∨ env.predecessor = a ∧
      ((call = .vote id b ∧ ((∃ k, d.registers id = some k) ∧ d.revokes id = none ∨ ∃ ks, d.revokes id = some ks)) ∨
        b = true ∧ ∃ ks, call = .proposeRevokeKeystoreKeys ks ∧ id = d.nextProposalId ∧ d'.revokes id = some ks) := by
  cases h with
  | vote id' approve p d' o member kind found pending first result =>
      obtain ⟨votesFor, votesAgainst, status, ks, rfl⟩ := result.frame
      rcases withVote_lookup hpost with hpre | ⟨rfl, rfl, rfl⟩
      · exact Or.inl hpre
      · exact Or.inr ⟨rfl, Or.inl ⟨rfl, Or.inl ⟨⟨p.publicKey, congrArg _ found⟩, congrArg _ kind⟩⟩⟩
  | voteRevoke id' approve p d' o member found pending first result =>
      obtain ⟨votesFor, votesAgainst, status, ks, rfl⟩ := result.frame
      rcases withVote_lookup hpost with hpre | ⟨rfl, rfl, rfl⟩
      · exact Or.inl hpre
      · exact Or.inr ⟨rfl, Or.inl ⟨rfl, Or.inr ⟨p.publicKeys, congrArg _ found⟩⟩⟩
  | propose ks d₁ d' o o' p member keys pending made first result outcome =>
      obtain ⟨votesFor, votesAgainst, status, ks', rfl⟩ := result.frame
      rcases withVote_lookup hpost with hpre | ⟨rfl, rfl, rfl⟩
      · subst made
        exact Or.inl hpre
      · refine Or.inr ⟨rfl, Or.inr ⟨rfl, ks, rfl, rfl, ?_⟩⟩
        unfold KeystoreDao.revokes
        rw [AList.lookup_insert, ← keys]
        rfl
  | _ => exact Or.inl hpost

end Subjects

end KeystoreDao

end Outlayer
