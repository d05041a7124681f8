import Outlayer.KeystoreDao.Correctness.Ballots
import Outlayer.KeystoreDao.Correctness.Threshold

/-!
# `KeystoreDao.Correctness.Quorum` — nothing is carried without a quorum

Votes stay on the record while members come and go and the threshold moves with them. Whenever a keystore is
registered, keys are revoked, or a version is approved or revoked, there are at least as many distinct members at
that moment as the threshold asks for, each of whom called for just that: the same proposal, about the same keys; the
same hash, under the same label, and since the last time that hash was decided.
-/

namespace Outlayer
open Checked Collections Runs

namespace KeystoreDao

/-! ## What is put to the vote -/

/-- What the members of the DAO vote on. -/
inductive Subject
  | register (id : Nat) (key : KeystoreKey)
  | revokeKeys (id : Nat) (keys : List KeystoreKey)
  | approve (hash : CryptoHash) (args : ApprovalArgs)
  | revoke (hash : CryptoHash)

/-- `a` calls for `s` at step `u`. -/
inductive Step.Casts (u : Step) (a : AccountId) : Subject → Prop
  | register (id : Nat) (k : KeystoreKey) (caller : u.event.env.predecessor = a) (call : u.event.call = .vote id true)
      (subject : u.pre.registers id = some k) (kind : u.pre.revokes id = none) : Casts u a (.register id k)
  | revokeKeys (id : Nat) (ks : List KeystoreKey) (caller : u.event.env.predecessor = a)
      (call : u.event.call = .vote id true) (subject : u.pre.revokes id = some ks) : Casts u a (.revokeKeys id ks)
  | propose (ks : List KeystoreKey) (caller : u.event.env.predecessor = a)
      (call : u.event.call = .proposeRevokeKeystoreKeys ks) : Casts u a (.revokeKeys u.pre.nextProposalId ks)
  | approve (h : CryptoHash) (args : ApprovalArgs) (caller : u.event.env.predecessor = a)
      (call : u.event.call = .approveVaultVersion h args.label args.auditUrl) : Casts u a (.approve h args)
  | revoke (h : CryptoHash) (caller : u.event.env.predecessor = a) (call : u.event.call = .revokeVaultVersion h) :
      Casts u a (.revoke h)

/-- The line says that the hash was decided on, so that earlier votes are spent. An id is decided on once. -/
def Subject.closedBy : Subject → Log → Bool
  | .approve h _, .versionApproved h' => decide (h = h')
  | .revoke h, .versionRevoked h'     => decide (h = h')
  | _, _                              => false

/-- `a` called for `s`, at step `t` or at one of the steps before, and `s` was not decided on since. -/
def Voted (tr : List Step) (t : Step) (a : AccountId) (s : Subject) : Prop :=
  Step.Casts t a s ∨
    ∃ tr₁ u tr₂, tr = tr₁ ++ u :: tr₂ ∧ Step.Casts u a s ∧ ∀ v ∈ tr₂, ∀ l ∈ v.out.logs, s.closedBy l = false

/-- As many distinct members as the threshold asks for have called for `s`. -/
def Carried (tr : List Step) (t : Step) (s : Subject) : Prop :=
  ∃ voters : List AccountId, voters.Nodup ∧ t.pre.approvalThreshold ≤ voters.length ∧
    ∀ a ∈ voters, a ∈ t.pre.daoMembers ∧ Voted tr t a s

/-- What a step decides, it decides by a quorum. -/
structure QuorumKept (tr : List Step) (t : Step) : Prop where
  registered : ∀ k, k ∈ t.post.approvedKeystores ∧ k ∉ t.pre.approvedKeystores ∨
      (∃ methods, Promise.addAccessKey k methods ∈ t.out.promises) → ∃ id, Carried tr t (.register id k)
  revokedKeys : ∀ k, k ∈ t.pre.approvedKeystores ∧ k ∉ t.post.approvedKeystores ∨
      Promise.deleteKey k ∈ t.out.promises → ∃ id ks, k ∈ ks ∧ Carried tr t (.revokeKeys id ks)
  approved : ∀ h, h ∈ t.post.approvedVaultCodeHashes ∧ h ∉ t.pre.approvedVaultCodeHashes ∨
      Log.versionApproved h ∈ t.out.logs →
    ∃ info, t.post.vaultVersions.lookup h = some info ∧ Carried tr t (.approve h ⟨info.label, info.auditUrl⟩)
  revoked : ∀ h, h ∈ t.pre.approvedVaultCodeHashes ∧ h ∉ t.post.approvedVaultCodeHashes ∨
      Log.versionRevoked h ∈ t.out.logs → Carried tr t (.revoke h)

/-! ## Votes on proposals -/

section Proposals
variable {A : Attestation} {current : AccountId} {d₀ d : KeystoreDao} {tr : List Step} {id : Nat} {a : AccountId}

/-- A vote on the record was cast by its member on just that proposal. -/
theorem cast_of_vote (hrun : Run (next A current) d₀ tr d) (hids : d₀.Ids) (hempty : d₀.votes = ∅)
    (hvote : d.votes.lookup (id, a) = some true) :
    ∃ tr₁ u tr₂, tr = tr₁ ++ u :: tr₂ ∧
      ((∃ k, Step.Casts u a (.register id k) ∧ d.registers id = some k) ∨
        ∃ ks, Step.Casts u a (.revokeKeys id ks) ∧ d.revokes id = some ks) := by
  have hstart : ¬ d₀.votes.lookup (id, a) = some true := by
    rw [hempty]
    nofun
  obtain ⟨tr₁, u, tr₂, rfl, hno, hyes, -⟩ :=
    hrun.since (Q := fun d => d.votes.lookup (id, a) = some true) hstart hvote
  obtain ⟨hbefore, hu, hafter⟩ := hrun.at_split
  have hids : u.pre.Ids := hbefore.invariant hids (fun _ hf => ids_step hf)
  have hmove := step_move hu
  refine ⟨tr₁, u, tr₂, rfl, ?_⟩
  rcases (hmove.cast hyes).resolve_left hno with
    ⟨hcaller, ⟨hcall, ⟨⟨k, hk⟩, hkind⟩ | ⟨ks, hks⟩⟩ | ⟨-, ks, hcall, rfl, hks⟩⟩
  · refine Or.inl ⟨k, .register id k hcaller hcall hk hkind, ?_⟩
    exact registers_run hafter (hmove.ids hids) (hmove.registers hids hk)
  · refine Or.inr ⟨ks, .revokeKeys id ks hcaller hcall hks, ?_⟩
    exact revokes_run hafter (hmove.ids hids) (hmove.revokes hids hks)
  · refine Or.inr ⟨ks, .propose ks hcaller hcall, ?_⟩
    exact revokes_run hafter (hmove.ids hids) hks

/-- A tally that carries counts distinct members, each with a vote on the record or casting it now. -/
theorem quorum_of_tally {env : Env} {approve : Bool} {votes : Nat}
    (h : tally (withVote env d id approve) id = .ok (.carried votes)) :
    ∃ voters : List AccountId, voters.Nodup ∧ d.approvalThreshold ≤ voters.length ∧
      ∀ a ∈ voters, a ∈ d.daoMembers ∧
        (d.votes.lookup (id, a) = some true ∨ env.predecessor = a ∧ approve = true) := by
  refine ⟨d.daoMembers.elems.filter fun m => decide ((withVote env d id approve).votes.lookup (id, m) = some true),
    d.daoMembers.nodup.filter _, ?_, ?_⟩
  · rcases tally_eq_ok h with ⟨hle, -⟩ | ⟨-, -, ⟨-, hr⟩ | ⟨-, hr⟩⟩
    · rw [← List.countP_eq_length_filter]
      exact hle
    · cases hr
    · cases hr
  · intro a ha
    obtain ⟨hmem, hvote⟩ := List.mem_filter.mp ha
    refine ⟨hmem, ?_⟩
    rcases withVote_lookup (of_decide_eq_true hvote) with hpre | ⟨-, hcaller, happrove⟩
    · exact Or.inl hpre
    · exact Or.inr ⟨hcaller.symm, happrove.symm⟩

end Proposals

/-! ## Keys that come and go -/

section Keys
variable {current : AccountId} {env : Env} {d d' : KeystoreDao} {call : Call} {o : Outcome}

/-- What a revocation leaves. -/
theorem mem_revokeKeys {ks : List KeystoreKey} {s : UnorderedSet KeystoreKey} {k : KeystoreKey} :
    k ∈ (revokeKeys s ks).1 ↔ k ∈ s ∧ k ∉ ks := by
  induction ks generalizing s with
  | nil => simp [revokeKeys]
  | cons x xs ih =>
      unfold revokeKeys
      split
      · change k ∈ (revokeKeys (s.remove x) xs).1 ↔ _
        rw [ih, UnorderedSet.mem_remove, List.mem_cons]
        constructor
        · rintro ⟨⟨hne, hs⟩, hxs⟩
          exact ⟨hs, fun hor => hor.elim hne hxs⟩
        · rintro ⟨hs, hnot⟩
          exact ⟨⟨fun he => hnot (Or.inl he), hs⟩, fun hin => hnot (Or.inr hin)⟩
      · next hx =>
          change k ∈ (revokeKeys s xs).1 ↔ _
          rw [ih, List.mem_cons]
          constructor
          · rintro ⟨hs, hxs⟩
            refine ⟨hs, fun hor => hor.elim ?_ hxs⟩
            rintro rfl
            exact hx hs
          · rintro ⟨hs, hnot⟩
            exact ⟨hs, fun hin => hnot (Or.inr hin)⟩

/-- What a revocation revokes is among the keys it names. -/
theorem mem_of_revoked {ks : List KeystoreKey} {s : UnorderedSet KeystoreKey} {k : KeystoreKey}
    (h : k ∈ (revokeKeys s ks).2.1) : k ∈ ks := by
  induction ks generalizing s with
  | nil => cases h
  | cons x xs ih =>
      unfold revokeKeys at h
      split at h
      · rcases List.mem_cons.mp h with rfl | h
        · exact List.mem_cons_self
        · exact List.mem_cons_of_mem _ (ih h)
      · exact List.mem_cons_of_mem _ (ih h)

/-- The keys stay as they are, or a vote carries a registration, or one carries a revocation. -/
inductive KeyChange (env : Env) (d d' : KeystoreDao) (call : Call) (o : Outcome) : Prop
  | none (same : d'.approvedKeystores = d.approvedKeystores) (quiet : ∀ p ∈ o.promises, p.changesKeys = false)
  | register (id : Nat) (approve : Bool) (k : KeystoreKey) (votes : Nat) (called : call = .vote id approve)
      (subject : d.registers id = some k) (kind : d.revokes id = Option.none)
      (tallied : tally (withVote env d id approve) id = .ok (.carried votes))
      (keys : d'.approvedKeystores = d.approvedKeystores.insert k)
      (promises : ∀ p ∈ o.promises, ∃ methods, p = .addAccessKey k methods)
  | revoke (id : Nat) (approve : Bool) (ks : List KeystoreKey) (votes : Nat)
      (called : call = .vote id approve ∧ d.revokes id = some ks ∨
        call = .proposeRevokeKeystoreKeys ks ∧ approve = true ∧ id = d.nextProposalId)
      (tallied : tally (withVote env d id approve) id = .ok (.carried votes))
      (keys : d'.approvedKeystores = (revokeKeys d.approvedKeystores ks).1)
      (promises : o.promises = (revokeKeys d.approvedKeystores ks).2.1.map Promise.deleteKey)

theorem Move.keyChange (h : Move current env d call d' o) : KeyChange env d d' call o := by
  have hnone : ∀ p ∈ ([] : List Promise), p.changesKeys = false := fun p hp => absurd hp List.not_mem_nil
  cases h with
  | submit k quote appId m o fresh quiet => exact .none rfl quiet.promises
  | vote id approve p d' o member kind found pending first result =>
      cases result with
      | carried votesFor votesAgainst votes tallied =>
          refine .register id approve p.publicKey votes rfl (congrArg _ found) (congrArg _ kind) tallied rfl ?_
          intro p' hp'
          exact ⟨_, List.mem_singleton.mp hp'⟩
      | rejected votesFor votesAgainst votes tallied => exact .none rfl hnone
      | undecided votesFor votesAgainst votes tallied => exact .none rfl hnone
  | voteRevoke id approve p d' o member found pending first result =>
      cases result with
      | carried votesFor votesAgainst votes approved revoked gone tallied result =>
          obtain ⟨rfl, rfl⟩ := result
          exact .revoke id approve p.publicKeys votes (Or.inl ⟨rfl, congrArg _ found⟩) tallied rfl rfl
      | rejected votesFor votesAgainst votes tallied => exact .none rfl hnone
      | undecided votesFor votesAgainst votes tallied => exact .none rfl hnone
  | propose ks d₁ d' o o' p member keys pending made first result outcome =>
      subst made keys
      cases result with
      | carried votesFor votesAgainst votes approved revoked gone tallied result =>
          obtain ⟨rfl, rfl⟩ := result
          exact .revoke d.nextProposalId true p.publicKeys votes (Or.inr ⟨rfl, rfl, rfl⟩) tallied rfl outcome.2
      | rejected votesFor votesAgainst votes tallied => exact .none rfl (outcome.2 ▸ hnone)
      | undecided votesFor votesAgainst votes tallied => exact .none rfl (outcome.2 ▸ hnone)
  | approveVote h label url o member args quiet => exact .none rfl quiet.promises
  | revokeVote h o member quiet => exact .none rfl quiet.promises
  | other call ms cs ceased o quiet => exact .none rfl quiet.promises
  | _ => exact .none rfl hnone

end Keys

/-! ## Votes on versions -/

/-- The voters on the record for an action, members still or not. -/
def votersOf (d : KeystoreDao) (action : VaultVersionAction) : List AccountId :=
  (d.vaultVersionVotes.lookup action).getD []

section Versions
variable {current : AccountId} {env : Env} {d d' : KeystoreDao} {call : Call} {o : Outcome} {h : CryptoHash}

theorem mem_votersWith {action : VaultVersionAction} {a : AccountId} (ha : a ∈ votersWith env d action) :
    a ∈ d.votersOf action ∧ a ∈ d.daoMembers ∨ a = env.predecessor := by
  have hfilter : ∀ a ∈ (d.votersOf action).filter fun v => decide (v ∈ d.daoMembers),
      a ∈ d.votersOf action ∧ a ∈ d.daoMembers := by
    intro a ha
    obtain ⟨hvoter, hmember⟩ := List.mem_filter.mp ha
    exact ⟨hvoter, of_decide_eq_true hmember⟩
  unfold votersWith at ha
  dsimp only at ha
  split at ha
  · exact Or.inl (hfilter a ha)
  · rcases List.mem_append.mp ha with ha | ha
    · exact Or.inl (hfilter a ha)
    · exact Or.inr (List.mem_singleton.mp ha)

/-- Nobody is on the record twice. -/
def VotersDistinct (d : KeystoreDao) : Prop := LookupMap.All (fun _ voters => voters.Nodup) d.vaultVersionVotes

theorem VotersDistinct.with (hd : d.VotersDistinct) (action : VaultVersionAction) :
    (votersWith env d action).Nodup := by
  have hvoters : (d.votersOf action).Nodup := by
    unfold votersOf
    cases hlookup : d.vaultVersionVotes.lookup action with
    | none => exact List.nodup_nil
    | some voters => exact hd action voters hlookup
  unfold votersWith
  dsimp only
  split
  · exact hvoters.filter _
  · next hnot =>
      rw [← List.concat_eq_append]
      exact (hvoters.filter _).concat hnot

theorem Move.votersDistinct (hmove : Move current env d call d' o) (hd : d.VotersDistinct) : d'.VotersDistinct := by
  cases hmove with
  | approve h label url count member args quorum => exact LookupMap.All.erase hd _
  | approveVote h label url o member args quiet => exact LookupMap.All.insert hd (hd.with _)
  | revoke h count member quorum => exact LookupMap.All.erase hd _
  | revokeVote h o member quiet => exact LookupMap.All.insert hd (hd.with _)
  | vote id approve p d' o member kind found pending first result =>
      obtain ⟨votesFor, votesAgainst, status, ks, rfl⟩ := result.frame
      exact hd
  | voteRevoke id approve p d' o member found pending first result =>
      obtain ⟨votesFor, votesAgainst, status, ks, rfl⟩ := result.frame
      exact hd
  | propose ks d₁ d' o o' p member keys pending made first result outcome =>
      obtain ⟨votesFor, votesAgainst, status, ks', rfl⟩ := result.frame
      subst made
      exact hd
  | _ => exact hd

theorem votersOf_insert {action action' : VaultVersionAction} {voters : List AccountId} {a : AccountId}
    (ha : a ∈ ((d.vaultVersionVotes.insert action voters).lookup action').getD []) :
    action' = action ∧ a ∈ voters ∨ a ∈ d.votersOf action' := by
  rw [LookupMap.lookup_insert_iff] at ha
  split at ha
  · next heq => exact Or.inl ⟨heq, ha⟩
  · exact Or.inr ha

theorem votersOf_erase {action action' : VaultVersionAction} {a : AccountId}
    (ha : a ∈ ((d.vaultVersionVotes.erase action).lookup action').getD []) :
    action' ≠ action ∧ a ∈ d.votersOf action' := by
  rw [LookupMap.lookup_erase_iff] at ha
  split at ha
  · cases ha
  · next hne => exact ⟨hne, ha⟩

/-- A voter on the record was there before the call, or the call is the vote. -/
theorem Move.voters (hmove : Move current env d call d' o) {action : VaultVersionAction} {a : AccountId}
    (ha : a ∈ d'.votersOf action) :
    a ∈ d.votersOf action ∨ env.predecessor = a ∧
      ((∃ h label url, action = .approve h ∧ call = .approveVaultVersion h label url ∧
          d'.vaultVersionApprovalArgs.lookup h = some ⟨label, url⟩) ∨
        ∃ h, action = .revoke h ∧ call = .revokeVaultVersion h) := by
  cases hmove with
  | approve h label url count member args quorum => exact Or.inl (votersOf_erase ha).2
  | approveVote h label url o member args quiet =>
      rcases votersOf_insert ha with ⟨rfl, hnew⟩ | hold
      · rcases mem_votersWith hnew with ⟨hold, -⟩ | rfl
        · exact Or.inl hold
        · exact Or.inr ⟨rfl, Or.inl ⟨h, label, url, rfl, rfl, AList.lookup_insert _⟩⟩
      · exact Or.inl hold
  | revoke h count member quorum => exact Or.inl (votersOf_erase ha).2
  | revokeVote h o member quiet =>
      rcases votersOf_insert ha with ⟨rfl, hnew⟩ | hold
      · rcases mem_votersWith hnew with ⟨hold, -⟩ | rfl
        · exact Or.inl hold
        · exact Or.inr ⟨rfl, Or.inr ⟨h, rfl, rfl⟩⟩
      · exact Or.inl hold
  | vote id approve p d' o member kind found pending first result =>
      obtain ⟨votesFor, votesAgainst, status, ks, rfl⟩ := result.frame
      exact Or.inl ha
  | voteRevoke id approve p d' o member found pending first result =>
      obtain ⟨votesFor, votesAgainst, status, ks, rfl⟩ := result.frame
      exact Or.inl ha
  | propose ks d₁ d' o o' p member keys pending made first result outcome =>
      obtain ⟨votesFor, votesAgainst, status, ks', rfl⟩ := result.frame
      subst made
      exact Or.inl ha
  | _ => exact Or.inl ha

/-- The arguments of a version stay as they are while somebody is on the record for it. -/
theorem Move.args (hmove : Move current env d call d' o) {args : ApprovalArgs} {a : AccountId}
    (hargs : d.vaultVersionApprovalArgs.lookup h = some args) (ha : a ∈ d'.votersOf (.approve h)) :
    d'.vaultVersionApprovalArgs.lookup h = some args := by
  cases hmove with
  | approve h' label url count member args' quorum =>
      have hne : h ≠ h' := fun heq => (votersOf_erase ha).1 (congrArg _ heq)
      change (d.vaultVersionApprovalArgs.erase h').lookup h = some args
      rw [LookupMap.lookup_erase_iff, if_neg hne]
      exact hargs
  | approveVote h' label url o member args' quiet =>
      change (d.vaultVersionApprovalArgs.insert h' ⟨label, url⟩).lookup h = some args
      rw [LookupMap.lookup_insert_iff]
      split
      · next heq =>
          subst heq
          rw [args' args hargs]
      · exact hargs
  | vote id approve p d' o member kind found pending first result =>
      obtain ⟨votesFor, votesAgainst, status, ks, rfl⟩ := result.frame
      exact hargs
  | voteRevoke id approve p d' o member found pending first result =>
      obtain ⟨votesFor, votesAgainst, status, ks, rfl⟩ := result.frame
      exact hargs
  | propose ks d₁ d' o o' p member keys pending made first result outcome =>
      obtain ⟨votesFor, votesAgainst, status, ks', rfl⟩ := result.frame
      subst made
      exact hargs
  | _ => exact hargs

end Versions

/-! ## Versions that come and go -/

/-- The versions stay as they are, but for a deprecation; or one is approved; or one is revoked. -/
inductive VersionChange (env : Env) (d d' : KeystoreDao) (call : Call) (o : Outcome) : Prop
  | none (same : d'.approvedVaultCodeHashes = d.approvedVaultCodeHashes)
      (quiet : ∀ h, Log.versionApproved h ∉ o.logs ∧ Log.versionRevoked h ∉ o.logs)
  | approve (h : CryptoHash) (label : String) (url : Option String)
      (called : call = .approveVaultVersion h label url) (member : env.predecessor ∈ d.daoMembers)
      (args : ∀ a, d.vaultVersionApprovalArgs.lookup h = some a → a = ⟨label, url⟩)
      (quorum : d.approvalThreshold ≤ (votersWith env d (.approve h)).length)
      (hashes : d'.approvedVaultCodeHashes = d.approvedVaultCodeHashes.insert h)
      (version : d'.vaultVersions.lookup h = some ⟨label, url, false, env.blockTimestamp⟩)
      (spent : d'.votersOf (.approve h) = []) (logs : o.logs = [.versionApproved h])
  | revoke (h : CryptoHash) (called : call = .revokeVaultVersion h) (member : env.predecessor ∈ d.daoMembers)
      (quorum : d.approvalThreshold ≤ (votersWith env d (.revoke h)).length)
      (hashes : d'.approvedVaultCodeHashes = d.approvedVaultCodeHashes.remove h)
      (spent : d'.votersOf (.revoke h) = []) (logs : o.logs = [.versionRevoked h])

theorem quiet_of_logs {logs : List Log} (hlogs : ∀ l ∈ logs, ∀ h, l ≠ .versionApproved h ∧ l ≠ .versionRevoked h) :
    ∀ h, Log.versionApproved h ∉ logs ∧ Log.versionRevoked h ∉ logs := by
  intro h
  constructor
  · intro hin
    exact (hlogs _ hin h).1 rfl
  · intro hin
    exact (hlogs _ hin h).2 rfl

theorem Outcome.Quiet.versions {o : Outcome} (hquiet : o.Quiet) :
    ∀ h, Log.versionApproved h ∉ o.logs ∧ Log.versionRevoked h ∉ o.logs := by
  intro h
  constructor
  · intro hin
    cases hquiet.logs _ hin
  · intro hin
    cases hquiet.logs _ hin

/-- The lines of a vote on a revocation are about keys. -/
theorem RevocationVote.versions {env : Env} {d d' : KeystoreDao} {id : Nat} {approve : Bool} {p : RevokeKeysProposal}
    {o : Outcome} (hvote : RevocationVote env d id approve p d' o) :
    ∀ l ∈ o.logs, ∀ h, l ≠ .versionApproved h ∧ l ≠ .versionRevoked h := by
  cases hvote with
  | carried votesFor votesAgainst votes approved revoked gone tallied result =>
      intro l hl h
      rcases List.mem_append.mp hl with hl | hl
      · obtain ⟨k, -, rfl⟩ := List.mem_map.mp hl
        exact ⟨nofun, nofun⟩
      · obtain rfl := List.mem_singleton.mp hl
        exact ⟨nofun, nofun⟩
  | rejected votesFor votesAgainst votes tallied =>
      intro l hl h
      obtain rfl := List.mem_singleton.mp hl
      exact ⟨nofun, nofun⟩
  | undecided votesFor votesAgainst votes tallied =>
      intro l hl h
      obtain rfl := List.mem_singleton.mp hl
      exact ⟨nofun, nofun⟩

theorem Move.versionChange {current : AccountId} {env : Env} {d d' : KeystoreDao} {call : Call} {o : Outcome}
    (hmove : Move current env d call d' o) : VersionChange env d d' call o := by
  have hline : ∀ l : Log, (∀ h, l ≠ .versionApproved h ∧ l ≠ .versionRevoked h) →
      ∀ h, Log.versionApproved h ∉ [l] ∧ Log.versionRevoked h ∉ [l] := by
    intro l hl
    refine quiet_of_logs ?_
    intro l' hl'
    obtain rfl := List.mem_singleton.mp hl'
    exact hl
  cases hmove with
  | submit k quote appId m o fresh quiet => exact .none rfl quiet.versions
  | vote id approve p d' o member kind found pending first result =>
      cases result with
      | carried votesFor votesAgainst votes tallied =>
          refine .none rfl (quiet_of_logs ?_)
          intro l hl h
          rcases List.mem_cons.mp hl with rfl | hl
          · exact ⟨nofun, nofun⟩
          · obtain rfl := List.mem_singleton.mp hl
            exact ⟨nofun, nofun⟩
      | rejected votesFor votesAgainst votes tallied => exact .none rfl (hline _ fun h => ⟨nofun, nofun⟩)
      | undecided votesFor votesAgainst votes tallied =>
          exact .none rfl (fun h => ⟨List.not_mem_nil, List.not_mem_nil⟩)
  | voteRevoke id approve p d' o member found pending first result =>
      have hquiet := result.versions
      obtain ⟨votesFor, votesAgainst, status, ks, rfl⟩ := result.frame
      exact .none rfl (quiet_of_logs hquiet)
  | propose ks d₁ d' o o' p member keys pending made first result outcome =>
      have hquiet := result.versions
      obtain ⟨votesFor, votesAgainst, status, ks', rfl⟩ := result.frame
      subst made
      refine .none rfl (quiet_of_logs ?_)
      rw [outcome.1]
      intro l hl h
      rcases List.mem_cons.mp hl with rfl | hl
      · exact ⟨nofun, nofun⟩
      · exact hquiet l hl h
  | approve h label url count member args quorum =>
      refine .approve h label url rfl member args quorum rfl (AList.lookup_insert _) ?_ rfl
      unfold votersOf
      rw [AList.lookup_erase]
      rfl
  | approveVote h label url o member args quiet => exact .none rfl quiet.versions
  | revoke h count member quorum =>
      refine .revoke h rfl member quorum rfl ?_ rfl
      unfold votersOf
      rw [AList.lookup_erase]
      rfl
  | revokeVote h o member quiet => exact .none rfl quiet.versions
  | other call ms cs ceased o quiet => exact .none rfl quiet.versions
  | _ => exact .none rfl (hline _ fun h => ⟨nofun, nofun⟩)

section Runs
variable {A : Attestation} {current : AccountId} {d₀ d : KeystoreDao} {tr : List Step} {h : CryptoHash} {a : AccountId}

/-- A step that approves a version leaves nobody on the record for it. -/
theorem approval_open {v : Step} (hf : Fires (next A current) v) (ha : a ∈ v.post.votersOf (.approve h))
    (args : ApprovalArgs) : ∀ l ∈ v.out.logs, (Subject.approve h args).closedBy l = false := by
  intro l hl
  cases l with
  | versionApproved h' =>
      refine decide_eq_false ?_
      rintro rfl
      cases (step_move hf).versionChange with
      | none same quiet => exact (quiet h).1 hl
      | approve h' label url called member args quorum hashes version spent logs =>
          rw [logs] at hl
          cases List.mem_singleton.mp hl
          rw [spent] at ha
          exact List.not_mem_nil ha
      | revoke h' called member quorum hashes spent logs =>
          rw [logs] at hl
          cases List.mem_singleton.mp hl
  | _ => rfl

/-- A step that revokes a version leaves nobody on the record for it. -/
theorem revocation_open {v : Step} (hf : Fires (next A current) v) (ha : a ∈ v.post.votersOf (.revoke h)) :
    ∀ l ∈ v.out.logs, (Subject.revoke h).closedBy l = false := by
  intro l hl
  cases l with
  | versionRevoked h' =>
      refine decide_eq_false ?_
      rintro rfl
      cases (step_move hf).versionChange with
      | none same quiet => exact (quiet h).2 hl
      | approve h' label url called member args quorum hashes version spent logs =>
          rw [logs] at hl
          cases List.mem_singleton.mp hl
      | revoke h' called member quorum hashes spent logs =>
          rw [logs] at hl
          cases List.mem_singleton.mp hl
          rw [spent] at ha
          exact List.not_mem_nil ha
  | _ => rfl

/-- A voter on the record for an approval voted for it under the arguments that are held, and it was not approved
    since. -/
theorem cast_of_approver (hrun : Run (next A current) d₀ tr d) (hempty : d₀.vaultVersionVotes = ∅)
    (ha : a ∈ d.votersOf (.approve h)) :
    ∃ tr₁ u tr₂ args, tr = tr₁ ++ u :: tr₂ ∧ Step.Casts u a (.approve h args) ∧
      (∀ v ∈ tr₂, ∀ l ∈ v.out.logs, (Subject.approve h args).closedBy l = false) ∧
      d.vaultVersionApprovalArgs.lookup h = some args := by
  have hstart : ¬ a ∈ d₀.votersOf (.approve h) := by
    unfold votersOf
    rw [hempty]
    exact List.not_mem_nil
  obtain ⟨tr₁, u, tr₂, rfl, hno, hyes, hsince⟩ :=
    hrun.since (Q := fun d => a ∈ d.votersOf (.approve h)) hstart ha
  obtain ⟨-, hu, hafter⟩ := hrun.at_split
  rcases ((step_move hu).voters hyes).resolve_left hno with
    ⟨hcaller, ⟨h', label, url, heq, hcall, hargs⟩ | ⟨h', heq, -⟩⟩
  · cases heq
    refine ⟨tr₁, u, tr₂, ⟨label, url⟩, rfl, .approve h ⟨label, url⟩ hcaller hcall, ?_, ?_⟩
    · intro v hv
      obtain ⟨-, -, hf⟩ := hafter.fired hv
      exact approval_open hf (hsince v hv).2 ⟨label, url⟩
    -- somebody has been on the record all the time, so the arguments have not changed
    · exact hafter.invariant_of (I := fun d => d.vaultVersionApprovalArgs.lookup h = some ⟨label, url⟩)
        (C := fun t => a ∈ t.post.votersOf (.approve h)) hargs
        (fun t hf hc hpre => (step_move hf).args hpre hc) (fun t ht => (hsince t ht).2)
  · cases heq

/-- A voter on the record for a revocation voted for it, and it was not carried since. -/
theorem cast_of_revoker (hrun : Run (next A current) d₀ tr d) (hempty : d₀.vaultVersionVotes = ∅)
    (ha : a ∈ d.votersOf (.revoke h)) :
    ∃ tr₁ u tr₂, tr = tr₁ ++ u :: tr₂ ∧ Step.Casts u a (.revoke h) ∧
      ∀ v ∈ tr₂, ∀ l ∈ v.out.logs, (Subject.revoke h).closedBy l = false := by
  have hstart : ¬ a ∈ d₀.votersOf (.revoke h) := by
    unfold votersOf
    rw [hempty]
    exact List.not_mem_nil
  obtain ⟨tr₁, u, tr₂, rfl, hno, hyes, hsince⟩ :=
    hrun.since (Q := fun d => a ∈ d.votersOf (.revoke h)) hstart ha
  obtain ⟨-, hu, hafter⟩ := hrun.at_split
  rcases ((step_move hu).voters hyes).resolve_left hno with
    ⟨hcaller, ⟨h', label, url, heq, -, -⟩ | ⟨h', heq, hcall⟩⟩
  · cases heq
  · cases heq
    refine ⟨tr₁, u, tr₂, rfl, .revoke h hcaller hcall, ?_⟩
    intro v hv
    obtain ⟨-, -, hf⟩ := hafter.fired hv
    exact revocation_open hf (hsince v hv).2

end Runs

/-! ## Quorums -/

section Quorums
variable {A : Attestation} {current : AccountId} {d₀ : KeystoreDao} {tr : List Step} {t : Step}

/-- What a history starts from: no votes, and nothing put to the vote. -/
structure Blank (d : KeystoreDao) : Prop where
  ids : d.Ids
  votes : d.votes = ∅
  versionVotes : d.vaultVersionVotes = ∅

theorem blank_new {ownerId initAccountId mpcContractId : AccountId} {members : List AccountId} {d : KeystoreDao}
    (hnew : new ownerId initAccountId members mpcContractId = .ok d) : d.Blank := by
  have hids := ids_new hnew
  simp only [new, bind_eq_ok, pure_eq_ok] at hnew
  obtain ⟨_, -, rfl⟩ := hnew
  exact ⟨hids, rfl, rfl⟩

theorem register_carried (hblank : d₀.Blank) (hrun : Run (next A current) d₀ tr t.pre) {id : Nat} {approve : Bool}
    {k : KeystoreKey} {votes : Nat} (called : t.event.call = .vote id approve)
    (subject : t.pre.registers id = some k) (kind : t.pre.revokes id = none)
    (tallied : tally (withVote t.event.env t.pre id approve) id = .ok (.carried votes)) :
    Carried tr t (.register id k) := by
  obtain ⟨voters, hnodup, hmany, hvoters⟩ := quorum_of_tally tallied
  refine ⟨voters, hnodup, hmany, ?_⟩
  intro a ha
  obtain ⟨hmember, hvote | ⟨hcaller, rfl⟩⟩ := hvoters a ha
  · refine ⟨hmember, Or.inr ?_⟩
    obtain ⟨tr₁, u, tr₂, hsplit, ⟨k', hcast, hk'⟩ | ⟨ks, -, hks⟩⟩ :=
      cast_of_vote hrun hblank.ids hblank.votes hvote
    · have hsame : k' = k := Option.some.inj (hk'.symm.trans subject)
      subst hsame
      exact ⟨tr₁, u, tr₂, hsplit, hcast, fun _ _ _ _ => rfl⟩
    · exact absurd (kind.symm.trans hks) nofun
  · exact ⟨hmember, Or.inl (.register id k hcaller called subject kind)⟩

theorem revokeKeys_carried (hblank : d₀.Blank) (hrun : Run (next A current) d₀ tr t.pre) {id : Nat} {approve : Bool}
    {ks : List KeystoreKey} {votes : Nat}
    (called : t.event.call = .vote id approve ∧ t.pre.revokes id = some ks ∨
      t.event.call = .proposeRevokeKeystoreKeys ks ∧ approve = true ∧ id = t.pre.nextProposalId)
    (tallied : tally (withVote t.event.env t.pre id approve) id = .ok (.carried votes)) :
    Carried tr t (.revokeKeys id ks) := by
  obtain ⟨voters, hnodup, hmany, hvoters⟩ := quorum_of_tally tallied
  refine ⟨voters, hnodup, hmany, ?_⟩
  intro a ha
  obtain ⟨hmember, hvote | ⟨hcaller, rfl⟩⟩ := hvoters a ha
  · refine ⟨hmember, Or.inr ?_⟩
    rcases called with ⟨-, subject⟩ | ⟨-, -, rfl⟩
    · obtain ⟨tr₁, u, tr₂, hsplit, ⟨k, -, hk⟩ | ⟨ks', hcast, hks'⟩⟩ :=
        cast_of_vote hrun hblank.ids hblank.votes hvote
      -- an id does not stand for a registration and a revocation
      · have hids := hrun.invariant hblank.ids (fun _ hf => ids_step hf)
        obtain ⟨p, hp, -⟩ := Option.map_eq_some_iff.mp hk
        obtain ⟨q, hq, -⟩ := Option.map_eq_some_iff.mp subject
        rcases hids.apart id with hnone | hnone
        · exact absurd (hnone.symm.trans hp) nofun
        · exact absurd (hnone.symm.trans hq) nofun
      · have hsame : ks' = ks := Option.some.inj (hks'.symm.trans subject)
        subst hsame
        exact ⟨tr₁, u, tr₂, hsplit, hcast, fun _ _ _ _ => rfl⟩
    -- nobody has voted under an id that was not given out
    · have hids := hrun.invariant hblank.ids (fun _ hf => ids_step hf)
      exact absurd (hvote.symm.trans (hids.fresh.2.2 a)) nofun
  · refine ⟨hmember, Or.inl ?_⟩
    rcases called with ⟨hcall, subject⟩ | ⟨hcall, -, rfl⟩
    · exact .revokeKeys id ks hcaller hcall subject
    · exact .propose ks hcaller hcall

theorem votersDistinct_run (hblank : d₀.Blank) {d : KeystoreDao} (hrun : Run (next A current) d₀ tr d) :
    d.VotersDistinct := by
  refine hrun.invariant ?_ (fun _ hf => (step_move hf).votersDistinct)
  unfold VotersDistinct
  rw [hblank.versionVotes]
  exact LookupMap.all_empty

theorem approve_carried (hblank : d₀.Blank) (hrun : Run (next A current) d₀ tr t.pre) {h : CryptoHash}
    {label : String} {url : Option String} (called : t.event.call = .approveVaultVersion h label url)
    (member : t.event.env.predecessor ∈ t.pre.daoMembers)
    (args : ∀ a, t.pre.vaultVersionApprovalArgs.lookup h = some a → a = ⟨label, url⟩)
    (quorum : t.pre.approvalThreshold ≤ (votersWith t.event.env t.pre (.approve h)).length) :
    Carried tr t (.approve h ⟨label, url⟩) := by
  refine ⟨_, (votersDistinct_run hblank hrun).with (.approve h), quorum, ?_⟩
  intro a ha
  rcases mem_votersWith ha with ⟨hvoter, hmember⟩ | rfl
  · refine ⟨hmember, Or.inr ?_⟩
    obtain ⟨tr₁, u, tr₂, held, hsplit, hcast, hopen, hheld⟩ := cast_of_approver hrun hblank.versionVotes hvoter
    have hsame := args held hheld
    subst hsame
    exact ⟨tr₁, u, tr₂, hsplit, hcast, hopen⟩
  · exact ⟨member, Or.inl (.approve h ⟨label, url⟩ rfl called)⟩

theorem revoke_carried (hblank : d₀.Blank) (hrun : Run (next A current) d₀ tr t.pre) {h : CryptoHash}
    (called : t.event.call = .revokeVaultVersion h) (member : t.event.env.predecessor ∈ t.pre.daoMembers)
    (quorum : t.pre.approvalThreshold ≤ (votersWith t.event.env t.pre (.revoke h)).length) :
    Carried tr t (.revoke h) := by
  refine ⟨_, (votersDistinct_run hblank hrun).with (.revoke h), quorum, ?_⟩
  intro a ha
  rcases mem_votersWith ha with ⟨hvoter, hmember⟩ | rfl
  · exact ⟨hmember, Or.inr (cast_of_revoker hrun hblank.versionVotes hvoter)⟩
  · exact ⟨member, Or.inl (.revoke h rfl called)⟩

/-- A key that comes in, or gets an access key, was carried. -/
theorem registered_carried (hblank : d₀.Blank) (hrun : Run (next A current) d₀ tr t.pre)
    (hchange : KeyChange t.event.env t.pre t.post t.event.call t.out) {k : KeystoreKey}
    (hk : k ∈ t.post.approvedKeystores ∧ k ∉ t.pre.approvedKeystores ∨
      ∃ methods, Promise.addAccessKey k methods ∈ t.out.promises) :
    ∃ id, Carried tr t (.register id k) := by
  cases hchange with
  | none same quiet =>
      rcases hk with ⟨hin, hout⟩ | ⟨methods, hp⟩
      · rw [same] at hin
        exact absurd hin hout
      · cases quiet _ hp
  | register id approve k' votes called subject kind tallied keys promises =>
      have hsame : k = k' := by
        rcases hk with ⟨hin, hout⟩ | ⟨methods, hp⟩
        · rw [keys, UnorderedSet.mem_insert] at hin
          exact hin.resolve_right hout
        · obtain ⟨methods', heq⟩ := promises _ hp
          cases heq
          rfl
      subst hsame
      exact ⟨id, register_carried hblank hrun called subject kind tallied⟩
  | revoke id approve ks votes called tallied keys promises =>
      rcases hk with ⟨hin, hout⟩ | ⟨methods, hp⟩
      · rw [keys, mem_revokeKeys] at hin
        exact absurd hin.1 hout
      · rw [promises] at hp
        obtain ⟨k', -, heq⟩ := List.mem_map.mp hp
        cases heq

/-- A key that goes out, or is deleted, was among the keys of a carried revocation. -/
theorem revokedKeys_carried (hblank : d₀.Blank) (hrun : Run (next A current) d₀ tr t.pre)
    (hchange : KeyChange t.event.env t.pre t.post t.event.call t.out) {k : KeystoreKey}
    (hk : k ∈ t.pre.approvedKeystores ∧ k ∉ t.post.approvedKeystores ∨ Promise.deleteKey k ∈ t.out.promises) :
    ∃ id ks, k ∈ ks ∧ Carried tr t (.revokeKeys id ks) := by
  cases hchange with
  | none same quiet =>
      rcases hk with ⟨hin, hout⟩ | hp
      · rw [same] at hout
        exact absurd hin hout
      · cases quiet _ hp
  | register id approve k' votes called subject kind tallied keys promises =>
      rcases hk with ⟨hin, hout⟩ | hp
      · rw [keys, UnorderedSet.mem_insert] at hout
        exact absurd (Or.inr hin) hout
      · obtain ⟨methods', heq⟩ := promises _ hp
        cases heq
  | revoke id approve ks votes called tallied keys promises =>
      refine ⟨id, ks, ?_, revokeKeys_carried hblank hrun called tallied⟩
      rcases hk with ⟨hin, hout⟩ | hp
      · rw [keys, mem_revokeKeys] at hout
        by_contra hnot
        exact hout ⟨hin, hnot⟩
      · rw [promises] at hp
        obtain ⟨k', hk', heq⟩ := List.mem_map.mp hp
        cases heq
        exact mem_of_revoked hk'

/-- A version that comes in was carried, with the label and the audit it is recorded under. -/
theorem approved_carried (hblank : d₀.Blank) (hrun : Run (next A current) d₀ tr t.pre)
    (hchange : VersionChange t.event.env t.pre t.post t.event.call t.out) {h : CryptoHash}
    (hh : h ∈ t.post.approvedVaultCodeHashes ∧ h ∉ t.pre.approvedVaultCodeHashes ∨
      Log.versionApproved h ∈ t.out.logs) :
    ∃ info, t.post.vaultVersions.lookup h = some info ∧ Carried tr t (.approve h ⟨info.label, info.auditUrl⟩) := by
  cases hchange with
  | none same quiet =>
      rcases hh with ⟨hin, hout⟩ | hlog
      · rw [same] at hin
        exact absurd hin hout
      · exact absurd hlog (quiet h).1
  | approve h' label url called member args quorum hashes version spent logs =>
      have hsame : h = h' := by
        rcases hh with ⟨hin, hout⟩ | hlog
        · rw [hashes, UnorderedSet.mem_insert] at hin
          exact hin.resolve_right hout
        · rw [logs] at hlog
          cases List.mem_singleton.mp hlog
          rfl
      subst hsame
      exact ⟨_, version, approve_carried hblank hrun called member args quorum⟩
  | revoke h' called member quorum hashes spent logs =>
      rcases hh with ⟨hin, hout⟩ | hlog
      · rw [hashes, UnorderedSet.mem_remove] at hin
        exact absurd hin.2 hout
      · rw [logs] at hlog
        cases List.mem_singleton.mp hlog

theorem revoked_carried (hblank : d₀.Blank) (hrun : Run (next A current) d₀ tr t.pre)
    (hchange : VersionChange t.event.env t.pre t.post t.event.call t.out) {h : CryptoHash}
    (hh : h ∈ t.pre.approvedVaultCodeHashes ∧ h ∉ t.post.approvedVaultCodeHashes ∨
      Log.versionRevoked h ∈ t.out.logs) :
    Carried tr t (.revoke h) := by
  cases hchange with
  | none same quiet =>
      rcases hh with ⟨hin, hout⟩ | hlog
      · rw [same] at hout
        exact absurd hin hout
      · exact absurd hlog (quiet h).2
  | approve h' label url called member args quorum hashes version spent logs =>
      rcases hh with ⟨hin, hout⟩ | hlog
      · rw [hashes, UnorderedSet.mem_insert] at hout
        exact absurd (Or.inr hin) hout
      · rw [logs] at hlog
        cases List.mem_singleton.mp hlog
  | revoke h' called member quorum hashes spent logs =>
      have hsame : h = h' := by
        rcases hh with ⟨hin, hout⟩ | hlog
        · by_contra hne
          rw [hashes, UnorderedSet.mem_remove] at hout
          exact hout ⟨hne, hin⟩
        · rw [logs] at hlog
          cases List.mem_singleton.mp hlog
          rfl
      subst hsame
      exact revoke_carried hblank hrun called member quorum

end Quorums

/-- **Quorum.** At every step of every history, what is registered, revoked or approved has as many distinct members
    behind it as the threshold asks for: members at that moment, each of whom called for exactly that. -/
theorem quorum_kept {A : Attestation} {current ownerId initAccountId mpcContractId : AccountId}
    {members : List AccountId} {tr tr' : List Step} {t : Step} {d : KeystoreDao}
    (history : History A current ownerId initAccountId members mpcContractId (tr ++ t :: tr') d) :
    QuorumKept tr t := by
  obtain ⟨d₀, hnew, hrun⟩ := history
  have hblank := blank_new hnew
  obtain ⟨hrun, ht, -⟩ := hrun.at_split
  have hmove := step_move ht
  exact {
    registered := fun _ => registered_carried hblank hrun hmove.keyChange
    revokedKeys := fun _ => revokedKeys_carried hblank hrun hmove.keyChange
    approved := fun _ => approved_carried hblank hrun hmove.versionChange
    revoked := fun _ => revoked_carried hblank hrun hmove.versionChange }

/-- The hash of these histories. -/
def codeHash : CryptoHash := Vector.replicate 32 0x42

/-- Both members of a DAO of two vote for a version, and the second vote approves it. -/
theorem version_carried_by_both : ∃ t u d,
    History upToDate daoSelf daoOwner daoInit [memberA, memberB] daoMpc [t, u] d ∧
      codeHash ∈ d.approvedVaultCodeHashes ∧ QuorumKept [t] u := by
  obtain ⟨tr, d, h, hp⟩ := exists_dao_history [memberA, memberB]
    [sentBy memberA (.approveVaultVersion codeHash "v1.0" none),
     sentBy memberB (.approveVaultVersion codeHash "v1.0" none)]
    (fun p => ofTwo (fun _ _ => true) p.1 && decide (codeHash ∈ p.2.approvedVaultCodeHashes)) (by decide +kernel)
  obtain ⟨htwo, happroved⟩ := (Bool.and_eq_true _ _).mp hp
  obtain ⟨t, u, htr, -⟩ := exists_of_ofTwo htwo
  cases htr
  have hsplit : History upToDate daoSelf daoOwner daoInit [memberA, memberB] daoMpc ([t] ++ u :: []) d := h
  exact ⟨t, u, d, h, of_decide_eq_true happroved, quorum_kept hsplit⟩

end KeystoreDao

end Outlayer
