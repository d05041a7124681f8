import Outlayer.KeystoreDao.Contract
import Outlayer.Lib.Run

/-!
# `KeystoreDao.Steps` — what a call does

The promises of the contract are detached: nothing comes back to it, so a history is a sequence of calls. `Move` lists
what a call that goes through can do. A vote on a proposal is one of three things, by its tally, and so is the vote
that comes with a proposal to revoke. Nothing after this module unfolds a method.
-/

namespace Outlayer
open Checked Collections Runs

namespace KeystoreDao

/-! ## Histories -/

/-- A call and its context. -/
structure Event where
  env : Env
  call : Call

/-- One step: a call that goes through. One that panics changes nothing and is not a step. -/
def next (A : Attestation) (current : AccountId) (d : KeystoreDao) (e : Event) : Option (KeystoreDao × Outcome) :=
  (exec A current e.env d e.call).toOption

/-- A step as it happened. -/
abbrev Step := Transition KeystoreDao Event Outcome

/-- The histories of a DAO: the calls since `new`, and the state they lead to. -/
def History (A : Attestation) (current ownerId initAccountId : AccountId) (daoMembers : List AccountId)
    (mpcContractId : AccountId) (tr : List Step) (d : KeystoreDao) : Prop :=
  ∃ d₀, new ownerId initAccountId daoMembers mpcContractId = .ok d₀ ∧ Run (next A current) d₀ tr d

/-! ## Tallies -/

section Tallies
variable {d : KeystoreDao} {id : Nat}

/-- The members whose vote on a proposal is `approve`. -/
def votesOf (d : KeystoreDao) (id : Nat) (approve : Bool) : Nat :=
  d.daoMembers.elems.countP fun m => decide (d.votes.lookup (id, m) = some approve)

theorem liveVotes_eq_ok {approve : Bool} {n : Nat} :
    liveVotes d id approve = .ok n ↔ d.votesOf id approve < 2 ^ 32 ∧ n = d.votesOf id approve := by
  unfold liveVotes votesOf
  rw [add_eq_ok, Nat.zero_add]

/-- What a tally says of the votes: enough are for it; or they are not, and the votes against it do or do not leave
    room for that. -/
theorem tally_eq_ok {r : Tally} (h : tally d id = .ok r) :
    (d.approvalThreshold ≤ d.votesOf id true ∧ r = .carried (d.votesOf id true)) ∨
      d.votesOf id true < d.approvalThreshold ∧ d.approvalThreshold ≤ asU32 d.daoMembers.elems.length ∧
        (asU32 d.daoMembers.elems.length - d.approvalThreshold < d.votesOf id false ∧
            r = .rejected (d.votesOf id false) ∨
          d.votesOf id false ≤ asU32 d.daoMembers.elems.length - d.approvalThreshold ∧
            r = .undecided (d.votesOf id true)) := by
  simp only [tally, bind_eq_ok, liveVotes_eq_ok] at h
  obtain ⟨liveFor, ⟨-, rfl⟩, liveAgainst, ⟨-, rfl⟩, h⟩ := h
  split at h
  · next hcarried =>
      cases h
      exact Or.inl ⟨hcarried, rfl⟩
  · next hnot =>
      simp only [bind_eq_ok, sub_eq_ok] at h
      obtain ⟨spare, ⟨hle, rfl⟩, h⟩ := h
      refine Or.inr ⟨Nat.lt_of_not_le hnot, hle, ?_⟩
      split at h
      · next hmany =>
          cases h
          exact Or.inl ⟨hmany, rfl⟩
      · next hfew =>
          cases h
          exact Or.inr ⟨Nat.le_of_not_lt hfew, rfl⟩

end Tallies

/-! ## What a call can do -/

/-- The state with the caller's vote recorded. -/
def withVote (env : Env) (d : KeystoreDao) (id : Nat) (approve : Bool) : KeystoreDao :=
  { d with votes := d.votes.insert (id, env.predecessor) approve }

/-- A vote on a registration. -/
inductive RegistrationVote (env : Env) (d : KeystoreDao) (id : Nat) (approve : Bool) (p : KeystoreProposal) :
    KeystoreDao → Outcome → Prop
  | carried (votesFor votesAgainst votes : Nat)
      (tallied : tally (withVote env d id approve) id = .ok (.carried votes)) :
      RegistrationVote env d id approve p
        { withVote env d id approve with
          proposals := d.proposals.insert id { p with votesFor, votesAgainst, status := .executed }
          approvedKeystores := d.approvedKeystores.insert p.publicKey }
        { logs := [.proposalApproved id votes, .proposalExecuted id p.publicKey]
          promises := [.addAccessKey p.publicKey "request_key,mark_vault_verified,ban_vault"] }
  | rejected (votesFor votesAgainst votes : Nat)
      (tallied : tally (withVote env d id approve) id = .ok (.rejected votes)) :
      RegistrationVote env d id approve p
        { withVote env d id approve with
          proposals := d.proposals.insert id { p with votesFor, votesAgainst, status := .rejected } }
        { logs := [.proposalRejected id votes] }
  | undecided (votesFor votesAgainst votes : Nat)
      (tallied : tally (withVote env d id approve) id = .ok (.undecided votes)) :
      RegistrationVote env d id approve p
        { withVote env d id approve with proposals := d.proposals.insert id { p with votesFor, votesAgainst } } {}

/-- A vote on a revocation. -/
inductive RevocationVote (env : Env) (d : KeystoreDao) (id : Nat) (approve : Bool) (p : RevokeKeysProposal) :
    KeystoreDao → Outcome → Prop
  | carried (votesFor votesAgainst votes : Nat) (approved : UnorderedSet KeystoreKey) (revoked : List KeystoreKey)
      (gone : Nat) (tallied : tally (withVote env d id approve) id = .ok (.carried votes))
      (result : approved = (revokeKeys d.approvedKeystores p.publicKeys).1 ∧
        revoked = (revokeKeys d.approvedKeystores p.publicKeys).2.1) :
      RevocationVote env d id approve p
        { withVote env d id approve with
          approvedKeystores := approved
          revokeProposals := d.revokeProposals.insert id { p with votesFor, votesAgainst, status := .executed } }
        { logs := revoked.map Log.keystoreKeyRevoked ++
            [.revokeProposalExecuted id revoked.length gone approved.elems.length]
          promises := revoked.map Promise.deleteKey }
  | rejected (votesFor votesAgainst votes : Nat)
      (tallied : tally (withVote env d id approve) id = .ok (.rejected votes)) :
      RevocationVote env d id approve p
        { withVote env d id approve with
          revokeProposals := d.revokeProposals.insert id { p with votesFor, votesAgainst, status := .rejected } }
        { logs := [.revokeProposalRejected id votes] }
  | undecided (votesFor votesAgainst votes : Nat)
      (tallied : tally (withVote env d id approve) id = .ok (.undecided votes)) :
      RevocationVote env d id approve p
        { withVote env d id approve with
          revokeProposals := d.revokeProposals.insert id { p with votesFor, votesAgainst } }
        { logs := [.revokeVote id votes d.approvalThreshold] }

/-- Whatever its tally, a vote touches the votes, the proposal voted on, and the set of approved keystores. -/
theorem RegistrationVote.frame {env : Env} {d d' : KeystoreDao} {id : Nat} {approve : Bool} {p : KeystoreProposal}
    {o : Outcome} (h : RegistrationVote env d id approve p d' o) :
    ∃ votesFor votesAgainst status ks,
      d' = { withVote env d id approve with
              proposals := d.proposals.insert id { p with votesFor, votesAgainst, status }
              approvedKeystores := ks } := by
  cases h with
  | carried votesFor votesAgainst votes tallied => exact ⟨votesFor, votesAgainst, _, _, rfl⟩
  | rejected votesFor votesAgainst votes tallied => exact ⟨votesFor, votesAgainst, _, d.approvedKeystores, rfl⟩
  | undecided votesFor votesAgainst votes tallied => exact ⟨votesFor, votesAgainst, p.status, d.approvedKeystores, rfl⟩

theorem RevocationVote.frame {env : Env} {d d' : KeystoreDao} {id : Nat} {approve : Bool} {p : RevokeKeysProposal}
    {o : Outcome} (h : RevocationVote env d id approve p d' o) :
    ∃ votesFor votesAgainst status ks,
      d' = { withVote env d id approve with
              approvedKeystores := ks
              revokeProposals := d.revokeProposals.insert id { p with votesFor, votesAgainst, status } } := by
  cases h with
  | carried votesFor votesAgainst votes approved revoked gone tallied result =>
      exact ⟨votesFor, votesAgainst, _, approved, rfl⟩
  | rejected votesFor votesAgainst votes tallied => exact ⟨votesFor, votesAgainst, _, d.approvedKeystores, rfl⟩
  | undecided votesFor votesAgainst votes tallied => exact ⟨votesFor, votesAgainst, p.status, d.approvedKeystores, rfl⟩

/-- The line says that something put to the vote was carried. -/
def Log.decides : Log → Bool
  | .proposalExecuted _ _ | .keystoreKeyRevoked _ | .versionApproved _ | .versionRevoked _ => true
  | _ => false

/-- The promise adds or deletes an access key. -/
def Promise.changesKeys : Promise → Bool
  | .addAccessKey _ _ | .deleteKey _ => true
  | .requestAppPrivateKey _ _        => false

/-- Nothing was carried. -/
structure Outcome.Quiet (o : Outcome) : Prop where
  logs : ∀ l ∈ o.logs, l.decides = false
  promises : ∀ p ∈ o.promises, p.changesKeys = false

/-- One line that decides nothing, and no promise. -/
theorem quiet_line {l : Log} (h : l.decides = false) {value : Option Nat} :
    Outcome.Quiet { logs := [l], value } where
  logs := by
    intro l' hl'
    obtain rfl := List.mem_singleton.mp hl'
    exact h
  promises := fun p hp => absurd hp List.not_mem_nil

/-- What a call that goes through can do. -/
inductive Move (current : AccountId) (env : Env) (d : KeystoreDao) : Call → KeystoreDao → Outcome → Prop
  | submit (k : KeystoreKey) (quote : String) (appId : Option String) (m : ApprovedMeasurements) (o : Outcome)
      (fresh : k ∉ d.approvedKeystores) (quiet : o.Quiet) :
      Move current env d (.submitKeystoreRegistration k quote appId)
        { d with
          proposals := d.proposals.insert d.nextProposalId
            { id := d.nextProposalId, publicKey := k, measurements := m, submitter := env.predecessor
              createdAt := env.blockTimestamp, votesFor := 0, votesAgainst := 0, status := .pending }
          nextProposalId := d.nextProposalId + 1 } o
  | vote (id : Nat) (approve : Bool) (p : KeystoreProposal) (d' : KeystoreDao) (o : Outcome)
      (member : env.predecessor ∈ d.daoMembers) (kind : d.revokeProposals.lookup id = none)
      (found : d.proposals.lookup id = some p) (pending : p.status = .pending)
      (first : d.votes.lookup (id, env.predecessor) = none) (result : RegistrationVote env d id approve p d' o) :
      Move current env d (.vote id approve) d' o
  | voteRevoke (id : Nat) (approve : Bool) (p : RevokeKeysProposal) (d' : KeystoreDao) (o : Outcome)
      (member : env.predecessor ∈ d.daoMembers) (found : d.revokeProposals.lookup id = some p)
      (pending : p.status = .pending) (first : d.votes.lookup (id, env.predecessor) = none)
      (result : RevocationVote env d id approve p d' o) :
      Move current env d (.vote id approve) d' o
  | propose (ks : List KeystoreKey) (d₁ d' : KeystoreDao) (o o' : Outcome) (p : RevokeKeysProposal)
      (member : env.predecessor ∈ d.daoMembers) (keys : p.publicKeys = ks) (pending : p.status = .pending)
      (made : d₁ = { d with nextProposalId := d.nextProposalId + 1
                            revokeProposals := d.revokeProposals.insert d.nextProposalId p })
      (first : d.votes.lookup (d.nextProposalId, env.predecessor) = none)
      (result : RevocationVote env d₁ d.nextProposalId true p d' o)
      (outcome : o'.logs = .revokeProposalCreated d.nextProposalId ks.length :: o.logs ∧ o'.promises = o.promises) :
      Move current env d (.proposeRevokeKeystoreKeys ks) d' o'
  | addMember (m : AccountId) :
      Move current env d (.addDaoMember m)
        { d with daoMembers := d.daoMembers.insert m
                 approvalThreshold := thresholdOf (d.daoMembers.insert m).elems.length }
        { logs := [.memberAdded m] }
  | removeMember (m : AccountId) (left : d.daoMembers.elems.length > 1) :
      Move current env d (.removeDaoMember m)
        { d with daoMembers := d.daoMembers.remove m
                 approvalThreshold := thresholdOf (d.daoMembers.remove m).elems.length }
        { logs := [.memberRemoved m] }
  | approve (h : CryptoHash) (label : String) (url : Option String) (count : Nat)
      (member : env.predecessor ∈ d.daoMembers)
      (args : ∀ a, d.vaultVersionApprovalArgs.lookup h = some a → a = ⟨label, url⟩)
      (quorum : d.approvalThreshold ≤ (votersWith env d (.approve h)).length) :
      Move current env d (.approveVaultVersion h label url)
        { d with
          vaultVersionVotes := d.vaultVersionVotes.erase (.approve h)
          vaultVersionApprovalArgs := d.vaultVersionApprovalArgs.erase h
          approvedVaultCodeHashes := d.approvedVaultCodeHashes.insert h
          vaultVersions := d.vaultVersions.insert h ⟨label, url, false, env.blockTimestamp⟩ }
        { logs := [.versionApproved h], value := some count }
  | approveVote (h : CryptoHash) (label : String) (url : Option String) (o : Outcome)
      (member : env.predecessor ∈ d.daoMembers)
      (args : ∀ a, d.vaultVersionApprovalArgs.lookup h = some a → a = ⟨label, url⟩) (quiet : o.Quiet) :
      Move current env d (.approveVaultVersion h label url)
        { d with
          vaultVersionVotes := d.vaultVersionVotes.insert (.approve h) (votersWith env d (.approve h))
          vaultVersionApprovalArgs := d.vaultVersionApprovalArgs.insert h ⟨label, url⟩ } o
  | revoke (h : CryptoHash) (count : Nat) (member : env.predecessor ∈ d.daoMembers)
      (quorum : d.approvalThreshold ≤ (votersWith env d (.revoke h)).length) :
      Move current env d (.revokeVaultVersion h)
        { d with
          vaultVersionVotes := d.vaultVersionVotes.erase (.revoke h)
          approvedVaultCodeHashes := d.approvedVaultCodeHashes.remove h
          vaultVersions := d.vaultVersions.erase h }
        { logs := [.versionRevoked h], value := some count }
  | revokeVote (h : CryptoHash) (o : Outcome) (member : env.predecessor ∈ d.daoMembers) (quiet : o.Quiet) :
      Move current env d (.revokeVaultVersion h)
        { d with vaultVersionVotes := d.vaultVersionVotes.insert (.revoke h) (votersWith env d (.revoke h)) } o
  | deprecateVersion (h : CryptoHash) (info : VaultVersionInfo) (found : d.vaultVersions.lookup h = some info) :
      Move current env d (.deprecateVaultVersion h)
        { d with vaultVersions := d.vaultVersions.insert h { info with deprecated := true } }
        { logs := [.versionDeprecated h] }
  | mark (v : AccountId) (notBanned : v ∉ d.bannedVaults) :
      Move current env d (.markVaultVerified v) { d with verifiedVaults := d.verifiedVaults.insert v }
        { logs := [.vaultVerified v] }
  | ban (v : AccountId) (reason : String) :
      Move current env d (.banVault v reason) { d with bannedVaults := d.bannedVaults.insert v }
        { logs := [.vaultBanned v reason] }
  | unban (v : AccountId) :
      Move current env d (.unbanVault v) { d with bannedVaults := d.bannedVaults.remove v }
        { logs := [.vaultUnbanned v] }
  /-- measurements, collaterals, the cessation flag; or nothing, for `request_key` -/
  | other (call : Call) (ms : List ApprovedMeasurements) (cs : List String) (ceased : Bool) (o : Outcome)
      (quiet : o.Quiet) :
      Move current env d call { d with approvedMeasurements := ms, collaterals := cs, ceasedOperations := ceased } o

/-! ## Inversion -/

section Inversion
variable {A : Attestation} {current : AccountId} {env : Env} {d d' : KeystoreDao} {o : Outcome}

theorem recordVote_eq_ok {id : Nat} {approve : Bool} :
    recordVote env d id approve = .ok d' ↔
      d.votes.lookup (id, env.predecessor) = none ∧ d' = withVote env d id approve := by
  simp only [recordVote, bind_eq_ok, require_eq_ok, pure_eq_ok]
  constructor
  · rintro ⟨_, hfirst, rfl⟩
    exact ⟨hfirst, rfl⟩
  · rintro ⟨hfirst, rfl⟩
    exact ⟨(), hfirst, rfl⟩

theorem internalVoteRevoke_cases {id : Nat} {approve : Bool} (h : internalVoteRevoke env d id approve = .ok (d', o)) :
    ∃ p, d.revokeProposals.lookup id = some p ∧ p.status = .pending ∧
      d.votes.lookup (id, env.predecessor) = none ∧ RevocationVote env d id approve p d' o := by
  simp only [internalVoteRevoke, bind_eq_ok, expect_eq_ok, require_eq_ok, recordVote_eq_ok] at h
  obtain ⟨p, hfound, _, hpending, d₁, ⟨hfirst, rfl⟩, ⟨votesFor, votesAgainst⟩, -, r, htally, h⟩ := h
  refine ⟨p, hfound, hpending, hfirst, ?_⟩
  cases r with
  | carried votes =>
      cases h
      exact .carried votesFor votesAgainst votes _ _ _ htally ⟨rfl, rfl⟩
  | rejected votes =>
      cases h
      exact .rejected votesFor votesAgainst votes htally
  | undecided votes =>
      cases h
      exact .undecided votesFor votesAgainst votes htally

theorem vote_move {id : Nat} {approve : Bool} (h : vote env d id approve = .ok (d', o)) :
    Move current env d (.vote id approve) d' o := by
  simp only [vote, bind_eq_ok, require_eq_ok] at h
  obtain ⟨_, hmember, h⟩ := h
  split at h
  · obtain ⟨p, hfound, hpending, hfirst, hresult⟩ := internalVoteRevoke_cases h
    exact .voteRevoke id approve p d' o hmember hfound hpending hfirst hresult
  · next hkind =>
      have hkind : d.revokeProposals.lookup id = none := by simpa using hkind
      simp only [bind_eq_ok, expect_eq_ok, require_eq_ok, recordVote_eq_ok] at h
      obtain ⟨p, hfound, _, hpending, d₁, ⟨hfirst, rfl⟩, ⟨votesFor, votesAgainst⟩, -, r, htally, h⟩ := h
      refine .vote id approve p d' o hmember hkind hfound hpending hfirst ?_
      cases r with
      | carried votes =>
          simp only [internalExecuteProposal, bind_eq_ok, require_eq_ok, pure_eq_ok] at h
          obtain ⟨⟨d₂, o₂⟩, ⟨_, -, h₂⟩, h⟩ := h
          cases h₂
          cases h
          exact .carried votesFor votesAgainst votes htally
      | rejected votes =>
          cases h
          exact .rejected votesFor votesAgainst votes htally
      | undecided votes =>
          cases h
          exact .undecided votesFor votesAgainst votes htally

theorem proposeRevokeKeystoreKeys_move {ks : List KeystoreKey}
    (h : proposeRevokeKeystoreKeys env d ks = .ok (d', o)) :
    Move current env d (.proposeRevokeKeystoreKeys ks) d' o := by
  simp only [proposeRevokeKeystoreKeys, assertDaoMember, bind_eq_ok, require_eq_ok, add_eq_ok, pure_eq_ok] at h
  obtain ⟨_, hmember, _, -, _, -, _, -, nextId, ⟨-, rfl⟩, ⟨d₁, o₁⟩, hvote, h⟩ := h
  obtain ⟨p, hfound, hpending, hfirst, hresult⟩ := internalVoteRevoke_cases hvote
  rw [AList.lookup_insert] at hfound
  cases hfound
  cases h
  exact .propose ks _ _ o₁ _ _ hmember rfl hpending rfl hfirst hresult ⟨rfl, rfl⟩

theorem approveVaultVersion_move {hash : CryptoHash} {label : String} {url : Option String}
    (h : approveVaultVersion env d hash label url = .ok (d', o)) :
    Move current env d (.approveVaultVersion hash label url) d' o := by
  simp only [approveVaultVersion, assertDaoMember, bind_eq_ok, require_eq_ok] at h
  obtain ⟨_, hmember, _, -, _, -, _, hargs, h⟩ := h
  have hargs : ∀ a, d.vaultVersionApprovalArgs.lookup hash = some a → a = ⟨label, url⟩ := by
    intro a ha
    rw [ha] at hargs
    exact hargs
  split at h
  · next hquorum =>
      cases h
      exact .approve hash label url _ hmember hargs (Nat.le_trans hquorum (Nat.mod_le _ _))
  · cases h
    exact .approveVote hash label url _ hmember hargs (quiet_line rfl)

theorem revokeVaultVersion_move {hash : CryptoHash} (h : revokeVaultVersion env d hash = .ok (d', o)) :
    Move current env d (.revokeVaultVersion hash) d' o := by
  simp only [revokeVaultVersion, assertDaoMember, bind_eq_ok, require_eq_ok] at h
  obtain ⟨_, hmember, h⟩ := h
  split at h
  · next hquorum =>
      cases h
      exact .revoke hash _ hmember (Nat.le_trans hquorum (Nat.mod_le _ _))
  · cases h
    exact .revokeVote hash _ hmember (quiet_line rfl)

theorem submitKeystoreRegistration_move {k : KeystoreKey} {quote : String} {appId : Option String}
    (h : submitKeystoreRegistration A env d k quote appId = .ok (d', o)) :
    Move current env d (.submitKeystoreRegistration k quote appId) d' o := by
  simp only [submitKeystoreRegistration, bind_eq_ok, require_eq_ok, add_eq_ok, pure_eq_ok] at h
  obtain ⟨_, -, _, hfresh, ⟨m, reportData⟩, -, nextId, ⟨-, rfl⟩, h⟩ := h
  cases h
  refine .submit k quote appId m _ hfresh ⟨?_, fun p hp => absurd hp List.not_mem_nil⟩
  intro l hl
  rcases List.mem_append.mp hl with hl | hl
  · cases appId with
    | none => cases hl
    | some id =>
        obtain rfl := List.mem_singleton.mp hl
        rfl
  · rcases List.mem_cons.mp hl with rfl | hl
    · rfl
    · rcases List.mem_cons.mp hl with rfl | hl
      · rfl
      · rcases List.mem_cons.mp hl with rfl | hl
        · rfl
        · obtain rfl := List.mem_singleton.mp hl
          rfl

/-- The calls that touch neither members nor votes nor the registry of vaults. -/
def Call.isOther : Call → Bool
  | .addApprovedMeasurements _ _ | .clearAllApprovedMeasurements | .removeApprovedMeasurements _
  | .updateCollateral _ _ | .declareCessation | .revokeCessation | .requestKey _ => true
  | _ => false

theorem other_move {call : Call} (hcall : call.isOther = true) (h : runCall A current env d call = .ok (d', o)) :
    Move current env d call d' o := by
  -- each of them changes one of three fields
  cases call with
  | addApprovedMeasurements m clearOthers =>
      simp only [runCall, addApprovedMeasurements, bind_eq_ok, pure_eq_ok] at h
      obtain ⟨_, -, _, -, h⟩ := h
      cases h
      refine .other _ _ d.collaterals d.ceasedOperations _ ⟨?_, fun p hp => absurd hp List.not_mem_nil⟩
      intro l hl
      rcases List.mem_append.mp hl with hl | hl
      · split at hl
        · obtain rfl := List.mem_singleton.mp hl
          rfl
        · cases hl
      · obtain rfl := List.mem_singleton.mp hl
        rfl
  | clearAllApprovedMeasurements =>
      simp only [runCall, clearAllApprovedMeasurements, bind_eq_ok, pure_eq_ok] at h
      obtain ⟨_, -, h⟩ := h
      cases h
      exact .other _ _ d.collaterals d.ceasedOperations _ (quiet_line rfl)
  | removeApprovedMeasurements m =>
      simp only [runCall, removeApprovedMeasurements, bind_eq_ok, pure_eq_ok] at h
      obtain ⟨_, -, h⟩ := h
      cases h
      exact .other _ _ d.collaterals d.ceasedOperations _ (quiet_line rfl)
  | updateCollateral collateral index =>
      simp only [runCall, updateCollateral, bind_eq_ok, pure_eq_ok] at h
      obtain ⟨_, -, _, -, _, -, h⟩ := h
      cases h
      exact .other _ d.approvedMeasurements _ d.ceasedOperations _ (quiet_line rfl)
  | declareCessation =>
      simp only [runCall, declareCessation, bind_eq_ok, pure_eq_ok] at h
      obtain ⟨_, -, _, -, h⟩ := h
      cases h
      exact .other _ d.approvedMeasurements d.collaterals _ _ (quiet_line rfl)
  | revokeCessation =>
      simp only [runCall, revokeCessation, bind_eq_ok, pure_eq_ok] at h
      obtain ⟨_, -, _, -, h⟩ := h
      cases h
      exact .other _ d.approvedMeasurements d.collaterals _ _ (quiet_line rfl)
  | requestKey request =>
      simp only [runCall, requestKey, bind_eq_ok, pure_eq_ok] at h
      obtain ⟨_, -, h⟩ := h
      cases h
      refine .other _ d.approvedMeasurements d.collaterals d.ceasedOperations _ ⟨?_, ?_⟩
      · exact fun l hl => absurd hl List.not_mem_nil
      · intro p hp
        obtain rfl := List.mem_singleton.mp hp
        rfl
  | _ => cases hcall

/-- **Inversion.** A call that went through made one of the moves. -/
theorem exec_move {call : Call} (h : exec A current env d call = .ok (d', o)) : Move current env d call d' o := by
  simp only [exec, bind_eq_ok, require_eq_ok] at h
  obtain ⟨_, -, h⟩ := h
  cases call with
  | submitKeystoreRegistration k quote appId => exact submitKeystoreRegistration_move h
  | vote id approve => exact vote_move h
  | proposeRevokeKeystoreKeys ks => exact proposeRevokeKeystoreKeys_move h
  | addDaoMember m =>
      simp only [runCall, addDaoMember, bind_eq_ok, pure_eq_ok] at h
      obtain ⟨_, -, h⟩ := h
      cases h
      exact .addMember m
  | removeDaoMember m =>
      simp only [runCall, removeDaoMember, bind_eq_ok, require_eq_ok, pure_eq_ok] at h
      obtain ⟨_, -, _, hleft, h⟩ := h
      cases h
      exact .removeMember m hleft
  | approveVaultVersion hash label url => exact approveVaultVersion_move h
  | revokeVaultVersion hash => exact revokeVaultVersion_move h
  | deprecateVaultVersion hash =>
      simp only [runCall, deprecateVaultVersion, bind_eq_ok, expect_eq_ok, pure_eq_ok] at h
      obtain ⟨_, -, info, hfound, h⟩ := h
      cases h
      exact .deprecateVersion hash info hfound
  | markVaultVerified v =>
      simp only [runCall, markVaultVerified, bind_eq_ok, require_eq_ok, pure_eq_ok] at h
      obtain ⟨_, -, _, hbanned, h⟩ := h
      cases h
      exact .mark v hbanned
  | banVault v reason =>
      simp only [runCall, banVault, bind_eq_ok, pure_eq_ok] at h
      obtain ⟨_, -, _, -, h⟩ := h
      cases h
      exact .ban v reason
  | unbanVault v =>
      simp only [runCall, unbanVault, bind_eq_ok, pure_eq_ok] at h
      obtain ⟨_, -, h⟩ := h
      cases h
      exact .unban v
  | _ => exact other_move rfl h

/-- **Inversion.** Every step is one of the moves. -/
theorem step_move {t : Step} (h : Fires (next A current) t) :
    Move current t.event.env t.pre t.event.call t.post t.out := by
  unfold Fires next at h
  rw [toOption_eq_some] at h
  exact exec_move h

end Inversion

end KeystoreDao

end Outlayer
