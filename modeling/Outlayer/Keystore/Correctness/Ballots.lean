import Outlayer.Keystore.Correctness.Approvals
import Outlayer.Lib.Text

/-!
# `Keystore.Correctness.Ballots` — which votes matter

On a chain that answers, a vote that is not an approver's, or not rightly signed, is passed over, and so is a repeated
one. A vote that is rightly signed by a key that the approver does not own is not passed over: the chain's no is handed
on as a failure of the whole request. Two ballots with the same votes that count come to the same verdict exactly where
both hold such a vote in a harmful place, or neither does.
-/

namespace Outlayer
open Text

namespace Keystore

/-! ## Verdicts -/

/-- What an operation is told: a refusal with its message, a veto whoever made it, or a failure. -/
inductive Verdict
  | accepted
  | refused (message : String)
  | vetoed
  | failed
deriving DecidableEq

/-- What the answer to a ballot says of it. -/
def verdict : ApiResult Unit → Verdict
  | .ok ()                => .accepted
  | .error (.forbidden m) => if startsWith m "Operation vetoed by approver " then .vetoed else .refused m
  | .error _              => .failed

theorem verdict_vetoedBy (account : String) : verdict (.error (vetoedBy account)) = .vetoed := by
  refine if_pos (decide_eq_true ?_)
  rw [String.toList_append]
  exact List.prefix_append _ _

theorem verdict_insufficient (count threshold : Nat) :
    ∃ m, verdict (.error (insufficientApprovals count threshold)) = .refused m := by
  unfold insufficientApprovals verdict startsWith
  refine ⟨_, if_neg fun h => ?_⟩
  obtain ⟨rest, h⟩ := of_decide_eq_true h
  simp only [String.toList_append, List.append_assoc] at h
  exact absurd (List.cons.inj h).1 (by decide)

/-! ## Ballots on a chain that answers -/

variable {Shape : Type}

/-- The chain says the same of a vote wherever it stands. -/
structure ApprovalChain.Steady (client : ApprovalChain Shape) : Prop where
  owners : ∀ place place', client.owners place = client.owners place'
  contracts : ∀ place place', client.resolveContractVote place = client.resolveContractVote place'

/-- The chain answers every question. -/
structure ApprovalChain.Answers (client : ApprovalChain Shape) : Prop where
  keys : ∀ place account publicKey, ∃ said, (client.owners place).signerKeyBy account publicKey = .ok said
  contracts : ∀ place account shape recipient authorization expected,
    ∃ said, client.resolveContractVote place account shape recipient authorization expected = .ok said

section Verdicts
variable (R : VoteRules) (client : ApprovalChain Shape) (policy : Policy)

/-- How a key vote is judged, wherever it stands. -/
def keyVerdict (q : Question) (vote : ApproverSig) : ApiResult Bool :=
  keyVoteCounts R client policy q .approvals (vote, 0)

/-- How a contract vote is judged, wherever it stands. -/
def contractVerdict (q : Question) (vote : ContractVote Shape) : ApiResult Bool :=
  admittedVoteCounts R client policy q .approvals (vote, 0)

/-- A vote by a key that the policy admits, rightly signed, where the key is not the approver's. -/
structure ForeignVote (q : Question) (vote : ApproverSig) : Prop where
  admitted : (R.approverStanding policy vote.approverId).admitsKey vote.publicKey = true
  signed : R.verifyNearSignature (R.message q) vote.signature vote.publicKey vote.nonce client.contractId = .ok ()
  foreign : (client.owners (.approvals, 0)).verifyAccessKeyOwner vote.approverId vote.publicKey ≠ .ok ()

/-- A foreign vote, with no vote that counts for the same group before it. -/
def Disrupted {K : Type} (q : Question) (group : ApproverSig → K) (votes : List ApproverSig) : Prop :=
  ∃ before vote after, votes = before ++ vote :: after ∧ ForeignVote R client policy q vote ∧
    ∀ u ∈ before, group u = group vote → keyVerdict R client policy q u ≠ .ok true

/-- A ballot that is looked at and holds a foreign vote where it does harm: an approval, before any that counts of the
    same approver; or a rejection, before any that counts. -/
def DisruptedBallot (walletPubkey requestHash : String) (info : ApprovalInfo Shape) : Prop :=
  policy.approvers ≠ [] ∧ info.recipient = client.contractId ∧
    (Disrupted R client policy ⟨.approve, info.approvalId, walletPubkey, requestHash⟩ ApproverSig.approverId
        info.approvals ∨
      Disrupted R client policy ⟨.reject, info.approvalId, walletPubkey, requestHash⟩ (fun _ => ()) info.rejections)

/-- Two ballots for one request that hold the same votes that count. -/
structure SameVotes (walletPubkey requestHash : String) (info info' : ApprovalInfo Shape) : Prop where
  approvalId : info.approvalId = info'.approvalId
  recipient : info.recipient = info'.recipient
  approvals : ∀ vote,
    keyVerdict R client policy ⟨.approve, info.approvalId, walletPubkey, requestHash⟩ vote = .ok true →
    (vote ∈ info.approvals ↔ vote ∈ info'.approvals)
  contractApprovals : ∀ vote,
    contractVerdict R client policy ⟨.approve, info.approvalId, walletPubkey, requestHash⟩ vote = .ok true →
    (vote ∈ info.contractApprovals ↔ vote ∈ info'.contractApprovals)
  rejections : ∀ vote,
    keyVerdict R client policy ⟨.reject, info.approvalId, walletPubkey, requestHash⟩ vote = .ok true →
    (vote ∈ info.rejections ↔ vote ∈ info'.rejections)
  contractRejections : ∀ vote,
    contractVerdict R client policy ⟨.reject, info.approvalId, walletPubkey, requestHash⟩ vote = .ok true →
    (vote ∈ info.contractRejections ↔ vote ∈ info'.contractRejections)

end Verdicts

variable {R : VoteRules} {client : ApprovalChain Shape} {policy : Policy} {q : Question}
  {walletPubkey requestHash : String} {info info' : ApprovalInfo Shape} {threshold : Nat}

theorem SameVotes.symm (h : SameVotes R client policy walletPubkey requestHash info info') :
    SameVotes R client policy walletPubkey requestHash info' info where
  approvalId := h.approvalId.symm
  recipient := h.recipient.symm
  approvals vote hv := (h.approvals vote (h.approvalId ▸ hv)).symm
  contractApprovals vote hv := (h.contractApprovals vote (h.approvalId ▸ hv)).symm
  rejections vote hv := (h.rejections vote (h.approvalId ▸ hv)).symm
  contractRejections vote hv := (h.contractRejections vote (h.approvalId ▸ hv)).symm

/-! ## Judging on a steady chain -/

theorem keyVoteCounts_steady (hsteady : client.Steady) (list : VoteList) :
    keyVoteCounts R client policy q list = fun vote => keyVerdict R client policy q vote.1 := by
  funext vote
  unfold keyVerdict keyVoteCounts
  rw [hsteady.owners (list, vote.2) (.approvals, 0)]

theorem admittedVoteCounts_steady (hsteady : client.Steady) (list : VoteList) :
    admittedVoteCounts R client policy q list = fun vote => contractVerdict R client policy q vote.1 := by
  funext vote
  unfold contractVerdict admittedVoteCounts contractVoteCounts
  rw [hsteady.contracts (list, vote.2) (.approvals, 0)]

theorem approvedBy_steady (hsteady : client.Steady) :
    approvedBy R client policy walletPubkey requestHash info =
      (Tally.tally ApproverSig.approverId (keyVerdict R client policy ⟨.approve, info.approvalId, walletPubkey,
        requestHash⟩) info.approvals [] >>= Tally.tally ContractVote.approverId
          (contractVerdict R client policy ⟨.approve, info.approvalId, walletPubkey, requestHash⟩)
            info.contractApprovals) := by
  simp only [approvedBy, keyVoteCounts_steady hsteady, admittedVoteCounts_steady hsteady, Tally.tally_zipIdx]

theorem noVeto_steady (hsteady : client.Steady) :
    noVeto R client policy walletPubkey requestHash info =
      (Tally.veto (fun vote => vetoedBy vote.approverId) (keyVerdict R client policy ⟨.reject, info.approvalId,
        walletPubkey, requestHash⟩) info.rejections >>= fun _ => Tally.veto (fun vote => vetoedBy vote.approverId)
          (contractVerdict R client policy ⟨.reject, info.approvalId, walletPubkey, requestHash⟩)
            info.contractRejections) := by
  simp only [noVeto, keyVoteCounts_steady hsteady, admittedVoteCounts_steady hsteady,
    Tally.veto_zipIdx fun vote : ApproverSig => vetoedBy vote.approverId,
    Tally.veto_zipIdx fun vote : ContractVote Shape => vetoedBy vote.approverId]

/-- A key vote fails to be judged exactly where it is foreign, and then the request fails. -/
theorem keyVerdict_error_iff {vote : ApproverSig} :
    (∃ e, keyVerdict R client policy q vote = .error e) ↔ ForeignVote R client policy q vote := by
  simp only [keyVerdict, keyVoteCounts]
  constructor
  · rintro ⟨e, h⟩
    split at h
    · cases h
    · next hadmits =>
        split at h
        · cases h
        · next hsigned =>
            split at h
            · next howned =>
                exact
                  { admitted := Bool.not_eq_false _ ▸ hadmits
                    signed := hsigned
                    foreign := by
                      intro hok
                      cases howned.symm.trans hok }
            · cases h
  · rintro ⟨hadmits, hsigned, hforeign⟩
    rw [hadmits, if_neg Bool.true_eq_false.mp, hsigned]
    split
    · next he => cases he
    · split
      · exact ⟨_, rfl⟩
      · next howned => exact absurd howned hforeign

theorem verdict_of_keyVerdict {vote : ApproverSig} {e : ApiError}
    (h : keyVerdict R client policy q vote = .error e) : verdict (.error e) = .failed := by
  simp only [keyVerdict, keyVoteCounts] at h
  split at h
  · cases h
  · split at h
    · cases h
    · split at h
      · obtain rfl := Except.error.inj h
        rfl
      · cases h

/-- A contract vote is judged, where the chain answers. -/
theorem contractVerdict_ne_error (hanswers : client.Answers) {vote : ContractVote Shape} {e : ApiError} :
    contractVerdict R client policy q vote ≠ .error e := by
  intro h
  simp only [contractVerdict, admittedVoteCounts, contractVoteCounts] at h
  split at h
  · cases h
  · split at h
    · cases h
    · obtain ⟨said, hsaid⟩ := hanswers.contracts (.approvals, 0) vote.approverId vote.shape client.contractId
        vote.authorization (R.message q)
      rw [hsaid] at h
      cases said <;> cases h

theorem disrupted_iff {K : Type} {group : ApproverSig → K} {votes : List ApproverSig} :
    Disrupted R client policy q group votes ↔ Tally.Spoiled group (keyVerdict R client policy q) votes [] := by
  unfold Disrupted Tally.Spoiled
  simp only [keyVerdict_error_iff, List.not_mem_nil, not_false_eq_true, true_and]

/-! ## Accounts that approve -/

theorem approvedBy_of_disrupted (hsteady : client.Steady)
    (h : Disrupted R client policy ⟨.approve, info.approvalId, walletPubkey, requestHash⟩ ApproverSig.approverId
      info.approvals) :
    ∃ e, approvedBy R client policy walletPubkey requestHash info = .error e ∧ verdict (.error e) = .failed := by
  obtain ⟨e, he⟩ := Tally.tally_error_iff.mpr (disrupted_iff.mp h)
  obtain ⟨vote, -, hvote⟩ := Tally.error_of_tally he
  refine ⟨e, ?_, verdict_of_keyVerdict hvote⟩
  rw [approvedBy_steady hsteady, he]
  rfl

/-- The accounts that are counted are those with a vote that counts, each once. -/
theorem approvedBy_of_not_disrupted (hsteady : client.Steady) (hanswers : client.Answers)
    (h : ¬ Disrupted R client policy ⟨.approve, info.approvalId, walletPubkey, requestHash⟩ ApproverSig.approverId
      info.approvals) :
    ∃ approved, approvedBy R client policy walletPubkey requestHash info = .ok approved ∧ approved.Nodup ∧
      ∀ account, account ∈ approved ↔
        (∃ vote ∈ info.approvals, vote.approverId = account ∧
          keyVerdict R client policy ⟨.approve, info.approvalId, walletPubkey, requestHash⟩ vote = .ok true) ∨
        ∃ vote ∈ info.contractApprovals, vote.approverId = account ∧
          contractVerdict R client policy ⟨.approve, info.approvalId, walletPubkey, requestHash⟩ vote = .ok true := by
  rw [approvedBy_steady hsteady]
  cases hkeys : Tally.tally ApproverSig.approverId
      (keyVerdict R client policy ⟨.approve, info.approvalId, walletPubkey, requestHash⟩) info.approvals [] with
  | error e => exact absurd (disrupted_iff.mpr (Tally.tally_error_iff.mp ⟨e, hkeys⟩)) h
  | ok byKey =>
      cases hcontracts : Tally.tally ContractVote.approverId
          (contractVerdict R client policy ⟨.approve, info.approvalId, walletPubkey, requestHash⟩)
          info.contractApprovals byKey with
      | error e =>
          obtain ⟨vote, -, hvote⟩ := Tally.error_of_tally hcontracts
          exact absurd hvote (contractVerdict_ne_error hanswers)
      | ok approved =>
          refine ⟨approved, hcontracts, Tally.nodup_of_tally hcontracts (Tally.nodup_of_tally hkeys List.nodup_nil), ?_⟩
          intro account
          rw [Tally.mem_of_tally hcontracts, Tally.mem_of_tally hkeys]
          simp only [List.not_mem_nil, false_or]

/-! ## Accounts that reject -/

theorem noVeto_of_disrupted (hsteady : client.Steady)
    (h : Disrupted R client policy ⟨.reject, info.approvalId, walletPubkey, requestHash⟩ (fun _ => ())
      info.rejections) :
    ∃ e, noVeto R client policy walletPubkey requestHash info = .error e ∧ verdict (.error e) = .failed := by
  obtain ⟨vote, -, e, hvote, he⟩ := Tally.veto_of_spoiled (disrupted_iff.mp h)
  refine ⟨e, ?_, verdict_of_keyVerdict hvote⟩
  rw [noVeto_steady hsteady, he]
  rfl

/-- Some vote in the ballot is a rejection that counts. -/
def HasVeto (R : VoteRules) (client : ApprovalChain Shape) (policy : Policy) (walletPubkey requestHash : String)
    (info : ApprovalInfo Shape) : Prop :=
  (∃ vote ∈ info.rejections,
    keyVerdict R client policy ⟨.reject, info.approvalId, walletPubkey, requestHash⟩ vote = .ok true) ∨
  ∃ vote ∈ info.contractRejections,
    contractVerdict R client policy ⟨.reject, info.approvalId, walletPubkey, requestHash⟩ vote = .ok true

/-- Without harm, a ballot is vetoed exactly where it holds a rejection that counts. -/
theorem noVeto_of_not_disrupted (hsteady : client.Steady) (hanswers : client.Answers)
    (h : ¬ Disrupted R client policy ⟨.reject, info.approvalId, walletPubkey, requestHash⟩ (fun _ => ())
      info.rejections) :
    noVeto R client policy walletPubkey requestHash info = .ok () ∧
        ¬ HasVeto R client policy walletPubkey requestHash info ∨
      (∃ account, noVeto R client policy walletPubkey requestHash info = .error (vetoedBy account)) ∧
        HasVeto R client policy walletPubkey requestHash info := by
  rw [noVeto_steady hsteady]
  rcases Tally.veto_of_not_spoiled (fun hs => h (disrupted_iff.mpr hs)) with hkeys | ⟨vote, hvote, hcounts, hres⟩
  · rw [hkeys]
    have hclean : ¬ Tally.Spoiled (fun _ => ())
        (contractVerdict R client policy ⟨.reject, info.approvalId, walletPubkey, requestHash⟩)
        info.contractRejections [] := by
      rintro ⟨-, vote, -, -, ⟨e, he⟩, -⟩
      exact contractVerdict_ne_error hanswers he
    rcases Tally.veto_of_not_spoiled hclean with hcontracts | ⟨vote, hvote, hcounts, hres⟩
    · refine Or.inl ⟨hcontracts, ?_⟩
      rintro (⟨vote, hvote, hcounts⟩ | ⟨vote, hvote, hcounts⟩)
      · exact nomatch (Tally.veto_ok_iff.mp hkeys vote hvote).symm.trans hcounts
      · exact nomatch (Tally.veto_ok_iff.mp hcontracts vote hvote).symm.trans hcounts
    · exact Or.inr ⟨⟨vote.approverId, hres⟩, Or.inr ⟨vote, hvote, hcounts⟩⟩
  · rw [hres]
    exact Or.inr ⟨⟨vote.approverId, rfl⟩, Or.inl ⟨vote, hvote, hcounts⟩⟩

/-! ## The verdict -/

theorem HasVeto.of_same (hsame : SameVotes R client policy walletPubkey requestHash info info')
    (h : HasVeto R client policy walletPubkey requestHash info) :
    HasVeto R client policy walletPubkey requestHash info' := by
  have hid := hsame.approvalId
  rcases h with ⟨vote, hvote, hcounts⟩ | ⟨vote, hvote, hcounts⟩
  · exact Or.inl ⟨vote, (hsame.rejections vote hcounts).mp hvote, hid ▸ hcounts⟩
  · exact Or.inr ⟨vote, (hsame.contractRejections vote hcounts).mp hvote, hid ▸ hcounts⟩

/-- The same votes that count are of the same number of accounts. -/
theorem length_of_same {approved approved' : List String} (hnodup : approved.Nodup) (hnodup' : approved'.Nodup)
    (h : ∀ account, account ∈ approved ↔ account ∈ approved') : approved.length = approved'.length :=
  ((List.perm_ext_iff_of_nodup hnodup hnodup').mpr h).length_eq

/-- A ballot that is looked at and not disrupted is never failed. -/
theorem decideBallot_of_not_disrupted (hsteady : client.Steady) (hanswers : client.Answers)
    (happrove : ¬ Disrupted R client policy ⟨.approve, info.approvalId, walletPubkey, requestHash⟩
      ApproverSig.approverId info.approvals)
    (hreject : ¬ Disrupted R client policy ⟨.reject, info.approvalId, walletPubkey, requestHash⟩ (fun _ => ())
      info.rejections) :
    verdict (decideBallot R client policy walletPubkey requestHash info threshold) ≠ .failed := by
  obtain ⟨approved, happroved, -⟩ := approvedBy_of_not_disrupted hsteady hanswers happrove
  unfold decideBallot
  rw [happroved]
  rcases noVeto_of_not_disrupted hsteady hanswers hreject with ⟨hok, -⟩ | ⟨⟨account, hveto⟩, -⟩
  · show verdict (noVeto R client policy walletPubkey requestHash info >>= fun _ => _) ≠ _
    rw [hok]
    show verdict (demand _ _) ≠ _
    unfold demand
    split
    · exact nofun
    · obtain ⟨m, hm⟩ := verdict_insufficient approved.length threshold
      rw [hm]
      exact nofun
  · show verdict (noVeto R client policy walletPubkey requestHash info >>= fun _ => _) ≠ _
    rw [hveto]
    show verdict (.error (vetoedBy account)) ≠ _
    rw [verdict_vetoedBy]
    exact nofun

/-- A disrupted one always is. -/
theorem decideBallot_of_disrupted (hsteady : client.Steady) (hanswers : client.Answers)
    (h : Disrupted R client policy ⟨.approve, info.approvalId, walletPubkey, requestHash⟩ ApproverSig.approverId
        info.approvals ∨
      Disrupted R client policy ⟨.reject, info.approvalId, walletPubkey, requestHash⟩ (fun _ => ()) info.rejections) :
    verdict (decideBallot R client policy walletPubkey requestHash info threshold) = .failed := by
  unfold decideBallot
  by_cases happrove : Disrupted R client policy ⟨.approve, info.approvalId, walletPubkey, requestHash⟩
      ApproverSig.approverId info.approvals
  · obtain ⟨e, he, hfailed⟩ := approvedBy_of_disrupted hsteady happrove
    rw [he]
    exact hfailed
  · obtain ⟨approved, happroved, -⟩ := approvedBy_of_not_disrupted hsteady hanswers happrove
    obtain ⟨e, he, hfailed⟩ := noVeto_of_disrupted hsteady (h.resolve_left happrove)
    rw [happroved]
    show verdict (noVeto R client policy walletPubkey requestHash info >>= fun _ => _) = _
    rw [he]
    exact hfailed

/-- Two that are not disrupted, with the same votes that count, are decided alike. -/
theorem decideBallot_same (hsteady : client.Steady) (hanswers : client.Answers)
    (hsame : SameVotes R client policy walletPubkey requestHash info info')
    (happrove : ¬ Disrupted R client policy ⟨.approve, info.approvalId, walletPubkey, requestHash⟩
      ApproverSig.approverId info.approvals)
    (hreject : ¬ Disrupted R client policy ⟨.reject, info.approvalId, walletPubkey, requestHash⟩ (fun _ => ())
      info.rejections)
    (happrove' : ¬ Disrupted R client policy ⟨.approve, info'.approvalId, walletPubkey, requestHash⟩
      ApproverSig.approverId info'.approvals)
    (hreject' : ¬ Disrupted R client policy ⟨.reject, info'.approvalId, walletPubkey, requestHash⟩ (fun _ => ())
      info'.rejections) :
    verdict (decideBallot R client policy walletPubkey requestHash info threshold) =
      verdict (decideBallot R client policy walletPubkey requestHash info' threshold) := by
  obtain ⟨approved, happroved, hnodup, hmem⟩ := approvedBy_of_not_disrupted hsteady hanswers happrove
  obtain ⟨approved', happroved', hnodup', hmem'⟩ := approvedBy_of_not_disrupted hsteady hanswers happrove'
  have hlength : approved.length = approved'.length := by
    refine length_of_same hnodup hnodup' fun account => ?_
    rw [hmem, hmem', ← hsame.approvalId]
    refine or_congr (exists_congr fun vote => ?_) (exists_congr fun vote => ?_)
    · exact and_congr_left fun hcounts => hsame.approvals vote hcounts.2
    · exact and_congr_left fun hcounts => hsame.contractApprovals vote hcounts.2
  unfold decideBallot
  rw [happroved, happroved']
  show verdict (noVeto R client policy walletPubkey requestHash info >>= fun _ => _) =
    verdict (noVeto R client policy walletPubkey requestHash info' >>= fun _ => _)
  rcases noVeto_of_not_disrupted hsteady hanswers hreject with ⟨hok, hnone⟩ | ⟨⟨account, hveto⟩, hhas⟩
  · rcases noVeto_of_not_disrupted hsteady hanswers hreject' with ⟨hok', -⟩ | ⟨-, hhas'⟩
    · rw [hok, hok']
      show verdict (demand _ _) = verdict (demand _ _)
      rw [hlength]
    · exact absurd (HasVeto.of_same hsame.symm hhas') hnone
  · rcases noVeto_of_not_disrupted hsteady hanswers hreject' with ⟨-, hnone'⟩ | ⟨⟨account', hveto'⟩, -⟩
    · exact absurd (HasVeto.of_same hsame hhas) hnone'
    · rw [hveto, hveto']
      exact (verdict_vetoedBy account).trans (verdict_vetoedBy account').symm

/-- What comes before the votes of a ballot of an allowed size. -/
theorem verifyApprovals_eq (hsize : checkBallotSize info = .ok ()) :
    verifyApprovals R (some client) policy walletPubkey requestHash (some info) threshold =
      if policy.approvers = [] then .error (.forbidden ("Policy requires " ++ toString threshold ++
        " approvals but no approvers are configured."))
      else if info.recipient ≠ client.contractId then .error (.forbidden ("approval recipient '" ++ info.recipient ++
        "' != this keystore's contract '" ++ client.contractId ++ "'"))
      else decideBallot R client policy walletPubkey requestHash info threshold := by
  by_cases happrovers : policy.approvers = []
  · rw [if_pos happrovers]
    simp only [verifyApprovals, demand, happrovers, ne_eq, not_true_eq_false, if_false]
    rfl
  · by_cases hrecipient : info.recipient = client.contractId
    · rw [if_neg happrovers, if_neg (not_not_intro hrecipient)]
      simp only [verifyApprovals, demand, ne_eq, happrovers, not_false_eq_true, if_true, hsize, hrecipient]
      rfl
    · rw [if_neg happrovers, if_pos hrecipient]
      simp only [verifyApprovals, demand, ne_eq, happrovers, not_false_eq_true, if_true, hsize, hrecipient, if_false]
      rfl

theorem disruptedBallot_iff (happrovers : policy.approvers ≠ []) (hrecipient : info.recipient = client.contractId) :
    DisruptedBallot R client policy walletPubkey requestHash info ↔
      (Disrupted R client policy ⟨.approve, info.approvalId, walletPubkey, requestHash⟩ ApproverSig.approverId
          info.approvals ∨
        Disrupted R client policy ⟨.reject, info.approvalId, walletPubkey, requestHash⟩ (fun _ => ())
          info.rejections) :=
  ⟨fun h => h.2.2, fun h => ⟨happrovers, hrecipient, h⟩⟩

/-- Two ballots with the same votes that count come to the same verdict exactly where both are disrupted or neither
    is. -/
theorem same_verdict_iff (R : VoteRules) (client : ApprovalChain Shape) (policy : Policy)
    (walletPubkey requestHash : String) (threshold : Nat) (info info' : ApprovalInfo Shape) (hsteady : client.Steady)
    (hanswers : client.Answers) (hsize : checkBallotSize info = .ok ()) (hsize' : checkBallotSize info' = .ok ())
    (hsame : SameVotes R client policy walletPubkey requestHash info info') :
    verdict (verifyApprovals R (some client) policy walletPubkey requestHash (some info) threshold) =
        verdict (verifyApprovals R (some client) policy walletPubkey requestHash (some info') threshold) ↔
      (DisruptedBallot R client policy walletPubkey requestHash info ↔
        DisruptedBallot R client policy walletPubkey requestHash info') := by
  rw [verifyApprovals_eq hsize, verifyApprovals_eq hsize', ← hsame.recipient]
  by_cases happrovers : policy.approvers = []
  · rw [if_pos happrovers, if_pos happrovers]
    exact iff_of_true rfl (iff_of_false (fun h => h.1 happrovers) (fun h => h.1 happrovers))
  · rw [if_neg happrovers, if_neg happrovers]
    by_cases hrecipient : info.recipient = client.contractId
    · rw [if_neg (not_not_intro hrecipient), if_neg (not_not_intro hrecipient),
        disruptedBallot_iff happrovers hrecipient,
        disruptedBallot_iff happrovers (hsame.recipient ▸ hrecipient)]
      by_cases h : Disrupted R client policy ⟨.approve, info.approvalId, walletPubkey, requestHash⟩
            ApproverSig.approverId info.approvals ∨
          Disrupted R client policy ⟨.reject, info.approvalId, walletPubkey, requestHash⟩ (fun _ => ())
            info.rejections <;>
        by_cases h' : Disrupted R client policy ⟨.approve, info'.approvalId, walletPubkey, requestHash⟩
            ApproverSig.approverId info'.approvals ∨
          Disrupted R client policy ⟨.reject, info'.approvalId, walletPubkey, requestHash⟩ (fun _ => ())
            info'.rejections
      · rw [decideBallot_of_disrupted hsteady hanswers h, decideBallot_of_disrupted hsteady hanswers h']
        exact iff_of_true rfl (iff_of_true h h')
      · obtain ⟨happrove', hreject'⟩ := not_or.mp h'
        rw [decideBallot_of_disrupted hsteady hanswers h]
        refine iff_of_false (fun heq => ?_) (fun hiff => h' (hiff.mp h))
        exact decideBallot_of_not_disrupted hsteady hanswers happrove' hreject' heq.symm
      · obtain ⟨happrove, hreject⟩ := not_or.mp h
        rw [decideBallot_of_disrupted hsteady hanswers h']
        refine iff_of_false (fun heq => ?_) (fun hiff => h (hiff.mpr h'))
        exact decideBallot_of_not_disrupted hsteady hanswers happrove hreject heq
      · obtain ⟨happrove, hreject⟩ := not_or.mp h
        obtain ⟨happrove', hreject'⟩ := not_or.mp h'
        exact iff_of_true (decideBallot_same hsteady hanswers hsame happrove hreject happrove' hreject')
          (iff_of_false h h')
    · rw [if_pos hrecipient, if_pos hrecipient]
      exact iff_of_true rfl
        (iff_of_false (fun h => hrecipient h.2.1) (fun h => hrecipient (hsame.recipient.trans h.2.1)))

/-! ## A vote that fails a ballot -/

theorem sampleChain_steady : sampleChain.Steady where
  owners _ _ := rfl
  contracts _ _ := rfl

theorem sampleChain_answers : sampleChain.Answers where
  keys place account publicKey := by
    simp only [sampleChain]
    split
    · exact ⟨_, rfl⟩
    · exact ⟨_, rfl⟩
  contracts place account shape recipient authorization expected := by
    simp only [sampleChain]
    split
    · exact ⟨_, rfl⟩
    · exact ⟨_, rfl⟩

/-- A vote in the name of `c.testnet`, rightly signed by a key of somebody else. -/
def foreignVote : ApproverSig := signedVote "c.testnet" "mallory.testnet"

theorem sampleVotes_same {votes votes' : List ApproverSig}
    (h : ∀ vote, keyVerdict sampleRules sampleChain samplePolicy ⟨.approve, "a1", "ed25519:wallet", "hash"⟩ vote =
      .ok true → (vote ∈ votes ↔ vote ∈ votes')) :
    SameVotes sampleRules sampleChain samplePolicy "ed25519:wallet" "hash" (sampleBallot votes)
      (sampleBallot votes') where
  approvalId := rfl
  recipient := rfl
  approvals := h
  contractApprovals _ _ := Iff.rfl
  rejections _ _ := Iff.rfl
  contractRejections _ _ := Iff.rfl

/-- A vote that does not count, in front of one that does, turns an operation that passes into one that fails. -/
theorem foreign_vote_fails_ballot :
    sampleChain.Steady ∧ sampleChain.Answers ∧ checkBallotSize (sampleBallot [sampleVote]) = .ok () ∧
    checkBallotSize (sampleBallot [foreignVote, sampleVote]) = .ok () ∧
    SameVotes sampleRules sampleChain samplePolicy "ed25519:wallet" "hash" (sampleBallot [sampleVote])
      (sampleBallot [foreignVote, sampleVote]) ∧
    verdict (verifyApprovals sampleRules (some sampleChain) samplePolicy "ed25519:wallet" "hash"
      (some (sampleBallot [sampleVote])) 1) = .accepted ∧
    verdict (verifyApprovals sampleRules (some sampleChain) samplePolicy "ed25519:wallet" "hash"
      (some (sampleBallot [foreignVote, sampleVote])) 1) = .failed := by
  refine ⟨sampleChain_steady, sampleChain_answers, rfl, rfl, sampleVotes_same fun vote hcounts => ?_,
    by decide +kernel, by decide +kernel⟩
  have hforeign : keyVerdict sampleRules sampleChain samplePolicy ⟨.approve, "a1", "ed25519:wallet", "hash"⟩
      foreignVote ≠ .ok true := by decide +kernel
  constructor
  · exact fun hin => List.mem_cons_of_mem _ hin
  · intro hin
    rcases List.mem_cons.mp hin with rfl | hin
    · exact absurd hcounts hforeign
    · exact hin

/-- A repeated vote changes nothing. -/
theorem repeated_vote_is_idle :
    verdict (verifyApprovals sampleRules (some sampleChain) samplePolicy "ed25519:wallet" "hash"
      (some (sampleBallot [sampleVote])) 1) =
    verdict (verifyApprovals sampleRules (some sampleChain) samplePolicy "ed25519:wallet" "hash"
      (some (sampleBallot [sampleVote, sampleVote])) 1) := by
  have hown : ¬ ForeignVote sampleRules sampleChain samplePolicy ⟨.approve, "a1", "ed25519:wallet", "hash"⟩
      sampleVote := fun h => h.foreign rfl
  have hclean : ∀ votes : List ApproverSig, (∀ vote ∈ votes, vote = sampleVote) →
      ¬ DisruptedBallot sampleRules sampleChain samplePolicy "ed25519:wallet" "hash" (sampleBallot votes) := by
    rintro votes hall ⟨-, -, h | h⟩
    · obtain ⟨before, vote, after, hsplit, hforeign, -⟩ := h
      have hmem : vote ∈ votes := by
        rw [show votes = before ++ vote :: after from hsplit]
        exact List.mem_append_right _ List.mem_cons_self
      exact hown (hall vote hmem ▸ hforeign)
    · obtain ⟨before, vote, after, hsplit, -⟩ := h
      exact absurd hsplit.symm (List.append_ne_nil_of_right_ne_nil _ (List.cons_ne_nil _ _))
  refine (same_verdict_iff sampleRules sampleChain samplePolicy "ed25519:wallet" "hash" 1 (sampleBallot [sampleVote])
    (sampleBallot [sampleVote, sampleVote]) sampleChain_steady sampleChain_answers rfl rfl
    (sampleVotes_same fun vote _ => ?_)).mpr (iff_of_false (hclean _ ?_) (hclean _ ?_))
  · simp
  · simp
  · simp

end Keystore
end Outlayer
