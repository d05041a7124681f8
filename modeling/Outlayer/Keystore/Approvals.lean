import Outlayer.Keystore.KeyOwners
import Outlayer.Keystore.NearSignatures
import Outlayer.Lib.Tally

/-!
# `Keystore.Approvals` — the votes an operation stands on

A wallet whose policy names approvers is moved by their votes. The coordinator carries the ballot; the keystore
judges every vote in it by itself: a signature by a key that the policy admits and the chain knows as the approver's,
or the word of the approver's own contract. Approvals are counted by account, and one rejection that counts is a veto.
-/

namespace Outlayer
namespace Keystore

/-! ## The policy and the ballot -/

/-- One approver of a policy; either field may be missing from the policy's JSON. -/
structure Approver where
  id : Option String
  pubkey : Option String
deriving DecidableEq

/-- The approval rules of a policy, of which only the approvers are read. -/
structure ApprovalRules where
  approvers : Option (List Approver)
deriving DecidableEq

/-- What of a wallet's policy the votes are judged by. -/
structure Policy where
  approval : Option ApprovalRules
deriving DecidableEq

/-- The accounts that may approve, with the keys they are pinned to. -/
def Policy.approvers (policy : Policy) : List (String × Option String) :=
  ((policy.approval.bind ApprovalRules.approvers).getD []).filterMap fun ap => ap.id.map fun id => (id, ap.pubkey)

/-- One signed vote. -/
structure ApproverSig where
  approverId : String
  publicKey : String
  signature : String
  nonce : String
deriving DecidableEq

/-- The vote of a contract wallet; `Shape` is the kind of resolver its account runs. -/
structure ContractVote (Shape : Type) where
  approverId : String
  shape : Shape
  authorization : String
deriving DecidableEq

/-- What a request carries about its approval: the votes for, the votes against and the contracts' votes. -/
structure ApprovalInfo (Shape : Type) where
  approvalId : String
  recipient : String
  approvals : List ApproverSig
  rejections : List ApproverSig := []
  contractApprovals : List (ContractVote Shape) := []
  contractRejections : List (ContractVote Shape) := []

/-- The two words a vote may say. -/
inductive VoteVerb
  | approve
  | reject
deriving DecidableEq

/-- Which of the lists of a ballot a vote stands in. -/
inductive VoteList
  | approvals
  | contractApprovals
  | rejections
  | contractRejections
deriving DecidableEq

/-- Where a vote stands in its ballot. -/
abbrev Place : Type := VoteList × Nat

/-- How many votes of each kind a request may carry. -/
def maxApprovalVotes : Nat := 16

/-! ## What is asked -/

/-- Which votes are looked at for an account: where it stands in the policy. -/
structure Standing where
  admitsKey : (publicKey : String) → Bool
  admitsContractVote : Bool

/-- The shared helpers that vote messages and standings are read by, and the crates signatures are checked with. -/
structure VoteRules extends NearCrypto where
  voteMessage : VoteVerb → (approvalId walletPubkey requestHash : String) → String
  approverStanding : Policy → (id : String) → Standing
  authorizationMaxBytes : Nat

/-- The chain, as it answers when it is asked about the vote at a place. -/
structure ApprovalChain (Shape : Type) where
  contractId : String
  owners : Place → KeyOwners
  /-- no answer; an answer that is not this message, with the reason; or this message -/
  resolveContractVote : Place → (approverId : String) → Shape → (recipient authorization expected : String) →
    Except String (Except String Unit)

variable {Shape : Type}

/-- The message of an error, as it is shown. -/
def KeyOwnerError.message : KeyOwnerError → String
  | malformed m  => m
  | notOwned m   => m
  | unanswered m => m

/-- What the votes of one direction are judged by. -/
structure Question where
  verb : VoteVerb
  approvalId : String
  walletPubkey : String
  requestHash : String
deriving DecidableEq

/-- `approval_vote_message`: what the votes of one direction sign. -/
def VoteRules.message (R : VoteRules) (q : Question) : String :=
  R.voteMessage q.verb q.approvalId q.walletPubkey q.requestHash

/-! ## Judging one vote -/

/-- What a voter is called where the chain says no. -/
def VoteVerb.voter : VoteVerb → String
  | approve => "approver"
  | reject  => "rejecter"

/-- Whether a key vote counts: not of a stranger or by a key that is not pinned, not with a wrong signature. -/
def keyVoteCounts (R : VoteRules) (client : ApprovalChain Shape) (policy : Policy) (q : Question) (list : VoteList)
    (vote : ApproverSig × Nat) : ApiResult Bool :=
  let ap := vote.1
  if (R.approverStanding policy ap.approverId).admitsKey ap.publicKey = false then .ok false
  else
    match R.verifyNearSignature (R.message q) ap.signature ap.publicKey ap.nonce client.contractId with
    | .error _ => .ok false
    | .ok ()   =>
        -- any error of the ownership check is handed on, the chain's no among them
        match (client.owners (list, vote.2)).verifyAccessKeyOwner ap.approverId ap.publicKey with
        | .error e => .error (.internalError ("could not verify " ++ q.verb.voter ++ " " ++ ap.approverId ++
            " key ownership: " ++ e.message))
        | .ok ()   => .ok true

/-- Whether the approver's contract resolves its vote to the message. -/
def contractVoteCounts (R : VoteRules) (client : ApprovalChain Shape) (q : Question) (list : VoteList)
    (vote : ContractVote Shape × Nat) : ApiResult Bool :=
  let cv := vote.1
  if cv.authorization.utf8ByteSize > R.authorizationMaxBytes then .ok false
  else
    match client.resolveContractVote (list, vote.2) cv.approverId cv.shape client.contractId cv.authorization
        (R.message q) with
    | .error e       =>
        .error (.internalError ("could not resolve the contract vote of " ++ cv.approverId ++ ": " ++ e))
    | .ok (.ok ())   => .ok true
    | .ok (.error _) => .ok false

/-- Whether a contract vote counts: not of a stranger, and not of an approver that is pinned to a key. -/
def admittedVoteCounts (R : VoteRules) (client : ApprovalChain Shape) (policy : Policy) (q : Question)
    (list : VoteList) (vote : ContractVote Shape × Nat) : ApiResult Bool :=
  if (R.approverStanding policy vote.1.approverId).admitsContractVote = false then .ok false
  else contractVoteCounts R client q list vote

/-! ## The ballot -/

/-- The refusal of an operation somebody has voted against. -/
def vetoedBy (account : String) : ApiError := .forbidden ("Operation vetoed by approver " ++ account)

/-- The accounts that approved. -/
def approvedBy (R : VoteRules) (client : ApprovalChain Shape) (policy : Policy) (walletPubkey requestHash : String)
    (info : ApprovalInfo Shape) : ApiResult (List String) := do
  let q : Question := ⟨.approve, info.approvalId, walletPubkey, requestHash⟩
  let byKey ← Tally.tally (fun v => v.1.approverId) (keyVoteCounts R client policy q .approvals)
    info.approvals.zipIdx []
  Tally.tally (fun v => v.1.approverId) (admittedVoteCounts R client policy q .contractApprovals)
    info.contractApprovals.zipIdx byKey

/-- No approver rejects. -/
def noVeto (R : VoteRules) (client : ApprovalChain Shape) (policy : Policy) (walletPubkey requestHash : String)
    (info : ApprovalInfo Shape) : ApiResult Unit := do
  let q : Question := ⟨.reject, info.approvalId, walletPubkey, requestHash⟩
  Tally.veto (fun v => vetoedBy v.1.approverId) (keyVoteCounts R client policy q .rejections) info.rejections.zipIdx
  Tally.veto (fun v => vetoedBy v.1.approverId) (admittedVoteCounts R client policy q .contractRejections)
    info.contractRejections.zipIdx

/-- No list of a ballot is longer than the limit. -/
def checkBallotSize (info : ApprovalInfo Shape) : ApiResult Unit := do
  demand (info.approvals.length ≤ maxApprovalVotes ∧ info.rejections.length ≤ maxApprovalVotes)
    (.badRequest ("too many approval votes: " ++ toString info.approvals.length ++ " approvals / " ++
      toString info.rejections.length ++ " rejections (limit " ++ toString maxApprovalVotes ++
      " each). Send only the votes that count toward the threshold."))
  demand (info.contractApprovals.length ≤ maxApprovalVotes ∧ info.contractRejections.length ≤ maxApprovalVotes)
    (.badRequest ("too many contract votes: " ++ toString info.contractApprovals.length ++ " approvals / " ++
      toString info.contractRejections.length ++ " rejections (limit " ++ toString maxApprovalVotes ++
      " each). Send only the votes that count toward the threshold."))

/-- The refusal of an operation too few have voted for. -/
def insufficientApprovals (count threshold : Nat) : ApiError :=
  .forbidden ("Insufficient valid approvals: " ++ toString count ++ " of " ++ toString threshold ++ " required")

/-- The votes of a ballot, once it may be looked at. -/
def decideBallot (R : VoteRules) (client : ApprovalChain Shape) (policy : Policy) (walletPubkey requestHash : String)
    (info : ApprovalInfo Shape) (threshold : Nat) : ApiResult Unit := do
  let approved ← approvedBy R client policy walletPubkey requestHash info
  noVeto R client policy walletPubkey requestHash info
  demand (threshold ≤ approved.length) (insufficientApprovals approved.length threshold)

/-- A request passes when nobody vetoes it and enough of the policy's approvers vote for it, each counted once. -/
def verifyApprovals (R : VoteRules) (nearClient : Option (ApprovalChain Shape)) (policy : Policy)
    (walletPubkey requestHash : String) (approvalInfo : Option (ApprovalInfo Shape)) (threshold : Nat) :
    ApiResult Unit :=
  match nearClient with
  | none => .error (.internalError "NEAR client not configured")
  | some client => do
      demand (policy.approvers ≠ []) (.forbidden ("Policy requires " ++ toString threshold ++
        " approvals but no approvers are configured."))
      match approvalInfo with
      | none => .error (.forbidden "This wallet requires multisig approval, but none were provided.")
      | some info => do
          checkBallotSize info
          demand (info.recipient = client.contractId) (.forbidden ("approval recipient '" ++ info.recipient ++
            "' != this keystore's contract '" ++ client.contractId ++ "'"))
          decideBallot R client policy walletPubkey requestHash info threshold

end Keystore
end Outlayer
