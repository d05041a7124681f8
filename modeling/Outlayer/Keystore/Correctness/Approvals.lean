import Outlayer.Keystore.Approvals
import Outlayer.Lib.Base64
import Outlayer.Lib.Fields

/-!
# `Keystore.Correctness.Approvals` — a quorum is never faked

What it means that an account votes is said from the policy, the signature and the chain, not from the loops: a key
vote is by a key that the policy admits, signed over the very message, and owned; a contract vote is of an approver
without a pin, resolved to the very message. The message is no other question's. An operation that passes has a quorum
of such approvals, and no such rejection.
-/

namespace Outlayer
open Text

namespace Keystore

variable {Shape : Type}

/-! ## What the policy says -/

/-- The policy names an account as approver. -/
def Policy.Names (policy : Policy) (account : String) : Prop := ∃ pin, (account, pin) ∈ policy.approvers

/-- The keys an account is pinned to, over every entry that names it. -/
def Policy.pins (policy : Policy) (account : String) : List String :=
  policy.approvers.filterMap fun ap => if ap.1 = account then ap.2 else none

/-- An approver may sign with this key: with a pinned one, where it is pinned. -/
def Policy.AdmitsKey (policy : Policy) (matchesPin : String → String → Prop) (account publicKey : String) : Prop :=
  policy.Names account ∧ (policy.pins account ≠ [] → ∃ pin ∈ policy.pins account, matchesPin pin publicKey)

/-- A question as it is put: the wallet's key is written with its scheme in front, and the hash holds no colon. -/
def Question.Proper (q : Question) : Prop :=
  ∃ scheme key : String, q.walletPubkey = scheme ++ ":" ++ key ∧
    ':' ∉ scheme.toList ∧ ':' ∉ key.toList ∧ ':' ∉ q.requestHash.toList

/-- The standing that votes are looked at by is the policy's, and a message is of one question. -/
structure VoteRules.Correct (R : VoteRules) (matchesPin : String → String → Prop) : Prop where
  keys : ∀ policy account publicKey,
    (R.approverStanding policy account).admitsKey publicKey = true ↔ policy.AdmitsKey matchesPin account publicKey
  contracts : ∀ policy account,
    (R.approverStanding policy account).admitsContractVote = true ↔ policy.Names account ∧ policy.pins account = []
  messages : ∀ q q' : Question, q.Proper → q'.Proper →
    R.voteMessage q.verb q.approvalId q.walletPubkey q.requestHash =
      R.voteMessage q'.verb q'.approvalId q'.walletPubkey q'.requestHash → q = q'

/-- A message that is a question's vote, and no other question's. -/
structure VoteRules.StandsFor (R : VoteRules) (q : Question) (message : String) : Prop where
  spells : message = R.voteMessage q.verb q.approvalId q.walletPubkey q.requestHash
  alone : ∀ q' : Question, q.Proper → q'.Proper →
    message = R.voteMessage q'.verb q'.approvalId q'.walletPubkey q'.requestHash → q' = q

/-- What the approver's contract makes of an authorization, when it is asked about the vote at a place. -/
abbrev Payloads (Shape : Type) : Type :=
  Place → (approverId : String) → Shape → (recipient authorization : String) → Except String (Option String)

/-- A contract vote is resolved exactly when the approver's contract answers the message. -/
def ApprovalChain.Resolves (client : ApprovalChain Shape) (payload : Payloads Shape) : Prop :=
  ∀ place account shape recipient authorization expected,
    client.resolveContractVote place account shape recipient authorization expected = .ok (.ok ()) ↔
      payload place account shape recipient authorization = .ok (some expected)

/-! ## What a vote is -/

section Votes
variable (R : VoteRules) (matchesPin : String → String → Prop) (payload : Payloads Shape)
  (client : ApprovalChain Shape) (policy : Policy)

/-- A signature for this question, by a key that the policy admits and the chain says is the approver's. -/
structure KeyVoteFor (q : Question) (list : VoteList) (vote : ApproverSig × Nat) : Prop where
  admitted : policy.AdmitsKey matchesPin vote.1.approverId vote.1.publicKey
  signed : ∃ message, R.StandsFor q message ∧
    R.Signed message vote.1.signature vote.1.publicKey vote.1.nonce client.contractId
  owned : (client.owners (list, vote.2)).signerKeyBy vote.1.approverId vote.1.publicKey = .ok .fullAccess

/-- An authorization, no longer than one may be, that the contract of an approver without a pin resolves to this
    question. -/
structure ContractVoteFor (q : Question) (list : VoteList) (vote : ContractVote Shape × Nat) : Prop where
  named : policy.Names vote.1.approverId
  unpinned : policy.pins vote.1.approverId = []
  fits : vote.1.authorization.utf8ByteSize ≤ R.authorizationMaxBytes
  resolved : ∃ message, R.StandsFor q message ∧
    payload (list, vote.2) vote.1.approverId vote.1.shape client.contractId vote.1.authorization = .ok (some message)

/-- An account votes for this question in the ballot. -/
def Approves (walletPubkey requestHash : String) (info : ApprovalInfo Shape) (account : String) : Prop :=
  (∃ vote ∈ info.approvals.zipIdx, vote.1.approverId = account ∧
    KeyVoteFor R matchesPin client policy ⟨.approve, info.approvalId, walletPubkey, requestHash⟩ .approvals vote) ∨
  ∃ vote ∈ info.contractApprovals.zipIdx, vote.1.approverId = account ∧
    ContractVoteFor R payload client policy ⟨.approve, info.approvalId, walletPubkey, requestHash⟩
      .contractApprovals vote

/-- An account votes against it. -/
def Rejects (walletPubkey requestHash : String) (info : ApprovalInfo Shape) (account : String) : Prop :=
  (∃ vote ∈ info.rejections.zipIdx, vote.1.approverId = account ∧
    KeyVoteFor R matchesPin client policy ⟨.reject, info.approvalId, walletPubkey, requestHash⟩ .rejections vote) ∨
  ∃ vote ∈ info.contractRejections.zipIdx, vote.1.approverId = account ∧
    ContractVoteFor R payload client policy ⟨.reject, info.approvalId, walletPubkey, requestHash⟩
      .contractRejections vote

end Votes

/-! ## Judging -/

section Judging
variable {R : VoteRules} {matchesPin : String → String → Prop} {payload : Payloads Shape}
  {nearClient : Option (ApprovalChain Shape)} {client : ApprovalChain Shape} {policy : Policy} {q : Question}
  {list : VoteList} {walletPubkey requestHash : String}
  {info : ApprovalInfo Shape} {approvalInfo : Option (ApprovalInfo Shape)} {threshold : Nat}

/-- The message that votes are judged against is the question's. -/
theorem standsFor_message (hR : R.Correct matchesPin) (q : Question) : R.StandsFor q (R.message q) where
  spells := rfl
  alone q' hq hq' heq := (hR.messages q q' hq hq' heq).symm

/-- The ownership check passes only where the chain knows the key. -/
theorem owned_of_verify {O : KeyOwners} {account publicKey : String} {u : Unit}
    (h : O.verifyAccessKeyOwner account publicKey = .ok u) : O.signerKeyBy account publicKey = .ok .fullAccess := by
  unfold KeyOwners.verifyAccessKeyOwner at h
  cases haccount : O.parseAccountId account with
  | error e => rw [haccount] at h; cases h
  | ok _ =>
      cases hkey : O.parsePublicKey publicKey with
      | error e => rw [haccount, hkey] at h; cases h
      | ok _ =>
          rw [haccount, hkey] at h
          cases hsaid : O.signerKeyBy account publicKey with
          | error e => rw [hsaid] at h; cases h
          | ok said =>
              cases said with
              | fullAccess => rfl
              | functionCall => rw [hsaid] at h; cases h
              | absent => rw [hsaid] at h; cases h

/-- A key vote that is judged to count is one. -/
theorem keyVoteFor_of_counts (hR : R.Correct matchesPin) {vote : ApproverSig × Nat}
    (h : keyVoteCounts R client policy q list vote = .ok true) :
    KeyVoteFor R matchesPin client policy q list vote := by
  simp only [keyVoteCounts] at h
  split at h
  · cases h
  · next hadmits =>
      split at h
      · cases h
      · next hsigned =>
          split at h
          · cases h
          · next howned =>
              exact
                { admitted := (hR.keys _ _ _).mp (Bool.not_eq_false _ ▸ hadmits)
                  signed := ⟨R.message q, standsFor_message hR q, NearCrypto.verifyNearSignature_ok_iff.mp hsigned⟩
                  owned := owned_of_verify howned }

/-- A key vote is never judged not to count. -/
theorem not_keyVoteFor_of_not_counts (hR : R.Correct matchesPin) {vote : ApproverSig × Nat}
    (h : keyVoteCounts R client policy q list vote = .ok false) :
    ¬ KeyVoteFor R matchesPin client policy q list vote := by
  intro hvote
  have hadmits := (hR.keys _ _ _).mpr hvote.admitted
  obtain ⟨message, hstands, hsigned⟩ := hvote.signed
  obtain rfl : message = R.message q := hstands.spells
  have hverified := NearCrypto.verifyNearSignature_ok_iff (u := ()).mpr hsigned
  simp only [keyVoteCounts, hadmits, hverified, Bool.true_eq_false, if_false] at h
  split at h
  · cases h
  · cases h

/-- A contract vote counts exactly where it is one. -/
theorem contractVoteFor_of_counts (hR : R.Correct matchesPin) (hpayload : client.Resolves payload)
    {vote : ContractVote Shape × Nat} (h : admittedVoteCounts R client policy q list vote = .ok true) :
    ContractVoteFor R payload client policy q list vote := by
  simp only [admittedVoteCounts, contractVoteCounts] at h
  split at h
  · cases h
  · next hadmits =>
      split at h
      · cases h
      · next hfits =>
          split at h
          · cases h
          · next hresolved =>
              obtain ⟨hnamed, hunpinned⟩ := (hR.contracts _ _).mp (Bool.not_eq_false _ ▸ hadmits)
              exact
                { named := hnamed
                  unpinned := hunpinned
                  fits := Nat.le_of_not_lt hfits
                  resolved := ⟨R.message q, standsFor_message hR q, (hpayload _ _ _ _ _ _).mp hresolved⟩ }
          · cases h

theorem not_contractVoteFor_of_not_counts (hR : R.Correct matchesPin) (hpayload : client.Resolves payload)
    {vote : ContractVote Shape × Nat} (h : admittedVoteCounts R client policy q list vote = .ok false) :
    ¬ ContractVoteFor R payload client policy q list vote := by
  intro hvote
  have hadmits := (hR.contracts _ _).mpr ⟨hvote.named, hvote.unpinned⟩
  obtain ⟨message, hstands, hanswered⟩ := hvote.resolved
  obtain rfl : message = R.message q := hstands.spells
  have hresolved := (hpayload _ _ _ _ _ _).mpr hanswered
  simp only [admittedVoteCounts, contractVoteCounts, hadmits, hresolved, Bool.true_eq_false, if_false,
    if_neg (Nat.not_lt.mpr hvote.fits)] at h
  cases h

/-! ## The ballot -/

/-- An account that is counted is an approver, and approves. -/
theorem approves_of_approvedBy (hR : R.Correct matchesPin) (hpayload : client.Resolves payload)
    {approved : List String} (h : approvedBy R client policy walletPubkey requestHash info = .ok approved)
    {account : String} (hmem : account ∈ approved) :
    policy.Names account ∧ Approves R matchesPin payload client policy walletPubkey requestHash info account := by
  obtain ⟨byKey, hkeys, hcontracts⟩ := bind_ok h
  rcases (Tally.mem_of_tally hcontracts account).mp hmem with hin | ⟨vote, hvote, rfl, hcounts⟩
  · rcases (Tally.mem_of_tally hkeys account).mp hin with hnil | ⟨vote, hvote, rfl, hcounts⟩
    · exact absurd hnil List.not_mem_nil
    · have hfor := keyVoteFor_of_counts hR hcounts
      exact ⟨hfor.admitted.1, Or.inl ⟨vote, hvote, rfl, hfor⟩⟩
  · have hfor := contractVoteFor_of_counts hR hpayload hcounts
    exact ⟨hfor.named, Or.inr ⟨vote, hvote, rfl, hfor⟩⟩

theorem nodup_approvedBy {approved : List String}
    (h : approvedBy R client policy walletPubkey requestHash info = .ok approved) : approved.Nodup := by
  obtain ⟨byKey, hkeys, hcontracts⟩ := bind_ok h
  exact Tally.nodup_of_tally hcontracts (Tally.nodup_of_tally hkeys List.nodup_nil)

/-- Where nothing is vetoed, no account rejects. -/
theorem not_rejects_of_noVeto (hR : R.Correct matchesPin) (hpayload : client.Resolves payload)
    (h : noVeto R client policy walletPubkey requestHash info = .ok ()) (account : String) :
    ¬ Rejects R matchesPin payload client policy walletPubkey requestHash info account := by
  obtain ⟨u, hkeys, hcontracts⟩ := bind_ok h
  rintro (⟨vote, hvote, -, hfor⟩ | ⟨vote, hvote, -, hfor⟩)
  · exact not_keyVoteFor_of_not_counts hR (Tally.veto_ok_iff.mp hkeys vote hvote) hfor
  · exact not_contractVoteFor_of_not_counts hR hpayload (Tally.veto_ok_iff.mp hcontracts vote hvote) hfor

/-- What an operation that passes was decided by. -/
theorem decided_of_verifyApprovals
    (h : verifyApprovals R nearClient policy walletPubkey requestHash approvalInfo threshold = .ok ()) :
    ∃ client info approved, nearClient = some client ∧ approvalInfo = some info ∧
      approvedBy R client policy walletPubkey requestHash info = .ok approved ∧
      noVeto R client policy walletPubkey requestHash info = .ok () ∧ threshold ≤ approved.length := by
  cases nearClient with
  | none => cases h
  | some client =>
      obtain ⟨-, -, h⟩ := bind_ok h
      cases approvalInfo with
      | none => cases h
      | some info =>
          obtain ⟨-, -, h⟩ := bind_ok h
          obtain ⟨-, -, h⟩ := bind_ok h
          obtain ⟨approved, happroved, h⟩ := bind_ok h
          obtain ⟨_, hveto, h⟩ := bind_ok h
          exact ⟨client, info, approved, rfl, rfl, happroved, hveto, demand_ok h⟩

end Judging

/-! ## The quorum -/

/-- An operation that passes has as many approvers as it needs, each with a vote of its own for this wallet and this
    request; and none of its approvers rejects it. -/
theorem quorum_is_real (R : VoteRules) (matchesPin : String → String → Prop) (payload : Payloads Shape)
    (nearClient : Option (ApprovalChain Shape)) (policy : Policy) (walletPubkey requestHash : String)
    (approvalInfo : Option (ApprovalInfo Shape)) (threshold : Nat) (hR : R.Correct matchesPin)
    (hpayload : ∀ client ∈ nearClient, client.Resolves payload)
    (hok : verifyApprovals R nearClient policy walletPubkey requestHash approvalInfo threshold = .ok ()) :
    ∃ client ∈ nearClient, ∃ info ∈ approvalInfo,
      (∃ accounts : List String, accounts.Nodup ∧ threshold ≤ accounts.length ∧ ∀ account ∈ accounts,
        policy.Names account ∧ Approves R matchesPin payload client policy walletPubkey requestHash info account) ∧
      ∀ account, policy.Names account →
        ¬ Rejects R matchesPin payload client policy walletPubkey requestHash info account := by
  obtain ⟨client, info, approved, rfl, rfl, happroved, hveto, henough⟩ := decided_of_verifyApprovals hok
  have hclient := hpayload client rfl
  refine ⟨client, rfl, info, rfl, ⟨approved, nodup_approvedBy happroved, henough, ?_⟩, ?_⟩
  · exact fun account hmem => approves_of_approvedBy hR hclient happroved hmem
  · exact fun account _ => not_rejects_of_noVeto hR hclient hveto account

/-! ## A ballot of several votes -/

/-- The first 32 bytes, filled up with zeros. -/
def sampleHash (bytes : List UInt8) : Vector UInt8 32 := Vector.ofFn fun i => bytes.getD i 0

/-- Crates for Ed25519 keys alone; a signature is the key and what is signed. -/
def sampleCrypto : NearCrypto where
  publicKeyFromStr s :=
    match stripPrefix s "ed25519:" with
    | some key => .ok ⟨.ed25519, utf8 key⟩
    | none     => .error "unknown scheme"
  signatureFromStr _ := .error "unknown scheme"
  signatureFromParts keyType bytes := .ok ⟨keyType, bytes⟩
  showKeyType _ := "ed25519"
  verify sig data key := sig.bytes = key.bytes ++ data
  sha256 := sampleHash
  base64Decode s := (base64Decode s).elim (.error "Invalid symbol") .ok
  textTooLong := "too long"

/-- Standings as the policy has them, and messages of four fields. -/
def sampleRules : VoteRules where
  toNearCrypto := sampleCrypto
  voteMessage verb approvalId walletPubkey requestHash :=
    (if verb = .approve then "approve" else "reject") ++ ":" ++ approvalId ++ ":" ++ walletPubkey ++ ":" ++ requestHash
  approverStanding policy account :=
    { admitsKey := fun key => account ∈ policy.approvers.map Prod.fst ∧
        (policy.pins account = [] ∨ key ∈ policy.pins account)
      admitsContractVote := account ∈ policy.approvers.map Prod.fst ∧ policy.pins account = [] }
  authorizationMaxBytes := 4096

theorem names_iff {policy : Policy} {account : String} :
    policy.Names account ↔ account ∈ policy.approvers.map Prod.fst := by
  simp [Policy.Names]

/-- The fields are found again from both ends: the verb from the front, the hash and the key from behind. -/
theorem sampleRules_messages (q q' : Question) (hq : q.Proper) (hq' : q'.Proper)
    (h : sampleRules.message q = sampleRules.message q') : q = q' := by
  obtain ⟨verb, approvalId, walletPubkey, requestHash⟩ := q
  obtain ⟨verb', approvalId', walletPubkey', requestHash'⟩ := q'
  obtain ⟨scheme, key, hwallet, hscheme, hkey, hhash⟩ := hq
  obtain ⟨scheme', key', hwallet', hscheme', hkey', hhash'⟩ := hq'
  dsimp only at hwallet hwallet' hhash hhash'
  subst hwallet hwallet'
  have hword : ∀ v : VoteVerb, ':' ∉ (if v = .approve then "approve" else "reject").toList := by
    intro v
    cases v with
    | approve => decide
    | reject => decide
  have hchars := congrArg String.toList h
  simp only [VoteRules.message, sampleRules, String.toList_append, String.reduceToList, List.append_assoc,
    List.cons_append, List.nil_append] at hchars
  obtain ⟨hverb, hfields⟩ := Fields.cut_first (hword verb) (hword verb') hchars
  have hbefore := Fields.cut_last (a := approvalId.toList ++ ':' :: (scheme.toList ++ ':' :: key.toList))
    (b := approvalId'.toList ++ ':' :: (scheme'.toList ++ ':' :: key'.toList)) hhash hhash' (by simpa using hfields)
  have hwallet := Fields.cut_last (a := approvalId.toList ++ ':' :: scheme.toList)
    (b := approvalId'.toList ++ ':' :: scheme'.toList) hkey hkey' (by simpa using hbefore.1)
  have hid := Fields.cut_last hscheme hscheme' hwallet.1
  obtain rfl := String.toList_inj.mp hbefore.2
  obtain rfl := String.toList_inj.mp hwallet.2
  obtain rfl := String.toList_inj.mp hid.1
  obtain rfl := String.toList_inj.mp hid.2
  obtain rfl : verb = verb' := by
    cases verb <;> cases verb' <;> first | rfl | exact absurd hverb (by decide)
  rfl

theorem sampleRules_correct : sampleRules.Correct (· = ·) where
  keys policy account publicKey := by
    simp only [sampleRules, decide_eq_true_iff, Policy.AdmitsKey, names_iff, exists_eq_right]
    rw [or_iff_not_imp_left]
  contracts policy account := by
    simp only [sampleRules, decide_eq_true_iff, names_iff]
  messages := sampleRules_messages

/-- A chain on which each account has one key, of its own name, and contracts answer what they are given. -/
def sampleChain : ApprovalChain String where
  contractId := "outlayer.test"
  owners _ :=
    { parseAccountId := fun _ => .ok ()
      parsePublicKey := fun _ => .ok ()
      keyForDisplay := id
      signerKeyBy := fun account key => if key = "ed25519:" ++ account then .ok .fullAccess else .ok .absent }
  resolveContractVote _ _ _ _ authorization expected :=
    if authorization = expected then .ok (.ok ()) else .ok (.error "another message")

/-- Three approvers: any key of the first, one key of the second, and the third with any key or its contract. -/
def samplePolicy : Policy :=
  ⟨some ⟨some [⟨some "a.testnet", none⟩, ⟨some "b.testnet", some "ed25519:b.testnet"⟩, ⟨some "c.testnet", none⟩]⟩⟩

/-- A key's vote for the sample's request, in an account's name. -/
def signedVote (account key : String) : ApproverSig where
  approverId := account
  publicKey := "ed25519:" ++ key
  signature := base64Encode (utf8 key ++ (sampleHash (NearCrypto.nep413Payload "approve:a1:ed25519:wallet:hash"
    (List.replicate 32 0) "outlayer.test")).toList)
  nonce := base64Encode (List.replicate 32 0)

/-- The vote of `a.testnet`, signed by its key. -/
def sampleVote : ApproverSig := signedVote "a.testnet" "a.testnet"

/-- A ballot of one approval, with these votes for it. -/
def sampleBallot (approvals : List ApproverSig) : ApprovalInfo String where
  approvalId := "a1"
  recipient := "outlayer.test"
  approvals := approvals

/-- Two votes of `a.testnet`, one of a stranger, and one for `b.testnet` by a key it is not pinned to; the word of the
    contract of `c.testnet`; and a rejection that no key signed. -/
def severalVotes : ApprovalInfo String where
  approvalId := "a1"
  recipient := "outlayer.test"
  approvals := [sampleVote, sampleVote, signedVote "mallory.testnet" "mallory.testnet",
    signedVote "b.testnet" "a.testnet"]
  rejections := [sampleVote]
  contractApprovals := [⟨"c.testnet", "resolver", "approve:a1:ed25519:wallet:hash"⟩]

theorem sampleChain_resolves : sampleChain.Resolves fun _ _ _ _ authorization => .ok (some authorization) := by
  intro place account shape recipient authorization expected
  simp [sampleChain]

/-- Two accounts carry a threshold of two, one of them by its key and one by its contract. -/
theorem two_votes_are_a_quorum :
    ∃ client ∈ some sampleChain, ∃ info ∈ some severalVotes,
      (∃ accounts : List String, accounts.Nodup ∧ 2 ≤ accounts.length ∧ ∀ account ∈ accounts,
        samplePolicy.Names account ∧ Approves sampleRules (· = ·)
          (fun _ _ _ _ authorization => .ok (some authorization)) client samplePolicy "ed25519:wallet" "hash" info
          account) ∧
      ∀ account, samplePolicy.Names account → ¬ Rejects sampleRules (· = ·)
        (fun _ _ _ _ authorization => .ok (some authorization)) client samplePolicy "ed25519:wallet" "hash" info
          account :=
  quorum_is_real sampleRules (· = ·) _ (some sampleChain) samplePolicy "ed25519:wallet" "hash" (some severalVotes) 2
    sampleRules_correct (fun client h => Option.some.inj h ▸ sampleChain_resolves) (by decide +kernel)

end Keystore
end Outlayer
