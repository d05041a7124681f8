import Outlayer.Contract.Types
import Outlayer.Lib.Checked
import Outlayer.Lib.Collections

/-!
# `KeystoreDao.Contract` — the DAO that admits keystores

The contract decides which keystore instances hold an access key on its account, and keeps the registry of vaults:
whether operations ceased, which vault code is approved, which vaults are verified or banned. Four things are put to
the vote of the members, in two ways: registrations and revocations of keystore keys are proposals with an id, vault
versions are voted on by their hash. Every method is here, with what it logs as data; the text of a log line stands
beside its constructor.
-/

namespace Outlayer
open Checked Collections Text

/-- A public key as this contract's SDK knows them. -/
inductive KeystoreKey
  | ed25519 (data : Vector UInt8 32)
  | secp256k1 (data : Vector UInt8 64)
  | mldsa65 (data : Vector UInt8 1952)
deriving DecidableEq

/-! ## State -/

/-- What a keystore measures of its environment, each in 96 hex characters. -/
structure ApprovedMeasurements where
  mrtd : String
  rtmr0 : String
  rtmr1 : String
  rtmr2 : String
  rtmr3 : String
deriving DecidableEq

/-- Where a proposal stands. -/
inductive ProposalStatus
  | pending
  | approved
  | rejected
  | executed
deriving DecidableEq

/-- A proposal to register one keystore. -/
structure KeystoreProposal where
  id : Nat
  publicKey : KeystoreKey
  measurements : ApprovedMeasurements
  submitter : AccountId
  createdAt : Nat
  votesFor : Nat
  votesAgainst : Nat
  status : ProposalStatus
deriving DecidableEq

/-- A proposal to revoke a set of keys, fixed when it is made. -/
structure RevokeKeysProposal where
  id : Nat
  publicKeys : List KeystoreKey
  proposer : AccountId
  createdAt : Nat
  votesFor : Nat
  votesAgainst : Nat
  status : ProposalStatus
deriving DecidableEq

/-- What is kept of an approved version of the vault's code. -/
structure VaultVersionInfo where
  label : String
  auditUrl : Option String
  deprecated : Bool
  approvedAt : Nat
deriving DecidableEq

/-- What the first voter for a version said of it; later voters have to say the same. -/
structure ApprovalArgs where
  label : String
  auditUrl : Option String
deriving DecidableEq

/-- What a vote on a version would do. -/
inductive VaultVersionAction
  | approve (hash : CryptoHash)
  | revoke (hash : CryptoHash)
deriving DecidableEq

/-- The contract's state. -/
structure KeystoreDao where
  daoMembers : UnorderedSet AccountId
  approvalThreshold : Nat
  ownerId : AccountId
  initAccountId : AccountId
  mpcContractId : AccountId
  proposals : LookupMap Nat KeystoreProposal
  nextProposalId : Nat
  votes : LookupMap (Nat × AccountId) Bool
  approvedKeystores : UnorderedSet KeystoreKey
  approvedMeasurements : List ApprovedMeasurements
  collaterals : List String
  ceasedOperations : Bool
  approvedVaultCodeHashes : UnorderedSet CryptoHash
  vaultVersions : LookupMap CryptoHash VaultVersionInfo
  verifiedVaults : UnorderedSet AccountId
  bannedVaults : UnorderedSet AccountId
  vaultVersionVotes : LookupMap VaultVersionAction (List AccountId)
  vaultVersionApprovalArgs : LookupMap CryptoHash ApprovalArgs
  revokeProposals : LookupMap Nat RevokeKeysProposal

namespace KeystoreDao

/-- How many collaterals are kept, and how many keys one proposal revokes. -/
def maxCollaterals : Nat := 2
def maxRevokeBatch : Nat := 16

/-- A length cast to 32 bits. -/
def asU32 (n : Nat) : Nat := n % 2 ^ 32

/-! ## What a method asks for, and what it logs -/

/-- The arguments of a key derivation. -/
structure CKDRequestArgs where
  derivationPath : String
  appPublicKey : String
  domainId : Nat
deriving DecidableEq

/-- What a call asks the chain for. -/
inductive Promise
  /-- a function-call key on the contract's own account, without a limit -/
  | addAccessKey (publicKey : KeystoreKey) (methods : String)
  | deleteKey (publicKey : KeystoreKey)
  | requestAppPrivateKey (receiver : AccountId) (request : CKDRequestArgs)
deriving DecidableEq

/-- What a call writes to the log. -/
inductive Log
  /-- `App_id: …` -/
  | appId (appId : String)
  /-- `Verified TDX quote. report_data binding (hex): …` -/
  | quoteVerified (reportData : String)
  /-- `Measurements from TDX quote: mrtd=…, …` -/
  | quoteMeasurements (m : ApprovedMeasurements)
  /-- `Measurements are in approved list` -/
  | measurementsInList
  /-- `Created proposal … for keystore registration (all 5 TEE measurements verified)` -/
  | proposalCreated (id : Nat)
  /-- `Proposal … approved with … votes` -/
  | proposalApproved (id votes : Nat)
  /-- `Proposal … rejected with … votes against` -/
  | proposalRejected (id votes : Nat)
  /-- `Executed proposal …: Added keystore access key (…)` -/
  | proposalExecuted (id : Nat) (publicKey : KeystoreKey)
  /-- `Cleared … existing measurement entries` -/
  | measurementsCleared (count : Nat)
  /-- `Approved measurements added: mrtd=…, …`, then `Total approved measurements: …` -/
  | measurementsAdded (m : ApprovedMeasurements) (total : Nat)
  /-- `Cleared all … measurement entries` -/
  | allMeasurementsCleared (count : Nat)
  /-- `Approved measurements removed. Remaining: …` -/
  | measurementsRemoved (remaining : Nat)
  /-- `Created revoke proposal … for … keystore key(s)` -/
  | revokeProposalCreated (id keys : Nat)
  /-- `Revoke proposal … rejected with … votes against` -/
  | revokeProposalRejected (id votes : Nat)
  /-- `revoke_vote proposal=… votes=…/…` -/
  | revokeVote (id votes threshold : Nat)
  /-- `Revoked keystore key (…)` -/
  | keystoreKeyRevoked (publicKey : KeystoreKey)
  /-- `Executed revoke proposal …: … key(s) revoked, … already gone. Approved keystores remaining: …` -/
  | revokeProposalExecuted (id revoked gone remaining : Nat)
  /-- `Added DAO member: …` -/
  | memberAdded (member : AccountId)
  /-- `Removed DAO member: …` -/
  | memberRemoved (member : AccountId)
  /-- `Quote collateral updated at index … (total slots: …)` -/
  | collateralUpdated (index total : Nat)
  /-- `cessation_declared` -/
  | cessationDeclared
  /-- `cessation_revoked` -/
  | cessationRevoked
  /-- `vault_version_approval_vote hash=… votes=…/…` -/
  | versionApprovalVote (hash : CryptoHash) (votes threshold : Nat)
  /-- `vault_version_approved …` -/
  | versionApproved (hash : CryptoHash)
  /-- `vault_version_deprecated …` -/
  | versionDeprecated (hash : CryptoHash)
  /-- `vault_version_revoke_vote hash=… votes=…/…` -/
  | versionRevokeVote (hash : CryptoHash) (votes threshold : Nat)
  /-- `vault_version_revoked …` -/
  | versionRevoked (hash : CryptoHash)
  /-- `vault_verified …` -/
  | vaultVerified (vault : AccountId)
  /-- `vault_banned … reason="…"` -/
  | vaultBanned (vault : AccountId) (reason : String)
  /-- `vault_unbanned …` -/
  | vaultUnbanned (vault : AccountId)
deriving DecidableEq

/-- What a method does besides changing the state: logs, promises, a value. -/
structure Outcome where
  logs : List Log := []
  promises : List Promise := []
  value : Option Nat := none
deriving DecidableEq

/-- The context of a call. -/
structure Env where
  predecessor : AccountId
  attachedDeposit : Nat
  blockTimestamp : Nat

/-! ## Construction -/

/-- `>50%` of a number of members. -/
def thresholdOf (members : Nat) : Nat := asU32 members / 2 + 1

/-- A new contract, with its members. -/
def new (ownerId initAccountId : AccountId) (daoMembers : List AccountId) (mpcContractId : AccountId) :
    Res KeystoreDao := do
  require (daoMembers ≠ []) "DAO must have at least one member"
  pure { daoMembers := daoMembers.foldl UnorderedSet.insert UnorderedSet.empty
         -- the length of the list, not of the set
         approvalThreshold := thresholdOf daoMembers.length
         ownerId, initAccountId, mpcContractId
         proposals := ∅, nextProposalId := 1, votes := ∅
         approvedKeystores := UnorderedSet.empty, approvedMeasurements := [], collaterals := []
         ceasedOperations := false
         approvedVaultCodeHashes := UnorderedSet.empty, vaultVersions := ∅
         verifiedVaults := UnorderedSet.empty, bannedVaults := UnorderedSet.empty
         vaultVersionVotes := ∅, vaultVersionApprovalArgs := ∅, revokeProposals := ∅ }

/-! ## Who may call -/

/-- Only the owner goes on. -/
def assertOwner (env : Env) (d : KeystoreDao) : Res Unit :=
  require (env.predecessor = d.ownerId) "Only owner can call this method"

/-- Only a member goes on. -/
def assertDaoMember (env : Env) (d : KeystoreDao) : Res Unit :=
  require (env.predecessor ∈ d.daoMembers) "only DAO members can call this method"

/-- The calls an access key on the contract's own account makes. -/
def assertSelf (env : Env) (current : AccountId) : Res Unit :=
  require (env.predecessor = current) "must be called via an approved-keystore access key on this contract"

/-! ## Registration -/

/-- The part of a verified report that is read. -/
structure TdReport where
  mrTd : Vector UInt8 48
  rtMr0 : Vector UInt8 48
  rtMr1 : Vector UInt8 48
  rtMr2 : Vector UInt8 48
  rtMr3 : Vector UInt8 48
  reportData : Vector UInt8 64

/-- What the verification of a quote returns; `td10` is absent when the report is not of that format. -/
structure VerifiedReport where
  status : String
  advisoryIds : List String
  td10 : Option TdReport

/-- What the contract takes from the attestation library and the runtime: reading the platform of a quote,
    verifying a quote against a collateral at a time in seconds, and the hash. -/
structure Attestation where
  quoteFmspc : List UInt8 → Res (List UInt8)
  verify : List UInt8 → String → Nat → Res VerifiedReport
  sha256 : List UInt8 → CryptoHash

/-- The platform a cached collateral is for: the twelve hex digits after `fmspc`, whatever stands between. -/
def collateralFmspc (collateral : String) : Option String :=
  (afterFirst "fmspc".toList collateral.toList).bind fun rest =>
    let hex := (rest.dropWhile fun c => !isAsciiHexdigit c).takeWhile isAsciiHexdigit
    if 12 ≤ hex.length then some (String.ofList (hex.take 12)) else none

/-- The measurements and the first 32 bytes of the report data of a quote that verifies. -/
def verifyTdxQuote (A : Attestation) (env : Env) (tdxQuoteHex collateral : String) :
    Res (ApprovedMeasurements × CryptoHash) := do
  let quote ← expect (hexDecode tdxQuoteHex) "Invalid hex encoding"
  let result ← A.verify quote collateral (env.blockTimestamp / 1000000000)
  -- the library accepts a platform that needs an update; the contract does not
  require (result.status = "UpToDate")
    ("TDX TCB status not acceptable: " ++ result.status ++ " (platform needs a firmware/microcode update)")
  require (result.advisoryIds = [])
    ("TDX platform has outstanding security advisories: " ++ ", ".intercalate result.advisoryIds)
  let td10 ← expect result.td10 "Quote is not TDX format (expected TD10)"
  pure ({ mrtd := hexEncode td10.mrTd.toList, rtmr0 := hexEncode td10.rtMr0.toList
          rtmr1 := hexEncode td10.rtMr1.toList, rtmr2 := hexEncode td10.rtMr2.toList
          rtmr3 := hexEncode td10.rtMr3.toList },
    (td10.reportData.take 32).cast (by decide))

/-- The 32 bytes a quote binds a key with. -/
def expectedBinding (A : Attestation) : KeystoreKey → Res CryptoHash
  | .ed25519 data  => pure data
  | .mldsa65 data  => pure (A.sha256 data.toList)
  | .secp256k1 _   => throw "Unsupported keystore key curve SECP256K1 (use ed25519 or ml-dsa-65)"

/-- The attestation of a submission: the quote verifies against the collateral of its platform, its measurements are
    approved, and it binds the key. -/
def attest (A : Attestation) (env : Env) (d : KeystoreDao) (publicKey : KeystoreKey) (tdxQuoteHex : String) :
    Res (ApprovedMeasurements × CryptoHash) := do
  require (d.collaterals ≠ []) "No quote collateral cached (owner must call update_collateral)"
  let quote ← expect (hexDecode tdxQuoteHex) "Invalid quote hex encoding"
  let fmspc ← A.quoteFmspc quote
  let platform := hexEncode fmspc
  let collateral ← expect
    (d.collaterals.find? fun c => ((collateralFmspc c).map fun f => eqIgnoreAsciiCase f platform).getD false)
    ("No cached collateral for quote FMSPC " ++ platform ++ " (owner must update_collateral for this platform)")
  let (measurements, reportData) ← (verifyTdxQuote A env tdxQuoteHex collateral).mapError
    ("TDX quote verification failed: " ++ ·)
  require (measurements ∈ d.approvedMeasurements)
    ("Worker measurements not approved. MRTD=" ++ measurements.mrtd ++ ", RTMR0=" ++ measurements.rtmr0
      ++ ", RTMR1=" ++ measurements.rtmr1 ++ ", RTMR2=" ++ measurements.rtmr2 ++ ", RTMR3=" ++ measurements.rtmr3
      ++ ".")
  let binding ← expectedBinding A publicKey
  require (reportData = binding) "Public key mismatch: provided key doesn't match TDX quote"
  pure (measurements, reportData)

/-- Propose a keystore for registration. Nobody has voted for it yet. -/
def submitKeystoreRegistration (A : Attestation) (env : Env) (d : KeystoreDao) (publicKey : KeystoreKey)
    (tdxQuoteHex : String) (appId : Option String) : Res (KeystoreDao × Outcome) := do
  require (env.predecessor = d.initAccountId) ("Only " ++ d.initAccountId.name ++ " can submit registrations")
  require (publicKey ∉ d.approvedKeystores) "Keystore already approved"
  let (measurements, reportData) ← attest A env d publicKey tdxQuoteHex
  let id := d.nextProposalId
  let nextId ← add 64 d.nextProposalId 1
  let proposal : KeystoreProposal :=
    { id, publicKey, measurements, submitter := env.predecessor, createdAt := env.blockTimestamp
      votesFor := 0, votesAgainst := 0, status := .pending }
  pure ({ d with proposals := d.proposals.insert id proposal, nextProposalId := nextId },
    { logs := (appId.map Log.appId).toList ++ [.quoteVerified (hexEncode reportData.toList),
        .quoteMeasurements measurements, .measurementsInList, .proposalCreated id]
      value := some id })

/-! ## Votes on proposals -/

/-- The members whose vote on a proposal is `approve`, counted in 32 bits. -/
def liveVotes (d : KeystoreDao) (id : Nat) (approve : Bool) : Res Nat :=
  add 32 0 (d.daoMembers.elems.countP fun m => decide (d.votes.lookup (id, m) = some approve))

/-- What the votes of the members there are now come to. -/
inductive Tally
  | carried (votes : Nat)
  | rejected (votes : Nat)
  | undecided (votes : Nat)

/-- The tally both kinds of proposals share: enough for it, or too many against it for that to happen yet. -/
def tally (d : KeystoreDao) (id : Nat) : Res Tally := do
  let liveFor ← liveVotes d id true
  let liveAgainst ← liveVotes d id false
  if d.approvalThreshold ≤ liveFor then pure (.carried liveFor)
  else do
    let spare ← sub (asU32 d.daoMembers.elems.length) d.approvalThreshold
    if spare < liveAgainst then pure (.rejected liveAgainst) else pure (.undecided liveFor)

/-- A vote is recorded once for each member and proposal. -/
def recordVote (env : Env) (d : KeystoreDao) (id : Nat) (approve : Bool) : Res KeystoreDao := do
  require (d.votes.lookup (id, env.predecessor) = none) "Already voted on this proposal"
  pure { d with votes := d.votes.insert (id, env.predecessor) approve }

/-- The two counters of a proposal after a vote: every vote ever cast, and not what decides. -/
def countVote (approve : Bool) (votesFor votesAgainst : Nat) : Res (Nat × Nat) :=
  if approve then (add 32 votesFor 1).map (·, votesAgainst) else (add 32 votesAgainst 1).map (votesFor, ·)

/-- Install the access key of an approved keystore. -/
def internalExecuteProposal (d : KeystoreDao) (id : Nat) (proposal : KeystoreProposal) :
    Res (KeystoreDao × Outcome) := do
  require (proposal.status = .approved) "Proposal is not approved"
  pure ({ d with proposals := d.proposals.insert id { proposal with status := .executed }
                 approvedKeystores := d.approvedKeystores.insert proposal.publicKey },
    { logs := [.proposalExecuted id proposal.publicKey]
      promises := [.addAccessKey proposal.publicKey "request_key,mark_vault_verified,ban_vault"] })

/-- Take the keys that are still approved out of the set, one by one. -/
def revokeKeys (approved : UnorderedSet KeystoreKey) :
    List KeystoreKey → UnorderedSet KeystoreKey × List KeystoreKey × Nat
  | []      => (approved, [], 0)
  | k :: ks =>
      if k ∈ approved then
        let (rest, revoked, gone) := revokeKeys (approved.remove k) ks
        (rest, k :: revoked, gone)
      else
        let (rest, revoked, gone) := revokeKeys approved ks
        (rest, revoked, gone + 1)

/-- The keys of a proposal are struck from the list and deleted. -/
def internalExecuteRevoke (d : KeystoreDao) (id : Nat) (proposal : RevokeKeysProposal) : KeystoreDao × Outcome :=
  let (approved, revoked, gone) := revokeKeys d.approvedKeystores proposal.publicKeys
  ({ d with approvedKeystores := approved, revokeProposals := d.revokeProposals.insert id proposal },
    { logs := revoked.map Log.keystoreKeyRevoked ++
        [.revokeProposalExecuted id revoked.length gone approved.elems.length]
      promises := revoked.map Promise.deleteKey })

/-- A vote on the revocation of keys, which executes it when the threshold is reached. -/
def internalVoteRevoke (env : Env) (d : KeystoreDao) (id : Nat) (approve : Bool) : Res (KeystoreDao × Outcome) := do
  let proposal ← expect (d.revokeProposals.lookup id) "Revoke proposal not found"
  require (proposal.status = .pending) "Proposal is not pending"
  let d ← recordVote env d id approve
  let (votesFor, votesAgainst) ← countVote approve proposal.votesFor proposal.votesAgainst
  let proposal := { proposal with votesFor, votesAgainst }
  match ← tally d id with
  | .carried _       => pure (internalExecuteRevoke d id { proposal with status := .executed })
  | .rejected votes  =>
      pure ({ d with revokeProposals := d.revokeProposals.insert id { proposal with status := .rejected } },
        { logs := [.revokeProposalRejected id votes] })
  | .undecided votes =>
      pure ({ d with revokeProposals := d.revokeProposals.insert id proposal },
        { logs := [.revokeVote id votes d.approvalThreshold] })

/-- One entry point for both kinds: the ids come from one counter. -/
def vote (env : Env) (d : KeystoreDao) (id : Nat) (approve : Bool) : Res (KeystoreDao × Outcome) := do
  require (env.predecessor ∈ d.daoMembers) "Only DAO members can vote"
  if (d.revokeProposals.lookup id).isSome then internalVoteRevoke env d id approve
  else do
    let proposal ← expect (d.proposals.lookup id) "Proposal not found"
    require (proposal.status = .pending) "Proposal is not pending"
    let d ← recordVote env d id approve
    let (votesFor, votesAgainst) ← countVote approve proposal.votesFor proposal.votesAgainst
    let proposal := { proposal with votesFor, votesAgainst }
    match ← tally d id with
    | .carried votes  => do
        let (d, o) ← internalExecuteProposal d id { proposal with status := .approved }
        pure (d, { o with logs := .proposalApproved id votes :: o.logs })
    | .rejected votes =>
        pure ({ d with proposals := d.proposals.insert id { proposal with status := .rejected } },
          { logs := [.proposalRejected id votes] })
    | .undecided _    => pure ({ d with proposals := d.proposals.insert id proposal }, {})

/-- The keys of a proposal, in turn: each is approved, and none is named twice. -/
def checkRevocable (d : KeystoreDao) (seen : List KeystoreKey) : List KeystoreKey → Res Unit
  | []      => pure ()
  | k :: ks => do
      require (k ∈ d.approvedKeystores)
        "Key not in approved_keystores: only DAO-installed keystore keys can be revoked"
      require (k ∉ seen) "Duplicate key in public_keys"
      checkRevocable d (k :: seen) ks

/-- Propose to revoke keys; the proposer votes for it at once. -/
def proposeRevokeKeystoreKeys (env : Env) (d : KeystoreDao) (publicKeys : List KeystoreKey) :
    Res (KeystoreDao × Outcome) := do
  assertDaoMember env d
  require (publicKeys ≠ []) "public_keys must not be empty"
  require (publicKeys.length ≤ maxRevokeBatch)
    "Too many keys in one proposal (gas headroom); split into several proposals"
  checkRevocable d [] publicKeys
  let id := d.nextProposalId
  let nextId ← add 64 d.nextProposalId 1
  let proposal : RevokeKeysProposal :=
    { id, publicKeys, proposer := env.predecessor, createdAt := env.blockTimestamp, votesFor := 0
      votesAgainst := 0, status := .pending }
  let (d, o) ← internalVoteRevoke env
    { d with nextProposalId := nextId, revokeProposals := d.revokeProposals.insert id proposal } id true
  pure (d, { o with logs := .revokeProposalCreated id publicKeys.length :: o.logs, value := some id })

/-! ## The owner's methods -/

/-- Add a member. -/
def addDaoMember (env : Env) (d : KeystoreDao) (member : AccountId) : Res (KeystoreDao × Outcome) := do
  assertOwner env d
  let daoMembers := d.daoMembers.insert member
  pure ({ d with daoMembers, approvalThreshold := thresholdOf daoMembers.elems.length },
    { logs := [.memberAdded member] })

/-- Remove a member. -/
def removeDaoMember (env : Env) (d : KeystoreDao) (member : AccountId) : Res (KeystoreDao × Outcome) := do
  assertOwner env d
  require (d.daoMembers.elems.length > 1) "Cannot remove last DAO member"
  let daoMembers := d.daoMembers.remove member
  -- no vote is tallied again, and no vote or argument of the member is dropped
  pure ({ d with daoMembers, approvalThreshold := thresholdOf daoMembers.elems.length },
    { logs := [.memberRemoved member] })

/-- A measurement is 96 hexadecimal digits. -/
def validateMeasurementField (name value : String) : Res Unit := do
  require (value.utf8ByteSize = 96)
    ("Invalid " ++ name ++ " format: expected 96 hex characters, got " ++ toString value.utf8ByteSize)
  require (value.toList.all isAsciiHexdigit = true) ("Invalid " ++ name ++ " format: must be hex string")

/-- All measurements of a build. -/
def validateMeasurements (m : ApprovedMeasurements) : Res Unit := do
  validateMeasurementField "mrtd" m.mrtd
  validateMeasurementField "rtmr0" m.rtmr0
  validateMeasurementField "rtmr1" m.rtmr1
  validateMeasurementField "rtmr2" m.rtmr2
  validateMeasurementField "rtmr3" m.rtmr3

/-- Approve a build, in place of the others if so asked. -/
def addApprovedMeasurements (env : Env) (d : KeystoreDao) (measurements : ApprovedMeasurements)
    (clearOthers : Option Bool) : Res (KeystoreDao × Outcome) := do
  assertOwner env d
  validateMeasurements measurements
  let clear := clearOthers.getD false
  let kept := if clear then [] else d.approvedMeasurements
  let approvedMeasurements := if measurements ∈ kept then kept else kept ++ [measurements]
  pure ({ d with approvedMeasurements },
    { logs := (if clear then [.measurementsCleared d.approvedMeasurements.length] else []) ++
        [.measurementsAdded measurements approvedMeasurements.length] })

/-- Approve no build. -/
def clearAllApprovedMeasurements (env : Env) (d : KeystoreDao) : Res (KeystoreDao × Outcome) := do
  assertOwner env d
  pure ({ d with approvedMeasurements := [] }, { logs := [.allMeasurementsCleared d.approvedMeasurements.length] })

/-- Approve a build no longer. -/
def removeApprovedMeasurements (env : Env) (d : KeystoreDao) (measurements : ApprovedMeasurements) :
    Res (KeystoreDao × Outcome) := do
  assertOwner env d
  let approvedMeasurements := d.approvedMeasurements.filter fun m => decide (m ≠ measurements)
  pure ({ d with approvedMeasurements }, { logs := [.measurementsRemoved approvedMeasurements.length] })

/-- One slot for each platform, filled from the first on. -/
def updateCollateral (env : Env) (d : KeystoreDao) (collateral : String) (index : Nat) :
    Res (KeystoreDao × Outcome) := do
  assertOwner env d
  require (index < maxCollaterals)
    ("index must be < " ++ toString maxCollaterals ++ " (MAX_COLLATERALS)")
  require (index ≤ d.collaterals.length) "Fill lower collateral indices first (no gaps allowed)"
  let collaterals :=
    if index < d.collaterals.length then d.collaterals.set index collateral else d.collaterals ++ [collateral]
  pure ({ d with collaterals }, { logs := [.collateralUpdated index collaterals.length] })

/-! ## Cessation -/

/-- Declare that operations have ceased. -/
def declareCessation (env : Env) (d : KeystoreDao) : Res (KeystoreDao × Outcome) := do
  assertDaoMember env d
  require (d.ceasedOperations = false) "already ceased"
  pure ({ d with ceasedOperations := true }, { logs := [.cessationDeclared] })

/-- Take that back. -/
def revokeCessation (env : Env) (d : KeystoreDao) : Res (KeystoreDao × Outcome) := do
  assertDaoMember env d
  require (d.ceasedOperations = true) "not currently ceased"
  pure ({ d with ceasedOperations := false }, { logs := [.cessationRevoked] })

/-! ## Vault versions -/

/-- The voters for an action after this vote: those recorded who are members still, and the caller. -/
def votersWith (env : Env) (d : KeystoreDao) (action : VaultVersionAction) : List AccountId :=
  let voters := ((d.vaultVersionVotes.lookup action).getD []).filter fun v => decide (v ∈ d.daoMembers)
  if env.predecessor ∈ voters then voters else voters ++ [env.predecessor]

/-- A version of the vault's code is approved. -/
def internalApproveVaultVersion (env : Env) (d : KeystoreDao) (hash : CryptoHash) (label : String)
    (auditUrl : Option String) : KeystoreDao × List Log :=
  ({ d with
      approvedVaultCodeHashes := d.approvedVaultCodeHashes.insert hash
      vaultVersions := d.vaultVersions.insert hash
        { label, auditUrl, deprecated := false, approvedAt := env.blockTimestamp } },
    [.versionApproved hash])

/-- A version is no longer approved. -/
def internalRevokeVaultVersion (d : KeystoreDao) (hash : CryptoHash) : KeystoreDao × List Log :=
  ({ d with
      approvedVaultCodeHashes := d.approvedVaultCodeHashes.remove hash
      vaultVersions := d.vaultVersions.erase hash },
    [.versionRevoked hash])

/-- A text in the quotes of a debug print; the escapes inside are left out. -/
def quoted (s : String) : String := "\"" ++ s ++ "\""

/-- A text that may be missing, as the log has it. -/
def quotedOption : Option String → String
  | none   => "None"
  | some s => "Some(" ++ quoted s ++ ")"

/-- Vote for a version, by its hash. The first voter says what the version is called. -/
def approveVaultVersion (env : Env) (d : KeystoreDao) (hash : CryptoHash) (label : String)
    (auditUrl : Option String) : Res (KeystoreDao × Outcome) := do
  assertDaoMember env d
  require (label.utf8ByteSize ≤ 64) "label must be at most 64 bytes"
  require (∀ url ∈ auditUrl, url.utf8ByteSize ≤ 256) "audit_url must be at most 256 bytes"
  let proposed : ApprovalArgs := { label, auditUrl }
  let existing := (d.vaultVersionApprovalArgs.lookup hash).getD proposed
  require (existing = proposed)
    ("approve_vault_version: a proposal for hash " ++ base58Encode hash.toList
      ++ " is already in flight with first-proposer args label=" ++ quoted existing.label ++ " audit_url="
      ++ quotedOption existing.auditUrl ++ "; your call passed label=" ++ quoted label ++ " audit_url="
      ++ quotedOption auditUrl ++ ". Match those exactly to vote, or wait for the current proposal to be cleared "
      ++ "by quorum.")
  let voters := votersWith env d (.approve hash)
  let count := asU32 voters.length
  if d.approvalThreshold ≤ count then
    let d := { d with vaultVersionVotes := d.vaultVersionVotes.erase (.approve hash)
                      vaultVersionApprovalArgs := d.vaultVersionApprovalArgs.erase hash }
    let (d, logs) := internalApproveVaultVersion env d hash label auditUrl
    pure (d, { logs, value := some count })
  else
    pure ({ d with vaultVersionVotes := d.vaultVersionVotes.insert (.approve hash) voters
                   vaultVersionApprovalArgs := d.vaultVersionApprovalArgs.insert hash proposed },
      { logs := [.versionApprovalVote hash count d.approvalThreshold], value := some count })

/-- Vote for the removal of a version. Votes for its approval are a matter of their own. -/
def revokeVaultVersion (env : Env) (d : KeystoreDao) (hash : CryptoHash) : Res (KeystoreDao × Outcome) := do
  assertDaoMember env d
  let voters := votersWith env d (.revoke hash)
  let count := asU32 voters.length
  if d.approvalThreshold ≤ count then
    let (d, logs) :=
      internalRevokeVaultVersion { d with vaultVersionVotes := d.vaultVersionVotes.erase (.revoke hash) } hash
    pure (d, { logs, value := some count })
  else
    pure ({ d with vaultVersionVotes := d.vaultVersionVotes.insert (.revoke hash) voters },
      { logs := [.versionRevokeVote hash count d.approvalThreshold], value := some count })

/-- One member is enough to steer new vaults away from a version. -/
def deprecateVaultVersion (env : Env) (d : KeystoreDao) (hash : CryptoHash) : Res (KeystoreDao × Outcome) := do
  assertDaoMember env d
  let info ← expect (d.vaultVersions.lookup hash) "vault version not found"
  pure ({ d with vaultVersions := d.vaultVersions.insert hash { info with deprecated := true } },
    { logs := [.versionDeprecated hash] })

/-! ## Vaults -/

/-- The keystore has verified a vault. -/
def markVaultVerified (env : Env) (current : AccountId) (d : KeystoreDao) (vault : AccountId) :
    Res (KeystoreDao × Outcome) := do
  assertSelf env current
  require (vault ∉ d.bannedVaults) "vault is banned; call unban_vault (DAO-only) before re-marking it verified"
  pure ({ d with verifiedVaults := d.verifiedVaults.insert vault }, { logs := [.vaultVerified vault] })

/-- Verified, and not banned since. -/
def isVaultVerified (d : KeystoreDao) (vault : AccountId) : Bool :=
  decide (vault ∈ d.verifiedVaults) && decide (vault ∉ d.bannedVaults)

/-- Ban a vault. -/
def banVault (env : Env) (current : AccountId) (d : KeystoreDao) (vault : AccountId) (reason : String) :
    Res (KeystoreDao × Outcome) := do
  require (env.predecessor = current ∨ env.predecessor ∈ d.daoMembers)
    "ban_vault: only an approved keystore (via this contract's access key) or a DAO member can ban a vault"
  require (reason.utf8ByteSize ≤ 256) "ban reason must be at most 256 bytes"
  -- the vault stays among the verified ones
  pure ({ d with bannedVaults := d.bannedVaults.insert vault }, { logs := [.vaultBanned vault reason] })

/-- Lift the ban. -/
def unbanVault (env : Env) (d : KeystoreDao) (vault : AccountId) : Res (KeystoreDao × Outcome) := do
  assertDaoMember env d
  pure ({ d with bannedVaults := d.bannedVaults.remove vault }, { logs := [.vaultUnbanned vault] })

/-- The proxy a keystore's key calls. -/
def requestKey (env : Env) (current : AccountId) (d : KeystoreDao) (request : CKDRequestArgs) :
    Res (KeystoreDao × Outcome) := do
  assertSelf env current
  pure (d, { promises := [.requestAppPrivateKey d.mpcContractId request] })

/-! ## Calls -/

/-- The contract's public methods. -/
inductive Call
  | submitKeystoreRegistration (publicKey : KeystoreKey) (tdxQuoteHex : String) (appId : Option String)
  | vote (id : Nat) (approve : Bool)
  | proposeRevokeKeystoreKeys (publicKeys : List KeystoreKey)
  | addDaoMember (member : AccountId)
  | removeDaoMember (member : AccountId)
  | addApprovedMeasurements (measurements : ApprovedMeasurements) (clearOthers : Option Bool)
  | clearAllApprovedMeasurements
  | removeApprovedMeasurements (measurements : ApprovedMeasurements)
  | updateCollateral (collateral : String) (index : Nat)
  | declareCessation
  | revokeCessation
  | approveVaultVersion (hash : CryptoHash) (label : String) (auditUrl : Option String)
  | revokeVaultVersion (hash : CryptoHash)
  | deprecateVaultVersion (hash : CryptoHash)
  | markVaultVerified (vault : AccountId)
  | banVault (vault : AccountId) (reason : String)
  | unbanVault (vault : AccountId)
  | requestKey (request : CKDRequestArgs)
deriving DecidableEq

/-- The body of a call. -/
def runCall (A : Attestation) (current : AccountId) (env : Env) (d : KeystoreDao) :
    Call → Res (KeystoreDao × Outcome)
  | .submitKeystoreRegistration k quote appId => submitKeystoreRegistration A env d k quote appId
  | .vote id approve => vote env d id approve
  | .proposeRevokeKeystoreKeys ks => proposeRevokeKeystoreKeys env d ks
  | .addDaoMember m => addDaoMember env d m
  | .removeDaoMember m => removeDaoMember env d m
  | .addApprovedMeasurements m clearOthers => addApprovedMeasurements env d m clearOthers
  | .clearAllApprovedMeasurements => clearAllApprovedMeasurements env d
  | .removeApprovedMeasurements m => removeApprovedMeasurements env d m
  | .updateCollateral collateral index => updateCollateral env d collateral index
  | .declareCessation => declareCessation env d
  | .revokeCessation => revokeCessation env d
  | .approveVaultVersion h label auditUrl => approveVaultVersion env d h label auditUrl
  | .revokeVaultVersion h => revokeVaultVersion env d h
  | .deprecateVaultVersion h => deprecateVaultVersion env d h
  | .markVaultVerified v => markVaultVerified env current d v
  | .banVault v reason => banVault env current d v reason
  | .unbanVault v => unbanVault env d v
  | .requestKey request => requestKey env current d request

/-- `request_key` reads the state only, and its entry point does not look at the deposit. -/
def Call.readsOnly : Call → Bool
  | .requestKey _ => true
  | _             => false

/-- A call as the generated entry point runs it: no method that changes the state accepts a deposit. -/
def exec (A : Attestation) (current : AccountId) (env : Env) (d : KeystoreDao) (call : Call) :
    Res (KeystoreDao × Outcome) := do
  require (call.readsOnly = true ∨ env.attachedDeposit = 0) "Method doesn't accept deposit"
  runCall A current env d call

end KeystoreDao

end Outlayer
