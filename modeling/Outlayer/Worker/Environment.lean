import Outlayer.Contract.Secrets
import Outlayer.Lib.Joins
import Outlayer.Lib.TextParts
import Outlayer.Worker.Monitor.Requests

/-!
# `Worker.Environment` — what a run reads from its environment

The secrets a run opens are joined row by row, the author's after the caller's, and then the worker takes every name of
its own away from them and writes what it knows of the run. A map is given with the order it iterates in, which is
arbitrary.
-/

namespace Outlayer
open Text Collections
open Collections.LookupMap (insertAll joinEntries)

namespace Worker

/-- An environment, or the secrets that go into one. -/
abbrev EnvVars := LookupMap String String

/-- Every variable the worker owns. -/
def systemEnvVars : List String :=
  -- who the guest acts as, and who pays
  ["NEAR_SENDER_ID", "NEAR_USER_ACCOUNT_ID", "NEAR_PREDECESSOR_ID", "NEAR_SIGNER_PUBLIC_KEY", "NEAR_RELAYER_ID",
   -- where, and what kind of run
   "NEAR_NETWORK_ID", "OUTLAYER_EXECUTION_TYPE",
   -- correlation
   "NEAR_REQUEST_ID", "OUTLAYER_CALL_ID", "NEAR_TRANSACTION_HASH", "NEAR_RECEIPT_ID",
   -- the chain
   "NEAR_CONTRACT_ID", "NEAR_BLOCK_HEIGHT", "NEAR_BLOCK_TIMESTAMP", "NEAR_GAS_BURNT",
   -- money
   "NEAR_PAYMENT_YOCTO", "ATTACHED_USD", "USD_PAYMENT",
   -- limits
   "NEAR_MAX_INSTRUCTIONS", "NEAR_MAX_MEMORY_MB", "NEAR_MAX_EXECUTION_SECONDS",
   -- the project
   "OUTLAYER_PROJECT_ID", "OUTLAYER_PROJECT_UUID", "OUTLAYER_PROJECT_NAME", "OUTLAYER_PROJECT_OWNER",
   -- the rows the keystore opened
   "OUTLAYER_SECRETS_ROWS", "OUTLAYER_SECRETS_OWNER", "OUTLAYER_SECRETS_PROFILE",
   -- written elsewhere, and taken from the secrets like the rest
   "WALLET_ID", "NEAR_RPC_PROXY_AVAILABLE"]

/-! ## Rows, as the guest is told of them -/

/-- Whose a row is, and the names it supplied. -/
structure SecretsRow where
  owner : String
  profile : String
  keys : List String
deriving DecidableEq

/-- A system name is not supplied by a row, so it is not listed. -/
def SecretsRow.new (owner profile : String) (keys : List String) : SecretsRow where
  owner := owner
  profile := profile
  keys := (keys.filter fun k => k ∉ systemEnvVars).mergeSort fun a b => decide (a ≤ b)

/-- A row as the run is told of it: whose it is and the names in it, no values. -/
def SecretsRow.toJson (row : SecretsRow) : String :=
  jsonObject
    [jsonField "owner" (Json.quote row.owner), jsonField "profile" (Json.quote row.profile),
     jsonField "keys" ("[" ++ commaJoin (row.keys.map Json.quote) ++ "]")]

/-! ## The environment -/

/-- What the worker knows of a run. -/
structure RunFacts where
  secretsRows : List SecretsRow
  context : Monitor.ExecutionContext
  resourceLimits : Monitor.ResourceLimits
  requestId : Nat
  userAccountId : Option String
  nearPaymentYocto : Option String
  attachedUsd : Option String
  transactionHash : Option String
  projectId : Option String
  projectUuid : Option String
  isHttpsCall : Bool
  callId : Option String
  paymentKeyOwner : Option String
  boundSender : Option String
  usdPayment : Option String
  nearRpcUrl : String

/-- A variable that is written when its value is there. -/
def whenSome (name : String) (value : Option String) : List (String × String) :=
  (value.map fun v => (name, v)).toList

namespace RunFacts
variable (f : RunFacts)

/-- An HTTPS call: there is no chain context, and its variables are empty. -/
def httpsVars : List (String × String) :=
  whenSome "NEAR_SENDER_ID" (f.boundSender.or f.paymentKeyOwner) ++
  whenSome "NEAR_USER_ACCOUNT_ID" f.paymentKeyOwner ++
  [("NEAR_CONTRACT_ID", ""), ("NEAR_BLOCK_HEIGHT", ""), ("NEAR_BLOCK_TIMESTAMP", ""), ("NEAR_RECEIPT_ID", ""),
   ("NEAR_PREDECESSOR_ID", ""), ("NEAR_SIGNER_PUBLIC_KEY", ""), ("NEAR_RELAYER_ID", ""), ("NEAR_GAS_BURNT", ""),
   ("NEAR_TRANSACTION_HASH", ""), ("NEAR_REQUEST_ID", ""), ("NEAR_PAYMENT_YOCTO", "0"), ("ATTACHED_USD", "0"),
   ("USD_PAYMENT", f.usdPayment.getD "0"), ("OUTLAYER_CALL_ID", f.callId.getD "")]

/-- A transaction: what the chain said of it. -/
def nearVars : List (String × String) :=
  whenSome "NEAR_SENDER_ID" f.context.senderId ++
  whenSome "NEAR_CONTRACT_ID" f.context.contractId ++
  whenSome "NEAR_BLOCK_HEIGHT" (f.context.blockHeight.map toString) ++
  whenSome "NEAR_BLOCK_TIMESTAMP" (f.context.blockTimestamp.map toString) ++
  whenSome "NEAR_RECEIPT_ID" f.context.receiptId ++
  whenSome "NEAR_PREDECESSOR_ID" f.context.predecessorId ++
  whenSome "NEAR_SIGNER_PUBLIC_KEY" f.context.signerPublicKey ++
  whenSome "NEAR_GAS_BURNT" (f.context.gasBurnt.map toString) ++
  [("NEAR_RELAYER_ID", f.context.relayerId.getD "")] ++
  whenSome "NEAR_USER_ACCOUNT_ID" f.userAccountId ++
  whenSome "NEAR_PAYMENT_YOCTO" f.nearPaymentYocto ++
  [("ATTACHED_USD", f.attachedUsd.getD "0")] ++
  whenSome "NEAR_TRANSACTION_HASH" f.transactionHash ++
  [("NEAR_REQUEST_ID", toString f.requestId), ("USD_PAYMENT", "0"), ("OUTLAYER_CALL_ID", "")]

/-- The variables that tell a run its limits. -/
def limitVars : List (String × String) :=
  [("NEAR_MAX_INSTRUCTIONS", toString f.resourceLimits.maxInstructions),
   ("NEAR_MAX_MEMORY_MB", toString f.resourceLimits.maxMemoryMb),
   ("NEAR_MAX_EXECUTION_SECONDS", toString f.resourceLimits.maxExecutionSeconds)]

/-- The owner and the name of a project are what stands before and after the first slash of its id. -/
def projectVars : List (String × String) :=
  whenSome "OUTLAYER_PROJECT_ID" f.projectId ++
  whenSome "OUTLAYER_PROJECT_OWNER" ((f.projectId.bind (splitOnce '/')).map Prod.fst) ++
  whenSome "OUTLAYER_PROJECT_NAME" ((f.projectId.bind (splitOnce '/')).map Prod.snd) ++
  whenSome "OUTLAYER_PROJECT_UUID" f.projectUuid

/-- Absent, not blank, when no row opened. -/
def rowVars : List (String × String) :=
  whenSome "OUTLAYER_SECRETS_OWNER" (f.secretsRows.head?.map SecretsRow.owner) ++
  whenSome "OUTLAYER_SECRETS_PROFILE" (f.secretsRows.head?.map SecretsRow.profile) ++
  whenSome "OUTLAYER_SECRETS_ROWS"
    (f.secretsRows.head?.map fun _ => "[" ++ commaJoin (f.secretsRows.map SecretsRow.toJson) ++ "]")

/-- What is written, in the order it is written. -/
def systemVars : List (String × String) :=
  [("NEAR_NETWORK_ID", if contains f.nearRpcUrl "mainnet" then "mainnet" else "testnet"),
   ("OUTLAYER_EXECUTION_TYPE", if f.isHttpsCall then "HTTPS" else "NEAR")] ++
  (if f.isHttpsCall then f.httpsVars else f.nearVars) ++
  f.limitVars ++ f.projectVars ++ f.rowVars

end RunFacts

/-- Take every system name away from the secrets. -/
def stripSystem (secrets : EnvVars) : EnvVars := systemEnvVars.foldl (fun env key => env.erase key) secrets

/-- The environment of a run: the names are taken away before any is written. -/
def mergeEnvVars (userSecrets : Option EnvVars) (f : RunFacts) : EnvVars :=
  insertAll (stripSystem (userSecrets.getD ∅)) f.systemVars

/-! ## Joining the rows -/

/-- What the coordinator is told of a job. -/
inductive JobStatus
  | pending
  | inProgress
  | completed
  | failed
  | compilationFailed
  | executionFailed
  | accessDenied
  | insufficientPayment
  | custom
deriving DecidableEq

/-- Why a run does not start, and the status it is reported under. -/
structure Refusal where
  message : String
  category : JobStatus
deriving DecidableEq

/-- Which job status a failed decryption maps to. -/
def secretsFailureCategory (errorMsg : String) : JobStatus :=
  if contains errorMsg "Access" && contains errorMsg "denied" then .accessDenied
  else if contains errorMsg "Invalid secrets format" then .custom
  else .failed

/-- What the keystore answered for a row: its secrets, if it exists; or a failure, which may be the typed one that there
    is no such row. -/
inductive RowAnswer
  | opened (secrets : Option EnvVars)
  | failed (error : String) (isMissing : Bool)

/-- How a message names a row. -/
def rowNamed (row : Monitor.SecretsReference) : String := row.accountId ++ "/" ++ row.profile

/-- The secrets of a row that was named beyond the first: it must exist and open. -/
def openedRow (row : Monitor.SecretsReference) : RowAnswer → Except Refusal EnvVars
  | .opened (some secrets) => .ok secrets
  | .opened none =>
      .error ⟨"secret row " ++ rowNamed row ++ " was named by the call and does not exist", .accessDenied⟩
  | .failed error isMissing =>
      let msg :=
        if isMissing then "secret row " ++ rowNamed row ++ " was named by the call and does not exist"
        else "secret row " ++ rowNamed row ++ ": " ++ error
      .error ⟨msg, secretsFailureCategory msg⟩

/-- The refusal of two rows that give one name different values. -/
def rowsClash (name : String) : Refusal where
  message := "the variable " ++ name ++ " is set by two of the secret rows this call names, with different values; "
    ++ "a run takes each name from one row"
  category := .custom

/-- The variables of a row join those of the rows before it; a system name is passed over. -/
def joinRow (merged secrets : EnvVars) : Except Refusal EnvVars :=
  joinEntries (fun name => decide (name ∈ systemEnvVars)) rowsClash merged secrets.pairs

/-- The loop over the rows beyond the first. -/
def joinExtraRows (merged : EnvVars) (secretsRows : List SecretsRow) :
    List (Monitor.SecretsReference × RowAnswer) → Except Refusal (EnvVars × List SecretsRow)
  | [] => .ok (merged, secretsRows)
  | (row, answer) :: rest => do
      let secrets ← openedRow row answer
      let merged ← joinRow merged secrets
      joinExtraRows merged
        (secretsRows ++ [SecretsRow.new row.accountId row.profile (secrets.pairs.map Prod.fst)]) rest

/-- The row the call names, with what was opened under it, and the rows beyond it with the keystore's answers. -/
structure OpenedRows where
  secretsRef : Option Monitor.SecretsReference
  userSecrets : Option EnvVars
  firstRowOpened : Bool
  extraRows : List Monitor.SecretsReference
  extrasOpened : List RowAnswer

/-- The rows as one environment, and what the guest is told of them. -/
def joinRows (o : OpenedRows) : Except Refusal (Option EnvVars × List SecretsRow) :=
  let secretsRows := match o.secretsRef, o.userSecrets, o.firstRowOpened with
    | some row, some secrets, true => [SecretsRow.new row.accountId row.profile (secrets.pairs.map Prod.fst)]
    | _, _, _ => []
  if o.extraRows = [] then .ok (o.userSecrets, secretsRows)
  else
    match o.userSecrets.filter fun _ => o.firstRowOpened with
    | none => .error
        ⟨"the first secret row this call names must exist and open before the others join it", .custom⟩
    | some merged =>
        if o.extrasOpened.length ≠ o.extraRows.length then
          .error ⟨toString o.extraRows.length ++ " secret rows were named beyond the first and "
            ++ toString o.extrasOpened.length ++ " were asked for", .failed⟩
        else do
          let (merged, secretsRows) ← joinExtraRows merged secretsRows (o.extraRows.zip o.extrasOpened)
          .ok (some merged, secretsRows)

/-! ## The author's secrets -/

/-- A name in both is refused, never resolved. -/
def mergeSecretMaps (author agent : EnvVars) : Except String EnvVars :=
  let clashes := (agent.pairs.map Prod.fst).filter fun k => k ∈ author
  if clashes ≠ [] then
    .error ("the author's secrets and the caller's both define "
      ++ ", ".intercalate ((clashes.mergeSort fun a b => decide (a ≤ b)).map fun k => "`" ++ k ++ "`")
      ++ "; rename one side")
  else .ok (insertAll author agent.pairs)

/-- `author_secrets` as the manifest declares it. -/
structure AuthorSecrets where
  owner : Option String := none
  profile : Option String := none

/-- What a run reads of its project's manifest. -/
structure ProjectManifest where
  authorSecrets : Option AuthorSecrets := none

/-- The author's row a manifest names. -/
structure AuthorSecretsRef where
  owner : String
  profile : String
deriving DecidableEq

/-- Whose row a manifest asks for, the project's owner unless it says. -/
def authorSecretsRef (projectId : String) (manifest : Option ProjectManifest) :
    Except String (Option AuthorSecretsRef) :=
  match manifest.bind ProjectManifest.authorSecrets with
  | none => .ok none
  | some declared =>
      let profile := (declared.profile.map trim).getD ""
      if profile = "" then .error "the manifest's author_secrets.profile must be a non-empty string"
      else
        match (declared.owner.map trim).filter fun o => o ≠ "" with
        | some owner => .ok (some ⟨owner, profile⟩)
        | none =>
            match (splitOnce '/' projectId).filter fun p => p.1 ≠ "" with
            | some (owner, _) => .ok (some ⟨owner, profile⟩)
            | none =>
                .error ("the manifest's author_secrets names no owner and the project id '" ++ projectId
                  ++ "' has none to default to")

/-- A run with no sender decrypts nothing. -/
def provenSender (sender : Option String) (secretsOwner : String) : Except String String :=
  match sender with
  | some sender => .ok sender
  | none        => .error ("this run names secrets owned by " ++ secretsOwner
      ++ " but carries no sender to judge their access condition against, so nothing was decrypted.")

/-- A failed decryption, and whether it is the typed one that there is no such row. -/
structure DecryptError where
  message : String
  isMissing : Bool

/-- What the worker has for the author's secrets: the shared rule on what a reference may be, with the sentence that
    says what is wrong with one, and the keystore, asked for a project's row with the caller to judge it against. -/
structure AuthorSources where
  wellFormedSecretsRef : (profile owner : String) → Except String Unit
  decryptSecretsByProject : (projectId profile owner caller : String) → Except DecryptError EnvVars

/-- The environment a run gets: the caller's secrets, and the author's where the manifest names them. -/
def authorSecretsForRun (sources : AuthorSources) (manifest : Option ProjectManifest) (projectId : Option String)
    (hasKeystore : Bool) (caller : Option String) (agentSecrets : Option EnvVars) :
    Except Refusal (Option EnvVars) :=
  if (manifest.bind ProjectManifest.authorSecrets).isNone then .ok agentSecrets
  else
    match projectId with
    | none => .error
        ⟨"the manifest names author_secrets, but this run has no project to store them under", .custom⟩
    | some projectId =>
        match authorSecretsRef projectId manifest with
        | .error m => .error ⟨m, .custom⟩
        | .ok none => .ok agentSecrets
        | .ok (some author) =>
            match sources.wellFormedSecretsRef author.profile author.owner with
            | .error shape => .error
                ⟨"the manifest's author_secrets names no row the contract could hold: " ++ shape, .custom⟩
            | .ok () =>
                if hasKeystore = false then .error
                  ⟨"the manifest names author_secrets, but this worker has no keystore to decrypt them with", .failed⟩
                else
                  match provenSender caller author.owner with
                  | .error m => .error ⟨m, .accessDenied⟩
                  | .ok caller =>
                      match sources.decryptSecretsByProject projectId author.profile author.owner caller with
                      | .error e =>
                          if e.isMissing then .error
                            ⟨"the manifest names author secrets owner=" ++ author.owner ++ " profile=" ++ author.profile
                              ++ " for project " ++ projectId
                              ++ ", but none are stored — store them with accessor Project(" ++ projectId
                              ++ ") or drop author_secrets from the manifest", .custom⟩
                          else
                            let msg := "the author's secrets could not be decrypted: " ++ e.message
                            .error ⟨msg, secretsFailureCategory msg⟩
                      | .ok decrypted =>
                          match mergeSecretMaps decrypted (agentSecrets.getD ∅) with
                          | .ok merged => .ok (some merged)
                          | .error m   => .error ⟨m, .custom⟩

/-- The secrets of a run: the rows, and then the author's. -/
def secretsForRun (sources : AuthorSources) (manifest : Option ProjectManifest) (projectId : Option String)
    (hasKeystore : Bool) (caller : Option String) (o : OpenedRows) : Except Refusal (Option EnvVars) := do
  let (userSecrets, _) ← joinRows o
  authorSecretsForRun sources manifest projectId hasKeystore caller userSecrets

end Worker
end Outlayer
