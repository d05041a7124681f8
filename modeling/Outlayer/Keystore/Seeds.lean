import Outlayer.Contract.Views
import Outlayer.Lib.JsonFields

/-!
# `Keystore.Seeds` — the seeds that secrets and keys are derived from

The key of a secret is derived from a seed, a text that names what may read the secret and who owns it. The seed of a
row is spelled in three places: where a job reads the row, where an update opens it, and where the update encrypts
what goes back. Some endpoints take the seed from the caller.

A wallet has one key for each family of chains, a sub-key for each path under the EVM key, and exported keys under its
chains. Their seeds are texts that join the wallet's id with what names the key.
-/

namespace Outlayer
open Text Collections

namespace Keystore

/-! ## Errors -/

/-- Why a request is refused. -/
inductive ApiError
  | badRequest (message : String)
  | unauthorized (message : String)
  | forbidden (message : String)
  | paymentRequired (message : String)
  | chainRefused (message : String)
  | internalError (message : String)
  | unavailable (message : String)
  | secretsNotFound (message : String)
  | signingKeysRefused (status : Nat) (message : String)
deriving DecidableEq

/-- What a handler of the keystore answers. -/
abbrev ApiResult (α : Type) := Except ApiError α

theorem bind_ok {α β : Type} {x : ApiResult α} {f : α → ApiResult β} {b : β} (h : (x >>= f) = .ok b) :
    ∃ a, x = .ok a ∧ f a = .ok b := by
  cases x with
  | error e => cases h
  | ok a => exact ⟨a, rfl, h⟩

/-- Go on where `p` holds; refuse otherwise. -/
def demand (p : Prop) [Decidable p] (e : ApiError) : ApiResult Unit := if p then .ok () else .error e

theorem demand_ok {p : Prop} [Decidable p] {e : ApiError} {u : Unit} (h : demand p e = .ok u) : p := by
  unfold demand at h
  split at h
  · next hp => exact hp
  · cases h

/-- The name of an account that was parsed is the text it was parsed from. -/
theorem parse_some {text : String} {a : AccountId} (h : AccountId.parse text = some a) : text = a.name := by
  unfold AccountId.parse at h
  split at h
  · exact congrArg AccountId.name (Option.some.inj h)
  · cases h

/-! ## What a secret is bound to -/

/-- The kinds of secret the system keeps for an account. -/
inductive SystemSecretType
  | paymentKey
deriving DecidableEq

/-- The variant, as the contract's JSON names it. -/
def SystemSecretType.asContractStr : SystemSecretType → String
  | .paymentKey => "PaymentKey"

/-- The variant, as a seed names it. -/
def SystemSecretType.asSeedStr : SystemSecretType → String
  | .paymentKey => "payment_key"

/-- What code can read a secret, as a request names it. -/
inductive SecretAccessor
  | repo (repo : String) (branch : Option String)
  | wasmHash (hash : String)
  | project (projectId : String)
  | system (secretType : SystemSecretType)
deriving DecidableEq

/-! ## Repositories -/

/-- The scheme of a repository URL, removed. -/
def withoutScheme (repo : String) : String :=
  match stripPrefix repo "https://" with
  | some rest => rest
  | none =>
      match stripPrefix repo "http://" with
      | some rest => rest
      | none      => (stripPrefix repo "ssh://").getD repo

/-- `domain.com/owner/repo`, however the repository was written. -/
def normalizeRepoUrl (repo : String) : String :=
  let repo := withoutScheme (trim repo)
  let repo := match stripPrefix repo "git@" with
    | some rest => replaceChar rest ':' '/'
    | none      => repo
  (stripSuffix repo ".git").getD repo

/-! ## Accessors on the wire -/

/-- An accessor, in the JSON of the contract's arguments. -/
def accessorToContractJson : SecretAccessor → Json.Value
  | .repo repo branch  => .obj [("Repo",
      .obj [("repo", .str (normalizeRepoUrl repo)), ("branch", Json.Value.ofOption .str branch)])]
  | .wasmHash hash     => .obj [("WasmHash", .obj [("hash", .str hash)])]
  | .project projectId => .obj [("Project", .obj [("project_id", .str projectId)])]
  | .system secretType => .obj [("System", .str secretType.asContractStr)]

/-- The accessor the contract reads. -/
def readAccessor : Json.Value → Option Outlayer.SecretAccessor
  | .obj [("Repo", v)] => do
      let repo ← v.field "repo" (·.asStr)
      let branch ← v.optional "branch" (·.asStr)
      pure (.repo repo branch)
  | .obj [("WasmHash", v)] => do
      let hash ← v.field "hash" (·.asStr)
      pure (.wasmHash hash)
  | .obj [("Project", v)] => do
      let projectId ← v.field "project_id" (·.asStr)
      pure (.project projectId)
  | .obj [("System", .str "PaymentKey")] => some (.system .paymentKey)
  | _ => none

/-- What the contract is asked for. -/
def accessorToContract : SecretAccessor → Outlayer.SecretAccessor
  | .repo repo branch   => .repo (normalizeRepoUrl repo) branch
  | .wasmHash hash      => .wasmHash hash
  | .project projectId  => .project projectId
  | .system .paymentKey => .system .paymentKey

theorem readAccessor_accessorToContractJson (accessor : SecretAccessor) :
    readAccessor (accessorToContractJson accessor) = some (accessorToContract accessor) := by
  cases accessor with
  | repo repo branch => cases branch <;> rfl
  | wasmHash hash => rfl
  | project projectId => rfl
  | system secretType => cases secretType; rfl

/-! ## Roots that are reserved -/

/-- The roots of the keys that a job's manifest declares. -/
def declaredKeyRoots : List String := ["signing-key:", "encryption-key:", "task-key:"]

/-- A seed as a log shows it. -/
def seedForLog (seed : String) : String :=
  if seed.toList.length ≤ 64 then seed
  else String.ofList (seed.toList.take 64) ++ "… (" ++ toString seed.utf8ByteSize ++ " bytes in all)"

/-- Refuse a seed that a caller spells when it starts at a declared-key root. -/
def refuseDeclaredKeySeed (seed : String) : ApiResult Unit :=
  match declaredKeyRoots.find? (startsWith seed) with
  | some root => .error (.badRequest ("a seed cannot start with `" ++ root
      ++ "`: that root is reserved for the keys a job's manifest declares"))
  | none => .ok ()

/-- The first part of the seed of a repository's secret. -/
def repoSeedRoot (repo : String) : ApiResult String :=
  let normalized := normalizeRepoUrl repo
  match declaredKeyRoots.find? (startsWith (normalized ++ ":")) with
  | some root => .error (.badRequest ("`" ++ seedForLog normalized
      ++ "` is not a repository URL: a repo cannot start with `" ++ root
      ++ "`, a root reserved for the keys a job's manifest declares"))
  | none => .ok normalized

/-! ## Reading a row -/

/-- The row that a request names. -/
structure RowRequest where
  accessor : SecretAccessor
  profile : String
  owner : String

/-- What the contract answers to a request: nothing when the owner is no account. -/
def RowRequest.lookup (q : RowRequest) (H : Host) (s : SecretStore) : Option SecretWithVault := do
  let owner ← AccountId.parse q.owner
  let accessor ← readAccessor (accessorToContractJson q.accessor)
  pure (getSecretWithVault H s accessor q.profile owner)

/-- The branch of the row that was found; none for a row of another kind. -/
def secretBranch (profile : SecretProfileView) : Option String :=
  match profile.accessor with
  | .repo _ branch => branch
  | _              => none

/-- `{repo}:{owner}[:{branch}]` -/
def repoSeed (normalizedRepo owner : String) : Option String → String
  | some branch => normalizedRepo ++ ":" ++ owner ++ ":" ++ branch
  | none        => normalizedRepo ++ ":" ++ owner

/-- The seed a row is decrypted with: the branch is the row's, everything else is the request's. -/
def RowRequest.decryptSeed (q : RowRequest) (row : SecretProfileView) : ApiResult String :=
  match q.accessor with
  | .repo repo _ => do
      let normalizedRepo ← repoSeedRoot repo
      .ok (repoSeed normalizedRepo q.owner (secretBranch row))
  | .wasmHash hash => .ok ("wasm_hash:" ++ hash ++ ":" ++ q.owner)
  | .project projectId => .ok ("project:" ++ projectId ++ ":" ++ q.owner)
  | .system secretType => .ok ("system:" ++ secretType.asSeedStr ++ ":" ++ q.owner ++ ":" ++ q.profile)

/-! ## Rewriting a row -/

/-- The seed of an accessor as an update spells it: the branch is the request's, an empty one left out. -/
def requestSeed (accessor : SecretAccessor) (owner profile : String) : ApiResult String :=
  match accessor with
  | .repo repo branch => do
      let normalizedRepo ← repoSeedRoot repo
      .ok (repoSeed normalizedRepo owner (branch.filter (· ≠ "")))
  | .wasmHash hash => .ok ("wasm_hash:" ++ hash ++ ":" ++ owner)
  | .project projectId => .ok ("project:" ++ projectId ++ ":" ++ owner)
  | .system secretType => .ok ("system:" ++ secretType.asSeedStr ++ ":" ++ owner ++ ":" ++ profile)

/-- An update of a row, which may move it to a new accessor. -/
structure UpdateRequest extends RowRequest where
  newAccessor : Option SecretAccessor := none

/-- The seed an update opens the existing row with. -/
def UpdateRequest.existingSeed (q : UpdateRequest) : ApiResult String := requestSeed q.accessor q.owner q.profile

/-- The seed an update encrypts the new content under. -/
def UpdateRequest.encryptionSeed (q : UpdateRequest) : ApiResult String :=
  requestSeed (q.newAccessor.getD q.accessor) q.owner q.profile

/-! ## Seeds that a caller spells -/

/-- The endpoints that take a seed in their body. -/
inductive SeedEndpoint
  | pubkey
  | encrypt
  | addGeneratedSecret
  | decryptRaw
deriving DecidableEq

/-- The seed an endpoint derives from. -/
def SeedEndpoint.seed (endpoint : SeedEndpoint) (seed : String) : ApiResult String :=
  match endpoint with
  | .decryptRaw =>
      if startsWith seed "system:payment_key:" then .ok seed
      else .error (.badRequest ("decrypt-raw serves the top-up flow's `system:payment_key:` blobs only. A stored " ++
        "secret is read through /decrypt, where its access condition is judged against the caller."))
  | _ => do
      refuseDeclaredKeySeed seed
      .ok seed

/-! ## A wallet's keys -/

/-- The chain names and the shape of a sub-path, as the helpers shared with the coordinator decide them. -/
structure ChainNames where
  isEvmChain : String → Bool
  isSolanaChain : String → Bool
  isValidSubPath : String → Bool

/-- The seed of a wallet's own key: all EVM chains share one, and Solana has one under both of its names. -/
def walletSeed (N : ChainNames) (walletId chain : String) : String :=
  if N.isEvmChain chain then "wallet:" ++ walletId ++ ":evm"
  else if N.isSolanaChain chain then "wallet:" ++ walletId ++ ":solana"
  else "wallet:" ++ walletId ++ ":" ++ chain

/-- A wallet id holds no colon, so it cannot move the end of a segment. -/
def validateWalletId (walletId : String) : ApiResult Unit :=
  if walletId = "" ∨ contains walletId ":" then
    .error (.badRequest "wallet_id must be non-empty and must not contain ':'")
  else .ok ()

/-- The seed of a sub-key. -/
def subkeySeed (walletId subPath : String) : String := "subkey:" ++ walletId ++ ":evm:" ++ subPath

/-- A sub-path, if one is given; an empty one names the wallet's own key. -/
def validateSubPath (N : ChainNames) (raw : Option String) : ApiResult (Option String) :=
  match raw.filter (· ≠ "") with
  | none   => .ok none
  | some p =>
      if N.isValidSubPath p then .ok (some p)
      else .error (.badRequest "sub_path must match [a-z0-9][a-z0-9._-]\x7b0,63\x7d")

/-! ## Where the seeds are spelled -/

/-- The seed of the key an address is derived from, and that the wallet signs with: its own key or a sub-key. -/
def deriveAddressSeed (N : ChainNames) (U : Unicode) (walletId chain : String) (subPath : Option String) :
    ApiResult String := do
  validateWalletId walletId
  let chain := toLowercase U chain
  let subPath ← validateSubPath N subPath
  demand (subPath = none ∨ N.isEvmChain chain = true) (.badRequest "sub_path is supported for EVM chains only")
  demand (chain = "near" ∨ N.isSolanaChain chain = true ∨ N.isEvmChain chain = true)
    (.badRequest ("Unsupported chain: " ++ chain ++ ". Supported: near, solana, and EVM (ethereum, polygon, base, " ++
      "arbitrum, optimism, bsc, avalanche, hyperevm, hood)"))
  .ok ((subPath.map (subkeySeed walletId)).getD (walletSeed N walletId chain))

/-- The seed of an exported key: under the wallet's chain, with a path that is not empty. -/
def ephemeralSeed (U : Unicode) (walletId chain subPath : String) : ApiResult String := do
  validateWalletId walletId
  demand (subPath ≠ "") (.badRequest "sub_path must not be empty — use derive-address for main wallet keys")
  .ok ("wallet:" ++ walletId ++ ":" ++ toLowercase U chain ++ ":" ++ subPath)

/-! ## Keys of the keystore itself -/

/-- The seed of the key that signs randomness. -/
def vrfSeed : String := "vrf-key"

/-- The seed of the access key that the TEE holds on a vault. -/
def vaultTeeKeypairSeed (vaultId : AccountId) : String := "outlayer.near:" ++ vaultId.name

/-- The seed of the secret path that a vault's master is asked for under. -/
def vaultMasterPathSeed (vaultId : AccountId) : String := "vault-master:" ++ vaultId.name

/-- The seed of the key a wallet's policy is encrypted with. -/
def walletPolicySeed (walletId : String) : String := "wallet-policy:" ++ walletId

/-- The seed of a project's storage, or of the storage of a build that is in no project. -/
def storageSeed (projectUuid : Option String) (wasmHash accountId : String) : String :=
  match projectUuid with
  | some uuid => "storage:" ++ uuid ++ ":" ++ accountId
  | none      => "storage:wasm:" ++ wasmHash ++ ":" ++ accountId

/-- What the encryption key of a seed is computed from. -/
def eciesInput (seed : String) : String := "ecies:" ++ seed

/-- What the secret path of a seed is computed from. -/
def secretPathInput (seed : String) : String := "secret-path:" ++ seed

theorem validateWalletId_ok {walletId : String} {u : Unit} (h : validateWalletId walletId = .ok u) :
    walletId ≠ "" ∧ ':' ∉ walletId.toList := by
  unfold validateWalletId at h
  split at h
  · cases h
  · next hvalid =>
      rw [not_or] at hvalid
      exact ⟨hvalid.1, fun hmem => hvalid.2 ((contains_char rfl).mpr hmem)⟩

end Keystore
end Outlayer
