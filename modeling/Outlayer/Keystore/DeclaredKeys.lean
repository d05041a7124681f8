import Outlayer.Keystore.Seeds
import Outlayer.Lib.Checked

/-!
# `Keystore.DeclaredKeys` — keys that a manifest declares

An artefact declares the keys it signs with and the keys it seals data with. A request is validated as a whole: its
project, its accounts, its build, and each key's path, binding, caller and vault. The derivation string of a key joins
its fields under the root of its family; the types of the fields keep the separator out of them.
-/

namespace Outlayer
open Text Checked

namespace Keystore

/-- How refusals word what a caller wrote: a text with its escapes, and what the account library says. -/
structure Wording where
  debug : String → String
  account : String → String
  unicode : Unicode

/-- `text`, cut to at most `most` characters. -/
def bounded (text : String) (most : Nat) : String :=
  if most < text.toList.length then String.ofList (text.toList.take most) ++ "…" else text

/-- What a message shows of a text the caller wrote. -/
def truncateForMessage (raw : String) : String := bounded raw 80

/-! ## Kinds of keys -/

/-- What a declared key is for: to sign with, or to seal with. -/
inductive KeyFamily
  | signing
  | encryption
deriving DecidableEq

/-- The text every derivation string of the family begins with. -/
def KeyFamily.root : KeyFamily → String
  | .signing    => "signing-key:v1:"
  | .encryption => "encryption-key:v1:"

/-- The family as messages name one of its keys. -/
def KeyFamily.noun : KeyFamily → String
  | .signing    => "signing key"
  | .encryption => "encryption key"

/-- The same, with its article. -/
def KeyFamily.aNoun : KeyFamily → String
  | .signing    => "a signing key"
  | .encryption => "an encryption key"

/-- How many keys of the family one artefact may ask for. -/
def KeyFamily.maxKeys : KeyFamily → Nat
  | .signing    => 3
  | .encryption => 5

/-- The curves of signing keys. -/
inductive SigningKeyType
  | ed25519
  | secp256k1
deriving DecidableEq

/-- The curve as a derivation string spells it. -/
def SigningKeyType.label : SigningKeyType → String
  | .ed25519   => "ed25519"
  | .secp256k1 => "secp256k1"

/-- What a declared key is; an encryption key has no type. -/
inductive KeyKind
  | signing (keyType : SigningKeyType)
  | encryption
deriving DecidableEq

/-- The family a kind belongs to. -/
def KeyKind.family : KeyKind → KeyFamily
  | .signing _  => .signing
  | .encryption => .encryption

/-- The segment that names the curve; encryption keys have none. -/
def KeyKind.typeSegment : KeyKind → Option String
  | .signing keyType => some keyType.label
  | .encryption      => none

/-- The kind as an answer names it. -/
def KeyKind.label : KeyKind → String
  | .signing keyType => keyType.label
  | .encryption      => "encryption"

/-- What a key belongs to besides the caller. -/
inductive KeyBinding
  | project
  | wasm
deriving DecidableEq

/-- The binding as a derivation string spells it. -/
def KeyBinding.label : KeyBinding → String
  | .project => "project"
  | .wasm    => "wasm"

/-- Which of the two accounts of a run a key is for. -/
inductive CallerKind
  | signer
  | predecessor
deriving DecidableEq

/-- The account's part as a derivation string spells it. -/
def CallerKind.label : CallerKind → String
  | .signer      => "signer"
  | .predecessor => "predecessor"

/-- Whose key it is: the signer's, the predecessor's, or nobody's. -/
inductive KeyCaller
  | signer
  | predecessor
  | none
deriving DecidableEq

/-- The caller as a derivation string spells it. -/
def KeyCaller.label : KeyCaller → String
  | .signer      => CallerKind.signer.label
  | .predecessor => CallerKind.predecessor.label
  | .none        => "none"

/-- The account of the job the key belongs to, if it belongs to one. -/
def KeyCaller.accountKind : KeyCaller → Option CallerKind
  | .signer      => some .signer
  | .predecessor => some .predecessor
  | .none        => Option.none

/-- The caller of a family whose keys always have one. -/
def KeyCaller.ofKind : CallerKind → KeyCaller
  | .signer      => .signer
  | .predecessor => .predecessor

/-! ## Declarations -/

/-- What the validation reads off one declared key. -/
class KeyDeclaration (D : Type) where
  family : KeyFamily
  path : D → String
  kind : D → KeyKind
  bind : D → KeyBinding
  caller : D → KeyCaller
  vault : D → Option String

/-- A signing key as a manifest declares it, the fields left out filled in. -/
structure SigningKeyRequest where
  path : String
  keyType : SigningKeyType
  bind : KeyBinding := .project
  caller : KeyCaller := .signer
  vault : Option String := none

/-- An encryption key as a manifest declares it, the fields left out filled in. -/
structure EncryptionKeyRequest where
  path : String
  bind : KeyBinding := .project
  caller : CallerKind := .signer
  vault : Option String := none

instance : KeyDeclaration SigningKeyRequest where
  family := .signing
  path := SigningKeyRequest.path
  kind r := .signing r.keyType
  bind := SigningKeyRequest.bind
  caller := SigningKeyRequest.caller
  vault := SigningKeyRequest.vault

instance : KeyDeclaration EncryptionKeyRequest where
  family := .encryption
  path := EncryptionKeyRequest.path
  kind _ := .encryption
  bind := EncryptionKeyRequest.bind
  caller r := .ofKind r.caller
  vault := EncryptionKeyRequest.vault

/-! ## Fields that passed their checks -/

/-- A lower-case letter or a digit. -/
def isLowerAlnum (c : Char) : Bool := inRange 'a' 'z' c || inRange '0' '9' c

/-- The longest path of a key, in bytes. -/
def maxKeyPathLen : Nat := 32

/-- The shape of a path: a letter or digit first, then also underscores and dashes. -/
def isKeyPath (raw : String) : Bool :=
  raw.toList.head?.any isLowerAlnum && raw.toList.all fun c => isLowerAlnum c || c == '_' || c == '-'

/-- `[a-z0-9][a-z0-9_-]{0,31}` -/
structure KeyPath where
  text : String
  valid : isKeyPath text = true
deriving DecidableEq

/-- A path, or the reason why the text is none. -/
def KeyPath.parse (W : Wording) (raw : String) : Res KeyPath := do
  require (raw ≠ "") "a key path must not be empty"
  require (raw.utf8ByteSize ≤ maxKeyPathLen) ("key path " ++ W.debug (truncateForMessage raw) ++ " is "
    ++ toString raw.utf8ByteSize ++ " bytes; at most " ++ toString maxKeyPathLen ++ " are allowed")
  if h : isKeyPath raw = true then pure ⟨raw, h⟩
  else throw ("key path " ++ W.debug (truncateForMessage raw) ++ " must match [a-z0-9][a-z0-9_-]\x7b0,31\x7d")

/-- `{owner}/{name}` -/
structure ProjectId where
  id : String
  owner : AccountId

/-- The longest name of a project, in bytes. -/
def maxProjectNameLen : Nat := 64

/-- Split a text at its first slash. -/
def splitAtSlash (s : String) : Option (String × String) :=
  match s.toList.dropWhile (· ≠ '/') with
  | []        => none
  | _ :: rest => some (String.ofList (s.toList.takeWhile (· ≠ '/')), String.ofList rest)

/-- A project's id, split at its slash, or the reason why the text is none. -/
def ProjectId.parse (W : Wording) (raw : String) : Res ProjectId := do
  let (owner, name) ← expect (splitAtSlash raw)
    ("project_id " ++ W.debug (truncateForMessage raw) ++ " is not of the form <owner>/<name>")
  let owner ← expect (AccountId.parse owner) ("project_id " ++ W.debug (truncateForMessage raw)
    ++ ": the owner is not a valid NEAR account id (" ++ W.account owner ++ ")")
  require (name ≠ "" ∧ name.utf8ByteSize ≤ maxProjectNameLen ∧
      name.toList.all fun c => isAlphanumeric W.unicode c || c == '-' || c == '_')
    ("project_id " ++ W.debug (truncateForMessage raw) ++ ": the name must be 1 to " ++ toString maxProjectNameLen
      ++ " bytes of letters, digits, '-' or '_'")
  pure ⟨raw, owner⟩

/-- A `p` and 16 hexadecimal digits in lower case. -/
def isProjectUuid (raw : String) : Bool :=
  decide (raw.utf8ByteSize = 17) && raw.toList.head?.any (· == 'p') && raw.toList.tail.all isLowerHexdigit

/-- `p` and 16 lower-case hexadecimal digits, as the contract mints it. -/
structure ProjectUuid where
  text : String
  valid : isProjectUuid text = true
deriving DecidableEq

/-- A project's uuid, or the reason why the text is none. -/
def ProjectUuid.parse (W : Wording) (raw : String) : Res ProjectUuid :=
  if h : isProjectUuid raw = true then .ok ⟨raw, h⟩
  else .error ("project uuid " ++ W.debug (truncateForMessage raw) ++ " is not 'p' followed by 16 lowercase hex digits")

/-- The 64 hexadecimal digits, in lower case, of a hash. -/
def isWasmSha256 (raw : String) : Bool := decide (raw.utf8ByteSize = 64) && raw.toList.all isLowerHexdigit

/-- The digest of the running build. -/
structure WasmSha256 where
  text : String
  valid : isWasmSha256 text = true
deriving DecidableEq

/-- The hash of a build, or the reason why the text is none. -/
def WasmSha256.parse (W : Wording) (raw : String) : Res WasmSha256 :=
  if h : isWasmSha256 raw = true then .ok ⟨raw, h⟩
  else .error ("executed_wasm_sha256 " ++ W.debug (truncateForMessage raw) ++ " is not 64 lowercase hex characters")

/-! ## Derivation strings -/

/-- What a key is bound to. -/
inductive Binding
  | project (uuid : ProjectUuid)
  | wasm (hash : WasmSha256)
deriving DecidableEq

/-- What kind of thing a key is bound to. -/
def Binding.kind : Binding → KeyBinding
  | .project _ => .project
  | .wasm _    => .wasm

/-- The uuid or the hash it is bound to. -/
def Binding.text : Binding → String
  | .project uuid => uuid.text
  | .wasm hash    => hash.text

/-- Parts joined with colons. -/
def colonJoin (parts : List String) : String := String.ofList ([':'].intercalate (parts.map String.toList))

/-- The string a key is derived from, and its family. -/
structure DerivationInput where
  family : KeyFamily
  text : String

/-- The fields joined under the family's root; one that is empty or holds the separator is refused. -/
def DerivationInput.fromParts (W : Wording) (kind : KeyKind) (binding : Binding) (caller : List String)
    (path : KeyPath) : Res DerivationInput :=
  let parts := kind.typeSegment.toList ++ [binding.kind.label, binding.text] ++ caller ++ [path.text]
  match parts.find? fun p => p == "" || contains p ":" with
  | some bad =>
      .error (kind.family.aNoun ++ " field is empty or holds ':' (" ++ W.debug (truncateForMessage bad) ++ ")")
  | none     => .ok ⟨kind.family, kind.family.root ++ colonJoin parts⟩

/-- The string of a key of an account. -/
def DerivationInput.new (W : Wording) (kind : KeyKind) (binding : Binding) (caller : CallerKind) (account : AccountId)
    (path : KeyPath) : Res DerivationInput := fromParts W kind binding [caller.label, account.name] path

/-- The string of a key of no caller. -/
def DerivationInput.ofNoCaller (W : Wording) (kind : KeyKind) (binding : Binding) (path : KeyPath) :
    Res DerivationInput := do
  require (kind = .signing .ed25519)
    (kind.family.aNoun ++ " of type " ++ kind.label ++ " cannot be of no caller")
  fromParts W kind binding [KeyCaller.none.label] path

/-! ## Validation -/

/-- A key of a request that was validated: its fields read, its account resolved. -/
structure ValidatedKey where
  path : KeyPath
  kind : KeyKind
  bind : KeyBinding
  caller : KeyCaller
  account : Option AccountId
  vault : Option AccountId

/-- A request that was validated, before the chain was asked for its project's uuid. -/
structure ValidatedKeys where
  family : KeyFamily
  project : Option ProjectId
  signer : AccountId
  predecessor : Option AccountId
  wasmSha256 : WasmSha256
  keys : List ValidatedKey

/-- Callers the worker writes where it has none. -/
def placeholderCallers : List String := ["anonymous"]

/-- An account a key may belong to. -/
def realAccount (W : Wording) (family : KeyFamily) (role raw : String) : Res AccountId := do
  require (raw ∉ placeholderCallers) ("the " ++ role ++ " " ++ W.debug raw ++ " is the worker's placeholder for a run "
    ++ "without one, not an account; " ++ family.aNoun ++ " needs a real caller to be bound to, so a run without one "
    ++ "gets no key")
  expect (AccountId.parse raw) ("the " ++ role ++ " " ++ W.debug (truncateForMessage raw)
    ++ " is not a valid NEAR account id (" ++ W.account raw ++ "); " ++ family.aNoun ++ " is bound to one")

/-- A key of the run's kind: of the project in a project run, of the build in a direct one. -/
def checkBinding (W : Wording) (path : KeyPath) (bind : KeyBinding) (project : Option ProjectId) : Res Unit :=
  match bind, project with
  | .project, some _ | .wasm, none => pure ()
  | .project, none => throw ("key " ++ W.debug path.text ++ " is bound to the project (bind \"project\"), and this is "
      ++ "a direct wasm run with no project; a project key is issued only to a run through its project")
  | .wasm, some p => throw ("key " ++ W.debug path.text ++ " is bound to the build (bind \"wasm\"), and this run goes "
      ++ "through project " ++ p.id ++ "; a wasm key is issued only to a direct run of the wasm URL, and a project run "
      ++ "holds only bind \"project\" keys")

/-- The account of the job a key belongs to. -/
def keyAccount (W : Wording) (path : KeyPath) (kind : KeyKind) (caller : KeyCaller) (signer : AccountId)
    (predecessor : Option AccountId) : Res (Option AccountId) :=
  match caller with
  | .signer => pure (some signer)
  | .predecessor => do
      let account ← expect predecessor ("key " ++ W.debug path.text ++ " belongs to the predecessor (caller "
        ++ "\"predecessor\"), and this run carries no predecessor_id to bind it to")
      pure (some account)
  | .none => do
      require (kind = .signing .ed25519) ("key " ++ W.debug path.text ++ ": " ++ kind.family.aNoun ++ " of type "
        ++ kind.label ++ " cannot be of no caller (caller \"none\"); only an ed25519 signing key can")
      pure Option.none

/-- The vault a key is derived under, if it names one. -/
def keyVault (W : Wording) (path : KeyPath) (bind : KeyBinding) (vault : Option String) : Res (Option AccountId) :=
  match vault, bind with
  | none, _ => pure none
  | some _, .wasm => throw ("key " ++ W.debug path.text ++ ": a key bound to the build (bind \"wasm\") cannot name a "
      ++ "vault — it has no project owner to own one")
  | some raw, .project => do
      let account ← expect (AccountId.parse raw) ("key " ++ W.debug path.text ++ ": vault "
        ++ W.debug (truncateForMessage raw) ++ " is not a valid NEAR account id (" ++ W.account raw ++ ")")
      pure (some account)

section Validate
variable {D : Type} [KeyDeclaration D] (W : Wording) (project : Option ProjectId) (signer : AccountId)
  (predecessor : Option AccountId)

/-- One key of a request, after the keys `out`. -/
def validateKey (out : List ValidatedKey) (request : D) : Res ValidatedKey := do
  let family := KeyDeclaration.family D
  let path ← KeyPath.parse W (KeyDeclaration.path request)
  let kind := KeyDeclaration.kind request
  require (kind.family = family) ("key " ++ W.debug path.text ++ " is " ++ kind.family.aNoun
    ++ " and cannot be requested as " ++ family.aNoun)
  require (path ∉ out.map ValidatedKey.path) ("key path " ++ W.debug path.text ++ " is requested twice")
  checkBinding W path (KeyDeclaration.bind request) project
  let account ← keyAccount W path kind (KeyDeclaration.caller request) signer predecessor
  let vault ← keyVault W path (KeyDeclaration.bind request) (KeyDeclaration.vault request)
  pure { path, kind, bind := KeyDeclaration.bind request, caller := KeyDeclaration.caller request, account, vault }

/-- The loop over the keys of a request. -/
def validateKeys (out : List ValidatedKey) : List D → Res (List ValidatedKey)
  | []      => pure out
  | r :: rs => do
      let key ← validateKey W project signer predecessor out r
      validateKeys (out ++ [key]) rs

end Validate

/-- A field that may be absent. -/
def traverseOption {α β : Type} (f : α → Res β) : Option α → Res (Option β)
  | none   => pure none
  | some a => do
      let b ← f a
      pure (some b)

/-- A request as a whole: its keys counted, its texts read, each key checked. -/
def validateRequest {D : Type} [KeyDeclaration D] (W : Wording) (projectId : Option String) (accountId : String)
    (predecessorId executedWasmSha256 : Option String) (keys : List D) : Res ValidatedKeys := do
  let family := KeyDeclaration.family D
  require (keys.isEmpty = false) ("no " ++ family.noun ++ "s were requested")
  require (keys.length ≤ family.maxKeys) (toString keys.length ++ " " ++ family.noun ++ "s were requested; at most "
    ++ toString family.maxKeys ++ " are allowed")
  let project ← traverseOption (ProjectId.parse W) projectId
  let signer ← realAccount W family "caller" accountId
  let predecessor ← traverseOption (realAccount W family "predecessor") predecessorId
  let executed ← expect executedWasmSha256 (family.noun
    ++ "s need the running build's executed_wasm_sha256, and the request names none")
  let wasmSha256 ← WasmSha256.parse W executed
  let out ← validateKeys W project signer predecessor [] keys
  pure { family, project, signer, predecessor, wasmSha256, keys := out }

/-! ## Binding -/

/-- A key with the string it is derived from. -/
structure BoundKey where
  path : KeyPath
  kind : KeyKind
  bind : KeyBinding
  caller : KeyCaller
  account : Option AccountId
  vault : Option AccountId
  input : DerivationInput

/-- The project of a run as the contract knows it. -/
structure BoundProject where
  id : ProjectId
  uuid : ProjectUuid

/-- A request whose keys all have their strings. -/
structure BoundKeys where
  family : KeyFamily
  project : Option BoundProject
  signer : AccountId
  predecessor : Option AccountId
  wasmSha256 : WasmSha256
  keys : List BoundKey

/-- What a key of this kind is bound to in the run. -/
def bindingOf (W : Wording) (project : Option BoundProject) (wasmSha256 : WasmSha256) (key : ValidatedKey) :
    Res Binding :=
  match key.bind, project with
  | .project, some p => pure (.project p.uuid)
  | .wasm, none      => pure (.wasm wasmSha256)
  | _, _ =>
      throw ("key " ++ W.debug key.path.text ++ " is bound to " ++ key.bind.label ++ " and the run does not match")

/-- The derivation string of a key under its binding. -/
def inputOf (W : Wording) (key : ValidatedKey) (binding : Binding) : Res DerivationInput :=
  match key.caller.accountKind, key.account with
  | some caller, some account => DerivationInput.new W key.kind binding caller account key.path
  | none, none => DerivationInput.ofNoCaller W key.kind binding key.path
  | _, _ => throw ("key " ++ W.debug key.path.text ++ ": caller " ++ key.caller.label
      ++ " and its account do not agree")

/-- One key, bound to its project or its build. -/
def bindKey (W : Wording) (project : Option BoundProject) (wasmSha256 : WasmSha256) (key : ValidatedKey) :
    Res BoundKey := do
  let binding ← bindingOf W project wasmSha256 key
  let input ← inputOf W key binding
  pure { path := key.path, kind := key.kind, bind := key.bind, caller := key.caller, account := key.account
         vault := key.vault, input }

/-- All keys, bound one after the other. -/
def bindKeys (W : Wording) (project : Option BoundProject) (wasmSha256 : WasmSha256) :
    List ValidatedKey → Res (List BoundKey)
  | []          => pure []
  | key :: keys => do
      let bound ← bindKey W project wasmSha256 key
      let more ← bindKeys W project wasmSha256 keys
      pure (bound :: more)

/-- The run's project, with its uuid exactly when there is one. -/
def bindProject (project : Option ProjectId) (projectUuid : Option ProjectUuid) : Res (Option BoundProject) :=
  match project, projectUuid with
  | some id, some uuid => pure (some ⟨id, uuid⟩)
  | none, none         => pure none
  | some id, none      => throw ("project " ++ id.id ++ " has no uuid to bind its keys to")
  | none, some uuid    => throw ("a direct run has no project, and uuid " ++ uuid.text ++ " was given for one")

/-- The request bound to the uuid the chain answered. -/
def ValidatedKeys.bind (W : Wording) (v : ValidatedKeys) (projectUuid : Option ProjectUuid) : Res BoundKeys := do
  let project ← bindProject v.project projectUuid
  let keys ← bindKeys W project v.wasmSha256 v.keys
  pure { family := v.family, project, signer := v.signer, predecessor := v.predecessor, wasmSha256 := v.wasmSha256
         keys }

/-! ## Task keys -/

/-- The string of the key that seals an owner's tasks in a project. -/
def taskKeyInput (project : ProjectUuid) (owner : AccountId) : String :=
  "task-key:v1:" ++ project.text ++ ":" ++ owner.name

end Keystore
end Outlayer
