import Outlayer.Lib.Calendar
import Outlayer.Lib.Json
import Outlayer.Lib.Keyed
import Outlayer.Worker.Tasks.Crypto

/-!
# `Worker.Tasks.Statement` — what the owner signs for tasks

Two sentences: one names a key pair that the owner's browser made, the other approves one task. A sentence is rebuilt
from its facts and checked against the signature; whose the key is that signed, the chain says. Where the chain cannot
be asked there is no answer, and nothing is served as if there were one.
-/

namespace Outlayer
open Text Json

namespace Worker
namespace Tasks

/-! ## Sentences -/

/-- Unix seconds as `YYYY-MM-DDTHH:MM:SSZ`; nothing before the epoch or past the year 9999. -/
def iso8601Utc (secs : Int) : Option String :=
  if 0 ≤ secs ∧ secs < 253402300800 then
    let (year, month, day) := Calendar.civil (secs.toNat / 86400 + 719468)
    let (h, m, s) := Calendar.clock (secs.toNat % 86400)
    some (String.ofList (Calendar.padded 4 year ++ '-' :: (Calendar.padded 2 month ++ '-' :: (Calendar.padded 2 day ++
      'T' :: (Calendar.padded 2 h ++ ':' :: (Calendar.padded 2 m ++ ':' :: (Calendar.padded 2 s ++ ['Z'])))))))
  else none

/-- The sentence a device is signed in by. -/
def sentence (account devicePubkey : String) (validUntil : Int) : Option String :=
  (iso8601Utc validUntil).map fun until_ => "Sign in to OutLayer as " ++ account ++ ". Device key: " ++ devicePubkey ++
    ". Valid until " ++ until_ ++ "."

/-- The sentence an approval signs. -/
def approvalSentence (owner id hash supplyDigest : String) (at_ : Int) : Option String :=
  (iso8601Utc at_).map fun time => "Approve in OutLayer as " ++ owner ++ ": task " ++ id ++ " with hash " ++ hash ++
    " and supply " ++ supplyDigest ++ ". At " ++ time ++ "."

/-- Bytes that may be there, as a member of the document that a digest is of. -/
def supplyMember : Option (List UInt8) → String
  | some bytes => "\"" ++ base64Encode bytes ++ "\""
  | none       => "null"

/-- The document: what was supplied and written, members in alphabetical order. -/
def supplyDocument (supplied note : Option (List UInt8)) : String :=
  "\x7b\"note\":" ++ supplyMember note ++ ",\"supplied\":" ++ supplyMember supplied ++ "\x7d"

/-! ## Signatures -/

/-- The libraries signatures are checked with. -/
structure SignatureCrates where
  sha256 : List UInt8 → List UInt8
  base58Decode : String → Option (List UInt8)
  base64Decode : String → Option (List UInt8)
  /-- 32 bytes that are an Ed25519 key -/
  isVerifyingKey : List UInt8 → Bool
  verify : (key digest signature : List UInt8) → Bool

/-- The digest of what the owner supplied. -/
def supplyDigest (S : SignatureCrates) (supplied note : Option (List UInt8)) : String :=
  hexEncode (S.sha256 (utf8 (supplyDocument supplied note)))

/-- NEP-413's tag: 2^31 + 413. -/
def nep413Tag : Nat := 2147484061

/-- The bytes that are hashed: message, nonce, recipient, and no callback. -/
def nep413Bytes (message : String) (nonce : List UInt8) (recipient : String) : List UInt8 :=
  leBytes nep413Tag ++ (borshText message ++ nonce ++ borshText recipient ++ [0])

/-- Bytes of a given number. -/
def sized (n : Nat) (bytes : Option (List UInt8)) : Option (List UInt8) := bytes.filter fun bs => bs.length = n

/-- The key of `ed25519:<base58>`. -/
def readSigner (S : SignatureCrates) (signerPubkey : String) : Option (List UInt8) :=
  (sized 32 ((Text.stripPrefix signerPubkey "ed25519:").bind S.base58Decode)).filter S.isVerifyingKey

/-- Does the signature sign the message under NEP-413, with this nonce and for this recipient? -/
def verifyNep413 (S : SignatureCrates) (message signerPubkey signature nonce recipient : String) : Except String Unit :=
  match readSigner S signerPubkey with
  | none => .error "the signer's key is not `ed25519:` and 32 bytes of base58"
  | some signer =>
      match sized 64 (S.base64Decode signature) with
      | none => .error "the signature is not 64 bytes of base64"
      | some signature =>
          match sized 32 (S.base64Decode nonce) with
          | none => .error "the nonce is not 32 bytes of base64"
          | some nonce =>
              if message.utf8ByteSize ≥ 2 ^ 32 ∨ recipient.utf8ByteSize ≥ 2 ^ 32 then
                .error "the statement could not be serialised"
              else if S.verify signer (S.sha256 (nep413Bytes message nonce recipient)) signature then .ok ()
              else .error "the signature does not verify"

/-! ## A device's statement -/

/-- The longest a session lasts. -/
def maxSessionSecs : Int := 30 * 24 * 60 * 60

/-- By how much a statement's deadline may exceed the longest session. -/
def deadlineSlackSecs : Int := 10 * 60

/-- The largest number of seconds there is. -/
def i64Max : Int := 2 ^ 63 - 1

/-- Addition that stops at the largest 64-bit integer. -/
def saturatingAdd (a b : Int) : Int := min (a + b) i64Max

/-- A device as the coordinator stores it. -/
structure DeviceStatement where
  id : String
  accountId : String
  devicePubkey : String
  signerPubkey : String
  signature : String
  nonce : String
  validUntil : Int
  validUntil_le : validUntil ≤ i64Max
deriving DecidableEq

/-- A device whose statement held: its id in the store, and its key. -/
structure Device (Point : Type) where
  id : String
  key : Point
deriving DecidableEq

variable {Key Secret Point Shared : Type}

/-- What a statement's libraries are: those of the keys, and those of the signatures. -/
structure StatementCrates (Key Secret Point Shared : Type) where
  crypto : Crates Key Secret Point Shared
  signatures : SignatureCrates

/-- Whether a statement holds, by what can be checked without the chain; the device's key where it does. -/
def signedByItsSigner (C : StatementCrates Key Secret Point Shared) (statement : DeviceStatement) (owner : String)
    (now : Int) (recipient : String) : Except String Point :=
  if statement.accountId ≠ owner then .error "the statement is for another account"
  else if statement.validUntil ≤ now then .error "the statement's deadline has passed"
  else if statement.validUntil > saturatingAdd now (maxSessionSecs + deadlineSlackSecs) then
    .error "the statement is valid for longer than a session lasts"
  else do
    let device ← C.crypto.readPubkey statement.devicePubkey
    match sentence statement.accountId statement.devicePubkey statement.validUntil with
    | none => .error "the deadline is not a time"
    | some message => do
        verifyNep413 C.signatures message statement.signerPubkey statement.signature statement.nonce recipient
        .ok device

/-! ## The chain -/

/-- What the chain says of a key and an account. -/
inductive OnChain
  | itsKey
  | notItsKey
deriving DecidableEq

/-- Why the chain gave no answer. -/
structure ChainUnavailable where
  why : String
deriving DecidableEq

/-- Read what a node says of one key. -/
def readAccessKeyAnswer (answer : Value) : Except ChainUnavailable OnChain :=
  let noAnswer := ⟨"the chain's answer about a key could not be read"⟩
  match answer.get "error" with
  | some error =>
      match ((error.get "cause").bind (Value.get · "name")).bind Value.asStr with
      | some cause =>
          if cause = "UNKNOWN_ACCESS_KEY" ∨ cause = "UNKNOWN_ACCOUNT" ∨ cause = "INVALID_ACCOUNT" then .ok .notItsKey
          else .error noAnswer
      | none => .error noAnswer
  | none =>
      match answer.get "result" with
      | none => .error noAnswer
      | some result =>
          match (result.get "error").bind Value.asStr with
          | some said => if contains said "does not exist" then .ok .notItsKey else .error noAnswer
          | none =>
              if (result.get "nonce").isSome then
                match result.get "permission" with
                | some (.str permission) => if permission = "FullAccess" then .ok .itsKey else .ok .notItsKey
                | some (.obj _)          => .ok .notItsKey
                | _                      => .error noAnswer
              else .error noAnswer

/-- Is the account the implicit one of the key: the hexadecimal digits of its 32 bytes? -/
def isImplicitOf (S : SignatureCrates) (account publicKey : String) : Bool :=
  match (Text.stripPrefix publicKey "ed25519:").bind S.base58Decode with
  | some bytes => decide (bytes.length = 32 ∧ hexEncode bytes = account)
  | none       => false

/-- Read what a node says of an account: does it exist? -/
def readAccountAnswer (answer : Value) : Except ChainUnavailable Bool :=
  let noAnswer := ⟨"the chain's answer about an account could not be read"⟩
  match answer.get "error" with
  | some error =>
      if ((error.get "cause").bind (Value.get · "name")).bind Value.asStr = some "UNKNOWN_ACCOUNT" then .ok false
      else .error noAnswer
  | none =>
      match answer.get "result" with
      | none => .error noAnswer
      | some result =>
          match (result.get "error").bind Value.asStr with
          | some said => if contains said "does not exist" then .ok false else .error noAnswer
          | none      => if (result.get "amount").isSome then .ok true else .error noAnswer

/-- The chain, by what it says of a key on an account. -/
abbrev Chain : Type := (account publicKey : String) → Except ChainUnavailable OnChain

/-- A node, by what it answers. -/
abbrev Query : Type := (params : Value) → Except ChainUnavailable Value

/-- The query for one access key of an account. -/
def viewAccessKey (account publicKey : String) : Value :=
  .obj [("account_id", .str account), ("public_key", .str publicKey), ("request_type", .str "view_access_key")]

/-- The query for an account. -/
def viewAccount (account : String) : Value :=
  .obj [("account_id", .str account), ("request_type", .str "view_account")]

/-- What the chain says of a key on an account. A node says the same of a missing key and a missing account; the
    account's own answer tells an implicit account that is not made yet. -/
def accessKeyBy (S : SignatureCrates) (query : Query) (account publicKey : String) :
    Except ChainUnavailable OnChain := do
  let answer ← query (viewAccessKey account publicKey)
  let said ← readAccessKeyAnswer answer
  if said = .notItsKey ∧ isImplicitOf S account publicKey = true then
    let answer ← query (viewAccount account)
    let exists_ ← readAccountAnswer answer
    .ok (if exists_ then .notItsKey else .itsKey)
  else .ok said

/-- The chain over a node. -/
def rpcChain (S : SignatureCrates) (query : Query) : Chain := accessKeyBy S query

/-! ## Devices in force -/

/-- What the loop over statements carries: the devices so far, and what the chain has said of keys. -/
structure Found (Point : Type) where
  devices : List (Device Point) := []
  asked : List (String × OnChain) := []

/-- One statement. -/
def lookAt (C : StatementCrates Key Secret Point Shared) (owner : String) (now : Int) (recipient : String)
    (chain : Chain) (found : Found Point) (statement : DeviceStatement) : Except ChainUnavailable (Found Point) :=
  match signedByItsSigner C statement owner now recipient with
  | .error _ => .ok found
  | .ok key => do
      let (onChain, asked) ← askOnce (chain owner) found.asked statement.signerPubkey
      .ok (match onChain with
        | .itsKey    => { devices := found.devices ++ [⟨statement.id, key⟩], asked }
        | .notItsKey => { found with asked })

/-- The owner's devices among the statements. -/
def devicesInForce (C : StatementCrates Key Secret Point Shared) (statements : List DeviceStatement) (owner : String)
    (now : Int) (recipient : String) (chain : Chain) : Except ChainUnavailable (List (Device Point)) := do
  let found ← statements.foldlM (lookAt C owner now recipient chain) {}
  .ok found.devices

/-! ## An approval -/

/-- How far ahead of the clock an approval may be dated, in seconds. -/
def approvalAheadSecs : Int := 10 * 60

/-- How old an approval may be when a run meets it, in seconds. -/
def approvalAgeSecs : Int := 30 * 60

/-- The owner's approval of a task. -/
structure Approval where
  at_ : Nat
  publicKey : String
  signature : String
  nonce : String
deriving DecidableEq

/-- Why an approval is not taken. -/
inductive ApprovalRefused
  | invalid (why : String)
  | unavailable (why : String)
deriving DecidableEq

/-- Whether an approval approves the task of its owner, with what was supplied and written, now. -/
def approvalHolds (C : StatementCrates Key Secret Point Shared) (approval : Approval) (owner id hash : String)
    (supplied note : Option (List UInt8)) (now : Int) (expiresAt : Nat) (recipient : String) (chain : Chain) :
    Except ApprovalRefused Unit :=
  if (approval.at_ : Int) > i64Max then .error (.invalid "the approval's time is not a time")
  else if (approval.at_ : Int) > now + approvalAheadSecs then .error (.invalid "the approval is dated ahead")
  else if (approval.at_ : Int) < now - approvalAgeSecs then
    .error (.invalid "the approval is older than thirty minutes")
  else if approval.at_ ≥ expiresAt then .error (.invalid "the approval is dated past the task's life")
  else
    match approvalSentence owner id hash (supplyDigest C.signatures supplied note) approval.at_ with
    | none => .error (.invalid "the approval's time is not a time")
    | some message => do
        (verifyNep413 C.signatures message approval.publicKey approval.signature approval.nonce recipient).mapError
          fun why => .invalid ("the approval " ++ why)
        match chain owner approval.publicKey with
        | .error down       => .error (.unavailable down.why)
        | .ok .itsKey       => .ok ()
        | .ok .notItsKey    => .error (.invalid
            "the key that signed the approval is not a full-access key of the owner's account")

end Tasks
end Worker
end Outlayer
