import Outlayer.Lib.Cryptography
import Outlayer.Lib.Base64
import Outlayer.Lib.TextParts

/-!
# `Worker.Tasks.Crypto` — the keys of a task, and what is sealed with them

From the project's key for an owner come the keys of a task: one that the enclave seals with, and a key pair that the
owner's answer is encrypted to. The content has a key of its own. What a blob is for is bound into it: in the associated
data of a cipher, or in the derivation of a key.
-/

namespace Outlayer
open Text

namespace Worker
namespace Tasks

/-- What every failure to open says. -/
def decryptionFailed : String := "decryption failed"

/-- How a P-256 public key is written: the curve, and the uncompressed point in base64url without padding. -/
def p256Prefix : String := "p256:"

/-- The byte every blob begins with. -/
def formatByte : UInt8 := 1
/-- The lengths of the two nonces, of a tag, and of a point. -/
def xnonceLen : Nat := 24
def gcmNonceLen : Nat := 12
def tagLen : Nat := 16
def pointLen : Nat := 65

/-! ## What a blob is -/

/-- What a sealed blob is. -/
inductive Sealed
  | task
  | outcome
deriving DecidableEq

/-- The label in the associated data. -/
def Sealed.label : Sealed → String
  | task    => "task"
  | outcome => "outcome"

/-- What a blob encrypted to a public key is for. -/
inductive Purpose
  | deviceCopy
  | answer
  | rejection
  | note
deriving DecidableEq

/-- The label in the text a key is derived with. -/
def Purpose.label : Purpose → String
  | deviceCopy => "device-copy"
  | answer     => "answer"
  | rejection  => "rejection"
  | note       => "note"

/-- The text a key is derived with: for one purpose and one task. -/
def Purpose.info (purpose : Purpose) (task : String) : List UInt8 :=
  utf8 ("outlayer-task:v1:" ++ purpose.label ++ ":" ++ task)

/-- The associated data of a blob: what it is, and of which task. -/
def sealedAad (what : Sealed) (task : String) : List UInt8 :=
  utf8 ("outlayer-task:v1:" ++ what.label ++ ":" ++ task)

/-- What a file of a task is bound to: the task, and its place among the task's files. -/
def fileAad (task : String) (place : Nat) : List UInt8 := utf8 (task ++ ":file:" ++ toString place)

/-! ## Keys -/

/-- The libraries tasks are encrypted with. A `Key` is 32 bytes; `Secret` and `Point` are a scalar and a point of the
    curve. -/
structure Crates (Key Secret Point Shared : Type) where
  hmac : Key → List UInt8 → Key
  /-- a scalar within the order of the curve -/
  secretOf : Key → Option Secret
  publicKey : Secret → Point
  /-- the uncompressed point -/
  encodePoint : Point → List UInt8
  fromSec1Bytes : List UInt8 → Option Point
  diffieHellman : Secret → Point → Shared
  hkdf : Shared → (salt info : List UInt8) → Key
  xchacha : Aead Key
  aesGcm : Aead Key

/-- The keys of one project: one to seal with, one that replies are encrypted to. -/
structure TaskKeys (Key Secret : Type) where
  sealKey : Key
  reply : Secret

/-- Four bytes, the highest first. -/
def beBytes (n : Nat) : List UInt8 :=
  [UInt8.ofNat (n / 2 ^ 24), UInt8.ofNat (n / 2 ^ 16), UInt8.ofNat (n / 2 ^ 8), UInt8.ofNat n]

variable {Key Secret Point Shared : Type}

namespace Crates
variable (C : Crates Key Secret Point Shared)

/-- The first scalar among those of `left` counters, from `n` on. -/
def firstSecret (taskKey : Key) : (left n : Nat) → Option Secret
  | 0, _ => none
  | left + 1, n =>
      match C.secretOf (C.hmac taskKey (utf8 "reply:" ++ beBytes n)) with
      | some secret => some secret
      | none        => firstSecret taskKey left (n + 1)

/-- The keys of a task; none where no counter gives a scalar, which ends the program. -/
def deriveKeys (projectKey : Key) (task : String) : Option (TaskKeys Key Secret) :=
  let taskKey := C.hmac projectKey (utf8 ("task:" ++ task))
  (C.firstSecret taskKey (2 ^ 32) 0).map fun reply => ⟨C.hmac taskKey (utf8 "seal"), reply⟩

/-- A public key as a text. -/
def writePubkey (key : Point) : String := p256Prefix ++ base64UrlEncode (C.encodePoint key)

/-- A public key as written, checked to be a point on the curve. -/
def readPubkey (written : String) : Except String Point :=
  match Text.stripPrefix written p256Prefix with
  | none => .error "the key is not written `p256:…`"
  | some point =>
      match base64UrlDecode point with
      | none => .error "the key is not base64url"
      | some bytes =>
          if bytes.length ≠ pointLen ∨ bytes.head? ≠ some 4 then
            .error "the key is not an uncompressed point of 65 bytes"
          else
            match C.fromSec1Bytes bytes with
            | none     => .error "the key is not a point on P-256"
            | some key => .ok key

/-- The public half of the reply key, as the task carries it. -/
def replyPubkey (keys : TaskKeys Key Secret) : String := C.writePubkey (C.publicKey keys.reply)

/-! ## Sealed for the enclave -/

/-- `[0x01 | nonce (24) | ciphertext and tag]`; no nonce where the host has no randomness. -/
def sealBlob (keys : TaskKeys Key Secret) (what : Sealed) (task : String) (nonce : Option (List UInt8))
    (plaintext : List UInt8) : Except String (List UInt8) :=
  match nonce with
  | none => .error "the host has no randomness for a nonce"
  | some nonce =>
      match C.xchacha.encrypt keys.sealKey nonce (sealedAad what task) plaintext with
      | none    => .error "sealing failed"
      | some ct => .ok (formatByte :: (nonce ++ ct))

/-- Open what was sealed with the project's key. -/
def openBlob (keys : TaskKeys Key Secret) (what : Sealed) (task : String) (blob : List UInt8) :
    Except String (List UInt8) :=
  if blob.length < 1 + xnonceLen + tagLen ∨ blob.head? ≠ some formatByte then .error decryptionFailed
  else
    match C.xchacha.decrypt keys.sealKey ((blob.drop 1).take xnonceLen) (sealedAad what task)
        (blob.drop (1 + xnonceLen)) with
    | none           => .error decryptionFailed
    | some plaintext => .ok plaintext

/-! ## For a browser, under the content key -/

/-- `[0x01 | nonce (12) | ciphertext and tag]`. -/
def encryptUnder (key : Key) (aad : List UInt8) (nonce : Option (List UInt8)) (plaintext : List UInt8) :
    Except String (List UInt8) :=
  match nonce with
  | none => .error "the host has no randomness for a nonce"
  | some nonce =>
      match C.aesGcm.encrypt key nonce aad plaintext with
      | none    => .error "encryption failed"
      | some ct => .ok (formatByte :: (nonce ++ ct))

/-- Open what was sealed with the second cipher. -/
def decryptUnder (key : Key) (aad blob : List UInt8) : Except String (List UInt8) :=
  if blob.length < 1 + gcmNonceLen + tagLen ∨ blob.head? ≠ some formatByte then .error decryptionFailed
  else
    match C.aesGcm.decrypt key ((blob.drop 1).take gcmNonceLen) aad (blob.drop (1 + gcmNonceLen)) with
    | none           => .error decryptionFailed
    | some plaintext => .ok plaintext

/-- Seal the content of a task. -/
def encryptContent (key : Key) (task : String) : (nonce : Option (List UInt8)) → (plaintext : List UInt8) →
    Except String (List UInt8) := C.encryptUnder key (utf8 task)

/-- Open it. -/
def decryptContent (key : Key) (task : String) : (blob : List UInt8) → Except String (List UInt8) :=
  C.decryptUnder key (utf8 task)

/-- Seal the file at a place. -/
def encryptFile (key : Key) (task : String) (place : Nat) : (nonce : Option (List UInt8)) → (plaintext : List UInt8) →
    Except String (List UInt8) := C.encryptUnder key (fileAad task place)

/-- Open it. -/
def decryptFile (key : Key) (task : String) (place : Nat) : (blob : List UInt8) → Except String (List UInt8) :=
  C.decryptUnder key (fileAad task place)

/-! ## To a public key -/

/-- The key of a blob that is encrypted to a recipient. -/
def eciesKey (shared : Shared) (ephemeral recipient : List UInt8) (purpose : Purpose) (task : String) : Key :=
  C.hkdf shared (ephemeral ++ recipient) (purpose.info task)

/-- `[0x01 | ephemeral public key (65) | nonce (12) | ciphertext and tag]`. -/
def sealTo (recipient : Point) (purpose : Purpose) (task : String) (ephemeral : Secret) (nonce : Option (List UInt8))
    (plaintext : List UInt8) : Except String (List UInt8) :=
  let ephemeralPoint := C.encodePoint (C.publicKey ephemeral)
  let key := C.eciesKey (C.diffieHellman ephemeral recipient) ephemeralPoint (C.encodePoint recipient) purpose task
  match nonce with
  | none => .error "the host has no randomness for a nonce"
  | some nonce =>
      match C.aesGcm.encrypt key nonce [] plaintext with
      | none    => .error "encryption failed"
      | some ct => .ok (formatByte :: (ephemeralPoint ++ (nonce ++ ct)))

/-- Open what was encrypted to a public key. -/
def openFrom (secret : Secret) (purpose : Purpose) (task : String) (blob : List UInt8) : Except String (List UInt8) :=
  if blob.length < 1 + pointLen + gcmNonceLen + tagLen ∨ blob.head? ≠ some formatByte then .error decryptionFailed
  else
    let ephemeralPoint := (blob.drop 1).take pointLen
    match C.fromSec1Bytes ephemeralPoint with
    | none => .error decryptionFailed
    | some ephemeral =>
        let key := C.eciesKey (C.diffieHellman secret ephemeral) ephemeralPoint
          (C.encodePoint (C.publicKey secret)) purpose task
        match C.aesGcm.decrypt key ((blob.drop (1 + pointLen)).take gcmNonceLen) []
            (blob.drop (1 + pointLen + gcmNonceLen)) with
        | none           => .error decryptionFailed
        | some plaintext => .ok plaintext

/-- Open what the owner's page encrypted to the reply key. -/
def openReply (keys : TaskKeys Key Secret) : Purpose → (task : String) → (blob : List UInt8) →
    Except String (List UInt8) := C.openFrom keys.reply

end Crates
end Tasks
end Worker
end Outlayer
