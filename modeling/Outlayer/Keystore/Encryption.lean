import Outlayer.Lib.Cryptography
import Outlayer.Keystore.KeyCache
import Outlayer.Keystore.Seeds

/-!
# `Keystore.Encryption` — what is encrypted for a customer and a seed

Two formats of encrypted data. In the current one anyone encrypts to a public key, with a secret drawn for the one
text, and only the keystore opens it. In the legacy one the key is a public key itself. They are told apart by trying:
what does not open in the current format is tried in the legacy one.
-/

namespace Outlayer
open Text Collections

namespace Keystore

/-- The libraries the keystore encrypts with. What one hands to another is a value of a type of its own. -/
structure Crates (Master Digest Ephemeral PublicKey Shared VerifyingKey SymKey : Type) where
  hmac : Master → String → Digest
  /-- the Ed25519 key pair whose secret is a digest -/
  verifyingKey : Digest → VerifyingKey
  /-- the X25519 key pair whose secret is a digest -/
  publicKey : Digest → PublicKey
  /-- the 32 bytes of the public key of a secret drawn for one encryption -/
  ephemeralPublic : Ephemeral → List UInt8
  /-- `diffie_hellman` of such a secret -/
  sendSecret : Ephemeral → PublicKey → Shared
  /-- `diffie_hellman` of a derived secret, with a public key given by its bytes -/
  receiveSecret : Digest → List UInt8 → Shared
  hkdfDeriveKey : Shared → SymKey
  /-- the bytes of an Ed25519 public key, taken for a key of the cipher -/
  ofVerifyingKey : VerifyingKey → SymKey
  chaCha20Poly1305 : Aead SymKey

variable {Master Digest Ephemeral PublicKey Shared VerifyingKey SymKey : Type}

/-- The largest encrypted data, in bytes. -/
def maxEncryptedSize : Nat := 10 * 1024 * 1024

/-- The first byte of every ciphertext. -/
def eciesVersion : UInt8 := 1

/-- The failure of a derivation for a vault whose master is not in the keystore. -/
def vaultMasterNotLoaded (customer : AccountId) : String :=
  "per-customer master not loaded for " ++ customer.name ++ "; run mpc_ckd::add_customer first"

namespace Crates

variable (C : Crates Master Digest Ephemeral PublicKey Shared VerifyingKey SymKey)
  (s : KeyCache.State Master (Digest × VerifyingKey)) (customer : Option AccountId) (seed : String)

/-- The Ed25519 pair of a master and a seed. -/
def derive (master : Master) (seed : String) : Digest × VerifyingKey :=
  (C.hmac master seed, C.verifyingKey (C.hmac master seed))

/-- The master a customer's keys are derived from. -/
def masterFor : Except String Master := (s.masterFor customer).mapError vaultMasterNotLoaded

/-- The Ed25519 pair: the cached one, or else one derived now. -/
def deriveKeypair : Except String (Digest × VerifyingKey) :=
  match s.keypairCache.lookup (customer, seed) with
  | some keypair => .ok keypair
  | none => do
      let master ← masterFor s customer
      pure (C.derive master seed)

/-- The X25519 pair; it is not cached. -/
def deriveX25519Keypair : Except String (Digest × PublicKey) := do
  let master ← masterFor s customer
  let secret := C.hmac master (eciesInput seed)
  pure (secret, C.publicKey secret)

/-- Encrypt for a customer and a seed, with what was drawn for it. -/
def encrypt (ephemeral : Ephemeral) (nonce plaintext : List UInt8) : Except String (List UInt8) :=
  if plaintext.length > maxEncryptedSize then
    .error ("Plaintext too large: " ++ toString plaintext.length ++ " bytes")
  else do
    let (_, recipientPub) ← C.deriveX25519Keypair s customer seed
    let symKey := C.hkdfDeriveKey (C.sendSecret ephemeral recipientPub)
    match C.chaCha20Poly1305.encrypt symKey nonce [] plaintext with
    | none => .error "Encryption failed: aead::Error"
    | some ciphertextWithTag => .ok (eciesVersion :: (C.ephemeralPublic ephemeral ++ (nonce ++ ciphertextWithTag)))

/-- `[0x01 | ephemeral public key (32) | nonce (12) | ciphertext and tag]`. -/
def decryptEcies (encryptedData : List UInt8) : Except String (List UInt8) := do
  let ephemeralPub := (encryptedData.drop 1).take 32
  let (secret, _) ← C.deriveX25519Keypair s customer seed
  let symKey := C.hkdfDeriveKey (C.receiveSecret secret ephemeralPub)
  match C.chaCha20Poly1305.decrypt symKey ((encryptedData.drop 33).take 12) [] (encryptedData.drop 45) with
  | some plaintext => .ok plaintext
  | none           => .error "ECIES decryption failed: aead::Error"

/-- `[nonce (12) | ciphertext and tag]`. -/
def decryptLegacy (encryptedData : List UInt8) : Except String (List UInt8) := do
  let (_, verifyingKey) ← C.deriveKeypair s customer seed
  let symKey := C.ofVerifyingKey verifyingKey
  match C.chaCha20Poly1305.decrypt symKey (encryptedData.take 12) [] (encryptedData.drop 12) with
  | some plaintext => .ok plaintext
  | none           => .error "Legacy decryption failed (data tampered or wrong key): aead::Error"

/-- Decrypt what was encrypted for a customer and a seed, in either format. -/
def decrypt (encryptedData : List UInt8) : Except String (List UInt8) :=
  if encryptedData.length > maxEncryptedSize then
    .error ("Encrypted data too large: " ++ toString encryptedData.length ++ " bytes")
  else if encryptedData.length < 28 then
    .error ("Encrypted data too short: " ++ toString encryptedData.length ++ " bytes (minimum 28)")
  else if encryptedData.head? = some eciesVersion ∧ encryptedData.length ≥ 61 then
    match C.decryptEcies s customer seed encryptedData with
    | .ok plaintext => .ok plaintext
    | .error _      => C.decryptLegacy s customer seed encryptedData
  else C.decryptLegacy s customer seed encryptedData

end Crates

end Keystore
end Outlayer
