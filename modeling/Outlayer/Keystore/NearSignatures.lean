import Outlayer.Lib.TextParts

/-!
# `Keystore.NearSignatures` — messages that a wallet signs

A wallet signs a message under NEP-413. What it signs is the SHA-256 digest of a tagged payload, which holds the
message, a nonce of 32 bytes and the recipient. The scheme is the public key's own, and only Ed25519 and ML-DSA are
taken; ML-DSA hashes what it is given, so with it the payload itself may have been signed. Whose the key is, the chain
is asked elsewhere.
-/

namespace Outlayer
open Text

namespace Keystore

/-! ## The crates -/

/-- The schemes of an account's keys. -/
inductive NearCrypto.KeyType
  | ed25519
  | secp256k1
  | mlDsa65
deriving DecidableEq

/-- A public key as it was read. -/
structure NearCrypto.PublicKey where
  keyType : KeyType
  bytes : List UInt8
deriving DecidableEq

/-- A signature as it was read. -/
structure NearCrypto.Signature where
  keyType : KeyType
  bytes : List UInt8
deriving DecidableEq

/-- The crates that keys and signatures are read and checked with; an error is its text. -/
structure NearCrypto where
  publicKeyFromStr : String → Except String NearCrypto.PublicKey
  /-- `<scheme>:<base58>` -/
  signatureFromStr : String → Except String NearCrypto.Signature
  /-- the raw bytes of a signature of the scheme -/
  signatureFromParts : NearCrypto.KeyType → List UInt8 → Except String NearCrypto.Signature
  showKeyType : NearCrypto.KeyType → String
  verify : NearCrypto.Signature → (data : List UInt8) → NearCrypto.PublicKey → Bool
  sha256 : List UInt8 → Vector UInt8 32
  base64Decode : String → Except String (List UInt8)
  /-- what the serializer says of a text whose length is no 32-bit number -/
  textTooLong : String

namespace NearCrypto

/-! ## NEP-413 -/

/-- NEP-413's tag: 2^31 + 413. -/
def nep413Tag : Nat := 2147484061

/-- The tagged payload: the message, the nonce, the recipient, and no callback. -/
def nep413Payload (message : String) (nonce : List UInt8) (recipient : String) : List UInt8 :=
  leBytes nep413Tag ++ (borshText message ++ nonce ++ borshText recipient ++ [0])

variable (C : NearCrypto)

/-- The digest that is signed, and the bytes it is a digest of. -/
def nep413Digest (message nonce recipient : String) : Except String (Vector UInt8 32 × List UInt8) :=
  match C.base64Decode nonce with
  | .error e => .error ("Failed to decode nonce: " ++ e)
  | .ok nonceBytes =>
      if nonceBytes.length ≠ 32 then
        .error ("Invalid nonce length: " ++ toString nonceBytes.length ++ " (expected 32)")
      else if 2 ^ 32 ≤ message.utf8ByteSize ∨ 2 ^ 32 ≤ recipient.utf8ByteSize then
        .error ("Failed to serialize NEP-413 payload: " ++ C.textTooLong)
      else
        let tagged := nep413Payload message nonceBytes recipient
        .ok (C.sha256 tagged, tagged)

/-- A signature, given in base64 or with its scheme in front. -/
def readSignature (keyType : KeyType) (signature : String) : Except String Signature :=
  if ':' ∈ signature.toList then
    (C.signatureFromStr signature).mapError fun e => "Failed to parse signature: " ++ e
  else
    match C.base64Decode signature with
    | .error e => .error ("Failed to decode signature: " ++ e)
    | .ok bytes =>
        (C.signatureFromParts keyType bytes).mapError fun e =>
          "Invalid " ++ C.showKeyType keyType ++ " signature of " ++ toString bytes.length ++ " bytes: " ++ e

/-- The scheme is one that is taken, of the signature and of the key. -/
def sameScheme : (signature key : KeyType) → Bool
  | .ed25519, .ed25519 => true
  | .mlDsa65, .mlDsa65 => true
  | _, _               => false

/-- Verify a wallet's signature. -/
def verifyNearSignature (message signature publicKey nonce recipient : String) : Except String Unit :=
  match C.publicKeyFromStr publicKey with
  | .error e => .error ("Invalid public key, expected 'ed25519:<base58>' or 'ml-dsa-65:<base58>': " ++ e)
  | .ok pk =>
      if pk.keyType ≠ .ed25519 ∧ pk.keyType ≠ .mlDsa65 then
        .error ("Public key scheme " ++ C.showKeyType pk.keyType
          ++ " is not accepted here; sign with an ed25519 or ml-dsa-65 key")
      else do
        let sig ← C.readSignature pk.keyType signature
        if sameScheme sig.keyType pk.keyType = false then
          .error ("The signature is " ++ C.showKeyType sig.keyType ++ " and the public key is "
            ++ C.showKeyType pk.keyType)
        else do
          let (digest, tagged) ← C.nep413Digest message nonce recipient
          if C.verify sig digest.toList pk = true ∨ pk.keyType = .mlDsa65 ∧ C.verify sig tagged pk = true then .ok ()
          else .error "Signature verification failed"

/-! ## What a signature says -/

/-- The key signed this message, with this nonce and for this recipient: its digest, or with ML-DSA the payload. -/
def Signs (key : PublicKey) (sig : Signature) (message : String) (nonce : List UInt8) (recipient : String) : Prop :=
  C.verify sig (C.sha256 (nep413Payload message nonce recipient)).toList key = true ∨
    key.keyType = .mlDsa65 ∧ C.verify sig (nep413Payload message nonce recipient) key = true

/-- What is passed with a message is a signature of it: all of it is read, the scheme of both is one that is taken, the
    nonce has its length, and the texts have lengths that fit. -/
structure Signed (message signature publicKey nonce recipient : String) : Prop where
  fits : message.utf8ByteSize < 2 ^ 32 ∧ recipient.utf8ByteSize < 2 ^ 32
  signs : ∃ key sig nonceBytes, C.publicKeyFromStr publicKey = .ok key ∧
    C.readSignature key.keyType signature = .ok sig ∧ sig.keyType = key.keyType ∧ key.keyType ≠ .secp256k1 ∧
    C.base64Decode nonce = .ok nonceBytes ∧ nonceBytes.length = 32 ∧ C.Signs key sig message nonceBytes recipient

variable {C} {message signature publicKey nonce recipient : String}

theorem nep413Digest_ok_iff {digest : Vector UInt8 32} {tagged : List UInt8} :
    C.nep413Digest message nonce recipient = .ok (digest, tagged) ↔
      (message.utf8ByteSize < 2 ^ 32 ∧ recipient.utf8ByteSize < 2 ^ 32) ∧ ∃ nonceBytes,
        C.base64Decode nonce = .ok nonceBytes ∧ nonceBytes.length = 32 ∧
          tagged = nep413Payload message nonceBytes recipient ∧ digest = C.sha256 tagged := by
  unfold nep413Digest
  constructor
  · intro h
    split at h
    · cases h
    · next nonceBytes hdecode =>
        split at h
        · cases h
        · next hlength =>
            split at h
            · cases h
            · next hfits =>
                cases h
                simp only [not_or, Nat.not_le] at hfits
                exact ⟨hfits, nonceBytes, hdecode, not_not.mp hlength, rfl, rfl⟩
  · rintro ⟨⟨hmessage, hrecipient⟩, nonceBytes, hdecode, hlength, rfl, rfl⟩
    have hfits : ¬ (2 ^ 32 ≤ message.utf8ByteSize ∨ 2 ^ 32 ≤ recipient.utf8ByteSize) :=
      fun h => h.elim (Nat.not_le.mpr hmessage) (Nat.not_le.mpr hrecipient)
    rw [hdecode]
    dsimp only
    rw [if_neg (not_not_intro hlength), if_neg hfits]

theorem sameScheme_iff {signature key : KeyType} :
    sameScheme signature key = true ↔ signature = key ∧ key ≠ .secp256k1 := by
  cases signature <;> cases key <;> decide

/-- **A signature is taken exactly where it is one.** -/
theorem verifyNearSignature_ok_iff {u : Unit} :
    C.verifyNearSignature message signature publicKey nonce recipient = .ok u ↔
      C.Signed message signature publicKey nonce recipient := by
  unfold verifyNearSignature
  constructor
  · intro h
    split at h
    · cases h
    · next key hkey =>
        split at h
        · cases h
        · cases hsig : C.readSignature key.keyType signature with
          | error e => rw [hsig] at h; cases h
          | ok sig =>
              rw [hsig] at h
              replace h : (if sameScheme sig.keyType key.keyType = false then _ else _) = Except.ok u := h
              split at h
              · cases h
              · next hscheme =>
                  obtain ⟨hsame, htaken⟩ := sameScheme_iff.mp (Bool.not_eq_false _ ▸ hscheme)
                  cases hdigest : C.nep413Digest message nonce recipient with
                  | error e => rw [hdigest] at h; cases h
                  | ok signed =>
                      obtain ⟨digest, tagged⟩ := signed
                      obtain ⟨hfits, nonceBytes, hdecode, hlength, rfl, rfl⟩ := nep413Digest_ok_iff.mp hdigest
                      rw [hdigest] at h
                      replace h : (if _ ∨ _ then _ else _) = Except.ok u := h
                      split at h
                      · next hsigns =>
                          exact ⟨hfits, key, sig, nonceBytes, hkey, hsig, hsame, htaken, hdecode, hlength, hsigns⟩
                      · cases h
  · rintro ⟨hfits, key, sig, nonceBytes, hkey, hsig, hsame, htaken, hdecode, hlength, hsigns⟩
    have hdigest := (nep413Digest_ok_iff (C := C)).mpr ⟨hfits, nonceBytes, hdecode, hlength, rfl, rfl⟩
    have haccepted : ¬ (key.keyType ≠ .ed25519 ∧ key.keyType ≠ .mlDsa65) := by
      cases hkind : key.keyType with
      | ed25519 => simp
      | secp256k1 => exact absurd hkind htaken
      | mlDsa65 => simp
    rw [hkey]
    dsimp only
    rw [if_neg haccepted, hsig]
    show (if sameScheme sig.keyType key.keyType = false then _ else _) = Except.ok ()
    rw [sameScheme_iff.mpr ⟨hsame, htaken⟩, if_neg Bool.true_eq_false.mp, hdigest]
    exact if_pos hsigns

end NearCrypto

end Keystore
end Outlayer
