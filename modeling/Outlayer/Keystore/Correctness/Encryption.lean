import Outlayer.Keystore.Encryption
import Outlayer.Keystore.Correctness.KeyCache

/-!
# `Keystore.Correctness.Encryption` — what decrypts, and to what

Two results. What `encrypt` made for a customer and a seed, `decrypt` opens for them as long as the customer's master
is the same; but the limit is put on the plaintext there and on the encrypted data here, and a plaintext within 61
bytes of it is encrypted into something too large to be decrypted.

The other is about every string at all. With an ideal cipher, what opens under a key was sealed under it by somebody,
and with an ideal exchange of keys a key belongs to one recipient in one format. So a string that opens, in whichever
format it is tried, was made in that very format for this customer and seed, and for no other.
-/

namespace Outlayer
open Text Collections

namespace Keystore

variable {Master Digest Ephemeral PublicKey Shared VerifyingKey SymKey : Type}
  {C : Crates Master Digest Ephemeral PublicKey Shared VerifyingKey SymKey}
  {s s' : KeyCache.State Master (Digest × VerifyingKey)} {customer : Option AccountId} {seed : String}

/-! ## What is derived -/

theorem Crates.deriveX25519Keypair_eq_ok {pair : Digest × PublicKey}
    (h : C.deriveX25519Keypair s customer seed = .ok pair) :
    ∃ master, s.masterFor customer = .ok master ∧ pair.1 = C.hmac master (eciesInput seed) ∧
      pair.2 = C.publicKey (C.hmac master (eciesInput seed)) := by
  unfold Crates.deriveX25519Keypair Crates.masterFor at h
  cases hmaster : s.masterFor customer with
  | error missing => rw [hmaster] at h; cases h
  | ok master =>
      rw [hmaster] at h
      cases h
      exact ⟨master, rfl, rfl, rfl⟩

theorem Crates.deriveX25519Keypair_of_master {master : Master} (h : s.masterFor customer = .ok master) :
    C.deriveX25519Keypair s customer seed =
      .ok (C.hmac master (eciesInput seed), C.publicKey (C.hmac master (eciesInput seed))) := by
  unfold Crates.deriveX25519Keypair Crates.masterFor
  rw [h]
  rfl

/-! ## The current format -/

/-- What `encrypt` answers, and out of what. -/
theorem Crates.encrypt_eq_ok {ephemeral : Ephemeral} {nonce plaintext data : List UInt8}
    (h : C.encrypt s customer seed ephemeral nonce plaintext = .ok data) :
    ∃ master sealed, s.masterFor customer = .ok master ∧
      C.chaCha20Poly1305.encrypt
        (C.hkdfDeriveKey (C.sendSecret ephemeral (C.publicKey (C.hmac master (eciesInput seed))))) nonce [] plaintext =
          some sealed ∧
      data = eciesVersion :: (C.ephemeralPublic ephemeral ++ (nonce ++ sealed)) := by
  unfold Crates.encrypt at h
  split at h
  · cases h
  · cases hpair : C.deriveX25519Keypair s customer seed with
    | error e => rw [hpair] at h; cases h
    | ok pair =>
        obtain ⟨master, hmaster, -, hpublic⟩ := Crates.deriveX25519Keypair_eq_ok hpair
        rw [hpair] at h
        dsimp only [bind, Except.bind] at h
        split at h
        · cases h
        · next sealed hsealed =>
            rw [hpublic] at hsealed
            exact ⟨master, sealed, hmaster, hsealed, (Except.ok.inj h).symm⟩

/-- The three parts that stand behind the version. -/
theorem ecies_parts {ephemeralPub nonce : List UInt8} (sealed : List UInt8) (hpub : ephemeralPub.length = 32)
    (hnonce : nonce.length = 12) :
    ((eciesVersion :: (ephemeralPub ++ (nonce ++ sealed))).drop 1).take 32 = ephemeralPub ∧
      ((eciesVersion :: (ephemeralPub ++ (nonce ++ sealed))).drop 33).take 12 = nonce ∧
      (eciesVersion :: (ephemeralPub ++ (nonce ++ sealed))).drop 45 = sealed := by
  obtain ⟨hheader, hbehind⟩ := @header_parts eciesVersion _ _ (nonce ++ sealed) hpub
  have hsealed : (eciesVersion :: (ephemeralPub ++ (nonce ++ sealed))).drop (33 + 12) = sealed := by
    rw [← List.drop_drop, hbehind, List.drop_left' hnonce]
  refine ⟨hheader, ?_, hsealed⟩
  rw [hbehind, List.take_left' hnonce]

/-- A string of at least 61 bytes with the version in front is put together of its parts. -/
theorem ecies_of_parts {data : List UInt8} (hversion : data.head? = some eciesVersion) (hlen : data.length ≥ 61) :
    data = eciesVersion :: ((data.drop 1).take 32 ++ ((data.drop 33).take 12 ++ data.drop 45)) := by
  cases data with
  | nil => cases hversion
  | cons b rest =>
      obtain rfl := Option.some.inj hversion
      simp only [List.drop_succ_cons, List.drop_zero]
      rw [show rest.drop 44 = (rest.drop 32).drop 12 by rw [List.drop_drop], List.take_append_drop,
        List.take_append_drop]

/-- What the libraries document. -/
structure Crates.Lawful (C : Crates Master Digest Ephemeral PublicKey Shared VerifyingKey SymKey) : Prop where
  cipher : C.chaCha20Poly1305.Lawful 16
  ephemeralPublic_length : ∀ e, (C.ephemeralPublic e).length = 32
  /-- both sides of an exchange compute the same secret -/
  agree : ∀ d e, C.receiveSecret d (C.ephemeralPublic e) = C.sendSecret e (C.publicKey d)

/-- What was encrypted opens in the format it was encrypted in. -/
theorem Crates.decryptEcies_encrypt (hlaw : C.Lawful) {ephemeral : Ephemeral} {nonce plaintext data : List UInt8}
    (hnonce : nonce.length = 12) (hmaster : s'.masterFor customer = s.masterFor customer)
    (h : C.encrypt s customer seed ephemeral nonce plaintext = .ok data) :
    C.decryptEcies s' customer seed data = .ok plaintext := by
  obtain ⟨master, sealed, hm, hsealed, rfl⟩ := Crates.encrypt_eq_ok h
  obtain ⟨hpub, hn, hc⟩ := ecies_parts sealed (hlaw.ephemeralPublic_length ephemeral) hnonce
  unfold Crates.decryptEcies
  rw [hpub, hn, hc, Crates.deriveX25519Keypair_of_master (hmaster.trans hm)]
  dsimp only [bind, Except.bind]
  rw [hlaw.agree, hlaw.cipher.decrypt_encrypt hsealed]

/-- 61 bytes are added: the version, a public key, a nonce and a tag. -/
theorem Crates.length_encrypt (hlaw : C.Lawful) {ephemeral : Ephemeral} {nonce plaintext data : List UInt8}
    (hnonce : nonce.length = 12) (h : C.encrypt s customer seed ephemeral nonce plaintext = .ok data) :
    data.length = plaintext.length + 61 := by
  obtain ⟨master, sealed, -, hsealed, rfl⟩ := Crates.encrypt_eq_ok h
  have hlen := hlaw.cipher.length_encrypt hsealed
  have hpub := hlaw.ephemeralPublic_length ephemeral
  simp only [List.length_cons, List.length_append]
  omega

theorem Crates.decrypt_encrypt (hlaw : C.Lawful) {ephemeral : Ephemeral} {nonce plaintext data : List UInt8}
    (hnonce : nonce.length = 12) (hmaster : s'.masterFor customer = s.masterFor customer)
    (h : C.encrypt s customer seed ephemeral nonce plaintext = .ok data) :
    C.decrypt s' customer seed data =
      if plaintext.length + 61 ≤ maxEncryptedSize then .ok plaintext
      else .error ("Encrypted data too large: " ++ toString data.length ++ " bytes") := by
  have hlen := Crates.length_encrypt hlaw hnonce h
  have hopen := Crates.decryptEcies_encrypt hlaw hnonce hmaster h
  have hhead : data.head? = some eciesVersion := by
    obtain ⟨_, _, -, -, rfl⟩ := Crates.encrypt_eq_ok h
    rfl
  unfold Crates.decrypt
  by_cases hsize : plaintext.length + 61 ≤ maxEncryptedSize
  · rw [if_neg (by omega), if_neg (by omega), if_pos ⟨hhead, by omega⟩, if_pos hsize, hopen]
  · rw [if_pos (by omega), if_neg hsize]

/-! ## What has been encrypted -/

/-- An encryption that somebody made: for the holder of a public key with a secret of one's own, or under an Ed25519
    public key. -/
inductive Encryption (Ephemeral PublicKey VerifyingKey : Type)
  | ecies (recipient : PublicKey) (ephemeral : Ephemeral) (nonce plaintext : List UInt8)
  | legacy (key : VerifyingKey) (nonce plaintext : List UInt8)

namespace Encryption

/-- The plaintext of an encryption. -/
def plaintext : Encryption Ephemeral PublicKey VerifyingKey → List UInt8
  | ecies _ _ _ plaintext => plaintext
  | legacy _ _ plaintext  => plaintext

/-- The use it makes of the cipher. -/
def sealing (C : Crates Master Digest Ephemeral PublicKey Shared VerifyingKey SymKey) :
    Encryption Ephemeral PublicKey VerifyingKey → Sealing SymKey
  | ecies recipient ephemeral nonce plaintext =>
      { key := C.hkdfDeriveKey (C.sendSecret ephemeral recipient), nonce, associated := [], plaintext }
  | legacy key nonce plaintext => { key := C.ofVerifyingKey key, nonce, associated := [], plaintext }

/-- The string in its format, around what the cipher made. -/
def format (C : Crates Master Digest Ephemeral PublicKey Shared VerifyingKey SymKey) (sealed : List UInt8) :
    Encryption Ephemeral PublicKey VerifyingKey → List UInt8
  | ecies _ ephemeral nonce _ => eciesVersion :: (C.ephemeralPublic ephemeral ++ (nonce ++ sealed))
  | legacy _ nonce _          => nonce ++ sealed

/-- It made this string. -/
def Makes (C : Crates Master Digest Ephemeral PublicKey Shared VerifyingKey SymKey)
    (x : Encryption Ephemeral PublicKey VerifyingKey) (data : List UInt8) : Prop :=
  ∃ sealed, C.chaCha20Poly1305.encrypt (x.sealing C).key (x.sealing C).nonce [] x.plaintext = some sealed ∧
    data = x.format C sealed

end Encryption

/-- The history of a keystore's masters. -/
abbrev MasterHistory (Master KeyPair : Type) : Type :=
  List (Runs.Transition (KeyCache.State Master KeyPair) (KeyCache.Event Master) (KeyCache.Output Master KeyPair))

/-- A master of a customer: the keystore's own where no customer is named, else one that was given for it. -/
def IsMaster {KeyPair : Type} (default : Master) (tr : MasterHistory Master KeyPair) :
    Option AccountId → Master → Prop
  | none, master          => master = default
  | some customer, master => KeyCache.Given tr customer master

/-- It was made for the customer and the seed: to a key derived for them. -/
def Encryption.IsFor (C : Crates Master Digest Ephemeral PublicKey Shared VerifyingKey SymKey) (default : Master)
    (tr : MasterHistory Master (Digest × VerifyingKey)) (customer : Option AccountId) (seed : String) :
    Encryption Ephemeral PublicKey VerifyingKey → Prop
  | .ecies recipient _ _ _ => ∃ master, IsMaster default tr customer master ∧
      recipient = C.publicKey (C.hmac master (eciesInput seed))
  | .legacy key _ _ => ∃ master, IsMaster default tr customer master ∧ key = C.verifyingKey (C.hmac master seed)

/-- The libraries as ideal ones: nothing opens that was not sealed, a key comes about in one way, and no two customers
    have the same master. `made` is everything that has been encrypted, by anyone. -/
structure Crates.Ideal (C : Crates Master Digest Ephemeral PublicKey Shared VerifyingKey SymKey) (default : Master)
    (tr : MasterHistory Master (Digest × VerifyingKey)) (made : Encryption Ephemeral PublicKey VerifyingKey → Prop) :
    Prop where
  cipher : C.chaCha20Poly1305.Authentic fun z => ∃ x, made x ∧ x.sealing C = z
  hkdf : ∀ {a b}, C.hkdfDeriveKey a = C.hkdfDeriveKey b → a = b
  kinds : ∀ a v, C.hkdfDeriveKey a ≠ C.ofVerifyingKey v
  keys : ∀ {v w}, C.ofVerifyingKey v = C.ofVerifyingKey w → v = w
  /-- a shared secret is of one receiver and one sender: what a receiver makes of any bytes is a sender's secret only
      where they are the key this sender wrote. Two spellings of one point, which the curve would take for the same key,
      count as two keys -/
  exchange : ∀ {d pub e X}, C.receiveSecret d pub = C.sendSecret e X → X = C.publicKey d ∧ pub = C.ephemeralPublic e
  hmacPublic : ∀ {m m' x x'}, C.publicKey (C.hmac m x) = C.publicKey (C.hmac m' x') → m = m' ∧ x = x'
  hmacVerifying : ∀ {m m' x x'}, C.verifyingKey (C.hmac m x) = C.verifyingKey (C.hmac m' x') → m = m' ∧ x = x'
  masters : ∀ {c c' m}, IsMaster default tr c m → IsMaster default tr c' m → c = c'

section Histories
variable {default : Master} {tr : MasterHistory Master (Digest × VerifyingKey)}
  {made : Encryption Ephemeral PublicKey VerifyingKey → Prop}

theorem isMaster_of_masterFor (h : KeyCache.History C.derive default tr s) {master : Master}
    (hmaster : s.masterFor customer = .ok master) : IsMaster default tr customer master := by
  cases customer with
  | none => exact (Except.ok.inj hmaster).symm.trans (KeyCache.defaultMaster_run h)
  | some who => exact KeyCache.loaded_given (KeyCache.sourced_run h).1 hmaster

/-- The Ed25519 pair, cached or not, is derived from a master of the customer. -/
theorem deriveKeypair_isMaster (h : KeyCache.History C.derive default tr s) {keypair : Digest × VerifyingKey}
    (hpair : C.deriveKeypair s customer seed = .ok keypair) :
    ∃ master, IsMaster default tr customer master ∧ keypair = C.derive master seed := by
  unfold Crates.deriveKeypair Crates.masterFor at hpair
  cases hcached : s.keypairCache.lookup (customer, seed) with
  | some cached =>
      rw [hcached] at hpair
      obtain rfl := Except.ok.inj hpair
      cases customer with
      | none =>
          rcases (KeyCache.coherent_run h).cached none seed cached hcached with ⟨master, hm, hkey⟩ | ⟨_, hnone, -⟩
          · exact ⟨master, isMaster_of_masterFor h hm, hkey⟩
          · cases hnone
      | some who => exact (KeyCache.sourced_run h).1.cached who seed cached hcached
  | none =>
      rw [hcached] at hpair
      cases hmaster : s.masterFor customer with
      | error missing => rw [hmaster] at hpair; cases hpair
      | ok master =>
          rw [hmaster] at hpair
          exact ⟨master, isMaster_of_masterFor h hmaster, (Except.ok.inj hpair).symm⟩

/-- A key is of one customer and one seed. -/
theorem Crates.Ideal.isFor_unique (hideal : C.Ideal default tr made)
    {x : Encryption Ephemeral PublicKey VerifyingKey} {customer' : Option AccountId} {seed' : String}
    (h : x.IsFor C default tr customer seed) (h' : x.IsFor C default tr customer' seed') :
    customer' = customer ∧ seed' = seed := by
  cases x with
  | ecies recipient ephemeral nonce plaintext =>
      obtain ⟨m, hm, rfl⟩ := h
      obtain ⟨m', hm', heq⟩ := h'
      obtain ⟨rfl, hinput⟩ := hideal.hmacPublic heq
      refine ⟨hideal.masters hm' hm, ?_⟩
      have hchars := congrArg String.toList hinput
      simp only [eciesInput, String.toList_append, List.append_cancel_left_eq] at hchars
      exact (String.toList_inj.mp hchars).symm
  | legacy key nonce plaintext =>
      obtain ⟨m, hm, rfl⟩ := h
      obtain ⟨m', hm', heq⟩ := h'
      obtain ⟨rfl, rfl⟩ := hideal.hmacVerifying heq
      exact ⟨hideal.masters hm' hm, rfl⟩

/-- What opens in the current format was made in it. -/
theorem Crates.Ideal.decryptEcies (hideal : C.Ideal default tr made) (h : KeyCache.History C.derive default tr s)
    {data plaintext : List UInt8} (hversion : data.head? = some eciesVersion) (hlen : data.length ≥ 61)
    (hopen : C.decryptEcies s customer seed data = .ok plaintext) :
    ∃ x, made x ∧ x.plaintext = plaintext ∧ x.Makes C data ∧ x.IsFor C default tr customer seed := by
  unfold Crates.decryptEcies at hopen
  cases hpair : C.deriveX25519Keypair s customer seed with
  | error e => rw [hpair] at hopen; cases hopen
  | ok pair =>
      obtain ⟨master, hmaster, hsecret, -⟩ := Crates.deriveX25519Keypair_eq_ok hpair
      rw [hpair] at hopen
      dsimp only [bind, Except.bind] at hopen
      split at hopen
      · next p hdecrypt =>
          obtain rfl := Except.ok.inj hopen
          obtain ⟨⟨x, hx, hsealing⟩, hsealed⟩ := hideal.cipher hdecrypt
          cases x with
          | ecies recipient ephemeral nonce text =>
              obtain ⟨hkey, rfl, -, rfl⟩ := Sealing.mk.inj hsealing
              obtain ⟨rfl, hpub⟩ := hideal.exchange (hideal.hkdf hkey).symm
              refine ⟨_, hx, rfl, ⟨data.drop 45, ?_, ?_⟩, master, isMaster_of_masterFor h hmaster, by rw [hsecret]⟩
              · rw [← hkey] at hsealed
                exact hsealed
              · exact (ecies_of_parts hversion hlen).trans (by rw [hpub]; rfl)
          | legacy key nonce text =>
              obtain ⟨hkey, -⟩ := Sealing.mk.inj hsealing
              exact absurd hkey.symm (hideal.kinds _ key)
      · cases hopen

/-- What opens in the legacy format was made in it. -/
theorem Crates.Ideal.decryptLegacy (hideal : C.Ideal default tr made) (h : KeyCache.History C.derive default tr s)
    {data plaintext : List UInt8} (hopen : C.decryptLegacy s customer seed data = .ok plaintext) :
    ∃ x, made x ∧ x.plaintext = plaintext ∧ x.Makes C data ∧ x.IsFor C default tr customer seed := by
  unfold Crates.decryptLegacy at hopen
  cases hpair : C.deriveKeypair s customer seed with
  | error e => rw [hpair] at hopen; cases hopen
  | ok pair =>
      obtain ⟨master, hmaster, rfl⟩ := deriveKeypair_isMaster h hpair
      rw [hpair] at hopen
      dsimp only [bind, Except.bind] at hopen
      split at hopen
      · next p hdecrypt =>
          obtain rfl := Except.ok.inj hopen
          obtain ⟨⟨x, hx, hsealing⟩, hsealed⟩ := hideal.cipher hdecrypt
          cases x with
          | ecies recipient ephemeral nonce text =>
              obtain ⟨hkey, -⟩ := Sealing.mk.inj hsealing
              exact absurd hkey (hideal.kinds _ _)
          | legacy key nonce text =>
              obtain ⟨hkey, rfl, -, rfl⟩ := Sealing.mk.inj hsealing
              obtain rfl := hideal.keys hkey
              exact ⟨_, hx, rfl, ⟨data.drop 12, hsealed, (List.take_append_drop 12 data).symm⟩, master, hmaster, rfl⟩
      · cases hopen

/-- Whatever opens was made for the customer and the seed, in the format it opened in. -/
theorem Crates.Ideal.decrypt (hideal : C.Ideal default tr made) (h : KeyCache.History C.derive default tr s)
    {data plaintext : List UInt8} (hopen : C.decrypt s customer seed data = .ok plaintext) :
    ∃ x, made x ∧ x.plaintext = plaintext ∧ x.Makes C data ∧ x.IsFor C default tr customer seed := by
  unfold Crates.decrypt at hopen
  split at hopen
  · cases hopen
  split at hopen
  · cases hopen
  split at hopen
  · next hecies =>
      split at hopen
      · next p hp =>
          obtain rfl := Except.ok.inj hopen
          exact hideal.decryptEcies h hecies.1 hecies.2 hp
      · exact hideal.decryptLegacy h hopen
  · exact hideal.decryptLegacy h hopen

end Histories

/-- What was encrypted for a customer and a seed decrypts to itself, under the same master, exactly where it is 61 bytes
    shorter than the limit. With ideal libraries, what decrypts for a customer and a seed was made for them and for no
    other, from what it decrypts to. -/
theorem decrypt_encrypt_iff (hlaw : C.Lawful) :
    (∀ s s' customer seed ephemeral nonce plaintext data, nonce.length = 12 →
      KeyCache.State.masterFor s' customer = KeyCache.State.masterFor s customer →
      C.encrypt s customer seed ephemeral nonce plaintext = .ok data →
      (C.decrypt s' customer seed data = .ok plaintext ↔ plaintext.length + 61 ≤ 10 * 1024 * 1024)) ∧
    (∀ default tr s made, KeyCache.History C.derive default tr s → C.Ideal default tr made →
      ∀ customer seed data plaintext, C.decrypt s customer seed data = .ok plaintext →
      ∃ x, made x ∧ x.plaintext = plaintext ∧ x.Makes C data ∧ x.IsFor C default tr customer seed ∧
        ∀ customer' seed', x.IsFor C default tr customer' seed' → customer' = customer ∧ seed' = seed) := by
  refine ⟨?_, ?_⟩
  · intro s s' customer seed ephemeral nonce plaintext data hnonce hmaster h
    rw [Crates.decrypt_encrypt hlaw hnonce hmaster h]
    unfold maxEncryptedSize
    by_cases hsize : plaintext.length + 61 ≤ 10 * 1024 * 1024
    · rw [if_pos hsize]
      exact iff_of_true rfl hsize
    · rw [if_neg hsize]
      exact iff_of_false (fun h => nomatch h) hsize
  · intro default tr s made hrun hideal customer seed data plaintext hopen
    obtain ⟨x, hx, htext, hmakes, hfor⟩ := hideal.decrypt hrun hopen
    exact ⟨x, hx, htext, hmakes, hfor, fun customer' seed' hfor' => hideal.isFor_unique hfor hfor'⟩

/-! ## At the limit -/

/-- The one public key that is drawn, in the example below. -/
def drawnPublic : List UInt8 := List.replicate 32 9

/-- A tag of zeros. -/
def zeroTag : List UInt8 := List.replicate 16 0

/-- Whether a key of the example comes about at all. -/
def Reachable : (((Nat × String) × List UInt8) ⊕ (Nat × String)) → Prop
  | .inl shared => shared.2 = drawnPublic
  | .inr _      => True

instance : DecidablePred Reachable
  | .inl shared => inferInstanceAs (Decidable (shared.2 = drawnPublic))
  | .inr _      => .isTrue trivial

/-- Libraries that keep to what they document: a digest is what it is of, and a seal is the text and a tag. -/
def plainCrates : Crates Nat (Nat × String) Unit (Nat × String) ((Nat × String) × List UInt8) (Nat × String)
    (((Nat × String) × List UInt8) ⊕ (Nat × String)) where
  hmac := fun master input => (master, input)
  verifyingKey := id
  publicKey := id
  ephemeralPublic := fun _ => drawnPublic
  sendSecret := fun _ recipient => (recipient, drawnPublic)
  receiveSecret := fun digest pub => (digest, pub)
  hkdfDeriveKey := .inl
  ofVerifyingKey := .inr
  chaCha20Poly1305 :=
    { encrypt := fun k _ a p => if Reachable k ∧ a = [] then some (p ++ zeroTag) else none
      decrypt := fun k _ a c =>
        if (Reachable k ∧ a = []) ∧ c.drop (c.length - 16) = zeroTag then some (c.take (c.length - 16)) else none }

theorem plainCrates_cipher {k : ((Nat × String) × List UInt8) ⊕ (Nat × String)} {n a p c : List UInt8}
    (h : plainCrates.chaCha20Poly1305.encrypt k n a p = some c) : (Reachable k ∧ a = []) ∧ c = p ++ zeroTag := by
  unfold plainCrates at h
  simp only [Option.ite_none_right_eq_some] at h
  exact ⟨h.1, (Option.some.inj h.2).symm⟩

theorem plainCrates_lawful : plainCrates.Lawful where
  cipher :=
    { decrypt_encrypt := by
        intro k n a p c h
        obtain ⟨hk, rfl⟩ := plainCrates_cipher h
        have hlen : (p ++ zeroTag).length - 16 = p.length := by
          rw [List.length_append, zeroTag, List.length_replicate, Nat.add_sub_cancel]
        show (if _ then _ else _) = _
        rw [hlen, List.drop_left, List.take_left, if_pos ⟨hk, rfl⟩]
      length_encrypt := by
        intro k n a p c h
        obtain ⟨-, rfl⟩ := plainCrates_cipher h
        rw [List.length_append, zeroTag, List.length_replicate] }
  ephemeralPublic_length := fun _ => rfl
  agree := fun _ _ => rfl

/-- They are ideal ones where everything has been encrypted, and only the keystore's own master is in use. -/
theorem plainCrates_ideal : plainCrates.Ideal 7 [] fun _ => True where
  cipher := by
    intro k n a c p h
    unfold plainCrates at h
    simp only [Option.ite_none_right_eq_some] at h
    obtain ⟨⟨⟨hk, rfl⟩, htag⟩, hp⟩ := h
    obtain rfl := Option.some.inj hp
    refine ⟨?_, ?_⟩
    · cases k with
      | inl shared =>
          obtain ⟨recipient, pub⟩ := shared
          obtain rfl : pub = drawnPublic := hk
          exact ⟨.ecies recipient () n _, trivial, rfl⟩
      | inr key => exact ⟨.legacy key n _, trivial, rfl⟩
    · show (if _ then some (_ ++ zeroTag) else none) = _
      rw [if_pos ⟨hk, rfl⟩, ← htag, List.take_append_drop]
  hkdf := Sum.inl.inj
  kinds := fun _ _ h => nomatch h
  keys := Sum.inr.inj
  exchange := fun h => ⟨(Prod.mk.inj h).1.symm, (Prod.mk.inj h).2⟩
  hmacPublic := Prod.mk.inj
  hmacVerifying := Prod.mk.inj
  masters := by
    rintro (_ | c) (_ | c') m h h'
    · rfl
    · obtain ⟨t, ht, -⟩ := h'
      cases ht
    · obtain ⟨t, ht, -⟩ := h
      cases ht
    · obtain ⟨t, ht, -⟩ := h
      cases ht

/-- A keystore with its own master and no vault's. -/
def freshKeystore : KeyCache.State Nat ((Nat × String) × (Nat × String)) := { defaultMaster := 7 }

theorem plainCrates_encrypt (plaintext : List UInt8) (h : plaintext.length ≤ maxEncryptedSize) :
    plainCrates.encrypt freshKeystore none "seed" () (List.replicate 12 0) plaintext =
      .ok (eciesVersion :: (drawnPublic ++ (List.replicate 12 0 ++ (plaintext ++ zeroTag)))) :=
  if_neg (Nat.not_lt.mpr h)

/-- A text of the largest size that is encrypted, and cannot be decrypted. -/
theorem largest_text_never_opens : ∃ data,
    plainCrates.encrypt freshKeystore none "seed" () (List.replicate 12 0) (List.replicate 10485760 0) = .ok data ∧
      plainCrates.decrypt freshKeystore none "seed" data =
        .error "Encrypted data too large: 10485821 bytes" := by
  have henc := plainCrates_encrypt (List.replicate 10485760 0) (by rw [List.length_replicate]; decide)
  have hlen := Crates.length_encrypt plainCrates_lawful List.length_replicate henc
  refine ⟨_, henc, ?_⟩
  rw [Crates.decrypt_encrypt plainCrates_lawful List.length_replicate rfl henc, hlen, List.length_replicate]
  rfl

/-- A short text opens, and was made for whom it opens. -/
theorem short_text_opens : ∃ data,
    plainCrates.encrypt freshKeystore none "seed" () (List.replicate 12 0) [1, 2, 3] = .ok data ∧
      plainCrates.decrypt freshKeystore none "seed" data = .ok [1, 2, 3] ∧
      ∃ x : Encryption Unit (Nat × String) (Nat × String), x.plaintext = [1, 2, 3] ∧ x.Makes plainCrates data ∧
        ∀ customer seed, x.IsFor plainCrates 7 [] customer seed → customer = none ∧ seed = "seed" := by
  have henc := plainCrates_encrypt [1, 2, 3] (by decide)
  have hopen := ((decrypt_encrypt_iff plainCrates_lawful).1 freshKeystore freshKeystore none "seed" () _ [1, 2, 3] _
    (by decide) rfl henc).mpr (by decide)
  obtain ⟨x, -, htext, hmakes, -, honly⟩ := (decrypt_encrypt_iff plainCrates_lawful).2 7 [] freshKeystore
    (fun _ => True) Runs.Run.start plainCrates_ideal none "seed" _ [1, 2, 3] hopen
  exact ⟨_, henc, hopen, x, htext, hmakes, honly⟩

end Keystore
end Outlayer
