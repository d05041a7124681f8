import Outlayer.Keystore.AgentSecrets
import Outlayer.Contract.PolicySteps
import Outlayer.Contract.Replay

/-!
# `Keystore.Correctness.AgentMessages` — what the keystore signs, and what the contract rebuilds

The two sides spell one message from two values of one document. All fields but the condition are the same texts. In
the condition the keystore writes amounts and times as it read them and the contract writes the numbers it parsed, so
the two agree exactly where every number is written the way it is printed.
-/

namespace Outlayer
open Text Json Checked

namespace Keystore

/-! ## Numbers as they are printed -/

/-- A text that is the printed form of a number. -/
def PrintedNumber (text : String) : Prop := ∃ n : Nat, text = toString n

mutual

/-- Every amount and every time of a condition is written as it is printed. -/
def AccessCondition.Printed : AccessCondition → Prop
  | .logic _ conditions    => AccessCondition.AllPrinted conditions
  | .not condition         => condition.Printed
  | .nearBalance _ value   => PrintedNumber value
  | .ftBalance _ _ value   => PrintedNumber value
  | .validUntil untilNs    => PrintedNumber untilNs
  | .predecessor condition => condition.Printed
  | .allowAll | .whitelist _ | .accountPattern _ | .nftOwned _ _ | .daoMember _ _ | .wasmHash _ => True

/-- Every condition of a list is printed as it was read. -/
def AccessCondition.AllPrinted : List AccessCondition → Prop
  | []      => True
  | a :: as => a.Printed ∧ AccessCondition.AllPrinted as

end

/-- A number is written back as it came exactly when it came as it is printed. -/
theorem written_back_iff {w : Nat} {read : String → Option Nat} (hread : ReadsPrinted w read) {text : String} {n : Nat}
    (h : read text = some n) : text = toString n ↔ PrintedNumber text := by
  constructor
  · intro htext
    exact ⟨n, htext⟩
  · rintro ⟨m, rfl⟩
    rw [hread m] at h
    split at h
    · rw [Option.some.inj h]
    · cases h

/-! ## One document, read on both sides -/

/-- The condition the keystore read and the one the contract read are written alike exactly when the numbers are
    printed ones. -/
def SameText (a : AccessCondition) (b : Outlayer.AccessCondition) : Prop := a.toDoc = b.toDoc ↔ a.Printed

theorem listToDocs_iff {as : List AccessCondition} {bs : List Outlayer.AccessCondition}
    (h : List.Forall₂ SameText as bs) :
    AccessCondition.listToDocs as = Outlayer.AccessCondition.listToDocs bs ↔ AccessCondition.AllPrinted as := by
  induction h with
  | nil => simp [AccessCondition.listToDocs, Outlayer.AccessCondition.listToDocs, AccessCondition.AllPrinted]
  | cons hhead _ ih =>
      simp only [AccessCondition.listToDocs, Outlayer.AccessCondition.listToDocs, AccessCondition.AllPrinted,
        List.cons.injEq]
      exact and_congr hhead ih

theorem accountDocs_eq {texts : List String} {accounts : List AccountId}
    (h : List.Forall₂ (fun text account => text = AccountId.name account) texts accounts) :
    texts.map Doc.str = accounts.map fun a => Doc.str a.name := by
  induction h with
  | nil => rfl
  | cons hhead _ ih => rw [List.map_cons, List.map_cons, hhead, ih]

theorem variants_correspond {N : Numbers} (hN : N.Lawful) :
    Corresponds accessVariants (contractVariants N) SameText (fun text account => text = AccountId.name account)
      (fun text n => text = toString n ↔ PrintedNumber text)
      (fun text n => text = toString n ↔ PrintedNumber text) where
  account v text account h h' := by
    obtain ⟨text', htext, hparse⟩ := Option.bind_eq_some_iff.mp h'
    obtain rfl : text = text' := Option.some.inj (h.symm.trans htext)
    exact parse_some hparse
  amount v text n h h' := by
    obtain ⟨text', htext, hread⟩ := Option.bind_eq_some_iff.mp h'
    obtain rfl : text = text' := Option.some.inj (h.symm.trans htext)
    exact written_back_iff hN.token hread
  time v text n h h' := by
    obtain ⟨text', htext, hread⟩ := Option.bind_eq_some_iff.mp h'
    obtain rfl : text = text' := Option.some.inj (h.symm.trans htext)
    exact written_back_iff hN.u64 hread
  logic op as bs h := by
    have hlist := listToDocs_iff h
    simp [SameText, accessVariants, contractVariants, AccessCondition.toDoc, Outlayer.AccessCondition.toDoc, docVariant,
      AccessCondition.Printed, hlist]
  not a b h := by
    simpa [SameText, accessVariants, contractVariants, AccessCondition.toDoc, Outlayer.AccessCondition.toDoc,
      docVariant, AccessCondition.Printed] using h
  allowAll := by
    simp [SameText, accessVariants, contractVariants, AccessCondition.toDoc, Outlayer.AccessCondition.toDoc,
      AccessCondition.Printed]
  whitelist as bs h := by
    have haccounts := accountDocs_eq h
    simp [SameText, accessVariants, contractVariants, AccessCondition.toDoc, Outlayer.AccessCondition.toDoc, docVariant,
      AccessCondition.Printed, haccounts]
  accountPattern p := by
    simp [SameText, accessVariants, contractVariants, AccessCondition.toDoc, Outlayer.AccessCondition.toDoc, docVariant,
      AccessCondition.Printed]
  nearBalance op m n h := by
    simpa [SameText, accessVariants, contractVariants, AccessCondition.toDoc, Outlayer.AccessCondition.toDoc,
      docVariant, AccessCondition.Printed] using h
  ftBalance a b op m n ha h := by
    simpa [SameText, accessVariants, contractVariants, AccessCondition.toDoc, Outlayer.AccessCondition.toDoc,
      docVariant, AccessCondition.Printed, ha] using h
  nftOwned a b token ha := by
    simp [SameText, accessVariants, contractVariants, AccessCondition.toDoc, Outlayer.AccessCondition.toDoc, docVariant,
      AccessCondition.Printed, ha]
  daoMember a b role ha := by
    simp [SameText, accessVariants, contractVariants, AccessCondition.toDoc, Outlayer.AccessCondition.toDoc, docVariant,
      AccessCondition.Printed, ha]
  validUntil s t h := by
    simpa [SameText, accessVariants, contractVariants, AccessCondition.toDoc, Outlayer.AccessCondition.toDoc,
      docVariant, AccessCondition.Printed] using h
  wasmHash hash := by
    simp [SameText, accessVariants, contractVariants, AccessCondition.toDoc, Outlayer.AccessCondition.toDoc, docVariant,
      AccessCondition.Printed]
  predecessor a b h := by
    simpa [SameText, accessVariants, contractVariants, AccessCondition.toDoc, Outlayer.AccessCondition.toDoc,
      docVariant, AccessCondition.Printed] using h

/-- **The condition in the message.** Read from one document, it is the same text on both sides exactly when every
    number in it is a printed one. -/
theorem accessBinding_iff {N : Numbers} (hN : N.Lawful) {depth : Nat} {doc : Value} {a : AccessCondition}
    {b : Outlayer.AccessCondition} (ha : AccessCondition.read depth doc = some a)
    (hb : Outlayer.AccessCondition.read N depth doc = some b) : accessBinding a = b.toJson ↔ a.Printed := by
  have hsame : SameText a b := readCondition_both (variants_correspond hN) depth doc a b ha hb
  have htext : accessBinding a = b.toJson ↔ a.toDoc = b.toDoc := by
    have hwritten := writes_toJson b []
    rw [List.append_nil] at hwritten
    rw [accessBinding, ← String.toList_inj, String.toList_ofList, hwritten]
    constructor
    · intro h
      exact (write_inj h).1
    · intro h
      rw [h]
  exact htext.trans hsame

/-! ## What a signature is over -/

/-- What the store handler did when it answered: whose master, which target and key, and what was opened. -/
structure SignsStore (E : Enclave) (header : Option HeaderValue) (req : SignSecretStoreRequest)
    (customer : Option AccountId) (target : AgentSecretTarget) (key : Vector UInt8 32) (plaintext : List UInt8)
    (resp : SignedForAgent) : Prop where
  header : extractCustomerFromHeader E.accountWording header = .ok customer
  fields : AgentSecretTarget.fromFields E.unicode req.projectId req.wasmHash = .ok target
  derived : E.getPublicKeyForSeed customer (walletSeed E.chains req.walletId "near") = .ok key
  opened : openSealed E customer (target.seed (agentAccountOf key)) req.encryptedSecretsBase64 = .ok plaintext
  signed : ∃ signature,
    E.sign customer (walletSeed E.chains req.walletId "near") (E.sha256 (req.message target (agentAccountOf key)))
      = .ok signature ∧
    resp = ⟨hexEncode signature.toList, "ed25519:" ++ agentAccountOf key, agentAccountOf key⟩

theorem openWallet_ok {E : Enclave} {header : Option HeaderValue} {walletId : String} {customer : Option AccountId}
    (h : openWallet E header walletId = .ok customer) :
    extractCustomerFromHeader E.accountWording header = .ok customer := by
  obtain ⟨_, -, h⟩ := bind_ok h
  obtain ⟨_, -, h⟩ := bind_ok h
  obtain ⟨found, hfound, h⟩ := bind_ok h
  obtain ⟨_, -, h⟩ := bind_ok h
  rw [hfound, Except.ok.inj h]

theorem signMessage_ok {E : Enclave} {customer : Option AccountId} {seed message text : String}
    (h : signMessage E customer seed message = .ok text) :
    ∃ signature, E.sign customer seed (E.sha256 message) = .ok signature ∧ text = hexEncode signature.toList := by
  obtain ⟨signature, hsign, h⟩ := bind_ok h
  exact ⟨signature, orInternal_ok hsign, (Except.ok.inj h).symm⟩

theorem signsStore_of_ok {E : Enclave} {header : Option HeaderValue} {req : SignSecretStoreRequest}
    {resp : SignedForAgent} (h : walletSignSecretStore E header req = .ok resp) :
    ∃ customer target key plaintext, SignsStore E header req customer target key plaintext resp := by
  obtain ⟨customer, hcustomer, h⟩ := bind_ok h
  obtain ⟨_, -, h⟩ := bind_ok h
  obtain ⟨target, htarget, h⟩ := bind_ok h
  obtain ⟨_, -, h⟩ := bind_ok h
  obtain ⟨key, hkey, h⟩ := bind_ok h
  obtain ⟨plaintext, hopened, h⟩ := bind_ok h
  obtain ⟨_, -, h⟩ := bind_ok h
  obtain ⟨text, htext, h⟩ := bind_ok h
  obtain ⟨signature, hsign, rfl⟩ := signMessage_ok htext
  exact ⟨customer, target, key, plaintext, openWallet_ok hcustomer, htarget, orInternal_ok hkey, hopened, signature,
    hsign, (Except.ok.inj h).symm⟩

/-- The same of the deletion handler, which opens nothing. -/
theorem signsDelete_of_ok {E : Enclave} {header : Option HeaderValue} {req : SignSecretDeleteRequest}
    {resp : SignedForAgent} (h : walletSignSecretDelete E header req = .ok resp) :
    ∃ customer target key signature,
      AgentSecretTarget.fromFields E.unicode req.projectId req.wasmHash = .ok target ∧
      E.getPublicKeyForSeed customer (walletSeed E.chains req.walletId "near") = .ok key ∧
      E.sign customer (walletSeed E.chains req.walletId "near") (E.sha256 (req.message target (agentAccountOf key)))
        = .ok signature ∧
      resp = ⟨hexEncode signature.toList, "ed25519:" ++ agentAccountOf key, agentAccountOf key⟩ := by
  obtain ⟨customer, -, h⟩ := bind_ok h
  obtain ⟨target, htarget, h⟩ := bind_ok h
  obtain ⟨_, -, h⟩ := bind_ok h
  obtain ⟨key, hkey, h⟩ := bind_ok h
  obtain ⟨text, htext, h⟩ := bind_ok h
  obtain ⟨signature, hsign, rfl⟩ := signMessage_ok htext
  exact ⟨customer, target, key, signature, htarget, orInternal_ok hkey, hsign, (Except.ok.inj h).symm⟩

/-! ## What the contract checks it against -/

/-- The keystore and the contract's host hash alike and agree about lower case, and what a key signs verifies under
    it. -/
structure Enclave.Beside (E : Enclave) (H : Host) : Prop where
  sha256 : E.sha256 = H.sha256
  unicode : E.unicode = H.unicode
  verifies : ∀ customer seed key hash signature, E.getPublicKeyForSeed customer seed = .ok key →
    E.sign customer seed hash = .ok signature → H.ed25519Verify signature.toList hash key.toList = true

/-- The key of an agent's account parses. -/
theorem parse_agentKey (key : Vector UInt8 32) :
    parseWalletPubkey ("ed25519:" ++ agentAccountOf key) = .ok (.ed25519, key.toList) := by
  have hname : "ed25519:" = "ed25519" ++ ":" := by decide
  have hsplit : splitAtColon ("ed25519:" ++ agentAccountOf key) = some ("ed25519", hexEncode key.toList) := by
    rw [hname, agentAccountOf]
    exact splitAtColon_append (by decide)
  have hlength : key.toList.length = 32 := by simp
  simp only [parseWalletPubkey, bind_eq_ok, expect_eq_ok]
  refine ⟨_, hsplit, .ed25519, WalletKeyType.ed25519.parse_name, key.toList, hexDecode_hexEncode key.toList, ?_⟩
  simp [hlength]

/-- A signature of an agent's key is accepted over the digest it was made for. -/
theorem verify_signed {E : Enclave} {H : Host} (hE : E.Beside H) {customer : Option AccountId} {seed : String}
    {key : Vector UInt8 32} {hash : CryptoHash} {signature : Vector UInt8 64}
    (hkey : E.getPublicKeyForSeed customer seed = .ok key) (hsign : E.sign customer seed hash = .ok signature) :
    verifyWalletSignature H ("ed25519:" ++ agentAccountOf key) hash (hexEncode signature.toList) = .ok () := by
  have hlength : signature.toList.length = 64 := by simp
  have hverifies := hE.verifies customer seed key hash signature hkey hsign
  simp only [verifyWalletSignature, bind_eq_ok, expect_eq_ok]
  refine ⟨_, parse_agentKey key, signature.toList, hexDecode_hexEncode signature.toList, ?_⟩
  simp [hlength, hverifies, bind_eq_ok]

/-! ## The two messages -/

section Messages
variable {H : Host} {accessor : Outlayer.SecretAccessor} {target : AgentSecretTarget}

/-- The binding of a target is the one the contract writes. -/
theorem binding_eq (h : canonicalAccessor H accessor = target.accessor) :
    Outlayer.accessorBinding (canonicalAccessor H accessor) = target.binding := by
  rw [h]
  cases target <;> rfl

/-- An agent's profile has one spelling. -/
theorem profile_eq (h : canonicalAccessor H accessor = target.accessor) (profile : String) :
    canonicalProfile (canonicalAccessor H accessor) profile = profile := by
  rw [h]
  cases target <;> rfl

/-- The messages of a store differ in the condition only. -/
theorem storeMessage_iff (h : canonicalAccessor H accessor = target.accessor) {payerText : String} {payer : AccountId}
    (hpayer : payerText = payer.name) {vaultText : Option String} {vaultId : Option AccountId}
    (hvault : vaultText = vaultId.map AccountId.name) (walletPubkey profile encrypted accessJson : String)
    (access : Outlayer.AccessCondition) :
    secretStoreMessage walletPubkey target.binding profile encrypted payerText (vaultText.getD "") accessJson =
      Outlayer.secretStoreMessage walletPubkey (canonicalAccessor H accessor)
        (canonicalProfile (canonicalAccessor H accessor) profile) encrypted payer vaultId access ↔
    accessJson = access.toJson := by
  rw [profile_eq h, hpayer, hvault]
  unfold secretStoreMessage Outlayer.secretStoreMessage
  dsimp only
  rw [binding_eq h, String.append_right_inj]

theorem deleteMessage_eq (h : canonicalAccessor H accessor = target.accessor) {payerText : String} {payer : AccountId}
    (hpayer : payerText = payer.name) (walletPubkey profile : String) :
    secretDeleteMessage walletPubkey target.binding profile payerText =
      Outlayer.secretDeleteMessage walletPubkey (canonicalAccessor H accessor)
        (canonicalProfile (canonicalAccessor H accessor) profile) payer := by
  rw [profile_eq h, hpayer]
  unfold secretDeleteMessage Outlayer.secretDeleteMessage
  dsimp only
  rw [binding_eq h]

end Messages

/-! ## Calls with the same arguments -/

/-- The deletion of what a request stores. -/
def SignSecretStoreRequest.deletion (req : SignSecretStoreRequest) : SignSecretDeleteRequest where
  walletId := req.walletId
  projectId := req.projectId
  wasmHash := req.wasmHash
  payer := req.payer

/-- A call names what a request names: the target in any spelling, the payer who sends it, the vault, and a condition
    read from the same document. -/
structure SameCall (H : Host) (N : Numbers) (req : SignSecretStoreRequest) (target : AgentSecretTarget)
    (accessor : Outlayer.SecretAccessor) (payer : AccountId) (vaultId : Option AccountId)
    (access : Outlayer.AccessCondition) : Prop where
  fields : AgentSecretTarget.fromFields H.unicode req.projectId req.wasmHash = .ok target
  accessor : canonicalAccessor H accessor = target.accessor
  payer : trim req.payer = payer.name
  vault : req.vaultId = vaultId.map AccountId.name
  document : ∃ depth doc, AccessCondition.read depth doc = some req.access ∧
    Outlayer.AccessCondition.read N depth doc = some access

/-- What the contract rebuilds from a store by an agent. -/
def rebuiltStore (H : Host) (req : SignSecretStoreRequest) (accessor : Outlayer.SecretAccessor) (payer : AccountId)
    (vaultId : Option AccountId) (access : Outlayer.AccessCondition) (agentPubkey profile : String) : String :=
  Outlayer.secretStoreMessage agentPubkey (canonicalAccessor H accessor)
    (canonicalProfile (canonicalAccessor H accessor) profile) req.encryptedSecretsBase64 payer vaultId access

/-- What the contract rebuilds from a deletion by an agent. -/
def rebuiltDelete (H : Host) (accessor : Outlayer.SecretAccessor) (payer : AccountId) (agentPubkey profile : String) :
    String :=
  Outlayer.secretDeleteMessage agentPubkey (canonicalAccessor H accessor)
    (canonicalProfile (canonicalAccessor H accessor) profile) payer

/-- The messages of both sides are the same for every wallet, and the keystore's signatures are accepted. -/
structure Rebuilt (E : Enclave) (H : Host) (req : SignSecretStoreRequest) (target : AgentSecretTarget)
    (accessor : Outlayer.SecretAccessor) (payer : AccountId) (vaultId : Option AccountId)
    (access : Outlayer.AccessCondition) : Prop where
  store : ∀ agent, req.message target agent =
    rebuiltStore H req accessor payer vaultId access ("ed25519:" ++ agent) agent
  delete : ∀ agent, req.deletion.message target agent = rebuiltDelete H accessor payer ("ed25519:" ++ agent) agent
  storeAccepted : ∀ header resp, walletSignSecretStore E header req = .ok resp →
    verifyWalletSignature H resp.walletPubkey
      (H.sha256 (rebuiltStore H req accessor payer vaultId access resp.walletPubkey resp.agentAccount))
      resp.signatureHex = .ok ()
  deleteAccepted : ∀ header resp, walletSignSecretDelete E header req.deletion = .ok resp →
    verifyWalletSignature H resp.walletPubkey
      (H.sha256 (rebuiltDelete H accessor payer resp.walletPubkey resp.agentAccount)) resp.signatureHex = .ok ()

section Rebuilt
variable {E : Enclave} {H : Host} {N : Numbers} {req : SignSecretStoreRequest} {target : AgentSecretTarget}
  {accessor : Outlayer.SecretAccessor} {payer : AccountId} {vaultId : Option AccountId}
  {access : Outlayer.AccessCondition}

theorem message_rebuilt_iff (hN : N.Lawful) (h : SameCall H N req target accessor payer vaultId access)
    (agent : String) :
    req.message target agent = rebuiltStore H req accessor payer vaultId access ("ed25519:" ++ agent) agent ↔
      req.access.Printed := by
  obtain ⟨depth, doc, hreq, hcall⟩ := h.document
  exact (storeMessage_iff h.accessor h.payer h.vault _ _ _ _ access).trans (accessBinding_iff hN hreq hcall)

theorem deletion_rebuilt (h : SameCall H N req target accessor payer vaultId access) (agent : String) :
    req.deletion.message target agent = rebuiltDelete H accessor payer ("ed25519:" ++ agent) agent :=
  deleteMessage_eq h.accessor h.payer _ _

/-- **What is signed is what is rebuilt**, for every wallet and every call with the request's arguments, exactly when
    the amounts and times of the condition are written the way they are printed. Deletions hold no condition. -/
theorem signed_is_rebuilt_iff (hN : N.Lawful) (hE : E.Beside H)
    (h : SameCall H N req target accessor payer vaultId access) :
    Rebuilt E H req target accessor payer vaultId access ↔ req.access.Printed := by
  constructor
  · intro hrebuilt
    exact (message_rebuilt_iff hN h "").mp (hrebuilt.store "")
  · intro hprinted
    refine ⟨fun agent => (message_rebuilt_iff hN h agent).mpr hprinted, deletion_rebuilt h, ?_, ?_⟩
    · intro header resp hresp
      obtain ⟨customer, target', key, plaintext, hsigns⟩ := signsStore_of_ok hresp
      obtain ⟨signature, hsign, rfl⟩ := hsigns.signed
      obtain rfl : target' = target := by
        have hfields := hsigns.fields
        rw [hE.unicode, h.fields] at hfields
        exact (Except.ok.inj hfields).symm
      rw [(message_rebuilt_iff hN h _).mpr hprinted, hE.sha256] at hsign
      exact verify_signed hE hsigns.derived hsign
    · intro header resp hresp
      obtain ⟨customer, target', key, signature, hfields, hkey, hsign, rfl⟩ := signsDelete_of_ok hresp
      obtain rfl : target' = target := by
        rw [hE.unicode] at hfields
        exact Except.ok.inj (hfields.symm.trans h.fields)
      rw [deletion_rebuilt h, hE.sha256] at hsign
      exact verify_signed hE hkey hsign

end Rebuilt

/-! ## A condition with a leading zero -/

/-- Numbers as the standard library parses them. -/
def parsedNumbers : Numbers where
  token := parseUnsigned 128
  u64 := parseUnsigned 64

theorem readsPrinted_parseUnsigned (w : Nat) : ReadsPrinted w (parseUnsigned w) := by
  intro n
  split
  · next hn => exact parseUnsigned_toString hn
  · next hn =>
      rw [Option.eq_none_iff_forall_ne_some]
      intro m hm
      have hlt := parseUnsigned_lt hm
      rw [eq_of_parseUnsigned_toString hm] at hlt
      exact hn hlt

theorem parsedNumbers_lawful : parsedNumbers.Lawful :=
  ⟨readsPrinted_parseUnsigned 128, readsPrinted_parseUnsigned 64⟩

/-- A keystore with one key, whose signature the host below accepts. -/
def oneKeyEnclave : Enclave where
  ready := true
  ensureCustomerLoaded _ := .ok ()
  getPublicKeyForSeed _ _ := .ok (Vector.replicate 32 7)
  sign _ _ _ := .ok (Vector.replicate 64 9)
  decrypt _ _ bytes := .ok bytes
  sha256 := asciiHost.sha256
  base64Decode _ := .ok [1]
  conditionBounds _ := .ok ()
  accountWording _ := "invalid"
  unicode := asciiTables
  chains := ⟨fun _ => false, fun _ => false, fun _ => true⟩

/-- A host whose signature check knows one signature of one key. -/
def oneKeyHost : Host := { asciiHost with
  ed25519Verify := fun signature _ key =>
    decide (signature = (Vector.replicate 64 9 : Vector UInt8 64).toList ∧
      key = (Vector.replicate 32 7 : Vector UInt8 32).toList) }

theorem oneKey_beside : oneKeyEnclave.Beside oneKeyHost where
  sha256 := rfl
  unicode := rfl
  verifies _ _ key hash signature hkey hsign := by
    obtain rfl := Except.ok.inj hkey
    obtain rfl := Except.ok.inj hsign
    rfl

/-- A request that admits everybody until `untilNs`. -/
def storeUntil (untilNs : String) : SignSecretStoreRequest where
  walletId := "w"
  projectId := some "alice.near/app"
  encryptedSecretsBase64 := "AQ=="
  payer := "bob.near"
  access := .validUntil untilNs

/-- The JSON of a time limit. -/
def untilDoc (untilNs : String) : Value := .obj [("ValidUntil", .obj [("until_ns", .str untilNs)])]

theorem sameCall_until : SameCall oneKeyHost parsedNumbers (storeUntil "7") (.project "alice.near/app")
    (.project "alice.near/app") bobAccount none (.validUntil 7) where
  fields := by decide +kernel
  accessor := rfl
  payer := by decide +kernel
  vault := rfl
  document := ⟨1, untilDoc "7", by rfl, by rfl⟩

theorem until_seven_rebuilt : Rebuilt oneKeyEnclave oneKeyHost (storeUntil "7") (.project "alice.near/app")
    (.project "alice.near/app") bobAccount none (.validUntil 7) :=
  (signed_is_rebuilt_iff parsedNumbers_lawful oneKey_beside sameCall_until).mpr ⟨7, by decide⟩

/-- Both sides read `007` as a time; the keystore signs it as it came and the contract rebuilds it as 7. -/
theorem leading_zero_not_rebuilt :
    AccessCondition.read 1 (untilDoc "007") = some (storeUntil "007").access ∧
    Outlayer.AccessCondition.read parsedNumbers 1 (untilDoc "007") = some (.validUntil 7) ∧
    (walletSignSecretStore oneKeyEnclave none (storeUntil "007")).isOk = true ∧
    (storeUntil "007").message (.project "alice.near/app") "ab" ≠
      rebuiltStore oneKeyHost (storeUntil "007") (.project "alice.near/app") bobAccount none (.validUntil 7)
        "ed25519:ab" "ab" := by
  refine ⟨by rfl, by rfl, by decide +kernel, by decide +kernel⟩

end Keystore
end Outlayer
