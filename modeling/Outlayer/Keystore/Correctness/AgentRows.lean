import Outlayer.Keystore.Correctness.AgentMessages
import Outlayer.Contract.Correctness.SignedMessages

/-!
# `Keystore.Correctness.AgentRows` — whether a signed secret opens again

Before it signs, the keystore opens the ciphertext: under the master of the vault that the header names, and the seed of
the target. Once the call is accepted, the row is opened under the master of the vault it is bound to on chain, and the
seed of the accessor it is stored under. The two are the same exactly when the vaults are, and the call stored what was
asked for.
-/

namespace Outlayer
open Text Checked Collections Fields

namespace Keystore

/-! ## What the contract stores -/

section Stored
variable {H : Host} {env : Env} {c : Contract} {s : SecretStore} {ses : List StorageEffect} {agentPubkey : String}
  {accessor : Outlayer.SecretAccessor} {profile encrypted signature : String} {access : Outlayer.AccessCondition}
  {vaultId : Option AccountId}

/-- The key that a call stores an agent's row under. -/
def agentRowKey (H : Host) (accessor : Outlayer.SecretAccessor) (profile : String) (owner : AccountId) : SecretKey :=
  canonicalKey H (canonicalAccessor H accessor) (canonicalProfile (canonicalAccessor H accessor) profile) owner

/-- The vault a row is bound to after a store: the one the call names, or else the one it was bound to before. -/
def boundVault (c : Contract) (vaultId : Option AccountId) (key : SecretKey) : Option AccountId :=
  vaultId.or (c.secretVaultBindings.lookup key)

/-- The row in the state after an accepted call. -/
structure StoredRow (H : Host) (c : Contract) (s : SecretStore) (key : SecretKey) (encrypted : String)
    (vaultId : Option AccountId) (row : SecretProfile) : Prop where
  held : s.secretsStorage.lookup key = some row
  encrypted : row.encryptedSecrets = encrypted
  bound : s.secretVaultBindings.lookup key = boundVault c vaultId key
  canonical : key.Canonical H
  kind : (∃ projectId, key.accessor = .project projectId) ∨ ∃ hash, key.accessor = .wasmHash hash

theorem stored_of_internal {owner payer : AccountId}
    (hkind : (∃ projectId, accessor = .project projectId) ∨ ∃ hash, accessor = .wasmHash hash)
    (h : storeSecretsInternal H env c owner payer accessor profile encrypted access vaultId = .ok (s, ses)) :
    ∃ row, StoredRow H c s (canonicalKey H accessor profile owner) encrypted vaultId row := by
  simp only [storeSecretsInternal, bind_eq_ok, require_eq_ok, pure_eq_ok] at h
  obtain ⟨_, -, _, hvalid, _, -, _, -, _, -, floorDeposit, -, excess, -, ⟨s', events⟩, hregister, h⟩ := h
  have hnot : (canonicalKey H accessor profile owner).accessor ≠ .system .paymentKey := by
    rcases hkind with ⟨projectId, rfl⟩ | ⟨hash, rfl⟩ <;> exact Outlayer.SecretAccessor.noConfusion
  obtain ⟨rfl, rfl⟩ := registerPaymentKey_other hnot hregister
  cases h
  refine ⟨_, AList.lookup_insert _, rfl, ?_, canonicalKey_canonical hvalid, ?_⟩
  · cases vaultId with
    | none => rfl
    | some vault => exact AList.lookup_insert _
  · rcases hkind with ⟨projectId, rfl⟩ | ⟨hash, rfl⟩
    · exact Or.inl ⟨projectId, rfl⟩
    · exact Or.inr ⟨_, rfl⟩

/-- An accepted call stores the row of the agent whose key it names. -/
theorem stored_of_ok
    (h : storeAgentSecret H env c agentPubkey accessor profile encrypted access vaultId signature = .ok (s, ses)) :
    ∃ owner row, implicitAccountOf agentPubkey = .ok owner ∧
      StoredRow H c s (agentRowKey H accessor profile owner) encrypted vaultId row := by
  simp only [storeAgentSecret, bind_eq_ok] at h
  obtain ⟨owner, howner, _, -, _, -, h⟩ := h
  refine ⟨owner, ?_⟩
  cases accessor with
  | repo _ _ => exact absurd h throw_ne_ok
  | system _ => exact absurd h throw_ne_ok
  | wasmHash hash =>
      obtain ⟨_, -, hstore⟩ := bind_eq_ok.mp h
      obtain ⟨row, hrow⟩ := stored_of_internal (Or.inr ⟨_, rfl⟩) hstore
      exact ⟨row, howner, hrow⟩
  | project projectId =>
      obtain ⟨_, -, hstore⟩ := bind_eq_ok.mp h
      obtain ⟨row, hrow⟩ := stored_of_internal (Or.inl ⟨_, rfl⟩) hstore
      exact ⟨row, howner, hrow⟩

end Stored

/-! ## Reading the row -/

theorem parse_name (a : AccountId) : AccountId.parse a.name = some a := by
  rw [AccountId.parse, dif_pos a.valid]

theorem target_of_kind {accessor : Outlayer.SecretAccessor}
    (h : (∃ projectId, accessor = .project projectId) ∨ ∃ hash, accessor = .wasmHash hash) :
    ∃ target : AgentSecretTarget, accessor = target.accessor := by
  rcases h with ⟨projectId, rfl⟩ | ⟨hash, rfl⟩
  · exact ⟨.project projectId, rfl⟩
  · exact ⟨.wasmHash hash, rfl⟩

/-- Targets of different accessors are sealed to different seeds. -/
theorem targetSeed_inj {target target' : AgentSecretTarget} {agent : String}
    (h : target.seed agent = target'.seed agent) : target = target' := by
  have hl := congrArg String.toList h
  cases target with
  | project projectId =>
      cases target' with
      | project projectId' =>
          simp only [AgentSecretTarget.seed, String.append_assoc, String.append_right_inj, String.append_left_inj] at h
          rw [h]
      | wasmHash hash =>
          simp only [AgentSecretTarget.seed, String.toList_append] at hl
          cases hl
  | wasmHash hash =>
      cases target' with
      | project projectId =>
          simp only [AgentSecretTarget.seed, String.toList_append] at hl
          cases hl
      | wasmHash hash' =>
          simp only [AgentSecretTarget.seed, String.append_assoc, String.append_right_inj, String.append_left_inj] at h
          rw [h]

section Read
variable {H : Host} {c : Contract} {s : SecretStore} {key : SecretKey} {encrypted : String} {vaultId : Option AccountId}
  {row : SecretProfile}

/-- The request that names a stored row finds it, with the vault it is bound to. -/
theorem lookup_stored (h : StoredRow H c s key encrypted vaultId row) :
    (RowRequest.ofKey key).lookup H s =
      some ⟨some (secretProfileView key.accessor row), boundVault c vaultId key⟩ := by
  have haccessor : readAccessor (accessorToContractJson (.ofStored key.accessor)) = some key.accessor := by
    rw [readAccessor_accessorToContractJson]
    rcases h.kind with ⟨projectId, hproject⟩ | ⟨hash, hhash⟩
    · rw [hproject]
      rfl
    · rw [hhash]
      rfl
  have hkey : canonicalKey H key.accessor key.profile key.owner = key := h.canonical
  have hview : getSecrets H s key.accessor key.profile key.owner = some (secretProfileView key.accessor row) := by
    rw [getSecrets, hkey, h.held]
  simp only [RowRequest.lookup, RowRequest.ofKey, parse_name, haccessor, Option.bind_eq_bind, Option.bind_some,
    Option.pure_def, getSecretWithVault, hkey, hview]
  rw [← h.bound, hkey]
  rfl

/-- The seed a stored row is read with is that of its target. -/
theorem decryptSeed_stored {target : AgentSecretTarget} (h : key.accessor = target.accessor)
    (view : SecretProfileView) : (RowRequest.ofKey key).decryptSeed view = .ok (target.seed key.owner.name) := by
  rw [RowRequest.decryptSeed, RowRequest.ofKey, h]
  cases target <;> rfl

end Read

/-! ## The row against the signature -/

/-- A key opens what was sealed to it, and nothing else opens it: keys of other customers or other seeds fail. -/
def Enclave.OneKey (E : Enclave) : Prop :=
  ∀ customer customer' seed seed' bytes x y, E.decrypt customer seed bytes = .ok x →
    E.decrypt customer' seed' bytes = .ok y → customer = customer' ∧ seed = seed'

/-- What decodes from base64 holds no colon. -/
def Enclave.PlainAlphabet (E : Enclave) : Prop :=
  ∀ text bytes, E.base64Decode text = .ok bytes → ':' ∉ text.toList

/-- The keystore answered a request, having opened its ciphertext to `plaintext` for this customer and target. -/
structure Validated (E : Enclave) (header : Option HeaderValue) (req : SignSecretStoreRequest) (resp : SignedForAgent)
    (customer : Option AccountId) (target : AgentSecretTarget) (plaintext : List UInt8) : Prop where
  answered : walletSignSecretStore E header req = .ok resp
  header : extractCustomerFromHeader E.accountWording header = .ok customer
  fields : AgentSecretTarget.fromFields E.unicode req.projectId req.wasmHash = .ok target
  opened : openSealed E customer (target.seed resp.agentAccount) req.encryptedSecretsBase64 = .ok plaintext

theorem openSealed_ok {E : Enclave} {customer : Option AccountId} {seed encrypted : String} {plaintext : List UInt8}
    (h : openSealed E customer seed encrypted = .ok plaintext) :
    ∃ bytes, E.base64Decode encrypted = .ok bytes ∧ E.decrypt customer seed bytes = .ok plaintext := by
  obtain ⟨bytes, hbytes, h⟩ := bind_ok h
  refine ⟨bytes, ?_, ?_⟩
  · cases hdecode : E.base64Decode encrypted with
    | ok found =>
        rw [hdecode] at hbytes
        exact congrArg _ (Except.ok.inj hbytes)
    | error e =>
        rw [hdecode] at hbytes
        cases hbytes
  · split at h
    · next found hfound => rw [hfound, Except.ok.inj h]
    · cases h

theorem secretStoreMessage_toList' (walletPubkey binding profile encrypted payer vaultId accessJson : String) :
    (secretStoreMessage walletPubkey binding profile encrypted payer vaultId accessJson).toList =
      "store_secrets_for:v1:".toList ++ (walletPubkey.toList ++ ':' ::
        ((toString binding.utf8ByteSize).toList ++ ':' :: (binding.toList ++ ':' :: (profile.toList ++ ':' ::
        (encrypted.toList ++ ':' :: (payer.toList ++ ':' :: (vaultId.toList ++ ':' :: accessJson.toList))))))) := by
  unfold secretStoreMessage
  simp only [String.toList_append]
  simp only [List.append_assoc, colon_toList, List.cons_append, List.nil_append]

theorem colon_not_mem_agent (key : Vector UInt8 32) : ':' ∉ (agentAccountOf key).toList :=
  colon_not_mem_of_hexDecode (hexDecode_hexEncode key.toList)

section Carried
variable {E : Enclave} {H : Host} {env : Env} {c : Contract} {s : SecretStore} {ses : List StorageEffect}
  {req : SignSecretStoreRequest} {target : AgentSecretTarget} {key : Vector UInt8 32} {agentPubkey : String}
  {accessor : Outlayer.SecretAccessor} {profile encrypted signature : String} {access : Outlayer.AccessCondition}
  {vaultId : Option AccountId}

/-- The call a signature is carried by names the agent's key; the ciphertext it names begins with the one that was
    opened, and is that one unless it goes on after a colon. -/
theorem carried_fields
    (hcall : storeAgentSecret H env c agentPubkey accessor profile encrypted access vaultId signature = .ok (s, ses))
    (hcipher : ':' ∉ req.encryptedSecretsBase64.toList)
    (hcarries : req.message target (agentAccountOf key) =
      Outlayer.secretStoreMessage agentPubkey (canonicalAccessor H accessor)
        (canonicalProfile (canonicalAccessor H accessor) profile) encrypted env.predecessor vaultId access) :
    agentPubkey = "ed25519:" ++ agentAccountOf key ∧
      (':' ∉ encrypted.toList → encrypted = req.encryptedSecretsBase64) := by
  obtain ⟨hshaped, -, hprofile⟩ := storeAgentSecret_shaped hcall
  have hl := congrArg String.toList hcarries
  rw [SignSecretStoreRequest.message, secretStoreMessage_toList', secretStoreMessage_toList] at hl
  obtain ⟨hagent, -, hrest⟩ :=
    cut_binding (keyShaped_of_parse (parse_agentKey key)) hshaped (List.append_cancel_left hl)
  obtain ⟨-, htail⟩ := cut_first (colon_not_mem_agent key) hprofile (List.cons.inj hrest).2
  refine ⟨hagent.symm, ?_⟩
  intro hplain
  obtain ⟨hsame, -⟩ := cut_first hcipher hplain htail
  exact (String.toList_inj.mp hsame).symm

/-- **When a signed secret opens again.** A call carries the signature the keystore gave for a request and is accepted.
    The row it stored is found, and it opens to the validated plaintext exactly when it is bound to the vault whose
    master validated it, and the call stored the target and the ciphertext of the request. -/
theorem stored_secret_opens_iff {header : Option HeaderValue} {resp : SignedForAgent} {customer : Option AccountId}
    {plaintext : List UInt8} (hone : E.OneKey) (hplain : E.PlainAlphabet)
    (hvalid : Validated E header req resp customer target plaintext)
    (hcall : storeAgentSecret H env c agentPubkey accessor profile encrypted access vaultId resp.signatureHex
      = .ok (s, ses))
    (hcarries : req.message target resp.agentAccount =
      Outlayer.secretStoreMessage agentPubkey (canonicalAccessor H accessor)
        (canonicalProfile (canonicalAccessor H accessor) profile) encrypted env.predecessor vaultId access) :
    ∃ owner view, implicitAccountOf agentPubkey = .ok owner ∧ owner.name = resp.agentAccount ∧
      (RowRequest.ofKey (agentRowKey H accessor profile owner)).lookup H s =
        some ⟨some view, boundVault c vaultId (agentRowKey H accessor profile owner)⟩ ∧
      ((RowRequest.ofKey (agentRowKey H accessor profile owner)).openRow E view
          (boundVault c vaultId (agentRowKey H accessor profile owner)) = .ok plaintext ↔
        boundVault c vaultId (agentRowKey H accessor profile owner) = customer ∧
        (agentRowKey H accessor profile owner).accessor = target.accessor ∧
        encrypted = req.encryptedSecretsBase64) := by
  obtain ⟨customer', target', key, plaintext', hsigns⟩ := signsStore_of_ok hvalid.answered
  obtain ⟨signature', -, rfl⟩ := hsigns.signed
  obtain ⟨bytes, hdecode, hdecrypt⟩ := openSealed_ok hvalid.opened
  obtain ⟨hagent, hcipher⟩ := carried_fields hcall (hplain _ _ hdecode) hcarries
  obtain ⟨owner, row, howner, hstored⟩ := stored_of_ok hcall
  have hname : owner.name = agentAccountOf key := by
    rw [hagent, implicitAccountOf, parse_agentKey] at howner
    simp only [bind_eq_ok, Except.ok.injEq, require_eq_ok, expect_eq_ok] at howner
    obtain ⟨_, rfl, _, -, hparse⟩ := howner
    exact (parse_some hparse).symm
  obtain ⟨stored, htarget⟩ := target_of_kind hstored.kind
  have hseed := decryptSeed_stored htarget (secretProfileView (agentRowKey H accessor profile owner).accessor row)
  refine ⟨owner, _, howner, hname, lookup_stored hstored, ?_⟩
  constructor
  · intro hopened
    obtain ⟨seed, hseed', hopened⟩ := bind_ok hopened
    obtain ⟨bytes', hbytes, hopened⟩ := bind_ok hopened
    -- what decodes has no colon, so it is the ciphertext that was validated
    have hbytes := orInternal_ok hbytes
    have hsame : encrypted = req.encryptedSecretsBase64 := by
      have henc := hstored.encrypted
      exact hcipher (henc ▸ hplain _ _ hbytes)
    have hbytes' : bytes' = bytes := by
      have henc : E.base64Decode encrypted = .ok bytes' := hstored.encrypted ▸ hbytes
      rw [hsame, hdecode] at henc
      exact (Except.ok.inj henc).symm
    rw [hbytes'] at hopened
    obtain ⟨hcustomer, hseeds⟩ := hone _ _ _ _ _ _ _ (orInternal_ok hopened) hdecrypt
    rw [hseed] at hseed'
    have hseeds : stored.seed owner.name = target.seed (agentAccountOf key) := (Except.ok.inj hseed').trans hseeds
    rw [hname] at hseeds
    exact ⟨hcustomer, targetSeed_inj hseeds ▸ htarget, hsame⟩
  · rintro ⟨hcustomer, haccessor, hsame⟩
    have hseed' := decryptSeed_stored haccessor (secretProfileView (agentRowKey H accessor profile owner).accessor row)
    have henc : (secretProfileView (agentRowKey H accessor profile owner).accessor row).encryptedSecrets =
        req.encryptedSecretsBase64 := hstored.encrypted.trans hsame
    have howned : (agentRowKey H accessor profile owner).owner.name = agentAccountOf key := hname
    rw [RowRequest.openRow, hseed', henc, hdecode, hcustomer, howned]
    show orInternal "Decryption failed" (E.decrypt customer (target.seed (agentAccountOf key)) bytes) = _
    rw [hdecrypt]
    rfl

end Carried

/-! ## A secret sealed to another master than the one it is bound to -/

/-- A project of alice's. -/
def appProject : String := "alice.near/app"

/-- The account of the key made of sevens. -/
def sevenAccount : String := agentAccountOf (Vector.replicate 32 7)

/-- A keystore in which one ciphertext is sealed to one customer's master, for `appProject`. -/
def sealedEnclave (customer : Option AccountId) : Enclave := { oneKeyEnclave with
  decrypt := fun found seed bytes =>
    if found = customer ∧ seed = (AgentSecretTarget.project appProject).seed sevenAccount then .ok bytes
    else .error "data tampered or wrong key"
  base64Decode := fun text => if text = "AQ==" then .ok [1] else .error "invalid" }

theorem sealed_of_decrypt {customer found : Option AccountId} {seed : String} {bytes x : List UInt8}
    (h : (sealedEnclave customer).decrypt found seed bytes = .ok x) :
    found = customer ∧ seed = (AgentSecretTarget.project appProject).seed sevenAccount := by
  simp only [sealedEnclave] at h
  split at h
  · next hsealed => exact hsealed
  · cases h

theorem open_sealed (customer : Option AccountId) : openSealed (sealedEnclave customer) customer
    ((AgentSecretTarget.project appProject).seed sevenAccount) "AQ==" = .ok [1] := by
  have hdecrypt : (sealedEnclave customer).decrypt customer ((AgentSecretTarget.project appProject).seed sevenAccount)
      [1] = .ok [1] := if_pos ⟨rfl, rfl⟩
  have hdecode : (sealedEnclave customer).base64Decode "AQ==" = .ok [1] := by
    simp only [sealedEnclave, if_true]
  simp only [openSealed, hdecode, orBadRequest, bind, Except.bind, hdecrypt]

theorem sealed_oneKey (customer : Option AccountId) : (sealedEnclave customer).OneKey := by
  intro found found' seed seed' bytes x y hx hy
  obtain ⟨rfl, rfl⟩ := sealed_of_decrypt hx
  obtain ⟨rfl, rfl⟩ := sealed_of_decrypt hy
  exact ⟨rfl, rfl⟩

theorem sealed_plainAlphabet (customer : Option AccountId) : (sealedEnclave customer).PlainAlphabet := by
  intro text bytes h
  simp only [sealedEnclave] at h
  split at h
  · next htext =>
      rw [htext]
      decide
  · cases h

/-- A store for `appProject` that names a vault, or none. -/
def storeSealed (vaultId : Option String) : SignSecretStoreRequest where
  walletId := "w"
  projectId := some appProject
  encryptedSecretsBase64 := "AQ=="
  payer := "bob.near"
  access := .allowAll
  vaultId := vaultId

/-- What the key made of sevens answers. -/
def sevenSigned : SignedForAgent where
  signatureHex := hexEncode (Vector.replicate 64 9 : Vector UInt8 64).toList
  walletPubkey := "ed25519:" ++ sevenAccount
  agentAccount := sevenAccount

/-- A contract that knows one project. -/
def appContract : Contract := { World.fresh.contract with
  projects := World.fresh.contract.projects.insert appProject ⟨"1", aliceAccount, "app", "1", 0, 0⟩ }

/-- The call with the same arguments, by bob. -/
def storeSealedCall (vaultId : Option AccountId) : Res (SecretStore × List StorageEffect) :=
  storeAgentSecret oneKeyHost (envOf bobAccount (10 ^ 24) 0 0) appContract sevenSigned.walletPubkey
    (.project appProject) sevenAccount "AQ==" .allowAll vaultId sevenSigned.signatureHex

theorem sealed_validated {vaultId : Option String}
    (h : walletSignSecretStore (sealedEnclave none) none (storeSealed vaultId) = .ok sevenSigned) :
    Validated (sealedEnclave none) none (storeSealed vaultId) sevenSigned none (.project appProject) [1] where
  answered := h
  header := rfl
  fields := by
    show AgentSecretTarget.fromFields asciiTables (some appProject) none = _
    decide +kernel
  opened := open_sealed none

/-- Sealed to the default master, and bound to no vault: it opens. -/
theorem sealed_secret_opens : ∃ s ses owner view, storeSealedCall none = .ok (s, ses) ∧
    (RowRequest.ofKey (agentRowKey oneKeyHost (.project appProject) sevenAccount owner)).lookup oneKeyHost s =
      some ⟨some view, none⟩ ∧
    (RowRequest.ofKey (agentRowKey oneKeyHost (.project appProject) sevenAccount owner)).openRow (sealedEnclave none)
      view none = .ok [1] := by
  have hanswered : walletSignSecretStore (sealedEnclave none) none (storeSealed none) = .ok sevenSigned := by
    decide +kernel
  have haccepted : (storeSealedCall none).toOption.isSome = true := by decide +kernel
  obtain ⟨⟨s, ses⟩, hcall⟩ := Option.isSome_iff_exists.mp haccepted
  have hcall := toOption_eq_some.mp hcall
  have hcarries : (storeSealed none).message (.project appProject) sevenSigned.agentAccount =
      Outlayer.secretStoreMessage sevenSigned.walletPubkey (canonicalAccessor oneKeyHost (.project appProject))
        (canonicalProfile (canonicalAccessor oneKeyHost (.project appProject)) sevenAccount) "AQ==" bobAccount none
        .allowAll := by decide +kernel
  obtain ⟨owner, view, howner, -, hlookup, hopens⟩ :=
    stored_secret_opens_iff (sealed_oneKey none) (sealed_plainAlphabet none) (sealed_validated hanswered) hcall hcarries
  have hunbound : boundVault appContract none
      (agentRowKey oneKeyHost (.project appProject) sevenAccount owner) = none := rfl
  have haccessor : (agentRowKey oneKeyHost (.project appProject) sevenAccount owner).accessor =
      (AgentSecretTarget.project appProject).accessor := rfl
  exact ⟨s, ses, owner, view, hcall, hunbound ▸ hlookup, hopens.mpr ⟨hunbound, haccessor, rfl⟩⟩

/-- Validated under the default master, for no vault is named in the header, and stored with a vault: the row is read
    with the vault's master and does not open. -/
theorem other_vault_not_opened : ∃ s ses owner view,
    walletSignSecretStore (sealedEnclave none) none (storeSealed (some "alice.near")) = .ok sevenSigned ∧
    openSealed (sealedEnclave none) none ((AgentSecretTarget.project appProject).seed sevenAccount) "AQ==" = .ok [1] ∧
    (storeSealed (some "alice.near")).message (.project appProject) sevenSigned.agentAccount =
      Outlayer.secretStoreMessage sevenSigned.walletPubkey (canonicalAccessor oneKeyHost (.project appProject))
        (canonicalProfile (canonicalAccessor oneKeyHost (.project appProject)) sevenAccount) "AQ==" bobAccount
        (some aliceAccount) .allowAll ∧
    storeSealedCall (some aliceAccount) = .ok (s, ses) ∧
    (RowRequest.ofKey (agentRowKey oneKeyHost (.project appProject) sevenAccount owner)).lookup oneKeyHost s =
      some ⟨some view, some aliceAccount⟩ ∧
    ∀ plaintext, (RowRequest.ofKey (agentRowKey oneKeyHost (.project appProject) sevenAccount owner)).openRow
      (sealedEnclave none) view (some aliceAccount) ≠ .ok plaintext := by
  have haccepted : (storeSealedCall (some aliceAccount)).toOption.isSome = true := by decide +kernel
  obtain ⟨⟨s, ses⟩, hcall⟩ := Option.isSome_iff_exists.mp haccepted
  have hcall := toOption_eq_some.mp hcall
  obtain ⟨owner, row, howner, hstored⟩ := stored_of_ok hcall
  refine ⟨s, ses, owner, _, by decide +kernel, open_sealed none, by decide +kernel, hcall, lookup_stored hstored, ?_⟩
  intro plaintext hopened
  obtain ⟨seed, -, hopened⟩ := bind_ok hopened
  obtain ⟨bytes, -, hopened⟩ := bind_ok hopened
  obtain ⟨hnone, -⟩ := sealed_of_decrypt (orInternal_ok hopened)
  cases hnone

end Keystore
end Outlayer
