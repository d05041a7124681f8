import Outlayer.Contract.Messages
import Outlayer.Contract.Replay

/-!
# `Contract.Correctness.SignedMessages` — no two writes share a signed message

What a wallet signs to store a secret, to delete one and to store a policy are three texts. Over the arguments
the contract accepts, a text determines which of the three it is and every argument in it: whoever holds a
signature can use it for nothing but the write it was made for.
-/

namespace Outlayer
open Text Checked Collections Runs

/-- The arguments a wallet signs, in the spelling the contract uses. -/
inductive SignedArgs
  | storeSecret (agentPubkey : String) (accessor : SecretAccessor) (profile encryptedSecrets : String)
      (payer : AccountId) (vaultId : Option AccountId) (access : AccessCondition)
  | deleteSecret (agentPubkey : String) (accessor : SecretAccessor) (profile : String) (payer : AccountId)
  | storePolicy (walletPubkey : String) (version : Nat) (locked : Bool) (validUntil : Nat)
      (encryptedData : String) (caller : AccountId)

/-- The text that is hashed and signed. -/
def SignedArgs.message : SignedArgs → String
  | .storeSecret agent accessor profile encrypted payer vaultId access =>
      secretStoreMessage agent accessor profile encrypted payer vaultId access
  | .deleteSecret agent accessor profile payer => secretDeleteMessage agent accessor profile payer
  | .storePolicy key version locked validUntil data caller =>
      policyStoreMessage key version locked validUntil data caller

/-- What a call by `caller` asks a signature for. -/
def Call.signedArgs (H : Host) (caller : AccountId) : Call → Option SignedArgs
  | .storeAgentSecret agent accessor profile encrypted access vaultId _ =>
      let accessor := canonicalAccessor H accessor
      some (.storeSecret agent accessor (canonicalProfile accessor profile) encrypted caller vaultId access)
  | .deleteAgentSecret agent accessor profile _ =>
      let accessor := canonicalAccessor H accessor
      some (.deleteSecret agent accessor (canonicalProfile accessor profile) caller)
  | .storeWalletPolicy walletPubkey data _ version locked validUntil _ =>
      match canonicalWalletPubkey walletPubkey with
      | .ok key  => some (.storePolicy key version locked validUntil data caller)
      | .error _ => none
  | _ => none

/-- In world `w` the call goes through, on a signature over `s`. -/
structure Accepts (H : Host) (w : World) (env : Env) (call : Call) (s : SignedArgs) : Prop where
  runs : ∃ result, exec H (w.seenBy env) w.contract call = .ok result
  args : call.signedArgs H env.predecessor = some s

/-! ## What accepted arguments look like -/

/-- The shape of accepted arguments: keys of two fields, accessors of an agent's secret, profiles without a
    colon. -/
def SignedArgs.Shaped : SignedArgs → Prop
  | .storeSecret agent accessor profile _ _ _ _ => KeyShaped agent ∧ accessor.Bound ∧ ':' ∉ profile.toList
  | .deleteSecret agent accessor profile _      => KeyShaped agent ∧ accessor.Bound ∧ ':' ∉ profile.toList
  | .storePolicy key _ _ _ _ _                  => KeyShaped key

/-- Every stored secret is bound to something of the shape a store checks. -/
def SecretStore.RowsShaped (s : SecretStore) : Prop :=
  LookupMap.All (fun key _ => key.accessor.Shaped) s.secretsStorage

theorem rowsShaped_move {H : Host} {s s' : SecretStore} {paid : Nat} {act : SecretAct} {ses : List StorageEffect}
    (h : SecretMove H s paid act s' ses) (hs : s.RowsShaped) : s'.RowsShaped := by
  have hstores : ∀ {key : SecretKey} {row : SecretProfile} {s' : SecretStore} {ses : List StorageEffect},
      Stores H s paid key row s' ses → s'.RowsShaped := by
    intro key row s' ses hstores
    unfold SecretStore.RowsShaped
    rw [hstores.rows]
    exact hs.insert hstores.shaped
  cases h with
  | store key row s' ses kind stores floors => exact hstores stores
  | create owner nonce row s' ses stores new above fits floors => exact hstores stores
  | delete key row receiver held unpaid => exact hs.erase key
  | deletePaymentKey owner nonce row held unpaid =>
      unfold SecretStore.RowsShaped
      rw [raise_secretsStorage]
      exact hs.erase _
  | unbind key row held unpaid => exact hs
  | recondition key row row' receiver held priced covered => exact hs.insert (hs key row held)
  | topUp owner nonce data time row held unpaid => exact hs.insert trivial
  | missed owner nonce amount data gone unpaid => exact hs
  | idle ses quiet unpaid => exact hs

theorem rowsShaped_step {H : Host} {t : Step} (hf : Fires (World.next H) t)
    (hs : t.pre.contract.toSecretStore.RowsShaped) : t.post.contract.toSecretStore.RowsShaped := by
  rcases step_secrets hf with ⟨paid, ses, hmove⟩ | ⟨-, hsame⟩
  · exact rowsShaped_move hmove hs
  · rwa [hsame]

theorem rowsShaped_history {H : Host} {owner : AccountId} {operator : Option AccountId}
    {standard version : Option String} {tr : List Step} {w : World}
    (h : World.History H owner operator standard version tr w) : w.contract.toSecretStore.RowsShaped :=
  Run.invariant (I := fun w => w.contract.toSecretStore.RowsShaped) LookupMap.all_empty
    (fun _ hf hs => rowsShaped_step hf hs) h

section Accepted
variable {H : Host} {env : Env} {c : Contract} {s : SecretStore} {ses : List StorageEffect}

theorem keyShaped_of_implicitAccount {agent : String} {owner : AccountId}
    (h : implicitAccountOf agent = .ok owner) : KeyShaped agent := by
  simp only [implicitAccountOf, bind_eq_ok] at h
  obtain ⟨_, hparse, -⟩ := h
  exact keyShaped_of_parse hparse

theorem colon_not_mem_of_unambiguous {profile : String} {u : Unit}
    (h : assertProfileIsUnambiguous profile = .ok u) : ':' ∉ profile.toList := by
  rw [assertProfileIsUnambiguous, require_eq_ok] at h
  intro hmem
  rw [(contains_char rfl).mpr hmem] at h
  cases h

/-- The accessor of a secret that was stored passed the checks of a store. -/
theorem shaped_of_storeInternal {owner payer : AccountId} {accessor : SecretAccessor} {profile data : String}
    {access : AccessCondition} {vaultId : Option AccountId}
    (h : storeSecretsInternal H env c owner payer accessor profile data access vaultId = .ok (s, ses)) :
    (canonicalAccessor H accessor).Shaped := by
  simp only [storeSecretsInternal, bind_eq_ok] at h
  obtain ⟨_, -, _, hvalid, -⟩ := h
  exact shaped_of_validate hvalid

/-- Storing lower-cases a hash once more; a slash would have come through. -/
theorem bound_of_canonical_twice {accessor : SecretAccessor} (hkind : ∀ repo branch, accessor ≠ .repo repo branch)
    (hsystem : ∀ kind, accessor ≠ .system kind) (h : (canonicalAccessor H accessor).Shaped) : accessor.Bound := by
  cases accessor with
  | repo repo branch => exact absurd rfl (hkind repo branch)
  | system kind => exact absurd rfl (hsystem kind)
  | project id => exact h
  | wasmHash hash =>
      intro hslash
      exact absurd (h '/' (mem_toLowercase (by decide) (by decide) hslash)) (by decide)

theorem storeAgentSecret_shaped {agent : String} {accessor : SecretAccessor} {profile data signature : String}
    {access : AccessCondition} {vaultId : Option AccountId}
    (h : storeAgentSecret H env c agent accessor profile data access vaultId signature = .ok (s, ses)) :
    KeyShaped agent ∧ (canonicalAccessor H accessor).Bound ∧
      ':' ∉ (canonicalProfile (canonicalAccessor H accessor) profile).toList := by
  simp only [storeAgentSecret, bind_eq_ok] at h
  obtain ⟨owner, howner, _, -, _, hprofile, h⟩ := h
  refine ⟨keyShaped_of_implicitAccount howner, ?_, colon_not_mem_of_unambiguous hprofile⟩
  cases accessor with
  | repo _ _ => exact absurd h throw_ne_ok
  | system _ => exact absurd h throw_ne_ok
  | wasmHash hash =>
      obtain ⟨_, -, hstore⟩ := bind_eq_ok.mp h
      exact bound_of_canonical_twice nofun nofun (shaped_of_storeInternal hstore)
  | project id =>
      obtain ⟨_, -, hstore⟩ := bind_eq_ok.mp h
      exact bound_of_canonical_twice nofun nofun (shaped_of_storeInternal hstore)

theorem deleteAgentSecret_shaped {agent : String} {accessor : SecretAccessor} {profile signature : String}
    (hrows : c.toSecretStore.RowsShaped)
    (h : deleteAgentSecret H env c agent accessor profile signature = .ok (s, ses)) :
    KeyShaped agent ∧ (canonicalAccessor H accessor).Bound ∧
      ':' ∉ (canonicalProfile (canonicalAccessor H accessor) profile).toList := by
  simp only [deleteAgentSecret, bind_eq_ok] at h
  obtain ⟨owner, howner, _, hprofile, h⟩ := h
  refine ⟨keyShaped_of_implicitAccount howner, ?_, colon_not_mem_of_unambiguous hprofile⟩
  -- the row it removes was stored
  have hrow : ∀ {key : SecretKey} {receiver : AccountId},
      deleteSecretsInternal c.toSecretStore key key.owner receiver = .ok (s, ses) → key.accessor.Shaped := by
    intro key receiver hdelete
    obtain ⟨row, held, -, -⟩ := deleteSecretsInternal_ok key hdelete
    exact hrows key row held
  cases accessor with
  | repo _ _ => exact absurd h throw_ne_ok
  | system _ => exact absurd h throw_ne_ok
  | wasmHash hash =>
      obtain ⟨_, -, hdelete⟩ := bind_eq_ok.mp h
      exact bound_wasmHash_of_shaped (hrow hdelete)
  | project id =>
      obtain ⟨_, -, hdelete⟩ := bind_eq_ok.mp h
      exact hrow hdelete

/-- **Accepted arguments are shaped.** -/
theorem shaped_of_accepts {w : World} {call : Call} {a : SignedArgs} (h : Accepts H w env call a)
    (hrows : w.contract.toSecretStore.RowsShaped) : a.Shaped := by
  obtain ⟨⟨⟨_, _⟩, hrun⟩, hargs⟩ := h
  obtain ⟨-, hcommit⟩ := exec_commit hrun
  cases call with
  | storeAgentSecret agent accessor profile data access vaultId signature =>
      obtain ⟨_, _, hstore, -, -⟩ := commit_secrets hcommit
      cases hargs
      exact storeAgentSecret_shaped hstore
  | deleteAgentSecret agent accessor profile signature =>
      obtain ⟨_, _, hdelete, -, -⟩ := commit_secrets hcommit
      cases hargs
      exact deleteAgentSecret_shaped hrows hdelete
  | storeWalletPolicy walletPubkey data signature version locked validUntil refundTo =>
      cases hkey : canonicalWalletPubkey walletPubkey with
      | error why =>
          simp only [Call.signedArgs, hkey] at hargs
          cases hargs
      | ok key =>
          simp only [Call.signedArgs, hkey, Option.some.injEq] at hargs
          subst hargs
          exact keyShaped_of_canonical hkey
  | _ => cases hargs

end Accepted

/-! ## The messages -/

/-- The three domains differ in their seventh character. -/
def SignedArgs.mark (a : SignedArgs) : Option Char := a.message.toList[6]?

theorem mark_eq (a : SignedArgs) : a.mark = match a with
    | .storeSecret .. => some 's'
    | .deleteSecret .. => some '_'
    | .storePolicy .. => some 'w' := by
  cases a with
  | storeSecret agent accessor profile data payer vaultId access =>
      show (secretStoreMessage agent accessor profile data payer vaultId access).toList[6]? = _
      rw [secretStoreMessage_toList, List.getElem?_append_left (by decide)]
      rfl
  | deleteSecret agent accessor profile payer =>
      show (secretDeleteMessage agent accessor profile payer).toList[6]? = _
      rw [secretDeleteMessage_toList, List.getElem?_append_left (by decide)]
      rfl
  | storePolicy key version locked validUntil data caller =>
      show (policyStoreMessage key version locked validUntil data caller).toList[6]? = _
      rw [policyStoreMessage_toList, List.getElem?_append_left (by decide)]
      rfl

/-- **A message determines what was signed.** -/
theorem message_inj {a b : SignedArgs} (ha : a.Shaped) (hb : b.Shaped) (h : a.message = b.message) : a = b := by
  have hmark : a.mark = b.mark := congrArg (fun text : String => text.toList[6]?) h
  rw [mark_eq, mark_eq] at hmark
  cases a with
  | storeSecret agent accessor profile data payer vaultId access =>
      cases b with
      | storeSecret agent' accessor' profile' data' payer' vaultId' access' =>
          obtain ⟨rfl, rfl, rfl, rfl, rfl, rfl, rfl⟩ :=
            secretStoreMessage_inj ha.1 hb.1 ha.2.1 hb.2.1 ha.2.2 hb.2.2 h
          rfl
      | deleteSecret => cases hmark
      | storePolicy => cases hmark
  | deleteSecret agent accessor profile payer =>
      cases b with
      | storeSecret => cases hmark
      | deleteSecret agent' accessor' profile' payer' =>
          obtain ⟨rfl, rfl, rfl, rfl⟩ := secretDeleteMessage_inj ha.1 hb.1 ha.2.1 hb.2.1 ha.2.2 hb.2.2 h
          rfl
      | storePolicy => cases hmark
  | storePolicy key version locked validUntil data caller =>
      cases b with
      | storeSecret => cases hmark
      | deleteSecret => cases hmark
      | storePolicy key' version' locked' validUntil' data' caller' =>
          obtain ⟨rfl, rfl, rfl, rfl, rfl, rfl⟩ := policyStoreMessage_inj ha hb h
          rfl

/-- **Signed messages are unambiguous.** Two calls the contract accepts, in any worlds histories reach, are signed
    over the same text only when they are of the same kind and sign the same arguments. -/
theorem signed_messages_unambiguous {H : Host} {owner owner' : AccountId} {operator operator' : Option AccountId}
    {standard standard' version version' : Option String} {tr tr' : List Step} {w w' : World}
    {env env' : Env} {call call' : Call} {a a' : SignedArgs}
    (h : World.History H owner operator standard version tr w)
    (h' : World.History H owner' operator' standard' version' tr' w')
    (accepted : Accepts H w env call a) (accepted' : Accepts H w' env' call' a')
    (same : a.message = a'.message) : a = a' :=
  message_inj (shaped_of_accepts accepted (rowsShaped_history h))
    (shaped_of_accepts accepted' (rowsShaped_history h')) same

/-- The key of `walletKey` in capitals: one key, one message. -/
def walletKeyUpper : String := "ed25519:EA4A6C63E29C520ABEF5507B132EC5F9954776AEBEBE7B92421EEA691446D22C"

/-- The wallet's policy is accepted under either spelling of the key. -/
theorem policy_accepted (key : String) (spelling : key = walletKey ∨ key = walletKeyUpper) :
    Accepts walletHost World.fresh (envOf aliceAccount (10 ^ 24) 1000000000 0)
      (.storeWalletPolicy key "policy" walletSignature 1 false 1000 none)
      (.storePolicy walletKey 1 false 1000 "policy" aliceAccount) := by
  have lower : (canonicalWalletPubkey walletKey).toOption = some walletKey := by decide +kernel
  have upper : (canonicalWalletPubkey walletKeyUpper).toOption = some walletKey := by decide +kernel
  have canonical : canonicalWalletPubkey key = .ok walletKey := by
    rcases spelling with rfl | rfl
    · exact toOption_eq_some.mp lower
    · exact toOption_eq_some.mp upper
  have goes : (exec walletHost (World.fresh.seenBy (envOf aliceAccount (10 ^ 24) 1000000000 0)) World.fresh.contract
      (.storeWalletPolicy walletKey "policy" walletSignature 1 false 1000 none)).toOption.isSome = true := by
    decide +kernel
  obtain ⟨result, hresult⟩ := Option.isSome_iff_exists.mp goes
  have hne : key ≠ "" := by
    rcases spelling with rfl | rfl <;> decide
  constructor
  · refine ⟨result, ?_⟩
    rw [← toOption_eq_some.mp hresult]
    simp only [exec, runCall]
    rw [storeWalletPolicy_spelling hne (by decide) (canonical.trans (toOption_eq_some.mp lower).symm)]
    rfl
  · simp only [Call.signedArgs, canonical]
    rfl

theorem spellings_sign_the_same :
    ∃ a a', Accepts walletHost World.fresh (envOf aliceAccount (10 ^ 24) 1000000000 0)
        (.storeWalletPolicy walletKey "policy" walletSignature 1 false 1000 none) a ∧
      Accepts walletHost World.fresh (envOf aliceAccount (10 ^ 24) 1000000000 0)
        (.storeWalletPolicy walletKeyUpper "policy" walletSignature 1 false 1000 none) a' ∧ a = a' := by
  have lower := policy_accepted walletKey (.inl rfl)
  have upper := policy_accepted walletKeyUpper (.inr rfl)
  have fresh : World.History walletHost ownerAccount none none none [] World.fresh := .start
  exact ⟨_, _, lower, upper, signed_messages_unambiguous fresh fresh lower upper rfl⟩

end Outlayer
