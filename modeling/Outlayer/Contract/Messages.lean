import Outlayer.Contract.PolicySteps
import Outlayer.Contract.SecretSteps
import Outlayer.Contract.ConditionText
import Outlayer.Lib.Fields

/-!
# `Contract.Messages` — what a signed message says

Three calls ask for a wallet's signature over a text. Each text opens with a domain of its own and joins its
fields with colons, so what it says rests on where its fields end: keys, numbers, names and accounts hold no
colon of their own, a binding is preceded by its length, and a ciphertext is followed by fields that can be
told from the end of the text.
-/

namespace Outlayer
open Text Checked Collections Fields

/-! ## The fields -/

theorem colon_toList : ":".toList = [':'] := rfl

/-- The characters of an account name. -/
theorem mem_accountChars {sep : Bool} {cs : List Char} (h : accountChars sep cs = true) {c : Char} (hc : c ∈ cs) :
    (inRange 'a' 'z' c || inRange '0' '9' c || c == '-' || c == '_' || c == '.') = true := by
  induction cs generalizing sep with
  | nil => cases hc
  | cons d ds ih =>
      unfold accountChars at h
      split at h
      · next hd =>
          rcases List.mem_cons.mp hc with rfl | hc
          · simp only [Bool.or_eq_true] at hd ⊢
            tauto
          · exact ih h hc
      · split at h
        · next hd =>
            obtain ⟨-, h⟩ := Bool.and_eq_true_iff.mp h
            rcases List.mem_cons.mp hc with rfl | hc
            · simp only [Bool.or_eq_true] at hd ⊢
              tauto
            · exact ih h hc
        · cases h

/-- An account name holds neither a colon nor a quote. -/
theorem not_mem_accountName {c : Char} (hc : c = ':' ∨ c = '"') (a : AccountId) : c ∉ a.name.toList := by
  intro hmem
  have hvalid := a.valid
  simp only [isValidAccountId, Bool.and_eq_true] at hvalid
  have hchar := mem_accountChars hvalid.2 hmem
  rcases hc with rfl | rfl <;> exact absurd hchar (by decide)

theorem colon_not_mem_accountName (a : AccountId) : ':' ∉ a.name.toList := not_mem_accountName (Or.inl rfl) a

theorem colon_not_mem_toString (n : Nat) : ':' ∉ (toString n).toList := not_mem_toString (by decide) n

theorem AccountId.eq_of_toList {a b : AccountId} (h : a.name.toList = b.name.toList) : a = b :=
  AccountId.eq_of_name (String.toList_inj.mp h)

/-- A key that parses is two fields around one colon. -/
def KeyShaped (key : String) : Prop :=
  ∃ kind hex, key.toList = kind ++ ':' :: hex ∧ ':' ∉ kind ∧ ':' ∉ hex

theorem splitAtColon_some {s kind rest : String} (h : splitAtColon s = some (kind, rest)) :
    s.toList = kind.toList ++ ':' :: rest.toList ∧ ':' ∉ kind.toList := by
  unfold splitAtColon at h
  split at h
  · cases h
  · next c tail hdrop =>
      have hsplit := List.takeWhile_append_dropWhile (p := fun c => decide (c ≠ ':')) (l := s.toList)
      have hcolon : c = ':' := by
        have hhead := List.head?_dropWhile_not (fun c => decide (c ≠ ':')) s.toList
        rw [hdrop] at hhead
        simpa using hhead
      obtain ⟨rfl, rfl⟩ := Prod.mk.inj (Option.some.inj h)
      rw [hdrop, hcolon] at hsplit
      simp only [String.toList_ofList]
      refine ⟨hsplit.symm, fun hmem => ?_⟩
      exact absurd (List.mem_takeWhile_imp hmem) (by decide)

/-- What decodes from hexadecimal holds no colon. -/
theorem colon_not_mem_of_hexDecode {s : String} {bs : List UInt8} (h : hexDecode s = some bs) : ':' ∉ s.toList := by
  have hlist : ∀ (n : Nat) (cs : List Char) (bs : List UInt8), cs.length ≤ n → hexDecodeList cs = some bs →
      ':' ∉ cs := by
    intro n
    induction n with
    | zero =>
        intro cs bs hlen _
        rw [List.length_eq_zero_iff.mp (Nat.le_zero.mp hlen)]
        exact List.not_mem_nil
    | succ n ih =>
        intro cs bs hlen hdecode
        match cs with
        | []           => exact List.not_mem_nil
        | [_]          => cases hdecode
        | a :: b :: cs =>
            simp only [hexDecodeList, Option.bind_eq_bind, Option.bind_eq_some_iff] at hdecode
            obtain ⟨hi, ha, lo, hb, rest, hrest, -⟩ := hdecode
            have hcs := ih cs rest (by simp only [List.length_cons] at hlen; omega) hrest
            have hnot : ∀ {c : Char} {v : Nat}, hexDigitVal c = some v → ':' ≠ c := by
              rintro c v hv rfl
              rw [show hexDigitVal ':' = none by decide] at hv
              cases hv
            simp only [List.mem_cons, not_or]
            exact ⟨hnot ha, hnot hb, hcs⟩
  exact hlist _ s.toList bs (Nat.le_refl _) h

theorem keyShaped_of_parse {key : String} {parsed : WalletKeyType × List UInt8}
    (h : parseWalletPubkey key = .ok parsed) : KeyShaped key := by
  simp only [parseWalletPubkey, bind_eq_ok, expect_eq_ok] at h
  obtain ⟨⟨kind, hex⟩, hsplit, _, -, raw, hraw, -⟩ := h
  obtain ⟨hlist, hkind⟩ := splitAtColon_some hsplit
  exact ⟨kind.toList, hex.toList, hlist, hkind, colon_not_mem_of_hexDecode hraw⟩

theorem keyShaped_of_canonical {walletPubkey key : String} (h : canonicalWalletPubkey walletPubkey = .ok key) :
    KeyShaped key := by
  have hkey := canonical_canonical h
  simp only [canonicalWalletPubkey, bind_eq_ok] at hkey
  obtain ⟨_, hparse, -⟩ := hkey
  exact keyShaped_of_parse hparse

/-- A key cut off the front of a text. -/
theorem cut_key {key key' : String} {rest rest' : List Char} (hkey : KeyShaped key) (hkey' : KeyShaped key')
    (h : key.toList ++ ':' :: rest = key'.toList ++ ':' :: rest') : key = key' ∧ rest = rest' := by
  obtain ⟨kind, hex, hlist, hkind, hhex⟩ := hkey
  obtain ⟨kind', hex', hlist', hkind', hhex'⟩ := hkey'
  rw [hlist, hlist'] at h
  simp only [List.append_assoc, List.cons_append] at h
  obtain ⟨rfl, hafter⟩ := cut_first hkind hkind' h
  obtain ⟨rfl, hrest⟩ := cut_first hhex hhex' hafter
  exact ⟨String.toList_inj.mp (hlist.trans hlist'.symm), hrest⟩

/-! ## Policies -/

theorem policyStoreMessage_toList (key : String) (version : Nat) (locked : Bool) (validUntil : Nat)
    (data : String) (caller : AccountId) :
    (policyStoreMessage key version locked validUntil data caller).toList
      = "store_wallet_policy:v2:".toList ++ (key.toList ++ ':' :: ((toString version).toList ++ ':' ::
        ((if locked then "1" else "0").toList ++ ':' :: ((toString validUntil).toList ++ ':' ::
        ((toString data.utf8ByteSize).toList ++ ':' :: (data.toList ++ ':' :: caller.name.toList)))))) := by
  unfold policyStoreMessage
  simp only [String.toList_append]
  simp only [List.append_assoc, colon_toList, List.cons_append, List.nil_append]

/-- **A policy message says one thing.** -/
theorem policyStoreMessage_inj {key key' : String} {version version' : Nat}
    {locked locked' : Bool} {validUntil validUntil' : Nat} {data data' : String} {caller caller' : AccountId}
    (hkey : KeyShaped key) (hkey' : KeyShaped key')
    (h : policyStoreMessage key version locked validUntil data caller
      = policyStoreMessage key' version' locked' validUntil' data' caller') :
    key = key' ∧ version = version' ∧ locked = locked' ∧ validUntil = validUntil' ∧ data = data' ∧
      caller = caller' := by
  have hl := congrArg String.toList h
  rw [policyStoreMessage_toList, policyStoreMessage_toList] at hl
  have hl := List.append_cancel_left hl
  obtain ⟨hsame, hl⟩ := cut_key hkey hkey' hl
  obtain ⟨hversion, hl⟩ := cut_first (colon_not_mem_toString _) (colon_not_mem_toString _) hl
  have hbit : ∀ b : Bool, ':' ∉ (if b then "1" else "0").toList := by decide
  obtain ⟨hlocked, hl⟩ := cut_first (hbit locked) (hbit locked') hl
  obtain ⟨huntil, hl⟩ := cut_first (colon_not_mem_toString _) (colon_not_mem_toString _) hl
  obtain ⟨-, hl⟩ := cut_first (colon_not_mem_toString _) (colon_not_mem_toString _) hl
  -- the ciphertext may hold colons, the caller cannot
  obtain ⟨hdata, hcaller⟩ := cut_last (colon_not_mem_accountName caller) (colon_not_mem_accountName caller') hl
  refine ⟨hsame, toString_nat_inj (String.toList_inj.mp hversion), ?_, toString_nat_inj (String.toList_inj.mp huntil),
    String.toList_inj.mp hdata, AccountId.eq_of_toList hcaller⟩
  cases locked <;> cases locked' <;> first | rfl | exact absurd hlocked (by decide)

/-! ## Secrets -/

/-- An accessor an agent's secret can be bound to: the slash tells a project's id from a hash. -/
def SecretAccessor.Bound : SecretAccessor → Prop
  | .project id    => '/' ∈ id.toList
  | .wasmHash hash => '/' ∉ hash.toList
  | _              => False

theorem bound_wasmHash_of_shaped {hash : String} (h : (SecretAccessor.wasmHash hash).Shaped) :
    (SecretAccessor.wasmHash hash).Bound := by
  intro hslash
  exact absurd (h '/' hslash) (by decide)

theorem slash_not_mem_wasm {hash : String} (h : '/' ∉ hash.toList) : '/' ∉ ("wasm:" ++ hash).toList := by
  rw [String.toList_append, List.mem_append]
  rintro (hwasm | hhash)
  · exact absurd hwasm (by decide)
  · exact h hhash

theorem accessorBinding_inj {a b : SecretAccessor} (ha : a.Bound) (hb : b.Bound)
    (h : accessorBinding a = accessorBinding b) : a = b := by
  cases a with
  | repo _ _ => exact ha.elim
  | system _ => exact ha.elim
  | project id =>
      cases b with
      | repo _ _ => exact hb.elim
      | system _ => exact hb.elim
      | project id' => exact congrArg SecretAccessor.project h
      | wasmHash hash =>
          have hid : id = "wasm:" ++ hash := h
          exact absurd (hid ▸ ha) (slash_not_mem_wasm hb)
  | wasmHash hash =>
      cases b with
      | repo _ _ => exact hb.elim
      | system _ => exact hb.elim
      | project id =>
          have hid : id = "wasm:" ++ hash := h.symm
          exact absurd (hid ▸ hb) (slash_not_mem_wasm ha)
      | wasmHash hash' =>
          have hl := congrArg String.toList h
          simp only [accessorBinding, String.toList_append] at hl
          exact congrArg SecretAccessor.wasmHash (String.toList_inj.mp (List.append_cancel_left hl))

/-- The key and the sized binding that open both messages about secrets. -/
theorem cut_binding {key key' : String} {binding binding' : String} {rest rest' : List Char}
    (hkey : KeyShaped key) (hkey' : KeyShaped key')
    (h : key.toList ++ ':' :: ((toString binding.utf8ByteSize).toList ++ ':' :: (binding.toList ++ rest))
      = key'.toList ++ ':' :: ((toString binding'.utf8ByteSize).toList ++ ':' :: (binding'.toList ++ rest'))) :
    key = key' ∧ binding = binding' ∧ rest = rest' := by
  obtain ⟨hsame, hsized⟩ := cut_key hkey hkey' h
  obtain ⟨hsize, hbinding⟩ := cut_first (colon_not_mem_toString _) (colon_not_mem_toString _) hsized
  have hbytes : Json.size binding.toList = Json.size binding'.toList := by
    rw [Json.size_toList, Json.size_toList]
    exact toString_nat_inj (String.toList_inj.mp hsize)
  obtain ⟨hcut, hrest⟩ := cut_sized hbytes hbinding
  exact ⟨hsame, String.toList_inj.mp hcut, hrest⟩

theorem secretDeleteMessage_toList (agentPubkey : String) (accessor : SecretAccessor) (profile : String)
    (payer : AccountId) :
    (secretDeleteMessage agentPubkey accessor profile payer).toList
      = "delete_agent_secret:v1:".toList ++ (agentPubkey.toList ++ ':' ::
        ((toString (accessorBinding accessor).utf8ByteSize).toList ++ ':' ::
        ((accessorBinding accessor).toList ++ ':' :: (profile.toList ++ ':' :: payer.name.toList)))) := by
  unfold secretDeleteMessage
  simp only [String.toList_append]
  simp only [List.append_assoc, colon_toList, List.cons_append, List.nil_append]

/-- **A deletion message says one thing.** -/
theorem secretDeleteMessage_inj {agent agent' : String} {accessor accessor' : SecretAccessor}
    {profile profile' : String} {payer payer' : AccountId} (hagent : KeyShaped agent) (hagent' : KeyShaped agent')
    (hbound : accessor.Bound) (hbound' : accessor'.Bound) (hprofile : ':' ∉ profile.toList)
    (hprofile' : ':' ∉ profile'.toList)
    (h : secretDeleteMessage agent accessor profile payer = secretDeleteMessage agent' accessor' profile' payer') :
    agent = agent' ∧ accessor = accessor' ∧ profile = profile' ∧ payer = payer' := by
  have hl := congrArg String.toList h
  rw [secretDeleteMessage_toList, secretDeleteMessage_toList] at hl
  obtain ⟨hkey, hbinding, hrest⟩ := cut_binding hagent hagent' (List.append_cancel_left hl)
  obtain ⟨hprof, hpayer⟩ := cut_first hprofile hprofile' (List.cons.inj hrest).2
  exact ⟨hkey, accessorBinding_inj hbound hbound' hbinding, String.toList_inj.mp hprof,
    AccountId.eq_of_toList hpayer⟩

theorem secretStoreMessage_toList (agentPubkey : String) (accessor : SecretAccessor)
    (profile encryptedSecrets : String) (payer : AccountId) (vaultId : Option AccountId)
    (access : AccessCondition) :
    (secretStoreMessage agentPubkey accessor profile encryptedSecrets payer vaultId access).toList
      = "store_secrets_for:v1:".toList ++ (agentPubkey.toList ++ ':' ::
        ((toString (accessorBinding accessor).utf8ByteSize).toList ++ ':' ::
        ((accessorBinding accessor).toList ++ ':' :: (profile.toList ++ ':' ::
        (encryptedSecrets.toList ++ ':' :: (payer.name.toList ++ ':' ::
        (((vaultId.map AccountId.name).getD "").toList ++ ':' :: access.toJson.toList))))))) := by
  unfold secretStoreMessage
  simp only [String.toList_append]
  simp only [List.append_assoc, colon_toList, List.cons_append, List.nil_append]

/-- The vault field: an account name, or nothing. -/
theorem not_mem_vault {c : Char} (hc : c = ':' ∨ c = '"') (vaultId : Option AccountId) :
    c ∉ ((vaultId.map AccountId.name).getD "").toList := by
  cases vaultId with
  | none => exact List.not_mem_nil
  | some vault => exact not_mem_accountName hc vault

theorem vault_inj {a b : Option AccountId}
    (h : ((a.map AccountId.name).getD "").toList = ((b.map AccountId.name).getD "").toList) : a = b := by
  have hne : ∀ x : AccountId, x.name.toList ≠ [] := by
    intro x hnil
    have hvalid := x.valid
    rw [String.toList_eq_nil_iff.mp hnil] at hvalid
    exact absurd hvalid (by decide)
  cases a with
  | none =>
      cases b with
      | none => rfl
      | some y => exact absurd h.symm (hne y)
  | some x =>
      cases b with
      | none => exact absurd h (hne x)
      | some y => exact congrArg some (AccountId.eq_of_toList h)

/-- Where one tail of a store message ends before another, the other's condition would hold a colon before a
    named value that no quote precedes. -/
theorem no_overhang {front front' extra : List Char} {vault' : Option AccountId} {access access' : AccessCondition}
    (hfront : front' ++ ':' :: (((vault'.map AccountId.name).getD "").toList ++ [':']) = front ++ extra)
    (hjson : access.toJson.toList = extra ++ access'.toJson.toList) : extra = [] := by
  by_contra hne
  obtain ⟨body, last, rfl⟩ := (List.eq_nil_or_concat extra).resolve_left hne
  rw [List.concat_eq_append] at *
  -- the overhang ends with the colon before the shorter condition
  have hlast : front' ++ ':' :: ((vault'.map AccountId.name).getD "").toList = front ++ body ∧ last = ':' := by
    have h : (front' ++ ':' :: ((vault'.map AccountId.name).getD "").toList) ++ [':']
        = (front ++ body) ++ [last] := by
      simpa [List.append_assoc] using hfront
    obtain ⟨hinit, hlast⟩ := List.append_inj' h rfl
    exact ⟨hinit, (List.cons.inj hlast).1.symm⟩
  obtain ⟨hinit, rfl⟩ := hlast
  rcases List.eq_nil_or_concat body with rfl | ⟨body, c, rfl⟩
  · -- a condition does not start with a colon
    have hopens := opensNamed_toJson access
    rw [hjson] at hopens
    exact hopens
  · rw [List.concat_eq_append] at *
    have hquote : c = '"' := by
      have hok := colonsOk_toJson access 'x'
      rw [hjson, List.append_assoc, List.append_assoc] at hok
      exact Json.ColonsOk.at_split hok (opensNamed_toJson access')
    -- but what stands before that colon is the vault, or the colon before it
    have hmem : c ∈ ':' :: ((vault'.map AccountId.name).getD "").toList := by
      have hlast := congrArg List.getLast? hinit
      rw [← List.append_assoc, List.getLast?_concat, List.getLast?_append_cons] at hlast
      exact List.mem_of_getLast? hlast
    rcases List.mem_cons.mp hmem with hc | hc
    · rw [hc] at hquote
      exact absurd hquote (by decide)
    · exact not_mem_vault (Or.inr hquote) vault' hc

/-- The tail of a store message: the ciphertext may hold anything, and the fields behind it say where it ends. -/
theorem cut_tail {data data' : List Char} {payer payer' : AccountId} {vault vault' : Option AccountId}
    {access access' : AccessCondition}
    (h : data ++ ':' :: (payer.name.toList ++ ':' :: (((vault.map AccountId.name).getD "").toList ++ ':' ::
        access.toJson.toList))
      = data' ++ ':' :: (payer'.name.toList ++ ':' :: (((vault'.map AccountId.name).getD "").toList ++ ':' ::
        access'.toJson.toList))) :
    data = data' ∧ payer = payer' ∧ vault = vault' ∧ access = access' := by
  have hfront : ∀ {d : List Char} {p : AccountId} {v : Option AccountId} {j : List Char},
      d ++ ':' :: (p.name.toList ++ ':' :: (((v.map AccountId.name).getD "").toList ++ ':' :: j))
        = ((d ++ ':' :: p.name.toList) ++ ':' :: (((v.map AccountId.name).getD "").toList ++ [':'])) ++ j := by
    intro d p v j
    simp only [List.append_assoc, List.cons_append, List.nil_append]
  rw [hfront, hfront] at h
  have hequal : access.toJson.toList = access'.toJson.toList ∧
      (data ++ ':' :: payer.name.toList) ++ ':' :: (((vault.map AccountId.name).getD "").toList ++ [':'])
        = (data' ++ ':' :: payer'.name.toList) ++ ':' :: (((vault'.map AccountId.name).getD "").toList ++ [':']) := by
    rcases List.append_eq_append_iff.mp h with ⟨extra, hlong, hjson⟩ | ⟨extra, hlong, hjson⟩
    · obtain rfl := no_overhang hlong hjson
      exact ⟨by simpa using hjson, by simpa using hlong.symm⟩
    · obtain rfl := no_overhang hlong hjson
      exact ⟨by simpa using hjson.symm, by simpa using hlong⟩
  obtain ⟨hjson, hfields⟩ := hequal
  rw [← List.cons_append, ← List.cons_append, ← List.append_assoc, ← List.append_assoc] at hfields
  obtain ⟨hbefore, hvault⟩ := cut_last (not_mem_vault (Or.inl rfl) vault) (not_mem_vault (Or.inl rfl) vault')
    (List.append_cancel_right hfields)
  obtain ⟨hdata, hpayer⟩ := cut_last (colon_not_mem_accountName payer) (colon_not_mem_accountName payer') hbefore
  exact ⟨hdata, AccountId.eq_of_toList hpayer, vault_inj hvault,
    toJson_inj (String.toList_inj.mp hjson)⟩

/-- **A store message says one thing.** -/
theorem secretStoreMessage_inj {agent agent' : String} {accessor accessor' : SecretAccessor}
    {profile profile' data data' : String} {payer payer' : AccountId} {vault vault' : Option AccountId}
    {access access' : AccessCondition} (hagent : KeyShaped agent) (hagent' : KeyShaped agent')
    (hbound : accessor.Bound) (hbound' : accessor'.Bound) (hprofile : ':' ∉ profile.toList)
    (hprofile' : ':' ∉ profile'.toList)
    (h : secretStoreMessage agent accessor profile data payer vault access
      = secretStoreMessage agent' accessor' profile' data' payer' vault' access') :
    agent = agent' ∧ accessor = accessor' ∧ profile = profile' ∧ data = data' ∧ payer = payer' ∧
      vault = vault' ∧ access = access' := by
  have hl := congrArg String.toList h
  rw [secretStoreMessage_toList, secretStoreMessage_toList] at hl
  obtain ⟨hkey, hbinding, hrest⟩ := cut_binding hagent hagent' (List.append_cancel_left hl)
  obtain ⟨hprof, htail⟩ := cut_first hprofile hprofile' (List.cons.inj hrest).2
  obtain ⟨hdata, hpayer, hvault, haccess⟩ := cut_tail htail
  exact ⟨hkey, accessorBinding_inj hbound hbound' hbinding, String.toList_inj.mp hprof,
    String.toList_inj.mp hdata, hpayer, hvault, haccess⟩

end Outlayer
