import Outlayer.Keystore.AgentSecrets
import Outlayer.Keystore.DeclaredKeys
import Outlayer.Keystore.Correctness.SecretSeeds

/-!
# `Keystore.Correctness.DerivedKeys` — keys that are handed out and keys that stay

Under one master a key is what its seed is. Seeds of different families are told apart by their first characters, and
seeds of one family by their segments: the fields of a declared key hold no colon, and neither does a wallet's id. The
exported keys of a wallet are the exception. Their chain and path are any texts, so two of them are one key when the
texts run together alike, and a secret whose own seed begins like a wallet's may share a key with one of them.
-/

namespace Outlayer
open Text Checked Collections Fields

namespace Keystore

/-! ## Fields without colons -/

theorem colon_not_mem_keyPath (path : KeyPath) : ':' ∉ path.text.toList := by
  intro hmem
  have hvalid := path.valid
  simp only [isKeyPath, Bool.and_eq_true] at hvalid
  exact absurd (List.all_eq_true.mp hvalid.2 ':' hmem) (by decide)

theorem colon_not_mem_wasmSha256 (hash : WasmSha256) : ':' ∉ hash.text.toList := by
  intro hmem
  have hvalid := hash.valid
  simp only [isWasmSha256, Bool.and_eq_true] at hvalid
  exact absurd (List.all_eq_true.mp hvalid.2 ':' hmem) (by decide)

theorem colon_not_mem_projectUuid (uuid : ProjectUuid) : ':' ∉ uuid.text.toList := by
  intro hmem
  have hvalid := uuid.valid
  simp only [isProjectUuid, Bool.and_eq_true] at hvalid
  obtain ⟨⟨-, hhead⟩, htail⟩ := hvalid
  cases hlist : uuid.text.toList with
  | nil =>
      rw [hlist] at hmem
      cases hmem
  | cons c cs =>
      rw [hlist] at hmem hhead htail
      rcases List.mem_cons.mp hmem with rfl | hmem
      · exact absurd hhead (by simp)
      · exact absurd (List.all_eq_true.mp htail ':' hmem) (by decide)

theorem colon_not_mem_binding (binding : Binding) : ':' ∉ binding.text.toList := by
  cases binding with
  | project uuid => exact colon_not_mem_projectUuid uuid
  | wasm hash => exact colon_not_mem_wasmSha256 hash

/-- Parts without colons are read back from the text they are joined to. -/
theorem colonJoin_inj {parts parts' : List String} (hne : parts ≠ []) (hne' : parts' ≠ [])
    (hparts : ∀ p ∈ parts, ':' ∉ p.toList) (hparts' : ∀ p ∈ parts', ':' ∉ p.toList)
    (h : colonJoin parts = colonJoin parts') : parts = parts' := by
  have hsplit : ∀ {ps : List String}, ps ≠ [] → (∀ p ∈ ps, ':' ∉ p.toList) →
      (colonJoin ps).toList.splitOn ':' = ps.map String.toList := by
    intro ps hne hps
    rw [colonJoin, String.toList_ofList]
    refine List.splitOn_intercalate ':' ?_ (by simpa using hne)
    intro l hl
    obtain ⟨p, hp, rfl⟩ := List.mem_map.mp hl
    exact hps p hp
  have hlists := congrArg (fun s : String => s.toList.splitOn ':') h
  simp only [hsplit hne hparts, hsplit hne' hparts'] at hlists
  exact List.map_injective_iff.mpr (fun _ _ => String.toList_inj.mp) hlists

/-! ## Declared keys -/

/-- What a key of a bound request is bound to. -/
def BoundKeys.boundTo (b : BoundKeys) (key : BoundKey) : Option Binding :=
  match key.bind with
  | .project => b.project.map fun p => .project p.uuid
  | .wasm    => some (.wasm b.wasmSha256)

/-- The segments that say whose key it is. -/
def callerParts (caller : KeyCaller) (account : Option AccountId) : List String :=
  caller.label :: (account.map AccountId.name).toList

/-- The segments of a declared key's string. -/
def declaredParts (kind : KeyKind) (binding : Binding) (caller : KeyCaller) (account : Option AccountId)
    (path : KeyPath) : List String :=
  kind.typeSegment.toList ++ [binding.kind.label, binding.text] ++ callerParts caller account ++ [path.text]

/-- A key whose string is its fields, joined under the root of its family. -/
structure Spelled (b : BoundKeys) (key : BoundKey) (binding : Binding) : Prop where
  bound : b.boundTo key = some binding
  kind : binding.kind = key.bind
  owned : key.account.isSome = key.caller.accountKind.isSome
  text : key.input.text =
    key.kind.family.root ++ colonJoin (declaredParts key.kind binding key.caller key.account key.path)

theorem fromParts_ok {W : Wording} {kind : KeyKind} {binding : Binding} {caller : List String} {path : KeyPath}
    {input : DerivationInput} (h : DerivationInput.fromParts W kind binding caller path = .ok input) :
    input.text = kind.family.root ++ colonJoin (kind.typeSegment.toList ++ [binding.kind.label, binding.text] ++
      caller ++ [path.text]) := by
  unfold DerivationInput.fromParts at h
  dsimp only at h
  split at h
  · cases h
  · rw [← Except.ok.inj h]

theorem inputOf_ok {W : Wording} {key : ValidatedKey} {binding : Binding} {input : DerivationInput}
    (h : inputOf W key binding = .ok input) :
    key.account.isSome = key.caller.accountKind.isSome ∧
      input.text = key.kind.family.root ++
        colonJoin (declaredParts key.kind binding key.caller key.account key.path) := by
  unfold inputOf at h
  split at h
  · next caller account hcaller haccount =>
      have hlabel : key.caller.label = caller.label := by
        cases hc : key.caller <;> rw [hc] at hcaller <;> cases hcaller <;> rfl
      rw [haccount, hcaller, fromParts_ok h, declaredParts, callerParts, hlabel]
      exact ⟨rfl, rfl⟩
  · next hcaller haccount =>
      have hnone : key.caller = .none := by
        cases hc : key.caller <;> rw [hc] at hcaller <;> cases hcaller
      simp only [DerivationInput.ofNoCaller, bind_eq_ok] at h
      obtain ⟨_, -, h⟩ := h
      rw [haccount, hcaller, fromParts_ok h, declaredParts, callerParts, hnone]
      exact ⟨rfl, rfl⟩
  · exact absurd h throw_ne_ok

theorem bindKey_spelled {W : Wording} {b : BoundKeys} {key : ValidatedKey} {bound : BoundKey}
    (h : bindKey W b.project b.wasmSha256 key = .ok bound) : ∃ binding, Spelled b bound binding := by
  simp only [bindKey, bind_eq_ok, pure_eq_ok] at h
  obtain ⟨binding, hbinding, input, hinput, rfl⟩ := h
  obtain ⟨howned, htext⟩ := inputOf_ok hinput
  refine ⟨binding, ?_, ?_, howned, htext⟩
  all_goals
    unfold bindingOf at hbinding
    split at hbinding
  · next p hbind hproject =>
      rw [pure_eq_ok] at hbinding
      rw [BoundKeys.boundTo, hbind, hproject, ← hbinding]
      rfl
  · next hbind hproject =>
      rw [pure_eq_ok] at hbinding
      rw [BoundKeys.boundTo, hbind, ← hbinding]
  · exact absurd hbinding throw_ne_ok
  · next p hbind hproject =>
      rw [pure_eq_ok] at hbinding
      rw [hbind, ← hbinding]
      rfl
  · next hbind hproject =>
      rw [pure_eq_ok] at hbinding
      rw [hbind, ← hbinding]
      rfl
  · exact absurd hbinding throw_ne_ok

theorem mem_bindKeys {W : Wording} {project : Option BoundProject} {hash : WasmSha256} {keys : List ValidatedKey}
    {bounds : List BoundKey} (h : bindKeys W project hash keys = .ok bounds) {bound : BoundKey}
    (hmem : bound ∈ bounds) : ∃ key ∈ keys, bindKey W project hash key = .ok bound := by
  induction keys generalizing bounds with
  | nil =>
      rw [bindKeys, pure_eq_ok] at h
      rw [← h] at hmem
      cases hmem
  | cons key keys ih =>
      simp only [bindKeys, bind_eq_ok, pure_eq_ok] at h
      obtain ⟨first, hfirst, more, hmore, rfl⟩ := h
      rcases List.mem_cons.mp hmem with rfl | hmem
      · exact ⟨key, List.mem_cons_self, hfirst⟩
      · obtain ⟨k, hk, hbound⟩ := ih hmore hmem
        exact ⟨k, List.mem_cons_of_mem key hk, hbound⟩

/-- Every key of a bound request is spelled by its fields. -/
theorem spelled_of_bind {W : Wording} {v : ValidatedKeys} {uuid : Option ProjectUuid} {b : BoundKeys}
    (h : v.bind W uuid = .ok b) {key : BoundKey} (hmem : key ∈ b.keys) : ∃ binding, Spelled b key binding := by
  simp only [ValidatedKeys.bind, bind_eq_ok, pure_eq_ok] at h
  obtain ⟨project, -, keys, hkeys, rfl⟩ := h
  obtain ⟨k, -, hbound⟩ := mem_bindKeys hkeys hmem
  exact bindKey_spelled hbound

/-- The bound keys of a request that was validated. -/
inductive Issued (W : Wording) : BoundKeys → Prop
  | bind {D : Type} [KeyDeclaration D] {projectId : Option String} {accountId : String}
      {predecessorId executedWasmSha256 : Option String} {keys : List D} {v : ValidatedKeys}
      {uuid : Option ProjectUuid} {b : BoundKeys}
      (hvalid : validateRequest W projectId accountId predecessorId executedWasmSha256 keys = .ok v)
      (hbound : v.bind W uuid = .ok b) : Issued W b

theorem Issued.spelled {W : Wording} {b : BoundKeys} (h : Issued W b) {key : BoundKey} (hmem : key ∈ b.keys) :
    ∃ binding, Spelled b key binding := by
  cases h with
  | bind hvalid hbound => exact spelled_of_bind hbound hmem

/-! ### The fields are read back -/

theorem declaredParts_plain (kind : KeyKind) (binding : Binding) (caller : KeyCaller) (account : Option AccountId)
    (path : KeyPath) : ∀ p ∈ declaredParts kind binding caller account path, ':' ∉ p.toList := by
  intro p hp
  simp only [declaredParts, callerParts, List.mem_append, List.mem_cons, List.not_mem_nil, or_false,
    Option.mem_toList] at hp
  rcases hp with ((hp | hp | hp) | hp | hp) | hp
  · cases kind with
    | signing keyType =>
        obtain rfl := Option.some.inj hp
        cases keyType <;> decide
    | encryption => cases hp
  · rw [hp]
    cases binding.kind <;> decide
  · rw [hp]
    exact colon_not_mem_binding binding
  · rw [hp]
    cases caller <;> decide
  · obtain ⟨a, -, rfl⟩ := Option.map_eq_some_iff.mp hp
    exact colon_not_mem_accountName a
  · rw [hp]
    exact colon_not_mem_keyPath path

theorem KeyBinding.label_inj {a b : KeyBinding} (h : a.label = b.label) : a = b := by
  cases a <;> cases b <;> first | rfl | exact absurd h (by decide)

theorem Binding.eq_of_text {binding binding' : Binding} (hkind : binding.kind.label = binding'.kind.label)
    (htext : binding.text = binding'.text) : binding = binding' := by
  cases binding with
  | project uuid =>
      cases binding' with
      | project uuid' =>
          obtain ⟨text, valid⟩ := uuid
          obtain ⟨text', valid'⟩ := uuid'
          obtain rfl : text = text' := htext
          rfl
      | wasm hash => cases KeyBinding.label_inj hkind
  | wasm hash =>
      cases binding' with
      | project uuid => cases KeyBinding.label_inj hkind
      | wasm hash' =>
          obtain ⟨text, valid⟩ := hash
          obtain ⟨text', valid'⟩ := hash'
          obtain rfl : text = text' := htext
          rfl

theorem KeyPath.eq_of_text {path path' : KeyPath} (h : path.text = path'.text) : path = path' := by
  obtain ⟨text, valid⟩ := path
  obtain ⟨text', valid'⟩ := path'
  obtain rfl : text = text' := h
  rfl

/-- The segments after the binding: whose key it is, and its path. -/
theorem callerParts_inj {caller caller' : KeyCaller} {account account' : Option AccountId} {path path' : KeyPath}
    (howned : account.isSome = caller.accountKind.isSome) (howned' : account'.isSome = caller'.accountKind.isSome)
    (h : callerParts caller account ++ [path.text] = callerParts caller' account' ++ [path'.text]) :
    caller = caller' ∧ account = account' ∧ path = path' := by
  obtain ⟨hcallers, hpath⟩ := List.append_inj' h rfl
  have hpath := KeyPath.eq_of_text (List.cons.inj hpath).1
  obtain ⟨hlabel, haccounts⟩ := List.cons.inj hcallers
  have hcaller : caller = caller' := by
    cases caller <;> cases caller' <;> first | rfl | exact absurd hlabel (by decide)
  have haccount : account = account' := by
    cases account <;> cases account' <;> first | rfl | (cases haccounts) | skip
    exact congrArg some (AccountId.eq_of_name (List.cons.inj haccounts).1)
  exact ⟨hcaller, haccount, hpath⟩

/-- The segments of a declared key determine its fields, within a family. -/
theorem declaredParts_inj {kind kind' : KeyKind} {binding binding' : Binding} {caller caller' : KeyCaller}
    {account account' : Option AccountId} {path path' : KeyPath} (hfamily : kind.family = kind'.family)
    (howned : account.isSome = caller.accountKind.isSome) (howned' : account'.isSome = caller'.accountKind.isSome)
    (h : declaredParts kind binding caller account path = declaredParts kind' binding' caller' account' path') :
    kind = kind' ∧ binding = binding' ∧ caller = caller' ∧ account = account' ∧ path = path' := by
  have hrest : ∀ {tail tail' : List String},
      [binding.kind.label, binding.text] ++ tail = [binding'.kind.label, binding'.text] ++ tail' →
      binding = binding' ∧ tail = tail' := by
    intro tail tail' h
    obtain ⟨hkind, h⟩ := List.cons.inj h
    obtain ⟨htext, htail⟩ := List.cons.inj h
    exact ⟨Binding.eq_of_text hkind htext, htail⟩
  simp only [declaredParts, List.append_assoc] at h
  cases kind with
  | signing keyType =>
      cases kind' with
      | signing keyType' =>
          obtain ⟨hlabel, h⟩ := List.cons.inj h
          have htype : keyType = keyType' := by
            cases keyType <;> cases keyType' <;> first | rfl | exact absurd hlabel (by decide)
          obtain ⟨hbinding, h⟩ := hrest h
          obtain ⟨hcaller, haccount, hpath⟩ := callerParts_inj howned howned' h
          exact ⟨congrArg KeyKind.signing htype, hbinding, hcaller, haccount, hpath⟩
      | encryption => cases hfamily
  | encryption =>
      cases kind' with
      | signing keyType' => cases hfamily
      | encryption =>
          obtain ⟨hbinding, h⟩ := hrest h
          obtain ⟨hcaller, haccount, hpath⟩ := callerParts_inj howned howned' h
          exact ⟨rfl, hbinding, hcaller, haccount, hpath⟩

/-! ## Roots -/

/-- The text begins with `root`. -/
def Rooted (root seed : String) : Prop := root.toList <+: seed.toList

theorem rooted_append (root rest : String) : Rooted root (root ++ rest) := by
  rw [Rooted, String.toList_append]
  exact List.prefix_append _ _

theorem rooted_append_of {root pre rest : String} (h : root.toList <+: pre.toList) : Rooted root (pre ++ rest) := by
  rw [Rooted, String.toList_append]
  exact h.trans (List.prefix_append _ _)

/-- Two roots of one text continue each other. -/
theorem roots_compare {root root' seed : String} (h : Rooted root seed) (h' : Rooted root' seed) :
    root.toList <+: root'.toList ∨ root'.toList <+: root.toList := List.prefix_or_prefix_of_prefix h h'

theorem unreserved_not_rooted {root seed : String} (h : Unreserved seed) (hroot : root ∈ declaredKeyRoots) :
    ¬ Rooted root seed := by
  intro hrooted
  have hfalse := h root hroot
  rw [startsWith, decide_eq_false_iff_not] at hfalse
  exact hfalse hrooted

theorem family_of_text {kind kind' : KeyKind} {rest rest' : String}
    (h : kind.family.root ++ rest = kind'.family.root ++ rest') : kind.family = kind'.family := by
  have hroots := roots_compare (rooted_append kind.family.root rest) (h ▸ rooted_append kind'.family.root rest')
  cases hk : kind.family <;> cases hk' : kind'.family <;> first | rfl | skip
  all_goals
    rw [hk, hk'] at hroots
    exact absurd hroots (by decide)

/-- **A declared key's string determines its fields**, over all requests that are validated and bound. -/
theorem derivationInput_inj {b b' : BoundKeys} {key key' : BoundKey} {binding binding' : Binding}
    (h : Spelled b key binding) (h' : Spelled b' key' binding') (htext : key.input.text = key'.input.text) :
    key.kind = key'.kind ∧ binding = binding' ∧ key.caller = key'.caller ∧ key.account = key'.account ∧
      key.path = key'.path := by
  rw [h.text, h'.text] at htext
  have hfamily := family_of_text htext
  rw [hfamily, String.append_right_inj] at htext
  have hne : ∀ (k : KeyKind) (bd : Binding) (c : KeyCaller) (a : Option AccountId) (p : KeyPath),
      declaredParts k bd c a p ≠ [] := by simp [declaredParts]
  exact declaredParts_inj hfamily h.owned h'.owned (colonJoin_inj (hne _ _ _ _ _) (hne _ _ _ _ _)
    (declaredParts_plain _ _ _ _ _) (declaredParts_plain _ _ _ _ _) htext)

/-! ## Wallet keys -/

/-- The chains a wallet has keys for; the EVM chains are one. -/
inductive ChainFamily
  | near
  | solana
  | evm
deriving DecidableEq

/-- A family's word in a seed. -/
def ChainFamily.segment : ChainFamily → String
  | .near   => "near"
  | .solana => "solana"
  | .evm    => "evm"

/-- The family of a chain, by its name in any letter case. -/
def chainFamily (N : ChainNames) (U : Unicode) (chain : String) : ChainFamily :=
  if N.isEvmChain (toLowercase U chain) then .evm
  else if N.isSolanaChain (toLowercase U chain) then .solana
  else .near

/-- The seed of a wallet's key, by what tells the keys apart. -/
def walletKeySeed (walletId : String) (family : ChainFamily) : Option String → String
  | none         => "wallet:" ++ walletId ++ ":" ++ family.segment
  | some subPath => subkeySeed walletId subPath

theorem validateSubPath_ok {N : ChainNames} {raw p : Option String} (h : validateSubPath N raw = .ok p) :
    p = raw.filter (· ≠ "") := by
  unfold validateSubPath at h
  split at h
  · next hnone => rw [hnone, ← Except.ok.inj h]
  · next q hsome =>
      split at h
      · rw [hsome, ← Except.ok.inj h]
      · cases h

theorem deriveAddressSeed_ok {N : ChainNames} {U : Unicode} {walletId chain : String} {subPath : Option String}
    {seed : String} (h : deriveAddressSeed N U walletId chain subPath = .ok seed) :
    ':' ∉ walletId.toList ∧ (subPath.filter (· ≠ "") = none ∨ chainFamily N U chain = .evm) ∧
      seed = walletKeySeed walletId (chainFamily N U chain) (subPath.filter (· ≠ "")) := by
  unfold deriveAddressSeed at h
  obtain ⟨_, hid, h⟩ := bind_ok h
  obtain ⟨path, hpath, h⟩ := bind_ok h
  obtain ⟨_, hevm, h⟩ := bind_ok h
  obtain ⟨_, hchain, h⟩ := bind_ok h
  have hevm := demand_ok hevm
  have hchain := demand_ok hchain
  obtain rfl := validateSubPath_ok hpath
  refine ⟨(validateWalletId_ok hid).2, ?_, ?_⟩
  · refine hevm.imp_right fun hevm => ?_
    rw [chainFamily, if_pos hevm]
  · rw [← Except.ok.inj h]
    cases subPath.filter (· ≠ "") with
    | some p => rfl
    | none =>
        show walletSeed N walletId (toLowercase U chain) = "wallet:" ++ walletId ++ ":" ++ _
        unfold walletSeed chainFamily
        by_cases hisEvm : N.isEvmChain (toLowercase U chain) = true
        · rw [if_pos hisEvm, if_pos hisEvm, @String.append_assoc ("wallet:" ++ walletId)]
          rfl
        · rw [if_neg hisEvm, if_neg hisEvm]
          by_cases hisSolana : N.isSolanaChain (toLowercase U chain) = true
          · rw [if_pos hisSolana, if_pos hisSolana, @String.append_assoc ("wallet:" ++ walletId)]
            rfl
          · rw [if_neg hisSolana, if_neg hisSolana]
            rcases hchain with hnear | hsol | hev
            · rw [hnear]
              rfl
            · exact absurd hsol hisSolana
            · exact absurd hev hisEvm

/-- Two texts under one root, each an id without colons and a rest, are equal by parts. -/
theorem rooted_parts_inj {root walletId walletId' rest rest' : String} (hid : ':' ∉ walletId.toList)
    (hid' : ':' ∉ walletId'.toList)
    (h : root ++ walletId ++ ":" ++ rest = root ++ walletId' ++ ":" ++ rest') :
    walletId = walletId' ∧ rest = rest' := by
  simp only [String.append_assoc, String.append_right_inj] at h
  have hlists := congrArg String.toList h
  simp only [String.toList_append] at hlists
  obtain ⟨hids, hrests⟩ := cut_first hid hid' hlists
  exact ⟨String.toList_inj.mp hids, String.toList_inj.mp hrests⟩

theorem ChainFamily.segment_inj {a b : ChainFamily} (h : a.segment = b.segment) : a = b := by
  cases a <;> cases b <;> first | rfl | exact absurd h (by decide)

theorem walletKeySeed_inj {walletId walletId' : String} {family family' : ChainFamily}
    {subPath subPath' : Option String} (hid : ':' ∉ walletId.toList) (hid' : ':' ∉ walletId'.toList)
    (hevm : subPath = none ∨ family = .evm) (hevm' : subPath' = none ∨ family' = .evm)
    (h : walletKeySeed walletId family subPath = walletKeySeed walletId' family' subPath') :
    walletId = walletId' ∧ family = family' ∧ subPath = subPath' := by
  have hmain : ∀ w f, Rooted "wallet:" (walletKeySeed w f none) := by
    intro w f
    show Rooted "wallet:" ("wallet:" ++ w ++ ":" ++ f.segment)
    rw [String.append_assoc, String.append_assoc]
    exact rooted_append _ _
  have hsub : ∀ w f p, Rooted "subkey:" (walletKeySeed w f (some p)) := by
    intro w f p
    show Rooted "subkey:" ("subkey:" ++ w ++ ":evm:" ++ p)
    rw [String.append_assoc, String.append_assoc]
    exact rooted_append _ _
  cases subPath with
  | none =>
      cases subPath' with
      | none =>
          obtain ⟨hids, hsegments⟩ := rooted_parts_inj hid hid' h
          exact ⟨hids, ChainFamily.segment_inj hsegments, rfl⟩
      | some p' => exact absurd (roots_compare (hmain walletId family) (h ▸ hsub walletId' family' p')) (by decide)
  | some p =>
      cases subPath' with
      | none => exact absurd (roots_compare (hmain walletId' family') (h ▸ hsub walletId family p)) (by decide)
      | some p' =>
          have hparts : ∀ w q : String, "subkey:" ++ w ++ ":" ++ ("evm:" ++ q) = "subkey:" ++ w ++ ":evm:" ++ q := by
            intro w q
            simp only [String.append_assoc]
            rfl
          obtain ⟨hids, hpaths⟩ := rooted_parts_inj hid hid' ((hparts _ _).trans (h.trans (hparts _ _).symm))
          rw [String.append_right_inj] at hpaths
          refine ⟨hids, ?_, congrArg some hpaths⟩
          rw [hevm.resolve_left (by simp), hevm'.resolve_left (by simp)]

theorem ephemeralSeed_ok {U : Unicode} {walletId chain subPath seed : String}
    (h : ephemeralSeed U walletId chain subPath = .ok seed) :
    ':' ∉ walletId.toList ∧ seed = "wallet:" ++ walletId ++ ":" ++ (toLowercase U chain ++ ":" ++ subPath) := by
  unfold ephemeralSeed at h
  obtain ⟨_, hid, h⟩ := bind_ok h
  obtain ⟨_, -, h⟩ := bind_ok h
  refine ⟨(validateWalletId_ok hid).2, ?_⟩
  rw [← Except.ok.inj h]
  simp only [String.append_assoc]

/-! ## Keys handed out and keys kept -/

/-- What the bytes the keystore hands out are computed from. -/
inductive HandedOut (W : Wording) : String → Prop
  | ephemeral {walletId chain subPath seed : String} (h : ephemeralSeed W.unicode walletId chain subPath = .ok seed) :
      HandedOut W seed
  | declared {b : BoundKeys} {key : BoundKey} (h : Issued W b) (hmem : key ∈ b.keys) : HandedOut W key.input.text
  | task (project : ProjectUuid) (owner : AccountId) : HandedOut W (taskKeyInput project owner)

/-- A seed of a secret that the keystore derives from: of a stored row, of an update, of an agent's secret, or spelled
    by a caller. -/
inductive AdmittedSeed : String → Prop
  | row {H : Host} {s : SecretStore} {q : RowRequest} {row : SecretProfileView} {vault : Option AccountId}
      {seed : String} (hrow : q.lookup H s = some ⟨some row, vault⟩) (h : q.decryptSeed row = .ok seed) :
      AdmittedSeed seed
  | update {accessor : SecretAccessor} {owner profile seed : String}
      (h : requestSeed accessor owner profile = .ok seed) : AdmittedSeed seed
  | agent (target : AgentSecretTarget) (agentAccount : String) : AdmittedSeed (target.seed agentAccount)
  | spelled {endpoint : SeedEndpoint} {text seed : String} (h : endpoint.seed text = .ok seed) : AdmittedSeed seed

/-- What the keys that stay in the keystore are computed from, those of legacy secrets left out. -/
inductive Kept (N : ChainNames) (U : Unicode) : String → Prop
  | wallet {walletId chain : String} {subPath : Option String} {seed : String}
      (h : deriveAddressSeed N U walletId chain subPath = .ok seed) : Kept N U seed
  | vrf : Kept N U vrfSeed
  | vault (vaultId : AccountId) : Kept N U (vaultTeeKeypairSeed vaultId)
  | vaultMaster (vaultId : AccountId) : Kept N U (secretPathInput (vaultMasterPathSeed vaultId))
  | walletPolicy (walletId : String) : Kept N U (walletPolicySeed walletId)
  | storage (projectUuid : Option String) (wasmHash accountId : String) :
      Kept N U (storageSeed projectUuid wasmHash accountId)
  | ecies (seed : String) : Kept N U (eciesInput seed)
  | secretPath (seed : String) : Kept N U (secretPathInput seed)

/-- The roots under which declared keys and task keys are derived. -/
def declaredRoots : List String := ["signing-key:v1:", "encryption-key:v1:", "task-key:v1:"]

/-- The roots under which nothing is handed out. -/
def keptRoots : List String :=
  ["subkey:", "vrf-key", "outlayer.near:", "wallet-policy:", "storage:", "ecies:", "secret-path:"]

theorem handedOut_rooted {W : Wording} {seed : String} (h : HandedOut W seed) :
    (∃ walletId chain subPath, ephemeralSeed W.unicode walletId chain subPath = .ok seed) ∨
      ∃ root ∈ declaredRoots, Rooted root seed := by
  cases h with
  | ephemeral h => exact .inl ⟨_, _, _, h⟩
  | declared hissued hmem =>
      obtain ⟨binding, hspelled⟩ := hissued.spelled hmem
      refine .inr ⟨_, ?_, hspelled.text ▸ rooted_append _ _⟩
      cases hkind : KeyKind.family _ <;> decide
  | task project owner =>
      refine .inr ⟨"task-key:v1:", by decide, ?_⟩
      rw [taskKeyInput, String.append_assoc, String.append_assoc]
      exact rooted_append _ _

theorem kept_rooted {N : ChainNames} {U : Unicode} {seed : String} (h : Kept N U seed) :
    (∃ walletId family, ':' ∉ walletId.toList ∧ seed = walletKeySeed walletId family none) ∨
      ∃ root ∈ keptRoots, Rooted root seed := by
  cases h with
  | wallet h =>
      obtain ⟨hid, -, rfl⟩ := deriveAddressSeed_ok h
      cases subPath : Option.filter _ _ with
      | none => exact .inl ⟨_, _, hid, rfl⟩
      | some p =>
          refine .inr ⟨"subkey:", by decide, ?_⟩
          rw [walletKeySeed, subkeySeed, String.append_assoc, String.append_assoc]
          exact rooted_append _ _
  | vrf => exact .inr ⟨"vrf-key", by decide, List.prefix_refl _⟩
  | vault vaultId => exact .inr ⟨"outlayer.near:", by decide, rooted_append _ _⟩
  | vaultMaster vaultId => exact .inr ⟨"secret-path:", by decide, rooted_append _ _⟩
  | walletPolicy walletId => exact .inr ⟨"wallet-policy:", by decide, rooted_append _ _⟩
  | storage projectUuid wasmHash accountId =>
      refine .inr ⟨"storage:", by decide, ?_⟩
      cases projectUuid with
      | none =>
          rw [storageSeed, String.append_assoc, String.append_assoc]
          exact rooted_append_of (by decide)
      | some uuid =>
          rw [storageSeed, String.append_assoc, String.append_assoc]
          exact rooted_append _ _
  | ecies seed => exact .inr ⟨"ecies:", by decide, rooted_append _ _⟩
  | secretPath seed => exact .inr ⟨"secret-path:", by decide, rooted_append _ _⟩

/-- No seed of a secret is a declared key's. -/
theorem admitted_not_reserved {seed : String} (h : AdmittedSeed seed) : Unreserved seed := by
  cases h with
  | row hrow h => exact decryptSeed_not_reserved h
  | update h => exact requestSeed_not_reserved h
  | agent target agentAccount =>
      cases target with
      | project projectId =>
          rw [AgentSecretTarget.seed, String.append_assoc, String.append_assoc]
          exact not_reserved (by decide)
      | wasmHash hash =>
          rw [AgentSecretTarget.seed, String.append_assoc, String.append_assoc]
          exact not_reserved (by decide)
  | spelled h => exact endpoint_not_reserved h

theorem ephemeral_rooted {U : Unicode} {walletId chain subPath seed : String}
    (h : ephemeralSeed U walletId chain subPath = .ok seed) : Rooted "wallet:" seed := by
  rw [(ephemeralSeed_ok h).2, String.append_assoc, String.append_assoc]
  exact rooted_append _ _

/-- An exported key has a path after its chain, and a wallet's own key has none. -/
theorem ephemeral_ne_wallet {U : Unicode} {walletId walletId' chain subPath seed : String} {family : ChainFamily}
    (h : ephemeralSeed U walletId chain subPath = .ok seed) (hid' : ':' ∉ walletId'.toList) :
    seed ≠ walletKeySeed walletId' family none := by
  intro heq
  obtain ⟨hid, hseed⟩ := ephemeralSeed_ok h
  obtain ⟨-, hsegment⟩ := rooted_parts_inj hid hid' (hseed.symm.trans heq)
  have hcolon : ':' ∈ family.segment.toList := by
    rw [← hsegment]
    simp [String.toList_append]
  cases family <;> exact absurd hcolon (by decide)

/-- What is handed out is computed from no input of a key that is kept. -/
theorem handedOut_not_kept {W : Wording} {N : ChainNames} {seed : String} (h : HandedOut W seed) :
    ¬ Kept N W.unicode seed := by
  have hroots : ∀ root ∈ "wallet:" :: declaredRoots, ∀ root' ∈ keptRoots,
      ¬ (root.toList <+: root'.toList ∨ root'.toList <+: root.toList) := by decide
  have hwallet : ∀ root ∈ declaredRoots, ¬ (root.toList <+: "wallet:".toList ∨ "wallet:".toList <+: root.toList) := by
    decide
  intro hkept
  rcases kept_rooted hkept with ⟨walletId', family, hid', hkey⟩ | ⟨root', hroot', hrooted'⟩
  · rcases handedOut_rooted h with ⟨walletId, chain, subPath, heph⟩ | ⟨root, hroot, hrooted⟩
    · exact ephemeral_ne_wallet heph hid' hkey
    · refine hwallet root hroot (roots_compare hrooted ?_)
      rw [hkey, walletKeySeed, String.append_assoc, String.append_assoc]
      exact rooted_append _ _
  · rcases handedOut_rooted h with ⟨walletId, chain, subPath, heph⟩ | ⟨root, hroot, hrooted⟩
    · exact hroots _ List.mem_cons_self root' hroot' (roots_compare (ephemeral_rooted heph) hrooted')
    · exact hroots root (List.mem_cons_of_mem _ hroot) root' hroot' (roots_compare hrooted hrooted')

/-- Where what is handed out is a secret's seed, it is an exported key's. -/
theorem handedOut_admitted {W : Wording} {seed : String} (h : HandedOut W seed) (hadmitted : AdmittedSeed seed) :
    ∃ walletId chain subPath, ephemeralSeed W.unicode walletId chain subPath = .ok seed := by
  have hreserved : ∀ root ∈ declaredRoots, ∃ reserved ∈ declaredKeyRoots, reserved.toList <+: root.toList := by decide
  refine (handedOut_rooted h).resolve_right ?_
  rintro ⟨root, hroot, hrooted⟩
  obtain ⟨reserved, hmem, hstart⟩ := hreserved root hroot
  exact unreserved_not_rooted (admitted_not_reserved hadmitted) hmem (hstart.trans hrooted)

/-- The strings of two issued keys are equal exactly when their fields are. -/
theorem issued_text_iff {W : Wording} {b b' : BoundKeys} {key key' : BoundKey} (hb : Issued W b) (hb' : Issued W b')
    (hkey : key ∈ b.keys) (hkey' : key' ∈ b'.keys) :
    key.input.text = key'.input.text ↔
      key.kind = key'.kind ∧ b.boundTo key = b'.boundTo key' ∧ key.caller = key'.caller ∧
        key.account = key'.account ∧ key.path = key'.path := by
  obtain ⟨binding, h⟩ := hb.spelled hkey
  obtain ⟨binding', h'⟩ := hb'.spelled hkey'
  rw [h.bound, h'.bound, Option.some.injEq]
  refine ⟨derivationInput_inj h h', ?_⟩
  rintro ⟨hkind, rfl, hcaller, haccount, hpath⟩
  rw [h.text, h'.text, hkind, hcaller, haccount, hpath]

theorem wallet_seeds_iff {N : ChainNames} {U : Unicode} {walletId walletId' chain chain' : String}
    {subPath subPath' : Option String} {seed seed' : String}
    (h : deriveAddressSeed N U walletId chain subPath = .ok seed)
    (h' : deriveAddressSeed N U walletId' chain' subPath' = .ok seed') :
    seed = seed' ↔ walletId = walletId' ∧ chainFamily N U chain = chainFamily N U chain' ∧
      subPath.filter (· ≠ "") = subPath'.filter (· ≠ "") := by
  obtain ⟨hid, hevm, rfl⟩ := deriveAddressSeed_ok h
  obtain ⟨hid', hevm', rfl⟩ := deriveAddressSeed_ok h'
  refine ⟨walletKeySeed_inj hid hid' hevm hevm', ?_⟩
  rintro ⟨rfl, hfamily, hpath⟩
  rw [hfamily, hpath]

theorem ephemeral_seeds_iff {U : Unicode} {walletId walletId' chain chain' subPath subPath' seed seed' : String}
    (h : ephemeralSeed U walletId chain subPath = .ok seed)
    (h' : ephemeralSeed U walletId' chain' subPath' = .ok seed') :
    seed = seed' ↔ walletId = walletId' ∧
      toLowercase U chain ++ ":" ++ subPath = toLowercase U chain' ++ ":" ++ subPath' := by
  obtain ⟨hid, rfl⟩ := ephemeralSeed_ok h
  obtain ⟨hid', rfl⟩ := ephemeralSeed_ok h'
  refine ⟨rooted_parts_inj hid hid', ?_⟩
  rintro ⟨rfl, htext⟩
  rw [htext]

/-- **Which keys the keystore tells apart.** Under one master, what is handed out is no key that is kept, and is a
    secret's legacy key only where a seed that begins like a wallet's is an exported key's. Declared keys are told
    apart by their fields and wallet keys by wallet, chain family and path. Exported keys are told apart by wallet and
    by chain and path run together. -/
theorem derived_keys_apart (W : Wording) (N : ChainNames) :
    (∀ seed, HandedOut W seed → ¬ Kept N W.unicode seed) ∧
    (∀ seed, HandedOut W seed → AdmittedSeed seed →
      Rooted "wallet:" seed ∧ ∃ walletId chain subPath, ephemeralSeed W.unicode walletId chain subPath = .ok seed) ∧
    (∀ b b' key key', Issued W b → Issued W b' → key ∈ b.keys → key' ∈ b'.keys →
      (key.input.text = key'.input.text ↔
        key.kind = key'.kind ∧ b.boundTo key = b'.boundTo key' ∧ key.caller = key'.caller ∧
          key.account = key'.account ∧ key.path = key'.path)) ∧
    (∀ walletId walletId' chain chain' subPath subPath' seed seed',
      deriveAddressSeed N W.unicode walletId chain subPath = .ok seed →
      deriveAddressSeed N W.unicode walletId' chain' subPath' = .ok seed' →
      (seed = seed' ↔ walletId = walletId' ∧ chainFamily N W.unicode chain = chainFamily N W.unicode chain' ∧
        subPath.filter (· ≠ "") = subPath'.filter (· ≠ ""))) ∧
    (∀ walletId walletId' chain chain' subPath subPath' seed seed',
      ephemeralSeed W.unicode walletId chain subPath = .ok seed →
      ephemeralSeed W.unicode walletId' chain' subPath' = .ok seed' →
      (seed = seed' ↔ walletId = walletId' ∧
        toLowercase W.unicode chain ++ ":" ++ subPath = toLowercase W.unicode chain' ++ ":" ++ subPath')) := by
  refine ⟨fun seed h => handedOut_not_kept h, ?_, ?_, ?_, ?_⟩
  · intro seed h hadmitted
    obtain ⟨walletId, chain, subPath, heph⟩ := handedOut_admitted h hadmitted
    exact ⟨ephemeral_rooted heph, walletId, chain, subPath, heph⟩
  · intro b b' key key' hb hb' hkey hkey'
    exact issued_text_iff hb hb' hkey hkey'
  · intro walletId walletId' chain chain' subPath subPath' seed seed' h h'
    exact wallet_seeds_iff h h'
  · intro walletId walletId' chain chain' subPath subPath' seed seed' h h'
    exact ephemeral_seeds_iff h h'

/-- Refusals that quote a text as it is. -/
def plainWording : Wording where
  debug text := text
  account _ := "invalid account"
  unicode := asciiTables

/-- The chain names the keystore lists, in lower case. -/
def listedChains : ChainNames where
  isEvmChain chain :=
    chain ∈ ["ethereum", "polygon", "base", "arbitrum", "optimism", "bsc", "avalanche", "hyperevm", "hood"]
  isSolanaChain chain := chain ∈ ["solana", "sol"]
  isValidSubPath path := path.toList.head?.any isLowerAlnum && decide (path.toList.length ≤ 64) &&
    path.toList.all fun c => isLowerAlnum c || c == '.' || c == '_' || c == '-'

/-- A wallet has one key on Base and on Hood and another on NEAR, and the bytes exported for a payment check are no key
    it signs with. -/
theorem one_wallet_apart :
    (∃ seed, deriveAddressSeed listedChains asciiTables "abc" "Base" none = .ok seed ∧
      deriveAddressSeed listedChains asciiTables "abc" "hood" none = .ok seed ∧
      deriveAddressSeed listedChains asciiTables "abc" "near" none ≠ .ok seed) ∧
    ∃ seed, ephemeralSeed asciiTables "abc" "near" "check:0" = .ok seed ∧ ¬ Kept listedChains asciiTables seed := by
  obtain ⟨hkept, -, -, hwallet, -⟩ := derived_keys_apart plainWording listedChains
  have hbase : deriveAddressSeed listedChains asciiTables "abc" "Base" none = .ok "wallet:abc:evm" := by decide +kernel
  have hhood : deriveAddressSeed listedChains asciiTables "abc" "hood" none = .ok "wallet:abc:evm" := by decide +kernel
  have hcheck : ephemeralSeed asciiTables "abc" "near" "check:0" = .ok "wallet:abc:near:check:0" := by decide +kernel
  refine ⟨⟨_, hbase, hhood, ?_⟩, _, hcheck, hkept _ (.ephemeral hcheck)⟩
  intro hnear
  exact absurd ((hwallet _ _ _ _ _ _ _ _ hbase hnear).mp rfl).2.1 (by decide +kernel)

/-- Bob keeps a secret for a repository that is named like alice's wallet. -/
def repoLikeWallet : List Event :=
  [callBy bobAccount (.storeSecrets (.repo "wallet:abc:near" none) "default" "c2VjcmV0" .allowAll none) (10 ^ 24)]

/-- **An exported key that is a secret's legacy key, and two requests that export one key.** The contract stores a row
    whose seed the exporter spells, with the owner as the path; and the colon between chain and path may be in
    either. -/
theorem exported_key_shared :
    (∃ tr w, World.History asciiHost ownerAccount none none none tr w ∧
      ∃ (q : RowRequest) (row : SecretProfileView) (seed : String),
        q.lookup asciiHost w.contract.toSecretStore = some ⟨some row, none⟩ ∧ q.decryptSeed row = .ok seed ∧
        AdmittedSeed seed ∧ ephemeralSeed asciiTables "abc" "near" "bob.near" = .ok seed ∧
        HandedOut plainWording seed) ∧
    ∃ seed, ephemeralSeed asciiTables "abc" "near:check" "0" = .ok seed ∧
      ephemeralSeed asciiTables "abc" "near" "check:0" = .ok seed := by
  refine ⟨?_, _, rfl, by decide +kernel⟩
  obtain ⟨tr, w, h, hp⟩ := exists_history repoLikeWallet
    (fun x => decide ((repoRow "wallet:abc:near" none bobAccount).opened asciiHost x.2.contract.toSecretStore
        = some (some "wallet:abc:near:bob.near", none)))
    (by decide +kernel)
  obtain ⟨row, hrow, hseed⟩ := lookup_of_opened (of_decide_eq_true hp)
  have hexport : ephemeralSeed asciiTables "abc" "near" "bob.near" = .ok "wallet:abc:near:bob.near" := by decide +kernel
  exact ⟨tr, w, h, _, row, _, hrow, hseed, .row hrow hseed, hexport, .ephemeral hexport⟩

end Keystore
end Outlayer
