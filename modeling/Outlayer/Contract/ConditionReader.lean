import Outlayer.Contract.Types
import Outlayer.Lib.JsonFields

/-!
# `Contract.ConditionReader` — reading an access condition from JSON

The contract and the keystore each declare the enumeration of access conditions, with the same variants and fields and
with types of their own for accounts, amounts and times. The derived readers differ in these types only: `readCondition`
is such a reader over the constructors of an enumeration, and the contract's is one of them.
-/

namespace Outlayer
open Json (Value required_both required_unique asList_both)

/-- Reads the operator of a condition that joins others. -/
def LogicOperator.read (v : Value) : Option LogicOperator :=
  match v.variant with
  | some ("And", .null) => some .and
  | some ("Or", .null)  => some .or
  | _                   => none

/-- Reads the operator of a comparison. -/
def ComparisonOperator.read (v : Value) : Option ComparisonOperator :=
  match v.variant with
  | some ("Gte", .null) => some .gte
  | some ("Lte", .null) => some .lte
  | some ("Gt", .null)  => some .gt
  | some ("Lt", .null)  => some .lt
  | some ("Eq", .null)  => some .eq
  | some ("Ne", .null)  => some .ne
  | _                   => none

/-- The constructors of an enumeration of conditions, and how its accounts, amounts and times are read. -/
structure Variants (Condition Account Amount Time : Type) where
  account : Value → Option Account
  amount : Value → Option Amount
  time : Value → Option Time
  logic : LogicOperator → List Condition → Condition
  not : Condition → Condition
  allowAll : Condition
  whitelist : List Account → Condition
  accountPattern : String → Condition
  nearBalance : ComparisonOperator → Amount → Condition
  ftBalance : Account → ComparisonOperator → Amount → Condition
  nftOwned : Account → Option String → Condition
  daoMember : Account → String → Condition
  validUntil : Time → Condition
  wasmHash : String → Condition
  predecessor : Condition → Condition

/-- The derived reader. `depth` bounds how deep conditions may be nested. -/
def readCondition {Condition Account Amount Time : Type} (V : Variants Condition Account Amount Time) :
    (depth : Nat) → Value → Option Condition
  | 0, _ => none
  | depth + 1, v =>
      match v.variant with
      | some ("Logic", body) => do
          let operator ← body.required ["operator", "conditions"] "operator" LogicOperator.read
          let conditions ← body.required ["operator", "conditions"] "conditions" (·.asList (readCondition V depth))
          pure (V.logic operator conditions)
      | some ("Not", body) => do
          let condition ← body.required ["condition"] "condition" (readCondition V depth)
          pure (V.not condition)
      | some ("AllowAll", body) => if body.isUnit then some V.allowAll else none
      | some ("Whitelist", body) => do
          let accounts ← body.required ["accounts"] "accounts" (·.asList V.account)
          pure (V.whitelist accounts)
      | some ("AccountPattern", body) => do
          let pattern ← body.required ["pattern"] "pattern" (·.asStr)
          pure (V.accountPattern pattern)
      | some ("NearBalance", body) => do
          let operator ← body.required ["operator", "value"] "operator" ComparisonOperator.read
          let value ← body.required ["operator", "value"] "value" V.amount
          pure (V.nearBalance operator value)
      | some ("FtBalance", body) => do
          let contract ← body.required ["contract", "operator", "value"] "contract" V.account
          let operator ← body.required ["contract", "operator", "value"] "operator" ComparisonOperator.read
          let value ← body.required ["contract", "operator", "value"] "value" V.amount
          pure (V.ftBalance contract operator value)
      | some ("NftOwned", body) => do
          let contract ← body.required ["contract", "token_id"] "contract" V.account
          let tokenId ← body.nullable ["contract", "token_id"] "token_id" (·.asStr)
          pure (V.nftOwned contract tokenId)
      | some ("DaoMember", body) => do
          let daoContract ← body.required ["dao_contract", "role"] "dao_contract" V.account
          let role ← body.required ["dao_contract", "role"] "role" (·.asStr)
          pure (V.daoMember daoContract role)
      | some ("ValidUntil", body) => do
          let untilNs ← body.required ["until_ns"] "until_ns" V.time
          pure (V.validUntil untilNs)
      | some ("WasmHash", body) => do
          let hash ← body.required ["hash"] "hash" (·.asStr)
          pure (V.wasmHash hash)
      | some ("Predecessor", body) => do
          let condition ← body.required ["condition"] "condition" (readCondition V depth)
          pure (V.predecessor condition)
      | _ => none

/-! ## The contract's reader -/

/-- How the SDK's number types read their texts. -/
structure Numbers where
  /-- `NearToken` -/
  token : String → Option Nat
  /-- `U64` -/
  u64 : String → Option Nat

/-- A reader of `w`-bit numbers takes what is printed of one, and of no larger number. -/
def ReadsPrinted (w : Nat) (read : String → Option Nat) : Prop :=
  ∀ n, read (toString n) = if n < 2 ^ w then some n else none

/-- Both number types read their own output. -/
structure Numbers.Lawful (N : Numbers) : Prop where
  token : ReadsPrinted 128 N.token
  u64 : ReadsPrinted 64 N.u64

/-- The readers of a condition's parts that the contract's own types have. -/
def contractVariants (N : Numbers) : Variants AccessCondition AccountId Nat Nat where
  account v := v.asStr.bind AccountId.parse
  amount v := v.asStr.bind N.token
  time v := v.asStr.bind N.u64
  logic := .logic
  not := .not
  allowAll := .allowAll
  whitelist := .whitelist
  accountPattern := .accountPattern
  nearBalance := .nearBalance
  ftBalance := .ftBalance
  nftOwned := .nftOwned
  daoMember := .daoMember
  validUntil := .validUntil
  wasmHash := .wasmHash
  predecessor := .predecessor

/-- An access condition in the arguments of a call. -/
def AccessCondition.read (N : Numbers) : (depth : Nat) → Value → Option AccessCondition :=
  readCondition (contractVariants N)

/-! ## Two readers of one document -/

section Simulation
variable {C A M T C' A' M' T' : Type}

/-- What two enumerations have in common along `R`: constructors over corresponding fields correspond. -/
structure Corresponds (V : Variants C A M T) (W : Variants C' A' M' T') (R : C → C' → Prop) (RA : A → A' → Prop)
    (RM : M → M' → Prop) (RT : T → T' → Prop) : Prop where
  account : ∀ v a b, V.account v = some a → W.account v = some b → RA a b
  amount : ∀ v a b, V.amount v = some a → W.amount v = some b → RM a b
  time : ∀ v a b, V.time v = some a → W.time v = some b → RT a b
  logic : ∀ op cs ds, List.Forall₂ R cs ds → R (V.logic op cs) (W.logic op ds)
  not : ∀ c d, R c d → R (V.not c) (W.not d)
  allowAll : R V.allowAll W.allowAll
  whitelist : ∀ as bs, List.Forall₂ RA as bs → R (V.whitelist as) (W.whitelist bs)
  accountPattern : ∀ p, R (V.accountPattern p) (W.accountPattern p)
  nearBalance : ∀ op m n, RM m n → R (V.nearBalance op m) (W.nearBalance op n)
  ftBalance : ∀ a b op m n, RA a b → RM m n → R (V.ftBalance a op m) (W.ftBalance b op n)
  nftOwned : ∀ a b token, RA a b → R (V.nftOwned a token) (W.nftOwned b token)
  daoMember : ∀ a b role, RA a b → R (V.daoMember a role) (W.daoMember b role)
  validUntil : ∀ s t, RT s t → R (V.validUntil s) (W.validUntil t)
  wasmHash : ∀ hash, R (V.wasmHash hash) (W.wasmHash hash)
  predecessor : ∀ c d, R c d → R (V.predecessor c) (W.predecessor d)

/-- **One document, two conditions.** What two derived readers make of a document corresponds. -/
theorem readCondition_both {V : Variants C A M T} {W : Variants C' A' M' T'} {R : C → C' → Prop}
    {RA : A → A' → Prop} {RM : M → M' → Prop} {RT : T → T' → Prop} (hVW : Corresponds V W R RA RM RT) :
    ∀ (depth : Nat) (v : Value) (c : C) (d : C'), readCondition V depth v = some c → readCondition W depth v = some d →
      R c d := by
  intro depth
  induction depth with
  | zero =>
      intro v c d h h'
      cases h
  | succ depth ih =>
      intro v c d h h'
      dsimp only [readCondition] at h h'
      -- the two readers look at the same fields, variant by variant
      split at h
      case h_13 => cases h
      all_goals
        rename_i hvariant
        rw [hvariant] at h'
        simp only [Option.bind_eq_bind, Option.bind_eq_some_iff, Option.pure_def, Option.some.injEq,
          Option.ite_none_right_eq_some] at h h'
      · obtain ⟨op, hop, cs, hcs, rfl⟩ := h
        obtain ⟨op', hop', ds, hds, rfl⟩ := h'
        obtain rfl := required_unique hop hop'
        obtain ⟨w, hw, hw'⟩ := required_both hcs hds
        exact hVW.logic op cs ds (asList_both ih hw hw')
      · obtain ⟨c, hc, rfl⟩ := h
        obtain ⟨d, hd, rfl⟩ := h'
        obtain ⟨w, hw, hw'⟩ := required_both hc hd
        exact hVW.not c d (ih w c d hw hw')
      · obtain ⟨-, rfl⟩ := h
        obtain ⟨-, rfl⟩ := h'
        exact hVW.allowAll
      · obtain ⟨as, has, rfl⟩ := h
        obtain ⟨bs, hbs, rfl⟩ := h'
        obtain ⟨w, hw, hw'⟩ := required_both has hbs
        exact hVW.whitelist as bs (asList_both hVW.account hw hw')
      · obtain ⟨p, hp, rfl⟩ := h
        obtain ⟨p', hp', rfl⟩ := h'
        obtain rfl := required_unique hp hp'
        exact hVW.accountPattern p
      · obtain ⟨op, hop, m, hm, rfl⟩ := h
        obtain ⟨op', hop', n, hn, rfl⟩ := h'
        obtain rfl := required_unique hop hop'
        obtain ⟨w, hw, hw'⟩ := required_both hm hn
        exact hVW.nearBalance op m n (hVW.amount w m n hw hw')
      · obtain ⟨a, ha, op, hop, m, hm, rfl⟩ := h
        obtain ⟨b, hb, op', hop', n, hn, rfl⟩ := h'
        obtain rfl := required_unique hop hop'
        obtain ⟨u, hu, hu'⟩ := required_both ha hb
        obtain ⟨w, hw, hw'⟩ := required_both hm hn
        exact hVW.ftBalance a b op m n (hVW.account u a b hu hu') (hVW.amount w m n hw hw')
      · obtain ⟨a, ha, token, htoken, rfl⟩ := h
        obtain ⟨b, hb, token', htoken', rfl⟩ := h'
        obtain rfl : token = token' := Option.some.inj (htoken.symm.trans htoken')
        obtain ⟨w, hw, hw'⟩ := required_both ha hb
        exact hVW.nftOwned a b token (hVW.account w a b hw hw')
      · obtain ⟨a, ha, role, hrole, rfl⟩ := h
        obtain ⟨b, hb, role', hrole', rfl⟩ := h'
        obtain rfl := required_unique hrole hrole'
        obtain ⟨w, hw, hw'⟩ := required_both ha hb
        exact hVW.daoMember a b role (hVW.account w a b hw hw')
      · obtain ⟨s, hs, rfl⟩ := h
        obtain ⟨t, ht, rfl⟩ := h'
        obtain ⟨w, hw, hw'⟩ := required_both hs ht
        exact hVW.validUntil s t (hVW.time w s t hw hw')
      · obtain ⟨hash, hhash, rfl⟩ := h
        obtain ⟨hash', hhash', rfl⟩ := h'
        obtain rfl := required_unique hhash hhash'
        exact hVW.wasmHash hash
      · obtain ⟨c, hc, rfl⟩ := h
        obtain ⟨d, hd, rfl⟩ := h'
        obtain ⟨w, hw, hw'⟩ := required_both hc hd
        exact hVW.predecessor c d (ih w c d hw hw')

end Simulation

end Outlayer
