import Outlayer.Lib.Cursor
import Outlayer.Keystore.Seeds

/-!
# `Keystore.Solana` — signing bytes with a wallet's Solana key

A Solana signature covers the bytes as they are, with nothing that tells a message from a transaction. The keystore
signs messages on the base capability and transactions on another one, so what is to be signed as a message must not
parse as a transaction message. The parser is lenient about spellings and strict about the rules a node checks; it
reads the bytes only to refuse them.
-/

namespace Outlayer
open Text Cursors

namespace Keystore

/-- The longest transaction a node accepts, in bytes. -/
def maxTxMessageLen : Nat := 1232

/-! ## The parser -/

/-- The rounds of `compact_u16` from round `i`: seven bits a byte, the lowest first, up to a byte with no top bit. -/
def compactU16From : (rounds i value : Nat) → Reader UInt8 Nat
  | 0, _, _                => refuse
  | rounds + 1, i, value => do
      let b ← next
      let value := value ||| ((b &&& 0x7f).toNat <<< (7 * i))
      if b &&& 0x80 = 0 then if 65535 < value then refuse else pure value
      else compactU16From rounds (i + 1) value

/-- A length of at most three bytes and at most 65535, in any spelling. -/
def compactU16 : Reader UInt8 Nat := compactU16From 3 0 0

/-- An index of an account; the largest index seen so far is carried. -/
def parseAccount (maxIndexUsed : Nat) : Reader UInt8 Nat := do
  let account ← next
  pure (max maxIndexUsed account.toNat)

/-- An instruction. -/
def parseInstruction (maxIndexUsed : Nat) : Reader UInt8 Nat := do
  let programIdIndex ← next
  let numAccounts ← compactU16
  let maxIndexUsed ← times parseAccount numAccounts (max maxIndexUsed programIdIndex.toNat)
  let dataLen ← compactU16
  skip dataLen
  pure maxIndexUsed

/-- A lookup in an address table; the number of keys is carried. -/
def parseLookup (totalKeys : Nat) : Reader UInt8 Nat := do
  skip 32
  let writable ← compactU16
  skip writable
  let readonly ← compactU16
  skip readonly
  pure (totalKeys + (writable + readonly))

/-- The lookups of a versioned message; a legacy one ends before them. -/
def parseLookups (versioned : Bool) (numStaticKeys : Nat) : Reader UInt8 Nat :=
  if versioned = true then do
    let numLookups ← compactU16
    times parseLookup numLookups numStaticKeys
  else pure numStaticKeys

/-- What the node checks of the header: a signer that pays, and every range of keys within the static ones. -/
def headerRefused (numRequired roSigned roUnsigned numStaticKeys : Nat) : Prop :=
  numRequired = 0 ∨ numRequired > numStaticKeys ∨ roSigned ≥ numRequired ∨ roUnsigned > numStaticKeys - numRequired

instance (numRequired roSigned roUnsigned numStaticKeys : Nat) :
    Decidable (headerRefused numRequired roSigned roUnsigned numStaticKeys) :=
  inferInstanceAs (Decidable (_ ∨ _ ∨ _ ∨ _))

/-- From the header on. -/
def parseMessageBody (versioned : Bool) : Reader UInt8 Unit := do
  let numRequired ← next
  let roSigned ← next
  let roUnsigned ← next
  let numStaticKeys ← compactU16
  if headerRefused numRequired.toNat roSigned.toNat roUnsigned.toNat numStaticKeys then refuse else do
  skip (numStaticKeys * 32)
  skip 32
  let numInstructions ← compactU16
  let maxIndexUsed ← times parseInstruction numInstructions 0
  let totalKeys ← parseLookups versioned numStaticKeys
  if numInstructions > 0 ∧ maxIndexUsed ≥ totalKeys then refuse else pure ()

/-- Whether a node could take the bytes for a transaction message. -/
def parsesAsTransactionMessage (bytes : List UInt8) : Bool :=
  match bytes with
  | []         => false
  | first :: _ =>
      if bytes.length > maxTxMessageLen then false
      else
        let versioned := decide (first &&& 0x80 ≠ 0)
        match parseMessageBody versioned { buf := bytes, pos := if versioned = true then 1 else 0 } with
        | some (_, c) => decide (c.pos = bytes.length)
        | none        => false

/-! ## Signing -/

/-- What a wallet's policy says of a signature. -/
inductive Decision
  | allow
  | frozen
  | deny (reason : String)
  | requiresApproval

/-- What signing stands on: the chain names and the decision of the shared helpers, the policy as it is loaded, and
the keys. -/
structure SolanaSigning (Policy : Type) where
  chains : ChainNames
  loadWalletPolicy : (walletId : String) → (customer : Option AccountId) → ApiResult (Option Policy)
  solanaSignDecision : Option Policy → (wantRawTx : Bool) → (nowUnix : Nat) → Decision
  sign : Option AccountId → (seed : String) → List UInt8 → Except String (List UInt8)
  base58 : List UInt8 → String

/-- Sign the bytes as a message, or as a transaction where `wantRawTx` is set. -/
def solanaSignBytes {Policy : Type} (K : SolanaSigning Policy) (nowUnix : Nat) (customer : Option AccountId)
    (walletId chain : String) (bytes : List UInt8) (wantRawTx : Bool) : ApiResult String := do
  validateWalletId walletId
  demand (K.chains.isSolanaChain chain = true)
    (.badRequest ("'" ++ chain ++ "' is not a Solana chain (supported: solana)"))
  demand (¬ (wantRawTx = false ∧ parsesAsTransactionMessage bytes = true))
    (.badRequest ("message parses as a Solana transaction message — use /wallet/solana/sign-transaction (requires " ++
      "the solana_sign.raw_tx capability)"))
  let policy ← K.loadWalletPolicy walletId customer
  match K.solanaSignDecision policy wantRawTx nowUnix with
  | .frozen           => .error (.forbidden "Wallet is frozen")
  | .deny reason      => .error (.forbidden reason)
  | .requiresApproval => .error (.forbidden "Solana signing does not support per-op approval")
  | .allow            =>
      match K.sign customer (walletSeed K.chains walletId chain) bytes with
      | .error e   => .error (.internalError ("Solana signing failed: " ++ e))
      | .ok sigma  => .ok (K.base58 sigma)

end Keystore
end Outlayer
