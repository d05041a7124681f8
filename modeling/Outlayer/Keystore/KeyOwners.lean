import Outlayer.Keystore.Seeds

/-!
# `Keystore.KeyOwners` — whose key signed

A signature proves that somebody holds a key; only the chain says whose account the key is on. The keystore asks for
that one key. What the chain says no to is told from a chain that would not say.
-/

namespace Outlayer
namespace Keystore

/-- What the chain says of a key and an account. -/
inductive SignerKey
  | fullAccess
  | functionCall
  | absent
deriving DecidableEq

/-- Why a key is not taken for its account's: two refusals that asking again does not change, and no answer. -/
inductive KeyOwnerError
  | malformed (message : String)
  | notOwned (message : String)
  | unanswered (message : String)
deriving DecidableEq

/-- How accounts and keys are read, and the chain. -/
structure KeyOwners where
  parseAccountId : String → Except String Unit
  parsePublicKey : String → Except String Unit
  keyForDisplay : String → String
  signerKeyBy : (accountId publicKey : String) → Except String SignerKey

/-- Whether a key is a full-access key of an account. -/
def KeyOwners.verifyAccessKeyOwner (O : KeyOwners) (accountId publicKey : String) : Except KeyOwnerError Unit := do
  (O.parseAccountId accountId).mapError fun e => .malformed ("Invalid account ID: " ++ e)
  (O.parsePublicKey publicKey).mapError fun e => .malformed ("Invalid public key: " ++ e)
  match O.signerKeyBy accountId publicKey with
  | .error _         => .error (.unanswered "Failed to query access key")
  | .ok .fullAccess   => .ok ()
  | .ok .functionCall => .error (.notOwned ("Public key " ++ O.keyForDisplay publicKey ++ " of " ++ accountId ++
      " may only call functions: sign with the account's wallet, whose key has full access"))
  | .ok .absent       => .error (.notOwned ("Public key " ++ O.keyForDisplay publicKey ++
      " does not belong to account " ++ accountId))

end Keystore
end Outlayer
