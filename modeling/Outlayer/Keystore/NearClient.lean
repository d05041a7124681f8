import Outlayer.Contract.Types
import Outlayer.Lib.Json

/-!
# `Keystore.NearClient` — what the keystore reads from the chain

Four reads: a balance in NEAR, a balance of a fungible token, the owner of a token, the role of a DAO. Each is one
query of a node and a look at the answer. The node is not part of this code, nor is the JSON decoder: a `NearClient`
is what they answer. A query that fails, an answer of another kind and an answer that cannot be read are failures;
none of them is a "no".
-/

namespace Outlayer
namespace Keystore

/-- Why something could not be judged. -/
inductive Failure
  | message (text : String)
  /-- `NftOwned cannot be evaluated: … answered token … with no owner_id` -/
  | noOwner (contract tokenId : String)
  /-- `DaoMember cannot be evaluated: role '…' on … has kind …, which this keystore does not understand` -/
  | unknownKind (role daoContract : String) (kind : Json.Value)
  /-- `Invalid balance value: …` -/
  | invalidBalance (value : String)
  /-- `ValidUntil.until_ns … is not a number` -/
  | invalidLimit (untilNs : String)

/-- A computation that may fail with the client's own errors. -/
abbrev Fallible (α : Type) := Except Failure α

/-- The value of an option, or a failure. -/
def orFail {α : Type} (o : Option α) (f : Failure) : Fallible α :=
  match o with
  | some a => .ok a
  | none   => .error f

/-- A failure named by its text. -/
def context {α : Type} (o : Option α) (text : String) : Fallible α := orFail o (.message text)

/-- The two queries the client sends to a node. -/
inductive QueryRequest
  | viewAccount (accountId : AccountId)
  | callFunction (accountId : AccountId) (methodName : String) (args : Option Json.Value)

/-- What a node answers, by kind. -/
inductive QueryResponseKind
  | viewAccount (amount : Nat)
  | callResult (result : List UInt8)
  | other

/-- The node as the client sees it, and the JSON reader its answers go through. -/
structure NearClient where
  /-- a query of the latest block; `none` when it fails -/
  call : QueryRequest → Option QueryResponseKind
  /-- the JSON value of some bytes -/
  fromSlice : List UInt8 → Option Json.Value

namespace NearClient

/-- The result of a view method. -/
def callFunction (c : NearClient) (contract : AccountId) (methodName : String) (args : Option Json.Value)
    (failed : String) : Fallible (List UInt8) := do
  match ← context (c.call (.callFunction contract methodName args)) failed with
  | .callResult result => .ok result
  | _                  => .error (.message "Unexpected query response")

/-- The balance of an account, in yoctoNEAR. -/
def getAccountBalance (c : NearClient) (accountId : String) : Fallible Nat := do
  let account ← context (AccountId.parse accountId) "Invalid account ID"
  match ← context (c.call (.viewAccount account)) "Failed to query account" with
  | .viewAccount amount => .ok amount
  | _                   => .error (.message "Unexpected query response")

/-- The balance an account holds of a fungible token. -/
def getFtBalance (c : NearClient) (ftContract accountId : String) : Fallible Nat := do
  let contract ← context (AccountId.parse ftContract) "Invalid FT contract ID"
  let args := Json.Value.obj [("account_id", .str accountId)]
  let result ← c.callFunction contract "ft_balance_of" (some args) "Failed to query FT balance"
  let balance ← context ((c.fromSlice result).bind (·.asStr)) "Failed to parse FT balance response"
  context (Text.parseUnsigned 128 balance) "Failed to parse balance as u128"

/-- The owner a token states, against the account. -/
def ownerOf (nftContract tokenId accountId : String) : Json.Value → Fallible Bool
  | .null => .ok false
  | token => do
      let owner ← orFail ((token.get "owner_id").bind (·.asStr)) (.noOwner nftContract tokenId)
      .ok (owner == accountId)

/-- Whether an account holds one token of a contract, or any when none is named. -/
def checkNftOwnership (c : NearClient) (nftContract accountId : String) (tokenId : Option String) :
    Fallible Bool := do
  let contract ← context (AccountId.parse nftContract) "Invalid NFT contract ID"
  match tokenId with
  | some tokenId => do
      let args := Json.Value.obj [("token_id", .str tokenId)]
      let result ← c.callFunction contract "nft_token" (some args) "Failed to query specific NFT token"
      let token ← context (c.fromSlice result) "Failed to parse NFT token response"
      ownerOf nftContract tokenId accountId token
  | none => do
      let args := Json.Value.obj [("account_id", .str accountId), ("limit", .num "1")]
      let result ← c.callFunction contract "nft_tokens_for_owner" (some args) "Failed to query NFT ownership"
      let tokens ← context ((c.fromSlice result).bind (·.asArray)) "Failed to parse NFT tokens response"
      .ok (!tokens.isEmpty)

/-- Whether a role of this kind is the account's. -/
def holdsRole (daoContract accountId roleName : String) (kind : Json.Value) : Fallible Bool :=
  if kind.asStr = some "Everyone" then .ok true
  else
    match (kind.get "Group").bind (·.asArray) with
    | some accounts => .ok (accounts.any fun account => decide (account.asStr = some accountId))
    | none =>
        if (kind.get "Member").isSome then
          .error (.message ("DAO role '" ++ roleName ++ "' uses Member kind which requires token balance checking. " ++
            "This is not supported. Please use a Group role with explicit account list instead."))
        else .error (.unknownKind roleName daoContract kind)

/-- The first role of that name decides. -/
def findRole (daoContract accountId roleName : String) : List Json.Value → Fallible Bool
  | []            => .ok false
  | role :: roles =>
      if (role.get "name").bind (·.asStr) = some roleName then do
        let kind ← context (role.get "kind") "Role missing 'kind' field"
        holdsRole daoContract accountId roleName kind
      else findRole daoContract accountId roleName roles

/-- Whether an account is in a role of a DAO's policy. -/
def checkDaoMembership (c : NearClient) (daoContract accountId roleName : String) : Fallible Bool := do
  let contract ← context (AccountId.parse daoContract) "Invalid DAO contract ID"
  let result ← c.callFunction contract "get_policy" none "Failed to query DAO policy"
  let policy ← context (c.fromSlice result) "Failed to parse DAO policy response"
  let roles ← context ((policy.get "roles").bind (·.asArray)) "Policy missing 'roles' array"
  findRole daoContract accountId roleName roles

end NearClient

/-- The answers of the chain, as a condition asks for them. -/
structure ChainReads where
  getAccountBalance : String → Fallible Nat
  getFtBalance : String → String → Fallible Nat
  checkNftOwnership : String → String → Option String → Fallible Bool
  checkDaoMembership : String → String → String → Fallible Bool

/-- The answers a client gives. -/
def NearClient.reads (c : NearClient) : ChainReads where
  getAccountBalance := c.getAccountBalance
  getFtBalance := c.getFtBalance
  checkNftOwnership := c.checkNftOwnership
  checkDaoMembership := c.checkDaoMembership

end Keystore
end Outlayer
