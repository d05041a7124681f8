import Outlayer.Contract.Types
import Outlayer.Lib.Collections
import Outlayer.Lib.Run
import Outlayer.Lib.Text

/-!
# `Keystore.Serving` — requests that work under a vault's master

A request that names a customer's vault first has the chain asked whether the vault may be served, then has its master
loaded through MPC if it is not in the table, then derives under it and answers. All of this is asynchronous: between
any two steps of one request other requests step, vaults change on the chain, and an administrator evicts masters.

A step is one read or write of one request. `assert_serving_allowed` is three or four of them: it looks whether the
master is loaded, reads the registry, reads the vault, and comes to a verdict that may evict the master.
-/

namespace Outlayer
open Text Collections Runs

namespace Keystore
namespace Serving

/-! ## Requests -/

/-- The endpoints that derive under a customer's master. -/
inductive Endpoint
  | pubkey
  | decrypt
  | encrypt
  | decryptRaw
  | addGeneratedSecret
  | updateUserSecrets
  | walletDeriveAddress
  | walletSign
  | walletEvmSignTypedData
  | walletEvmSignMessage
  | walletEvmSignTransaction
  | walletSolanaSignMessage
  | walletSolanaSignTransaction
  | walletSignPolicy
  | walletSignSecretStore
  | walletSignSecretDelete
  | walletCheckPolicy
  | walletEncryptPolicy
  | walletDecryptPolicy
  | deriveEphemeralKey
deriving DecidableEq

/-- What a handler does about a vault. -/
inductive Action
  | ensureCustomerLoaded (vault : AccountId)
  | derive (vault : AccountId)
deriving DecidableEq

/-- A request: the vault of its header or body, the vault its row is bound to, and the vaults of declared keys. -/
structure Request where
  endpoint : Endpoint
  customer : Option AccountId := none
  bound : Option AccountId := none
  declared : List AccountId := []
deriving DecidableEq

/-- What the handler of a request does about vaults, in its order. -/
def Request.actions (q : Request) : List Action :=
  let ensured (vault : Option AccountId) := vault.toList.map Action.ensureCustomerLoaded
  let derived (vault : Option AccountId) := vault.toList.map Action.derive
  match q.endpoint with
  | .encrypt | .decryptRaw => derived q.customer
  | .decrypt =>
      q.declared.map .ensureCustomerLoaded ++ ensured q.bound ++ derived q.bound ++ q.declared.map .derive
        ++ derived q.bound
  | .updateUserSecrets => ensured q.customer ++ ensured q.bound ++ derived q.bound ++ derived q.customer
  | _ => ensured q.customer ++ derived q.customer

/-! ## The chain -/

/-- What the chain has about a vault: its standing in the registry, and its own state. -/
structure VaultFacts where
  verified : Bool := false
  banned : Bool := false
  deployed : Bool := true
  unlocked : Bool := false

/-- The registry's answer. -/
def VaultFacts.isVaultVerified (f : VaultFacts) : Bool := f.verified && !f.banned

/-- What a view call comes back with. -/
inductive Reply
  | answer (value : Bool)
  | malformed
  | failed (message : String)
deriving DecidableEq

/-- What becomes of a view call on its way. -/
inductive Delivery
  | answered
  | malformed
  | failed (message : String)
deriving DecidableEq

/-- What arrives in place of a Boolean answer. -/
def Delivery.reply (d : Delivery) (value : Bool) : Reply :=
  match d with
  | .answered       => .answer value
  | .malformed      => .malformed
  | .failed message => .failed message

/-- An error that says the account is gone, and not that the read failed. -/
def authoritativeGone (message : String) : Bool :=
  contains message "UnknownAccount" || contains message "does not exist"

/-! ## `assert_serving_allowed` -/

/-- A check under way: the vault's own state is asked for at once when its master is loaded, and after the registry
    otherwise. -/
structure Gate where
  vault : AccountId
  speculative : Bool
  verified : Option Reply := none
  state : Option Reply := none

/-- How a gate ends. -/
inductive Verdict
  | passed
  | denied
  | error
deriving DecidableEq

/-- What the vault's own state says of a verified vault. -/
def stateVerdict : Reply → Verdict
  | .answer unlocked => if unlocked then .denied else .passed
  | .malformed       => .error
  | .failed message  => if authoritativeGone message then .denied else .error

/-- The verdict, once what it needs has been read. -/
def Gate.verdict (g : Gate) : Option Verdict :=
  if g.speculative ∧ g.state = none then none
  else
    match g.verified with
    | none                 => none
    | some (.answer true)  => g.state.map stateVerdict
    | some (.answer false) => some .denied
    | some _               => some .error

/-! ## Requests in progress -/

/-- How far a load is, from the check that was passed to the answer of MPC. -/
inductive LoadStage
  /-- `ensure_customer_loaded` is to look whether the master is there -/
  | passed
  /-- `add_customer` is to look without the lock -/
  | adding
  /-- the lock of the vault is to be taken -/
  | waiting
  /-- `add_customer` is to look again, under the lock -/
  | locked
  /-- MPC has been asked, under the lock -/
  | requested
deriving DecidableEq

/-- The stage after a look that found no master. -/
def LoadStage.absent : LoadStage → Option LoadStage
  | .passed => some .adding
  | .adding => some .waiting
  | .locked => some .requested
  | _       => none

/-- What a request is doing: nothing, a check at the gate, or a load. -/
inductive Stage
  | idle
  | gate (g : Gate)
  | load (vault : AccountId) (stage : LoadStage)

/-- A request in progress, with the masters it has derived under. -/
structure Running (Master : Type) where
  request : Request
  todo : List Action
  used : List (AccountId × Master) := []
  stage : Stage := .idle

/-- The keystore and the chain. -/
structure State (Master : Type) where
  masters : LookupMap AccountId Master := ∅
  facts : AccountId → VaultFacts
  requests : LookupMap Nat (Running Master) := ∅
  nextId : Nat := 0

section Requests
variable {Master : Type}

/-- The vault whose master is next to be loaded. -/
def Running.ensures (r : Running Master) : Option (AccountId × List Action) :=
  match r.stage, r.todo with
  | .idle, .ensureCustomerLoaded vault :: rest => some (vault, rest)
  | _, _ => none

/-- The vault under which a key is next to be derived. -/
def Running.derives (r : Running Master) : Option (AccountId × List Action) :=
  match r.stage, r.todo with
  | .idle, .derive vault :: rest => some (vault, rest)
  | _, _ => none

/-- The request does nothing. -/
def Running.isIdle (r : Running Master) : Bool :=
  match r.stage with
  | .idle => true
  | _     => false

/-- The check it is in. -/
def Running.gate (r : Running Master) : Option Gate :=
  match r.stage with
  | .gate g => some g
  | _       => none

/-- The load it is in. -/
def Running.load (r : Running Master) : Option (AccountId × LoadStage) :=
  match r.stage with
  | .load vault stage => some (vault, stage)
  | _                 => none

/-- Whether a request holds the load lock of a vault. -/
def Running.holdsLock (r : Running Master) (vault : AccountId) : Bool :=
  match r.load with
  | some (v, .locked) | some (v, .requested) => decide (v = vault)
  | _ => false

/-- Some request holds the lock of a vault. -/
def State.locked (s : State Master) (vault : AccountId) : Bool := s.requests.entries.any fun e => e.2.holdsLock vault

/-- The vault has a master. -/
def State.loaded (s : State Master) (vault : AccountId) : Bool := (s.masters.lookup vault).isSome

/-- The request goes on. -/
def State.put (s : State Master) (id : Nat) (r : Running Master) : State Master :=
  { s with requests := s.requests.insert id r }

/-- The request has ended. -/
def State.stop (s : State Master) (id : Nat) : State Master := { s with requests := s.requests.erase id }

end Requests

/-! ## Steps -/

/-- What happens: the chain moves, a request begins, or a request takes a step. -/
inductive Event (Master : Type)
  | chainMoves (vault : AccountId) (facts : VaultFacts)
  /-- `/admin/evict-customer` and `/admin/ban-vault` -/
  | evictCustomer (vault : AccountId)
  | begin (request : Request)
  | assertServingAllowed (id : Nat)
  | viewVerified (id : Nat) (delivery : Delivery)
  | viewState (id : Nat) (delivery : Delivery)
  | settle (id : Nat)
  | hasCustomer (id : Nat)
  | lock (id : Nat)
  | mpcCkd (id : Nat) (master : Option Master)
  /-- a key is derived; `more` when another one follows under the same vault -/
  | derive (id : Nat) (more : Bool)
  | answer (id : Nat)
  /-- the request fails for a reason of its own, or its client goes away -/
  | drop (id : Nat)

/-- What a step shows. -/
inductive Output (Master : Type)
  | running
  | began (id : Nat) (request : Request)
  | asked (id : Nat) (vault : AccountId)
  | passed (id : Nat) (vault : AccountId)
  | denied (id : Nat) (vault : AccountId)
  | unsettled (id : Nat) (vault : AccountId)
  | loaded (id : Nat) (vault : AccountId)
  | failed (id : Nat) (vault : AccountId)
  | vaultMasterNotLoaded (id : Nat) (vault : AccountId)
  | answered (id : Nat) (used : List (AccountId × Master))
deriving DecidableEq

section Steps
variable {Master : Type}

/-- One step of one request, or a change that no request makes. -/
def next (s : State Master) : Event Master → Option (State Master × Output Master)
  | .chainMoves vault facts => some ({ s with facts := Function.update s.facts vault facts }, .running)
  | .evictCustomer vault => some ({ s with masters := s.masters.erase vault }, .running)
  | .begin q =>
      some ({ s.put s.nextId { request := q, todo := q.actions } with nextId := s.nextId + 1 }, .began s.nextId q)
  | .assertServingAllowed id => do
      let r ← s.requests.lookup id
      let (vault, rest) ← r.ensures
      pure (s.put id { r with todo := rest, stage := .gate { vault, speculative := s.loaded vault } }, .asked id vault)
  | .viewVerified id d => do
      let r ← s.requests.lookup id
      let g ← r.gate
      guard (g.verified = none)
      pure (s.put id
        { r with stage := .gate { g with verified := some (d.reply (s.facts g.vault).isVaultVerified) } }, .running)
  | .viewState id d => do
      let r ← s.requests.lookup id
      let g ← r.gate
      guard (g.state = none ∧ (g.speculative = true ∨ g.verified = some (.answer true)))
      guard (d = .answered → (s.facts g.vault).deployed = true)
      pure (s.put id { r with stage := .gate { g with state := some (d.reply (s.facts g.vault).unlocked) } }, .running)
  | .settle id => do
      let r ← s.requests.lookup id
      let g ← r.gate
      match ← g.verdict with
      | .passed => pure (s.put id { r with stage := .load g.vault .passed }, .passed id g.vault)
      | .denied => pure ({ s.stop id with masters := s.masters.erase g.vault }, .denied id g.vault)
      | .error  => pure (s.stop id, .unsettled id g.vault)
  | .hasCustomer id => do
      let r ← s.requests.lookup id
      let (vault, stage) ← r.load
      let absent ← stage.absent
      if s.loaded vault then pure (s.put id { r with stage := .idle }, .running)
      else pure (s.put id { r with stage := .load vault absent }, .running)
  | .lock id => do
      let r ← s.requests.lookup id
      let (vault, stage) ← r.load
      guard (stage = .waiting ∧ s.locked vault = false)
      pure (s.put id { r with stage := .load vault .locked }, .running)
  | .mpcCkd id answer => do
      let r ← s.requests.lookup id
      let (vault, stage) ← r.load
      guard (stage = .requested)
      match answer with
      | some master =>
          pure ({ s.put id { r with stage := .idle } with masters := s.masters.insert vault master }, .loaded id vault)
      | none => pure (s.stop id, .failed id vault)
  | .derive id more => do
      let r ← s.requests.lookup id
      let (vault, rest) ← r.derives
      match s.masters.lookup vault with
      | some master =>
          pure (s.put id { r with todo := if more then r.todo else rest, used := (vault, master) :: r.used }, .running)
      | none => pure (s.stop id, .vaultMasterNotLoaded id vault)
  | .answer id => do
      let r ← s.requests.lookup id
      guard (r.isIdle = true)
      pure (s.stop id, .answered id r.used)
  | .drop id => do
      let _ ← s.requests.lookup id
      pure (s.stop id, .running)

end Steps

end Serving
end Keystore
end Outlayer
