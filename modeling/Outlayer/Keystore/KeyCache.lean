import Outlayer.Contract.Types
import Outlayer.Lib.Collections
import Outlayer.Lib.Run

/-!
# `Keystore.KeyCache` — masters, derived keys, and the locks between them

The keystore holds one default master and a table of masters by vault. A derived key pair is cached under the customer
and the seed it was derived for. The table and the cache are two maps under two locks, and the calls that use them run
at the same time: adding or evicting a customer writes the table and then, in a second section, drops the customer's
cached keys; a derivation reads the cache, then the table, and fills the cache before it lets go of the table.

A step is one section of one call, named by the id of the call. A read guard on the table excludes its writers, so a
write waits while some derivation holds one.
-/

namespace Outlayer
open Collections Runs

namespace Keystore
namespace KeyCache

/-- What a call has begun and not finished. -/
inductive Call (KeyPair : Type)
  /-- the master is in the table; the cached keys are still to be dropped -/
  | addCustomer (customer : AccountId)
  /-- the master is out of the table; the cached keys are still to be dropped -/
  | evictCustomer (customer : AccountId)
  /-- the cache had no entry; the table is still to be read -/
  | missed (customer : Option AccountId) (seed : String)
  /-- the key is derived and the guard on the table is held; the cache is still to be filled -/
  | derived (customer : Option AccountId) (seed : String) (keypair : KeyPair)

/-- Whether a call holds the read guard on the table of masters. -/
def Call.holdsMasters {KeyPair : Type} : Call KeyPair → Bool
  | .derived _ _ _ => true
  | _              => false

/-- Whose cached keys a call is still to drop. -/
def Call.purges {KeyPair : Type} : Call KeyPair → Option AccountId
  | .addCustomer customer   => some customer
  | .evictCustomer customer => some customer
  | _                       => none

/-- A keystore, and the calls in progress by their ids. -/
structure State (Master KeyPair : Type) where
  defaultMaster : Master
  masters : LookupMap AccountId Master := ∅
  keypairCache : LookupMap (Option AccountId × String) KeyPair := ∅
  calls : LookupMap Nat (Call KeyPair) := ∅

/-- One section of one call. -/
inductive Event (Master : Type)
  /-- the first section of `add_customer` -/
  | addCustomer (id : Nat) (customer : AccountId) (master : Master)
  /-- the first section of `evict_customer` -/
  | evictCustomer (id : Nat) (customer : AccountId)
  /-- the second section of both, after which the call returns -/
  | evictCustomerCache (id : Nat)
  /-- `derive_keypair` reads the cache -/
  | readCache (id : Nat) (customer : Option AccountId) (seed : String)
  /-- `derive_keypair` takes the guard on the table and derives -/
  | readMaster (id : Nat)
  /-- `derive_keypair` fills the cache, lets go of the guard and returns -/
  | fillCache (id : Nat)
  /-- `master_for`, on which the derivations that cache nothing rest -/
  | masterFor (customer : Option AccountId)

/-- What a section gives back to its caller. -/
inductive Output (Master KeyPair : Type)
  /-- nothing yet -/
  | running
  | returned
  | keypair (customer : Option AccountId) (seed : String) (keypair : KeyPair)
  | master (customer : Option AccountId) (master : Master)
  | vaultMasterNotLoaded (customer : AccountId)

section Sections
variable {Master KeyPair : Type}

/-- `None` is the default master; a customer's is the one in the table. -/
def State.masterFor (s : State Master KeyPair) : Option AccountId → Except AccountId Master
  | none => .ok s.defaultMaster
  | some customer =>
      match s.masters.lookup customer with
      | some master => .ok master
      | none        => .error customer

/-- Whether some call holds the read guard on the table. -/
def State.guarded (s : State Master KeyPair) : Bool := s.calls.entries.any fun e => e.2.holdsMasters

/-- Drop every cached key of a customer. -/
def dropCached (customer : AccountId) (cache : LookupMap (Option AccountId × String) KeyPair) :
    LookupMap (Option AccountId × String) KeyPair :=
  cache.retain fun key => decide (key.1 ≠ some customer)

/-- A call begins under an id that no call in progress has. -/
def State.begin (s : State Master KeyPair) (id : Nat) (call : Call KeyPair) : Option (State Master KeyPair) :=
  if (s.calls.lookup id).isSome then none else some { s with calls := s.calls.insert id call }

/-- A section, when its lock can be taken. -/
def next (derive : Master → String → KeyPair) (s : State Master KeyPair) :
    Event Master → Option (State Master KeyPair × Output Master KeyPair)
  | .addCustomer id customer master => do
      guard (s.guarded = false)
      let s' ← s.begin id (.addCustomer customer)
      pure ({ s' with masters := s.masters.insert customer master }, .running)
  | .evictCustomer id customer => do
      guard (s.guarded = false)
      let s' ← s.begin id (.evictCustomer customer)
      pure ({ s' with masters := s.masters.erase customer }, .running)
  | .evictCustomerCache id => do
      let customer ← (← s.calls.lookup id).purges
      pure ({ s with
        keypairCache := dropCached customer s.keypairCache
        calls := s.calls.erase id }, .returned)
  | .readCache id customer seed =>
      match s.keypairCache.lookup (customer, seed) with
      | some keypair => some (s, .keypair customer seed keypair)
      | none => do
          let s' ← s.begin id (.missed customer seed)
          pure (s', .running)
  | .readMaster id =>
      match s.calls.lookup id with
      | some (.missed customer seed) =>
          match s.masterFor customer with
          | .ok master =>
              some ({ s with calls := s.calls.insert id (.derived customer seed (derive master seed)) }, .running)
          | .error missing => some ({ s with calls := s.calls.erase id }, .vaultMasterNotLoaded missing)
      | _ => none
  | .fillCache id =>
      match s.calls.lookup id with
      | some (.derived customer seed keypair) =>
          some ({ s with
            keypairCache := s.keypairCache.insert (customer, seed) keypair
            calls := s.calls.erase id }, .keypair customer seed keypair)
      | _ => none
  | .masterFor customer =>
      match s.masterFor customer with
      | .ok master     => some (s, .master customer master)
      | .error missing => some (s, .vaultMasterNotLoaded missing)

end Sections

end KeyCache
end Keystore
end Outlayer
