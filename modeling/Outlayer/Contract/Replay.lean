import Outlayer.Contract.World

/-!
# `Contract.Replay` — histories given by their events

A finite list of events determines a history, if every one of them can happen. `World.replay` computes it from
a fresh deployment, and `exists_history` turns a test on the result into a statement about a history. The
concrete histories of this development run on `asciiHost`, whose tables are those of ASCII text.
-/

namespace Outlayer
open Text Collections Runs

/-- The Unicode tables cut down to ASCII. -/
def asciiTables : Unicode where
  isAlphanumeric _ := false
  debug c := String.ofList ['\'', c, '\'']
  lower _ c _ := if isAsciiUppercase c then [] else [c]
  lower_not_upper := by
    intro _ c _ d hd
    split at hd
    · cases hd
    · next h =>
        obtain rfl := List.mem_singleton.mp hd
        simpa using h

/-- A host for histories that neither hash nor verify anything. -/
def asciiHost : Host where
  sha256 _ := Vector.replicate 32 0
  ed25519Verify _ _ _ := false
  ecrecover _ _ _ := none
  unicode := asciiTables
  jsonNumber := some

/-- The accounts that replays are run by. -/
def ownerAccount : AccountId := ⟨"outlayer.near", by decide⟩
def aliceAccount : AccountId := ⟨"alice.near", by decide⟩
def bobAccount : AccountId := ⟨"bob.near", by decide⟩
def tokenAccount : AccountId := ⟨"usdt.near", by decide⟩

/-- The context of a call by `who`; the yield it may create gets an id made of `data`. -/
def envOf (who : AccountId) (deposit time : Nat) (data : UInt8) : Env where
  predecessor := who
  signer := who
  current := ownerAccount
  attachedDeposit := deposit % 2 ^ 128
  blockTimestamp := time % 2 ^ 64
  dataId := Vector.replicate 32 data
  attachedDeposit_lt := Nat.mod_lt _ (by decide)
  blockTimestamp_lt := Nat.mod_lt _ (by decide)

/-- A call by `who`, with a deposit and a time. -/
def callBy (who : AccountId) (call : Call) (deposit : Nat := 0) (time : Nat := 0) (data : UInt8 := 0) : Event :=
  .call (envOf who deposit time data) call

/-- The chain right after `ownerAccount` deployed. -/
def World.fresh : World := World.deploy (Contract.new ownerAccount none none none)

/-- Replay events from the deployment. -/
def World.replay (es : List Event) : Option (List Step × World) :=
  Runs.replay (World.next asciiHost) World.fresh es

/-- A replay from any world, whose result passes a test, gives a run that passes it. -/
theorem exists_replay (H : Host) (w₀ : World) (es : List Event) (p : List Step × World → Bool)
    (h : (Runs.replay (World.next H) w₀ es).any p = true) :
    ∃ tr w, Run (World.next H) w₀ tr w ∧ p (tr, w) = true :=
  exists_run h

/-- A replay whose result passes a test gives a history that passes it. -/
theorem exists_history (es : List Event) (p : List Step × World → Bool)
    (h : (World.replay es).any p = true) :
    ∃ tr w, World.History asciiHost ownerAccount none none none tr w ∧ p (tr, w) = true :=
  exists_replay asciiHost World.fresh es p h

/-- Five units are deposited by bob, who attaches them to a run of alice's project; `ending` follows. -/
def attachedRun (ending : List Event) : List Event :=
  [callBy ownerAccount (.setPaymentTokenContract (some tokenAccount)),
   callBy tokenAccount (.ftOnTransfer bobAccount 5 (some .depositBalance)),
   callBy aliceAccount (.createProject "app" (.gitHub "alice/app" "main" none)) (10 ^ 24),
   callBy bobAccount (.requestExecution
     { source := .project "alice.near/app" none, params := some { attachedUsd := some 5 } }) (10 ^ 24) 0 1]
  ++ ending

/-! ## A wallet that signed once

An Ed25519 key, and its signature over the first policy `aliceAccount` files for it, good until second 1000. -/

/-- A wallet's key. -/
def walletKey : String := "ed25519:ea4a6c63e29c520abef5507b132ec5f9954776aebebe7b92421eea691446d22c"

/-- A signature of that wallet's. -/
def walletSignature : String :=
  "0b5013611ee0c8e689aea34af3da4ebc430912e6f92b312ad3dd2e3a384c8a87"
    ++ "c668e345f68beb910e246212f1ef949d0e0521dc2c80ebd255af075401e9530c"

/-- The SHA-256 of the signed message. -/
def walletDigest : CryptoHash :=
  #v[96, 183, 204, 25, 133, 198, 65, 216, 113, 41, 17, 59, 65, 149, 196, 199, 41, 113, 190, 217, 78, 164, 10, 75,
     131, 233, 50, 202, 112, 162, 68, 212]

/-- A host that knows this one digest and accepts this one signature. -/
def walletHost : Host where
  sha256 s :=
    if s = policyStoreMessage walletKey 1 false 1000 "policy" aliceAccount then walletDigest
    else Vector.replicate 32 0
  ed25519Verify sig digest pubkey :=
    decide (hexEncode sig = walletSignature ∧ digest = walletDigest ∧ "ed25519:" ++ hexEncode pubkey = walletKey)
  ecrecover _ _ _ := none
  unicode := asciiTables
  jsonNumber := some

/-- The policy the wallet signed, filed at second `time`. -/
def filePolicy (time : Nat) : Event :=
  callBy aliceAccount (.storeWalletPolicy walletKey "policy" walletSignature 1 false 1000 none) (10 ^ 24)
    (time * 1000000000)

end Outlayer
