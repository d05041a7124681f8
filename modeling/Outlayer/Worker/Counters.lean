import Outlayer.Lib.Interleave
import Outlayer.Worker.StorageClient

/-!
# `Worker.Counters` — calls that count, side by side

Any number of calls of `increment` and `decrement` on one key, over one coordinator and one keystore. The coordinator
carries out one request at a time; its answer may be lost, whether or not the request was carried out. The keystore
seals under a ciphertext that it never used before, and opens what it sealed.
-/

namespace Outlayer.Worker.Storage
open Text Exchange

/-! ## The calls -/

/-- A call on a counter. -/
inductive CounterCall
  | increment (delta : Int64)
  | decrement (delta : Int64)
deriving DecidableEq

/-- What the call asks for: its delta, or the delta taken away. -/
def CounterCall.signed : CounterCall → Int
  | .increment delta => delta.toInt
  | .decrement delta => -delta.toInt

/-- The client's program for a call. -/
def CounterCall.program (env : Env) (key : String) : CounterCall → Client Int64
  | .increment delta => Storage.increment env key delta
  | .decrement delta => Storage.decrement env key delta

/-- A call, and its place among the calls. -/
abbrev Caller := Nat × CounterCall

/-! ## The services -/

/-- A record of the coordinator. -/
structure Held where
  encryptedKey : Bytes
  encryptedValue : Bytes
  isEncrypted : Bool

/-- What the keystore sealed: the name and the value, and what they were sealed to. -/
structure Sealed where
  key : String
  value : Bytes
  encryptedKey : Bytes
  encryptedValue : Bytes
deriving DecidableEq

/-- A change of the number: whose, and what the number was before and after. -/
structure Change where
  caller : Caller
  before : Int
  after : Int
deriving DecidableEq

/-- The storage service and the keystore, with the changes made and the answers given. -/
structure Services where
  held : String → Option Held
  sealed : List Sealed
  /-- the changes so far, in order -/
  changes : List Change
  /-- what the calls that ended returned -/
  returned : List (Caller × Except String Int64)

/-- The number under a hash: what the keystore opens the value to, and 0 where there is none. -/
def Services.number (w : Services) (keyHash : String) : Int :=
  match w.held keyHash with
  | none => 0
  | some held =>
      match w.sealed.find? fun s => s.encryptedValue = held.encryptedValue with
      | none   => 0
      | some s => (fromLeBytes s.value).toInt

/-- A record written for a caller. -/
def Services.write (w : Services) (caller : Caller) (keyHash : String) (held : Held) : Services :=
  let w' := { w with held := fun h => if h = keyHash then some held else w.held h }
  { w' with changes := w.changes ++ [⟨caller, w.number keyHash, w'.number keyHash⟩] }

/-- Stores a record where there is none. -/
def Services.setIfAbsent (w : Services) (caller : Caller) (b : SetIfAbsentRequest) : Bool × Services :=
  match w.held b.keyHash with
  | none   => (true, w.write caller b.keyHash ⟨b.encryptedKey, b.encryptedValue, true⟩)
  | some _ => (false, w)

/-- Stores a record in the place of one that is as expected. -/
def Services.setIfEquals (w : Services) (caller : Caller) (b : SetIfEqualsRequest) : SetIfEqualsResponse × Services :=
  match w.held b.keyHash with
  | none => (⟨false, none, none⟩, w)
  | some held =>
      if held.encryptedValue = b.expectedEncryptedValue then
        (⟨true, none, none⟩, w.write caller b.keyHash ⟨b.newEncryptedKey, b.newEncryptedValue, true⟩)
      else (⟨false, some held.encryptedValue, some held.encryptedKey⟩, w)

/-- The record under a key. -/
def Services.get (w : Services) (b : GetRequest) : GetResponse :=
  match w.held b.keyHash with
  | none      => ⟨false, none, none, true⟩
  | some held => ⟨true, some held.encryptedKey, some held.encryptedValue, held.isEncrypted⟩

/-- What becomes of a request. -/
inductive Happening
  /-- it is carried out, and the answer arrives -/
  | answered
  /-- the keystore seals a value, and writes the ciphertexts in base64 -/
  | seals (value encryptedKey encryptedValue : Bytes) (keyText valueText : String)
  /-- the keystore opens what it sealed, and writes the value in base64 -/
  | opens (s : Sealed) (valueText : String)
  /-- no answer arrives that is one, whether or not the request was carried out -/
  | lost (carriedOut : Bool) (failure : Option (Nat × String))

/-- What arrives. -/
def delivered {α : Type} (a : α) : Reply α := some ⟨200, "", some a⟩

/-- What arrives in place of an answer: nothing, a refusal, or a body that does not parse. -/
def failing {α : Type} (failure : Option (Nat × String)) : Reply α := failure.map fun f => ⟨f.1, f.2, none⟩

/-- What the services answer to a request, for each thing that may happen to it. -/
def Services.ask (env : Env) (w : Services) (caller : Caller) :
    (q : Ask) → Happening → Option (Answer q × Services)
  | .get b, .answered => some (delivered (w.get b), w)
  | .setIfAbsent b, .answered =>
      let (inserted, w') := w.setIfAbsent caller b
      some (delivered inserted, w')
  | .setIfEquals b, .answered =>
      let (resp, w') := w.setIfEquals caller b
      some (delivered resp, w')
  | .encrypt b, .seals value encryptedKey encryptedValue keyText valueText =>
      if b.valueBase64 = base64Encode value ∧ env.base64Decode keyText = some encryptedKey ∧
          env.base64Decode valueText = some encryptedValue ∧ ∀ s ∈ w.sealed, s.encryptedValue ≠ encryptedValue then
        some (delivered ⟨keyText, valueText, hashKey env b.key⟩,
          { w with sealed := w.sealed ++ [⟨b.key, value, encryptedKey, encryptedValue⟩] })
      else none
  | .decrypt b, .opens s valueText =>
      if s ∈ w.sealed ∧ b.encryptedValueBase64 = base64Encode s.encryptedValue ∧
          env.base64Decode valueText = some s.value then
        some (delivered ⟨s.key, valueText⟩, w)
      else none
  | .get _, .lost _ failure     => some (failing failure, w)
  | .encrypt _, .lost _ failure => some (failing failure, w)
  | .decrypt _, .lost _ failure => some (failing failure, w)
  | .setIfAbsent b, .lost carriedOut failure =>
      some (failing failure, if carriedOut then (w.setIfAbsent caller b).2 else w)
  | .setIfEquals b, .lost carriedOut failure =>
      some (failing failure, if carriedOut then (w.setIfEquals caller b).2 else w)
  | _, _ => none

/-- A call's requests, and at its end what it returns. -/
def Services.serve (env : Env) (w : Services) (caller : Caller) :
    (q : Ask ⊕ Except String Int64) → Happening →
      Option (Sum.elim Answer (fun _ => Unit) q × Services)
  | .inl q, how => w.ask env caller q how
  | .inr r, _   => some ((), { w with returned := w.returned ++ [(caller, r)] })

/-! ## Side by side -/

/-- Calls on counters under way at once. -/
abbrev Counting := Pool (Ask ⊕ Except String Int64) (Sum.elim Answer fun _ => Unit) Caller Services

/-- The calls before any of them began. -/
def counting (env : Env) (key : String) (calls : List CounterCall) (w : Services) : Counting :=
  ⟨w, calls.zipIdx.map fun c => ((c.2, c.1), (c.1.program env key).announce)⟩

/-- One event: a call makes its next request, or ends. -/
abbrev countingStep (env : Env) := Pool.step (Services.serve env)

end Outlayer.Worker.Storage
