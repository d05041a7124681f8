import Outlayer.Lib.BigEndian
import Outlayer.Lib.Exchange
import Outlayer.Lib.Json
import Outlayer.Lib.TextParts

/-!
# `Worker.StorageClient` — the client of the storage

A record is kept by the coordinator under the hash of its name. The name and the value of an encrypted one are sealed
and opened by the keystore; those of a raw one are as they were given. What either service answers is left open: a
request may fail to be sent, be refused, or be answered with a body that does not parse. An error is its outermost
message.
-/

namespace Outlayer.Worker.Storage
open Text Json Exchange

/-- Bytes, as they are stored and sent. -/
abbrev Bytes := List UInt8

/-! ## Requests and answers -/

/-- Whose storage it is: the project, or else the build, and the account. -/
structure StorageConfig where
  projectUuid : String
  wasmHash : String
  accountId : String

/-- The configuration, and what the client takes from libraries. -/
structure Env where
  config : StorageConfig
  sha256 : Bytes → Bytes
  base64Decode : String → Option Bytes
  /-- a status as it is written: the code and its reason -/
  statusText : Nat → String
  /-- `stored_is_encrypted` of the body of a refusal for the mode -/
  modeMismatch : String → Option Bool

/-- The body of a request to seal a record. -/
structure EncryptRequest where
  projectUuid : String
  wasmHash : String
  accountId : String
  key : String
  valueBase64 : String

/-- The sealed name and value, and the hash the record is stored under. -/
structure EncryptResponse where
  encryptedKeyBase64 : String
  encryptedValueBase64 : String
  keyHash : String

/-- The body of a request to open a record. -/
structure DecryptRequest where
  projectUuid : String
  wasmHash : String
  accountId : String
  encryptedKeyBase64 : String
  encryptedValueBase64 : String

/-- The name and the value of a record that was opened. -/
structure DecryptResponse where
  key : String
  valueBase64 : String

/-- The body of a request to read a record. -/
structure GetRequest where
  projectUuid : String
  accountId : String
  keyHash : String

/-- A record as the coordinator holds it, if there is one. -/
structure GetResponse where
  «exists» : Bool
  encryptedKey : Option Bytes
  encryptedValue : Option Bytes
  isEncrypted : Bool

/-- One record of a listing. -/
structure KeyInfo where
  keyHash : String
  encryptedKey : Bytes
  encryptedValue : Bytes
  isEncrypted : Bool

/-- The body of a request to write a record where there is none. -/
structure SetIfAbsentRequest where
  projectUuid : String
  wasmHash : String
  accountId : String
  keyHash : String
  encryptedKey : Bytes
  encryptedValue : Bytes

/-- The body of a request to replace one ciphertext by another. -/
structure SetIfEqualsRequest where
  projectUuid : String
  wasmHash : String
  accountId : String
  keyHash : String
  expectedEncryptedValue : Bytes
  newEncryptedKey : Bytes
  newEncryptedValue : Bytes

/-- Whether the ciphertext was replaced, and the one that is there if not. -/
structure SetIfEqualsResponse where
  updated : Bool
  currentEncryptedValue : Option Bytes
  currentEncryptedKey : Option Bytes

/-- What the client asks: of the keystore, of the coordinator, or of its own clock. -/
inductive Ask
  | encrypt (body : EncryptRequest)
  | decrypt (body : DecryptRequest)
  | get (body : GetRequest)
  | list (accountId projectUuid : String)
  | setIfAbsent (body : SetIfAbsentRequest)
  | setIfEquals (body : SetIfEqualsRequest)
  /-- whether the time for a listing is over -/
  | listTimedOut

/-- An answer with its status, its body, and what the body parses to. -/
structure Response (α : Type) where
  status : Nat
  text : String
  parsed : Option α

/-- The status says that the request was carried out. -/
def Response.isSuccess {α : Type} (r : Response α) : Bool := decide (200 ≤ r.status) && decide (r.status < 300)

/-- None where the request was not answered. -/
abbrev Reply (α : Type) := Option (Response α)

/-- What is answered to each request. -/
abbrev Answer : Ask → Type
  | .encrypt _     => Reply EncryptResponse
  | .decrypt _     => Reply DecryptResponse
  | .get _         => Reply GetResponse
  | .list _ _      => Reply (List KeyInfo)
  | .setIfAbsent _ => Reply Bool
  | .setIfEquals _ => Reply SetIfEqualsResponse
  | .listTimedOut  => Bool

/-- A call of the client: its requests, and a result or a message. -/
abbrev Client := Exchange Ask Answer String

/-- A request and what it was answered. -/
abbrev StorageEvent := Exchange.Event Answer

/-- Ask, and go on with the answer. -/
def asking (q : Ask) : Client (Answer q) := query q

/-- What a request was answered, or the error that its failure makes. -/
def receive {α : Type} (unsent : String) (refused : Response α → String) (garbled : String) :
    Reply α → Except String α
  | none => .error unsent
  | some r =>
      if r.isSuccess = false then .error (refused r)
      else
        match r.parsed with
        | none   => .error garbled
        | some a => .ok a

/-! ## Modes -/

/-- The mode a record is stored in. -/
inductive Mode
  | encrypted
  | raw
deriving DecidableEq

/-- The mode a record was written in. -/
def Mode.of (isEncrypted : Bool) : Mode := if isEncrypted then .encrypted else .raw

/-- The mode as messages name it. -/
def Mode.written : Mode → String
  | .encrypted => "encrypted"
  | .raw       => "raw"

/-- The refusal of a call that reads a record in the mode it was not written in. -/
def wrongMode (stored : Mode) (advice : String) : String :=
  "the record at this key was written " ++ stored.written ++ "; " ++ advice

/-- The mode of the stored record, where a write is refused for being in the other. -/
def refusedMode (env : Env) (status : Nat) (body : String) : Option Mode :=
  if status ≠ 409 then none else (env.modeMismatch body).map Mode.of

/-! ## The keystore -/

/-- A record as the keystore sealed it. -/
structure EncryptedData where
  encryptedKey : Bytes
  encryptedValue : Bytes
  keyHash : String

/-- A record as the keystore opened it. -/
structure DecryptedData where
  key : String
  value : Bytes

/-- Bytes from a text the keystore sent. -/
def base64Decode (env : Env) (data : String) : Except String Bytes :=
  match env.base64Decode data with
  | some bytes => .ok bytes
  | none       => .error "Invalid base64"

/-- The hash a name is stored under. -/
def hashKey (env : Env) (key : String) : String := hexEncode (env.sha256 (utf8 key))

/-- Have the keystore seal a name and a value. -/
def encryptViaKeystore (env : Env) (key : String) (value : Bytes) : Client EncryptedData := do
  let reply ← asking (.encrypt ⟨env.config.projectUuid, env.config.wasmHash, env.config.accountId, key,
    base64Encode value⟩)
  let resp ← lift (receive "Failed to send keystore encrypt request"
    (fun r => "Keystore encrypt failed: " ++ env.statusText r.status ++ " - " ++ r.text)
    "Failed to parse keystore encrypt response" reply)
  let encryptedKey ← lift (base64Decode env resp.encryptedKeyBase64)
  let encryptedValue ← lift (base64Decode env resp.encryptedValueBase64)
  pure ⟨encryptedKey, encryptedValue, resp.keyHash⟩

/-- Have the keystore open a record. -/
def decryptViaKeystore (env : Env) (encryptedKey encryptedValue : Bytes) : Client DecryptedData := do
  let reply ← asking (.decrypt ⟨env.config.projectUuid, env.config.wasmHash, env.config.accountId,
    base64Encode encryptedKey, base64Encode encryptedValue⟩)
  let resp ← lift (receive "Failed to send keystore decrypt request"
    (fun r => "Keystore decrypt failed: " ++ env.statusText r.status ++ " - " ++ r.text)
    "Failed to parse keystore decrypt response" reply)
  let value ← lift (base64Decode env resp.valueBase64)
  pure ⟨resp.key, value⟩

/-! ## Reading -/

/-- The value under a name, if there is one. -/
def get (env : Env) (key : String) : Client (Option Bytes) := do
  let reply ← asking (.get ⟨env.config.projectUuid, env.config.accountId, hashKey env key⟩)
  let resp ← lift (receive "Failed to send storage get request"
    (fun r => "Storage get failed: " ++ env.statusText r.status ++ " - " ++ r.text)
    "Failed to parse storage get response" reply)
  if resp.exists = false then pure none
  else if resp.isEncrypted = false then .fail (wrongMode .raw "read it with get-raw")
  else
    match resp.encryptedKey, resp.encryptedValue with
    | some encKey, some encValue => do
        let decrypted ← decryptViaKeystore env encKey encValue
        pure (some decrypted.value)
    | _, _ => pure none

/-- The name of a listed record. One that cannot be told is left out. -/
def listedName (env : Env) (info : KeyInfo) : Client (Option String) :=
  if info.isEncrypted then do
    match ← (decryptViaKeystore env info.encryptedKey info.encryptedValue).attempt with
    | .ok decrypted => pure (some decrypted.key)
    | .error _      => pure none
  else pure (fromUtf8 info.encryptedKey)

/-- Open the records of a listing one after the other, within the time that is left. -/
def listLoop (env : Env) (pre : String) (total : Nat) : List KeyInfo → List String → Client (List String)
  | [], decryptedKeys => pure decryptedKeys
  | info :: keys, decryptedKeys => do
      let late : Bool ← asking .listTimedOut
      if late then
        .fail ("list_keys timed out after 25s: too many keys (" ++ toString total ++ " total). " ++
          "Consider using prefix filter or reducing stored keys.")
      else
        match ← listedName env info with
        | none     => listLoop env pre total keys decryptedKeys
        | some key =>
            listLoop env pre total keys
              (if pre = "" ∨ startsWith key pre = true then decryptedKeys ++ [key] else decryptedKeys)

/-- The names that begin with `pre`, as one JSON array. -/
def listKeys (env : Env) (pre : String) : Client String := do
  let reply ← asking (.list env.config.accountId env.config.projectUuid)
  let keys ← lift (receive "Failed to send storage list request"
    (fun r => "storage list failed: HTTP " ++ env.statusText r.status) "Failed to parse storage list response" reply)
  let decryptedKeys ← listLoop env pre keys.length keys []
  pure (Value.arr (decryptedKeys.map Value.str)).compact

/-! ## Conditional writes -/

/-- Write a value where there is none; whether it was written. -/
def setIfAbsent (env : Env) (key : String) (value : Bytes) : Client Bool := do
  let encrypted ← encryptViaKeystore env key value
  let reply ← asking (.setIfAbsent ⟨env.config.projectUuid, env.config.wasmHash, env.config.accountId,
    encrypted.keyHash, encrypted.encryptedKey, encrypted.encryptedValue⟩)
  lift (receive "Failed to send storage set-if-absent request"
    (fun r => "Storage set-if-absent failed: " ++ env.statusText r.status ++ " - " ++ r.text)
    "Failed to parse set-if-absent response" reply)

/-- Compare and swap: whether it was done, and where it was not the value that is there. -/
def setIfEquals (env : Env) (key : String) (expected newValue : Bytes) : Client (Bool × Option Bytes) := do
  let getReply ← asking (.get ⟨env.config.projectUuid, env.config.accountId, hashKey env key⟩)
  let getResp ← lift (receive "Failed to send storage get request for set_if_equals"
    (fun _ => "Storage get failed during set_if_equals") "Failed to parse get response" getReply)
  if getResp.exists = false then pure (false, none)
  else if getResp.isEncrypted = false then .fail (wrongMode .raw "compare it with set-if-equals-raw")
  else
    match getResp.encryptedKey, getResp.encryptedValue with
    | some currentEncKey, some currentEncValue => do
        let decrypted ← decryptViaKeystore env currentEncKey currentEncValue
        if decrypted.value ≠ expected then pure (false, some decrypted.value)
        else do
          let newEncrypted ← encryptViaKeystore env key newValue
          let reply ← asking (.setIfEquals ⟨env.config.projectUuid, env.config.wasmHash, env.config.accountId,
            hashKey env key, currentEncValue, newEncrypted.encryptedKey, newEncrypted.encryptedValue⟩)
          let updateResp ← lift (receive "Failed to send storage set-if-equals request"
            (fun r =>
              match refusedMode env r.status r.text with
              | some stored => wrongMode stored "compare it with set-if-equals-raw"
              | none => "Storage set-if-equals failed: " ++ env.statusText r.status ++ " - " ++ r.text)
            "Failed to parse set-if-equals response" reply)
          if updateResp.updated then pure (true, none)
          else
            match updateResp.currentEncryptedKey, updateResp.currentEncryptedValue with
            | some encKey, some encValue => do
                let current ← decryptViaKeystore env encKey encValue
                pure (false, some current.value)
            | _, _ => pure (false, none)
    | _, _ => pure (false, none)

/-! ## Counters -/

/-- The eight bytes of a number, the lowest first. -/
def toLeBytes (n : Int64) : Bytes := (BigEndian.bytes 8 n.toBitVec.toNat).reverse

/-- The number that eight bytes stand for. -/
def fromLeBytes (bytes : Bytes) : Int64 := Int64.ofBitVec (BitVec.ofNat 64 (BigEndian.value bytes.reverse))

/-- A sum, if it fits 64 bits. -/
def checkedAdd (a b : Int64) : Option Int64 :=
  if -2 ^ 63 ≤ a.toInt + b.toInt ∧ a.toInt + b.toInt < 2 ^ 63 then some (a + b) else none

/-- The message of a sum that does not fit. -/
def overflow : String := "increment: overflow"

/-- Read the number and write the sum, and begin again where another call was faster. -/
def incrementLoop (env : Env) (key : String) (delta : Int64) : (attempts : Nat) → Client Int64
  | 0 => .fail ("increment: max retries (5) exceeded for key=" ++ key)
  | attempts + 1 => do
      match ← get env key with
      | none =>
          -- another call may have created it in between
          if ← setIfAbsent env key (toLeBytes delta) then pure delta else incrementLoop env key delta attempts
      | some currentBytes =>
          if currentBytes.length ≠ 8 then
            .fail ("increment: invalid value format, expected 8 bytes (i64), got " ++ toString currentBytes.length)
          else
            match checkedAdd (fromLeBytes currentBytes) delta with
            | none => .fail overflow
            | some newValue => do
                let (success, _) ← setIfEquals env key currentBytes (toLeBytes newValue)
                if success then pure newValue else incrementLoop env key delta attempts

/-- Add to a counter, in at most five attempts. -/
def increment (env : Env) (key : String) (delta : Int64) : Client Int64 := incrementLoop env key delta 5

/-- The negated number wraps around at the smallest one. -/
def decrement (env : Env) (key : String) (delta : Int64) : Client Int64 := increment env key (-delta)

end Outlayer.Worker.Storage
