import Outlayer.Contract.World
import Outlayer.Lib.Json

/-!
# `Worker.TopUps` — a top-up on its way through the contract, the worker and the coordinator

A token transfer to the contract creates a yield and logs an event. A worker makes a task of the event, decrypts
the payment key, adds the amount, encrypts it again, resumes the yield, and then tells the coordinator to credit
the key. Whether the tokens are kept is decided elsewhere and later, by the contract's callback.

`Chain` is the contract's world with what its steps leave behind for the others: the tasks made of its events, and
how each top-up was settled. `System` is the chain together with the jobs the workers have under way and the
credits the coordinator was told of; `System.next` is everything that can happen, in any order.

The keystore, the node and the coordinator are services: what they answer is part of the step in which they are
asked. The coordinator may hand out a task any number of times, to any number of workers.
-/

namespace Outlayer
open Text Checked Collections Runs

namespace Worker

/-! ## Tasks -/

/-- The task of a top-up, as the worker makes it from the contract's event. -/
structure TopUpTaskData where
  dataId : String
  owner : String
  nonce : Nat
  amount : String
  encryptedData : String
deriving DecidableEq

/-- The task made of an event. The creation of a key has an amount of zero and no yield, so its task gets an id of
    its own. -/
def handleTopupPaymentKey (H : Host) (dataId : CryptoHash) (owner : AccountId) (nonce amount : Nat)
    (encryptedData : String) : TopUpTaskData where
  dataId :=
    if toString amount = "0" then hexEncode (H.sha256 ("init:" ++ owner.name ++ ":" ++ toString nonce)).toList
    else hexEncode dataId.toList
  owner := owner.name
  nonce := nonce
  amount := toString amount
  encryptedData := encryptedData

/-- The task an effect of the contract announces. -/
def topUpTaskOf (H : Host) : Effect → Option TopUpTaskData
  | .storage (.event _ _ (.topUpPaymentKey dataId owner nonce amount encryptedData)) =>
      some (handleTopupPaymentKey H dataId owner nonce amount encryptedData)
  | _ => none

/-! ## What the worker computes -/

/-- What the services answer while one task is worked on; `none` is a failure. -/
structure Services where
  fetchPaymentKeyVault : (owner : String) → (nonce : Nat) → Option (Option String)
  decryptRaw : (seed encryptedBase64 : String) → (vaultId : Option String) → Option (List UInt8)
  encrypt : (seed plaintext : String) → (vaultId : Option String) → Option String
  initPaymentKey : (owner : String) → (nonce : Nat) → (keyHash : String) → (projectIds : List String) →
    (maxPerCall : Option String) → Bool

/-- What is known of a key once its task went through. -/
structure ProcessedTopUp where
  newBalance : String
  keyHash : String
  projectIds : List String
  maxPerCall : Option String
deriving DecidableEq

/-- A task worked on up to the point where the contract is called: a new key is done, a top-up is to be resumed. -/
inductive Prepared
  | initialized (result : ProcessedTopUp)
  | ready (newEncryptedData : String) (result : ProcessedTopUp)

/-- The name of a key: the hash of its text. -/
def publicKeyName (H : Host) (blob : Json.Value) : Option String :=
  ((blob.get "key").bind Json.Value.asStr).map fun key => hexEncode (H.sha256 key).toList

/-- `process_topup_task` up to its call of the contract. An error is the text the payer would be told. -/
def processTopupTask (H : Host) (S : Services) (task : TopUpTaskData) : Res Prepared := do
  let seed := "system:payment_key:" ++ task.owner ++ ":" ++ toString task.nonce
  let vaultId ← expect (S.fetchPaymentKeyVault task.owner task.nonce)
    "Failed to read the payment key's vault binding from the contract"
  let decryptedBytes ← expect (S.decryptRaw seed task.encryptedData vaultId) "Failed to decrypt Payment Key data"
  let decryptedStr ← expect (String.fromUTF8? ⟨decryptedBytes.toArray⟩) "Payment Key data is not valid UTF-8"
  let paymentKeyData ← expect (Json.parse H.jsonNumber decryptedStr) "Failed to parse Payment Key JSON"
  let keyHash ← expect (publicKeyName H paymentKeyData)
    ("payment key " ++ task.owner ++ ":" ++ toString task.nonce
      ++ " has no `key` in its blob — keyless (agent) payment keys are no longer issued, and this worker will not name "
      ++ "a key row after an account")
  let projectIds := (((paymentKeyData.get "project_ids").bind Json.Value.asArray).map
    (·.filterMap Json.Value.asStr)).getD []
  let maxPerCall := (paymentKeyData.get "max_per_call").bind Json.Value.asStr
  let currentBalance ← expect ((paymentKeyData.get "initial_balance").bind Json.Value.asStr)
    "Missing initial_balance field"
  let currentBalance ← expect (parseUnsigned 128 currentBalance) "Failed to parse initial_balance as u128"
  let topupAmount ← expect (parseUnsigned 128 task.amount) "Failed to parse topup amount as u128"
  if topupAmount = 0 then do
    require (S.initPaymentKey task.owner task.nonce keyHash projectIds maxPerCall = true)
      "Failed to init payment key in coordinator"
    pure (.initialized { newBalance := "0", keyHash, projectIds, maxPerCall })
  else do
    -- built without overflow checks: the sum wraps
    let newBalance := (currentBalance + topupAmount) % 2 ^ 128
    let updated := paymentKeyData.set "initial_balance" (.str (toString newBalance))
    let newEncryptedData ← expect (S.encrypt seed updated.compact vaultId)
      "Failed to encrypt updated Payment Key data"
    pure (.ready newEncryptedData { newBalance := toString newBalance, keyHash, projectIds, maxPerCall })

/-- What `resume_topup` and `resume_delete_payment_key` say when their yield is gone. -/
def noYieldLogs : List String := ["TopUp yield resume failed", "DeletePaymentKey yield resume failed"]

/-- A refusal that says that the yield is gone: it was settled, and nothing can resume it. -/
def yieldGone (why : String) : Bool := noYieldLogs.any fun marker => contains why marker

/-! ## Jobs -/

/-- How far a worker is with a task: the contract is to be called, the coordinator is to be told, or the payer is. -/
inductive Stage
  | resuming (newEncryptedData : String) (result : ProcessedTopUp)
  | crediting (result : ProcessedTopUp)
  | failing (message : String)
deriving DecidableEq

/-- A top-up the worker has taken, and how far it is. -/
structure Job where
  task : TopUpTaskData
  stage : Stage
deriving DecidableEq

/-- Take a task up. A worker without a keystore has no services to ask. -/
def Job.start (H : Host) (keystore : Option Services) (task : TopUpTaskData) : Job where
  task := task
  stage :=
    match keystore with
    | none   => .failing "Keystore not configured on this worker"
    | some S =>
        match processTopupTask H S task with
        | .ok (.initialized result)            => .crediting result
        | .ok (.ready newEncryptedData result) => .resuming newEncryptedData result
        | .error e                             => .failing ("TopUp failed: " ++ e)

/-- The stage of a job whose answer the contract did not take. -/
def resumeFailed : Stage := .failing "TopUp failed: Failed to resume TopUp on contract"

/-- Where a job goes when the outcome of its resumption is seen: a refusal that says the yield is gone ends it, for
    the payer has been refunded. -/
def Job.answered (task : TopUpTaskData) (result : ProcessedTopUp) (refusal : Option String) : Option Job :=
  match refusal with
  | none     => some ⟨task, .crediting result⟩
  | some why => if yieldGone why then none else some ⟨task, resumeFailed⟩

/-- What the coordinator is told to add to a key. -/
structure CompleteTopUpRequest where
  owner : String
  nonce : Nat
  newInitialBalance : String
  amount : String
  keyHash : String
  projectIds : List String
  maxPerCall : Option String
deriving DecidableEq

/-- A credit the coordinator was told of. The id of the task is bookkeeping and not sent. -/
structure Credit where
  dataId : String
  request : CompleteTopUpRequest
deriving DecidableEq

/-- `complete_topup`. -/
def completeTopup (task : TopUpTaskData) (result : ProcessedTopUp) : Credit where
  dataId := task.dataId
  request :=
    { owner := task.owner, nonce := task.nonce, newInitialBalance := result.newBalance, amount := task.amount
      keyHash := result.keyHash, projectIds := result.projectIds, maxPerCall := result.maxPerCall }

/-! ## The chain -/

/-- What became of the tokens of a top-up. The token contract returns what the callback returns, and everything
    when the callback failed. -/
inductive Outcome
  | kept
  | refunded
deriving DecidableEq

/-- The contract's world, the tasks it has announced and how each yield ended. -/
structure Chain where
  world : World
  tasks : List TopUpTaskData
  settled : LookupMap CryptoHash Outcome

/-- The yield an event delivers. -/
def delivered : Event → Option CryptoHash
  | .yielded _ dataId _ => some dataId
  | _                   => none

/-- A yield that waits for the callback of a top-up. -/
def isTopUp (y : Yield) : Bool :=
  match y.callback with
  | .onTopUpResponse _ _ _ => true
  | _                      => false

/-- The tokens are kept when the callback ran and returned zero. -/
def outcomeOf (effects : List Effect) : Outcome :=
  if .storage (.valueReturn (u128Json 0)) ∈ effects then .kept else .refunded

/-- How the top-ups stand after an event that had these effects. -/
def Chain.settle (ch : Chain) (e : Event) (effects : List Effect) : LookupMap CryptoHash Outcome :=
  match delivered e with
  | none        => ch.settled
  | some dataId =>
      if (ch.world.yields.lookup dataId).any isTopUp then ch.settled.insert dataId (outcomeOf effects)
      else ch.settled

/-- The chain hands out no id a second time: one that a settled top-up had is not new. -/
def Chain.reuses (ch : Chain) : Event → Bool
  | .call env _ => decide (env.dataId ∈ ch.settled)
  | _           => false

/-- One step of the chain; a yield's id is never used again. -/
def Chain.next (H : Host) (ch : Chain) (e : Event) : Option (Chain × List Effect) :=
  if ch.reuses e then none
  else
    match World.next H ch.world e with
    | none              => none
    | some (w, effects) =>
        some ({ world := w
                tasks := ch.tasks ++ effects.filterMap (topUpTaskOf H)
                settled := ch.settle e effects }, effects)

/-- The chain right after deployment. -/
def Chain.deploy (c : Contract) : Chain := { world := World.deploy c, tasks := [], settled := ∅ }

/-! ## The system -/

/-- The chain, the worker's jobs and the credits the coordinator has been told of. -/
structure System where
  chain : Chain
  jobs : LookupMap Nat Job
  credits : List Credit

/-- A contract just deployed, with no job taken. -/
def System.deploy (c : Contract) : System := { chain := Chain.deploy c, jobs := ∅, credits := [] }

/-- What becomes of a transaction: it is executed and the worker sees the outcome, it is executed and the worker
    does not, or it is never executed. -/
inductive Sending
  | seen (env : Env)
  | unseen (env : Env)
  | unsent

/-- Everything that can happen: a step of the chain, and the steps of the jobs. -/
inductive Action
  | chain (e : Event)
  | take (job : Nat) (task : TopUpTaskData) (keystore : Option Services)
  | resume (job : Nat) (sending : Sending)
  /-- the coordinator gets the request, or it does not -/
  | credit (job : Nat) (told : Bool)
  /-- the payer's yield is resumed with an error -/
  | giveUp (job : Nat) (sending : Sending)
  /-- the worker stops -/
  | stop (job : Nat)

/-- The context of a call without a deposit. -/
def withoutDeposit (env : Env) : Env :=
  { env with attachedDeposit := 0, attachedDeposit_lt := Nat.two_pow_pos 128 }

/-- A transaction that is executed: the chain after it, its effects, and what the contract refused it with. -/
def Chain.send (H : Host) (ch : Chain) (env : Env) (call : Call) : Option (Chain × List Effect × Option String) :=
  match exec H (ch.world.seenBy (withoutDeposit env)) ch.world.contract call with
  | .error why => some (ch, [], some why)
  | .ok _      => (ch.next H (.call (withoutDeposit env) call)).map fun r => (r.1, r.2, none)

/-- The call that resumes the yield of a task with success. -/
def successCall (task : TopUpTaskData) (newEncryptedData : String) : Call :=
  .resumeTopup task.dataId (.success newEncryptedData)

/-- Write down where a job is; a job that is nowhere is done. -/
def System.put (s : System) (job : Nat) : Option Job → System
  | some j => { s with jobs := s.jobs.insert job j }
  | none   => { s with jobs := s.jobs.erase job }

/-- `resume_topup` of a job. -/
def System.resume (H : Host) (s : System) (job : Nat) (task : TopUpTaskData) (newEncryptedData : String)
    (result : ProcessedTopUp) : Sending → Option (System × List Effect)
  | .unsent => some (s.put job (some ⟨task, resumeFailed⟩), [])
  | .unseen env => do
      let (chain, effects, _) ← s.chain.send H env (successCall task newEncryptedData)
      some ({ s with chain }.put job (some ⟨task, resumeFailed⟩), effects)
  | .seen env => do
      let (chain, effects, refusal) ← s.chain.send H env (successCall task newEncryptedData)
      some ({ s with chain }.put job (Job.answered task result refusal), effects)

/-- `resume_topup_error` of a job, when there is a yield to resume; the job is done either way. -/
def System.giveUp (H : Host) (s : System) (job : Nat) (task : TopUpTaskData) (message : String) (sending : Sending) :
    Option (System × List Effect) :=
  if task.amount = "0" then some (s.put job none, [])
  else
    match sending with
    | .unsent                 => some (s.put job none, [])
    | .unseen env | .seen env => do
        let (chain, effects, _) ← s.chain.send H env (.resumeTopup task.dataId (.error message))
        some ({ s with chain }.put job none, effects)

/-- One step: of the chain, or of one job. -/
def System.next (H : Host) (s : System) : Action → Option (System × List Effect)
  | .chain e => (s.chain.next H e).map fun r => ({ s with chain := r.1 }, r.2)
  | .take job task keystore =>
      if task ∈ s.chain.tasks ∧ job ∉ s.jobs then some (s.put job (some (Job.start H keystore task)), []) else none
  | .resume job sending =>
      match s.jobs.lookup job with
      | some ⟨task, .resuming newEncryptedData result⟩ => s.resume H job task newEncryptedData result sending
      | _                                              => none
  | .credit job told =>
      match s.jobs.lookup job with
      | some ⟨task, .crediting result⟩ =>
          let credits := if told then s.credits ++ [completeTopup task result] else s.credits
          some ({ s with credits }.put job none, [])
      | _ => none
  | .giveUp job sending =>
      match s.jobs.lookup job with
      | some ⟨task, .failing message⟩ => s.giveUp H job task message sending
      | _                             => none
  | .stop job => some (s.put job none, [])

/-- A step as it happened. -/
abbrev Move := Transition System Action (List Effect)

/-- The histories of the system: everything that happened since `Contract::new`, and where it led. -/
def System.History (H : Host) (owner : AccountId) (operator : Option AccountId)
    (standard version : Option String) : List Move → System → Prop :=
  Run (System.next H) (System.deploy (Contract.new owner operator standard version))

end Worker

end Outlayer
