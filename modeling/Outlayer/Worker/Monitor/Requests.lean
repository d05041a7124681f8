import Outlayer.Worker.Monitor.Events
import Outlayer.Lib.Checked

/-!
# `Worker.Monitor.Requests` — what the worker makes of a request for an execution

An event is run only as the chain holds it: the receipt that wrote it was signed and sent by the accounts it names, and
the pending request under its id is this one, in the project it names. The checks read the event's data once as a
record and once as JSON, and compare the latter with the answer of `get_request`, member by member.

`debug` is how the standard library prints an optional text for debugging.
-/

namespace Outlayer
open Text Checked Json

namespace Monitor

/-! ## The checks -/

section Checks
variable (debug : Option String → String)

/-- Why the receipt that wrote the event cannot have been the call the event speaks of. -/
def receiptMismatch (request : RequestData) (event : ExecutionRequestedEvent) : Option String :=
  match event.receipt.signerId with
  | none        => some "the receipt that wrote the event carries no signer"
  | some signer =>
      if signer ≠ request.senderId then
        some ("the event names sender " ++ request.senderId ++ " but the receipt was signed by " ++ signer)
      else
        match request.predecessorId with
        | none       => none
        | some named =>
            if event.receipt.predecessorId = some named then none
            else some ("the event names predecessor " ++ named ++ " but the receipt came from "
              ++ debug event.receipt.predecessorId)

/-- The project a pending request runs. -/
def pendingProjectId (pending : Value) : Option String :=
  (((pending.get "execution_source").bind fun s => s.get "Project").bind fun p => p.get "project_id").bind Value.asStr

/-- A member, or `null`. -/
def memberOrNull (v : Value) (key : String) : Value := (v.get key).getD .null

/-- What is kept under one name in the event and under another on the request. -/
def comparedFields : List (String × String) :=
  [("code_source", "resolved_source"), ("secrets_ref", "secrets_ref"), ("response_format", "response_format"),
   ("resource_limits", "resource_limits")]

/-- What is said of a field that is another in the contract's state. -/
def notThePendingRequests (what : String) : Option String :=
  some ("its " ++ what ++ " is not the pending request's")

/-- The id the contract resumes the request by. -/
def dataIdMismatch (dataId : List UInt8) (pending : Value) : Option String :=
  if (memberOrNull pending "data_id").asList Value.asByte = some dataId then none else notThePendingRequests "data_id"

/-- The request's own id. -/
def requestIdMismatch (raw pending : Value) : Option String :=
  if memberOrNull raw "request_id" = memberOrNull pending "request_id" then none
  else notThePendingRequests "request_id"

/-- The contract keeps the predecessor as the request's `sender_id`. -/
def predecessorMismatch (raw pending : Value) : Option String :=
  match raw.get "predecessor_id" with
  | none       => none
  | some .null => none
  | some p     => if some p = pending.get "sender_id" then none else notThePendingRequests "predecessor"

/-- The first of the fields that are compared as they are. -/
def fieldMismatch (raw pending : Value) : Option String :=
  (comparedFields.find? fun kind => decide (memberOrNull raw kind.1 ≠ memberOrNull pending kind.2)).bind
    fun kind => notThePendingRequests kind.1

/-- An input kept in the contract's state is not in the event. -/
def inputMismatch (raw pending : Value) : Option String :=
  if ((raw.get "input_data_in_state").bind Value.asBool).getD false then none
  else
    let pendingInput := ((pending.get "input_data").bind Value.asStr).getD ""
    if ((raw.get "input_data").bind Value.asStr).getD "" = pendingInput then none
    else notThePendingRequests "input_data"

/-- `attached_usd` is a string in the event and a number on the request. -/
def attachedUsdMismatch (raw pending : Value) : Option String :=
  let eventUsd := ((raw.get "attached_usd").bind Value.asStr).getD "0"
  let pendingUsd := ((pending.get "attached_usd").bind (Value.asUnsigned 64)).map toString
  if pendingUsd = some eventUsd then none else notThePendingRequests "attached_usd"

/-- The project the request names. -/
def projectIdMismatch (raw pending : Value) : Option String :=
  if (raw.get "project_id").bind Value.asStr = pendingProjectId pending then none
  else notThePendingRequests "project_id"

/-- The uuid of that project, as the chain has it. -/
def projectUuidMismatch (raw : Value) (projectUuidOnChain : Option String) : Option String :=
  let eventUuid := (raw.get "project_uuid").bind Value.asStr
  if eventUuid = projectUuidOnChain then none
  else some ("it names project_uuid " ++ debug eventUuid ++ " but the request runs in " ++ debug projectUuidOnChain)

/-- Why an event is not the pending request the contract holds under its id: the first check that fails. -/
def pendingRequestMismatch (raw : Value) (dataId : List UInt8) (pending : Value) (projectUuidOnChain : Option String) :
    Option String :=
  [dataIdMismatch dataId pending, requestIdMismatch raw pending, predecessorMismatch raw pending,
   fieldMismatch raw pending, inputMismatch raw pending, attachedUsdMismatch raw pending, projectIdMismatch raw pending,
   projectUuidMismatch debug raw projectUuidOnChain].findSome? id

end Checks

/-! ## The task -/

/-- What the guest is told of the call that asked for the run. -/
structure ExecutionContext where
  senderId : Option String
  blockHeight : Option Nat
  blockTimestamp : Option Nat
  contractId : Option String
  transactionHash : Option String
  receiptId : Option String
  predecessorId : Option String
  signerPublicKey : Option String
  gasBurnt : Option Nat
  relayerId : Option String
deriving DecidableEq

/-- A source as the coordinator is told of it, its build target filled in. -/
inductive ApiCodeSource
  | gitHub (repo commit buildTarget : String)
  | wasmUrl (url hash buildTarget : String)
deriving DecidableEq

/-- The source as the coordinator takes it, with the default target filled in. -/
def CodeSource.toApiCodeSource : CodeSource → ApiCodeSource
  | .gitHub s  => .gitHub s.repo s.commit (s.buildTarget.getD "wasm32-wasi")
  | .wasmUrl s => .wasmUrl s.url s.hash (s.buildTarget.getD "wasm32-wasi")

/-- A task as the coordinator is asked to create it. -/
structure CreateTaskParams where
  requestId : Nat
  dataId : String
  codeSource : ApiCodeSource
  resourceLimits : ResourceLimits
  inputData : String
  secretsRef : Option SecretsReference
  responseFormat : ResponseFormat
  context : ExecutionContext
  userAccountId : Option String
  nearPaymentYocto : Option String
  attachedUsd : Option String
  compileOnly : Bool
  forceRebuild : Bool
  storeOnFastfs : Bool
  useBoundIdentity : Bool
  projectUuid : Option String
  projectId : Option String
deriving DecidableEq

/-- Where a view of the contract was read. -/
inductive ViewedAt
  | block (height : Nat)
  | final
deriving DecidableEq

/-- The block as messages name it. -/
def ViewedAt.display : ViewedAt → String
  | .block height => "block " ++ toString height
  | .final        => "the final block"

/-- The node's answers to the views of the contract; an error is a view that got none. -/
structure Views where
  getRequest : (requestId blockHeight : Nat) → Res (Value × ViewedAt)
  getProject : (projectId : String) → ViewedAt → Res Value

/-- The request the contract holds under an id, and the block it was read at. -/
def fetchPendingRequest (V : Views) (requestId blockHeight : Nat) : Res (Value × ViewedAt) := do
  let (request, viewedAt) ← V.getRequest requestId blockHeight
  if request = .null then
    match viewedAt with
    | .block _ => .error ("Refusing execution_requested for request_id=" ++ toString requestId
        ++ ": the contract holds no such pending request at block " ++ toString blockHeight)
    | .final   => .error ("Dropping execution_requested for request_id=" ++ toString requestId ++ ": block "
        ++ toString blockHeight ++ " is no longer served, and at the final block the request is no longer pending"
        ++ " — it was resolved or timed out since")
  else pure (request, viewedAt)

/-- The uuid of a project at a block. -/
def fetchProjectUuidAt (V : Views) (projectId : String) (viewedAt : ViewedAt) : Res (Option String) := do
  let project ← V.getProject projectId viewedAt
  pure ((project.get "uuid").bind Value.asStr)

/-- An input too large for the event is read from the pending request. -/
def taskInput (data : RequestData) (pending : Value) : Option String :=
  if data.inputDataInState then (pending.get "input_data").bind Value.asStr else some data.inputData

/-- Who the run is for. A meta-transaction's signer is its relayer; the call is the account that signed the delegate
    action, which is the receipt's predecessor. -/
def taskUser (data : RequestData) (event : ExecutionRequestedEvent) : Res String :=
  match event.relayerId with
  | none         => pure data.senderId
  | some relayer =>
      expect (data.predecessorId.or event.receipt.predecessorId)
        ("Refusing execution_requested for request_id=" ++ toString data.requestId ++ ": a meta-transaction relayed by "
          ++ relayer ++ " names no predecessor")

/-- What is logged of an event that is not relayed. -/
def refusing (requestId : Nat) (why : String) : String :=
  "Refusing execution_requested for request_id=" ++ toString requestId ++ ": " ++ why

/-- Go on when a check found nothing. -/
def unlessMismatch (requestId : Nat) (mismatch : Option String) : Res Unit :=
  match mismatch with
  | none     => pure ()
  | some why => .error (refusing requestId why)

/-- The uuid of the project a pending request runs, where the request was read. -/
def projectUuidOnChain (V : Views) (requestId : Nat) (pending : Value) (viewedAt : ViewedAt) : Res (Option String) :=
  match pendingProjectId pending with
  | none           => pure none
  | some projectId => do
      let uuid ← fetchProjectUuidAt V projectId viewedAt
      let uuid ← expect uuid
        (refusing requestId ("project " ++ projectId ++ " does not exist at " ++ viewedAt.display))
      pure (some uuid)

/-- `handle_execution_requested` up to the call of the coordinator. -/
def handleExecutionRequested (H : Host) (debug : Option String → String) (V : Views) (contractId : String)
    (event : ExecutionRequestedEvent) : Res CreateTaskParams := do
  let data ← expect (RequestData.ofText H.jsonNumber event.requestData) "Failed to parse request_data JSON"
  let raw ← expect (Json.parse H.jsonNumber event.requestData) "Failed to parse request_data JSON"
  unlessMismatch data.requestId (receiptMismatch debug data event)
  let (pending, viewedAt) ← fetchPendingRequest V data.requestId event.blockHeight
  let uuid ← projectUuidOnChain V data.requestId pending viewedAt
  unlessMismatch data.requestId (pendingRequestMismatch debug raw event.dataId pending uuid)
  let userAccountId ← taskUser data event
  let context : ExecutionContext :=
    { senderId := some userAccountId, blockHeight := some event.blockHeight, blockTimestamp := some event.timestamp
      contractId := some contractId, transactionHash := event.receipt.transactionHash
      receiptId := event.receipt.receiptId, predecessorId := data.predecessorId.or event.receipt.predecessorId
      signerPublicKey := event.receipt.signerPublicKey, gasBurnt := event.receipt.gasBurnt
      relayerId := event.relayerId }
  let inputData ← expect (taskInput data pending)
    ("input_data field missing in ExecutionRequest for request_id=" ++ toString data.requestId)
  pure
    { requestId := data.requestId, dataId := hexEncode event.dataId, codeSource := data.codeSource.toApiCodeSource
      resourceLimits := data.resourceLimits, inputData, secretsRef := data.secretsRef
      responseFormat := data.responseFormat, context, userAccountId := some userAccountId
      nearPaymentYocto := some data.payment, attachedUsd := data.attachedUsd, compileOnly := data.compileOnly
      forceRebuild := data.forceRebuild, storeOnFastfs := data.storeOnFastfs
      useBoundIdentity := data.useBoundIdentity, projectUuid := data.projectUuid, projectId := data.projectId }

/-! ## What the checks leave -/

section Left
variable {debug : Option String → String} {V : Views} {data : RequestData} {event : ExecutionRequestedEvent}
  {raw pending : Value} {dataId : List UInt8} {requestId : Nat} {viewedAt : ViewedAt}

@[simp] theorem unlessMismatch_eq_ok {mismatch : Option String} :
    unlessMismatch requestId mismatch = .ok () ↔ mismatch = none := by
  cases mismatch <;> simp [unlessMismatch, pure, Except.pure]

/-- The receipt is signed by the sender, and comes from the predecessor if one is named. -/
theorem receiptMismatch_eq_none :
    receiptMismatch debug data event = none ↔
      event.receipt.signerId = some data.senderId ∧
      ∀ named, data.predecessorId = some named → event.receipt.predecessorId = some named := by
  unfold receiptMismatch
  cases event.receipt.signerId with
  | none => simp
  | some signer =>
      by_cases hsigner : signer = data.senderId
      · cases hnamed : data.predecessorId with
        | none => simp [hsigner]
        | some named => simp [hsigner]
      · simp [hsigner]

theorem fieldMismatch_eq_none :
    fieldMismatch raw pending = none ↔
      ∀ kind ∈ comparedFields, memberOrNull raw kind.1 = memberOrNull pending kind.2 := by
  unfold fieldMismatch
  cases hfind : comparedFields.find? fun kind => decide (memberOrNull raw kind.1 ≠ memberOrNull pending kind.2) with
  | none => simpa [List.find?_eq_none] using hfind
  | some kind =>
      have hne : memberOrNull raw kind.1 ≠ memberOrNull pending kind.2 := by simpa using List.find?_some hfind
      constructor
      · intro h
        cases h
      · intro h
        exact absurd (h kind (List.mem_of_find?_eq_some hfind)) hne

/-- What the comparison leaves: nothing, when every check finds nothing. -/
theorem pendingRequestMismatch_eq_none {uuid : Option String} :
    pendingRequestMismatch debug raw dataId pending uuid = none ↔
      dataIdMismatch dataId pending = none ∧ requestIdMismatch raw pending = none ∧
      predecessorMismatch raw pending = none ∧ fieldMismatch raw pending = none ∧
      inputMismatch raw pending = none ∧ attachedUsdMismatch raw pending = none ∧
      projectIdMismatch raw pending = none ∧ projectUuidMismatch debug raw uuid = none := by
  simp [pendingRequestMismatch]

theorem fetchPendingRequest_eq_ok {blockHeight : Nat}
    (h : fetchPendingRequest V requestId blockHeight = .ok (pending, viewedAt)) :
    V.getRequest requestId blockHeight = .ok (pending, viewedAt) ∧ pending ≠ .null := by
  simp only [fetchPendingRequest, bind_eq_ok] at h
  obtain ⟨⟨request, at_⟩, hview, h⟩ := h
  by_cases hnull : request = .null
  · rw [if_pos hnull] at h
    cases at_ <;> cases h
  · rw [if_neg hnull] at h
    obtain ⟨rfl, rfl⟩ := Prod.mk.inj (Except.ok.inj h)
    exact ⟨hview, hnull⟩

/-- The project a request runs in and its uuid, where a view was read; or neither, for code given inline. -/
inductive ProjectAt (V : Views) (viewedAt : ViewedAt) : (projectId uuid : Option String) → Prop
  | inline : ProjectAt V viewedAt none none
  | project {projectId uuid : String} {project : Value} (hproject : V.getProject projectId viewedAt = .ok project)
      (huuid : (project.get "uuid").bind Value.asStr = some uuid) : ProjectAt V viewedAt (some projectId) (some uuid)

theorem projectUuidOnChain_eq_ok {uuid : Option String}
    (h : projectUuidOnChain V requestId pending viewedAt = .ok uuid) :
    ProjectAt V viewedAt (pendingProjectId pending) uuid := by
  unfold projectUuidOnChain at h
  cases hid : pendingProjectId pending with
  | none =>
      rw [hid] at h
      obtain rfl := Except.ok.inj h
      exact .inline
  | some projectId =>
      rw [hid] at h
      simp only [fetchProjectUuidAt, bind_eq_ok, expect_eq_ok, pure_eq_ok] at h
      obtain ⟨_, ⟨project, hproject, rfl⟩, uuid', huuid, rfl⟩ := h
      exact .project hproject huuid

end Left

end Monitor

end Outlayer
