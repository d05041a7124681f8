import Outlayer.Worker.Monitor.Requests
import Outlayer.Contract.Replay

/-!
# `Worker.Correctness.Intact` — a request on its way from the contract to the worker

The contract and the worker declare the format of a request each on their own. What the contract writes is read back
member by member (`ofJson_toJson`), except that the worker requires every limit and reads an amount of stablecoin as a
number of 64 bits: a request with a limit left out is dropped where it is read (`processLog_request`), and one with more
stablecoin is refused where it is compared with the pending one (`pendingRequestMismatch_request`).
-/

namespace Outlayer
open Text Checked Collections Json

namespace Monitor

/-! ## What the worker makes of the contract's data -/

/-- The contract's value as the worker holds it. -/
def CodeSource.ofContract : Outlayer.CodeSource → CodeSource
  | .gitHub repo commit buildTarget => .gitHub { repo, commit, buildTarget }
  | .wasmUrl url hash buildTarget   => .wasmUrl { url, hash, buildTarget }

/-- The contract's format as the worker holds it. -/
def ResponseFormat.ofContract : Outlayer.ResponseFormat → ResponseFormat
  | .bytes => .bytes
  | .text  => .text
  | .json  => .json

/-- The contract's reference as the worker holds it. -/
def SecretsReference.ofContract (s : Outlayer.SecretsReference) : SecretsReference where
  profile := s.profile
  accountId := s.accountId.name

/-- Limits that are all given. -/
def ResourceLimits.ofContract (l : Outlayer.ResourceLimits) : Option ResourceLimits := do
  let maxInstructions ← l.maxInstructions
  let maxMemoryMb ← l.maxMemoryMb
  let maxExecutionSeconds ← l.maxExecutionSeconds
  pure { maxInstructions, maxMemoryMb, maxExecutionSeconds }

/-- The contract's request as the worker holds it, with the limits the worker read. -/
def RequestData.ofContract (d : Outlayer.RequestData) (limits : ResourceLimits) : RequestData where
  requestId := d.requestId
  senderId := d.senderId.name
  codeSource := .ofContract d.codeSource
  resourceLimits := limits
  inputData := d.inputData
  inputDataInState := d.inputDataInState
  secretsRef := d.secretsRef.map .ofContract
  predecessorId := some d.predecessorId.name
  payment := toString d.payment
  attachedUsd := some (toString d.attachedUsd)
  timestamp := d.timestamp
  responseFormat := .ofContract d.responseFormat
  compileOnly := d.compileOnly
  forceRebuild := d.forceRebuild
  storeOnFastfs := d.storeOnFastfs
  useBoundIdentity := d.useBoundIdentity
  projectUuid := d.projectUuid
  projectId := d.projectId

section Reading
variable {number : String → Option String}

theorem CodeSource.ofJson_toJson (s : Outlayer.CodeSource) :
    CodeSource.ofJson (s.toJson.renumber number) = some (.ofContract s) := by
  cases s with
  | gitHub repo commit buildTarget =>
      have houter : (Outlayer.CodeSource.gitHub repo commit buildTarget).toJson.Distinct :=
        distinct_of_keys ["GitHub"] rfl (by decide)
      have hinner : (Value.obj [("repo", .str repo), ("commit", .str commit),
          ("build_target", .ofOption .str buildTarget)]).Distinct :=
        distinct_of_keys ["repo", "commit", "build_target"] rfl (by decide)
      show Option.or (Option.map _ (((Outlayer.CodeSource.gitHub repo commit buildTarget).toJson.renumber
        number).required ["GitHub"] "GitHub" GitHubSource.ofJson)) _ = _
      rw [required_renumber houter rfl rfl, GitHubSource.ofJson, required_renumber hinner rfl rfl,
        required_renumber hinner rfl rfl, nullable_renumber_str hinner rfl rfl]
      rfl
  | wasmUrl url hash buildTarget =>
      have houter : (Outlayer.CodeSource.wasmUrl url hash buildTarget).toJson.Distinct :=
        distinct_of_keys ["WasmUrl"] rfl (by decide)
      have hinner : (Value.obj [("url", .str url), ("hash", .str hash),
          ("build_target", .ofOption .str buildTarget)]).Distinct :=
        distinct_of_keys ["url", "hash", "build_target"] rfl (by decide)
      show Option.or none (Option.map _ (((Outlayer.CodeSource.wasmUrl url hash buildTarget).toJson.renumber
        number).required ["WasmUrl"] "WasmUrl" WasmUrlSource.ofJson)) = _
      rw [required_renumber houter rfl rfl, WasmUrlSource.ofJson, required_renumber hinner rfl rfl,
        required_renumber hinner rfl rfl, nullable_renumber_str hinner rfl rfl]
      rfl

theorem ResponseFormat.ofJson_toJson (f : Outlayer.ResponseFormat) :
    ResponseFormat.ofJson (f.toJson.renumber number) = some (.ofContract f) := by
  cases f <;> rfl

theorem SecretsReference.ofJson_toJson (s : Outlayer.SecretsReference) :
    SecretsReference.ofJson (s.toJson.renumber number) = some (.ofContract s) := by
  have hkeys : s.toJson.Distinct := distinct_of_keys ["profile", "account_id"] rfl (by decide)
  rw [SecretsReference.ofJson, required_renumber hkeys rfl rfl, required_renumber hkeys rfl rfl]
  rfl

theorem distinct_requestData (d : Outlayer.RequestData) : d.toJson.Distinct :=
  distinct_of_keys ["request_id", "sender_id", "predecessor_id", "code_source", "resource_limits", "input_data",
    "input_data_in_state", "secrets_ref", "response_format", "payment", "attached_usd", "timestamp", "compile_only",
    "force_rebuild", "store_on_fastfs", "use_bound_identity", "project_uuid", "project_id"] rfl (by decide)

section Whole
variable (whole : WholeNumbers number)
include whole

/-- A limit is read back when it is given. -/
theorem asUnsigned_ofOption {w : Nat} {o : Option Nat} (hw : w ≤ 64) (ho : ∀ n ∈ o, n < 2 ^ w) :
    ((Value.ofOption .ofNat o).renumber number).asUnsigned w = o := by
  cases o with
  | none => rfl
  | some n => exact whole.asUnsigned hw (ho n rfl)

/-- Limits are read back when they are all given, and not at all otherwise. -/
theorem ResourceLimits.ofJson_toJson {l : Outlayer.ResourceLimits} (fits : l.Fits) :
    ResourceLimits.ofJson (l.toJson.renumber number) = ResourceLimits.ofContract l := by
  have hkeys : l.toJson.Distinct :=
    distinct_of_keys ["max_instructions", "max_memory_mb", "max_execution_seconds"] rfl (by decide)
  rw [ResourceLimits.ofJson, required_renumber hkeys rfl rfl, required_renumber hkeys rfl rfl,
    required_renumber hkeys rfl rfl, asUnsigned_ofOption whole (by decide) fits.maxInstructions,
    asUnsigned_ofOption whole (by decide) fits.maxMemoryMb,
    asUnsigned_ofOption whole (by decide) fits.maxExecutionSeconds]
  rfl

/-- The data of a request are read back whole, given that the limits are. -/
theorem RequestData.ofJson_toJson {d : Outlayer.RequestData} (fits : d.Fits) :
    RequestData.ofJson (d.toJson.renumber number)
      = (ResourceLimits.ofContract d.resourceLimits).map (RequestData.ofContract d) := by
  have hkeys := distinct_requestData d
  have hid : readRequired (requestField (d.toJson.renumber number) "request_id") (Value.asUnsigned 64)
      = some d.requestId := by
    rw [requestField, readRequired_renumber hkeys rfl rfl]
    exact whole.asUnsigned (Nat.le_refl 64) fits.requestId
  have htime : readRequired (requestField (d.toJson.renumber number) "timestamp") (Value.asUnsigned 64)
      = some d.timestamp := by
    rw [requestField, readRequired_renumber hkeys rfl rfl]
    exact whole.asUnsigned (Nat.le_refl 64) fits.timestamp
  have hsource : readRequired (requestField (d.toJson.renumber number) "code_source") CodeSource.ofJson
      = some (.ofContract d.codeSource) := by
    rw [requestField, readRequired_renumber hkeys rfl rfl]
    exact CodeSource.ofJson_toJson d.codeSource
  have hlimits : readRequired (requestField (d.toJson.renumber number) "resource_limits") ResourceLimits.ofJson
      = ResourceLimits.ofContract d.resourceLimits := by
    rw [requestField, readRequired_renumber hkeys rfl rfl]
    exact ResourceLimits.ofJson_toJson whole fits.limits
  have hformat : readDefaulted (requestField (d.toJson.renumber number) "response_format") .text ResponseFormat.ofJson
      = some (.ofContract d.responseFormat) := by
    rw [requestField, readDefaulted_renumber hkeys rfl rfl]
    exact ResponseFormat.ofJson_toJson d.responseFormat
  have hsecrets : readNullable (requestField (d.toJson.renumber number) "secrets_ref") SecretsReference.ofJson
      = some (d.secretsRef.map .ofContract) := by
    have hget : d.toJson.get "secrets_ref" = some (.ofOption Outlayer.SecretsReference.toJson d.secretsRef) := rfl
    refine readNullable_renumber hkeys rfl hget ?_
    intro s
    refine ⟨SecretsReference.ofJson_toJson s, ?_⟩
    intro hnull
    cases hnull
  have hstr : ∀ (key : String) {s : String}, d.toJson.get key = some (.str s) →
      readRequired (requestField (d.toJson.renumber number) key) Value.asStr = some s ∧
      readNullable (requestField (d.toJson.renumber number) key) Value.asStr = some (some s) := by
    intro key s hget
    exact ⟨readRequired_renumber hkeys rfl hget, readNullable_renumber_str (o := some s) hkeys rfl hget⟩
  have hbool : ∀ (key : String) {b : Bool}, d.toJson.get key = some (.bool b) →
      readDefaulted (requestField (d.toJson.renumber number) key) false Value.asBool = some b :=
    fun _ _ hget => readDefaulted_renumber hkeys rfl hget false
  have huuid : readNullable (requestField (d.toJson.renumber number) "project_uuid") Value.asStr = some d.projectUuid :=
    readNullable_renumber_str hkeys rfl rfl
  have hproject : readNullable (requestField (d.toJson.renumber number) "project_id") Value.asStr = some d.projectId :=
    readNullable_renumber_str hkeys rfl rfl
  rw [RequestData.ofJson, hid, (hstr "sender_id" rfl).1, hsource, hlimits,
    (hstr "input_data" rfl).1, hbool "input_data_in_state" rfl, hsecrets,
    (hstr "predecessor_id" rfl).2, (hstr "payment" rfl).1, (hstr "attached_usd" rfl).2,
    htime, hformat, hbool "compile_only" rfl, hbool "force_rebuild" rfl,
    hbool "store_on_fastfs" rfl, hbool "use_bound_identity" rfl, huuid, hproject]
  cases ResourceLimits.ofContract d.resourceLimits <;> rfl

/-- **The text of a request's data is read back whole**, given that the limits are. -/
theorem RequestData.ofText_toJson {d : Outlayer.RequestData} (fits : d.Fits) :
    RequestData.ofText number d.toJson.compact
      = (ResourceLimits.ofContract d.resourceLimits).map (RequestData.ofContract d) := by
  rw [RequestData.ofText, parseTree_compact (fits.good whole (by decide)), Option.bind_some,
    RequestData.ofJson_toJson whole fits]

end Whole

end Reading

/-! ## The event -/

section Event
variable {H : Host} (whole : WholeNumbers H.jsonNumber)
include whole

/-- The text of a request's data, read again. -/
theorem parse_requestData {d : Outlayer.RequestData} (fits : d.Fits) :
    Json.parse H.jsonNumber d.toJson.compact = some (d.toJson.reread H.jsonNumber) :=
  parse_compact (fits.good whole (by decide))

/-- The event of a request, as it is read from its line. -/
def eventOf (d : Outlayer.RequestData) (dataId : CryptoHash) (timestamp blockHeight : Nat) :
    ExecutionRequestedEvent where
  requestData := d.toJson.compact
  dataId := dataId.toList
  timestamp := timestamp
  blockHeight := blockHeight
  receipt := .unknown
  relayerId := none

/-- **A request's line is taken when its limits are all given**, and dropped otherwise. -/
theorem processLog_request {f : EventFilter} {standard version : String} (hf : f.Matches standard version)
    {d : Outlayer.RequestData} (fits : d.Fits) (dataId : CryptoHash) {timestamp : Nat} (ht : timestamp < 2 ^ 64)
    (blockHeight : Nat) :
    processLog H f (logEvent standard version "execution_requested" (executionRequestedData d dataId timestamp))
      blockHeight
      = (ResourceLimits.ofContract d.resourceLimits).map fun _ =>
          .executionRequested (eventOf d dataId timestamp blockHeight) := by
  have hkeys : (executionRequestedData d dataId timestamp).Distinct :=
    distinct_of_keys ["request_data", "data_id", "timestamp"] rfl (by decide)
  have hevent : ExecutionRequestedEvent.ofJson blockHeight
      ((executionRequestedData d dataId timestamp).reread H.jsonNumber)
        = some (eventOf d dataId timestamp blockHeight) := by
    rw [ExecutionRequestedEvent.ofJson, field_reread hkeys rfl, field_reread hkeys rfl, whole.asBytes,
      field_reread hkeys rfl, whole.asUnsigned (Nat.le_refl 64) ht]
    rfl
  rw [processLog_logEvent hf (good_executionRequestedData whole d dataId ht (by decide)), executionRequested, hevent]
  simp only [Option.bind_eq_bind, Option.bind_some, eventOf, RequestData.ofText_toJson whole fits]
  cases ResourceLimits.ofContract d.resourceLimits <;> rfl

end Event

/-! ## The pending request -/

theorem distinct_executionRequest (r : ExecutionRequest) : r.toJson.Distinct :=
  distinct_of_keys ["request_id", "data_id", "sender_id", "execution_source", "resolved_source", "resource_limits",
    "payment", "timestamp", "secrets_ref", "response_format", "input_data", "payer_account_id", "attached_usd",
    "pending_output", "output_submitted"] rfl (by decide)

/-- The project a request names, as the worker finds it in the answer of `get_request`. -/
theorem pendingProjectId_toJson {number : String → Option String} (r : ExecutionRequest) :
    pendingProjectId (r.toJson.reread number) = r.executionSource.projectId := by
  have hsource : (r.toJson.reread number).get "execution_source" = some (r.executionSource.toJson.reread number) := by
    rw [get_reread (distinct_executionRequest r)]
    rfl
  rw [pendingProjectId, hsource]
  cases hs : r.executionSource with
  | gitHub repo commit buildTarget =>
      have hkeys : (ExecutionSource.gitHub repo commit buildTarget).toJson.Distinct :=
        distinct_of_keys ["GitHub"] rfl (by decide)
      rw [Option.bind_some, get_reread hkeys]
      rfl
  | wasmUrl url hash buildTarget =>
      have hkeys : (ExecutionSource.wasmUrl url hash buildTarget).toJson.Distinct :=
        distinct_of_keys ["WasmUrl"] rfl (by decide)
      rw [Option.bind_some, get_reread hkeys]
      rfl
  | project projectId versionKey =>
      have hkeys : (ExecutionSource.project projectId versionKey).toJson.Distinct :=
        distinct_of_keys ["Project"] rfl (by decide)
      have hinner : (Value.obj [("project_id", .str projectId),
          ("version_key", .ofOption .str versionKey)]).Distinct :=
        distinct_of_keys ["project_id", "version_key"] rfl (by decide)
      have hproject : ((ExecutionSource.project projectId versionKey).toJson.reread number).get "Project"
          = some ((Value.obj [("project_id", .str projectId), ("version_key", .ofOption .str versionKey)]).reread
            number) := by
        rw [get_reread hkeys]
        rfl
      rw [Option.bind_some, hproject, Option.bind_some, get_reread hinner]
      rfl

/-- The data in an event and the pending request speak of one call. -/
structure Agrees (d : Outlayer.RequestData) (r : ExecutionRequest) : Prop where
  requestId : d.requestId = r.requestId
  predecessor : d.predecessorId = r.senderId
  source : d.codeSource = r.resolvedSource
  limits : d.resourceLimits = r.resourceLimits
  input : d.inputDataInState = false → d.inputData = r.inputData.getD ""
  inState : d.inputDataInState = true → r.inputData.isSome = true
  secretsRef : d.secretsRef = r.secretsRef
  format : d.responseFormat = r.responseFormat
  payment : d.payment = r.payment
  attachedUsd : d.attachedUsd = r.attachedUsd
  project : d.projectId = r.executionSource.projectId

section Pending
variable {number : String → Option String} {debug : Option String → String} {d : Outlayer.RequestData}
  {r : ExecutionRequest}

private theorem raw_get (key : String) {w : Value} (hget : d.toJson.get key = some w) :
    (d.toJson.reread number).get key = some (w.reread number) := by
  rw [get_reread (distinct_requestData d), hget]
  rfl

theorem pending_get (key : String) {w : Value} (hget : r.toJson.get key = some w) :
    (r.toJson.reread number).get key = some (w.reread number) := by
  rw [get_reread (distinct_executionRequest r), hget]
  rfl

theorem asStr_ofOption (o : Option String) : ((Value.ofOption .str o).reread number).asStr = o := by
  cases o <;> rfl

private theorem requestIdMismatch_request (h : d.requestId = r.requestId) :
    requestIdMismatch (d.toJson.reread number) (r.toJson.reread number) = none := by
  refine if_pos ?_
  rw [memberOrNull, memberOrNull, raw_get "request_id" rfl, pending_get "request_id" rfl, h]

private theorem predecessorMismatch_request (h : d.predecessorId = r.senderId) :
    predecessorMismatch (d.toJson.reread number) (r.toJson.reread number) = none := by
  rw [predecessorMismatch, raw_get "predecessor_id" rfl, pending_get "sender_id" rfl, h]
  exact if_pos rfl

private theorem fieldMismatch_request (hsource : d.codeSource = r.resolvedSource)
    (hsecrets : d.secretsRef = r.secretsRef) (hformat : d.responseFormat = r.responseFormat)
    (hlimits : d.resourceLimits = r.resourceLimits) :
    fieldMismatch (d.toJson.reread number) (r.toJson.reread number) = none := by
  have hnone : comparedFields.find? (fun kind => decide (memberOrNull (d.toJson.reread number) kind.1
      ≠ memberOrNull (r.toJson.reread number) kind.2)) = none := by
    rw [List.find?_eq_none]
    intro kind hkind
    simp only [comparedFields, List.mem_cons, List.not_mem_nil, or_false] at hkind
    rcases hkind with rfl | rfl | rfl | rfl
    · simp [memberOrNull, raw_get (d := d) "code_source" rfl, pending_get "resolved_source" rfl, hsource]
    · simp [memberOrNull, raw_get (d := d) "secrets_ref" rfl, pending_get "secrets_ref" rfl, hsecrets]
    · simp [memberOrNull, raw_get (d := d) "response_format" rfl, pending_get "response_format" rfl,
        hformat]
    · simp [memberOrNull, raw_get (d := d) "resource_limits" rfl, pending_get "resource_limits" rfl,
        hlimits]
  rw [fieldMismatch, hnone]
  rfl

private theorem inputMismatch_request (h : d.inputDataInState = false → d.inputData = r.inputData.getD "") :
    inputMismatch (d.toJson.reread number) (r.toJson.reread number) = none := by
  rw [inputMismatch, raw_get "input_data_in_state" rfl, raw_get "input_data" rfl,
    pending_get "input_data" rfl]
  cases hstate : d.inputDataInState with
  | true => rfl
  | false =>
      have hflag : ¬ (((some ((Value.bool false).reread number)).bind Value.asBool).getD false = true) :=
        Bool.false_ne_true
      rw [if_neg hflag]
      refine if_pos ?_
      rw [Option.bind_some, Option.bind_some, asStr_ofOption, ← h hstate]
      rfl

private theorem projectIdMismatch_request (h : d.projectId = r.executionSource.projectId) :
    projectIdMismatch (d.toJson.reread number) (r.toJson.reread number) = none := by
  refine if_pos ?_
  rw [raw_get "project_id" rfl, Option.bind_some, asStr_ofOption, pendingProjectId_toJson, h]

private theorem projectUuidMismatch_request :
    projectUuidMismatch debug (d.toJson.reread number) d.projectUuid = none := by
  rw [projectUuidMismatch, raw_get "project_uuid" rfl, Option.bind_some, asStr_ofOption]
  exact if_pos rfl

section Whole
variable (whole : WholeNumbers number)
include whole

private theorem dataIdMismatch_request : dataIdMismatch r.dataId.toList (r.toJson.reread number) = none := by
  refine if_pos ?_
  rw [memberOrNull, pending_get "data_id" rfl]
  exact whole.asBytes _

/-- An amount that does not fit 64 bits is not read off the request. -/
private theorem attachedUsdMismatch_request (h : d.attachedUsd = r.attachedUsd) (husd : r.attachedUsd < 2 ^ 128) :
    attachedUsdMismatch (d.toJson.reread number) (r.toJson.reread number) = none ↔ r.attachedUsd < 2 ^ 64 := by
  rw [attachedUsdMismatch, raw_get "attached_usd" rfl, pending_get "attached_usd" rfl,
    Option.bind_some, Option.bind_some, h]
  constructor
  · intro hnone
    by_contra hlarge
    rw [whole.asUnsigned_large (not_lt.mp hlarge) husd] at hnone
    cases hnone
  · intro hlt
    rw [whole.asUnsigned (Nat.le_refl 64) hlt]
    exact if_pos rfl

/-- **The worker's comparison passes when the stablecoin fits 64 bits**, and only then. -/
theorem pendingRequestMismatch_request (agrees : Agrees d r) (husd : r.attachedUsd < 2 ^ 128) :
    pendingRequestMismatch debug (d.toJson.reread number) r.dataId.toList (r.toJson.reread number) d.projectUuid = none
      ↔ r.attachedUsd < 2 ^ 64 := by
  rw [pendingRequestMismatch, dataIdMismatch_request whole, requestIdMismatch_request agrees.requestId,
    predecessorMismatch_request agrees.predecessor,
    fieldMismatch_request agrees.source agrees.secretsRef agrees.format agrees.limits,
    inputMismatch_request agrees.input, projectIdMismatch_request agrees.project, projectUuidMismatch_request,
    ← attachedUsdMismatch_request whole agrees.attachedUsd husd]
  cases attachedUsdMismatch (d.toJson.reread number) (r.toJson.reread number) <;> simp

end Whole

end Pending

/-! ## An admitted request at the worker -/

/-- What the worker has read says what the contract holds; `pending` is how it reads the request itself. -/
structure SaysTheSame (env : Env) (data : RequestData) (pending : Value) (r : ExecutionRequest) : Prop where
  requestId : data.requestId = r.requestId
  sender : data.senderId = env.signer.name
  predecessor : data.predecessorId = some r.senderId.name
  source : data.codeSource = .ofContract r.resolvedSource
  limits : ResourceLimits.ofContract r.resourceLimits = some data.resourceLimits
  input : taskInput data pending = some (r.inputData.getD "")
  secretsRef : data.secretsRef = r.secretsRef.map .ofContract
  format : data.responseFormat = .ofContract r.responseFormat
  payment : data.payment = toString r.payment
  attachedUsd : data.attachedUsd = some (toString r.attachedUsd)

/-- **A request arrives intact.** Its line is taken for an event, the data of the event say what the request stored by
    the same call says, and neither check finds anything. -/
def ArrivesIntact (H : Host) (debug : Option String → String) (f : EventFilter) (env : Env) (c : Contract)
    (r : ExecutionRequest) (log : String) (receipt : Receipt) (blockHeight : Nat) : Prop :=
  ∃ event raw data pending,
    processLog H f log blockHeight = some (.executionRequested event) ∧
    Json.parse H.jsonNumber event.requestData = some raw ∧
    RequestData.ofText H.jsonNumber event.requestData = some data ∧
    Json.parse H.jsonNumber r.toJson.compact = some pending ∧
    SaysTheSame env data pending r ∧
    receiptMismatch debug data { event with receipt } = none ∧
    pendingRequestMismatch debug raw event.dataId pending
      (((pendingProjectId pending).bind c.projects.lookup).map Project.uuid) = none

/-- The limits a call names are all given, or it names none; and its stablecoin fits 64 bits. -/
def Readable (a : RequestArgs) : Prop :=
  (∀ l ∈ a.resourceLimits,
    l.maxInstructions.isSome = true ∧ l.maxMemoryMb.isSome = true ∧ l.maxExecutionSeconds.isSome = true) ∧
  a.attachedUsd < 2 ^ 64

section Admitted
variable {H : Host} {env : Env} {c : Contract} {a : RequestArgs}

theorem ofContract_isSome {l : Outlayer.ResourceLimits} :
    (∃ limits, ResourceLimits.ofContract l = some limits) ↔
      l.maxInstructions.isSome = true ∧ l.maxMemoryMb.isSome = true ∧ l.maxExecutionSeconds.isSome = true := by
  obtain ⟨instructions, memory, seconds⟩ := l
  cases instructions <;> cases memory <;> cases seconds <;> simp [ResourceLimits.ofContract]

theorem readable_iff :
    Readable a ↔ (∃ limits, ResourceLimits.ofContract a.limits = some limits) ∧ a.attachedUsd < 2 ^ 64 := by
  have hlimits : (∀ l ∈ a.resourceLimits,
      l.maxInstructions.isSome = true ∧ l.maxMemoryMb.isSome = true ∧ l.maxExecutionSeconds.isSome = true) ↔
        ∃ limits, ResourceLimits.ofContract a.limits = some limits := by
    unfold RequestArgs.limits
    cases a.resourceLimits with
    | none => simp [ResourceLimits.ofContract, Outlayer.ResourceLimits.default]
    | some l => simp [ofContract_isSome]
  rw [Readable, hlimits]

/-- The data of a request and the request stored with it agree. -/
theorem agrees (id : Nat) (resolved : Outlayer.CodeSource) (uuid : Option String) :
    Agrees (a.toData env id resolved uuid) (a.toRequest env id resolved) where
  requestId := rfl
  predecessor := rfl
  source := rfl
  limits := rfl
  input h := by
    show (if a.inputDataInState then "" else a.inputData.getD "") = a.inputData.getD ""
    rw [show a.inputDataInState = false from h]
    rfl
  inState h := by
    show a.inputData.isSome = true
    -- without an input there are no bytes to be too many
    cases hinput : a.inputData with
    | some _ => rfl
    | none =>
        have hlarge : a.inputDataInState = true := h
        simp [RequestArgs.inputDataInState, RequestArgs.inputLen, hinput, inputDataEventThreshold] at hlarge
  secretsRef := rfl
  format := rfl
  payment := rfl
  attachedUsd := rfl
  project := rfl

/-- The input the task gets is the stored one, wherever it was read. -/
theorem taskInput_eq {number : String → Option String} {d : Outlayer.RequestData} {r : ExecutionRequest}
    (agrees : Agrees d r) (limits : ResourceLimits) :
    taskInput (.ofContract d limits) (r.toJson.reread number) = some (r.inputData.getD "") := by
  unfold taskInput
  rw [pending_get "input_data" rfl, Option.bind_some, asStr_ofOption]
  show (if d.inputDataInState = true then r.inputData else some d.inputData) = _
  cases hstate : d.inputDataInState with
  | true =>
      obtain ⟨input, hinput⟩ := Option.isSome_iff_exists.mp (agrees.inState hstate)
      rw [hinput]
      rfl
  | false =>
      rw [agrees.input hstate]
      rfl

/-- Data and a request that agree arrive intact exactly when the limits are all given and the stablecoin fits. -/
theorem arrivesIntact_iff {debug : Option String → String} {f : EventFilter} {receipt : Receipt}
    {d : Outlayer.RequestData} {r : ExecutionRequest} (whole : WholeNumbers H.jsonNumber) (agrees : Agrees d r)
    (hd : d.Fits) (hr : r.Fits) (hf : f.Matches c.eventStandard c.eventVersion)
    (hsender : d.senderId = env.signer) (hsigner : receipt.signerId = some env.signer.name)
    (hpredecessor : receipt.predecessorId = some d.predecessorId.name) (hdataId : r.dataId = env.dataId)
    (huuid : d.projectUuid = (r.executionSource.projectId.bind c.projects.lookup).map Project.uuid)
    (blockHeight : Nat) :
    ArrivesIntact H debug f env c r (logEvent c.eventStandard c.eventVersion "execution_requested"
        (executionRequestedData d env.dataId env.blockTimestamp)) receipt blockHeight ↔
      (∃ limits, ResourceLimits.ofContract r.resourceLimits = some limits) ∧ r.attachedUsd < 2 ^ 64 := by
  have hline := processLog_request whole hf hd env.dataId env.blockTimestamp_lt blockHeight
  have hpending : Json.parse H.jsonNumber r.toJson.compact = some (r.toJson.reread H.jsonNumber) :=
    parse_compact (hr.good whole (by decide))
  have hcompare : pendingRequestMismatch debug (d.toJson.reread H.jsonNumber) env.dataId.toList
      (r.toJson.reread H.jsonNumber) (((pendingProjectId (r.toJson.reread H.jsonNumber)).bind
        c.projects.lookup).map Project.uuid) = none ↔ r.attachedUsd < 2 ^ 64 := by
    rw [pendingProjectId_toJson, ← huuid, ← hdataId]
    exact pendingRequestMismatch_request whole agrees hr.attachedUsd
  constructor
  · rintro ⟨event, raw, data, pending, hlog, hraw, -, hp, -, -, hmismatch⟩
    rw [hline, Option.map_eq_some_iff] at hlog
    obtain ⟨limits, hlimits, hevent⟩ := hlog
    obtain rfl := ContractEvent.executionRequested.inj hevent
    obtain rfl := Option.some.inj ((parse_requestData whole hd).symm.trans hraw)
    obtain rfl := Option.some.inj (hpending.symm.trans hp)
    exact ⟨⟨limits, agrees.limits ▸ hlimits⟩, hcompare.mp hmismatch⟩
  · rintro ⟨⟨limits, hlimits⟩, husd⟩
    have hlimits' : ResourceLimits.ofContract d.resourceLimits = some limits := agrees.limits ▸ hlimits
    refine ⟨eventOf d env.dataId env.blockTimestamp blockHeight, _, .ofContract d limits, _, ?_,
      parse_requestData whole hd, ?_, hpending, ?_, ?_, hcompare.mpr husd⟩
    · rw [hline, hlimits']
      rfl
    · show RequestData.ofText H.jsonNumber d.toJson.compact = _
      rw [RequestData.ofText_toJson whole hd, hlimits']
      rfl
    · exact
        { requestId := agrees.requestId
          sender := congrArg AccountId.name hsender
          predecessor := congrArg (fun account : AccountId => some account.name) agrees.predecessor
          source := congrArg CodeSource.ofContract agrees.source
          limits := hlimits
          input := taskInput_eq agrees limits
          secretsRef := congrArg (Option.map SecretsReference.ofContract) agrees.secretsRef
          format := congrArg ResponseFormat.ofContract agrees.format
          payment := congrArg toString agrees.payment
          attachedUsd := congrArg (fun amount => some (toString amount)) agrees.attachedUsd }
    · have hname : env.signer.name = d.senderId.name := congrArg AccountId.name hsender.symm
      simp only [receiptMismatch, hsigner, hpredecessor, RequestData.ofContract, hname, ne_eq, not_true_eq_false,
        if_false, if_true]

/-- **An admitted request arrives intact exactly when it is readable.** -/
theorem admitted_arrives_iff (debug : Option String → String) (receipt : Receipt) {f : EventFilter} {l : Ledger}
    {es : List Effect} (whole : WholeNumbers H.jsonNumber) (fits : a.Fits)
    (hf : f.Matches c.eventStandard c.eventVersion) (hsigner : receipt.signerId = some env.signer.name)
    (hpredecessor : receipt.predecessorId = some env.predecessor.name)
    (h : requestExecution H env c a = .ok (l, es)) (blockHeight : Nat) :
    ∃ r log, l.pendingRequests.lookup c.nextRequestId = some r ∧ es.filterMap Effect.requestLog = [log] ∧
      (ArrivesIntact H debug f env c r log receipt blockHeight ↔ Readable a) := by
  obtain ⟨resolved, hstored, hlog, hid⟩ := requestExecution_writes h
  refine ⟨_, _, hstored, hlog, ?_⟩
  rw [readable_iff]
  exact arrivesIntact_iff whole (agrees _ resolved _) ⟨hid, env.blockTimestamp_lt, fits.limits_fit⟩
    ⟨hid, env.blockTimestamp_lt, fits.limits_fit, env.attachedDeposit_lt, fits.attachedUsd⟩ hf rfl hsigner
    hpredecessor rfl rfl blockHeight

end Admitted

/-! ### Calls -/

/-- A reader that keeps numbers of 64 bits and writes larger ones with an exponent. -/
def exponentNumber (text : String) : Option String :=
  if (parseUnsigned 64 text).isSome then some text else some (text ++ "e0")

theorem wholeNumbers_exponentNumber : WholeNumbers exponentNumber where
  kept n hn := by
    rw [exponentNumber, parseUnsigned_toString hn]
    rfl
  float n hn _ := by
    refine ⟨toString n ++ "e0", ?_, parseUnsigned_of_mem (c := 'e') ?_ (by decide) (by decide)⟩
    · rw [exponentNumber, parseUnsigned_toString_of_le hn]
      rfl
    · rw [String.toList_append]
      exact List.mem_append_right _ (by decide)

/-- A host that reads numbers with exponents. -/
def readingHost : Host := { asciiHost with jsonNumber := exponentNumber }

/-- Bob's call, and the receipt it runs in. -/
def bobCall : Env := envOf bobAccount (10 ^ 24) 0 1

/-- A receipt of bob's own. -/
def bobReceipt : Receipt where
  transactionHash := none
  receiptId := none
  predecessorId := some "bob.near"
  signerId := some "bob.near"
  signerPublicKey := none
  gasBurnt := none

/-- The filter a worker has by default. -/
def defaultFilter : EventFilter where
  standardName := "near-outlayer"
  functionName := "execution_requested"
  minVersion := none

/-- A run of some repository with the limits given. -/
def runWith (limits : Outlayer.ResourceLimits) : RequestArgs where
  source := .gitHub "alice/app" "main" none
  resourceLimits := some limits

theorem defaultFilter_matches : defaultFilter.Matches World.fresh.contract.eventStandard
    World.fresh.contract.eventVersion := ⟨by decide, rfl, rfl⟩

theorem runWith_fits {limits : Outlayer.ResourceLimits} (fits : limits.Fits) : (runWith limits).Fits where
  limits l hl := by
    obtain rfl := Option.some.inj hl
    exact fits
  attachedUsd := by
    show 0 < 2 ^ 128
    decide

/-- The limits of a run, all of them given. -/
theorem whole_limits_arrive : ∃ l es r log,
    requestExecution readingHost bobCall World.fresh.contract (runWith .default) = .ok (l, es) ∧
    l.pendingRequests.lookup 0 = some r ∧ es.filterMap Effect.requestLog = [log] ∧
    ArrivesIntact readingHost (fun _ => "") defaultFilter bobCall World.fresh.contract r log bobReceipt 7 := by
  obtain ⟨⟨l, es⟩, h⟩ : ∃ out, (requestExecution readingHost bobCall World.fresh.contract
      (runWith .default)).toOption = some out := Option.isSome_iff_exists.mp (by decide +kernel)
  rw [toOption_eq_some] at h
  obtain ⟨r, log, hr, hlog, hiff⟩ := admitted_arrives_iff (fun _ => "") bobReceipt
    wholeNumbers_exponentNumber (runWith_fits ResourceLimits.fits_default) defaultFilter_matches rfl rfl h 7
  refine ⟨l, es, r, log, h, hr, hlog, hiff.mpr ⟨?_, by decide⟩⟩
  rintro limits hlimits
  obtain rfl := Option.some.inj hlimits
  exact ⟨rfl, rfl, rfl⟩

/-- One limit is given, as the contract allows: the request is admitted, and the worker drops its event. -/
theorem partial_limits_dropped : ∃ l es r log,
    requestExecution readingHost bobCall World.fresh.contract (runWith ⟨some 1000000, none, none⟩) = .ok (l, es) ∧
    l.pendingRequests.lookup 0 = some r ∧ es.filterMap Effect.requestLog = [log] ∧
    processLog readingHost defaultFilter log 7 = none ∧
    ¬ ArrivesIntact readingHost (fun _ => "") defaultFilter bobCall World.fresh.contract r log bobReceipt 7 := by
  obtain ⟨⟨l, es⟩, h⟩ : ∃ out, (requestExecution readingHost bobCall World.fresh.contract
      (runWith ⟨some 1000000, none, none⟩)).toOption = some out := Option.isSome_iff_exists.mp (by decide +kernel)
  rw [toOption_eq_some] at h
  obtain ⟨resolved, hstored, hlog, hid⟩ := requestExecution_writes h
  have fits : (runWith ⟨some 1000000, none, none⟩).Fits := by
    refine runWith_fits ⟨?_, ?_, ?_⟩
    all_goals
      intro n hn
      cases hn <;> decide
  have hnone := processLog_request (H := readingHost) wholeNumbers_exponentNumber defaultFilter_matches
    (d := (runWith ⟨some 1000000, none, none⟩).toData bobCall World.fresh.contract.nextRequestId resolved none)
    ⟨hid, bobCall.blockTimestamp_lt, fits.limits_fit⟩ bobCall.dataId bobCall.blockTimestamp_lt 7
  refine ⟨l, es, _, _, h, hstored, hlog, hnone, ?_⟩
  rintro ⟨event, raw, data, pending, harrives, -⟩
  have hsome : none = some (ContractEvent.executionRequested event) := hnone.symm.trans harrives
  cases hsome

end Monitor

end Outlayer
