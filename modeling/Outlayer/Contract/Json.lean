import Outlayer.Contract.Logs
import Outlayer.Contract.Settlement
import Outlayer.Lib.JsonFields

/-!
# `Contract.Json` — requests as the contract writes them

A request leaves the contract twice: in the event the workers read, whose data is the text handed to the settlement
callback as well, and in the answer of `get_request`. Both are JSON, the members in the order of the source: enums
carry the name of the variant around their fields, an absent option is `null`, and an amount of 128 bits is a string in
the event and a number in the view.
-/

namespace Outlayer
open Text Checked Collections Json

/-! ## Parts of a request -/

/-- The JSON that serde writes for each type of the contract's events and views. -/
def CodeSource.toJson : CodeSource → Value
  | .gitHub repo commit buildTarget =>
      .obj [("GitHub", .obj [("repo", .str repo), ("commit", .str commit),
        ("build_target", .ofOption .str buildTarget)])]
  | .wasmUrl url hash buildTarget =>
      .obj [("WasmUrl", .obj [("url", .str url), ("hash", .str hash), ("build_target", .ofOption .str buildTarget)])]

def ExecutionSource.toJson : ExecutionSource → Value
  | .gitHub repo commit buildTarget =>
      .obj [("GitHub", .obj [("repo", .str repo), ("commit", .str commit),
        ("build_target", .ofOption .str buildTarget)])]
  | .wasmUrl url hash buildTarget =>
      .obj [("WasmUrl", .obj [("url", .str url), ("hash", .str hash), ("build_target", .ofOption .str buildTarget)])]
  | .project projectId versionKey =>
      .obj [("Project", .obj [("project_id", .str projectId), ("version_key", .ofOption .str versionKey)])]

def ResponseFormat.toJson : ResponseFormat → Value
  | .bytes => .str "Bytes"
  | .text  => .str "Text"
  | .json  => .str "Json"

def ResourceLimits.toJson (l : ResourceLimits) : Value :=
  .obj [("max_instructions", .ofOption .ofNat l.maxInstructions), ("max_memory_mb", .ofOption .ofNat l.maxMemoryMb),
    ("max_execution_seconds", .ofOption .ofNat l.maxExecutionSeconds)]

def SecretsReference.toJson (s : SecretsReference) : Value :=
  .obj [("profile", .str s.profile), ("account_id", .str s.accountId.name)]

def StoredOutput.toJson : StoredOutput → Value
  | .bytes bs  => .obj [("Bytes", .ofBytes bs)]
  | .text s    => .obj [("Text", .ofBytes s.toUTF8.toList)]
  | .json s    => .obj [("Json", .ofBytes s.toUTF8.toList)]

/-! ## The view -/

/-- An answer of `get_request`. -/
def ExecutionRequest.toJson (r : ExecutionRequest) : Value :=
  .obj [("request_id", .ofNat r.requestId), ("data_id", .ofBytes r.dataId.toList), ("sender_id", .str r.senderId.name),
    ("execution_source", r.executionSource.toJson), ("resolved_source", r.resolvedSource.toJson),
    ("resource_limits", r.resourceLimits.toJson), ("payment", .ofNat r.payment), ("timestamp", .ofNat r.timestamp),
    ("secrets_ref", .ofOption SecretsReference.toJson r.secretsRef), ("response_format", r.responseFormat.toJson),
    ("input_data", .ofOption .str r.inputData), ("payer_account_id", .str r.payerAccountId.name),
    ("attached_usd", .ofNat r.attachedUsd), ("pending_output", .ofOption StoredOutput.toJson r.pendingOutput),
    ("output_submitted", .bool r.outputSubmitted)]

/-! ## The event -/

/-- The data of a request, as the callback and the workers are handed it. -/
def RequestData.toJson (d : RequestData) : Value :=
  .obj [("request_id", .ofNat d.requestId), ("sender_id", .str d.senderId.name),
    ("predecessor_id", .str d.predecessorId.name), ("code_source", d.codeSource.toJson),
    ("resource_limits", d.resourceLimits.toJson), ("input_data", .str d.inputData),
    ("input_data_in_state", .bool d.inputDataInState), ("secrets_ref", .ofOption SecretsReference.toJson d.secretsRef),
    ("response_format", d.responseFormat.toJson), ("payment", .str (toString d.payment)),
    ("attached_usd", .str (toString d.attachedUsd)), ("timestamp", .ofNat d.timestamp),
    ("compile_only", .bool d.compileOnly), ("force_rebuild", .bool d.forceRebuild),
    ("store_on_fastfs", .bool d.storeOnFastfs), ("use_bound_identity", .bool d.useBoundIdentity),
    ("project_uuid", .ofOption .str d.projectUuid), ("project_id", .ofOption .str d.projectId)]

/-- `log_event`: one event as one line. -/
def logEvent (standard version event : String) (data : Value) : String :=
  "EVENT_JSON:" ++ (Value.obj [("standard", .str standard), ("version", .str version), ("event", .str event),
    ("data", .arr [data])]).compact

/-- The data of an `execution_requested` event: the request's is text inside it. -/
def executionRequestedData (data : RequestData) (dataId : CryptoHash) (timestamp : Nat) : Value :=
  .obj [("request_data", .str data.toJson.compact), ("data_id", .ofBytes dataId.toList),
    ("timestamp", .ofNat timestamp)]

/-- The line by which the workers hear of a request. -/
def Effect.requestLog : Effect → Option String
  | .event standard version (.executionRequested data dataId timestamp) =>
      some (logEvent standard version "execution_requested" (executionRequestedData data dataId timestamp))
  | _ => none

/-! ## System events -/

def StorageItem.toJson : StorageItem → Value
  | .walletPolicy walletPubkey => .obj [("WalletPolicy", .obj [("wallet_pubkey", .str walletPubkey)])]

/-- The name of an event, and its fields. -/
def SystemEvent.members : SystemEvent → String × List (String × Value)
  | .topUpPaymentKey dataId owner nonce amount encryptedData =>
      ("TopUpPaymentKey", [("data_id", .ofBytes dataId.toList), ("owner", .str owner.name), ("nonce", .ofNat nonce),
        ("amount", .str (toString amount)), ("encrypted_data", .str encryptedData)])
  | .deletePaymentKey dataId owner nonce =>
      ("DeletePaymentKey", [("data_id", .ofBytes dataId.toList), ("owner", .str owner.name), ("nonce", .ofNat nonce)])
  | .subscriptionPurchased owner nonce plan paidUsd payer =>
      ("SubscriptionPurchased", [("owner", .str owner.name), ("nonce", .ofNat nonce), ("plan", .ofNat plan),
        ("paid_usd", .str (toString paidUsd)), ("payer", .str payer.name)])
  | .walletPolicyUpdated walletPubkey owner encryptedData frozen version locked =>
      ("WalletPolicyUpdated", [("wallet_pubkey", .str walletPubkey), ("owner", .str owner.name),
        ("encrypted_data", .str encryptedData), ("frozen", .bool frozen), ("version", .ofNat version),
        ("locked", .bool locked)])
  | .walletPolicyDeleted walletPubkey owner refundedTo =>
      ("WalletPolicyDeleted", [("wallet_pubkey", .str walletPubkey), ("owner", .str owner.name),
        ("refunded_to", .str refundedTo.name)])
  | .storageRefundToChanged item storageRefundTo =>
      ("StorageRefundToChanged", [("item", item.toJson), ("storage_refund_to", .str storageRefundTo.name)])
  | .walletFrozenChanged walletPubkey owner frozen =>
      ("WalletFrozenChanged", [("wallet_pubkey", .str walletPubkey), ("owner", .str owner.name),
        ("frozen", .bool frozen)])
  | .projectTransferred oldProjectId newProjectId projectUuid oldOwner newOwner =>
      ("ProjectTransferred", [("old_project_id", .str oldProjectId), ("new_project_id", .str newProjectId),
        ("project_uuid", .str projectUuid), ("old_owner", .str oldOwner.name), ("new_owner", .str newOwner.name)])
  | .projectTransferAccepted newOwner giver name =>
      ("ProjectTransferAccepted", [("new_owner", .str newOwner.name), ("from", .str giver.name), ("name", .str name)])
  | .projectTransferRevoked newOwner giver name =>
      ("ProjectTransferRevoked", [("new_owner", .str newOwner.name), ("from", .str giver.name), ("name", .str name)])
  | .projectStorageCleanup projectId projectUuid timestamp =>
      ("ProjectStorageCleanup", [("project_id", .str projectId), ("project_uuid", .str projectUuid),
        ("timestamp", .ofNat timestamp)])

def SystemEvent.toJson (e : SystemEvent) : Value := .obj [(e.members.1, .obj e.members.2)]

/-- `emit_system_event`: the line. -/
def StorageEffect.log : StorageEffect → Option String
  | .event standard version e => some (logEvent standard version "system_event" e.toJson)
  | _                         => none

/-! ## The view of a policy -/

def WalletPolicyView.toJson (v : WalletPolicyView) : Value :=
  .obj [("owner", .str v.owner.name), ("encrypted_data", .str v.encryptedData), ("frozen", .bool v.frozen),
    ("updated_at", .ofNat v.updatedAt), ("storage_refund_to", .ofOption (fun a => .str a.name) v.storageRefundTo),
    ("storage_deposit", .str (toString v.storageDeposit)), ("version", .ofNat v.version), ("locked", .bool v.locked)]

/-! ## What is written can be read -/

/-- The numbers of some limits fit their types. -/
structure ResourceLimits.Fits (l : ResourceLimits) : Prop where
  maxInstructions : ∀ n ∈ l.maxInstructions, n < 2 ^ 64
  maxMemoryMb : ∀ n ∈ l.maxMemoryMb, n < 2 ^ 32
  maxExecutionSeconds : ∀ n ∈ l.maxExecutionSeconds, n < 2 ^ 64

section Good
variable {number : String → Option String}

private theorem good_option {α : Type} {write : α → Value} {depth : Nat} {o : Option α}
    (h : ∀ a ∈ o, (write a).Good number depth) : (Value.ofOption write o).Good number depth := by
  cases o with
  | none => trivial
  | some a => exact h a rfl

private theorem good_strings {depth : Nat} (o : Option String) : (Value.ofOption .str o).Good number depth :=
  good_option fun _ _ => trivial

theorem CodeSource.good (s : CodeSource) {depth : Nat} (hd : 2 < depth) : s.toJson.Good number depth := by
  have h1 : 1 < depth := by omega
  have h2 : 1 < depth - 1 := by omega
  cases s with
  | gitHub repo commit buildTarget =>
      exact ⟨h1, ⟨h2, trivial, trivial, good_strings buildTarget, trivial⟩, trivial⟩
  | wasmUrl url hash buildTarget =>
      exact ⟨h1, ⟨h2, trivial, trivial, good_strings buildTarget, trivial⟩, trivial⟩

theorem ExecutionSource.good (s : ExecutionSource) {depth : Nat} (hd : 2 < depth) : s.toJson.Good number depth := by
  have h1 : 1 < depth := by omega
  have h2 : 1 < depth - 1 := by omega
  cases s with
  | gitHub repo commit buildTarget =>
      exact ⟨h1, ⟨h2, trivial, trivial, good_strings buildTarget, trivial⟩, trivial⟩
  | wasmUrl url hash buildTarget =>
      exact ⟨h1, ⟨h2, trivial, trivial, good_strings buildTarget, trivial⟩, trivial⟩
  | project projectId versionKey => exact ⟨h1, ⟨h2, trivial, good_strings versionKey, trivial⟩, trivial⟩

theorem ResponseFormat.good (f : ResponseFormat) {depth : Nat} : f.toJson.Good number depth := by
  cases f <;> trivial

theorem SecretsReference.good (s : SecretsReference) {depth : Nat} (hd : 1 < depth) : s.toJson.Good number depth :=
  ⟨hd, trivial, trivial, trivial⟩

section Whole
variable (whole : WholeNumbers number)
include whole

theorem ResourceLimits.Fits.good {l : ResourceLimits} (fits : l.Fits) {depth : Nat} (hd : 1 < depth) :
    l.toJson.Good number depth := by
  have hwide : ∀ {w n : Nat}, w ≤ 128 → n < 2 ^ w → n < 2 ^ 128 :=
    fun hw hn => lt_of_lt_of_le hn (Nat.pow_le_pow_right (by decide) hw)
  exact ⟨hd, good_option fun n hn => whole.good (hwide (by decide) (fits.maxInstructions n hn)) _,
    good_option fun n hn => whole.good (hwide (by decide) (fits.maxMemoryMb n hn)) _,
    good_option fun n hn => whole.good (hwide (by decide) (fits.maxExecutionSeconds n hn)) _, trivial⟩

theorem StoredOutput.good (o : StoredOutput) {depth : Nat} (hd : 2 < depth) : o.toJson.Good number depth := by
  have h1 : 1 < depth := by omega
  have h2 : 1 < depth - 1 := by omega
  cases o <;> exact ⟨h1, whole.good_bytes _ h2, trivial⟩

/-- The data of a request whose numbers fit their types. -/
structure RequestData.Fits (d : RequestData) : Prop where
  requestId : d.requestId < 2 ^ 64
  timestamp : d.timestamp < 2 ^ 64
  limits : d.resourceLimits.Fits

/-- A request whose numbers fit their types. -/
structure ExecutionRequest.Fits (r : ExecutionRequest) : Prop where
  requestId : r.requestId < 2 ^ 64
  timestamp : r.timestamp < 2 ^ 64
  limits : r.resourceLimits.Fits
  payment : r.payment < 2 ^ 128
  attachedUsd : r.attachedUsd < 2 ^ 128

theorem RequestData.Fits.good {d : RequestData} (fits : d.Fits) {depth : Nat} (hd : 3 < depth) :
    d.toJson.Good number depth := by
  have hwide : ∀ {n : Nat}, n < 2 ^ 64 → n < 2 ^ 128 := fun h => lt_trans h (by decide)
  have h1 : 1 < depth := by omega
  have h2 : 1 < depth - 1 := by omega
  have h3 : 2 < depth - 1 := by omega
  refine ⟨h1, whole.good (hwide fits.requestId) _, trivial, trivial, CodeSource.good _ h3, fits.limits.good whole h2,
    trivial, trivial, good_option fun s _ => s.good h2, ResponseFormat.good _, trivial, trivial,
    whole.good (hwide fits.timestamp) _, trivial, trivial, trivial, trivial, good_strings _, good_strings _, trivial⟩

theorem ExecutionRequest.Fits.good {r : ExecutionRequest} (fits : r.Fits) {depth : Nat} (hd : 3 < depth) :
    r.toJson.Good number depth := by
  have hwide : ∀ {n : Nat}, n < 2 ^ 64 → n < 2 ^ 128 := fun h => lt_trans h (by decide)
  have h1 : 1 < depth := by omega
  have h2 : 1 < depth - 1 := by omega
  have h3 : 2 < depth - 1 := by omega
  refine ⟨h1, whole.good (hwide fits.requestId) _, whole.good_bytes _ h2, trivial, ExecutionSource.good _ h3,
    CodeSource.good _ h3, fits.limits.good whole h2, whole.good fits.payment _, whole.good (hwide fits.timestamp) _,
    good_option fun s _ => s.good h2, ResponseFormat.good _, good_strings _, trivial,
    whole.good fits.attachedUsd _, good_option fun o _ => StoredOutput.good whole o h3, trivial, trivial⟩

/-- The event of a request, whatever its data say. -/
theorem good_executionRequestedData (data : RequestData) (dataId : CryptoHash) {timestamp : Nat}
    (ht : timestamp < 2 ^ 64) {depth : Nat} (hd : 2 < depth) :
    (executionRequestedData data dataId timestamp).Good number depth :=
  ⟨by omega, trivial, whole.good_bytes _ (by omega), whole.good (lt_trans ht (by decide)) _, trivial⟩

end Whole
end Good

/-! ## What an admitted request writes -/

/-- The numbers of a call's arguments fit their types. -/
structure RequestArgs.Fits (a : RequestArgs) : Prop where
  limits : ∀ l ∈ a.resourceLimits, l.Fits
  attachedUsd : a.attachedUsd < 2 ^ 128

theorem ResourceLimits.fits_default : ResourceLimits.default.Fits := by
  refine ⟨?_, ?_, ?_⟩
  all_goals
    rintro n hn
    obtain rfl := Option.mem_some.mp hn
    decide

theorem RequestArgs.Fits.limits_fit {a : RequestArgs} (fits : a.Fits) : a.limits.Fits := by
  unfold RequestArgs.limits
  cases hl : a.resourceLimits with
  | none => exact ResourceLimits.fits_default
  | some l => exact fits.limits l hl

/-- A source resolves to the project it names. -/
theorem uuid_of_resolve {c : Contract} {source : ExecutionSource} {resolved : CodeSource} {uuid : Option String}
    (h : resolveExecutionSource c source = .ok (resolved, uuid)) :
    uuid = (source.projectId.bind c.projects.lookup).map Project.uuid := by
  cases source with
  | project projectId versionKey =>
      simp only [resolveExecutionSource, bind_eq_ok, expect_eq_ok] at h
      obtain ⟨project, hproject, h⟩ := h
      have huuid : uuid = some project.uuid := by
        cases versionKey with
        | none =>
            simp only [bind_eq_ok, expect_eq_ok, pure_eq_ok] at h
            obtain ⟨_, -, _, -, _, -, _, -, heq⟩ := h
            exact (Prod.mk.inj heq).2.symm
        | some v =>
            simp only [bind_eq_ok, expect_eq_ok, pure_eq_ok] at h
            obtain ⟨_, -, _, -, _, -, heq⟩ := h
            exact (Prod.mk.inj heq).2.symm
      rw [ExecutionSource.projectId, Option.bind_some, hproject, huuid]
      rfl
  | _ =>
      cases h
      rfl

/-- **What a call that admits a request leaves**: the request under its id, and the line that names it. -/
theorem requestExecution_writes {H : Host} {env : Env} {c : Contract} {a : RequestArgs} {l : Ledger}
    {es : List Effect} (h : requestExecution H env c a = .ok (l, es)) :
    ∃ resolved,
      l.pendingRequests.lookup c.nextRequestId = some (a.toRequest env c.nextRequestId resolved) ∧
      es.filterMap Effect.requestLog
        = [logEvent c.eventStandard c.eventVersion "execution_requested"
            (executionRequestedData (a.toData env c.nextRequestId resolved
              ((a.source.projectId.bind c.projects.lookup).map Project.uuid)) env.dataId env.blockTimestamp)] ∧
      c.nextRequestId < 2 ^ 64 := by
  simp only [requestExecution, bind_eq_ok, require_eq_ok, add_eq_ok, pure_eq_ok] at h
  obtain ⟨_, -, _, -, ⟨resolved, uuid⟩, hresolve, _, -, _, -, cost, -, l', hl, h⟩ := h
  obtain ⟨required, -, _, -, next, ⟨hnext, -⟩, h⟩ := h
  have hid := (takeAttachedUsd_credits hl).next
  cases h
  refine ⟨resolved, ?_, ?_, ?_⟩
  · rw [hid, LookupMap.lookup_insert_iff, if_pos rfl]
  · rw [← uuid_of_resolve hresolve, hid]
    rfl
  · omega

end Outlayer
