import Outlayer.Worker.Correctness.Intact

/-!
# `Worker.Correctness.PendingRuns` — what is run is what the chain holds

The checks compare the pending request with one reading of an event's data, the value of its text. The task is made
from another, the record read from the same text. Both come from one tree. The pending request has an id, so the data
were an object (`data_isObject`), and a field that was found is the value's member of that name (`get_collapse`). What
is left is that no part of a request reads in two ways: a tree that is the contract's code source as a value is that
source as a record (`CodeSource.ofJson_collapse`), whatever it repeats, leaves out or adds.
-/

namespace Outlayer
open Text Checked Collections Json

namespace Monitor

/-! ## One part, read in two ways -/

section Parts
variable {number : String → Option String} {v w : Value} {key : String}

/-- A member of what a tree collapses to. -/
theorem get_of_collapse (hv : v.collapse = w.reread number) (hkeys : w.Distinct) {u : Value}
    (hget : w.get key = some u) : v.collapse.get key = some (u.reread number) := by
  rw [hv, get_reread hkeys, hget]
  rfl

theorem GitHubSource.ofJson_collapse {source : GitHubSource} {repo commit : String} {buildTarget : Option String}
    (h : GitHubSource.ofJson v = some source)
    (hv : v.collapse = (Value.obj [("repo", .str repo), ("commit", .str commit),
      ("build_target", .ofOption .str buildTarget)]).reread number) :
    source = { repo, commit, buildTarget } := by
  have hkeys : (Value.obj [("repo", .str repo), ("commit", .str commit),
      ("build_target", .ofOption .str buildTarget)]).Distinct :=
    distinct_of_keys ["repo", "commit", "build_target"] rfl (by decide)
  have hobj : v.collapse.asArray = none := by
    rw [hv]
    rfl
  simp only [GitHubSource.ofJson, Option.bind_eq_bind, Option.bind_eq_some_iff, Option.pure_def, Option.some.injEq] at h
  obtain ⟨repo', hrepo, commit', hcommit, target', htarget, rfl⟩ := h
  have hrepo := (required_str hrepo hobj).symm.trans (get_of_collapse hv hkeys rfl)
  have hcommit := (required_str hcommit hobj).symm.trans (get_of_collapse hv hkeys rfl)
  have htarget := nullable_str htarget hobj
  rw [get_of_collapse hv hkeys rfl, Option.bind_some, asStr_ofOption] at htarget
  cases hrepo
  cases hcommit
  cases htarget
  rfl

theorem WasmUrlSource.ofJson_collapse {source : WasmUrlSource} {url hash : String} {buildTarget : Option String}
    (h : WasmUrlSource.ofJson v = some source)
    (hv : v.collapse = (Value.obj [("url", .str url), ("hash", .str hash),
      ("build_target", .ofOption .str buildTarget)]).reread number) :
    source = { url, hash, buildTarget } := by
  have hkeys : (Value.obj [("url", .str url), ("hash", .str hash),
      ("build_target", .ofOption .str buildTarget)]).Distinct :=
    distinct_of_keys ["url", "hash", "build_target"] rfl (by decide)
  have hobj : v.collapse.asArray = none := by
    rw [hv]
    rfl
  simp only [WasmUrlSource.ofJson, Option.bind_eq_bind, Option.bind_eq_some_iff, Option.pure_def,
    Option.some.injEq] at h
  obtain ⟨url', hurl, hash', hhash, target', htarget, rfl⟩ := h
  have hurl := (required_str hurl hobj).symm.trans (get_of_collapse hv hkeys rfl)
  have hhash := (required_str hhash hobj).symm.trans (get_of_collapse hv hkeys rfl)
  have htarget := nullable_str htarget hobj
  rw [get_of_collapse hv hkeys rfl, Option.bind_some, asStr_ofOption] at htarget
  cases hurl
  cases hhash
  cases htarget
  rfl

/-- **A code source reads one way.** The variant that is tried first is not there unless it is the contract's. -/
theorem CodeSource.ofJson_collapse {source : CodeSource} {s : Outlayer.CodeSource}
    (h : CodeSource.ofJson v = some source) (hv : v.collapse = s.toJson.reread number) : source = .ofContract s := by
  have hobj : v.collapse.asArray = none := by
    rw [hv]
    cases s <;> rfl
  have htried : ((v.required ["GitHub"] "GitHub" GitHubSource.ofJson).map CodeSource.gitHub).or
      ((v.required ["WasmUrl"] "WasmUrl" WasmUrlSource.ofJson).map CodeSource.wasmUrl) = some source := by
    cases v with
    | obj ms => exact h
    | _ => cases h
  cases s with
  | gitHub repo commit buildTarget =>
      have hkeys : (Outlayer.CodeSource.gitHub repo commit buildTarget).toJson.Distinct :=
        distinct_of_keys ["GitHub"] rfl (by decide)
      cases hgit : v.required ["GitHub"] "GitHub" GitHubSource.ofJson with
      | some github =>
          rw [hgit] at htried
          cases htried
          obtain ⟨u, hu, hread⟩ := required_collapse hgit hobj
          have hinner := Option.some.inj (hu.symm.trans (get_of_collapse hv hkeys rfl))
          exact congrArg CodeSource.gitHub (GitHubSource.ofJson_collapse hread hinner)
      | none =>
          rw [hgit] at htried
          obtain ⟨wasm, hwasm, -⟩ := Option.map_eq_some_iff.mp htried
          obtain ⟨u, hu, -⟩ := required_collapse hwasm hobj
          rw [hv, get_reread hkeys] at hu
          cases hu
  | wasmUrl url hash buildTarget =>
      have hkeys : (Outlayer.CodeSource.wasmUrl url hash buildTarget).toJson.Distinct :=
        distinct_of_keys ["WasmUrl"] rfl (by decide)
      cases hgit : v.required ["GitHub"] "GitHub" GitHubSource.ofJson with
      | some github =>
          obtain ⟨u, hu, -⟩ := required_collapse hgit hobj
          rw [hv, get_reread hkeys] at hu
          cases hu
      | none =>
          rw [hgit] at htried
          obtain ⟨wasm, hwasm, rfl⟩ := Option.map_eq_some_iff.mp htried
          obtain ⟨u, hu, hread⟩ := required_collapse hwasm hobj
          have hinner := Option.some.inj (hu.symm.trans (get_of_collapse hv hkeys rfl))
          exact congrArg CodeSource.wasmUrl (WasmUrlSource.ofJson_collapse hread hinner)

theorem SecretsReference.ofJson_collapse {ref : SecretsReference} {s : Outlayer.SecretsReference}
    (h : SecretsReference.ofJson v = some ref) (hv : v.collapse = s.toJson.reread number) : ref = .ofContract s := by
  have hkeys : s.toJson.Distinct := distinct_of_keys ["profile", "account_id"] rfl (by decide)
  have hobj : v.collapse.asArray = none := by
    rw [hv]
    rfl
  simp only [SecretsReference.ofJson, Option.bind_eq_bind, Option.bind_eq_some_iff, Option.pure_def,
    Option.some.injEq] at h
  obtain ⟨profile, hprofile, accountId, haccount, rfl⟩ := h
  have hprofile := (required_str hprofile hobj).symm.trans (get_of_collapse hv hkeys rfl)
  have haccount := (required_str haccount hobj).symm.trans (get_of_collapse hv hkeys rfl)
  cases hprofile
  cases haccount
  rfl

theorem ResponseFormat.ofJson_collapse {format : ResponseFormat} {f : Outlayer.ResponseFormat}
    (h : ResponseFormat.ofJson v = some format) (hv : v.collapse = f.toJson.reread number) :
    format = .ofContract f := by
  cases f <;>
    · rw [collapse_eq_str hv] at h
      exact (Option.some.inj h).symm

theorem ResourceLimits.ofJson_collapse {limits : ResourceLimits} {l : Outlayer.ResourceLimits}
    (whole : WholeNumbers number) (fits : l.Fits) (h : ResourceLimits.ofJson v = some limits)
    (hv : v.collapse = l.toJson.reread number) : ResourceLimits.ofContract l = some limits := by
  have hkeys : l.toJson.Distinct :=
    distinct_of_keys ["max_instructions", "max_memory_mb", "max_execution_seconds"] rfl (by decide)
  have hobj : v.collapse.asArray = none := by
    rw [hv]
    rfl
  have hlimit : ∀ {w n : Nat} {key : String} {o : Option Nat}, w ≤ 64 → (∀ n ∈ o, n < 2 ^ w) →
      l.toJson.get key = some (.ofOption .ofNat o) → v.required limitsFields key (Value.asUnsigned w) = some n →
      o = some n := by
    intro w n key o hw ho hget hread
    obtain ⟨u, hu, hn⟩ := required_collapse hread hobj
    have hcollapse : u.collapse = (Value.ofOption .ofNat o).reread number :=
      Option.some.inj (hu.symm.trans (get_of_collapse hv hkeys hget))
    have hvalue : (Value.ofOption .ofNat o).renumber number = (Value.ofOption .ofNat o).reread number := by
      cases o <;> rfl
    rw [← asUnsigned_ofOption whole hw ho, hvalue, ← hcollapse, asUnsigned_collapse, hn]
  simp only [ResourceLimits.ofJson, Option.bind_eq_bind, Option.bind_eq_some_iff, Option.pure_def,
    Option.some.injEq] at h
  obtain ⟨instructions, hinstructions, memory, hmemory, seconds, hseconds, rfl⟩ := h
  have hinstructions := hlimit (by decide) fits.maxInstructions rfl hinstructions
  have hmemory := hlimit (by decide) fits.maxMemoryMb rfl hmemory
  have hseconds := hlimit (by decide) fits.maxExecutionSeconds rfl hseconds
  rw [ResourceLimits.ofContract, hinstructions, hmemory, hseconds]
  rfl

end Parts

/-! ## The data, read in two ways -/

/-- What the record says of the value of the same text. -/
structure ReadAs (raw : Value) (data : RequestData) : Prop where
  requestId : ∃ w, raw.get "request_id" = some w ∧ w.asUnsigned 64 = some data.requestId
  source : ∃ w, raw.get "code_source" = some w.collapse ∧ CodeSource.ofJson w = some data.codeSource
  limits : ∃ w, raw.get "resource_limits" = some w.collapse ∧ ResourceLimits.ofJson w = some data.resourceLimits
  input : raw.get "input_data" = some (.str data.inputData)
  inState : ((raw.get "input_data_in_state").bind Value.asBool).getD false = data.inputDataInState
  secretsRef : data.secretsRef = none ∧ memberOrNull raw "secrets_ref" = .null ∨
    ∃ w ref, data.secretsRef = some ref ∧ raw.get "secrets_ref" = some w.collapse ∧ w ≠ .null ∧
      SecretsReference.ofJson w = some ref
  predecessor : data.predecessorId = none ∧ memberOrNull raw "predecessor_id" = .null ∨
    ∃ (w : Value) (named : String), data.predecessorId = some named ∧ raw.get "predecessor_id" = some w.collapse ∧
      w ≠ .null ∧ w.asStr = some named
  attachedUsd : (raw.get "attached_usd").bind Value.asStr = data.attachedUsd
  format : raw.get "response_format" = none ∧ data.responseFormat = .text ∨
    ∃ w, raw.get "response_format" = some w.collapse ∧ ResponseFormat.ofJson w = some data.responseFormat
  projectUuid : (raw.get "project_uuid").bind Value.asStr = data.projectUuid
  projectId : (raw.get "project_id").bind Value.asStr = data.projectId

section Read
variable {number : String → Option String} {text : String} {raw pending : Value} {data : RequestData}
  {r : ExecutionRequest}

/-- **Both readings of an object agree, field by field.** -/
theorem readAs (hdata : RequestData.ofText number text = some data) (hraw : Json.parse number text = some raw)
    (hobj : raw.asArray = none) : ReadAs raw data := by
  obtain ⟨tree, htree, hread⟩ := Option.bind_eq_some_iff.mp hdata
  rw [parse_eq, htree] at hraw
  obtain rfl := Option.some.inj hraw
  unfold RequestData.ofJson at hread
  obtain ⟨requestId, hid, hread⟩ := Option.bind_eq_some_iff.mp hread
  obtain ⟨senderId, -, hread⟩ := Option.bind_eq_some_iff.mp hread
  obtain ⟨codeSource, hsource, hread⟩ := Option.bind_eq_some_iff.mp hread
  obtain ⟨limits, hlimits, hread⟩ := Option.bind_eq_some_iff.mp hread
  obtain ⟨inputData, hinput, hread⟩ := Option.bind_eq_some_iff.mp hread
  obtain ⟨inState, hinState, hread⟩ := Option.bind_eq_some_iff.mp hread
  obtain ⟨secretsRef, hsecrets, hread⟩ := Option.bind_eq_some_iff.mp hread
  obtain ⟨predecessorId, hpredecessor, hread⟩ := Option.bind_eq_some_iff.mp hread
  obtain ⟨payment, -, hread⟩ := Option.bind_eq_some_iff.mp hread
  obtain ⟨attachedUsd, husd, hread⟩ := Option.bind_eq_some_iff.mp hread
  obtain ⟨timestamp, -, hread⟩ := Option.bind_eq_some_iff.mp hread
  obtain ⟨format, hformat, hread⟩ := Option.bind_eq_some_iff.mp hread
  obtain ⟨compileOnly, -, hread⟩ := Option.bind_eq_some_iff.mp hread
  obtain ⟨forceRebuild, -, hread⟩ := Option.bind_eq_some_iff.mp hread
  obtain ⟨storeOnFastfs, -, hread⟩ := Option.bind_eq_some_iff.mp hread
  obtain ⟨useBoundIdentity, -, hread⟩ := Option.bind_eq_some_iff.mp hread
  obtain ⟨projectUuid, huuid, hread⟩ := Option.bind_eq_some_iff.mp hread
  obtain ⟨projectId, hproject, hread⟩ := Option.bind_eq_some_iff.mp hread
  obtain rfl := Option.some.inj hread
  obtain ⟨w, hw, hid⟩ := readRequired_collapse hid hobj
  exact
    { requestId := ⟨w.collapse, hw, (asUnsigned_collapse 64 w).trans hid⟩
      source := readRequired_collapse hsource hobj
      limits := readRequired_collapse hlimits hobj
      input := readRequired_str hinput hobj
      inState := readDefaulted_bool hinState hobj
      secretsRef := readNullable_collapse hsecrets hobj
      predecessor := readNullable_collapse hpredecessor hobj
      attachedUsd := readNullable_str husd hobj
      format := readDefaulted_collapse hformat hobj
      projectUuid := readNullable_str huuid hobj
      projectId := readNullable_str hproject hobj }

/-- A member of the pending request. -/
theorem memberOrNull_pending {key : String} {w : Value} (hget : r.toJson.get key = some w) :
    memberOrNull (r.toJson.reread number) key = w.reread number := by
  rw [memberOrNull, pending_get key hget]
  rfl

/-- Data that name the pending request's id are no array. -/
theorem data_isObject (h : requestIdMismatch raw (r.toJson.reread number) = none) : raw.asArray = none := by
  unfold requestIdMismatch at h
  rw [memberOrNull_pending rfl] at h
  cases raw with
  | arr vs => cases h
  | _ => rfl

/-- A member the comparison found equal. -/
theorem get_of_comparedField {key pendingKey : String} {u w : Value}
    (h : fieldMismatch raw (r.toJson.reread number) = none) (hmem : (key, pendingKey) ∈ comparedFields)
    (hget : r.toJson.get pendingKey = some w) (hraw : raw.get key = some u) : u = w.reread number := by
  have hequal := fieldMismatch_eq_none.mp h (key, pendingKey) hmem
  rwa [memberOrNull_pending hget, memberOrNull, hraw] at hequal

theorem dataId_eq {dataId : List UInt8} (whole : WholeNumbers number)
    (h : dataIdMismatch dataId (r.toJson.reread number) = none) : dataId = r.dataId.toList := by
  unfold dataIdMismatch at h
  rw [memberOrNull_pending rfl, whole.asBytes] at h
  by_contra hne
  rw [if_neg fun heq => hne (Option.some.inj heq).symm] at h
  cases h

section Checked
variable (hread : ReadAs raw data)
include hread

theorem requestId_eq (whole : WholeNumbers number) (fits : r.Fits)
    (h : requestIdMismatch raw (r.toJson.reread number) = none) : data.requestId = r.requestId := by
  obtain ⟨w, hw, hid⟩ := hread.requestId
  unfold requestIdMismatch at h
  rw [memberOrNull_pending rfl, memberOrNull, hw, Option.getD_some] at h
  have hequal : w = (Value.ofNat r.requestId).reread number := by
    by_contra hne
    rw [if_neg hne] at h
    cases h
  rw [hequal, whole.asUnsigned (Nat.le_refl 64) fits.requestId] at hid
  exact (Option.some.inj hid).symm

theorem codeSource_eq (h : fieldMismatch raw (r.toJson.reread number) = none) :
    data.codeSource = .ofContract r.resolvedSource := by
  obtain ⟨w, hw, hsource⟩ := hread.source
  exact CodeSource.ofJson_collapse hsource (get_of_comparedField h (.head _) rfl hw)

theorem limits_eq (whole : WholeNumbers number) (fits : r.Fits)
    (h : fieldMismatch raw (r.toJson.reread number) = none) :
    ResourceLimits.ofContract r.resourceLimits = some data.resourceLimits := by
  obtain ⟨w, hw, hlimits⟩ := hread.limits
  exact ResourceLimits.ofJson_collapse whole fits.limits hlimits
    (get_of_comparedField h (show ("resource_limits", "resource_limits") ∈ comparedFields by decide) rfl hw)

theorem secretsRef_eq (h : fieldMismatch raw (r.toJson.reread number) = none) :
    data.secretsRef = r.secretsRef.map .ofContract := by
  rcases hread.secretsRef with ⟨hnone, hnull⟩ | ⟨w, ref, hsome, hw, hnull, href⟩
  · have hequal := fieldMismatch_eq_none.mp h ("secrets_ref", "secrets_ref") (by decide)
    rw [memberOrNull_pending rfl, hnull] at hequal
    cases hr : r.secretsRef with
    | none => exact hnone
    | some s =>
        rw [hr] at hequal
        cases hequal
  · have hequal := get_of_comparedField h (show ("secrets_ref", "secrets_ref") ∈ comparedFields by decide) rfl hw
    cases hr : r.secretsRef with
    | none =>
        rw [hr] at hequal
        exact absurd (collapse_eq_null.mp hequal) hnull
    | some s =>
        rw [hr] at hequal
        rw [hsome, SecretsReference.ofJson_collapse href hequal]
        rfl

/-- A format left out is not the contract's, which always writes one. -/
theorem format_eq (h : fieldMismatch raw (r.toJson.reread number) = none) :
    data.responseFormat = .ofContract r.responseFormat := by
  rcases hread.format with ⟨hnone, -⟩ | ⟨w, hw, hformat⟩
  · have hequal := fieldMismatch_eq_none.mp h ("response_format", "response_format") (by decide)
    rw [memberOrNull_pending rfl, memberOrNull, hnone] at hequal
    cases hr : r.responseFormat <;>
      · rw [hr] at hequal
        cases hequal
  · exact ResponseFormat.ofJson_collapse hformat
      (get_of_comparedField h (show ("response_format", "response_format") ∈ comparedFields by decide) rfl hw)

theorem taskInput_pending {input : String} (h : inputMismatch raw (r.toJson.reread number) = none)
    (hinput : taskInput data (r.toJson.reread number) = some input) : input = r.inputData.getD "" := by
  unfold taskInput at hinput
  unfold inputMismatch at h
  rw [pending_get "input_data" rfl, Option.bind_some, asStr_ofOption] at hinput h
  rw [hread.inState, hread.input] at h
  cases hstate : data.inputDataInState with
  | true =>
      rw [hstate] at hinput
      rw [show r.inputData = some input from hinput]
      rfl
  | false =>
      rw [hstate] at hinput h
      obtain rfl : data.inputData = input := Option.some.inj hinput
      by_contra hne
      exact absurd h (by simp [Value.asStr, hne, notThePendingRequests])

theorem attachedUsd_eq (whole : WholeNumbers number) (fits : r.Fits)
    (h : attachedUsdMismatch raw (r.toJson.reread number) = none) :
    data.attachedUsd.getD "0" = toString r.attachedUsd := by
  unfold attachedUsdMismatch at h
  rw [pending_get "attached_usd" rfl, Option.bind_some, hread.attachedUsd] at h
  by_cases hlt : r.attachedUsd < 2 ^ 64
  · rw [whole.asUnsigned (Nat.le_refl 64) hlt] at h
    by_contra hne
    have hdiffer : ¬ (some (toString r.attachedUsd) = some (data.attachedUsd.getD "0")) :=
      fun heq => hne (Option.some.inj heq).symm
    dsimp only at h
    rw [Option.map_some, if_neg hdiffer] at h
    cases h
  · rw [whole.asUnsigned_large (not_lt.mp hlt) fits.attachedUsd] at h
    cases h

theorem projectId_eq (h : projectIdMismatch raw (r.toJson.reread number) = none) :
    data.projectId = r.executionSource.projectId := by
  unfold projectIdMismatch at h
  rw [hread.projectId, pendingProjectId_toJson] at h
  by_contra hne
  rw [if_neg hne] at h
  cases h

theorem projectUuid_eq {debug : Option String → String} {uuid : Option String}
    (h : projectUuidMismatch debug raw uuid = none) : data.projectUuid = uuid := by
  unfold projectUuidMismatch at h
  rw [hread.projectUuid] at h
  by_contra hne
  exact absurd h (by simp [hne])

/-- A predecessor the data name is the account the contract keeps. -/
theorem predecessor_eq {named : String} (h : predecessorMismatch raw (r.toJson.reread number) = none)
    (hnamed : data.predecessorId = some named) : named = r.senderId.name := by
  have hw : raw.get "predecessor_id" = some (.str named) := by
    rcases hread.predecessor with ⟨hnone, -⟩ | ⟨w, named', hsome, hw, -, hstr⟩
    · rw [hnone] at hnamed
      cases hnamed
    · obtain rfl : named' = named := Option.some.inj (hsome.symm.trans hnamed)
      rw [hw, asStr_eq_some.mp hstr]
      rfl
  unfold predecessorMismatch at h
  rw [hw, pending_get "sender_id" rfl] at h
  dsimp only at h
  by_contra hne
  have hdiffer : ¬ (some (Value.str named) = some ((Value.str r.senderId.name).reread number)) :=
    fun heq => hne (Value.str.inj (Option.some.inj heq))
  rw [if_neg hdiffer] at h
  cases h

/-- A predecessor that is there was read, since anything but a text or `null` is refused. -/
theorem named_of_member (h : memberOrNull raw "predecessor_id" ≠ .null) : ∃ named, data.predecessorId = some named := by
  rcases hread.predecessor with ⟨-, hnull⟩ | ⟨w, named, hsome, -⟩
  · exact absurd hnull h
  · exact ⟨named, hsome⟩

end Checked

end Read

/-! ## The task -/

/-- The node answers `get_request` as the contract does: nothing, or a request the contract can hold. -/
def Views.AnswersContract (V : Views) (number : String → Option String) : Prop :=
  ∀ requestId blockHeight pending viewedAt, V.getRequest requestId blockHeight = .ok (pending, viewedAt) →
    pending = .null ∨ ∃ r : ExecutionRequest, r.Fits ∧ Json.parse number r.toJson.compact = some pending

/-- A task for a request the contract holds, in the project with the given uuid. A task that names no amount counts as
    one of 0. -/
structure RunsPending (params : CreateTaskParams) (r : ExecutionRequest) (uuid : Option String) : Prop where
  requestId : params.requestId = r.requestId
  dataId : params.dataId = hexEncode r.dataId.toList
  source : params.codeSource = (CodeSource.ofContract r.resolvedSource).toApiCodeSource
  secretsRef : params.secretsRef = r.secretsRef.map .ofContract
  format : params.responseFormat = .ofContract r.responseFormat
  limits : ResourceLimits.ofContract r.resourceLimits = some params.resourceLimits
  input : params.inputData = r.inputData.getD ""
  attachedUsd : params.attachedUsd.getD "0" = toString r.attachedUsd
  projectId : params.projectId = r.executionSource.projectId
  projectUuid : params.projectUuid = uuid

/-- The event's data name the account that called the contract. -/
def NamesPredecessor (number : String → Option String) (text : String) : Prop :=
  ∃ raw, Json.parse number text = some raw ∧ memberOrNull raw "predecessor_id" ≠ .null

/-- Whose call a task is: its caller is the receipt's predecessor, and the account the contract keeps where the data
    name one; its sender is the receipt's signer, or the caller of a meta-transaction. -/
structure CalledBy (params : CreateTaskParams) (event : ExecutionRequestedEvent) (r : ExecutionRequest)
    (named : Prop) : Prop where
  caller : params.context.predecessorId = event.receipt.predecessorId
  pending : named → params.context.predecessorId = some r.senderId.name
  sender : event.relayerId = none → params.userAccountId = event.receipt.signerId
  relayed : event.relayerId ≠ none → params.userAccountId = params.context.predecessorId
  context : params.context.senderId = params.userAccountId

section Task
variable {H : Host} {debug : Option String → String} {V : Views} {contractId : String}
  {event : ExecutionRequestedEvent} {params : CreateTaskParams}

/-- **Only the chain's own request is run**, whatever the text of the event's data is. -/
theorem task_runs_pending (whole : WholeNumbers H.jsonNumber) (hviews : V.AnswersContract H.jsonNumber)
    (h : handleExecutionRequested H debug V contractId event = .ok params) :
    ∃ r pending viewedAt uuid, V.getRequest params.requestId event.blockHeight = .ok (pending, viewedAt) ∧
      Json.parse H.jsonNumber r.toJson.compact = some pending ∧
      ProjectAt V viewedAt r.executionSource.projectId uuid ∧ RunsPending params r uuid ∧
      CalledBy params event r (NamesPredecessor H.jsonNumber event.requestData) := by
  simp only [handleExecutionRequested, bind_eq_ok, expect_eq_ok, pure_eq_ok] at h
  obtain ⟨data, hdata, raw, hraw, u, hreceipt, ⟨pending, viewedAt⟩, hfetch, uuid, huuid, w, hsame, user, huser, input,
    hinput, rfl⟩ := h
  dsimp only at huuid hsame hinput
  obtain ⟨hsigner, hpredecessor⟩ := receiptMismatch_eq_none.mp (unlessMismatch_eq_ok.mp hreceipt)
  obtain ⟨hview, hnull⟩ := fetchPendingRequest_eq_ok hfetch
  obtain ⟨r, fits, hpending⟩ := (hviews _ _ _ _ hview).resolve_left hnull
  obtain rfl : pending = r.toJson.reread H.jsonNumber :=
    Option.some.inj (hpending.symm.trans (parse_compact (fits.good whole (by decide))))
  obtain ⟨hdataId, hid, hcaller, hfields, hinputs, husd, hproject, hprojectUuid⟩ :=
    pendingRequestMismatch_eq_none.mp (unlessMismatch_eq_ok.mp hsame)
  have hread : ReadAs raw data := readAs hdata hraw (data_isObject hid)
  have huuid := projectUuidOnChain_eq_ok huuid
  rw [pendingProjectId_toJson] at huuid
  have hnamed : data.predecessorId.or event.receipt.predecessorId = event.receipt.predecessorId := by
    cases hdata : data.predecessorId with
    | none => rfl
    | some named => exact (hpredecessor named hdata).symm
  refine ⟨r, _, viewedAt, uuid, hview, hpending, huuid, ?_, ?_⟩
  · exact
      { requestId := requestId_eq hread whole fits hid
        dataId := congrArg hexEncode (dataId_eq whole hdataId)
        source := congrArg CodeSource.toApiCodeSource (codeSource_eq hread hfields)
        secretsRef := secretsRef_eq hread hfields
        format := format_eq hread hfields
        limits := limits_eq hread whole fits hfields
        input := taskInput_pending hread hinputs hinput
        attachedUsd := attachedUsd_eq hread whole fits husd
        projectId := projectId_eq hread hproject
        projectUuid := projectUuid_eq hread hprojectUuid }
  · refine ⟨hnamed, ?_, ?_, ?_, rfl⟩
    · rintro ⟨raw', hraw', hsome⟩
      obtain rfl := Option.some.inj (hraw.symm.trans hraw')
      obtain ⟨named, hdataNamed⟩ := named_of_member hread hsome
      show data.predecessorId.or event.receipt.predecessorId = _
      rw [hdataNamed, predecessor_eq hread hcaller hdataNamed]
      rfl
    · intro hdirect
      unfold taskUser at huser
      rw [hdirect] at huser
      rw [hsigner, ← Except.ok.inj huser]
    · intro hrelayed
      obtain ⟨relayer, hrelayer⟩ := Option.ne_none_iff_exists'.mp hrelayed
      simp only [taskUser, hrelayer, expect_eq_ok] at huser
      exact huser.symm

end Task

/-! ### Calls that are not their signer's -/

/-- Alice's call, which Bob relays. -/
def carriedCall : Env := { envOf aliceAccount (10 ^ 24) 0 1 with signer := bobAccount }

/-- The request as the contract stores it. -/
def carriedRequest : ExecutionRequest := (runWith .default).toRequest carriedCall 0 (.gitHub "alice/app" "main" none)

/-- A node that answers with that request. -/
def carriedViews : Views where
  getRequest _ blockHeight := .ok (carriedRequest.toJson.reread exponentNumber, .block blockHeight)
  getProject _ _ := .error ""

/-- The data of an event of her request, with what is said of its caller. -/
def carriedData (caller : List (String × Value)) : Value :=
  .obj (caller ++ [("request_id", .ofNat 0), ("sender_id", .str "bob.near"),
    ("code_source", carriedRequest.resolvedSource.toJson), ("resource_limits", carriedRequest.resourceLimits.toJson),
    ("input_data", .str ""), ("response_format", .str "Text"), ("payment", .str "0"), ("timestamp", .ofNat 0)])

/-- The event as the contract writes it. -/
def carriedEvent : ExecutionRequestedEvent where
  requestData := (carriedData [("predecessor_id", .str "alice.near")]).compact
  dataId := carriedRequest.dataId.toList
  timestamp := 0
  blockHeight := 7
  receipt := { bobReceipt with predecessorId := some "alice.near" }
  relayerId := some "bob.near"

/-- An event that says nothing of the caller, in a receipt that Eve sent. -/
def unnamedEvent : ExecutionRequestedEvent where
  requestData := (carriedData []).compact
  dataId := carriedRequest.dataId.toList
  timestamp := 0
  blockHeight := 7
  receipt := { bobReceipt with predecessorId := some "eve.near" }
  relayerId := none

/-- The task of an event of Alice's request. -/
def carriedTask (event : ExecutionRequestedEvent) : Res CreateTaskParams :=
  handleExecutionRequested readingHost (fun _ => "") carriedViews "outlayer.near" event

theorem carriedRequest_fits : carriedRequest.Fits where
  requestId := by decide
  timestamp := by decide
  limits := ResourceLimits.fits_default
  payment := by decide
  attachedUsd := by decide

theorem carriedViews_answersContract : carriedViews.AnswersContract readingHost.jsonNumber := by
  intro requestId blockHeight pending viewedAt h
  cases h
  exact Or.inr ⟨carriedRequest, carriedRequest_fits,
    parse_compact (carriedRequest_fits.good wholeNumbers_exponentNumber (by decide))⟩

theorem carriedData_good {caller : List (String × Value)}
    (h : ∀ m ∈ caller, m.2.Good exponentNumber (recursionLimit - 1)) :
    (carriedData caller).Good exponentNumber recursionLimit := by
  have hnumber {n : Nat} (hn : n < 2 ^ 128) (depth : Nat) : (Value.ofNat n).Good exponentNumber depth :=
    wholeNumbers_exponentNumber.good hn depth
  refine ⟨by decide, goodMembers_iff.mpr fun m hm => ?_⟩
  rcases List.mem_append.mp hm with hm | hm
  · exact h m hm
  · simp only [List.mem_cons, List.not_mem_nil, or_false] at hm
    rcases hm with rfl | rfl | rfl | rfl | rfl | rfl | rfl | rfl
    · exact hnumber (by decide) _
    · trivial
    · exact ⟨by decide, ⟨by decide, trivial, trivial, trivial, trivial⟩, trivial⟩
    · exact ⟨by decide, hnumber (by decide) _, hnumber (by decide) _, hnumber (by decide) _, trivial⟩
    · trivial
    · trivial
    · trivial
    · exact hnumber (by decide) _

theorem carriedTask_user : (carriedTask carriedEvent).toOption.map CreateTaskParams.userAccountId
    = some (some "alice.near") := by
  have hgood : (carriedData [("predecessor_id", .str "alice.near")]).Good exponentNumber recursionLimit := by
    refine carriedData_good fun m hm => ?_
    rw [List.mem_singleton.mp hm]
    trivial
  unfold carriedTask handleExecutionRequested RequestData.ofText
  rw [show parseTree readingHost.jsonNumber carriedEvent.requestData = _ from parseTree_compact hgood,
    show Json.parse readingHost.jsonNumber carriedEvent.requestData = _ from parse_compact hgood]
  decide +kernel

theorem unnamedTask_caller : (carriedTask unnamedEvent).toOption.map (fun params => params.context.predecessorId)
    = some (some "eve.near") := by
  have hgood : (carriedData []).Good exponentNumber recursionLimit := carriedData_good fun m hm => by cases hm
  unfold carriedTask handleExecutionRequested RequestData.ofText
  rw [show parseTree readingHost.jsonNumber unnamedEvent.requestData = _ from parseTree_compact hgood,
    show Json.parse readingHost.jsonNumber unnamedEvent.requestData = _ from parse_compact hgood]
  decide +kernel

/-- The sender of a relayed call is not the receipt's signer, and the caller of one that names none is not the account
    the contract keeps. -/
theorem sender_and_caller_elsewhere :
    carriedEvent.receipt.signerId = some "bob.near" ∧
    (carriedTask carriedEvent).toOption.map CreateTaskParams.userAccountId = some (some "alice.near") ∧
    carriedRequest.senderId.name = "alice.near" ∧
    (carriedTask unnamedEvent).toOption.map (fun params => params.context.predecessorId) = some (some "eve.near") :=
  ⟨rfl, carriedTask_user, rfl, unnamedTask_caller⟩

/-- Alice's call is run as the contract holds it, for Alice. -/
theorem carried_runs_pending : ∃ params, carriedTask carriedEvent = .ok params ∧
    params.userAccountId = some "alice.near" ∧ ∃ r uuid, RunsPending params r uuid ∧
    CalledBy params carriedEvent r (NamesPredecessor readingHost.jsonNumber carriedEvent.requestData) := by
  obtain ⟨params, hparams, huser⟩ := Option.map_eq_some_iff.mp carriedTask_user
  have htask := toOption_eq_some.mp hparams
  obtain ⟨r, -, -, uuid, -, -, -, hruns, hcalled⟩ :=
    task_runs_pending wholeNumbers_exponentNumber carriedViews_answersContract htask
  exact ⟨params, htask, huser, r, uuid, hruns, hcalled⟩

end Monitor

end Outlayer
