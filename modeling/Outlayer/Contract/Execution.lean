import Outlayer.Contract.Payment
import Outlayer.Contract.Projects

/-!
# `Contract.Execution` — admitting, resolving, settling and cancelling execution requests

A request is admitted against a NEAR payment and, for a project, an amount of stablecoin; it stays in
`pendingRequests` until one of the settlement paths removes it. Removal is the token: whichever path removes
the request is the one that pays out for it.
-/

namespace Outlayer
open Text Checked Collections Balances

/-! ## Admission -/

/-- The arguments of `request_execution`. -/
structure RequestArgs where
  source : ExecutionSource
  resourceLimits : Option ResourceLimits := none
  inputData : Option String := none
  secretsRef : Option SecretsReference := none
  responseFormat : Option ResponseFormat := none
  payerAccountId : Option AccountId := none
  params : Option RequestParams := none

/-- The limits the request is stored with. -/
def RequestArgs.limits (a : RequestArgs) : ResourceLimits := a.resourceLimits.getD .default

/-- Compile only when asked to, or when no limits are given. -/
def RequestArgs.compileOnly (a : RequestArgs) : Bool :=
  (a.params.getD {}).compileOnly || a.resourceLimits.isNone

/-- The stablecoin attached for the developers. -/
def RequestArgs.attachedUsd (a : RequestArgs) : Nat := ((a.params.getD {}).attachedUsd).getD 0

/-- The bytes of the input, none of them when it is missing. -/
def RequestArgs.inputLen (a : RequestArgs) : Nat := (a.inputData.map String.utf8ByteSize).getD 0

/-- The project a source names. -/
def ExecutionSource.projectId : ExecutionSource → Option String
  | .project projectId _ => some projectId
  | _                    => none

/-- Resolve a source to the code the worker runs, with the uuid of its project. -/
def resolveExecutionSource (c : Contract) : ExecutionSource → Res (CodeSource × Option String)
  | .gitHub repo commit buildTarget => pure (.gitHub repo commit buildTarget, none)
  | .wasmUrl url hash buildTarget   => pure (.wasmUrl url hash buildTarget, none)
  | .project projectId versionKey   => do
      let project ← expect (c.projects.lookup projectId) "Project not found"
      let version ← match versionKey with
        | some v => pure v
        | none   => do
            require (project.activeVersion ≠ "") "Project has no active version"
            pure project.activeVersion
      let versions ← expect (c.projectVersions.lookup project.uuid) "Project versions not found"
      let versionInfo ← expect (versions.lookup version) "Version not found"
      pure (versionInfo.source, some project.uuid)

/-- A referenced profile must be one that could have been stored. -/
def assertSecretsRef (H : Host) (secretsRef : Option SecretsReference) : Res Unit :=
  match secretsRef.bind fun r => profileShapeError H r.profile with
  | some why => .error ("secrets_ref.profile must be " ++ profileRule ++ " (" ++ why
      ++ "); the contract stores no such profile")
  | none => .ok ()

/-- Inline code is held to the rule a project version was held to when it was added. -/
def assertInlineSource (source : ExecutionSource) (resolved : CodeSource) : Res Unit :=
  match source with
  | .project _ _ => .ok ()
  | _            => assertCodeSource resolved

/-- A source that is one compiled file. -/
def CodeSource.isWasmUrl : CodeSource → Bool
  | .wasmUrl _ _ _ => true
  | .gitHub _ _ _  => false

/-- Which parameters go together. -/
def assertParams (resolved : CodeSource) (params : RequestParams) (compileOnly : Bool)
    (inputData : Option String) : Res Unit := do
  require (resolved.isWasmUrl = false ∨ params.forceRebuild = false)
    "force_rebuild is not applicable for WasmUrl code source"
  require (params.storeOnFastfs = false ∨ params.forceRebuild = true)
    "store_on_fastfs requires force_rebuild to ensure fresh compilation and upload"
  require (compileOnly = false ∨ inputData.getD "" = "")
    "input_data must be empty for compile_only mode - compilation does not use input_data"

/-- The hard caps. -/
def assertHardCaps (limits : ResourceLimits) : Res Unit := do
  let instructions := limits.maxInstructions.getD 0
  let seconds := limits.maxExecutionSeconds.getD 0
  let memory := limits.maxMemoryMb.getD 0
  require (instructions ≤ maxInstructions)
    ("Requested max_instructions " ++ toString instructions ++ " exceeds hard limit of "
      ++ toString maxInstructions)
  require (seconds ≤ maxExecutionSeconds)
    ("Requested max_execution_seconds " ++ toString seconds ++ " exceeds hard limit of "
      ++ toString maxExecutionSeconds ++ " seconds")
  require (memory ≤ maxMemoryMb)
    ("Requested max_memory_mb " ++ toString memory ++ " exceeds hard limit of " ++ toString maxMemoryMb
      ++ " MB")

/-- A priced project is charged for the operation its input names. -/
def assertPricePaid (H : Host) (c : Contract) (source : ExecutionSource) (inputData : Option String)
    (attachedUsd : Nat) : Res Unit :=
  match source.projectId with
  | none    => pure ()
  | some id =>
      match c.projectPricing.lookup id with
      | none         => pure ()
      | some pricing =>
          match operationFromInput H inputData with
          | .error e => throw ("Project '" ++ id ++ "' is priced per operation. " ++ e.message)
          | .ok operation => do
              let price ← expect (priceForOperation pricing operation)
                ("Project '" ++ id ++ "' does not sell operation '" ++ operation
                  ++ "'. See get_project_pricing.")
              require (attachedUsd ≥ price)
                ("Operation '" ++ operation ++ "' of '" ++ id ++ "' costs " ++ toString price
                  ++ "; attach at least that as attached_usd (got " ++ toString attachedUsd
                  ++ "). Anything over comes back.")

/-- Take the attached stablecoin out of the caller's balance. -/
def takeAttachedUsd (env : Env) (l : Ledger) (source : ExecutionSource) (attachedUsd : Nat) : Res Ledger :=
  if attachedUsd > 0 then do
    require (source.projectId ≠ none) "attached_usd is only valid for Project execution source"
    let userBalance := balance l.userStablecoinBalances env.predecessor
    require (userBalance ≥ attachedUsd)
      ("Insufficient stablecoin balance. Required: " ++ toString attachedUsd ++ ", available: "
        ++ toString userBalance)
    pure { l with
      userStablecoinBalances := l.userStablecoinBalances.insert env.predecessor (userBalance - attachedUsd) }
  else pure l

/-- The caps and the price apply to a run, not to a compilation; a compilation pays the base fee only. -/
def admissionCost (H : Host) (c : Contract) (a : RequestArgs) : Res Nat :=
  if a.compileOnly then pure c.baseFee
  else do
    assertHardCaps a.limits
    let estimated ← estimateCost c.toConfig a.limits
    assertPricePaid H c a.source a.inputData a.attachedUsd
    pure estimated

/-- The request as it is stored. -/
def RequestArgs.toRequest (a : RequestArgs) (env : Env) (requestId : Nat) (resolvedSource : CodeSource) :
    ExecutionRequest where
  requestId := requestId
  dataId := env.dataId
  senderId := env.predecessor
  executionSource := a.source
  resolvedSource := resolvedSource
  resourceLimits := a.limits
  payment := env.attachedDeposit
  timestamp := env.blockTimestamp
  secretsRef := a.secretsRef
  responseFormat := a.responseFormat.getD .text
  inputData := a.inputData
  payerAccountId := a.payerAccountId.getD env.predecessor
  attachedUsd := a.attachedUsd
  pendingOutput := none
  outputSubmitted := false

/-- A large input is not put into the event; the worker fetches it from state. -/
def RequestArgs.inputDataInState (a : RequestArgs) : Bool := decide (a.inputLen ≥ inputDataEventThreshold)

/-- The request as the worker and the settlement callback are handed it. The storage namespace is the
    contract's to name: a project uuid the caller supplies is ignored. -/
def RequestArgs.toData (a : RequestArgs) (env : Env) (requestId : Nat) (resolvedSource : CodeSource)
    (projectUuid : Option String) : RequestData where
  requestId := requestId
  senderId := env.signer
  predecessorId := env.predecessor
  codeSource := resolvedSource
  resourceLimits := a.limits
  inputData := if a.inputDataInState then "" else a.inputData.getD ""
  inputDataInState := a.inputDataInState
  secretsRef := a.secretsRef
  responseFormat := a.responseFormat.getD .text
  payment := env.attachedDeposit
  attachedUsd := a.attachedUsd
  timestamp := env.blockTimestamp
  compileOnly := a.compileOnly
  forceRebuild := (a.params.getD {}).forceRebuild
  storeOnFastfs := (a.params.getD {}).storeOnFastfs
  useBoundIdentity := (a.params.getD {}).useBoundIdentity
  projectUuid := projectUuid
  projectId := a.source.projectId

/-- Admit a request: take its stablecoin, hold its NEAR, store it and pause on a yield. -/
def requestExecution (H : Host) (env : Env) (c : Contract) (a : RequestArgs) : Res (Ledger × List Effect) := do
  assertNotPaused c.toConfig
  assertSecretsRef H a.secretsRef
  let (resolvedSource, projectUuid) ← resolveExecutionSource c a.source
  assertInlineSource a.source resolvedSource
  assertParams resolvedSource (a.params.getD {}) a.compileOnly a.inputData
  let estimatedCost ← admissionCost H c a
  -- taken before the NEAR is checked: a refusal below undoes it
  let l ← takeAttachedUsd env c.toLedger a.source a.attachedUsd
  let requiredPayment ← add 128 estimatedCost (inputStorageDeposit a.inputLen)
  require (env.attachedDeposit ≥ requiredPayment)
    ("Insufficient payment: required " ++ toString requiredPayment ++ " yoctoNEAR ("
      ++ toString estimatedCost ++ " for compute, " ++ toString (inputStorageDeposit a.inputLen)
      ++ " held for " ++ toString a.inputLen ++ " bytes of input_data beyond the free "
      ++ toString inputDataFreeBytes ++ "), got " ++ toString env.attachedDeposit ++ " yoctoNEAR")
  let requestId := l.nextRequestId
  let nextRequestId ← add 64 requestId 1
  let data := a.toData env requestId resolvedSource projectUuid
  let request := a.toRequest env requestId resolvedSource
  pure ({ l with nextRequestId, pendingRequests := l.pendingRequests.insert requestId request },
    [.yieldCreate env.dataId (responseGas a.inputLen) (.onExecutionResponse data),
     emitEvent c.toConfig (.executionRequested data env.dataId env.blockTimestamp)])

/-! ## Delivering a result -/

/-- Keep a large output with its request. -/
def submitExecutionOutputInternal (l : Ledger) (requestId : Nat) (output : ExecutionOutput) : Res Ledger := do
  let request ← expect (l.pendingRequests.lookup requestId) "Execution request not found"
  require (request.outputSubmitted = false) "Output already submitted for this request"
  let updated : ExecutionRequest :=
    { request with pendingOutput := some (.ofOutput output), outputSubmitted := true }
  pure { l with pendingRequests := l.pendingRequests.insert requestId updated }

/-- The operator hands in an output too large for the result's own call. -/
def submitExecutionOutput (env : Env) (c : Contract) (requestId : Nat) (output : ExecutionOutput) :
    Res (Ledger × List Effect) := do
  assertOperator env c.toConfig
  let l ← submitExecutionOutputInternal c.toLedger requestId output
  pure (l, [])

/-- Resume the yield of a pending request. -/
def resolveExecutionInternal (env : Env) (c : Config) (l : Ledger) (requestId : Nat)
    (response : ExecutionResponse) : Res (List Effect) := do
  let request ← expect (l.pendingRequests.lookup requestId) "Execution request not found"
  let estimatedCost ← calculateCost c response.resourcesUsed
  require (env.waiting request.dataId = true) "Unable to resume execution promise"
  pure [.charged estimatedCost, .yieldResume request.dataId (.executionResponse response)]

/-- The operator hands in the result of an execution. -/
def resolveExecution (env : Env) (c : Contract) (requestId : Nat) (response : ExecutionResponse) :
    Res (Ledger × List Effect) := do
  assertOperator env c.toConfig
  let effects ← resolveExecutionInternal env c.toConfig c.toLedger requestId response
  pure (c.toLedger, effects)

/-- Store a large output and resume in one call. -/
def submitExecutionOutputAndResolve (env : Env) (c : Contract) (requestId : Nat) (output : ExecutionOutput)
    (success : Bool) (error : Option String) (resourcesUsed : ResourceMetrics)
    (compilationNote : Option String) : Res (Ledger × List Effect) := do
  assertOperator env c.toConfig
  let l ← submitExecutionOutputInternal c.toLedger requestId output
  -- neither the output nor the guest's refund travels with the response
  let response : ExecutionResponse :=
    { success, output := none, error, resourcesUsed, compilationNote, refundUsd := none }
  let effects ← resolveExecutionInternal env c.toConfig l requestId response
  pure (l, effects)

/-! ## The stablecoin side of a settlement -/

/-- Give an execution's stablecoin back to the account that attached it. -/
def returnAttachedUsd (l : Ledger) (account : AccountId) (amount : Nat) : Res Ledger :=
  if amount = 0 then pure l
  else do
    let balances ← credit 128 l.userStablecoinBalances account amount
    pure { l with userStablecoinBalances := balances }

/-- Add to a developer's earnings. -/
def creditEarnings (l : Ledger) (account : AccountId) (amount : Nat) : Res Ledger := do
  let earnings ← credit 128 l.developerEarnings account amount
  pure { l with developerEarnings := earnings }

/-- Author, price and author's share of the operation a request bought, as the table reads now. -/
def pricedOperation (H : Host) (c : Contract) (request : ExecutionRequest) :
    Option (AccountId × Nat × Nat) := do
  let id ← request.executionSource.projectId
  let pricing ← c.projectPricing.lookup id
  let operation ← (operationFromInput H request.inputData).toOption
  let op ← pricing.operations.find? fun o => o.operation = operation
  pure (pricing.authorAccountId, op.priceUsd, op.developerShareBp)

/-- Pay the developers, or the caller when the project is gone. -/
def creditDevelopers (c : Contract) (l : Ledger) (request : ExecutionRequest)
    (priced : Option (AccountId × Nat × Nat)) (developerAmount : Nat) : Res Ledger :=
  match request.executionSource.projectId.bind c.projects.lookup with
  | none         => returnAttachedUsd l request.senderId developerAmount
  | some project =>
      match priced with
      | none                     => creditEarnings l project.owner developerAmount
      | some (author, _, share) => do
          let split ← splitPayment developerAmount share
          if split.authorUsd > 0 then do
            let l ← creditEarnings l author split.authorUsd
            creditEarnings l project.owner split.ownerUsd
          else creditEarnings l project.owner developerAmount

/-- Divide the attached stablecoin of a successful run. -/
def settleUsd (H : Host) (c : Contract) (l : Ledger) (request : ExecutionRequest) (guestRefund : Nat) :
    Res Ledger :=
  if request.attachedUsd > 0 then do
    let priced := pricedOperation H c request
    let price := (priced.map fun p => p.2.1).getD request.attachedUsd
    let parts := settleAttached request.attachedUsd price guestRefund
    let l ← returnAttachedUsd l request.senderId parts.1
    if parts.2 > 0 then creditDevelopers c l request priced parts.2 else pure l
  else pure l

/-! ## Settlement -/

/-- What the settlement callback returns to the calling contract. -/
def outputReturnBytes : Option StoredOutput → String
  | none            => "null"
  | some (.json s)  => if s = "" then "null" else s
  | some (.text s)  => Json.quote s
  | some (.bytes b) => Json.quote (base64Encode b)

/-- The cost of a run, capped at what was attached for compute: the storage part is held, not offered. -/
def cappedCost (c : Config) (request : ExecutionRequest) (payment : Nat) (metrics : ResourceMetrics) :
    Res Nat := do
  let chargeable := payment - inputStorageDeposit request.inputLen
  let cost ← calculateCost c metrics
  pure (min cost chargeable)

/-- The event of an execution that is settled. -/
def completedEvent (env : Env) (c : Config) (data : RequestData) (r : ExecutionResponse) (success : Bool)
    (errorMessage : Option String) (cost refund : Nat) : Effect :=
  emitEvent c (.executionCompleted
    { senderId := data.senderId, codeSource := data.codeSource, resourcesUsed := r.resourcesUsed, success
      errorMessage, paymentCharged := cost, paymentRefunded := refund
      compilationNote := r.compilationNote, timestamp := env.blockTimestamp })

/-- A successful run: the cost is kept, the rest of the NEAR goes back, the stablecoin is divided. -/
def settleSuccess (H : Host) (env : Env) (c : Contract) (l : Ledger) (request : ExecutionRequest)
    (data : RequestData) (r : ExecutionResponse) : Res (Ledger × List Effect) := do
  -- what was submitted for the request goes before what the response carries
  let storedOutput :=
    if request.outputSubmitted then request.pendingOutput else r.output.map StoredOutput.ofOutput
  let cost ← cappedCost c.toConfig request data.payment r.resourcesUsed
  let l ← settleUsd H c l request (r.refundUsd.getD 0)
  let refund := data.payment - cost
  let fees ← add 128 l.totalFeesCollected cost
  pure ({ l with totalFeesCollected := fees },
    settle request.payerAccountId refund data.requestId
      ++ [.charged cost, completedEvent env c.toConfig data r true none cost refund,
          .valueReturn (outputReturnBytes storedOutput)])

/-- A failed run: metered the same way, with the stablecoin returned whole. -/
def settleFailure (env : Env) (c : Contract) (l : Ledger) (request : ExecutionRequest)
    (data : RequestData) (r : ExecutionResponse) : Res (Ledger × List Effect) := do
  let cost ← cappedCost c.toConfig request data.payment r.resourcesUsed
  let refund := data.payment - cost
  let l ← returnAttachedUsd l request.senderId request.attachedUsd
  let fees ← add 128 l.totalFeesCollected cost
  pure ({ l with totalFeesCollected := fees },
    settle request.payerAccountId refund data.requestId
      ++ [.charged cost,
          completedEvent env c.toConfig data r false (some (r.error.getD "Unknown error")) cost refund,
          .valueReturn (outputReturnBytes none)])

/-- A yield that timed out: everything above the base fee goes back. -/
def settlePromiseError (c : Contract) (l : Ledger) (request : ExecutionRequest) (data : RequestData) :
    Res (Ledger × List Effect) := do
  let refund := data.payment - c.baseFee
  let l ← returnAttachedUsd l request.senderId request.attachedUsd
  let fees ← add 128 l.totalFeesCollected c.baseFee
  pure ({ l with totalFeesCollected := fees },
    settle request.payerAccountId refund data.requestId
      ++ [.charged c.baseFee, .valueReturn (outputReturnBytes none)])

/-- The settlement callback: `response` is absent when the yield timed out. -/
def onExecutionResponse (H : Host) (env : Env) (c : Contract) (data : RequestData)
    (response : Option ExecutionResponse) : Res (Ledger × List Effect) :=
  match c.pendingRequests.lookup data.requestId with
  -- closed meanwhile, by whoever cancelled it
  | none         => pure (c.toLedger, [.valueReturn (outputReturnBytes none)])
  | some request => do
      let totalExecutions ← add 64 c.totalExecutions 1
      -- the row goes before anything is paid out
      let l : Ledger := { c.toLedger with
        pendingRequests := c.pendingRequests.erase data.requestId
        totalExecutions }
      match response with
      | some r =>
          if r.success then settleSuccess H env c l request data r
          else settleFailure env c l request data r
      | none => settlePromiseError c l request data

/-! ## The sender's own way out -/

/-- What a stale request is charged: the base fee, or the compute estimate when its output was delivered. -/
def staleCharge (c : Config) (request : ExecutionRequest) : Res Nat :=
  if request.outputSubmitted then estimateCost c request.resourceLimits else pure c.baseFee

/-- The sender of a stale request takes it back, for its payment less the charge of a stale request. -/
def cancelStaleExecution (env : Env) (c : Contract) (requestId : Nat) : Res (Ledger × List Effect) := do
  let request ← expect (c.pendingRequests.lookup requestId) "Execution request not found"
  require (env.predecessor = request.senderId) "Only the sender can cancel this execution"
  -- the yield itself may still be in flight: its callback will find no row
  let deadline ← add 64 request.timestamp executionTimeout
  require (env.blockTimestamp > deadline) "Execution is not yet stale, please wait"
  let charge ← staleCharge c.toConfig request
  let kept := min request.payment charge
  let refund := request.payment - kept
  let fees ← add 128 c.totalFeesCollected kept
  let l : Ledger := { c.toLedger with
    pendingRequests := c.pendingRequests.erase requestId
    totalFeesCollected := fees }
  let l ← returnAttachedUsd l request.senderId request.attachedUsd
  pure (l, settle request.payerAccountId refund requestId ++ [.charged kept])

end Outlayer
