import Outlayer.Contract.World

/-!
# `Contract.Logs` — the texts the contract logs

What a resolution writes into the log of its transaction, line by line: the workers read the cost of a run from it.
The cost is on a line of its own; the lines before it are for people.
-/

namespace Outlayer
open Text Checked Collections

/-! ## Debug output -/

/-- Bytes as Rust's debug formatting lists them. -/
def debugBytes : List UInt8 → String
  | []           => ""
  | [b]          => toString b.toNat
  | b :: b' :: bs => toString b.toNat ++ ", " ++ debugBytes (b' :: bs)

/-- `{:?}` of an id. -/
def debugHash (d : CryptoHash) : String := "[" ++ debugBytes d.toList ++ "]"

/-- `{:?}` of an optional number. -/
def debugOption : Option Nat → String
  | none   => "None"
  | some n => "Some(" ++ toString n ++ ")"

/-! ## Resolutions -/

/-- The line that names the cost. -/
def chargedLine (cost : Nat) : String := "[[yNEAR charged: \"" ++ toString cost ++ "\"]]"

/-- The log line of an output that was stored. -/
def storedLine (requestId : Nat) (dataId : CryptoHash) : String :=
  "Stored pending output for request_id: " ++ toString requestId ++ ", data_id: " ++ debugHash dataId

/-- The log line of an output and a result that came in one call. -/
def combinedLine (requestId : Nat) : String :=
  "Resolving execution for request_id: " ++ toString requestId ++ " (combined flow)"

/-- The log line of a result. -/
def resolvingLine (request : ExecutionRequest) (requestId : Nat) (response : ExecutionResponse) : String :=
  "Resolving execution for request_id: " ++ toString requestId ++ ", data_id: " ++ debugHash request.dataId
    ++ ", success: " ++ toString response.success ++ ", output_submitted: " ++ toString request.outputSubmitted
    ++ ", resources_used: \x7b instructions: " ++ toString response.resourcesUsed.instructions
    ++ ", time_ms: " ++ toString response.resourcesUsed.timeMs
    ++ ", compile_time_ms: " ++ debugOption response.resourcesUsed.compileTimeMs ++ " \x7d"

/-- What `resolve_execution_internal` logs. -/
def resolveExecutionInternalLogs (c : Config) (request : ExecutionRequest) (requestId : Nat)
    (response : ExecutionResponse) : Res (List String) := do
  let estimatedCost ← calculateCost c response.resourcesUsed
  pure [resolvingLine request requestId response, chargedLine estimatedCost]

/-- The request a call resolves, and the response it resolves it with. -/
def Call.resolution : Call → Option (Nat × ExecutionResponse)
  | .resolveExecution requestId response => some (requestId, response)
  | .submitExecutionOutputAndResolve requestId _ success error resourcesUsed compilationNote =>
      some (requestId, { success, output := none, error, resourcesUsed, compilationNote, refundUsd := none })
  | _ => none

/-- What a resolution logs when it finds `request` pending. -/
def Call.resolutionLogs (c : Config) (request : ExecutionRequest) : Call → Res (List String)
  | .resolveExecution requestId response => resolveExecutionInternalLogs c request requestId response
  | .submitExecutionOutputAndResolve requestId output success error resourcesUsed compilationNote => do
      let stored := { request with pendingOutput := some (.ofOutput output), outputSubmitted := true }
      let lines ← resolveExecutionInternalLogs c stored requestId
        { success, output := none, error, resourcesUsed, compilationNote, refundUsd := none }
      pure (storedLine requestId request.dataId :: combinedLine requestId :: lines)
  | _ => pure []

end Outlayer
