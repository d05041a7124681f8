import Outlayer.Contract.Responses

/-!
# `Worker.Submission` — a result on its way to the contract

The worker measures the response it is about to send, and decides by its length: a small one goes in one call, a large
successful one has its output stored in the same call, and any other has its error cut.
-/

namespace Outlayer
open Json

namespace Worker

/-! ## Results -/

/-- What a run put out. -/
inductive ExecutionOutput
  | bytes (bs : List UInt8)
  | text (s : String)
  | json (value : Value)

/-- What the executor says of a run. -/
structure ExecutionResult where
  success : Bool
  output : Option ExecutionOutput
  error : Option String
  executionTimeMs : UInt64
  instructions : UInt64
  compileTimeMs : Option UInt64
  compilationNote : Option String
  refundUsd : Option UInt64

/-- The JSON of an output. -/
def ExecutionOutput.toJson : ExecutionOutput → Value
  | .bytes bs   => .ofMembers [("Bytes", .ofBytes bs)]
  | .text s     => .ofMembers [("Text", .str s)]
  | .json value => .ofMembers [("Json", value)]

/-- A counter in JSON. -/
def ofU64 (n : UInt64) : Value := .ofNat n.toNat

/-- The JSON of what a run used. -/
def ExecutionResult.resourcesJson (result : ExecutionResult) : Value :=
  .ofMembers
    [("instructions", ofU64 result.instructions), ("time_ms", ofU64 result.executionTimeMs),
     ("compile_time_ms", .ofOption ofU64 result.compileTimeMs)]

/-- The response as it travels in one call, which is also what is measured. -/
def ExecutionResult.responseJson (result : ExecutionResult) : Value :=
  .ofMembers
    [("success", .bool result.success), ("output", .ofOption ExecutionOutput.toJson result.output),
     ("error", .ofOption .str result.error), ("resources_used", result.resourcesJson),
     ("compilation_note", .ofOption .str result.compilationNote), ("refund_usd", .ofOption ofU64 result.refundUsd)]

/-! ## Cutting an error -/

/-- The longest payload of a resumed yield. -/
def payloadLimit : Nat := 1024

/-- The most of an error message that is sent. -/
def maxErrorSize : Nat := 512

/-- The characters that lie within the first `max` bytes. -/
def headChars : (max : Nat) → List Char → List Char
  | _, []        => []
  | max, c :: cs => if c.utf8Size ≤ max then c :: headChars (max - c.utf8Size) cs else []

/-- The first `max` bytes of a text, never cutting a character. -/
def head (s : String) (max : Nat) : String := String.ofList (headChars max s.toList)

/-- An error message cut to fit the chain, saying it was cut. -/
def truncateErrorForChain (errorMsg : String) : String :=
  head errorMsg maxErrorSize ++ "... (truncated, original size: " ++ toString errorMsg.utf8ByteSize ++ " bytes)"

/-! ## The call -/

/-- One call, with the output in the response. -/
def submitSmallResult (requestId : UInt64) (result : ExecutionResult) : MethodCall where
  method := "resolve_execution"
  args := (Value.ofMembers [("request_id", ofU64 requestId), ("response", result.responseJson)]).compact

/-- One call that stores the output and resolves without it. -/
def submitResultTwoCallFlow (requestId : UInt64) (result : ExecutionResult) (output : ExecutionOutput) :
    MethodCall where
  method := "submit_execution_output_and_resolve"
  args := (Value.ofMembers
    [("request_id", ofU64 requestId), ("output", output.toJson), ("success", .bool result.success),
     ("error", .ofOption .str result.error), ("resources_used", result.resourcesJson),
     ("compilation_note", .ofOption .str result.compilationNote),
     ("refund_usd", .ofOption ofU64 result.refundUsd)]).compact

/-- An error over the limit is cut; anything else stays. -/
def ExecutionResult.truncated (result : ExecutionResult) : ExecutionResult :=
  match result.error with
  | some errorMsg =>
      if errorMsg.utf8ByteSize > maxErrorSize then { result with error := some (truncateErrorForChain errorMsg) }
      else result
  | none => result

/-- The call a result is submitted with. -/
def submitExecutionResult (requestId : UInt64) (result : ExecutionResult) : MethodCall :=
  let payloadSize := result.responseJson.compact.utf8ByteSize
  if payloadSize ≥ payloadLimit then
    match result.success, result.output with
    | true, some output => submitResultTwoCallFlow requestId result output
    | _, _              => submitSmallResult requestId result.truncated
  else submitSmallResult requestId result

end Worker
end Outlayer
