import Outlayer.Contract.Json
import Outlayer.Lib.JsonSizes

/-!
# `Contract.Responses` — results as they come in, and as they go on

The worker's call arrives as a method and a text, and the contract reads the arguments of its method off it; what it
cannot read it refuses. It hands the response on to the yield as JSON of its own, and those are the bytes that count
against the limit of a resumption.
-/

namespace Outlayer
open Text Checked Collections Json

/-! ## Reading -/

/-- A call as it arrives. -/
structure MethodCall where
  method : String
  args : String

/-- An output is an object with the name of its variant as the only key. -/
def ExecutionOutput.ofJson : Value → Option ExecutionOutput
  | .obj [(variant, body)] =>
      if variant = "Bytes" then (body.asList Value.asByte).map .bytes
      else if variant = "Text" then body.asStr.map .text
      else if variant = "Json" then some (.json body.compact)
      else none
  | _ => none

/-- Reads what an execution used, from the JSON of a result. -/
def ResourceMetrics.ofJson (v : Value) : Option ResourceMetrics := do
  let instructions ← v.field "instructions" (Value.asUnsigned 64)
  let timeMs ← v.field "time_ms" (Value.asUnsigned 64)
  let compileTimeMs ← v.optional "compile_time_ms" (Value.asUnsigned 64)
  pure { instructions, timeMs, compileTimeMs }

/-- Reads the result of an execution. -/
def ExecutionResponse.ofJson (v : Value) : Option ExecutionResponse := do
  let success ← v.field "success" Value.asBool
  let output ← v.optional "output" ExecutionOutput.ofJson
  let error ← v.optional "error" Value.asStr
  let resourcesUsed ← v.field "resources_used" ResourceMetrics.ofJson
  let compilationNote ← v.optional "compilation_note" Value.asStr
  let refundUsd ← v.optional "refund_usd" (Value.asUnsigned 64)
  pure { success, output, error, resourcesUsed, compilationNote, refundUsd }

/-- The arguments of `resolve_execution`. -/
def readResolution (v : Value) : Option Call := do
  let requestId ← v.field "request_id" (Value.asUnsigned 64)
  let response ← v.field "response" ExecutionResponse.ofJson
  pure (.resolveExecution requestId response)

/-- The arguments of `submit_execution_output_and_resolve`. There is none for the refund, and one that is named is
    passed over. -/
def readSubmission (v : Value) : Option Call := do
  let requestId ← v.field "request_id" (Value.asUnsigned 64)
  let output ← v.field "output" ExecutionOutput.ofJson
  let success ← v.field "success" Value.asBool
  let error ← v.optional "error" Value.asStr
  let resourcesUsed ← v.field "resources_used" ResourceMetrics.ofJson
  let compilationNote ← v.optional "compilation_note" Value.asStr
  pure (.submitExecutionOutputAndResolve requestId output success error resourcesUsed compilationNote)

/-- The call an operator's transaction makes. -/
def MethodCall.receive (number : String → Option String) (m : MethodCall) : Option Call :=
  if m.method = "resolve_execution" then (parse number m.args).bind readResolution
  else if m.method = "submit_execution_output_and_resolve" then (parse number m.args).bind readSubmission
  else none

/-- A transaction with its arguments as they arrive; what cannot be read is a panic. -/
def World.transact (H : Host) (w : World) (env : Env) (m : MethodCall) : Option (World × List Effect) :=
  (m.receive H.jsonNumber).bind (w.call H env)

/-! ## Writing -/

/-- The JSON text of an output. -/
def ExecutionOutput.toText : ExecutionOutput → String
  | .bytes bs     => jsonObject [jsonField "Bytes" (Value.ofBytes bs).compact]
  | .text s       => jsonObject [jsonField "Text" (Json.quote s)]
  | .json compact => jsonObject [jsonField "Json" compact]

/-- The JSON text of what an execution used. -/
def ResourceMetrics.toText (m : ResourceMetrics) : String :=
  jsonObject
    [jsonField "instructions" (toString m.instructions), jsonField "time_ms" (toString m.timeMs),
     jsonField "compile_time_ms" (Value.ofOption .ofNat m.compileTimeMs).compact]

/-- The bytes `promise_yield_resume` is given. -/
def ExecutionResponse.toText (r : ExecutionResponse) : String :=
  jsonObject
    [jsonField "success" (Value.bool r.success).compact,
     jsonField "output" ((r.output.map ExecutionOutput.toText).getD "null"),
     jsonField "error" (Value.ofOption .str r.error).compact,
     jsonField "resources_used" r.resourcesUsed.toText,
     jsonField "compilation_note" (Value.ofOption .str r.compilationNote).compact,
     jsonField "refund_usd" (Value.ofOption .ofNat r.refundUsd).compact]

/-! ## How long it is -/

theorem size_jsonField (name value : String) :
    (jsonField name value).utf8ByteSize = escapedSize name + 3 + value.utf8ByteSize := by
  have hcolon : ":".utf8ByteSize = 1 := by decide
  rw [jsonField, String.utf8ByteSize_append, String.utf8ByteSize_append, size_quote, hcolon]

theorem size_commaJoin (s : String) (ss : List String) :
    (commaJoin (s :: ss)).utf8ByteSize + 1 = ((s :: ss).map fun s => s.utf8ByteSize + 1).sum := by
  induction ss generalizing s with
  | nil => rfl
  | cons s' ss ih =>
      have hcomma : ",".utf8ByteSize = 1 := by decide
      rw [commaJoin, String.utf8ByteSize_append, String.utf8ByteSize_append, List.map_cons, List.sum_cons, ← ih s',
        hcomma]
      · omega
      · exact List.cons_ne_nil _ _

/-- An object takes its brace, and a separator or a brace after each member. -/
theorem size_jsonObject (s : String) (ss : List String) :
    (jsonObject (s :: ss)).utf8ByteSize = 1 + ((s :: ss).map fun s => s.utf8ByteSize + 1).sum := by
  have hopen : "\x7b".utf8ByteSize = 1 := by decide
  have hclose : "\x7d".utf8ByteSize = 1 := by decide
  rw [← size_commaJoin, jsonObject, String.utf8ByteSize_append, String.utf8ByteSize_append, hopen, hclose]
  omega

theorem size_jsonObject_field (name value : String) :
    (jsonObject [jsonField name value]).utf8ByteSize = escapedSize name + 5 + value.utf8ByteSize := by
  rw [size_jsonObject]
  simp only [List.map_cons, List.map_nil, List.sum_cons, List.sum_nil, size_jsonField]
  omega

end Outlayer
