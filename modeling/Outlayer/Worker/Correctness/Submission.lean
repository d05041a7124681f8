import Outlayer.Contract.Correctness.Deliveries
import Outlayer.Worker.Submission

/-!
# `Worker.Correctness.Submission` — which results can be delivered

The contract reads the call the worker made, unless the output nests too deep for it (`receive_small`,
`receive_twoCall`), and passes the response on (`passes_iff`); how long that is can be counted on the result
(`size_response`). A text counts with its escapes, and the worker cuts an error by the bytes it has before it is
escaped: an error of quotes alone takes twice what the cut leaves room for.
-/

namespace Outlayer
open Text Checked Collections Json

namespace Worker

/-! ## What the contract reads -/

/-- An output as the contract keeps it: the numbers of a JSON value are as its own reader has them. -/
def ExecutionOutput.received (number : String → Option String) : ExecutionOutput → Outlayer.ExecutionOutput
  | .bytes bs   => .bytes bs
  | .text s     => .text s
  | .json value => .json (value.reread number).compact

/-- What a run used, as the contract reads it. -/
def ExecutionResult.metrics (result : ExecutionResult) : ResourceMetrics where
  instructions := result.instructions.toNat
  timeMs := result.executionTimeMs.toNat
  compileTimeMs := result.compileTimeMs.map UInt64.toNat

/-- The response a result is read as. -/
def ExecutionResult.response (number : String → Option String) (result : ExecutionResult) : ExecutionResponse where
  success := result.success
  output := result.output.map (ExecutionOutput.received number)
  error := result.error
  resourcesUsed := result.metrics
  compilationNote := result.compilationNote
  refundUsd := result.refundUsd.map UInt64.toNat

/-- A result whose output, where it is JSON, holds numbers the contract's reader accepts. -/
def ExecutionResult.Numbered (number : String → Option String) (result : ExecutionResult) : Prop :=
  ∀ value, result.output = some (.json value) → value.Numbered number

section Reading
variable {number : String → Option String}

theorem asUnsigned_ofU64 (whole : WholeNumbers number) (n : UInt64) :
    ((ofU64 n).reread number).asUnsigned 64 = some n.toNat :=
  whole.asUnsigned (Nat.le_refl _) n.toNat_lt

theorem optional_ofU64 (whole : WholeNumbers number) {v : Value} {key : String} {o : Option UInt64} (h : v.Distinct)
    (hget : v.get key = some (.ofOption ofU64 o)) :
    (v.reread number).optional key (Value.asUnsigned 64) = some (o.map UInt64.toNat) :=
  optional_reread h hget fun n => ⟨asUnsigned_ofU64 whole n, nofun⟩

theorem ofJson_output (whole : WholeNumbers number) (o : ExecutionOutput) :
    ExecutionOutput.ofJson (o.toJson.reread number) = some (o.received number) := by
  cases o with
  | bytes bs =>
      show (((Value.ofBytes bs).reread number).asList Value.asByte).map Outlayer.ExecutionOutput.bytes = _
      rw [whole.asBytes]
      rfl
  | text s => rfl
  | json value => rfl

theorem ofJson_resources (whole : WholeNumbers number) (result : ExecutionResult) :
    ResourceMetrics.ofJson (result.resourcesJson.reread number) = some result.metrics := by
  have hd : result.resourcesJson.Distinct := distinct_ofMembers _
  have hget := @get_ofMembers
    [("instructions", ofU64 result.instructions), ("time_ms", ofU64 result.executionTimeMs),
     ("compile_time_ms", .ofOption ofU64 result.compileTimeMs)] (by simp)
  have h1 : result.resourcesJson.get "instructions" = _ := hget "instructions"
  have h2 : result.resourcesJson.get "time_ms" = _ := hget "time_ms"
  have h3 : result.resourcesJson.get "compile_time_ms" = _ := hget "compile_time_ms"
  simp only [ResourceMetrics.ofJson, field_reread hd h1, field_reread hd h2, asUnsigned_ofU64 whole,
    optional_ofU64 whole hd h3, Option.bind_eq_bind, Option.bind_some, Option.pure_def]
  rfl

theorem optional_output (whole : WholeNumbers number) {v : Value} {key : String} {o : Option ExecutionOutput}
    (h : v.Distinct) (hget : v.get key = some (.ofOption ExecutionOutput.toJson o)) :
    (v.reread number).optional key ExecutionOutput.ofJson = some (o.map (ExecutionOutput.received number)) := by
  refine optional_reread h hget fun o => ⟨ofJson_output whole o, ?_⟩
  cases o <;> exact nofun

theorem ofJson_response (whole : WholeNumbers number) (result : ExecutionResult) :
    ExecutionResponse.ofJson (result.responseJson.reread number) = some (result.response number) := by
  have hd : result.responseJson.Distinct := distinct_ofMembers _
  have hget := @get_ofMembers
    [("success", .bool result.success), ("output", .ofOption ExecutionOutput.toJson result.output),
     ("error", .ofOption .str result.error), ("resources_used", result.resourcesJson),
     ("compilation_note", .ofOption .str result.compilationNote),
     ("refund_usd", .ofOption ofU64 result.refundUsd)] (by simp)
  have hsuccess : result.responseJson.get "success" = _ := hget "success"
  have houtput : result.responseJson.get "output" = _ := hget "output"
  have herror : result.responseJson.get "error" = _ := hget "error"
  have hresources : result.responseJson.get "resources_used" = _ := hget "resources_used"
  have hnote : result.responseJson.get "compilation_note" = _ := hget "compilation_note"
  have hrefund : result.responseJson.get "refund_usd" = _ := hget "refund_usd"
  simp only [ExecutionResponse.ofJson, field_reread hd hsuccess, optional_output whole hd houtput,
    optional_reread_str hd herror, field_reread hd hresources, ofJson_resources whole, optional_reread_str hd hnote,
    optional_ofU64 whole hd hrefund, Value.reread, Value.asBool, Option.bind_eq_bind, Option.bind_some, Option.pure_def]
  rfl

/-! ### How deep it nests -/

/-- The levels of a JSON output. -/
def outputDepth : Option ExecutionOutput → Nat
  | some (.json value) => value.nesting
  | _                  => 0

theorem nesting_ofOption {α : Type} {write : α → Value} {o : Option α} {d : Nat} (h : ∀ a, (write a).nesting ≤ d) :
    (Value.ofOption write o).nesting ≤ d := by
  cases o with
  | none => exact Nat.zero_le _
  | some a => exact h a

theorem nesting_ofBytes (bs : List UInt8) : (Value.ofBytes bs).nesting = 1 := by
  have hzero : ∀ bs : List UInt8, nestingElements (bs.map fun b => .ofNat b.toNat) = 0 := by
    intro bs
    induction bs with
    | nil => rfl
    | cons b bs ih =>
        rw [List.map_cons, nestingElements, ih]
        rfl
  show nestingElements _ + 1 = 1
  rw [hzero]

theorem nesting_output_le (o : ExecutionOutput) {d : Nat} (hd : 2 ≤ d) :
    o.toJson.nesting ≤ d ↔ outputDepth (some o) ≤ d - 1 := by
  have hone : ∀ (key : String) (v : Value), (Value.ofMembers [(key, v)]).nesting = v.nesting + 1 := by
    intro key v
    rw [nesting_ofMembers (by simp), nestingMembers, nestingMembers, Nat.max_zero]
  cases o with
  | bytes bs =>
      rw [ExecutionOutput.toJson, hone, nesting_ofBytes]
      exact iff_of_true hd (Nat.zero_le _)
  | text s =>
      rw [ExecutionOutput.toJson, hone]
      exact iff_of_true (Nat.le_trans (Nat.le_succ 1) hd) (Nat.zero_le _)
  | json value =>
      rw [ExecutionOutput.toJson, hone, outputDepth]
      omega

theorem nesting_resources (result : ExecutionResult) : result.resourcesJson.nesting = 1 := by
  have hle : result.resourcesJson.nesting ≤ 1 := by
    refine (nesting_ofMembers_le (by simp)).mpr ?_
    simp only [List.forall_mem_cons]
    exact ⟨Nat.le_refl _, Nat.le_refl _, nesting_ofOption fun _ => Nat.le_refl _, nofun⟩
  exact Nat.le_antisymm hle (Nat.succ_pos _)

theorem nesting_response_le (result : ExecutionResult) {d : Nat} (hd : 3 ≤ d) :
    result.responseJson.nesting ≤ d ↔ outputDepth result.output ≤ d - 2 := by
  obtain ⟨d, rfl⟩ : ∃ n, d = n + 1 := ⟨d - 1, by omega⟩
  rw [ExecutionResult.responseJson, nesting_ofMembers_le (by simp)]
  simp only [List.forall_mem_cons, nesting_resources]
  have hleaf : ∀ o : Option String, (Value.ofOption .str o).nesting ≤ d :=
    fun _ => nesting_ofOption fun _ => Nat.zero_le _
  have hnumber : (Value.ofOption ofU64 result.refundUsd).nesting ≤ d := nesting_ofOption fun _ => Nat.zero_le _
  have houtput : (Value.ofOption ExecutionOutput.toJson result.output).nesting ≤ d ↔
      outputDepth result.output ≤ d + 1 - 2 := by
    cases result.output with
    | none => exact iff_of_true (Nat.zero_le _) (Nat.zero_le _)
    | some o => exact nesting_output_le o (by omega)
  rw [← houtput]
  exact ⟨fun h => h.2.1, fun h => ⟨Nat.zero_le _, h, hleaf _, by omega, hleaf _, hnumber, nofun⟩⟩

/-! ### The call -/

theorem numbered_ofOption {α : Type} {write : α → Value} {o : Option α}
    (h : ∀ a, o = some a → (write a).Numbered number) : (Value.ofOption write o).Numbered number := by
  cases o with
  | none => trivial
  | some a => exact h a rfl

theorem numbered_ofU64 (whole : WholeNumbers number) (n : UInt64) : (ofU64 n).Numbered number :=
  numberText_toString (whole.isSome (lt_trans n.toNat_lt (by decide)))

theorem numbered_output (whole : WholeNumbers number) {result : ExecutionResult} (h : result.Numbered number)
    {o : ExecutionOutput} (ho : result.output = some o) : o.toJson.Numbered number := by
  cases o with
  | bytes bs =>
      refine numbered_ofMembers ?_
      simp only [List.forall_mem_cons]
      exact ⟨((good_iff _).mp (whole.good_bytes bs (Nat.lt_succ_self 1))).1, nofun⟩
  | text s =>
      refine numbered_ofMembers ?_
      simp only [List.forall_mem_cons]
      exact ⟨trivial, nofun⟩
  | json value =>
      refine numbered_ofMembers ?_
      simp only [List.forall_mem_cons]
      exact ⟨h value ho, nofun⟩

theorem numbered_resources (whole : WholeNumbers number) (result : ExecutionResult) :
    result.resourcesJson.Numbered number := by
  refine numbered_ofMembers ?_
  simp only [List.forall_mem_cons]
  exact ⟨numbered_ofU64 whole _, numbered_ofU64 whole _, numbered_ofOption fun n _ => numbered_ofU64 whole n, nofun⟩

theorem numbered_response (whole : WholeNumbers number) {result : ExecutionResult} (h : result.Numbered number) :
    result.responseJson.Numbered number := by
  refine numbered_ofMembers ?_
  simp only [List.forall_mem_cons]
  exact ⟨trivial, numbered_ofOption fun o ho => numbered_output whole h ho, numbered_ofOption fun _ _ => trivial,
    numbered_resources whole result, numbered_ofOption fun _ _ => trivial,
    numbered_ofOption fun n _ => numbered_ofU64 whole n, nofun⟩

/-- **A result sent in one call is read as it was meant**, unless its output is nested too deep. -/
theorem receive_small (whole : WholeNumbers number) {result : ExecutionResult} (h : result.Numbered number)
    (requestId : UInt64) :
    (submitSmallResult requestId result).receive number =
      if outputDepth result.output ≤ 124 then some (.resolveExecution requestId.toNat (result.response number))
      else none := by
  let members := [("request_id", ofU64 requestId), ("response", result.responseJson)]
  have hnodup : (members.map Prod.fst).Nodup := by simp [members]
  have hnumbered : (Value.ofMembers members).Numbered number := by
    refine numbered_ofMembers ?_
    simp only [members, List.forall_mem_cons]
    exact ⟨numbered_ofU64 whole _, numbered_response whole h, nofun⟩
  have hdepth : (Value.ofMembers members).nesting < recursionLimit ↔ outputDepth result.output ≤ 124 := by
    rw [recursionLimit, Nat.lt_succ_iff, nesting_ofMembers_le hnodup]
    simp only [members, List.forall_mem_cons, nesting_response_le result (show 3 ≤ 126 by decide)]
    exact ⟨fun h => h.2.1, fun h => ⟨Nat.zero_le _, h, nofun⟩⟩
  have hread : readResolution ((Value.ofMembers members).reread number)
      = some (.resolveExecution requestId.toNat (result.response number)) := by
    have hd : (Value.ofMembers members).Distinct := distinct_ofMembers members
    have hid : (Value.ofMembers members).get "request_id" = _ := get_ofMembers hnodup "request_id"
    have hresponse : (Value.ofMembers members).get "response" = _ := get_ofMembers hnodup "response"
    simp only [readResolution, field_reread hd hid, asUnsigned_ofU64 whole, field_reread hd hresponse,
      ofJson_response whole, Option.bind_eq_bind, Option.bind_some, Option.pure_def]
  show (parse number (Value.ofMembers members).compact).bind readResolution = _
  rw [parse_compact_eq hnumbered]
  by_cases hle : outputDepth result.output ≤ 124
  · rw [if_pos (hdepth.mpr hle), if_pos hle, Option.bind_some, hread]
  · rw [if_neg (mt hdepth.mp hle), if_neg hle, Option.bind_none]

/-- **A result sent with its output to be stored is read without its refund**, unless its output is nested too deep. -/
theorem receive_twoCall (whole : WholeNumbers number) {result : ExecutionResult} (h : result.Numbered number)
    (requestId : UInt64) {output : ExecutionOutput} (ho : result.output = some output) :
    (submitResultTwoCallFlow requestId result output).receive number =
      if outputDepth result.output ≤ 125 then
        some (.submitExecutionOutputAndResolve requestId.toNat (output.received number) result.success result.error
          result.metrics result.compilationNote)
      else none := by
  let members :=
    [("request_id", ofU64 requestId), ("output", output.toJson), ("success", .bool result.success),
     ("error", .ofOption .str result.error), ("resources_used", result.resourcesJson),
     ("compilation_note", .ofOption .str result.compilationNote), ("refund_usd", .ofOption ofU64 result.refundUsd)]
  have hnodup : (members.map Prod.fst).Nodup := by simp [members]
  have hnumbered : (Value.ofMembers members).Numbered number := by
    refine numbered_ofMembers ?_
    simp only [members, List.forall_mem_cons]
    exact ⟨numbered_ofU64 whole _, numbered_output whole h ho, trivial, numbered_ofOption fun _ _ => trivial,
      numbered_resources whole result, numbered_ofOption fun _ _ => trivial,
      numbered_ofOption fun n _ => numbered_ofU64 whole n, nofun⟩
  have hdepth : (Value.ofMembers members).nesting < recursionLimit ↔ outputDepth result.output ≤ 125 := by
    rw [recursionLimit, Nat.lt_succ_iff, nesting_ofMembers_le hnodup, ho]
    simp only [members, List.forall_mem_cons, nesting_output_le output (show 2 ≤ 126 by decide), nesting_resources]
    have hleaf : ∀ o : Option String, (Value.ofOption .str o).nesting ≤ 126 :=
      fun _ => nesting_ofOption fun _ => Nat.zero_le _
    exact ⟨fun h => h.2.1, fun h => ⟨Nat.zero_le _, h, Nat.zero_le _, hleaf _, by decide, hleaf _,
      nesting_ofOption fun _ => Nat.zero_le _, nofun⟩⟩
  have hread : readSubmission ((Value.ofMembers members).reread number)
      = some (.submitExecutionOutputAndResolve requestId.toNat (output.received number) result.success result.error
          result.metrics result.compilationNote) := by
    have hd : (Value.ofMembers members).Distinct := distinct_ofMembers members
    have hid : (Value.ofMembers members).get "request_id" = _ := get_ofMembers hnodup "request_id"
    have houtput : (Value.ofMembers members).get "output" = _ := get_ofMembers hnodup "output"
    have hsuccess : (Value.ofMembers members).get "success" = _ := get_ofMembers hnodup "success"
    have herror : (Value.ofMembers members).get "error" = _ := get_ofMembers hnodup "error"
    have hresources : (Value.ofMembers members).get "resources_used" = _ := get_ofMembers hnodup "resources_used"
    have hnote : (Value.ofMembers members).get "compilation_note" = _ := get_ofMembers hnodup "compilation_note"
    simp only [readSubmission, field_reread hd hid, asUnsigned_ofU64 whole, field_reread hd houtput,
      ofJson_output whole, field_reread hd hsuccess, optional_reread_str hd herror, field_reread hd hresources,
      ofJson_resources whole, optional_reread_str hd hnote, Value.reread, Value.asBool, Option.bind_eq_bind,
      Option.bind_some, Option.pure_def]
  have hmethod : (submitResultTwoCallFlow requestId result output).method = "submit_execution_output_and_resolve" := rfl
  rw [MethodCall.receive, hmethod, if_neg (by decide), if_pos rfl]
  show (parse number (Value.ofMembers members).compact).bind readSubmission = _
  rw [parse_compact_eq hnumbered]
  by_cases hle : outputDepth result.output ≤ 125
  · rw [if_pos (hdepth.mpr hle), if_pos hle, Option.bind_some, hread]
  · rw [if_neg (mt hdepth.mp hle), if_neg hle, Option.bind_none]

end Reading

/-! ## What the contract passes on -/

/-- The worker's transaction for a waiting request: it comes from the operator and carries no deposit, and the yield it
    could create is none that waits. -/
structure FromOperator (w : World) (env : Env) : Prop where
  operator : env.predecessor = w.contract.operatorId
  noDeposit : env.attachedDeposit = 0
  fresh : env.dataId ∉ w.yields

/-- The transaction goes through, and resumes the yield `dataId` with `response`. -/
def Passes (H : Host) (w : World) (env : Env) (m : MethodCall) (dataId : CryptoHash) (response : ExecutionResponse) :
    Prop :=
  ∃ w' es, w.transact H env m = some (w', es) ∧ Effect.yieldResume dataId (.executionResponse response) ∈ es

section Contract
variable {H : Host} {w : World} {env : Env} {id : Nat} {r : ExecutionRequest} {data : RequestData} {m : MethodCall}
  {response : ExecutionResponse}

/-- A call on the ledger goes through when its part does. -/
theorem exists_call_iff (sent : FromOperator w env) {call : Call} {part : Res (Ledger × List Effect)} {es : List Effect}
    (hpart : runCall H (w.seenBy env) w.contract call = .ledger part) :
    (∃ w', w.call H env call = some (w', es)) ↔ ∃ l, part = .ok (l, es) := by
  constructor
  · rintro ⟨w', h⟩
    obtain ⟨l, hl, -⟩ := call_ledger hpart h
    exact ⟨l, hl⟩
  · rintro ⟨l, rfl⟩
    have hexec : exec H (w.seenBy env) w.contract call = .ok ({ w.contract with toLedger := l }, es) := by
      simp only [exec, bind_eq_ok, require_eq_ok]
      refine ⟨(), Or.inr sent.noDeposit, ?_⟩
      rw [hpart]
      rfl
    unfold World.call
    rw [if_neg sent.fresh, hexec]
    exact ⟨_, rfl⟩

theorem resolveExecutionInternal_iff {cfg : Config} {l : Ledger} {es : List Effect}
    (hr : l.pendingRequests.lookup id = some r) (hwaiting : env.waiting r.dataId = true) :
    resolveExecutionInternal env cfg l id response = .ok es ↔
      ∃ cost, calculateCost cfg response.resourcesUsed = .ok cost ∧
        es = [.charged cost, .yieldResume r.dataId (.executionResponse response)] := by
  simp only [resolveExecutionInternal, bind_eq_ok, expect_eq_ok, require_eq_ok, pure_eq_ok]
  constructor
  · rintro ⟨r', hr', cost, hcost, _, -, rfl⟩
    obtain rfl : r' = r := Option.some.inj (hr'.symm.trans hr)
    exact ⟨cost, hcost, rfl⟩
  · rintro ⟨cost, hcost, rfl⟩
    exact ⟨r, hr, cost, hcost, (), hwaiting, rfl⟩

/-- A call that resolves a waiting request resumes its yield with the response, and goes through whenever what the run
    cost can be counted. -/
theorem resolution_effects (awaits : w.Awaits id r data) (sent : FromOperator w env) {call : Call}
    (hcall : call.resolution = some (id, response)) (es : List Effect) :
    (∃ w', w.call H env call = some (w', es)) ↔
      ∃ cost, calculateCost w.contract.toConfig response.resourcesUsed = .ok cost ∧
        es = [.charged cost, .yieldResume r.dataId (.executionResponse response)] := by
  have hwaiting : (w.seenBy env).waiting r.dataId = true := by
    refine decide_eq_true ?_
    rw [← AList.lookup_isSome, awaits.yielded]
    rfl
  cases call with
  | resolveExecution id' x =>
      cases hcall
      rw [exists_call_iff sent rfl]
      simp only [resolveExecution, bind_eq_ok, assertOperator, require_eq_ok, pure_eq_ok, Prod.mk.injEq,
        resolveExecutionInternal_iff awaits.pending hwaiting]
      constructor
      · rintro ⟨l, _, -, _, hes, -, rfl⟩
        exact hes
      · intro hes
        exact ⟨_, (), sent.operator, es, hes, rfl, rfl⟩
  | submitExecutionOutputAndResolve id' output success error metrics note =>
      cases hcall
      rw [exists_call_iff sent rfl]
      -- the row that is resolved is the one that has just been written
      have hstored : submitExecutionOutputInternal w.contract.toLedger id output
          = .ok { w.contract.toLedger with
              pendingRequests := w.contract.pendingRequests.insert id (r.delivered output) } := by
        simp only [submitExecutionOutputInternal, bind_eq_ok, expect_eq_ok, require_eq_ok, pure_eq_ok]
        exact ⟨r, awaits.pending, (), awaits.unsubmitted, rfl⟩
      have hresolved := @resolveExecutionInternal_iff (w.seenBy env) id (r.delivered output)
        { success, output := none, error, resourcesUsed := metrics, compilationNote := note, refundUsd := none }
        w.contract.toConfig { w.contract.toLedger with
          pendingRequests := w.contract.pendingRequests.insert id (r.delivered output) } es (AList.lookup_insert _)
        hwaiting
      simp only [submitExecutionOutputAndResolve, bind_eq_ok, assertOperator, require_eq_ok, pure_eq_ok, Prod.mk.injEq,
        hstored, Except.ok.injEq]
      constructor
      · rintro ⟨l, _, -, _, rfl, _, hes, -, rfl⟩
        exact hresolved.mp hes
      · intro hes
        exact ⟨_, (), sent.operator, _, rfl, es, hresolved.mpr hes, rfl, rfl⟩
  | _ => cases hcall

theorem passes_iff (awaits : w.Awaits id r data) (sent : FromOperator w env) {call : Call}
    (hread : m.receive H.jsonNumber = some call) (hcall : call.resolution = some (id, response))
    (y : ExecutionResponse) :
    Passes H w env m r.dataId y ↔
      y = response ∧ ∃ cost, calculateCost w.contract.toConfig response.resourcesUsed = .ok cost := by
  have heffects := resolution_effects (H := H) awaits sent hcall
  unfold Passes World.transact
  rw [hread, Option.bind_some]
  constructor
  · rintro ⟨w', es, h, hmem⟩
    obtain ⟨cost, hcost, rfl⟩ := (heffects es).mp ⟨w', h⟩
    simp only [List.mem_cons, List.not_mem_nil, or_false, reduceCtorEq, false_or, Effect.yieldResume.injEq,
      YieldPayload.executionResponse.injEq, true_and] at hmem
    exact ⟨hmem, cost, hcost⟩
  · rintro ⟨rfl, cost, hcost⟩
    obtain ⟨w', h⟩ := (heffects _).mpr ⟨cost, hcost, rfl⟩
    exact ⟨w', _, h, by simp⟩

theorem not_passes (hread : m.receive H.jsonNumber = none) (dataId : CryptoHash) (y : ExecutionResponse) :
    ¬ Passes H w env m dataId y := by
  rintro ⟨w', es, h, -⟩
  rw [World.transact, hread] at h
  cases h

end Contract

/-! ## How long a response is -/

/-- A text as a member of the response. -/
def textSize : Option String → Nat
  | none   => 4
  | some s => escapedSize s + 2

/-- The digits a counter is written with. -/
def digits (n : UInt64) : Nat := (toString n.toNat).utf8ByteSize

/-- The bytes of a counter that may be missing. -/
def numberSize : Option UInt64 → Nat
  | none   => 4
  | some n => digits n

/-- An output as a member of the response, `valueSize` for a JSON one. -/
def outputSize (valueSize : Value → Nat) : Option ExecutionOutput → Nat
  | none                => 4
  | some (.bytes bs)    => 10 + (Value.ofBytes bs).size
  | some (.text s)      => 11 + escapedSize s
  | some (.json value)  => 9 + valueSize value

/-- What a response takes beside its output, its error and its refund. -/
def ExecutionResult.frame (result : ExecutionResult) : Nat :=
  130 + (if result.success then 4 else 5) + digits result.instructions + digits result.executionTimeMs
    + numberSize result.compileTimeMs + textSize result.compilationNote

theorem size_ofOption_str (o : Option String) : (Value.ofOption .str o).size = textSize o := by
  cases o with
  | none => rfl
  | some s => exact size_str s

theorem size_ofOption_u64 (o : Option UInt64) : (Value.ofOption ofU64 o).size = numberSize o := by
  cases o with
  | none => rfl
  | some n => rfl

theorem size_ofOption_output (o : Option ExecutionOutput) :
    (Value.ofOption ExecutionOutput.toJson o).size = outputSize Value.size o := by
  have hkeys : escapedSize "Bytes" = 5 ∧ escapedSize "Text" = 4 ∧ escapedSize "Json" = 4 := by decide
  cases o with
  | none => rfl
  | some o =>
      show o.toJson.size = _
      cases o with
      | bytes bs => rw [ExecutionOutput.toJson, size_ofMember, outputSize, hkeys.1]
      | text s =>
          rw [ExecutionOutput.toJson, size_ofMember, outputSize, hkeys.2.1, size_str]
          omega
      | json value => rw [ExecutionOutput.toJson, size_ofMember, outputSize, hkeys.2.2]

theorem size_received (number : String → Option String) (o : Option ExecutionOutput) :
    (((o.map (ExecutionOutput.received number)).map Outlayer.ExecutionOutput.toText).getD "null").utf8ByteSize
      = outputSize (fun v => (v.reread number).size) o := by
  have hkeys : escapedSize "Bytes" = 5 ∧ escapedSize "Text" = 4 ∧ escapedSize "Json" = 4 := by decide
  cases o with
  | none => exact (by decide : "null".utf8ByteSize = 4)
  | some o =>
      show (o.received number).toText.utf8ByteSize = _
      cases o with
      | bytes bs =>
          rw [ExecutionOutput.received, Outlayer.ExecutionOutput.toText, size_jsonObject_field, outputSize, hkeys.1]
          rfl
      | text s =>
          rw [ExecutionOutput.received, Outlayer.ExecutionOutput.toText, size_jsonObject_field, outputSize, hkeys.2.1,
            size_quote]
          omega
      | json value =>
          rw [ExecutionOutput.received, Outlayer.ExecutionOutput.toText, size_jsonObject_field, outputSize, hkeys.2.2]
          rfl

theorem size_metrics (result : ExecutionResult) :
    result.metrics.toText.utf8ByteSize
      = 47 + digits result.instructions + digits result.executionTimeMs + numberSize result.compileTimeMs := by
  have hkeys : escapedSize "instructions" = 12 ∧ escapedSize "time_ms" = 7 ∧ escapedSize "compile_time_ms" = 15 := by
    decide
  have hcompile : (Value.ofOption Value.ofNat (result.compileTimeMs.map UInt64.toNat)).compact.utf8ByteSize
      = numberSize result.compileTimeMs := by
    cases result.compileTimeMs <;> rfl
  rw [ResourceMetrics.toText, size_jsonObject]
  simp only [List.map_cons, List.map_nil, List.sum_cons, List.sum_nil, size_jsonField, hkeys, ExecutionResult.metrics,
    hcompile, digits]
  omega

/-- **The bytes passed on**, counted on the result. -/
theorem size_response (number : String → Option String) (result : ExecutionResult) :
    (result.response number).toText.utf8ByteSize
      = result.frame + outputSize (fun v => (v.reread number).size) result.output + textSize result.error
        + numberSize result.refundUsd := by
  have hkeys : escapedSize "success" = 7 ∧ escapedSize "output" = 6 ∧ escapedSize "error" = 5 ∧
      escapedSize "resources_used" = 14 ∧ escapedSize "compilation_note" = 16 ∧ escapedSize "refund_usd" = 10 := by
    decide
  have hrefund : (Value.ofOption Value.ofNat (result.refundUsd.map UInt64.toNat)).compact.utf8ByteSize
      = numberSize result.refundUsd := by
    cases result.refundUsd <;> rfl
  have hsuccess : (Value.bool result.success).compact.utf8ByteSize = if result.success then 4 else 5 := size_bool _
  have htext : ∀ o : Option String, (Value.ofOption .str o).compact.utf8ByteSize = textSize o := size_ofOption_str
  rw [ExecutionResponse.toText, size_jsonObject]
  simp only [List.map_cons, List.map_nil, List.sum_cons, List.sum_nil, size_jsonField, hkeys, ExecutionResult.response,
    size_received, size_metrics, hsuccess, htext, hrefund, ExecutionResult.frame]
  omega

/-- The bytes measured: the same, with a JSON output as the worker writes it. -/
theorem size_responseJson (result : ExecutionResult) :
    result.responseJson.compact.utf8ByteSize
      = result.frame + outputSize Value.size result.output + textSize result.error + numberSize result.refundUsd := by
  have hkeys : escapedSize "success" = 7 ∧ escapedSize "output" = 6 ∧ escapedSize "error" = 5 ∧
      escapedSize "resources_used" = 14 ∧ escapedSize "compilation_note" = 16 ∧ escapedSize "refund_usd" = 10 := by
    decide
  have hmetrics : escapedSize "instructions" = 12 ∧ escapedSize "time_ms" = 7 ∧ escapedSize "compile_time_ms" = 15 := by
    decide
  have hnumber : ∀ n, (ofU64 n).size = digits n := fun _ => rfl
  have hresources : result.resourcesJson.size
      = 47 + digits result.instructions + digits result.executionTimeMs + numberSize result.compileTimeMs := by
    rw [ExecutionResult.resourcesJson, size_ofMembers (by simp), size_obj]
    simp only [List.map_cons, List.map_nil, List.sum_cons, List.sum_nil, memberSize, hmetrics, hnumber,
      size_ofOption_u64]
    omega
  show result.responseJson.size = _
  rw [ExecutionResult.responseJson, size_ofMembers (by simp), size_obj]
  simp only [List.map_cons, List.map_nil, List.sum_cons, List.sum_nil, memberSize, hkeys, size_bool,
    size_ofOption_output, size_ofOption_str, hresources, size_ofOption_u64, ExecutionResult.frame]
  omega

/-! ### An error that is cut -/

/-- An error as a member of the response where it is cut: the notice takes 38 bytes and the digits of the length. -/
def cutSize : Option String → Nat
  | none   => 4
  | some e =>
      if e.utf8ByteSize ≤ 512 then escapedSize e + 2
      else escapedWithin 512 e.toList + 40 + (toString e.utf8ByteSize).utf8ByteSize

theorem escapedSize_head (s : String) (max : Nat) : escapedSize (head s max) = escapedWithin max s.toList := by
  rw [head, escapedSize, String.toList_ofList]
  generalize s.toList = cs
  induction cs generalizing max with
  | nil => rfl
  | cons c cs ih =>
      rw [headChars, escapedWithin]
      by_cases hfits : c.utf8Size ≤ max
      · rw [if_pos hfits, if_pos hfits, ← ih]
        exact size_append _ _
      · rw [if_neg hfits, if_neg hfits]
        rfl

theorem escapeChar_digit {c : Char} (h : c.isDigit = true) : escapeChar c = [c] := by
  rcases escapeChar_cases c with ⟨e, hc, he⟩ | ⟨hc, hlt⟩ | ⟨hc, -⟩
  · -- no digit has an escape of one letter
    have hmem := mem_simpleEscapes he
    simp only [simpleEscapes, List.mem_cons, Prod.mk.injEq, List.not_mem_nil, or_false] at hmem
    rcases hmem with ⟨-, rfl⟩ | ⟨-, rfl⟩ | ⟨-, rfl⟩ | ⟨-, rfl⟩ | ⟨-, rfl⟩ | ⟨-, rfl⟩ | ⟨-, rfl⟩ | ⟨-, rfl⟩ <;>
      exact absurd h (by decide)
  · simp only [Char.isDigit, Bool.and_eq_true, decide_eq_true_eq] at h
    have hle : (48 : UInt32).toNat ≤ c.val.toNat := UInt32.le_iff_toNat_le.mp h.1
    have h48 : (48 : UInt32).toNat = 48 := rfl
    simp only [Char.toNat] at hlt
    omega
  · exact hc

theorem escapedSize_toString (n : Nat) : escapedSize (toString n) = (toString n).utf8ByteSize := by
  refine escapedSize_plain fun c hc => escapeChar_digit ?_
  rw [show (toString n).toList = Nat.toDigits 10 n from Nat.toList_repr] at hc
  exact Nat.isDigit_of_mem_toDigits (by decide) (by decide) hc

theorem textSize_truncated (result : ExecutionResult) : textSize result.truncated.error = cutSize result.error := by
  unfold ExecutionResult.truncated
  cases herror : result.error with
  | none =>
      dsimp only
      rw [herror]
      rfl
  | some e =>
      dsimp only
      have hnotice : escapedSize "... (truncated, original size: " = 31 ∧ escapedSize " bytes)" = 7 := by decide
      by_cases hle : e.utf8ByteSize ≤ 512
      · rw [if_neg (by rw [maxErrorSize]; omega), herror, cutSize, if_pos hle]
        rfl
      · rw [if_pos (by rw [maxErrorSize]; omega), cutSize, if_neg hle]
        show escapedSize (truncateErrorForChain e) + 2 = _
        rw [truncateErrorForChain, escapedSize_append, escapedSize_append, escapedSize_append, escapedSize_head,
          escapedSize_toString, hnotice.1, hnotice.2, maxErrorSize]
        omega

/-! ## Delivery -/

/-- What the runtime takes in a resumption. -/
def resumeLimit : Nat := 1024

/-- The call leads the contract to resume the yield with a response the runtime takes. -/
def Delivered (H : Host) (w : World) (env : Env) (m : MethodCall) (dataId : CryptoHash) : Prop :=
  ∃ response, Passes H w env m dataId response ∧ response.toText.utf8ByteSize ≤ resumeLimit

/-- Which results can be delivered: what the run cost can be counted, the output is not nested too deep, and the parts
    that are sent, each with its escapes, take no more than the runtime does. -/
def ExecutionResult.Deliverable (H : Host) (c : Config) (result : ExecutionResult) : Prop :=
  let kept := outputSize (fun v => (v.reread H.jsonNumber).size) result.output
  (∃ cost, calculateCost c result.metrics = .ok cost) ∧
    if result.frame + outputSize Value.size result.output + textSize result.error + numberSize result.refundUsd < 1024
    then outputDepth result.output ≤ 124 ∧
      result.frame + kept + textSize result.error + numberSize result.refundUsd ≤ 1024
    else if result.success = true ∧ result.output.isSome = true then
      outputDepth result.output ≤ 125 ∧ result.frame + textSize result.error + 8 ≤ 1024
    else outputDepth result.output ≤ 124 ∧
      result.frame + kept + cutSize result.error + numberSize result.refundUsd ≤ 1024

section Delivery
variable {H : Host} {w : World} {env : Env} {requestId : UInt64} {r : ExecutionRequest} {data : RequestData}
  {result : ExecutionResult}

/-- A call that is read is delivered when the response it carries is counted and fits. -/
theorem delivered_iff (awaits : w.Awaits requestId.toNat r data) (sent : FromOperator w env) {m : MethodCall}
    {deep : Prop} [Decidable deep] {call : Call} {response : ExecutionResponse}
    (hread : m.receive H.jsonNumber = if deep then some call else none)
    (hcall : call.resolution = some (requestId.toNat, response)) :
    Delivered H w env m r.dataId ↔
      (∃ cost, calculateCost w.contract.toConfig response.resourcesUsed = .ok cost) ∧ deep ∧
        response.toText.utf8ByteSize ≤ resumeLimit := by
  by_cases hdeep : deep
  · rw [if_pos hdeep] at hread
    unfold Delivered
    simp only [passes_iff awaits sent hread hcall]
    constructor
    · rintro ⟨_, ⟨rfl, hcost⟩, hsize⟩
      exact ⟨hcost, hdeep, hsize⟩
    · rintro ⟨hcost, -, hsize⟩
      exact ⟨response, ⟨rfl, hcost⟩, hsize⟩
  · rw [if_neg hdeep] at hread
    refine iff_of_false ?_ fun h => hdeep h.2.1
    rintro ⟨y, hpasses, -⟩
    exact not_passes hread r.dataId y hpasses

theorem delivered_small (whole : WholeNumbers H.jsonNumber) (awaits : w.Awaits requestId.toNat r data)
    (sent : FromOperator w env) (written : result.Numbered H.jsonNumber) :
    Delivered H w env (submitSmallResult requestId result) r.dataId ↔
      (∃ cost, calculateCost w.contract.toConfig result.metrics = .ok cost) ∧ outputDepth result.output ≤ 124 ∧
        result.frame + outputSize (fun v => (v.reread H.jsonNumber).size) result.output + textSize result.error
          + numberSize result.refundUsd ≤ 1024 := by
  rw [delivered_iff awaits sent (receive_small whole written requestId) rfl, size_response]
  rfl

theorem delivered_twoCall (whole : WholeNumbers H.jsonNumber) (awaits : w.Awaits requestId.toNat r data)
    (sent : FromOperator w env) (written : result.Numbered H.jsonNumber) {output : ExecutionOutput}
    (ho : result.output = some output) :
    Delivered H w env (submitResultTwoCallFlow requestId result output) r.dataId ↔
      (∃ cost, calculateCost w.contract.toConfig result.metrics = .ok cost) ∧ outputDepth result.output ≤ 125 ∧
        result.frame + textSize result.error + 8 ≤ 1024 := by
  have hsize := size_response H.jsonNumber { result with output := none, refundUsd := none }
  have hframe : ExecutionResult.frame { result with output := none, refundUsd := none } = result.frame := rfl
  rw [hframe] at hsize
  rw [delivered_iff awaits sent (receive_twoCall whole written requestId ho) rfl]
  refine and_congr_right fun _ => and_congr_right fun _ => ?_
  show (ExecutionResult.response H.jsonNumber
    { result with output := none, refundUsd := none }).toText.utf8ByteSize ≤ 1024 ↔ _
  rw [hsize]
  show result.frame + 4 + textSize result.error + 4 ≤ 1024 ↔ _
  omega

theorem truncated_keeps (result : ExecutionResult) : ∃ error, result.truncated = { result with error } := by
  unfold ExecutionResult.truncated
  split
  · split
    · exact ⟨_, rfl⟩
    · exact ⟨result.error, rfl⟩
  · exact ⟨result.error, rfl⟩

theorem delivered_truncated (whole : WholeNumbers H.jsonNumber) (awaits : w.Awaits requestId.toNat r data)
    (sent : FromOperator w env) (written : result.Numbered H.jsonNumber) :
    Delivered H w env (submitSmallResult requestId result.truncated) r.dataId ↔
      (∃ cost, calculateCost w.contract.toConfig result.metrics = .ok cost) ∧ outputDepth result.output ≤ 124 ∧
        result.frame + outputSize (fun v => (v.reread H.jsonNumber).size) result.output + cutSize result.error
          + numberSize result.refundUsd ≤ 1024 := by
  have hcut := textSize_truncated result
  obtain ⟨error, hkept⟩ := truncated_keeps result
  rw [hkept] at hcut ⊢
  refine (@delivered_small H w env requestId r data { result with error } whole awaits sent written).trans ?_
  rw [hcut]
  rfl

/-- **Which results are delivered.** A result for a waiting request reaches its yield in a response the runtime takes
    exactly when what is sent of it fits: all of it where that is less than the limit; otherwise a successful result
    without its output and its refund, and any other with its error cut. -/
theorem result_delivered_iff (whole : WholeNumbers H.jsonNumber) (awaits : w.Awaits requestId.toNat r data)
    (sent : FromOperator w env) (written : result.Numbered H.jsonNumber) :
    Delivered H w env (submitExecutionResult requestId result) r.dataId ↔
      result.Deliverable H w.contract.toConfig := by
  unfold submitExecutionResult ExecutionResult.Deliverable
  dsimp only
  rw [size_responseJson, payloadLimit]
  by_cases hsmall : result.frame + outputSize Value.size result.output + textSize result.error
      + numberSize result.refundUsd < 1024
  · rw [if_neg (Nat.not_le.mpr hsmall), if_pos hsmall]
    exact delivered_small whole awaits sent written
  · rw [if_pos (Nat.not_lt.mp hsmall), if_neg hsmall]
    split
    · next output hsuccess houtput =>
        rw [if_pos ⟨hsuccess, by rw [houtput]; rfl⟩]
        exact delivered_twoCall whole awaits sent written houtput
    · next hother =>
        rw [if_neg]
        · exact delivered_truncated whole awaits sent written
        · rintro ⟨hsuccess, hsome⟩
          obtain ⟨output, houtput⟩ := Option.isSome_iff_exists.mp hsome
          exact hother output hsuccess houtput

end Delivery

/-! ## What the cut makes room for -/

theorem escapedWithin_plain_le {cs : List Char} (h : ∀ c ∈ cs, escapeChar c = [c]) (max : Nat) :
    escapedWithin max cs ≤ max := by
  induction cs generalizing max with
  | nil => exact Nat.zero_le _
  | cons c cs ih =>
      rw [escapedWithin]
      split
      · next hfits =>
          have htail := ih (fun d hd => h d (List.mem_cons_of_mem _ hd)) (max - c.utf8Size)
          rw [h c List.mem_cons_self, Json.size_cons, Json.size_nil]
          omega
      · exact Nat.zero_le _

/-- Where nothing is escaped the cut is enough: a result without an output, whose note takes at most 256 bytes and whose
    numbers, the length of the error among them, have at most 75 digits together, can be delivered. -/
theorem plain_deliverable {H : Host} {c : Config} {result : ExecutionResult}
    (counted : ∃ cost, calculateCost c result.metrics = .ok cost) (houtput : result.output = none) {error : String}
    (herror : result.error = some error) (hplain : ∀ ch ∈ error.toList, escapeChar ch = [ch])
    (hnote : textSize result.compilationNote ≤ 258)
    (hdigits : digits result.instructions + digits result.executionTimeMs + numberSize result.compileTimeMs
      + numberSize result.refundUsd + (toString error.utf8ByteSize).utf8ByteSize ≤ 75) :
    result.Deliverable H c := by
  have hdepth : outputDepth result.output = 0 := by rw [houtput]; rfl
  have hnone : ∀ size, outputSize size result.output = 4 := fun size => by rw [houtput]; rfl
  have hcut : cutSize result.error ≤ 552 + (toString error.utf8ByteSize).utf8ByteSize := by
    rw [herror, cutSize]
    split
    · next hshort =>
        rw [escapedSize_plain hplain]
        omega
    · have := escapedWithin_plain_le hplain 512
      omega
  have hframe : result.frame + cutSize result.error + numberSize result.refundUsd ≤ 1020 := by
    rw [ExecutionResult.frame]
    split <;> omega
  refine ⟨counted, ?_⟩
  rw [hdepth, hnone, hnone]
  split
  · next hsmall => exact ⟨Nat.zero_le _, Nat.le_of_lt hsmall⟩
  · rw [if_neg (fun h => by rw [houtput] at h; cases h.2)]
    exact ⟨Nat.zero_le _, by omega⟩

/-! ## A result that cannot be delivered -/

/-- A short error. -/
def plainError : ExecutionResult where
  success := false
  output := none
  error := some "out of fuel"
  executionTimeMs := 10
  instructions := 1000
  compileTimeMs := none
  compilationNote := none
  refundUsd := none

/-- An error within the cut, each of whose bytes is escaped. -/
def quotedError : ExecutionResult where
  success := false
  output := none
  error := some (String.ofList (List.replicate 512 '"'))
  executionTimeMs := 10
  instructions := 1000
  compileTimeMs := none
  compilationNote := none
  refundUsd := none

theorem size_quotes (n : Nat) :
    (String.ofList (List.replicate n '"')).utf8ByteSize = n ∧
      escapedSize (String.ofList (List.replicate n '"')) = 2 * n := by
  have hquote : '"'.utf8Size = 1 ∧ Json.size (escapeChar '"') = 2 := by decide
  rw [← size_toList, escapedSize, String.toList_ofList]
  induction n with
  | zero => exact ⟨rfl, rfl⟩
  | succ n ih =>
      rw [List.replicate_succ]
      refine ⟨?_, ?_⟩
      · rw [Json.size_cons, ih.1, hquote.1]
        omega
      · show Json.size (escapeChar '"' ++ escape (List.replicate n '"')) = _
        rw [size_append, ih.2, hquote.2]
        omega

/-- The operator's transaction after `bob`'s request. -/
def operatorCall : Env := envOf ownerAccount 0 0 0

/-- The test for a request that waits, an operator who may resolve it, and a cost that can be counted. -/
def isReady (w : World) : Bool :=
  w.isAwaiting 0 (Vector.replicate 32 1) && decide (operatorCall.predecessor = w.contract.operatorId) &&
    decide (operatorCall.dataId ∉ w.yields) && (calculateCost w.contract.toConfig plainError.metrics).toOption.isSome

/-- The contract after `bob`'s request. -/
theorem exists_ready : ∃ tr w r data, World.History asciiHost ownerAccount none none none tr w ∧ w.Awaits 0 r data ∧
    FromOperator w operatorCall ∧ ∃ cost, calculateCost w.contract.toConfig plainError.metrics = .ok cost := by
  obtain ⟨tr, w, hw, hp⟩ := exists_history (attachedRun []) (fun p => isReady p.2) (by decide +kernel)
  simp only [isReady, Bool.and_eq_true, decide_eq_true_eq] at hp
  obtain ⟨⟨⟨hawaits, hoperator⟩, hfresh⟩, hcost⟩ := hp
  obtain ⟨r, data, -, awaits⟩ := exists_awaits hawaits
  obtain ⟨cost, hcost⟩ := Option.isSome_iff_exists.mp hcost
  exact ⟨tr, w, r, data, hw, awaits, ⟨hoperator, rfl, hfresh⟩, cost, toOption_eq_some.mp hcost⟩

/-- **An error of 512 quotes cannot be delivered**: it is not cut, and it is escaped to 1024 bytes. -/
theorem quoted_error_undelivered : ∃ tr w r data,
    World.History asciiHost ownerAccount none none none tr w ∧ w.Awaits 0 r data ∧ FromOperator w operatorCall ∧
    ¬ Delivered asciiHost w operatorCall (submitExecutionResult 0 quotedError) r.dataId := by
  obtain ⟨tr, w, r, data, hw, awaits, sent, -⟩ := exists_ready
  refine ⟨tr, w, r, data, hw, awaits, sent, ?_⟩
  obtain ⟨hbytes, hescaped⟩ := size_quotes 512
  have herror : quotedError.error = some (String.ofList (List.replicate 512 '"')) := rfl
  have htext : textSize quotedError.error = 1026 := by rw [herror, textSize, hescaped]
  have hsent : submitExecutionResult 0 quotedError = submitSmallResult 0 quotedError.truncated := by
    unfold submitExecutionResult
    dsimp only
    rw [size_responseJson, htext, payloadLimit, if_pos (by omega)]
    rfl
  have hcut : cutSize quotedError.error = 1026 := by rw [herror, cutSize, if_pos (Nat.le_of_eq hbytes), hescaped]
  rw [hsent]
  intro h
  have hsize := ((@delivered_truncated asciiHost w operatorCall 0 r data quotedError wholeNumbers_some awaits sent
    nofun).mp h).2.2
  omega

theorem plain_error_delivered : ∃ tr w r data,
    World.History asciiHost ownerAccount none none none tr w ∧ w.Awaits 0 r data ∧ FromOperator w operatorCall ∧
    Delivered asciiHost w operatorCall (submitExecutionResult 0 plainError) r.dataId := by
  obtain ⟨tr, w, r, data, hw, awaits, sent, hcost⟩ := exists_ready
  refine ⟨tr, w, r, data, hw, awaits, sent, ?_⟩
  refine (@result_delivered_iff asciiHost w operatorCall 0 r data plainError wholeNumbers_some awaits sent nofun).mpr ?_
  have hplain : ("out of fuel".toList.all fun ch => decide (escapeChar ch = [ch])) = true := by decide
  exact plain_deliverable hcost rfl rfl (fun ch hch => of_decide_eq_true (List.all_eq_true.mp hplain ch hch))
    (by decide) (by decide)

end Worker
end Outlayer
