import Outlayer.Contract.Logs
import Mathlib.Data.List.Chain

/-!
# `Worker.NearClient` — the cost of a run, read from the logs of its transaction

The worker reads what a run cost from the logs of the transaction it resolved the run with. Only lines written by the
contract, in receipts that committed, are read, and each of the three formats has to start its line.
`extract_resolution` is what is read from the logs of a resolution: the number on the line made for it, since no line
before it is taken for one (`readCost_resolving`).
-/

namespace Outlayer
open Text Checked Collections

namespace Worker

/-! ## Outcomes -/

/-- How the node says a receipt ended. -/
inductive ExecutionStatusView
  | unknown
  | failure
  | successValue
  | successReceiptId
deriving DecidableEq

/-- The receipt's changes are on the chain. -/
def ExecutionStatusView.committed : ExecutionStatusView → Bool
  | .successValue | .successReceiptId => true
  | .unknown | .failure               => false

/-- One receipt of a block as the worker reads it. -/
structure ReceiptOutcome where
  executorId : AccountId
  status : ExecutionStatusView
  logs : List String

/-- A transaction that ran to its end: the account it called, and what its receipts did. -/
structure FinalExecutionOutcomeView where
  receiverId : AccountId
  receiptsOutcome : List ReceiptOutcome

/-- The lines the called contract wrote in receipts that committed. -/
def FinalExecutionOutcomeView.committedLogs (outcome : FinalExecutionOutcomeView) : List String :=
  (outcome.receiptsOutcome.filter fun r => decide (r.executorId = outcome.receiverId) && r.status.committed).flatMap
    ReceiptOutcome.logs

/-! ## Reading a line -/

/-- `str::strip_prefix`. -/
def stripPrefix (pre s : String) : Option (List Char) :=
  if startsWith s pre then some (s.toList.drop pre.toList.length) else none

/-- The text up to the first `c`, when there is one. -/
def upTo (c : Char) (cs : List Char) : Option String :=
  if c ∈ cs then some (String.ofList (cs.takeWhile (· ≠ c))) else none

/-- `[[yNEAR charged: "123456789"]]`. -/
def readCharged (log : String) : Option Nat := do
  let after ← stripPrefix "[[yNEAR charged: \"" log
  let cost ← upTo '"' after
  parseUnsigned 128 cost

/-- `estimated_cost: 12345678 yoctoNEAR`. -/
def readEstimated (log : String) : Option Nat :=
  if startsWith log "Resolving execution" && contains log "estimated_cost:" then do
    let after ← afterFirst "estimated_cost: ".toList log.toList
    let cost ← upTo ' ' after
    parseUnsigned 128 cost
  else none

/-- The `payment_charged` of an `execution_completed` event. -/
def readCompleted (H : Host) (log : String) : Option Nat := do
  let eventJson ← stripPrefix "EVENT_JSON:" log
  let event ← Json.parse H.jsonNumber (String.ofList eventJson)
  let eventType ← (event.get "event").bind Json.Value.asStr
  if eventType = "execution_completed" then do
    let data ← (event.get "data").bind Json.Value.asArray
    let firstData ← data.head?
    let payment ← (firstData.get "payment_charged").bind Json.Value.asStr
    parseUnsigned 128 payment
  else none

/-- What a line says the run cost. -/
def readCost (H : Host) (log : String) : Option Nat :=
  (readCharged log).or ((readEstimated log).or (readCompleted H log))

/-- The first cost named; nothing when there is none. -/
def extractPaymentFromLogs (H : Host) (outcome : FinalExecutionOutcomeView) : Nat :=
  (outcome.committedLogs.findSome? (readCost H)).getD 0

/-! ## Lines that name no cost -/

/-- No two characters are the middle of `estimated_cost`. -/
def NoCost (a b : Char) : Prop := ¬ (a = '_' ∧ b = 'c')

instance (a b : Char) : Decidable (NoCost a b) := inferInstanceAs (Decidable (¬ _))

/-- A text that does not name an estimated cost, whatever follows it. -/
structure CostFree (s : String) : Prop where
  chain : s.toList.IsChain NoCost
  last : s.toList.getLast? ≠ some '_'

theorem CostFree.append {s t : String} (hs : CostFree s) (ht : CostFree t) : CostFree (s ++ t) where
  chain := by
    rw [String.toList_append, List.isChain_append]
    refine ⟨hs.chain, ht.chain, ?_⟩
    rintro a ha b - ⟨rfl, -⟩
    exact hs.last ha
  last := by
    rw [String.toList_append, List.getLast?_append]
    intro hlast
    cases hl : t.toList.getLast? with
    | none =>
        rw [hl] at hlast
        exact hs.last hlast
    | some d =>
        rw [hl] at hlast
        exact ht.last (hl.trans hlast)

/-- A name and its value, appended. -/
theorem CostFree.field {s name value : String} (hs : CostFree s) (hname : CostFree name) (hvalue : CostFree value) :
    CostFree (s ++ name ++ value) :=
  (hs.append hname).append hvalue

/-- A text without an underscore names nothing. -/
theorem costFree_of_not_mem {s : String} (h : '_' ∉ s.toList) : CostFree s where
  chain := by
    refine (List.isChain_isInfix s.toList).imp ?_
    rintro a b hab ⟨rfl, -⟩
    exact h (hab.subset List.mem_cons_self)
  last hlast := h (List.mem_of_getLast? hlast)

theorem CostFree.not_contains {s : String} (h : CostFree s) : contains s "estimated_cost:" = false := by
  refine decide_eq_false ?_
  intro hin
  have hmiddle : ['_', 'c'] <:+: "estimated_cost:".toList := ⟨"estimated".toList, "ost:".toList, by decide⟩
  have hchain := h.chain.infix (hmiddle.trans hin)
  exact (List.isChain_pair.mp hchain) ⟨rfl, rfl⟩

/-! ## The lines of a resolution -/

theorem digits_not_mem {c : Char} (hc : c.isDigit = false) (n : Nat) : c ∉ (toString n).toList := by
  intro hmem
  have hl : (toString n).toList = Nat.toDigits 10 n := Nat.toList_repr
  rw [hl] at hmem
  rw [Nat.isDigit_of_mem_toDigits (by decide) (by decide) hmem] at hc
  cases hc

theorem costFree_nat (n : Nat) : CostFree (toString n) := costFree_of_not_mem (digits_not_mem rfl n)

theorem costFree_bool (b : Bool) : CostFree (toString b) := by
  cases b
  · exact costFree_of_not_mem (by decide)
  · exact costFree_of_not_mem (by decide)

theorem costFree_debugBytes (bs : List UInt8) : CostFree (debugBytes bs) := by
  induction bs with
  | nil => exact costFree_of_not_mem (by decide)
  | cons b bs ih =>
      cases bs with
      | nil => exact costFree_nat _
      | cons b' bs => exact ((costFree_nat _).append (costFree_of_not_mem (by decide))).append ih

theorem costFree_debugHash (d : CryptoHash) : CostFree (debugHash d) :=
  ((costFree_of_not_mem (by decide)).append (costFree_debugBytes _)).append (costFree_of_not_mem (by decide))

theorem costFree_debugOption (o : Option Nat) : CostFree (debugOption o) := by
  cases o with
  | none => exact costFree_of_not_mem (by decide)
  | some n =>
      exact ((costFree_of_not_mem (by decide)).append (costFree_nat n)).append (costFree_of_not_mem (by decide))

theorem costFree_combined (requestId : Nat) : CostFree (combinedLine requestId) :=
  (CostFree.append ⟨by decide, by decide⟩ (costFree_nat _)).append ⟨by decide, by decide⟩

theorem costFree_resolving (request : ExecutionRequest) (requestId : Nat) (response : ExecutionResponse) :
    CostFree (resolvingLine request requestId response) := by
  unfold resolvingLine
  refine CostFree.append ?_ ⟨by decide, by decide⟩
  refine CostFree.field ?_ ⟨by decide, by decide⟩ (costFree_debugOption _)
  refine CostFree.field ?_ ⟨by decide, by decide⟩ (costFree_nat _)
  refine CostFree.field ?_ ⟨by decide, by decide⟩ (costFree_nat _)
  refine CostFree.field ?_ ⟨by decide, by decide⟩ (costFree_bool _)
  refine CostFree.field ?_ ⟨by decide, by decide⟩ (costFree_bool _)
  refine CostFree.field ?_ ⟨by decide, by decide⟩ (costFree_debugHash _)
  exact CostFree.append ⟨by decide, by decide⟩ (costFree_nat _)

theorem head_append {s t : String} {c : Char} (h : s.toList.head? = some c) : (s ++ t).toList.head? = some c := by
  rw [String.toList_append, List.head?_append, h]
  rfl

/-- A line with another first character does not have the prefix. -/
theorem stripPrefix_eq_none {pre s : String} {c d : Char} (hpre : pre.toList.head? = some c)
    (hs : s.toList.head? = some d) (hne : c ≠ d) : stripPrefix pre s = none := by
  refine if_neg ?_
  intro hstarts
  obtain ⟨rest, hrest⟩ := of_decide_eq_true hstarts
  obtain ⟨cs, hcs⟩ := List.head?_eq_some_iff.mp hpre
  rw [hcs] at hrest
  rw [← hrest] at hs
  exact hne (Option.some.inj hs)

theorem stripPrefix_append (pre s : String) : stripPrefix pre (pre ++ s) = some s.toList := by
  rw [stripPrefix, if_pos, String.toList_append, List.drop_left]
  exact decide_eq_true (String.toList_append ▸ List.prefix_append _ _)

/-- A line that starts as the lines about a resolution do, and names no estimated cost, names no cost. -/
theorem readCost_of_costFree {H : Host} {log : String} {c : Char} (hhead : log.toList.head? = some c)
    (hbracket : '[' ≠ c) (hevent : 'E' ≠ c) (h : contains log "estimated_cost:" = false) : readCost H log = none := by
  have hcharged : readCharged log = none := by
    rw [readCharged, stripPrefix_eq_none (by decide) hhead hbracket]
    rfl
  have hestimated : readEstimated log = none := by simp [readEstimated, h]
  have hcompleted : readCompleted H log = none := by
    rw [readCompleted, stripPrefix_eq_none (by decide) hhead hevent]
    rfl
  rw [readCost, hcharged, hestimated, hcompleted]
  rfl

theorem readCost_resolving (H : Host) (request : ExecutionRequest) (requestId : Nat) (response : ExecutionResponse) :
    readCost H (resolvingLine request requestId response) = none := by
  have hhead : (resolvingLine request requestId response).toList.head? = some 'R' := by
    unfold resolvingLine
    repeat' apply head_append
    decide
  exact readCost_of_costFree hhead (by decide) (by decide) (costFree_resolving _ _ _).not_contains

theorem readCost_combined (H : Host) (requestId : Nat) : readCost H (combinedLine requestId) = none := by
  have hhead : (combinedLine requestId).toList.head? = some 'R' := by
    unfold combinedLine
    repeat' apply head_append
    decide
  exact readCost_of_costFree hhead (by decide) (by decide) (costFree_combined _).not_contains

theorem readCost_stored (H : Host) (requestId : Nat) (dataId : CryptoHash) :
    readCost H (storedLine requestId dataId) = none := by
  have hhead : (storedLine requestId dataId).toList.head? = some 'S' := by
    unfold storedLine
    repeat' apply head_append
    decide
  have hfree : CostFree (storedLine requestId dataId) :=
    ((CostFree.append ⟨by decide, by decide⟩ (costFree_nat _)).append ⟨by decide, by decide⟩).append
      (costFree_debugHash _)
  exact readCost_of_costFree hhead (by decide) (by decide) hfree.not_contains

/-- **The line made for the cost** is read as it. -/
theorem readCost_charged (H : Host) {cost : Nat} (h : cost < 2 ^ 128) : readCost H (chargedLine cost) = some cost := by
  have htext : chargedLine cost = "[[yNEAR charged: \"" ++ (toString cost ++ "\"]]") := String.append_assoc
  have hstrip :
      stripPrefix "[[yNEAR charged: \"" (chargedLine cost) = some ((toString cost).toList ++ "\"]]".toList) := by
    rw [htext, stripPrefix_append, String.toList_append]
  have hquote : '"' ∉ (toString cost).toList := digits_not_mem rfl cost
  have hupTo : upTo '"' ((toString cost).toList ++ "\"]]".toList) = some (toString cost) := by
    rw [upTo, if_pos (List.mem_append_right _ (by decide)), List.takeWhile_append_of_pos]
    · have hend : "\"]]".toList.takeWhile (· ≠ '"') = [] := by decide
      rw [hend, List.append_nil, String.ofList_toList]
    · intro c hc
      exact decide_eq_true (fun heq => hquote (heq ▸ hc))
  have hread : readCharged (chargedLine cost) = some cost := by
    simp only [readCharged, hstrip, hupTo, Option.bind_eq_bind, Option.bind_some, parseUnsigned_toString h]
  rw [readCost, hread]
  rfl

/-- A cost fits 128 bits. -/
theorem calculateCost_lt {c : Config} {m : ResourceMetrics} {cost : Nat} (h : calculateCost c m = .ok cost) :
    cost < 2 ^ 128 := by
  unfold calculateCost at h
  obtain ⟨_, -, h⟩ := bind_eq_ok.mp h
  obtain ⟨_, -, h⟩ := bind_eq_ok.mp h
  split at h
  · simp only [bind_eq_ok, add_eq_ok] at h
    obtain ⟨_, -, _, -, _, -, hlt, rfl⟩ := h
    exact hlt
  · simp only [bind_eq_ok, add_eq_ok] at h
    obtain ⟨_, -, _, -, _, -, hlt, rfl⟩ := h
    exact hlt

/-- **What is read from the logs of a resolution** is the cost it calculated. -/
theorem extract_resolution {H : Host} {c : Config} {request : ExecutionRequest} {call : Call} {requestId cost : Nat}
    {response : ExecutionResponse} {logs : List String} {outcome : FinalExecutionOutcomeView}
    (resolution : call.resolution = some (requestId, response))
    (costs : calculateCost c response.resourcesUsed = .ok cost) (logged : call.resolutionLogs c request = .ok logs)
    (committed : outcome.committedLogs = logs) : extractPaymentFromLogs H outcome = cost := by
  have hcharged := readCost_charged H (calculateCost_lt costs)
  cases call with
  | resolveExecution id x =>
      cases resolution
      simp only [Call.resolutionLogs, resolveExecutionInternalLogs, costs, bind_eq_ok, Except.ok.injEq, pure_eq_ok]
        at logged
      obtain ⟨_, rfl, rfl⟩ := logged
      simp only [extractPaymentFromLogs, committed, List.findSome?_cons, readCost_resolving, hcharged,
        Option.getD_some]
  | submitExecutionOutputAndResolve id output success error used note =>
      cases resolution
      simp only [Call.resolutionLogs, resolveExecutionInternalLogs, costs, bind_eq_ok, Except.ok.injEq, pure_eq_ok]
        at logged
      obtain ⟨_, ⟨_, rfl, rfl⟩, rfl⟩ := logged
      simp only [extractPaymentFromLogs, committed, List.findSome?_cons, readCost_stored, readCost_combined,
        readCost_resolving, hcharged, Option.getD_some]
  | _ => cases resolution

end Worker

end Outlayer
