import Outlayer.Contract.LedgerSteps
import Outlayer.Contract.Replay

/-!
# `Contract.Correctness.Prices` — what is on a price list can be bought

The owner's check of a price list and the reader of a request body decide separately what an operation name
is. They agree on the names that are their own trimmed form and short enough to be written into a body; a row
under any other name is published and cannot be bought.
-/

namespace Outlayer
open Text Checked Collections Balances

/-! ## What the owner's check establishes -/

/-- A checked price list has non-blank names, new and distinct. -/
theorem checkOperations_ok {seen : List String} {ops : List OperationPrice}
    (h : checkOperations seen ops = .ok ()) :
    (∀ op ∈ ops, trim op.operation ≠ "" ∧ op.operation ∉ seen) ∧
      ops.Pairwise (fun a b => a.operation ≠ b.operation) := by
  induction ops generalizing seen with
  | nil => exact ⟨fun _ h => absurd h List.not_mem_nil, List.Pairwise.nil⟩
  | cons op ops ih =>
      simp only [checkOperations, bind_eq_ok, require_eq_ok] at h
      obtain ⟨_, hname, _, -, _, hnew, h⟩ := h
      obtain ⟨hrest, hpair⟩ := ih h
      have hdistinct : ∀ o ∈ ops, op.operation ≠ o.operation := by
        intro o ho he
        exact (hrest o ho).2 (by simp [he])
      refine ⟨?_, List.pairwise_cons.mpr ⟨hdistinct, hpair⟩⟩
      intro o ho
      rcases List.mem_cons.mp ho with rfl | ho
      · exact ⟨hname, hnew⟩
      · exact ⟨(hrest o ho).1, fun hs => (hrest o ho).2 (List.mem_append_left _ hs)⟩

/-- An accepted price list, row by row. -/
theorem setProjectPricing_ok {env : Env} {c : Contract} {projectId : String} {pricing : ProjectPricing}
    {table : PriceTable} (h : setProjectPricing env c projectId pricing = .ok table) :
    c.projects.lookup projectId ≠ none ∧ checkOperations [] pricing.operations = .ok () ∧
      table = ⟨c.projectPricing.insert projectId pricing⟩ := by
  simp only [setProjectPricing, bind_eq_ok, require_eq_ok, pure_eq_ok] at h
  obtain ⟨_, -, _, hproject, _, -, _, -, _, hops, rfl⟩ := h
  exact ⟨hproject, hops, rfl⟩

/-- In a list of distinct operations, an operation's price is its row's. -/
theorem priceForOperation_mem {pricing : ProjectPricing} {op : OperationPrice}
    (hdistinct : pricing.operations.Pairwise (fun a b => a.operation ≠ b.operation))
    (hmem : op ∈ pricing.operations) : priceForOperation pricing op.operation = some op.priceUsd := by
  unfold priceForOperation
  generalize pricing.operations = ops at hdistinct hmem
  induction ops with
  | nil => cases hmem
  | cons o ops ih =>
      obtain ⟨hne, hpair⟩ := List.pairwise_cons.mp hdistinct
      rcases List.mem_cons.mp hmem with rfl | hmem
      · simp
      · rw [List.find?_cons_of_neg (by simpa using hne op hmem)]
        exact ih hpair hmem

/-! ## Which names a request body can name -/

/-- A name that is its own trimmed form, and whose one-member object is within the size limit. -/
def NameFits (name : String) : Prop :=
  trim name = name ∧ 16 + Json.escapedSize name ≤ maxPricedInputBytes

instance (name : String) : Decidable (NameFits name) := inferInstanceAs (Decidable (_ ∧ _))

theorem operationFromInput_ok {H : Host} {inputData : Option String} {operation : String}
    (h : operationFromInput H inputData = .ok operation) :
    (inputData.getD "").utf8ByteSize ≤ maxPricedInputBytes ∧ operation ≠ "" ∧
      ∃ v s, Json.parse H.jsonNumber (inputData.getD "") = some v ∧
        v.get operationField = some (.str s) ∧ operation = trim s := by
  unfold operationFromInput at h
  dsimp only at h
  split at h
  · cases h
  · next hsize =>
      split at h
      · cases h
      · next v hv =>
          split at h
          · cases h
          · next s hs =>
              split at h
              · cases h
              · next hne =>
                  cases h
                  simp only [Option.map_eq_some_iff, Option.bind_eq_some_iff] at hs
                  obtain ⟨raw, ⟨x, hx, hraw⟩, rfl⟩ := hs
                  refine ⟨Nat.le_of_not_lt hsize, hne, v, raw, hv, ?_, rfl⟩
                  cases x with
                  | str _ =>
                      cases hraw
                      exact hx
                  | _ => cases hraw

/-- **The names that can be bought.** A body naming exactly `name` exists if and only if the name fits. -/
theorem exists_input_iff {H : Host} {name : String} (hne : trim name ≠ "") :
    (∃ input, operationFromInput H (some input) = .ok name) ↔ NameFits name := by
  have hkey : Json.escapedSize operationField = 9 := by decide
  constructor
  · rintro ⟨input, h⟩
    obtain ⟨hsize, -, v, s, hv, hget, rfl⟩ := operationFromInput_ok h
    -- however the body spells the name, it is no shorter than the one-member object
    have hlong := Json.escapedSize_le_of_parse hv hget
    have hshort := Json.escapedSize_le_of_sublist (trim_toList_sublist s)
    refine ⟨trim_trim s, ?_⟩
    simp only [Option.getD_some] at hsize hlong
    omega
  · rintro ⟨htrim, hsize⟩
    refine ⟨Json.singleton operationField name, ?_⟩
    have hlen := Json.size_singleton operationField name
    unfold operationFromInput
    simp only [Option.getD_some]
    rw [if_neg (by omega), Json.parse_singleton]
    simp only [Json.Value.get, List.lookup_cons_self, Option.bind_some, Json.Value.asStr, Option.map_some, htrim]
    rw [if_neg (htrim ▸ hne)]

/-! ## Admission on a priced project -/

/-- Everything the admission of a run asks for besides the price. -/
structure Admissible (H : Host) (env : Env) (c : Contract) (a : RequestArgs) : Prop where
  open_ : c.paused = false
  secrets : assertSecretsRef H a.secretsRef = .ok ()
  resolves : ∃ resolved uuid, resolveExecutionSource c a.source = .ok (resolved, uuid) ∧
    assertParams resolved (a.params.getD {}) a.compileOnly a.inputData = .ok ()
  runs : a.compileOnly = false
  caps : assertHardCaps a.limits = .ok ()
  payment : ∃ cost, estimateCost c.toConfig a.limits = .ok cost ∧
    cost + inputStorageDeposit a.inputLen ≤ env.attachedDeposit
  balance : a.attachedUsd ≤ balance c.userStablecoinBalances env.predecessor
  ids : c.nextRequestId + 1 < 2 ^ 64

section Admission
variable {H : Host} {env : Env} {c : Contract} {a : RequestArgs} {projectId : String} {pricing : ProjectPricing}

/-- An admissible request on a project is admitted when its price is paid. -/
theorem admitted_of_price (had : Admissible H env c a) (hproject : a.source.projectId = some projectId)
    (hprice : assertPricePaid H c a.source a.inputData a.attachedUsd = .ok ()) :
    ∃ l es, requestExecution H env c a = .ok (l, es) := by
  obtain ⟨resolved, uuid, hresolve, hparams⟩ := had.resolves
  obtain ⟨cost, hcost, hpay⟩ := had.payment
  have hinline : assertInlineSource a.source resolved = .ok () := by
    cases hs : a.source with
    | project _ _ => rfl
    | _ =>
        rw [hs] at hproject
        cases hproject
  have hadmission : admissionCost H c a = .ok cost := by
    rw [admissionCost, if_neg (by simp [had.runs])]
    simp only [bind_eq_ok, pure_eq_ok]
    exact ⟨(), had.caps, cost, hcost, (), hprice, rfl⟩
  obtain ⟨l, hl⟩ : ∃ l, takeAttachedUsd env c.toLedger a.source a.attachedUsd = .ok l := by
    unfold takeAttachedUsd
    split
    · simp only [bind_eq_ok, require_eq_ok, pure_eq_ok]
      exact ⟨_, (), by simp [hproject], (), had.balance, rfl⟩
    · exact ⟨_, rfl⟩
  have hid : l.nextRequestId + 1 < 2 ^ 64 := (takeAttachedUsd_credits hl).next ▸ had.ids
  exact ⟨_, _, requestExecution_eq_ok had.open_ had.secrets hresolve hinline hparams hadmission hl hpay hid⟩

/-- The price check on a priced project. -/
theorem assertPricePaid_iff {attachedUsd : Nat} {inputData : Option String} {source : ExecutionSource}
    (hproject : source.projectId = some projectId)
    (hpriced : c.projectPricing.lookup projectId = some pricing) :
    assertPricePaid H c source inputData attachedUsd = .ok () ↔
      ∃ operation price, operationFromInput H inputData = .ok operation ∧
        priceForOperation pricing operation = some price ∧ price ≤ attachedUsd := by
  unfold assertPricePaid
  rw [hproject]
  dsimp only
  rw [hpriced]
  dsimp only
  cases hop : operationFromInput H inputData with
  | error e =>
      simp only [throw_ne_ok, reduceCtorEq, false_and, exists_false]
  | ok operation =>
      simp only [bind_eq_ok, expect_eq_ok, require_eq_ok, Except.ok.injEq]
      constructor
      · rintro ⟨price, hprice, hle⟩
        exact ⟨operation, price, rfl, hprice, hle⟩
      · rintro ⟨_, price, rfl, hprice, hle⟩
        exact ⟨price, hprice, hle⟩

/-- A price found is a row's price. -/
theorem mem_of_priceForOperation {operation : String} {price : Nat}
    (h : priceForOperation pricing operation = some price) :
    ∃ op ∈ pricing.operations, op.operation = operation ∧ op.priceUsd = price := by
  simp only [priceForOperation, Option.map_eq_some_iff] at h
  obtain ⟨op, hfind, hprice⟩ := h
  exact ⟨op, List.mem_of_find?_eq_some hfind, by simpa using List.find?_some hfind, hprice⟩

end Admission

/-! ## The price list and the market -/

/-- Row `op` of a project's price list can be bought: some body names exactly its operation, and a run with that
    body and exactly its price attached is admitted wherever nothing but the price could stop it. -/
def Sellable (H : Host) (projectId : String) (pricing : ProjectPricing) (op : OperationPrice) : Prop :=
  ∃ input, operationFromInput H (some input) = .ok op.operation ∧
    ∀ env c a, c.projectPricing.lookup projectId = some pricing → a.source.projectId = some projectId →
      a.inputData = some input → a.attachedUsd = op.priceUsd → Admissible H env c a →
      ∃ l es, requestExecution H env c a = .ok (l, es)

/-- **Every published operation can be bought exactly when its name fits**, and nothing else is sold: a run on a
    priced project is admitted only for a row its body names, with at least that row's price attached. -/
theorem published_operations_sellable_iff {H : Host} {env : Env} {c : Contract} {projectId : String}
    {pricing : ProjectPricing} {table : PriceTable}
    (h : setProjectPricing env c projectId pricing = .ok table) :
    (∀ op ∈ pricing.operations, Sellable H projectId pricing op ↔ NameFits op.operation) ∧
      ∀ env' c' a l es, c'.projectPricing.lookup projectId = some pricing →
        a.source.projectId = some projectId → a.compileOnly = false →
        requestExecution H env' c' a = .ok (l, es) →
        ∃ op ∈ pricing.operations, operationFromInput H a.inputData = .ok op.operation ∧
          op.priceUsd ≤ a.attachedUsd := by
  obtain ⟨-, hops, -⟩ := setProjectPricing_ok h
  obtain ⟨hnames, hdistinct⟩ := checkOperations_ok hops
  constructor
  · intro op hop
    constructor
    · rintro ⟨input, hinput, -⟩
      exact (exists_input_iff (hnames op hop).1).mp ⟨input, hinput⟩
    · intro hfits
      obtain ⟨input, hinput⟩ := (exists_input_iff (hnames op hop).1).mpr hfits
      refine ⟨input, hinput, ?_⟩
      intro env' c' a hpriced hproject hdata husd had
      refine admitted_of_price had hproject ((assertPricePaid_iff hproject hpriced).mpr ?_)
      rw [hdata, husd]
      exact ⟨op.operation, op.priceUsd, hinput, priceForOperation_mem hdistinct hop, Nat.le_refl _⟩
  · intro env' c' a l es hpriced hproject hruns hadmitted
    obtain ⟨cost, hcost, -⟩ := (requestExecution_admits hadmitted).cost
    rw [admissionCost, if_neg (by simp [hruns])] at hcost
    simp only [bind_eq_ok] at hcost
    -- a run that was admitted has passed the price check
    obtain ⟨_, -, _, -, _, hpaid, -⟩ := hcost
    obtain ⟨operation, price, hop, hprice, hle⟩ := (assertPricePaid_iff hproject hpriced).mp hpaid
    obtain ⟨op, hmem, rfl, rfl⟩ := mem_of_priceForOperation hprice
    exact ⟨op, hmem, hop, hle⟩

/-- A price list of one row. -/
def oneRow (operation : String) : ProjectPricing := ⟨aliceAccount, [⟨operation, 5, 1000⟩]⟩

/-- Alice registers a project. -/
def registered : List Event :=
  [callBy aliceAccount (.createProject "app" (.gitHub "alice/app" "main" none)) (10 ^ 24)]

/-- A plainly named operation is accepted, and sold. -/
theorem plain_operation_sellable : ∃ tr w table,
    World.History asciiHost ownerAccount none none none tr w ∧
    setProjectPricing (envOf ownerAccount 0 0 0) w.contract "alice.near/app" (oneRow "run") = .ok table ∧
    Sellable asciiHost "alice.near/app" (oneRow "run") ⟨"run", 5, 1000⟩ := by
  obtain ⟨tr, w, h, hp⟩ := exists_history registered
    (fun x => (setProjectPricing (envOf ownerAccount 0 0 0) x.2.contract "alice.near/app"
      (oneRow "run")).toBool) (by decide +kernel)
  cases htable : setProjectPricing (envOf ownerAccount 0 0 0) w.contract "alice.near/app" (oneRow "run") with
  | error e =>
      rw [htable] at hp
      cases hp
  | ok table =>
      exact ⟨tr, w, table, h, htable, ((published_operations_sellable_iff htable).1 _
        List.mem_cons_self).mpr (by decide +kernel)⟩

/-- A name with a blank in front is accepted too; no body names it. -/
theorem blank_operation_unsellable : ∃ tr w,
    World.History asciiHost ownerAccount none none none tr w ∧
    w.contract.projectPricing.lookup "alice.near/app" = some (oneRow " run") ∧
    ¬ ∃ input, operationFromInput asciiHost (some input) = .ok " run" := by
  obtain ⟨tr, w, h, hp⟩ := exists_history
    (registered ++ [callBy ownerAccount (.setProjectPricing "alice.near/app" (oneRow " run"))])
    (fun x => decide (x.2.contract.projectPricing.lookup "alice.near/app" = some (oneRow " run")))
    (by decide +kernel)
  refine ⟨tr, w, h, of_decide_eq_true hp, ?_⟩
  rw [exists_input_iff (by decide +kernel)]
  decide +kernel

end Outlayer
