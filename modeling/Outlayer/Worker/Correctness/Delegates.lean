import Outlayer.Worker.Correctness.Restarts

/-!
# `Worker.Correctness.Delegates` — who a meta-transaction runs as

The call a `Delegate` action made looks like a call of its relayer. The worker tells it by the block of the `Delegate`,
which it remembers once it has read it, and looks it up when it reads the block of the call: what it does not know then
it does not learn later, since an event is kept as it was read. So the call runs as its sender in every run in which the
`Delegate` was read first, and is still remembered; `late_delegate_runs_as_relayer` is a run in which it was read after.
-/

namespace Outlayer
open Backlog Checked Json Stateful

namespace Monitor

/-! ## What is remembered -/

section Remembering
variable {d : DelegatedCalls} {receiptId : String} {delegated : Delegated}

theorem DelegatedCalls.lookup_insert {id : String} :
    (d.insert id delegated).lookup receiptId = if receiptId = id then some delegated else d.lookup receiptId := by
  unfold DelegatedCalls.insert DelegatedCalls.lookup
  rw [OrderedMap.lookup_cons]
  split
  · rfl
  · next hne =>
      exact OrderedMap.lookup_filter fun _ _ => decide_eq_true hne

/-- What is young enough stays. -/
theorem DelegatedCalls.lookup_prune {block : Nat}
    (h : ∀ delegated, d.lookup receiptId = some delegated → block ≤ delegated.block + delegatedTtlBlocks) :
    (d.prune block).lookup receiptId = d.lookup receiptId :=
  OrderedMap.lookup_filter fun delegated hd => decide_eq_true (h delegated hd)

/-- Of the delegates of a receipt remembered one after the other, one is remembered in the end. -/
theorem lookup_inserts (made : List (String × Delegated)) :
    ((made.foldl (fun d e => d.insert e.1 e.2) d).lookup receiptId = d.lookup receiptId ∧
      receiptId ∉ made.map Prod.fst) ∨
    ∃ delegated, (made.foldl (fun d e => d.insert e.1 e.2) d).lookup receiptId = some delegated ∧
      (receiptId, delegated) ∈ made := by
  induction made generalizing d with
  | nil => exact Or.inl ⟨rfl, List.not_mem_nil⟩
  | cons e made ih =>
      rw [List.foldl_cons, List.map_cons, List.mem_cons]
      rcases ih (d := d.insert e.1 e.2) with ⟨hsame, hnot⟩ | ⟨delegated, hlookup, hmem⟩
      · rw [hsame, DelegatedCalls.lookup_insert]
        by_cases he : receiptId = e.1
        · rw [if_pos he, he]
          exact Or.inr ⟨e.2, rfl, List.mem_cons_self⟩
        · rw [if_neg he]
          exact Or.inl ⟨rfl, not_or.mpr ⟨he, hnot⟩⟩
      · exact Or.inr ⟨delegated, hlookup, List.mem_cons_of_mem _ hmem⟩

/-- The delegates of a block's receipts. -/
def delegatesIn (S : Setup) (height : Nat) (shards : List ShardData) : List (String × Delegated) :=
  (outcomes shards).flatMap fun outcome => delegatedBy outcome S.contractId height

theorem scan_eq (S : Setup) (shards : List ShardData) (height : Nat) :
    d.scan S shards height = (delegatesIn S height shards).foldl (fun d e => d.insert e.1 e.2) (d.prune height) := by
  unfold DelegatedCalls.scan delegatesIn
  rw [List.foldl_flatMap]
  rfl

end Remembering

/-! ## Meta-transactions -/

/-- A committed receipt whose `Delegate` action, signed by `sender` and sent by `relayer`, called the contract by the
    receipt `child`. -/
structure ReceiptExecutionOutcome.Delegates (outcome : ReceiptExecutionOutcome)
    (contractId child sender relayer : String) : Prop where
  committed : outcome.committed = true
  action : ∃ details action delegate, outcome.details = some details ∧ details.signerId = some relayer ∧
    action ∈ details.actions ∧ (action.get "Delegate").bind (fun d => d.get "delegate_action") = some delegate ∧
    (delegate.get "receiver_id").bind Value.asStr = some contractId ∧
    (delegate.get "sender_id").bind Value.asStr = some sender
  made : child ∈ (outcome.result.bind Outcome.receiptIds).getD []

section Recording
variable {outcome : ReceiptExecutionOutcome} {contractId child sender relayer : String} {block : Nat}

theorem delegateOf_eq_some {action : Value} {found : String × Option String} :
    delegateOf contractId action = some found ↔
      ∃ delegate, (action.get "Delegate").bind (fun d => d.get "delegate_action") = some delegate ∧
        (delegate.get "receiver_id").bind Value.asStr = some contractId ∧
        (delegate.get "sender_id").bind Value.asStr = some found.1 ∧
        (delegate.get "public_key").bind Value.asStr = found.2 := by
  unfold delegateOf
  cases (action.get "Delegate").bind fun d => d.get "delegate_action" with
  | none => simp
  | some delegate =>
      by_cases hours : (delegate.get "receiver_id").bind Value.asStr = some contractId
      · cases hsender : (delegate.get "sender_id").bind Value.asStr with
        | none => simp [hours, hsender]
        | some sender => simp [hours, hsender, Prod.ext_iff]
      · simp [hours]

/-- What is recorded of a receipt is what its `Delegate` actions made. -/
theorem mem_delegatedBy {delegated : Delegated} (h : (child, delegated) ∈ delegatedBy outcome contractId block) :
    outcome.Delegates contractId child delegated.senderId delegated.relayerId ∧ delegated.block = block := by
  unfold delegatedBy at h
  cases hdetails : outcome.details with
  | none =>
      rw [hdetails] at h
      cases h
  | some details =>
      rw [hdetails] at h
      dsimp only at h
      cases hsigner : details.signerId with
      | none =>
          rw [hsigner] at h
          cases h
      | some signer =>
          rw [hsigner] at h
          dsimp only at h
          by_cases hcommitted : outcome.committed = true
          · rw [if_pos hcommitted] at h
            obtain ⟨found, hfound, hchild⟩ := List.mem_flatMap.mp h
            obtain ⟨id, hid, heq⟩ := List.mem_map.mp hchild
            obtain ⟨action, haction, hdelegate⟩ := List.mem_filterMap.mp hfound
            obtain ⟨delegate, hget, hours, hsender, -⟩ := delegateOf_eq_some.mp hdelegate
            cases heq
            exact ⟨⟨hcommitted, ⟨details, action, delegate, hdetails, hsigner, haction, hget, hours, hsender⟩, hid⟩,
              rfl⟩
          · rw [if_neg hcommitted] at h
            cases h

/-- Every receipt a `Delegate` action made is recorded. -/
theorem ReceiptExecutionOutcome.Delegates.recorded (h : outcome.Delegates contractId child sender relayer) :
    ∃ publicKey, (child, ⟨sender, relayer, publicKey, block⟩) ∈ delegatedBy outcome contractId block := by
  obtain ⟨details, action, delegate, hdetails, hsigner, haction, hget, hours, hsender⟩ := h.action
  refine ⟨(delegate.get "public_key").bind Value.asStr, ?_⟩
  unfold delegatedBy
  rw [hdetails]
  dsimp only
  rw [hsigner]
  dsimp only
  rw [if_pos h.committed]
  refine List.mem_flatMap.mpr ⟨(sender, (delegate.get "public_key").bind Value.asStr), ?_, ?_⟩
  · exact List.mem_filterMap.mpr ⟨action, haction, delegateOf_eq_some.mpr ⟨delegate, hget, hours, hsender, rfl⟩⟩
  · exact List.mem_map.mpr ⟨child, h.made, rfl⟩

end Recording

/-- The receipts of a block. -/
def BlockData.outcomes (block : BlockData) : List ReceiptExecutionOutcome := Monitor.outcomes (block.shards.getD [])

/-- A call of the contract that `sender` signed in a `Delegate` action and `relayer` sent: the `Delegate` in block `b`
    made the receipt `child`, which executes in block `h`. Ids of receipts are not used again. -/
structure MetaCall (S : Setup) (chain : Nat → BlockData) (child sender relayer : String) (b h : Nat) : Prop where
  relayed : sender ≠ relayer
  made : ∃ outcome ∈ (chain b).outcomes, outcome.Delegates S.contractId child sender relayer
  made_once : ∀ x outcome s r, outcome ∈ (chain x).outcomes → outcome.Delegates S.contractId child s r →
    x = b ∧ s = sender ∧ r = relayer
  runs : ∀ x outcome, outcome ∈ (chain x).outcomes → outcome.metadata.receiptId = some child →
    x = h ∧ outcome.metadata.predecessorId = some sender ∧ outcome.metadata.signerId = some relayer
  after : b < h
  soon : h ≤ b + delegateLookbackBlocks

section Attributing
variable {S : Setup} {chain : Nat → BlockData} {child sender relayer : String} {b h : Nat}

/-- The call's delegate is remembered. -/
def Knows (child sender relayer : String) (b : Nat) (d : DelegatedCalls) : Prop :=
  ∃ publicKey, d.lookup child = some ⟨sender, relayer, publicKey, b⟩

/-- Reading the block of the `Delegate`, the call's delegate is remembered; and it stays remembered while younger blocks
    are read. -/
theorem MetaCall.knows (call : MetaCall S chain child sender relayer b h) {d : DelegatedCalls} {x : Nat}
    (hx : x = b ∨ (x ≤ b + delegatedTtlBlocks ∧ Knows child sender relayer b d)) :
    Knows child sender relayer b (scanned S d x (chain x)).2 := by
  obtain ⟨outcome, hmem, hdelegates⟩ := call.made
  unfold scanned
  cases hshards : (chain x).shards with
  | none =>
      rcases hx with rfl | ⟨-, hknows⟩
      · rw [BlockData.outcomes, hshards] at hmem
        cases hmem
      · exact hknows
  | some shards =>
      show Knows child sender relayer b (d.scan S shards x)
      unfold Knows
      rw [scan_eq]
      rcases @lookup_inserts (d.prune x) child (delegatesIn S x shards) with
        ⟨hsame, hnot⟩ | ⟨delegated, hlookup, hrecorded⟩
      · rcases hx with rfl | ⟨hle, publicKey, hd⟩
        · -- the receipt of the `Delegate` is in the block, so its child is recorded
          obtain ⟨publicKey, hrecorded⟩ := @ReceiptExecutionOutcome.Delegates.recorded _ _ _ _ _ x hdelegates
          rw [BlockData.outcomes, hshards] at hmem
          have hin : _ ∈ delegatesIn S x shards := List.mem_flatMap.mpr ⟨outcome, hmem, hrecorded⟩
          exact absurd (List.mem_map_of_mem hin) hnot
        · refine ⟨publicKey, ?_⟩
          rw [hsame, DelegatedCalls.lookup_prune, hd]
          intro delegated hdelegated
          obtain rfl := Option.some.inj (hd.symm.trans hdelegated)
          exact hle
      · obtain ⟨outcome', hmem', hby⟩ := List.mem_flatMap.mp hrecorded
        obtain ⟨hdelegates', hblock⟩ := mem_delegatedBy hby
        have hin : outcome' ∈ (chain x).outcomes := by
          rw [BlockData.outcomes, hshards]
          exact hmem'
        obtain ⟨rfl, hs, hr⟩ := call.made_once x outcome' _ _ hin hdelegates'
        refine ⟨delegated.publicKey, ?_⟩
        rw [hlookup, ← hs, ← hr, ← hblock]

/-- An event of a block is one of its receipts', told of it. -/
theorem mem_scanned_iff {d : DelegatedCalls} {x : Nat} {block : BlockData} {event : ContractEvent} :
    event ∈ (scanned S d x block).1 ↔
      ∃ outcome ∈ block.outcomes, event ∈ receiptEvents S (scanned S d x block).2 x outcome := by
  unfold scanned BlockData.outcomes
  cases block.shards with
  | none => simp [outcomes]
  | some shards => exact List.mem_flatMap

/-- An execution a receipt asked for, told of it. -/
theorem attach_execution {d : DelegatedCalls} {receipt : Receipt} {event : ContractEvent} {e : ExecutionRequestedEvent}
    (h : attach d receipt event = .executionRequested e) :
    e.receipt.receiptId = receipt.receiptId ∧ e.receipt.predecessorId = receipt.predecessorId ∧
    ((receipt.receiptId.bind fun id => d.metaTransaction id receipt.predecessorId receipt.signerId) = none ∨
      ∃ found, (receipt.receiptId.bind fun id =>
          d.metaTransaction id receipt.predecessorId receipt.signerId) = some found ∧
        e.relayerId = some found.relayerId) := by
  cases event with
  | executionRequested request =>
      simp only [attach] at h
      split at h
      · next hnone =>
          obtain rfl := ContractEvent.executionRequested.inj h
          exact ⟨rfl, rfl, Or.inl hnone⟩
      · next found hfound =>
          obtain rfl := ContractEvent.executionRequested.inj h
          exact ⟨rfl, rfl, Or.inr ⟨found, hfound, rfl⟩⟩
  | _ => cases h

theorem receiptEvents_execution {d : DelegatedCalls} {x : Nat} {outcome : ReceiptExecutionOutcome}
    {e : ExecutionRequestedEvent} (h : .executionRequested e ∈ receiptEvents S d x outcome) :
    ∃ event, attach d outcome.metadata event = .executionRequested e := by
  unfold receiptEvents at h
  split at h
  · obtain ⟨log, -, hevent⟩ := List.mem_filterMap.mp h
    obtain ⟨event, -, hattach⟩ := Option.map_eq_some_iff.mp hevent
    exact ⟨event, hattach⟩
  · cases h

/-- The call is read in its block. -/
theorem MetaCall.read_in (call : MetaCall S chain child sender relayer b h) {d : DelegatedCalls} {x : Nat}
    {e : ExecutionRequestedEvent} (he : .executionRequested e ∈ (scanned S d x (chain x)).1)
    (hchild : e.receipt.receiptId = some child) : x = h := by
  obtain ⟨outcome, hmem, hevent⟩ := mem_scanned_iff.mp he
  obtain ⟨event, hattach⟩ := receiptEvents_execution hevent
  exact (call.runs x outcome hmem ((attach_execution hattach).1.symm.trans hchild)).1

/-- Read while its delegate is remembered, the call is known for its sender's. -/
theorem MetaCall.attributed (call : MetaCall S chain child sender relayer b h) {d : DelegatedCalls}
    (hknows : Knows child sender relayer b d) {e : ExecutionRequestedEvent}
    (he : .executionRequested e ∈ (scanned S d h (chain h)).1) (hchild : e.receipt.receiptId = some child) :
    e.relayerId = some relayer ∧ e.receipt.predecessorId = some sender := by
  have hyoung : h ≤ b + delegatedTtlBlocks := call.soon.trans (Nat.add_le_add_left (by decide) b)
  obtain ⟨publicKey, hlookup⟩ := call.knows (Or.inr ⟨hyoung, hknows⟩)
  obtain ⟨outcome, hmem, hevent⟩ := mem_scanned_iff.mp he
  obtain ⟨event, hattach⟩ := receiptEvents_execution hevent
  obtain ⟨hreceipt, hpredecessor, hcases⟩ := attach_execution hattach
  have hid : outcome.metadata.receiptId = some child := hreceipt.symm.trans hchild
  obtain ⟨-, hsender, hrelayer⟩ := call.runs h outcome hmem hid
  have hfound : (outcome.metadata.receiptId.bind fun id => (scanned S d h (chain h)).2.metaTransaction id
      outcome.metadata.predecessorId outcome.metadata.signerId) = some ⟨relayer, publicKey⟩ := by
    rw [hid, hsender, hrelayer, Option.bind_some, DelegatedCalls.metaTransaction, hlookup]
    exact if_pos ⟨rfl, rfl, call.relayed⟩
  rcases hcases with hnone | ⟨found, hsome, hrelayed⟩
  · rw [hfound] at hnone
    cases hnone
  · obtain rfl := Option.some.inj (hfound.symm.trans hsome)
    exact ⟨hrelayed, hpredecessor.trans hsender⟩

end Attributing

/-! ## The task of a call -/

/-- A task is for the receipt of its event; a meta-transaction's runs for the receipt's predecessor, any other for the
    account the contract names as its signer. -/
theorem handleExecutionRequested_task {H : Host} {debug : Option String → String} {V : Views} {contractId : String}
    {e : ExecutionRequestedEvent} {params : CreateTaskParams}
    (h : handleExecutionRequested H debug V contractId e = .ok params) :
    params.context.receiptId = e.receipt.receiptId ∧ params.context.relayerId = e.relayerId ∧
    ∀ relayer sender, e.relayerId = some relayer → e.receipt.predecessorId = some sender →
      params.userAccountId = some sender := by
  simp only [handleExecutionRequested, bind_eq_ok, expect_eq_ok, pure_eq_ok] at h
  obtain ⟨data, -, raw, -, u, hreceipt, ⟨pending, viewedAt⟩, -, uuid, -, v, -, user, huser, input, -, rfl⟩ := h
  refine ⟨rfl, rfl, ?_⟩
  intro relayer sender hrelayer hsender
  obtain ⟨-, hsame⟩ := receiptMismatch_eq_none.mp (unlessMismatch_eq_ok.mp hreceipt)
  -- a predecessor the contract names is the receipt's
  have hnamed : data.predecessorId.or e.receipt.predecessorId = some sender := by
    cases hdata : data.predecessorId with
    | none => exact hsender
    | some named => exact (hsame named hdata).symm.trans hsender
  simp only [taskUser, hrelayer, hnamed, expect_eq_ok] at huser
  exact huser ▸ rfl

/-! ## Runs -/

/-- The block of the `Delegate` was read, and its entry has not run out since. -/
def InMind (b : Nat) (acts : List Act) : Prop :=
  ∃ before delegates later, acts = before ++ .scanned b delegates :: later ∧
    ∀ x events, .scanned x events ∈ later → x ≤ b + delegatedTtlBlocks

/-- Whenever the call's block is read, the block of its `Delegate` was read before and is in mind. -/
def ReadInTime (b h : Nat) (acts : List Act) : Prop :=
  ∀ before events later, acts = before ++ .scanned h events :: later → InMind b before

section Traces
variable {α : Type} {a a' : α} {l more before later : List α}

/-- Where something stands in a list, when it is not in the end of it. -/
theorem split_append (hmore : a ∉ more) (h : l ++ more = before ++ a :: later) :
    ∃ later', l = before ++ a :: later' ∧ later = later' ++ more := by
  rcases List.append_eq_append_iff.mp h with ⟨as, hbefore, hmore'⟩ | ⟨bs, hl, hrest⟩
  · refine absurd ?_ hmore
    rw [hmore']
    exact List.mem_append_right _ List.mem_cons_self
  · cases bs with
    | nil =>
        refine absurd ?_ hmore
        rw [← List.nil_append more, ← hrest]
        exact List.mem_cons_self
    | cons b bs =>
        obtain ⟨rfl, rfl⟩ := List.cons.inj hrest
        exact ⟨bs, hl, rfl⟩

/-- It is last, or it stands before. -/
theorem split_concat (h : l ++ [a'] = before ++ a :: later) :
    (a' = a ∧ before = l) ∨ ∃ later', l = before ++ a :: later' ∧ later = later' ++ [a'] := by
  rcases List.eq_nil_or_concat later with rfl | ⟨later', b, rfl⟩
  · obtain ⟨rfl, heq⟩ := List.append_inj' h rfl
    exact Or.inl ⟨List.singleton_inj.mp heq, rfl⟩
  · rw [List.concat_eq_append, ← List.cons_append, ← List.append_assoc] at h
    obtain ⟨rfl, heq⟩ := List.append_inj' h rfl
    refine Or.inr ⟨later', rfl, ?_⟩
    rw [List.concat_eq_append, List.singleton_inj.mp heq]

end Traces

section Minding
variable {b : Nat} {acts more : List Act}

/-- Acts that read nothing change nothing. -/
theorem InMind.of_append (hmore : ∀ x events, .scanned x events ∉ more) (h : InMind b (acts ++ more)) :
    InMind b acts := by
  obtain ⟨before, delegates, later, heq, hlater⟩ := h
  obtain ⟨later', hacts, rfl⟩ := split_append (hmore b delegates) heq
  exact ⟨before, delegates, later', hacts, fun x events hx => hlater x events (List.mem_append_left _ hx)⟩

/-- The block read last is the one in mind, or a young one. -/
theorem InMind.of_scanned {x : Nat} {events : List ContractEvent} (h : InMind b (acts ++ [.scanned x events])) :
    x = b ∨ (x ≤ b + delegatedTtlBlocks ∧ InMind b acts) := by
  obtain ⟨before, delegates, later, heq, hlater⟩ := h
  rcases split_concat heq with ⟨hlast, -⟩ | ⟨later', hacts, rfl⟩
  · cases hlast
    exact Or.inl rfl
  · refine Or.inr ⟨hlater x events (List.mem_append_right _ List.mem_cons_self), before, delegates, later', hacts, ?_⟩
    exact fun x events hx => hlater x events (List.mem_append_left _ hx)

end Minding

/-- While the `Delegate` is in mind it is remembered, and a call read while it is in mind is known for its sender's. -/
structure Minds (child sender relayer : String) (b h : Nat) (g : Stage) : Prop where
  knows : InMind b g.acts → Knows child sender relayer b g.delegated
  attributed : ∀ before events later, g.acts = before ++ .scanned h events :: later → InMind b before →
    ∀ e, .executionRequested e ∈ events → e.receipt.receiptId = some child →
      e.relayerId = some relayer ∧ e.receipt.predecessorId = some sender

section Runs
variable {A : Answers} {S : Setup} {chain : Nat → BlockData} {child sender relayer : String} {b h : Nat}
  {g g' : Stage}

/-- Acts that read nothing. -/
theorem Minds.of_append (hg : Minds child sender relayer b h g) {more : List Act}
    (hmore : ∀ x events, .scanned x events ∉ more) (hdelegated : g'.delegated = g.delegated)
    (hacts : g'.acts = g.acts ++ more) : Minds child sender relayer b h g' where
  knows hmind := by
    rw [hacts] at hmind
    rw [hdelegated]
    exact hg.knows (hmind.of_append hmore)
  attributed before events later heq := by
    rw [hacts] at heq
    obtain ⟨later', hacts', -⟩ := split_append (hmore h events) heq
    exact hg.attributed before events later' hacts'

/-- A block is read. -/
theorem Minds.of_scanned (hchain : ReadsChain A chain) (call : MetaCall S chain child sender relayer b h)
    (hg : Minds child sender relayer b h g) {x : Nat} {events : List ContractEvent}
    (hreads : Reads A S x g.delegated events g'.delegated) (hacts : g'.acts = g.acts ++ [.scanned x events]) :
    Minds child sender relayer b h g' := by
  obtain ⟨t, timeout, block, hread, hscan⟩ := hreads
  rw [hchain t x timeout block hread] at hscan
  constructor
  · intro hmind
    rw [hacts] at hmind
    have hknows := call.knows (d := g.delegated) (x := x) (hmind.of_scanned.imp id fun hyoung =>
      ⟨hyoung.1, hg.knows hyoung.2⟩)
    rw [hscan] at hknows
    exact hknows
  · intro before events' later heq hmind e he hchild
    rw [hacts] at heq
    rcases split_concat heq with ⟨hlast, rfl⟩ | ⟨later', hacts', -⟩
    · cases hlast
      have hin : .executionRequested e ∈ (scanned S g.delegated h (chain h)).1 := by
        rw [hscan]
        exact he
      exact call.attributed (hg.knows hmind) hin hchild
    · exact hg.attributed before events' later' hacts' hmind e he hchild

/-- Delivering reads nothing. -/
theorem Delivers.no_scan {head height : Nat} {delivery : Delivery} {events left : List ContractEvent}
    {acts : List Act} (hdelivers : Delivers A S head height delivery events acts left) (x : Nat)
    (es : List ContractEvent) : .scanned x es ∉ acts := by
  intro hact
  cases hdelivers.actFor _ hact

theorem Minds.move (hchain : ReadsChain A chain) (call : MetaCall S chain child sender relayer b h)
    (hg : Minds child sender relayer b h g) (hmove : Move A S g g') : Minds child sender relayer b h g' := by
  -- a block read, and its events delivered
  have hreading : ∀ {x : Nat} {events : List ContractEvent} {acts : List Act} {d : DelegatedCalls} {g' : Stage},
      Reads A S x g.delegated events d → (∀ x events, .scanned x events ∉ acts) → g'.delegated = d →
      g'.acts = g.acts ++ .scanned x events :: acts → Minds child sender relayer b h g' := by
    intro x events acts d g' hreads hnone hd hacts
    have hread : Minds child sender relayer b h { g with delegated := d, acts := g.acts ++ [.scanned x events] } :=
      hg.of_scanned hchain call hreads rfl
    refine hread.of_append hnone hd ?_
    rw [hacts, List.append_assoc]
    rfl
  cases hmove with
  | gaveUp =>
      refine hg.of_append (fun x events hmem => ?_) rfl rfl
      cases List.mem_singleton.mp hmem
  | deferred => exact hg.of_append (fun _ _ => (List.not_mem_nil : _ ∉ ([] : List Act))) rfl (List.append_nil _).symm
  | headed hreads hdelivers => exact hreading hreads hdelivers.no_scan rfl rfl
  | read _ hreads hdelivers => exact hreading hreads hdelivers.no_scan rfl rfl
  | resumed _ hdelivers => exact hg.of_append hdelivers.no_scan rfl rfl

theorem minds_after (hchain : ReadsChain A chain) (call : MetaCall S chain child sender relayer b h)
    (start clock n : Nat) : Minds child sender relayer b h (stageAfter A S start clock n) := by
  obtain ⟨d, hmoves⟩ := @afterTurns_moves A S start clock n
  have hstart : Minds child sender relayer b h (.start start d) := by
    constructor
    · rintro ⟨before, delegates, later, heq, -⟩
      cases before <;> cases heq
    · intro before events later heq
      cases before <;> cases heq
  generalize stageAfter A S start clock n = g at hmoves ⊢
  induction hmoves with
  | refl => exact hstart
  | tail _ hmove ih => exact ih.move hchain call hmove

/-- **A meta-transaction whose `Delegate` was read in time runs as its sender**, and names its relayer. -/
theorem metaCall_runs_as_sender (hchain : ReadsChain A chain) (call : MetaCall S chain child sender relayer b h)
    (start clock n : Nat) (hintime : ReadInTime b h (actsAfter A S start clock n)) :
    ∀ params reply, .sent (.createTask params) reply ∈ actsAfter A S start clock n →
      params.context.receiptId = some child →
      params.context.relayerId = some relayer ∧ params.userAccountId = some sender ∧
        params.userAccountId ≠ some relayer := by
  intro params reply hsent hchild
  have hbacked := backed_after (A := A) (S := S) start clock n
  rcases hbacked.acted _ hsent with ⟨x, events, heq⟩ | ⟨x, events, heq⟩ | ⟨head, x, delivery, events, hread, hfor⟩
  · cases heq
  · cases heq
  · cases hfor with
    | sent hmem hrelays hin =>
        obtain ⟨e, t, rfl, hhandle⟩ := hrelays.tasks params reply hin
        obtain ⟨hreceipt, hrelayer, huser⟩ := handleExecutionRequested_task hhandle
        have hid : e.receipt.receiptId = some child := hreceipt.symm.trans hchild
        obtain ⟨d, d', t', timeout, block, hblock, hscan⟩ := hbacked.read x events hread
        -- the call's events are those of its block alone
        obtain rfl : x = h := by
          refine call.read_in (d := d) (e := e) ?_ hid
          rw [← hchain t' x timeout block hblock, hscan]
          exact hmem
        obtain ⟨before, later, hacts⟩ := List.append_of_mem hread
        obtain ⟨hrelayed, hsender⟩ := (minds_after hchain call start clock n).attributed before events later hacts
          (hintime before events later hacts) e hmem hid
        have hparams := huser relayer sender hrelayed hsender
        refine ⟨hrelayer.trans hrelayed, hparams, ?_⟩
        rw [hparams]
        exact fun h => call.relayed (Option.some.inj h)

end Runs

/-! ## Runs, evaluated -/

theorem run_scanBlock (S : Setup) (s : Session) (height : Nat) (block : BlockData) :
    (scanBlock S height block).run s
      = ((scanned S s.delegated height block).1, { s with delegated := (scanned S s.delegated height block).2 }) := by
  unfold scanBlock scanned
  cases block.shards <;> rfl

theorem run_scanOnce {A : Answers} {S : Setup} {s : Session} {height timeout : Nat} (block : BlockData)
    (h : A.read s.asked height timeout = .block block) :
    (scanOnce A S height timeout).run s
      = (.events (scanned S s.delegated height block).1,
          { s with asked := s.asked + 1, clock := s.clock + A.elapse s.asked
                   delegated := (scanned S s.delegated height block).2
                   acts := s.acts ++ [.scanned height (scanned S s.delegated height block).1] }) := by
  have hread : (readOnce A height timeout).run s
      = (Read.block block, { s with asked := s.asked + 1, clock := s.clock + A.elapse s.asked }) := by
    rw [← h]
    rfl
  unfold scanOnce
  rw [run_bind_of hread]
  dsimp only
  rw [run_bind_of (run_scanBlock ..)]
  rfl

theorem run_scanWithin {A : Answers} {S : Setup} {s : Session} {height budget : Nat} (block : BlockData)
    (h : ∀ timeout, A.read s.asked height timeout = .block block) :
    (scanWithin A S height budget).run s
      = (.events (scanned S s.delegated height block).1,
          { s with asked := s.asked + 1, clock := s.clock + A.elapse s.asked
                   delegated := (scanned S s.delegated height block).2
                   acts := s.acts ++ [.scanned height (scanned S s.delegated height block).1] }) := by
  unfold scanWithin
  show (scanUntil A S height (s.clock + budget) (budget / readRetryPause)).run s = _
  unfold scanUntil
  rw [run_bind_of (show now.run s = (s.clock, s) from rfl), run_bind_of (run_scanOnce block (h _))]
  rfl

/-! ## A `Delegate` read late -/

/-- Alice's call, relayed by bob. -/
def relayedCall : Env := { envOf aliceAccount (10 ^ 24) 0 1 with signer := bobAccount }

/-- What the contract writes of it. -/
def relayedData : Outlayer.RequestData :=
  (runWith .default).toData relayedCall 0 (.gitHub "alice/app" "main" none) none

/-- The request of the relayed call. -/
def relayedRequest : ExecutionRequest := (runWith .default).toRequest relayedCall 0 (.gitHub "alice/app" "main" none)

/-- Its log line. -/
def relayedLog : String :=
  logEvent World.fresh.contract.eventStandard World.fresh.contract.eventVersion "execution_requested"
    (executionRequestedData relayedData relayedCall.dataId relayedCall.blockTimestamp)

/-- The receipt with the `Delegate` action, executed on alice's account. -/
def delegateOutcome : ReceiptExecutionOutcome where
  receipt := some {
    receiverId := some "alice.near", receiptId := some "delegate", predecessorId := some "bob.near"
    receipt := some { action := some {
      signerId := some "bob.near", signerPublicKey := some "bob's key"
      actions := [.obj [("Delegate", .obj [("delegate_action", .obj [("sender_id", .str "alice.near"),
        ("receiver_id", .str "outlayer.near"), ("public_key", .str "alice's key")])])]] } } }
  executionOutcome := some { outcome := some {
    logs := none, receiptIds := some ["call"], gasBurnt := none
    status := some (.obj [("SuccessReceiptId", .str "call")]) } }
  txHash := none

/-- The receipt it made. -/
def callOutcome : ReceiptExecutionOutcome where
  receipt := some {
    receiverId := some "outlayer.near", receiptId := some "call", predecessorId := some "alice.near"
    receipt := some { action := some {
      signerId := some "bob.near", signerPublicKey := some "bob's key", actions := [] } } }
  executionOutcome := some { outcome := some {
    logs := some [relayedLog], receiptIds := none, gasBurnt := none
    status := some (.obj [("SuccessValue", .str "")]) } }
  txHash := none

/-- A chain with the Delegate in block 1 and its call in block 2. -/
def relayedChain (height : Nat) : BlockData :=
  if height = 1 then ⟨some [⟨some [delegateOutcome]⟩]⟩
  else if height = 2 then ⟨some [⟨some [callOutcome]⟩]⟩
  else ⟨none⟩

/-- Block 1 reads only after the head has moved on to block 2. -/
def lateDelegate : Answers where
  read t height _ := if height = 1 ∧ t < 4 then .failed "timeout" else .block (relayedChain height)
  elapse _ := 3000
  chainTip _ := none
  views _ := { getRequest := fun _ _ => .ok (relayedRequest.toJson.reread exponentNumber, .block 2)
               getProject := fun _ _ => .error "" }
  viewFinal _ _ _ := .ok (relayedRequest.toJson.reread exponentNumber, 2)
  coordinator _ _ := .ok ()

/-- A worker that scans every two seconds. -/
def relayedSetup : Setup := { readingSetup with scanIntervalMs := 2000 }

theorem lateDelegate_readsChain : ReadsChain lateDelegate relayedChain := by
  intro t height timeout block h
  simp only [lateDelegate] at h
  split at h
  · cases h
  · exact (Read.block.inj h).symm

theorem outcomes_relayedChain {x : Nat} {outcome : ReceiptExecutionOutcome}
    (h : outcome ∈ (relayedChain x).outcomes) :
    (x = 1 ∧ outcome = delegateOutcome) ∨ (x = 2 ∧ outcome = callOutcome) := by
  unfold relayedChain at h
  split at h
  · next hx => exact Or.inl ⟨hx, by simpa [BlockData.outcomes, outcomes] using h⟩
  · split at h
    · next hx => exact Or.inr ⟨hx, by simpa [BlockData.outcomes, outcomes] using h⟩
    · simp [BlockData.outcomes, outcomes] at h

theorem relayed_metaCall : MetaCall relayedSetup relayedChain "call" "alice.near" "bob.near" 1 2 where
  relayed := by decide
  made := by
    refine ⟨delegateOutcome, by simp [BlockData.outcomes, outcomes, relayedChain], ?_⟩
    exact ⟨rfl, ⟨_, _, _, rfl, rfl, List.mem_singleton.mpr rfl, rfl, rfl, rfl⟩, List.mem_singleton.mpr rfl⟩
  made_once x outcome s r hin h := by
    rcases outcomes_relayedChain hin with ⟨rfl, rfl⟩ | ⟨rfl, rfl⟩
    · obtain ⟨details, action, delegate, hdetails, hsigner, haction, hget, -, hsender⟩ := h.action
      cases hdetails
      cases hsigner
      cases List.mem_singleton.mp haction
      cases hget
      cases hsender
      exact ⟨rfl, rfl, rfl⟩
    · cases h.made
  runs x outcome hin h := by
    rcases outcomes_relayedChain hin with ⟨rfl, rfl⟩ | ⟨rfl, rfl⟩
    · exact absurd (Option.some.inj h) (by decide)
    · exact ⟨rfl, rfl, rfl⟩
  after := by decide
  soon := by decide

/-- After the first turn the head is at block 2, and block 1 is in the queue. -/
theorem late_first :
    (afterTurns lateDelegate relayedSetup 1 0 1).1 = ⟨⟨2, 2, ⟨[(1, ⟨0, 21000, none⟩)]⟩⟩, none⟩ ∧
    (afterTurns lateDelegate relayedSetup 1 0 1).2 = ⟨5, 19000, .empty, none, []⟩ := by
  constructor
  · decide +kernel
  · have hacts : (afterTurns lateDelegate relayedSetup 1 0 1).2.acts = [] := by
      rw [← List.isEmpty_iff]
      decide +kernel
    have hasked : (afterTurns lateDelegate relayedSetup 1 0 1).2.asked = 5 := by decide +kernel
    have hclock : (afterTurns lateDelegate relayedSetup 1 0 1).2.clock = 19000 := by decide +kernel
    have hdelegated : (afterTurns lateDelegate relayedSetup 1 0 1).2.delegated = .empty := by decide +kernel
    have htip : (afterTurns lateDelegate relayedSetup 1 0 1).2.tip = none := by decide +kernel
    generalize (afterTurns lateDelegate relayedSetup 1 0 1).2 = s at *
    cases s
    cases hacts
    cases hasked
    cases hclock
    cases hdelegated
    cases htip
    rfl

/-- The call as it is read while its delegate is not known. -/
def unattributedCall : ExecutionRequestedEvent :=
  { eventOf relayedData relayedCall.dataId relayedCall.blockTimestamp 2 with receipt := callOutcome.metadata }

theorem relayedData_fits : relayedData.Fits := by
  have fits := runWith_fits ResourceLimits.fits_default
  exact ⟨by decide, relayedCall.blockTimestamp_lt, fits.limits_fit⟩

/-- The events of a committed receipt of the contract with one line. -/
theorem receiptEvents_single {S : Setup} {outcome : ReceiptExecutionOutcome} (hours : outcome.receivedBy S.contractId)
    (hcommitted : outcome.committed) {log : String} (hlogs : (outcome.result.bind Outcome.logs).getD [] = [log])
    {height : Nat} {event : ContractEvent} (hprocess : processLog S.host S.eventFilter log height = some event)
    (d : DelegatedCalls) : receiptEvents S d height outcome = [attach d outcome.metadata event] := by
  unfold receiptEvents
  rw [if_pos ⟨hours, hcommitted⟩, hlogs, List.filterMap_cons, hprocess]
  rfl

/-- A block with one receipt. -/
theorem scanned_single (S : Setup) (d : DelegatedCalls) (height : Nat) (outcome : ReceiptExecutionOutcome) :
    scanned S d height ⟨some [⟨some [outcome]⟩]⟩
      = (receiptEvents S (d.scan S [⟨some [outcome]⟩] height) height outcome,
          d.scan S [⟨some [outcome]⟩] height) := by
  have houtcomes : outcomes [⟨some [outcome]⟩] = [outcome] := by simp [outcomes]
  show ((outcomes [⟨some [outcome]⟩]).flatMap _, _) = _
  rw [houtcomes, List.flatMap_singleton]

theorem relayed_logs : (callOutcome.result.bind Outcome.logs).getD [] = [relayedLog] := rfl

theorem relayed_scanned :
    scanned relayedSetup .empty 2 (relayedChain 2) = ([.executionRequested unattributedCall], .empty) := by
  have hlog : processLog relayedSetup.host relayedSetup.eventFilter relayedLog 2 = _ :=
    processLog_request (H := readingHost) wholeNumbers_exponentNumber defaultFilter_matches relayedData_fits
      relayedCall.dataId relayedCall.blockTimestamp_lt 2
  have hdelegates : DelegatedCalls.empty.scan relayedSetup [⟨some [callOutcome]⟩] 2 = .empty := by
    have hnone : delegatesIn relayedSetup 2 [⟨some [callOutcome]⟩] = [] := by
      simp [delegatesIn, outcomes, delegatedBy, callOutcome, ReceiptExecutionOutcome.details]
    rw [scan_eq, hnone]
    rfl
  have hchain : relayedChain 2 = ⟨some [⟨some [callOutcome]⟩]⟩ := by simp [relayedChain]
  rw [hchain, scanned_single, hdelegates, receiptEvents_single (by decide) rfl relayed_logs hlog]
  rfl

/-! ### Deliveries of one event -/

theorem run_now (s : Session) : now.run s = (s.clock, s) := rfl

/-- A call that may be a meta-transaction waits for an unread block before it. -/
theorem run_deliver_waiting {A : Answers} {S : Setup} {m : EventMonitor} {height : Nat} {event : ContractEvent}
    (hholds : m.deferred.unreadJustBefore height = true) (hmay : mayBeUnattributedMetaTx event = true)
    (delivery : Delivery) (s : Session) :
    (deliver A S m height [event] delivery).run s = (some ⟨[event], leftoverReason [event] none, true⟩, s) := by
  unfold deliver
  simp [hholds, hmay, relayReady]
  rfl

/-- An event that goes through. -/
theorem run_deliver_relayed {A : Answers} {S : Setup} {m : EventMonitor} {height : Nat} {event : ContractEvent}
    {delivery : Delivery} {age : Age} {s s₁ s₂ : Session} (hholds : m.deferred.unreadJustBefore height = false)
    (hage : (ageOf A height).run s = (age, s₁))
    (hrelay : (relay A S m event (relayDecision event delivery age) height).run s₁ = (.ok (), s₂)) :
    (deliver A S m height [event] delivery).run s
      = (none, { s₂ with acts := s₂.acts ++ [.relayed height event] }) := by
  have hall : (relayAll A S m height delivery age [event]).run s₁
      = (([], none), { s₂ with acts := s₂.acts ++ [.relayed height event] }) := by
    unfold relayAll
    rw [run_bind_of hrelay]
    rfl
  have hready : (relayReady A S m height delivery [event]).run s
      = (([], none), { s₂ with acts := s₂.acts ++ [.relayed height event] }) := by
    unfold relayReady
    rw [if_neg (List.cons_ne_nil _ _), run_bind_of hage, hall]
  unfold deliver
  simp only [hholds, Bool.false_and, Bool.not_false, List.filter_true, List.filter_false]
  rw [if_neg (List.cons_ne_nil _ _), run_bind_of hready]
  rfl

/-- The task of a call whose checks pass, relayed while the request is pending at the final block. -/
theorem run_relayIfPending {A : Answers} {S : Setup} (e : ExecutionRequestedEvent) (s : Session) {height at_ : Nat}
    {data : RequestData} {request : Value} {params : CreateTaskParams}
    (hdata : RequestData.ofText S.host.jsonNumber e.requestData = some data)
    (hview : ∀ args, A.viewFinal s.asked "get_request" args = .ok (request, at_)) (hat : height ≤ at_)
    (hpending : request ≠ .null)
    (hhandle : ∀ t, handleExecutionRequested S.host S.debug (A.views t) S.contractId e = .ok params) :
    ∃ s' reply, (relayIfPending A S e height).run s = (.ok (), s') ∧
      s'.acts = s.acts ++ [.sent (.createTask params) reply] := by
  have hviewed : (viewFinal A "get_request" (.obj [("request_id", .num (toString data.requestId))])).run s
      = (.ok (request, at_), { s with asked := s.asked + 1, clock := s.clock + A.elapse s.asked }) := by
    show ((A.viewFinal s.asked "get_request" _).mapError _, _) = _
    rw [hview]
    rfl
  let s₁ : Session := { s with asked := s.asked + 1, clock := s.clock + A.elapse s.asked }
  have hran : (runExecutionRequested A S e).run s₁ = ((),
      { s₁ with asked := s₁.asked + 2, clock := s₁.clock + A.elapse s₁.asked + A.elapse (s₁.asked + 1)
                acts := s₁.acts
                  ++ [.sent (.createTask params) (A.coordinator (s₁.asked + 1) (.createTask params))] }) := by
    have hask : (ask A fun t => handleExecutionRequested S.host S.debug (A.views t) S.contractId e).run s₁
        = (.ok params, { s₁ with asked := s₁.asked + 1, clock := s₁.clock + A.elapse s₁.asked }) := by
      show (handleExecutionRequested S.host S.debug (A.views s₁.asked) S.contractId e, _) = _
      rw [hhandle]
    unfold runExecutionRequested
    rw [run_bind_of hask]
    rfl
  refine ⟨((runExecutionRequested A S e).run s₁).2, A.coordinator (s₁.asked + 1) (.createTask params), ?_, ?_⟩
  · unfold relayIfPending
    rw [hdata]
    dsimp only
    rw [run_bind_of hviewed]
    dsimp only
    rw [if_neg (Nat.not_lt.mpr hat), if_neg hpending, run_bind_of hran, hran]
    rfl
  · rw [hran]

/-! ### The run -/

theorem unattributed_waits : mayBeUnattributedMetaTx (.executionRequested unattributedCall) = true := by decide

/-- The head keeps a call that waits. -/
theorem run_deliverHeld_waiting {A : Answers} {S : Setup} {m : EventMonitor} {height : Nat} {event : ContractEvent}
    (hholds : m.deferred.unreadJustBefore height = true) (hmay : mayBeUnattributedMetaTx event = true) (s : Session) :
    (deliverHeld A S m height [event]).run s = (some [event], s) := by
  unfold deliverHeld
  rw [run_bind_of (run_deliver_waiting hholds hmay .inOrder s)]
  rfl

/-- The second turn reads the call's block, and keeps it: the call waits for block 1. -/
theorem late_second :
    (turn lateDelegate relayedSetup ⟨⟨2, 2, ⟨[(1, ⟨0, 21000, none⟩)]⟩⟩, none⟩).run ⟨5, 19000, .empty, none, []⟩
      = (⟨⟨3, 3, ⟨[(1, ⟨0, 21000, none⟩), (2, ⟨0, 24000, some [.executionRequested unattributedCall]⟩)]⟩⟩, none⟩,
          ⟨6, 24000, .empty, none, [.scanned 2 [.executionRequested unattributedCall]]⟩) := by
  have hserved : (serveDeferred lateDelegate relayedSetup ⟨2, 2, ⟨[(1, ⟨0, 21000, none⟩)]⟩⟩).run
      ⟨5, 19000, .empty, none, []⟩ = (⟨2, 2, ⟨[(1, ⟨0, 21000, none⟩)]⟩⟩, ⟨5, 19000, .empty, none, []⟩) := rfl
  have hscan : (scanWithin lateDelegate relayedSetup 2 headBlockBudget).run ⟨5, 19000, .empty, none, []⟩
      = (.events [.executionRequested unattributedCall],
          ⟨6, 22000, .empty, none, [.scanned 2 [.executionRequested unattributedCall]]⟩) := by
    rw [run_scanWithin (relayedChain 2) (fun _ => rfl), relayed_scanned]
    rfl
  have hheld := run_deliverHeld_waiting (A := lateDelegate) (S := relayedSetup)
    (m := ⟨2, 2, ⟨[(1, ⟨0, 21000, none⟩)]⟩⟩) (show DeferredBlocks.unreadJustBefore _ 2 = true by decide)
    unattributed_waits ⟨6, 22000, .empty, none, [.scanned 2 [.executionRequested unattributedCall]]⟩
  unfold turn
  rw [run_bind_of hserved]
  dsimp only
  rw [run_bind_of hscan]
  unfold deliverHead
  dsimp only
  rw [bind_assoc, run_bind_of hheld]
  rfl

/-- Block 1 says nothing but who the call is for. -/
theorem delegate_scanned (d : DelegatedCalls) :
    scanned relayedSetup d 1 (relayedChain 1)
      = ([], d.scan relayedSetup [⟨some [delegateOutcome]⟩] 1) := by
  have hchain : relayedChain 1 = ⟨some [⟨some [delegateOutcome]⟩]⟩ := by simp [relayedChain]
  have hours : ¬ (delegateOutcome.receivedBy relayedSetup.contractId = true ∧ delegateOutcome.committed = true) := by
    rintro ⟨h, -⟩
    exact absurd h (by decide)
  rw [hchain, scanned_single, receiptEvents, if_neg hours]

/-- The request is a document, not `null`. -/
theorem relayedRequest_ne_null : relayedRequest.toJson.reread exponentNumber ≠ .null := by
  intro h
  cases h

/-- A call whose checks find nothing gets its task. -/
theorem handleExecutionRequested_of_checks {H : Host} {debug : Option String → String} {V : Views} {contractId : String}
    {e : ExecutionRequestedEvent} {raw pending : Value} {data : RequestData} {viewedAt : ViewedAt} {input user : String}
    (hdata : RequestData.ofText H.jsonNumber e.requestData = some data)
    (hraw : Json.parse H.jsonNumber e.requestData = some raw)
    (hreceipt : receiptMismatch debug data e = none)
    (hview : V.getRequest data.requestId e.blockHeight = .ok (pending, viewedAt)) (hpending : pending ≠ .null)
    (hproject : pendingProjectId pending = none)
    (hmismatch : pendingRequestMismatch debug raw e.dataId pending none = none) (huser : taskUser data e = .ok user)
    (hinput : taskInput data pending = some input) :
    ∃ params, handleExecutionRequested H debug V contractId e = .ok params ∧
      params.context.receiptId = e.receipt.receiptId ∧ params.context.relayerId = e.relayerId ∧
      params.userAccountId = some user := by
  have hfetched : fetchPendingRequest V data.requestId e.blockHeight = .ok (pending, viewedAt) := by
    unfold fetchPendingRequest
    rw [hview]
    exact if_neg hpending
  have huuid : projectUuidOnChain V data.requestId pending viewedAt = .ok none := by
    unfold projectUuidOnChain
    rw [hproject]
    rfl
  have hours : unlessMismatch data.requestId (receiptMismatch debug data e) = .ok () := by
    rw [hreceipt]
    rfl
  have hsame : unlessMismatch data.requestId (pendingRequestMismatch debug raw e.dataId pending none) = .ok () := by
    rw [hmismatch]
    rfl
  simp only [handleExecutionRequested, bind_eq_ok, expect_eq_ok, pure_eq_ok]
  exact ⟨_, ⟨data, hdata, raw, hraw, (), hours, (pending, viewedAt), hfetched, none, huuid, (), hsame, user, huser,
    input, hinput, rfl⟩, rfl, rfl, rfl⟩

theorem relayedData_value : Json.parse relayedSetup.host.jsonNumber relayedData.toJson.compact
    = some (relayedData.toJson.reread exponentNumber) :=
  parse_requestData (H := readingHost) wholeNumbers_exponentNumber relayedData_fits

theorem relayedData_read : RequestData.ofText relayedSetup.host.jsonNumber relayedData.toJson.compact
    = some (.ofContract relayedData ⟨1000000000, 128, 60⟩) := by
  show RequestData.ofText exponentNumber _ = _
  rw [RequestData.ofText_toJson wholeNumbers_exponentNumber relayedData_fits]
  rfl

/-- The task of the call, as one of its readings has it. -/
theorem relayed_task {V : Views}
    (hview : V.getRequest 0 2 = .ok (relayedRequest.toJson.reread exponentNumber, .block 2))
    {e : ExecutionRequestedEvent} {user : String} (hraw : e.requestData = relayedData.toJson.compact)
    (hblock : e.blockHeight = 2) (hdataId : e.dataId = relayedCall.dataId.toList)
    (hreceipt : receiptMismatch relayedSetup.debug (.ofContract relayedData ⟨1000000000, 128, 60⟩) e = none)
    (huser : taskUser (.ofContract relayedData ⟨1000000000, 128, 60⟩) e = .ok user) :
    ∃ params, handleExecutionRequested relayedSetup.host relayedSetup.debug V relayedSetup.contractId e = .ok params ∧
      params.context.receiptId = e.receipt.receiptId ∧ params.context.relayerId = e.relayerId ∧
      params.userAccountId = some user := by
  have hagrees : Agrees relayedData relayedRequest := agrees (a := runWith .default) 0 _ none
  have hmismatch : pendingRequestMismatch relayedSetup.debug (relayedData.toJson.reread exponentNumber)
      relayedRequest.dataId.toList (relayedRequest.toJson.reread exponentNumber) none = none :=
    (pendingRequestMismatch_request wholeNumbers_exponentNumber hagrees (show 0 < 2 ^ 128 by decide)).mpr
      (show 0 < 2 ^ 64 by decide)
  refine handleExecutionRequested_of_checks (hraw ▸ relayedData_read) (hraw ▸ relayedData_value) hreceipt
    (hblock ▸ hview) relayedRequest_ne_null (pendingProjectId_toJson relayedRequest) ?_ huser (taskInput_eq hagrees _)
  rw [hdataId]
  exact hmismatch

/-- The task of the call, as it was read: its user is the relayer. -/
theorem unattributed_task : ∃ params, (∀ t,
      handleExecutionRequested relayedSetup.host relayedSetup.debug (lateDelegate.views t) relayedSetup.contractId
        unattributedCall = .ok params) ∧
    params.context.receiptId = some "call" ∧ params.context.relayerId = none ∧
    params.userAccountId = some "bob.near" := by
  obtain ⟨params, hparams, htask⟩ :=
    relayed_task (V := lateDelegate.views 0) rfl (e := unattributedCall) rfl rfl rfl rfl rfl
  exact ⟨params, fun _ => hparams, htask⟩

/-- The queue when the third turn starts. -/
def lateQueue : DeferredBlocks :=
  ⟨[(1, ⟨0, 21000, none⟩), (2, ⟨0, 24000, some [.executionRequested unattributedCall]⟩)]⟩

/-- What was left to do of the call's block is done out of order, as it was read. -/
theorem late_relayed {params : CreateTaskParams}
    (hhandle : ∀ t, handleExecutionRequested relayedSetup.host relayedSetup.debug (lateDelegate.views t)
      relayedSetup.contractId unattributedCall = .ok params) (d : DelegatedCalls) (acts : List Act) :
    ∃ reply s, (deliver lateDelegate relayedSetup
        ⟨3, 3, ⟨[(2, ⟨0, 24000, some [.executionRequested unattributedCall]⟩)]⟩⟩ 2
        [.executionRequested unattributedCall] .outOfOrder).run ⟨7, 27000, d, none, acts⟩ = (none, s) ∧
      s.acts = acts ++ [.sent (.createTask params) reply, .relayed 2 (.executionRequested unattributedCall)] := by
  obtain ⟨s₂, reply, hrun, hacts⟩ := run_relayIfPending (A := lateDelegate) (S := relayedSetup)
    unattributedCall ⟨8, 30000, d, none, acts⟩ relayedData_read (fun _ => rfl) (Nat.le_refl 2) relayedRequest_ne_null
    hhandle
  have hage : (ageOf lateDelegate 2).run ⟨7, 27000, d, none, acts⟩ = (.unknown, ⟨8, 30000, d, none, acts⟩) := rfl
  refine ⟨reply, _, run_deliver_relayed rfl hage hrun, ?_⟩
  show s₂.acts ++ _ = _
  rw [hacts, List.append_assoc]
  rfl

/-- The third turn reads the block of the `Delegate`, and then relays the call for its relayer. -/
theorem late_third {params : CreateTaskParams}
    (hhandle : ∀ t, handleExecutionRequested relayedSetup.host relayedSetup.debug (lateDelegate.views t)
      relayedSetup.contractId unattributedCall = .ok params) (acts : List Act) :
    ∃ reply more, ((turn lateDelegate relayedSetup ⟨⟨3, 3, lateQueue⟩, none⟩).run ⟨6, 24000, .empty, none, acts⟩).2.acts
      = acts ++ .scanned 1 [] :: .sent (.createTask params) reply :: more := by
  obtain ⟨reply, s, hdelivered, hacts⟩ := late_relayed hhandle
    (DelegatedCalls.empty.scan relayedSetup [⟨some [delegateOutcome]⟩] 1) (acts ++ [.scanned 1 []])
  have hread : (scanOnce lateDelegate relayedSetup 1 deferredReadTimeout).run ⟨6, 24000, .empty, none, acts⟩
      = (.events [], ⟨7, 27000, DelegatedCalls.empty.scan relayedSetup [⟨some [delegateOutcome]⟩] 1, none,
          acts ++ [.scanned 1 []]⟩) := by
    rw [run_scanOnce (relayedChain 1) rfl, delegate_scanned]
    rfl
  have hfirst : (serveOne lateDelegate relayedSetup ⟨3, 3, lateQueue⟩ 1).run ⟨6, 24000, .empty, none, acts⟩
      = (⟨3, 3, ⟨[(2, ⟨0, 24000, some [.executionRequested unattributedCall]⟩)]⟩⟩,
          ⟨7, 27000, DelegatedCalls.empty.scan relayedSetup [⟨some [delegateOutcome]⟩] 1, none,
            acts ++ [.scanned 1 []]⟩) := by
    have hevents : (deferredEvents lateDelegate relayedSetup ⟨3, 3, lateQueue⟩ 1).run ⟨6, 24000, .empty, none, acts⟩
        = (some [], ⟨7, 27000, DelegatedCalls.empty.scan relayedSetup [⟨some [delegateOutcome]⟩] 1, none,
            acts ++ [.scanned 1 []]⟩) := by
      show (scanOnce lateDelegate relayedSetup 1 deferredReadTimeout >>= _).run _ = _
      rw [run_bind_of hread]
      rfl
    unfold serveOne
    rw [run_bind_of hevents]
    rfl
  have hsecond : (serveOne lateDelegate relayedSetup
      ⟨3, 3, ⟨[(2, ⟨0, 24000, some [.executionRequested unattributedCall]⟩)]⟩⟩ 2).run
        ⟨7, 27000, DelegatedCalls.empty.scan relayedSetup [⟨some [delegateOutcome]⟩] 1, none, acts ++ [.scanned 1 []]⟩
      = (⟨3, 3, .empty⟩, s) := by
    have hevents (s : Session) : (deferredEvents lateDelegate relayedSetup
        ⟨3, 3, ⟨[(2, ⟨0, 24000, some [.executionRequested unattributedCall]⟩)]⟩⟩ 2).run s
          = (some [.executionRequested unattributedCall], s) := rfl
    unfold serveOne
    rw [run_bind_of (hevents _), run_bind_of (run_now _)]
    dsimp only
    unfold deliverDeferred
    rw [run_bind_of hdelivered]
    rfl
  have hserved : (serveDeferred lateDelegate relayedSetup ⟨3, 3, lateQueue⟩).run ⟨6, 24000, .empty, none, acts⟩
      = (⟨3, 3, .empty⟩, s) := by
    have hexpire : lateQueue.expire 3 24000 = (lateQueue, []) := rfl
    have hdue : lateQueue.due 24000 deferredPerTurn = [1, 2] := rfl
    unfold serveDeferred
    rw [run_bind_of (run_now _)]
    dsimp only
    rw [hexpire]
    dsimp only
    rw [run_bind_of (show (noteGivenUp []).run _ = ((), _) from rfl), hdue]
    unfold serveDue
    rw [run_bind_of (run_now _)]
    dsimp only
    rw [if_neg (by decide), run_bind_of hfirst]
    unfold serveDue
    rw [run_bind_of (run_now _)]
    dsimp only
    rw [if_neg (by decide), run_bind_of hsecond]
    rfl
  have hscan : (scanWithin lateDelegate relayedSetup 3 headBlockBudget).run s
      = (.events [], { s with asked := s.asked + 1, clock := s.clock + 3000, acts := s.acts ++ [.scanned 3 []] }) := by
    have hchain : relayedChain 3 = ⟨none⟩ := by simp [relayedChain]
    have hreads (timeout : Nat) : lateDelegate.read s.asked 3 timeout = .block ⟨none⟩ := by
      rw [← hchain]
      show (if 3 = 1 ∧ s.asked < 4 then Read.failed "timeout" else .block (relayedChain 3)) = _
      exact if_neg fun h => absurd h.1 (by decide)
    rw [run_scanWithin ⟨none⟩ hreads]
    rfl
  refine ⟨reply, [.relayed 2 (.executionRequested unattributedCall), .scanned 3 []], ?_⟩
  have hfinal : ((turn lateDelegate relayedSetup ⟨⟨3, 3, lateQueue⟩, none⟩).run ⟨6, 24000, .empty, none, acts⟩).2.acts
      = s.acts ++ [.scanned 3 []] := by
    unfold turn
    rw [run_bind_of hserved]
    dsimp only
    rw [run_bind_of hscan]
    rfl
  rw [hfinal, hacts, List.append_assoc, List.append_assoc]
  rfl

/-- **A meta-transaction that runs as its relayer**: its block is read while the block of its `Delegate` is not, and
    kept; the block of the `Delegate` is read, and the call is relayed as it was read. -/
theorem late_delegate_runs_as_relayer : ∃ (A : Answers) (S : Setup) (chain : Nat → BlockData)
    (child sender relayer : String) (b h start clock n : Nat),
    ReadsChain A chain ∧ MetaCall S chain child sender relayer b h ∧ start ≤ b ∧
    (∃ events, .scanned b events ∈ actsAfter A S start clock n) ∧
    (∃ events, .scanned h events ∈ actsAfter A S start clock n) ∧
    ∃ params reply, .sent (.createTask params) reply ∈ actsAfter A S start clock n ∧
      params.context.receiptId = some child ∧ params.context.relayerId = none ∧
      params.userAccountId = some relayer := by
  obtain ⟨params, hhandle, hreceipt, hrelayer, huser⟩ := unattributed_task
  obtain ⟨reply, more, hacts⟩ := late_third hhandle [.scanned 2 [.executionRequested unattributedCall]]
  have hafter : actsAfter lateDelegate relayedSetup 1 0 3
      = [.scanned 2 [.executionRequested unattributedCall]]
        ++ .scanned 1 [] :: .sent (.createTask params) reply :: more := by
    have hfirst : afterTurns lateDelegate relayedSetup 1 0 1
        = (⟨⟨2, 2, ⟨[(1, ⟨0, 21000, none⟩)]⟩⟩, none⟩, ⟨5, 19000, .empty, none, []⟩) :=
      Prod.ext late_first.1 late_first.2
    have hsecond : afterTurns lateDelegate relayedSetup 1 0 2
        = (⟨⟨3, 3, lateQueue⟩, none⟩,
            ⟨6, 24000, .empty, none, [.scanned 2 [.executionRequested unattributedCall]]⟩) := by
      rw [afterTurns, hfirst]
      dsimp only
      rw [late_second]
      rfl
    rw [actsAfter, afterTurns, hsecond]
    dsimp only
    exact hacts
  refine ⟨lateDelegate, relayedSetup, relayedChain, "call", "alice.near", "bob.near", 1, 2, 1, 0, 3,
    lateDelegate_readsChain, relayed_metaCall, Nat.le_refl 1, ⟨[], ?_⟩, ⟨[.executionRequested unattributedCall], ?_⟩,
    params, reply, ?_, hreceipt, hrelayer, huser⟩
  all_goals
    rw [hafter]
    simp

/-! ### A `Delegate` read in time -/

/-- Answers that have the Delegate's block when it is asked for. -/
def timelyDelegate : Answers := { lateDelegate with read := fun _ height _ => .block (relayedChain height) }

theorem timelyDelegate_readsChain : ReadsChain timelyDelegate relayedChain :=
  fun _ _ _ _ h => (Read.block.inj h).symm

/-- The delegates once block 1 was read. -/
def delegateKnown : DelegatedCalls := ⟨[("call", ⟨"alice.near", "bob.near", some "alice's key", 1⟩)]⟩

/-- The call as it is read while its delegate is known. -/
def attributedCall : ExecutionRequestedEvent :=
  { unattributedCall with receipt := { callOutcome.metadata with signerPublicKey := some "alice's key" }
                          relayerId := some "bob.near" }

theorem timely_scanned :
    scanned relayedSetup delegateKnown 2 (relayedChain 2) = ([.executionRequested attributedCall], delegateKnown) := by
  have hlog : processLog relayedSetup.host relayedSetup.eventFilter relayedLog 2 = _ :=
    processLog_request (H := readingHost) wholeNumbers_exponentNumber defaultFilter_matches relayedData_fits
      relayedCall.dataId relayedCall.blockTimestamp_lt 2
  have hdelegates : delegateKnown.scan relayedSetup [⟨some [callOutcome]⟩] 2 = delegateKnown := by
    have hnone : delegatesIn relayedSetup 2 [⟨some [callOutcome]⟩] = [] := by
      simp [delegatesIn, outcomes, delegatedBy, callOutcome, ReceiptExecutionOutcome.details]
    rw [scan_eq, hnone]
    rfl
  have hchain : relayedChain 2 = ⟨some [⟨some [callOutcome]⟩]⟩ := by simp [relayedChain]
  rw [hchain, scanned_single, hdelegates, receiptEvents_single (by decide) rfl relayed_logs hlog]
  rfl

theorem timely_delegate_scanned :
    scanned relayedSetup .empty 1 (relayedChain 1) = ([], delegateKnown) := by
  rw [delegate_scanned]
  rfl

/-- The first turn reads the block of the `Delegate`. -/
theorem timely_first : afterTurns timelyDelegate relayedSetup 1 0 1
    = (⟨⟨2, 2, .empty⟩, none⟩, ⟨2, 8000, delegateKnown, none, [.scanned 1 []]⟩) := by
  have hscan : (scanWithin timelyDelegate relayedSetup 1 headBlockBudget).run ⟨1, 3000, .empty, none, []⟩
      = (.events [], ⟨2, 6000, delegateKnown, none, [.scanned 1 []]⟩) := by
    rw [run_scanWithin (relayedChain 1) (fun _ => rfl), timely_delegate_scanned]
    rfl
  have hstarted : afterTurns timelyDelegate relayedSetup 1 0 0
      = (⟨.at 1, none⟩, ⟨1, 3000, .empty, none, []⟩) := rfl
  have hserved : (serveDeferred timelyDelegate relayedSetup (.at 1)).run ⟨1, 3000, .empty, none, []⟩
      = (.at 1, ⟨1, 3000, .empty, none, []⟩) := rfl
  rw [afterTurns, hstarted]
  dsimp only
  unfold turn
  rw [run_bind_of hserved]
  show (scanWithin timelyDelegate relayedSetup 1 headBlockBudget >>= _).run _ = _
  rw [run_bind_of hscan]
  rfl

/-- The second one the call's block: the call is relayed for its sender. -/
theorem timely_second : ∃ params reply, actsAfter timelyDelegate relayedSetup 1 0 2
    = [.scanned 1 [], .scanned 2 [.executionRequested attributedCall], .sent (.createTask params) reply,
        .relayed 2 (.executionRequested attributedCall)] ∧ params.context.receiptId = some "call" := by
  obtain ⟨params, hparams, hreceipt, -⟩ :=
    relayed_task (V := timelyDelegate.views 0) rfl (e := attributedCall) rfl rfl rfl rfl rfl
  let acts : List Act := [.scanned 1 [], .scanned 2 [.executionRequested attributedCall]]
  obtain ⟨s₂, reply, hrun, hacts⟩ := run_relayIfPending (A := timelyDelegate) (S := relayedSetup)
    attributedCall ⟨4, 14000, delegateKnown, none, acts⟩ relayedData_read (fun _ => rfl) (Nat.le_refl 2)
    relayedRequest_ne_null (fun _ => hparams)
  have hscan : (scanWithin timelyDelegate relayedSetup 2 headBlockBudget).run
      ⟨2, 8000, delegateKnown, none, [.scanned 1 []]⟩
      = (.events [.executionRequested attributedCall], ⟨3, 11000, delegateKnown, none, acts⟩) := by
    rw [run_scanWithin (relayedChain 2) (fun _ => rfl), timely_scanned]
    rfl
  have hage : (ageOf timelyDelegate 2).run ⟨3, 11000, delegateKnown, none, acts⟩
      = (.unknown, ⟨4, 14000, delegateKnown, none, acts⟩) := rfl
  have hdelivered : (deliver timelyDelegate relayedSetup ⟨2, 2, .empty⟩ 2 [.executionRequested attributedCall]
      .inOrder).run ⟨3, 11000, delegateKnown, none, acts⟩
      = (none, { s₂ with acts := s₂.acts ++ [.relayed 2 (.executionRequested attributedCall)] }) :=
    run_deliver_relayed rfl hage hrun
  have hserved : (serveDeferred timelyDelegate relayedSetup ⟨2, 2, .empty⟩).run
      ⟨2, 8000, delegateKnown, none, [.scanned 1 []]⟩
      = (⟨2, 2, .empty⟩, ⟨2, 8000, delegateKnown, none, [.scanned 1 []]⟩) := rfl
  refine ⟨params, reply, ?_, hreceipt⟩
  rw [actsAfter, afterTurns, timely_first]
  dsimp only
  unfold turn
  rw [run_bind_of hserved]
  dsimp only
  rw [run_bind_of hscan]
  unfold deliverHead deliverHeld
  dsimp only
  rw [bind_assoc, bind_assoc, run_bind_of hdelivered]
  show s₂.acts ++ [.relayed 2 (.executionRequested attributedCall)] = _
  rw [hacts]
  rfl

theorem timely_readInTime : ReadInTime 1 2 (actsAfter timelyDelegate relayedSetup 1 0 2) := by
  obtain ⟨params, reply, hacts, -⟩ := timely_second
  rw [hacts]
  intro before events later heq
  cases before with
  | nil => cases heq
  | cons act before =>
      obtain ⟨rfl, hrest⟩ := List.cons.inj heq
      refine ⟨[], [], before, rfl, ?_⟩
      intro x es hx
      have hmem : Act.scanned x es ∈ [.scanned 2 [.executionRequested attributedCall], .sent (.createTask params) reply,
          .relayed 2 (.executionRequested attributedCall)] := hrest.symm ▸ List.mem_append_left _ hx
      rcases List.mem_cons.mp hmem with hlast | hmem
      · cases hlast
        decide
      · simp at hmem

/-- The call's task is its sender's. -/
theorem timely_delegate_runs_as_sender : ∃ params reply,
    .sent (.createTask params) reply ∈ actsAfter timelyDelegate relayedSetup 1 0 2 ∧
    params.context.receiptId = some "call" ∧ params.context.relayerId = some "bob.near" ∧
    params.userAccountId = some "alice.near" ∧ params.userAccountId ≠ some "bob.near" := by
  obtain ⟨params, reply, hacts, hreceipt⟩ := timely_second
  have hsent : .sent (.createTask params) reply ∈ actsAfter timelyDelegate relayedSetup 1 0 2 := by
    rw [hacts]
    simp
  exact ⟨params, reply, hsent, hreceipt,
    metaCall_runs_as_sender timelyDelegate_readsChain relayed_metaCall 1 0 2 timely_readInTime params reply hsent
      hreceipt⟩

end Monitor

end Outlayer
