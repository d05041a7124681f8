import Outlayer.Contract.LedgerSteps
import Outlayer.Contract.Replay

/-!
# `Contract.Correctness.Payout` — every admitted request is settled once, for what was paid

A request is settled by the step that takes it out of `pendingRequests`. Over a whole history that happens at
most once, and no other step pays anything for it. What the settling step pays back, and what it books as a
fee, is read off the case of the step (`settlement_of_step`); the sums of the two are then arithmetic
on the fee.
-/

namespace Outlayer
open Checked Collections Runs

/-! ## Admission and settlement as events of a history -/

/-- The pending request under `id`. -/
def World.request (w : World) (id : Nat) : Option ExecutionRequest := w.contract.pendingRequests.lookup id

/-- The arguments of a call of `request_execution`. -/
def Event.request : Event → Option RequestArgs
  | .call _ (.requestExecution a) => some a
  | _                             => none

/-- The step admits request `r` under `id`. -/
def Step.AdmitsAs (t : Step) (id : Nat) (r : ExecutionRequest) : Prop :=
  t.event.request.isSome = true ∧ t.pre.contract.nextRequestId = id ∧ t.post.request id = some r

/-- The step takes the request under `id` out. -/
def Step.Settles (t : Step) (id : Nat) : Prop := t.pre.request id ≠ none ∧ t.post.request id = none

instance (t : Step) (id : Nat) (r : ExecutionRequest) : Decidable (t.AdmitsAs id r) :=
  inferInstanceAs (Decidable (_ ∧ _ ∧ _))

instance (t : Step) (id : Nat) : Decidable (t.Settles id) := inferInstanceAs (Decidable (_ ∧ _))

/-! ## A request keeps its terms -/

section Terms
variable {H : Host} {w w' : World} {tr : List Step} {id : Nat}

/-- A pending request changes in one way only: its output is delivered. -/
def SameTerms (r r' : ExecutionRequest) : Prop := r' = r ∨ ∃ output, r' = r.delivered output

theorem SameTerms.trans {r₁ r₂ r₃ : ExecutionRequest} (h₁ : SameTerms r₁ r₂) (h₂ : SameTerms r₂ r₃) :
    SameTerms r₁ r₃ := by
  rcases h₂ with rfl | ⟨output, rfl⟩
  · exact h₁
  · rcases h₁ with rfl | ⟨_, rfl⟩
    · exact Or.inr ⟨output, rfl⟩
    · exact Or.inr ⟨output, rfl⟩

theorem SameTerms.facts {r r' : ExecutionRequest} (h : SameTerms r r') :
    r'.payment = r.payment ∧ r'.payerAccountId = r.payerAccountId ∧ r'.inputLen = r.inputLen := by
  rcases h with rfl | ⟨_, rfl⟩
  · exact ⟨rfl, rfl, rfl⟩
  · exact ⟨rfl, rfl, rfl⟩

theorem next_mono_run (h : Run (World.next H) w tr w') :
    w.contract.nextRequestId ≤ w'.contract.nextRequestId := by
  induction h with
  | start => exact Nat.le_refl _
  | step _ hf ih => exact ih.trans (next_mono hf)

/-- **An id that has been handed out is never handed out again.** What is pending under it after a run was
    pending under it before, on the same terms. -/
theorem request_run (h : Run (World.next H) w tr w') (hlt : id < w.contract.nextRequestId)
    {r' : ExecutionRequest} (hr' : w'.request id = some r') :
    ∃ r, w.request id = some r ∧ SameTerms r r' := by
  induction h generalizing r' with
  | start => exact ⟨r', hr', Or.inl rfl⟩
  | @step tr t hrun hf ih =>
      -- an admission takes the next id, which is past this one
      have hmono := next_mono_run hrun
      cases request_origin hf hr' with
      | admitted _ _ _ _ id_eq _ _ _ => omega
      | kept r₁ pending request =>
          obtain ⟨r, hr, hsame⟩ := ih pending
          exact ⟨r, hr, hsame.trans request⟩

end Terms

/-! ## Settled at most once -/

section Once
variable {H : Host} {owner : AccountId} {operator : Option AccountId} {standard version : Option String}
  {tr : List Step} {w : World} {id : Nat}

/-- After a settlement the request is gone for good. -/
theorem settled_gone {t : Step} {tr₂ : List Step} (hinv : LedgerInv t.pre) (hf : Fires (World.next H) t)
    (hs : t.Settles id) (hrun : Run (World.next H) t.post tr₂ w) : w.request id = none := by
  obtain ⟨r, hr⟩ := Option.ne_none_iff_exists'.mp hs.1
  have hlt := hinv.lt_next hr
  have hmono := next_mono hf
  by_contra hne
  obtain ⟨r', hr'⟩ := Option.ne_none_iff_exists'.mp hne
  -- a request there later would have been there right after the settlement
  obtain ⟨r₀, hr₀, -⟩ := request_run hrun (by omega) hr'
  rw [hs.2] at hr₀
  cases hr₀

theorem settles_once (h : World.History H owner operator standard version tr w) :
    tr.Pairwise fun t u => ¬ (t.Settles id ∧ u.Settles id) := by
  unfold World.History at h
  induction h with
  | start => exact List.Pairwise.nil
  | @step tr u hrun hf ih =>
      refine List.pairwise_append.mpr ⟨ih, List.pairwise_singleton _ _, ?_⟩
      intro t ht u' hu'
      obtain rfl := List.mem_singleton.mp hu'
      rintro ⟨hst, hsu⟩
      obtain ⟨tr₁, tr₂, rfl⟩ := List.append_of_mem ht
      obtain ⟨hrun₁, hft, hrun₂⟩ := hrun.at_split
      exact hsu.1 (settled_gone (ledgerInv_history hrun₁) hft hst hrun₂)

end Once

/-! ## What a settling step pays and books -/

/-- The pending request that the yield `d` waits for. -/
def World.awaited (w : World) (d : CryptoHash) : Option ExecutionRequest :=
  match w.yields.lookup d with
  | some ⟨.onExecutionResponse data, _⟩ => w.request data.requestId
  | _                                   => none

/-- The pending request whose yield times out in this step. -/
def Step.timedOutRequest (t : Step) : Option ExecutionRequest :=
  match t.event with
  | .yielded _ d .timedOut => t.pre.awaited d
  | _                      => none

/-- The pending request this step asks to cancel as stale. -/
def Step.staleRequest (t : Step) : Option ExecutionRequest :=
  match t.event with
  | .call _ (.cancelStaleExecution id) => t.pre.request id
  | _                                  => none

/-- The charge of a settling step. -/
inductive Charge (t : Step) (r : ExecutionRequest) : Nat → Prop
  /-- metered, or nothing: the storage part is spared -/
  | metered {fee : Nat} (spares : fee ≤ r.payment - inputStorageDeposit r.inputLen)
      (intime : t.timedOutRequest = none) (unstale : t.staleRequest = none) : Charge t r fee
  /-- the base fee, when the yield timed out -/
  | base (timedOut : t.timedOutRequest = some r) (unstale : t.staleRequest = none) :
      Charge t r t.pre.contract.baseFee
  /-- the stale charge, up to the payment -/
  | stale (charge : Nat) (stale : t.staleRequest = some r) (intime : t.timedOutRequest = none)
      (charged : staleCharge t.pre.contract.toConfig r = .ok charge) : Charge t r (min r.payment charge)

/-- A settling step refunds the payer what is left of the payment and books the charge. -/
structure Settlement (t : Step) (id : Nat) (r : ExecutionRequest) (fee : Nat) : Prop where
  charge : Charge t r fee
  paid : settledTo r.payerAccountId id t.out = r.payment - fee
  fees : t.post.contract.totalFeesCollected = t.pre.contract.totalFeesCollected + fee

section Settling
variable {H : Host} {t : Step} {id : Nat} {r : ExecutionRequest}

/-- A step that removes one request removes that one. -/
theorem Closes.settled {l l' : Ledger} {es : List Effect} {i n fee : Nat} {x : ExecutionRequest}
    (hc : Closes l l' es i x n fee) (hr : l.pendingRequests.lookup id = some r)
    (hnone : l'.pendingRequests.lookup id = none) :
    i = id ∧ x = r ∧ settledTo r.payerAccountId id es = n := by
  have hid : id = i := by
    by_contra hne
    rw [hc.removed, LookupMap.lookup_erase_iff, if_neg hne, hr] at hnone
    cases hnone
  subst hid
  obtain rfl : x = r := Option.some.inj (hc.pending.symm.trans hr)
  refine ⟨rfl, rfl, ?_⟩
  rw [hc.pays.paid, if_pos ⟨rfl, rfl⟩]

/-- **What a settling step pays and books.** -/
theorem settlement_of_step (hf : Fires (World.next H) t) (inv : LedgerInv t.pre)
    (hr : t.pre.request id = some r) (hnone : t.post.request id = none) :
    ∃ fee, Settlement t id r fee := by
  unfold World.request at hr hnone
  cases ledger_move hf with
  | keeps pending _ _ _ _ =>
      rw [pending, hr] at hnone
      cases hnone
  | admits env a event hadm =>
      obtain ⟨resolved, hp⟩ := hadm.pending
      rw [hp, LookupMap.lookup_insert_iff] at hnone
      split at hnone
      · cases hnone
      · rw [hr] at hnone
        cases hnone
  | submits i x output pending post quiet =>
      rw [show t.post.contract.pendingRequests = _ from congrArg Ledger.pendingRequests post,
        LookupMap.lookup_insert_iff] at hnone
      split at hnone
      · cases hnone
      · rw [hr] at hnone
        cases hnone
  -- the callback pays from its own copy of the payment, and the copy is right
  | responds env d y data x fee event waiting callback spares closes =>
      obtain ⟨rfl, rfl, hpaid⟩ := closes.settled hr hnone
      have hpay := (inv.yields d y data waiting callback).2 x hr
      rw [← hpay] at spares hpaid
      refine ⟨fee, .metered spares ?_ ?_, hpaid, closes.fees⟩
      · rw [Step.timedOutRequest, event]
      · rw [Step.staleRequest, event]
  | timesOut env d y data x event waiting callback closes =>
      obtain ⟨rfl, rfl, hpaid⟩ := closes.settled hr hnone
      have hpay := (inv.yields d y data waiting callback).2 x hr
      rw [← hpay] at hpaid
      refine ⟨_, .base ?_ ?_, hpaid, closes.fees⟩
      · obtain ⟨_, payload⟩ := y
        cases callback
        rw [Step.timedOutRequest, event]
        simp only [World.awaited, waiting]
        exact hr
      · rw [Step.staleRequest, event]
  | goesStale env i x charge event charged closes =>
      obtain ⟨rfl, rfl, hpaid⟩ := closes.settled hr hnone
      refine ⟨_, .stale charge ?_ ?_ charged, hpaid, closes.fees⟩
      · rw [Step.staleRequest, event]
        exact hr
      · rw [Step.timedOutRequest, event]
  -- the owner's cancellations charge nothing
  | cancels env call event owners ends fees =>
      have hpaid := ends.paid id r hr hnone r.payerAccountId
      rw [if_pos rfl] at hpaid
      refine ⟨0, .metered (Nat.zero_le _) ?_ ?_, hpaid, fees⟩
      · rw [Step.timedOutRequest, event]
      · rw [Step.staleRequest, event]
        cases call with
        | cancelStaleExecution _ => exact owners.elim
        | _ => rfl

/-- A step that does not settle a request pays nothing for it. -/
theorem silent_of_not_settles (hf : Fires (World.next H) t) (hs : ¬ t.Settles id) (a : AccountId) :
    settledTo a id t.out = 0 := by
  have hkeep : ∀ {refund}, Ends t.pre.contract.toLedger t.post.contract.toLedger t.out refund →
      settledTo a id t.out = 0 := by
    intro refund he
    rcases he.kept id with hk | hk
    · exact he.silent id hk a
    · by_cases hpre : t.pre.request id = none
      · exact he.silent id (hk.trans hpre.symm) a
      · exact absurd ⟨hpre, hk⟩ hs
  cases ledger_move hf with
  | keeps _ _ _ silent _ => exact silent a id
  | admits _ _ _ hadm => exact hadm.silent a id
  | submits _ _ _ _ _ quiet => exact quiet.settledTo a id
  | responds _ _ _ _ _ _ _ _ _ _ closes => exact hkeep (closes.ends (fun _ _ => _) rfl)
  | timesOut _ _ _ _ _ _ _ _ closes => exact hkeep (closes.ends (fun _ _ => _) rfl)
  | goesStale _ _ _ _ _ _ closes => exact hkeep (closes.ends (fun _ _ => _) rfl)
  | cancels _ _ _ _ ends _ => exact hkeep ends

end Settling

/-! ## From admission to settlement -/

section History
variable {H : Host} {owner : AccountId} {operator : Option AccountId} {standard version : Option String}
  {tr tr₁ tr₂ : List Step} {w : World} {id : Nat} {r : ExecutionRequest} {ta t : Step}

/-- A step of a history that settles an admitted request finds it on the terms of its admission. -/
theorem settles_admitted (h : World.History H owner operator standard version (tr₁ ++ ta :: tr₂) w)
    (hadm : ta.AdmitsAs id r) (ht : t ∈ tr₁ ++ ta :: tr₂) (hs : t.Settles id) :
    ∃ r', t.pre.request id = some r' ∧ SameTerms r r' := by
  obtain ⟨r', hr'⟩ := Option.ne_none_iff_exists'.mp hs.1
  refine ⟨r', hr', ?_⟩
  obtain ⟨hrun₁, hfa, hrun₂⟩ := h.at_split
  obtain ⟨-, hid, hra⟩ := hadm
  rcases List.mem_append.mp ht with ht | ht
  · -- before the admission the id had not been handed out
    obtain ⟨u₁, u₂, rfl⟩ := List.append_of_mem ht
    obtain ⟨hu₁, hft, hu₂⟩ := hrun₁.at_split
    have hlt := (ledgerInv_history hu₁).lt_next hr'
    have hm₁ := next_mono hft
    have hm₂ := next_mono_run hu₂
    omega
  · rcases List.mem_cons.mp ht with rfl | ht
    · have hlt := (ledgerInv_history hrun₁).lt_next hr'
      omega
    · obtain ⟨u₁, u₂, rfl⟩ := List.append_of_mem ht
      obtain ⟨hu₁, -, -⟩ := hrun₂.at_split
      have hlt := (ledgerInv_step hfa (ledgerInv_history hrun₁)).lt_next hra
      obtain ⟨r₀, hr₀, hsame⟩ := request_run hu₁ hlt hr'
      rw [hra] at hr₀
      cases hr₀
      exact hsame

/-- What holds of every settling step of a history holds of every settlement of an admitted request, in terms
    of the request as it was admitted. -/
theorem settlement_of_admitted (h : World.History H owner operator standard version (tr₁ ++ ta :: tr₂) w)
    (hadm : ta.AdmitsAs id r) (ht : t ∈ tr₁ ++ ta :: tr₂) (hs : t.Settles id) :
    ∃ r' fee, t.pre.request id = some r' ∧ SameTerms r r' ∧ Settlement t id r' fee := by
  obtain ⟨r', hr', hsame⟩ := settles_admitted h hadm ht hs
  obtain ⟨_, hrun, hf⟩ := h.fired ht
  obtain ⟨fee, hset⟩ := settlement_of_step hf (ledgerInv_history hrun) hr' hs.2
  exact ⟨r', fee, hr', hsame, hset⟩

/-! ## The settlement identity -/

/-- **The settlement identity** of a history: every admitted request is settled at most once; the step that
    settles it pays its payer and books as fees exactly the payment recorded at its admission; no other step
    pays anything for it. -/
def SettledInFull (tr : List Step) : Prop :=
  ∀ tr₁ ta tr₂ id r, tr = tr₁ ++ ta :: tr₂ → ta.AdmitsAs id r →
    tr.Pairwise (fun t u => ¬ (t.Settles id ∧ u.Settles id)) ∧
    ∀ t ∈ tr,
      (t.Settles id → settledTo r.payerAccountId id t.out + t.post.contract.totalFeesCollected
        = t.pre.contract.totalFeesCollected + r.payment) ∧
      (¬ t.Settles id → ∀ a, settledTo a id t.out = 0)

/-- A yield that times out finds a payment that covers the base fee as it is now. -/
def Step.CoversBaseFee (t : Step) : Prop :=
  ∀ r ∈ t.timedOutRequest, t.pre.contract.baseFee ≤ r.payment

instance (t : Step) : Decidable t.CoversBaseFee := inferInstanceAs (Decidable (∀ r ∈ _, _))

/-- A settlement accounts for the whole payment exactly when the fee does not exceed it. -/
theorem Settlement.identity_iff {fee : Nat} (hs : Settlement t id r fee) :
    settledTo r.payerAccountId id t.out + t.post.contract.totalFeesCollected
      = t.pre.contract.totalFeesCollected + r.payment ↔ fee ≤ r.payment := by
  rw [hs.paid, hs.fees]
  omega

/-- **The identity holds** over every history in which no yield times out on a request that was paid less than
    the present base fee; and where one does and its callback settles the request, the identity fails. -/
theorem settled_in_full (h : World.History H owner operator standard version tr w) :
    ((∀ t ∈ tr, t.CoversBaseFee) → SettledInFull tr) ∧
      ∀ t ∈ tr, ¬ t.CoversBaseFee → ∀ id r, t.Settles id → t.pre.request id = some r →
        settledTo r.payerAccountId id t.out + t.post.contract.totalFeesCollected
          ≠ t.pre.contract.totalFeesCollected + r.payment := by
  constructor
  · rintro hcovers tr₁ ta tr₂ id r rfl hadm
    refine ⟨settles_once h, fun t ht => ⟨fun hs => ?_, fun hs a => ?_⟩⟩
    · obtain ⟨r', fee, hr', hsame, hset⟩ := settlement_of_admitted h hadm ht hs
      obtain ⟨hpay, hpayer, -⟩ := hsame.facts
      rw [← hpay, ← hpayer, hset.identity_iff]
      cases hset.charge with
      | metered spares _ _ => omega
      -- the one charge that is not capped at the payment
      | base timedOut _ => exact hcovers t ht r' timedOut
      | stale charge _ _ _ => exact Nat.min_le_left _ _
    · obtain ⟨_, -, hf⟩ := h.fired ht
      exact silent_of_not_settles hf hs a
  · intro t ht hnot id r hs hr
    obtain ⟨_, hrun, hf⟩ := h.fired ht
    obtain ⟨fee, hset⟩ := settlement_of_step hf (ledgerInv_history hrun) hr hs.2
    rw [Ne, hset.identity_iff]
    intro hle
    apply hnot
    intro r' hr'
    cases hset.charge with
    | metered _ intime _ =>
        rw [intime] at hr'
        cases hr'
    | base timedOut _ =>
        rw [timedOut] at hr'
        cases hr'
        exact hle
    | stale _ _ intime _ =>
        rw [intime] at hr'
        cases hr'

/-- Bob asks for a compilation and pays the base fee; `repricing` follows; the yield times out. -/
def timedOutRun (repricing : List Event) : List Event :=
  [callBy bobAccount (.requestExecution { source := .gitHub "alice/app" "main" none }) (10 ^ 21) 0 1]
    ++ repricing ++ [.yielded (envOf ownerAccount 0 0 0) (Vector.replicate 32 1) .timedOut]

/-- With the price unchanged, the whole payment is accounted for. -/
theorem settled_in_full_at_base_fee : ∃ tr w,
    World.History asciiHost ownerAccount none none none tr w ∧ SettledInFull tr ∧
      ∃ t ∈ tr, t.Settles 0 := by
  obtain ⟨tr, w, h, hp⟩ := exists_history (timedOutRun [])
    (fun r => decide ((∀ t ∈ r.1, t.CoversBaseFee) ∧ ∃ t ∈ r.1, t.Settles 0)) (by decide +kernel)
  obtain ⟨hcovers, hsettles⟩ := of_decide_eq_true hp
  exact ⟨tr, w, h, (settled_in_full h).1 hcovers, hsettles⟩

/-- The base fee was raised a thousandfold in between: the fee booked exceeds the payment. -/
theorem not_settled_in_full_after_repricing : ∃ tr w,
    World.History asciiHost ownerAccount none none none tr w ∧ ¬ SettledInFull tr := by
  obtain ⟨tr, w, h, hp⟩ := exists_history
    (timedOutRun [callBy ownerAccount (.setPricing { baseFee := some (10 ^ 24) })])
    (fun r => decide (∃ ta ∈ r.1.head?, ∃ t ∈ r.1, ∃ x ∈ ta.post.request 0, ta.AdmitsAs 0 x ∧ t.Settles 0 ∧
      ¬ settledTo x.payerAccountId 0 t.out + t.post.contract.totalFeesCollected
        = t.pre.contract.totalFeesCollected + x.payment)) (by decide +kernel)
  obtain ⟨ta, hta, t, ht, x, -, hadm, hs, hne⟩ := of_decide_eq_true hp
  refine ⟨tr, w, h, fun hfull => hne ?_⟩
  obtain ⟨rest, rfl⟩ := List.head?_eq_some_iff.mp hta
  exact ((hfull [] ta rest 0 x rfl hadm).2 t ht).1 hs

/-! ## The storage part -/

/-- **The storage part comes back** in a history: the step that settles an admitted request refunds at least
    the storage deposit of its input. -/
def StorageReturned (tr : List Step) : Prop :=
  ∀ tr₁ ta tr₂ id r, tr = tr₁ ++ ta :: tr₂ → ta.AdmitsAs id r →
    ∀ t ∈ tr, t.Settles id → inputStorageDeposit r.inputLen ≤ settledTo r.payerAccountId id t.out

/-- A charge that leaves the storage part of a payment alone. -/
def ExecutionRequest.Spares (r : ExecutionRequest) (charge : Nat) : Prop :=
  inputStorageDeposit r.inputLen = 0 ∨ charge + inputStorageDeposit r.inputLen ≤ r.payment

instance (r : ExecutionRequest) (charge : Nat) : Decidable (r.Spares charge) :=
  inferInstanceAs (Decidable (_ ∨ _))

/-- The two charges that are not capped at the compute part, as they are now, leave the storage part alone:
    the base fee of a yield that times out, and the stale charge of a request its sender cancels. -/
def Step.SparesStorage (t : Step) : Prop :=
  (∀ r ∈ t.timedOutRequest, r.Spares t.pre.contract.baseFee) ∧
    ∀ r ∈ t.staleRequest, ∀ charge ∈ (staleCharge t.pre.contract.toConfig r).toOption, r.Spares charge

instance (t : Step) : Decidable t.SparesStorage := inferInstanceAs (Decidable ((∀ r ∈ _, _) ∧ ∀ r ∈ _, _))

/-- What is left after a charge covers the storage part exactly when the charge spares it. -/
theorem spares_iff {charge : Nat} :
    inputStorageDeposit r.inputLen ≤ r.payment - charge ↔ r.Spares charge := by
  unfold ExecutionRequest.Spares
  omega

/-- **The storage part comes back** over every history in which the uncapped charges leave it alone; and where
    one does not and the step settles the request, less than the storage part comes back. -/
theorem storage_returned (h : World.History H owner operator standard version tr w) :
    ((∀ t ∈ tr, t.SparesStorage) → StorageReturned tr) ∧
      ∀ t ∈ tr, ¬ t.SparesStorage → ∀ id r, t.Settles id → t.pre.request id = some r →
        settledTo r.payerAccountId id t.out < inputStorageDeposit r.inputLen := by
  constructor
  · rintro hspares tr₁ ta tr₂ id r rfl hadm t ht hs
    obtain ⟨r', fee, hr', hsame, hset⟩ := settlement_of_admitted h hadm ht hs
    obtain ⟨-, hpayer, hlen⟩ := hsame.facts
    rw [← hpayer, ← hlen, hset.paid]
    obtain ⟨hbase, hstale⟩ := hspares t ht
    cases hset.charge with
    | metered spares _ _ =>
        obtain ⟨_, hrun, -⟩ := h.fired ht
        have hcover := (ledgerInv_history hrun).storage id r' hr'
        omega
    | base timedOut _ => exact spares_iff.mpr (hbase r' timedOut)
    | stale charge stale _ charged =>
        have hsp := spares_iff.mpr (hstale r' stale charge (by rw [charged]; rfl))
        omega
  · intro t ht hnot id r hs hr
    obtain ⟨_, hrun, hf⟩ := h.fired ht
    obtain ⟨fee, hset⟩ := settlement_of_step hf (ledgerInv_history hrun) hr hs.2
    by_contra hge
    rw [Nat.not_lt, hset.paid] at hge
    apply hnot
    cases hset.charge with
    | metered _ intime unstale => exact ⟨by simp [intime], by simp [unstale]⟩
    | base timedOut unstale =>
        refine ⟨fun r' hr' => ?_, by simp [unstale]⟩
        rw [timedOut] at hr'
        cases hr'
        exact spares_iff.mp hge
    | stale charge stale intime charged =>
        refine ⟨by simp [intime], fun r' hr' charge' hcharge' => ?_⟩
        rw [stale] at hr'
        cases hr'
        rw [charged] at hcharge'
        cases hcharge'
        exact spares_iff.mp (by omega)

end History

/-- A run with an input of one byte over the free allowance. -/
def bigRequest (input : String) : RequestArgs :=
  { source := .gitHub "alice/app" "main" none, resourceLimits := some .default, inputData := some input }

/-- The call that bob makes. -/
def bigEnv : Env := World.fresh.seenBy (envOf bobAccount (10 ^ 24) 0 1)

/-- The request as the contract keeps it. -/
def bigData (input : String) : RequestData :=
  (bigRequest input).toData bigEnv 0 (.gitHub "alice/app" "main" none) none

/-- What a fresh contract stores for it. -/
def bigStored (input : String) : ExecutionRequest :=
  (bigRequest input).toRequest bigEnv 0 (.gitHub "alice/app" "main" none)

/-- The chain while it is pending, with the base fee at `fee`. -/
def bigWorld (input : String) (fee : Nat) : World :=
  { World.fresh with
    contract := { World.fresh.contract with
      baseFee := fee
      nextRequestId := 1
      pendingRequests := AList.insert 0 (bigStored input) ∅ }
    yields := AList.insert (Vector.replicate 32 1) ⟨.onExecutionResponse (bigData input), none⟩ ∅ }

theorem big_cost (input : String) :
    admissionCost asciiHost World.fresh.contract (bigRequest input) = .ok 7000100000000000000000 := by
  have hest : estimateCost World.fresh.contract.toConfig .default = .ok 7000100000000000000000 := by
    simp only [estimateCost, bind_eq_ok, mul_eq_ok, add_eq_ok]
    exact ⟨_, ⟨by decide, rfl⟩, _, ⟨by decide, rfl⟩, _, ⟨by decide, rfl⟩, _, ⟨by decide, rfl⟩, by decide, rfl⟩
  rw [admissionCost, if_neg (show ¬ (bigRequest input).compileOnly = true from Bool.false_ne_true)]
  simp only [bind_eq_ok, pure_eq_ok]
  exact ⟨(), rfl, _, hest, (), rfl, rfl⟩

/-- What the call asks of the chain. -/
def bigEffects (input : String) : List Effect :=
  [.yieldCreate (Vector.replicate 32 1) (responseGas input.utf8ByteSize) (.onExecutionResponse (bigData input)),
   emitEvent World.fresh.contract.toConfig
     (.executionRequested (bigData input) (Vector.replicate 32 1) 0)]

theorem big_admitted {input : String} (hlen : input.utf8ByteSize = 32769) :
    World.next asciiHost World.fresh
      (callBy bobAccount (.requestExecution (bigRequest input)) (10 ^ 24) 0 1)
        = some (bigWorld input (10 ^ 21), bigEffects input) := by
  have hstorage : inputStorageDeposit (bigRequest input).inputLen = 10 ^ 19 := by
    show inputStorageDeposit input.utf8ByteSize = _
    rw [hlen]
    decide
  have hinline : assertInlineSource (bigRequest input).source (.gitHub "alice/app" "main" none) = .ok () := by
    rfl
  have hreq : requestExecution asciiHost bigEnv World.fresh.contract (bigRequest input)
      = .ok ((bigWorld input (10 ^ 21)).contract.toLedger, bigEffects input) :=
    requestExecution_eq_ok rfl rfl rfl hinline rfl (big_cost input) rfl (by rw [hstorage]; decide) (by decide)
  have hexec : exec asciiHost bigEnv World.fresh.contract (.requestExecution (bigRequest input))
      = .ok ((bigWorld input (10 ^ 21)).contract, bigEffects input) := by
    simp only [exec, runCall, hreq, PartRun.commit, bind_eq_ok, require_eq_ok]
    exact ⟨(), Or.inl rfl, _, rfl, rfl⟩
  exact next_call (w := World.fresh) (by decide) hexec

theorem big_repriced (input : String) (fee : Nat) :
    World.next asciiHost (bigWorld input (10 ^ 21)) (callBy ownerAccount (.setPricing { baseFee := some fee }))
      = some (bigWorld input fee, []) := by
  have hnew : (Vector.replicate 32 0 : CryptoHash) ∉ (bigWorld input (10 ^ 21)).yields := by
    show (Vector.replicate 32 0 : CryptoHash) ∉ AList.insert (Vector.replicate 32 1) _ ∅
    rw [AList.mem_insert]
    decide
  have hexec : exec asciiHost ((bigWorld input (10 ^ 21)).seenBy (envOf ownerAccount 0 0 0))
      (bigWorld input (10 ^ 21)).contract (.setPricing { baseFee := some fee })
        = .ok ((bigWorld input fee).contract, []) := rfl
  exact next_call hnew hexec

theorem big_timedOut (input : String) {fee : Nat} (hfee : fee < 2 ^ 128) :
    ∃ w es, World.next asciiHost (bigWorld input fee)
      (.yielded (envOf ownerAccount 0 0 0) (Vector.replicate 32 1) .timedOut) = some (w, es) ∧
        w.request 0 = none := by
  have hr : (bigWorld input fee).contract.pendingRequests.lookup (bigData input).requestId
      = some (bigStored input) := rfl
  obtain ⟨l', es, hrun⟩ : ∃ l' es, onExecutionResponse asciiHost (envOf ownerAccount 0 0 0)
      (bigWorld input fee).contract (bigData input) none = .ok (l', es) :=
    onExecutionResponse_timedOut hr (show 0 + 1 < 2 ^ 64 by decide) (show 0 + 0 < 2 ^ 128 by decide)
      (show 0 + fee < 2 ^ 128 by omega)
  have hgone : l'.pendingRequests.lookup 0 = none := by
    rcases onExecutionResponse_cases hrun with ⟨hnone, -, -⟩ | ⟨_, _, hcl, -⟩
    · cases hnone
    · rw [hcl.removed]
      exact AList.lookup_erase 0 _
  have hy : (bigWorld input fee).yields.lookup (Vector.replicate 32 1)
      = some ⟨.onExecutionResponse (bigData input), none⟩ := rfl
  have hcommit : (runCallback asciiHost (envOf ownerAccount 0 0 0) (bigWorld input fee).contract none
      (.onExecutionResponse (bigData input))).commit (bigWorld input fee).contract
        = .ok ({ (bigWorld input fee).contract with toLedger := l' }, es) := by
    simp only [runCallback, callbackResult, PartRun.commit, bind_eq_ok, pure_eq_ok]
    exact ⟨_, ⟨_, rfl, hrun⟩, rfl⟩
  refine ⟨_, _, next_timedOut hy hcommit, ?_⟩
  rw [World.request, after_contract]
  exact hgone

/-- The history, whatever the base fee is raised or lowered to. -/
theorem big_history {input : String} (hlen : input.utf8ByteSize = 32769) {fee : Nat} (hfee : fee < 2 ^ 128) :
    ∃ t₁ t₂ t₃ : Step, World.History asciiHost ownerAccount none none none [t₁, t₂, t₃] t₃.post ∧
      t₁.AdmitsAs 0 (bigStored input) ∧ (t₁.SparesStorage ∧ t₂.SparesStorage) ∧ t₃.Settles 0 ∧
      t₃.pre = bigWorld input fee ∧ t₃.timedOutRequest = some (bigStored input) ∧ t₃.staleRequest = none := by
  obtain ⟨w, es, h₃, hgone⟩ := big_timedOut input hfee
  have hnone : ∀ {o : Option ExecutionRequest} {p : ExecutionRequest → Prop}, o = none → ∀ r ∈ o, p r := by
    rintro _ _ rfl r hr
    cases hr
  have h₁ : Fires (World.next asciiHost) ⟨World.fresh, _, _, _⟩ := big_admitted hlen
  have h₂ : Fires (World.next asciiHost) ⟨bigWorld input (10 ^ 21), _, _, _⟩ := big_repriced input fee
  have h₃ : Fires (World.next asciiHost) ⟨bigWorld input fee, _, _, _⟩ := h₃
  have hrun := Run.step (Run.step (Run.step .start h₁) h₂) h₃
  refine ⟨_, _, _, hrun, ⟨rfl, rfl, rfl⟩, ⟨⟨hnone rfl, hnone rfl⟩, ⟨hnone rfl, hnone rfl⟩⟩, ⟨?_, hgone⟩, rfl,
    rfl, rfl⟩
  exact Option.some_ne_none (bigStored input)

/-- There are texts of any size, among them one a byte over the free allowance. -/
theorem exists_size (n : Nat) : ∃ input : String, input.utf8ByteSize = n := by
  refine ⟨String.ofList (List.replicate n 'a'), ?_⟩
  rw [← Json.size_toList, String.toList_ofList, Json.size, List.map_replicate, List.sum_replicate_nat]
  exact Nat.mul_one n

theorem bigStored_storage {input : String} (hlen : input.utf8ByteSize = 32769) :
    inputStorageDeposit (bigStored input).inputLen = 10 ^ 19 := by
  show inputStorageDeposit input.utf8ByteSize = _
  rw [hlen]
  decide

/-- With the price unchanged, the storage part comes back. -/
theorem storage_returned_at_base_fee : ∃ tr w,
    World.History asciiHost ownerAccount none none none tr w ∧ StorageReturned tr ∧
      ∃ t ∈ tr, t.Settles 0 := by
  obtain ⟨input, hlen⟩ := exists_size 32769
  obtain ⟨t₁, t₂, t₃, h, -, ⟨hs₁, hs₂⟩, hsettles, hpre, htimed, hstale⟩ :=
    big_history hlen (show 10 ^ 21 < 2 ^ 128 by decide)
  refine ⟨_, _, h, (storage_returned h).1 ?_, t₃, by simp, hsettles⟩
  have hs₃ : t₃.SparesStorage := by
    refine ⟨?_, by simp [hstale]⟩
    intro r hr
    rw [htimed] at hr
    cases hr
    rw [hpre]
    right
    rw [bigStored_storage hlen]
    show 10 ^ 21 + 10 ^ 19 ≤ 10 ^ 24 % 2 ^ 128
    decide
  simp [hs₁, hs₂, hs₃]

/-- The base fee was raised to the whole payment in between: nothing comes back. -/
theorem storage_kept_after_repricing : ∃ tr w,
    World.History asciiHost ownerAccount none none none tr w ∧ ¬ StorageReturned tr := by
  obtain ⟨input, hlen⟩ := exists_size 32769
  obtain ⟨t₁, t₂, t₃, h, hadm, -, hsettles, hpre, htimed, -⟩ :=
    big_history hlen (show 10 ^ 24 < 2 ^ 128 by decide)
  refine ⟨_, _, h, fun hret => ?_⟩
  have hback := hret [] t₁ [t₂, t₃] 0 _ rfl hadm t₃ (by simp) hsettles
  have hr : t₃.pre.request 0 = some (bigStored input) := by
    rw [hpre]
    rfl
  obtain ⟨_, hrun, hf⟩ := h.fired (t := t₃) (by simp)
  obtain ⟨fee, hset⟩ := settlement_of_step hf (ledgerInv_history hrun) hr hsettles.2
  rw [bigStored_storage hlen, hset.paid] at hback
  cases hset.charge with
  | metered _ intime _ =>
      rw [htimed] at intime
      cases intime
  | base _ _ =>
      rw [hpre] at hback
      exact absurd hback (show ¬ 10 ^ 19 ≤ 10 ^ 24 % 2 ^ 128 - 10 ^ 24 by decide)
  | stale _ _ intime _ =>
      rw [htimed] at intime
      cases intime

end Outlayer
