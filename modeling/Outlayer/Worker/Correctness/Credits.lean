import Outlayer.Contract.Replay
import Outlayer.Worker.Steps

/-!
# `Worker.Correctness.Credits` — what is credited, and what was kept

A worker tells the coordinator to credit a top-up once the contract has accepted its resumption. The tokens are
kept, or given back, by the callback, which runs later and reads the state again. Between the two the owner of the
key can delete it, and then the callback refunds what was credited.

`credited_exactly_when_kept` says what it takes for the two to agree. A credit never is for refunded tokens when the
resumption the worker reports is the first one of its yield, and every top-up resumed with success finds its key when
its callback runs, and is run to the end with that resumption. What is kept is also credited, when workers alone
resume top-ups with success, see the outcome, and get their report through.
-/

namespace Outlayer
open Text Checked Collections Runs

namespace Worker

/-! ## Credits and tokens -/

/-- The tokens of the top-up are kept, or its callback has yet to run. -/
def Chain.NotRefunded (ch : Chain) (d : CryptoHash) : Prop :=
  ch.settled.lookup d = some .kept ∨ ch.settled.lookup d = none ∧ d ∈ ch.world.yields

/-- No credit is for a top-up whose tokens went back. -/
def System.CreditedOnlyIfKept (s : System) : Prop :=
  ∀ credit ∈ s.credits, credit.request.amount ≠ "0" →
    ∃ d : CryptoHash, credit.dataId = hexEncode d.toList ∧ s.chain.NotRefunded d

/-- The top-up is credited, or a worker is about to report it. -/
def System.Reports (s : System) (d : CryptoHash) : Prop :=
  (∃ credit ∈ s.credits, credit.request.amount ≠ "0" ∧ credit.dataId = hexEncode d.toList) ∨
    ∃ job task result, s.jobs.lookup job = some ⟨task, .crediting result⟩ ∧ task.amount ≠ "0" ∧
      task.dataId = hexEncode d.toList

/-- A yield that ended with its deposit kept has been reported as a credit. -/
def System.KeptOnlyIfCredited (s : System) : Prop :=
  ∀ d, s.chain.settled.lookup d = some .kept → s.Reports d

/-! ## Conditions on a step -/

/-- A top-up resumed with success is delivered with that resumption and enough gas, and finds its key. -/
def Chain.Careful (ch : Chain) : Event → Prop
  | .yielded _ d delivery =>
      ∀ y owner nonce amount data, ch.world.yields.lookup d = some y →
        y.callback = .onTopUpResponse owner nonce amount → y.payload = some (.topUpResult (.success data)) →
        delivery = .resumed ∧ paymentKey owner nonce ∈ ch.world.contract.secretsStorage
  | _ => True

/-- The callbacks of top-ups are careful, and the resumption a worker sees accepted is the first one. -/
def Move.Careful (t : Move) : Prop :=
  match t.event with
  | .chain e              => t.pre.chain.Careful e
  | .resume job (.seen _) =>
      ∀ task data result d y, t.pre.jobs.lookup job = some ⟨task, .resuming data result⟩ →
        decodeDataId task.dataId = .ok d → t.pre.chain.world.yields.lookup d = some y → y.payload = none
  | _                     => True

/-- Workers alone resume with success, they see what becomes of it, and their report gets through. -/
def Move.Reported (t : Move) : Prop :=
  match t.event with
  | .chain (.call _ (.resumeTopup _ (.success _))) => False
  | .resume _ (.unseen _)                          => False
  | .credit _ told                                 => told = true
  | .stop job => ∀ task result, t.pre.jobs.lookup job ≠ some ⟨task, .crediting result⟩
  | _         => True

/-! ## Resumed with success -/

/-- The top-up waits for its callback, resumed with success. -/
def Chain.Promised (ch : Chain) (d : CryptoHash) : Prop :=
  ∃ y data, ch.world.yields.lookup d = some y ∧ isTopUp y = true ∧
    y.payload = some (.topUpResult (.success data))

/-- The tokens are kept, or will be. -/
def Chain.Covered (ch : Chain) (d : CryptoHash) : Prop := ch.settled.lookup d = some .kept ∨ ch.Promised d

section Covered
variable {H : Host} {u : ChainStep} {d : CryptoHash}

theorem Chain.Covered.notRefunded {ch : Chain} (inv : ChainInv ch) (h : ch.Covered d) : ch.NotRefunded d := by
  rcases h with hkept | ⟨y, data, hy, -, -⟩
  · exact Or.inl hkept
  · refine Or.inr ⟨?_, LookupMap.mem_iff_lookup.mpr ⟨y, hy⟩⟩
    rw [AList.lookup_eq_none]
    intro hd
    rw [inv.spent d hd] at hy
    cases hy

/-- A careful step keeps what is kept, and keeps the promise it delivers. -/
theorem covered_stays (h : Fires (Chain.next H) u) (inv : ChainInv u.pre) (careful : u.pre.Careful u.event)
    (hd : u.pre.Covered d) : u.post.Covered d := by
  rcases hd with hkept | ⟨y, data, hy, htop, hp⟩
  · left
    rw [settled_lookup h, if_neg]
    · exact hkept
    · rintro ⟨-, hany⟩
      rw [inv.spent d (LookupMap.mem_iff_lookup.mpr ⟨_, hkept⟩)] at hany
      cases hany
  · by_cases hdel : delivered u.event = some d
    · left
      obtain ⟨owner, nonce, amount, hcb⟩ := isTopUp_eq htop
      obtain ⟨env, delivery, event⟩ := delivered_eq hdel
      rw [event] at careful
      obtain ⟨rfl, held⟩ := careful y owner nonce amount data hy hcb hp
      have hout : Effect.storage (.valueReturn (u128Json 0)) ∈ u.out :=
        delivered_keeps (t := u.toStep) (chain_step h).1 event hy hcb hp held
      rw [settled_lookup h, if_pos ⟨hdel, by simp [hy, htop]⟩, outcomeOf, if_pos hout]
    · right
      obtain ⟨y', hy', hlater⟩ := topUp_stays h hdel hy
      exact ⟨y', data, hy', Yield.Later.isTopUp hlater htop, hlater.payload _ hp⟩

/-- A promise was one before the step, or the step made it. -/
private theorem promised_origin (h : Fires (Chain.next H) u) (hd : u.post.Promised d) :
    u.pre.Promised d ∨
      ∃ env text data, u.event = .call env (.resumeTopup text (.success data)) ∧ decodeDataId text = .ok d := by
  obtain ⟨y, data, hy, htop, hp⟩ := hd
  have hw := (chain_step h).1
  rcases step_topUp_resumed (t := u.toStep) hw hy hp with ⟨y₀, h₀, hp₀⟩ | ⟨env, text, event, hdecoded⟩
  · refine Or.inl ⟨y₀, data, h₀, ?_, hp₀⟩
    by_cases hdel : delivered u.event = some d
    · obtain ⟨env, delivery, event⟩ := delivered_eq hdel
      have hgone : u.post.world.yields.lookup d = none := delivered_gone (t := u.toStep) hw event
      rw [hgone] at hy
      cases hy
    · -- a yield that stays in flight keeps its callback
      obtain ⟨y', hy', hlater⟩ := topUp_stays h hdel h₀
      obtain rfl : y' = y := Option.some.inj (hy'.symm.trans hy)
      unfold isTopUp at htop ⊢
      rw [← hlater.callback]
      exact htop
  · exact Or.inr ⟨env, text, data, event, hdecoded⟩

/-- What a step settles as kept was kept before it, or was a promise. -/
private theorem kept_origin (h : Fires (Chain.next H) u) (inv : ChainInv u.pre)
    (hd : u.post.settled.lookup d = some .kept) : u.pre.Covered d := by
  rw [settled_lookup h] at hd
  split at hd
  · next hcond =>
      obtain ⟨hdel, hany⟩ := hcond
      obtain ⟨y, hy, htop⟩ := (Option.any_eq_true _ _).mp hany
      obtain ⟨owner, nonce, amount, hcb⟩ := isTopUp_eq htop
      obtain ⟨env, delivery, event⟩ := delivered_eq hdel
      have hout : Effect.storage (.valueReturn (u128Json 0)) ∈ u.out := by
        by_contra hno
        rw [outcomeOf, if_neg hno] at hd
        cases hd
      obtain ⟨data, hp⟩ := delivered_kept (t := u.toStep) (chain_step h).1 event hy hcb
        (inv.positive d y owner nonce amount hy hcb) hout
      exact Or.inr ⟨y, data, hy, htop, hp⟩
  · exact Or.inl hd

/-- What is covered was covered before, or the step resumed it with success. -/
theorem covered_origin (h : Fires (Chain.next H) u) (inv : ChainInv u.pre) (hd : u.post.Covered d) :
    u.pre.Covered d ∨
      ∃ env text data, u.event = .call env (.resumeTopup text (.success data)) ∧ decodeDataId text = .ok d := by
  rcases hd with hkept | hpromised
  · exact Or.inl (kept_origin h inv hkept)
  · exact (promised_origin h hpromised).imp_left Or.inr

end Covered

/-! ## A credit is for tokens that are kept -/

/-- The task is the creation of a key, or its top-up is covered. -/
def System.Backs (s : System) (dataId amount : String) : Prop :=
  amount ≠ "0" → ∃ d : CryptoHash, dataId = hexEncode d.toList ∧ s.chain.Covered d

/-- Everything reported, or about to be, is covered. -/
structure CreditInv (s : System) : Prop where
  system : SystemInv s
  jobs : ∀ job task result, s.jobs.lookup job = some ⟨task, .crediting result⟩ → s.Backs task.dataId task.amount
  credits : ∀ credit ∈ s.credits, s.Backs credit.dataId credit.request.amount

section CreditInv
variable {H : Host} {t : Move}

theorem backs_stays (h : Fires (System.next H) t) (inv : SystemInv t.pre) (careful : Move.Careful t)
    {dataId amount : String} (hb : t.pre.Backs dataId amount) : t.post.Backs dataId amount := by
  intro hpos
  obtain ⟨d, hd, hcovered⟩ := hb hpos
  refine ⟨d, hd, ?_⟩
  rcases move_chain h with hsame | ⟨e, fires, hevent⟩
  · exact hsame ▸ hcovered
  · refine covered_stays fires inv.chain ?_ hcovered
    rcases hevent with event | ⟨env, call, rfl⟩
    · unfold Move.Careful at careful
      rw [event] at careful
      exact careful
    · trivial

/-- What a worker sees accepted, and is the first resumption, is a promise. -/
theorem backs_resumed (inv : SystemInv t.pre) {job : Nat} {env : Env} {task : TopUpTaskData} {data : String}
    {result : ProcessedTopUp} (held : t.pre.jobs.lookup job = some ⟨task, .resuming data result⟩)
    (first : ∀ d y, decodeDataId task.dataId = .ok d → t.pre.chain.world.yields.lookup d = some y → y.payload = none)
    (fires : Fires (Chain.next H)
      ⟨t.pre.chain, .call (withoutDeposit env) (successCall task data), t.out, t.post.chain⟩) :
    t.post.Backs task.dataId task.amount := by
  intro hpos
  obtain ⟨htask, -⟩ := inv.jobs job task data result held
  obtain ⟨amount, hamount, hzero | ⟨d, hd, hknown⟩⟩ := inv.chain.tasks task htask
  · exact absurd (hamount.trans (congrArg toString hzero)) hpos
  · refine ⟨d, hd, Or.inr ?_⟩
    obtain ⟨d', y, hdecoded, hy, hpost⟩ := step_resumes (chain_step fires).1 (rfl : _ = Event.call _ _)
    have hsame : decodeDataId task.dataId = .ok d := hd ▸ decodeDataId_hexEncode d
    obtain rfl : d' = d := Except.ok.inj (hdecoded.symm.trans hsame)
    -- it waits, so it is not settled: it is the top-up that was announced
    have htop : isTopUp y = true := by
      rcases hknown with ⟨y₀, h₀, htop⟩ | hsettled
      · obtain rfl : y₀ = y := Option.some.inj (h₀.symm.trans hy)
        exact htop
      · have hnone := inv.chain.spent d' hsettled
        cases hy.symm.trans hnone
    rw [first d' y hsame hy] at hpost
    exact ⟨_, data, hpost, htop, rfl⟩

/-- A job that is about to report was about to before, has just seen its success accepted, or is for a new key. -/
theorem jobs_backed (h : Fires (System.next H) t) (careful : Move.Careful t) (inv : CreditInv t.pre) {job : Nat}
    {task : TopUpTaskData} {result : ProcessedTopUp}
    (hj : t.post.jobs.lookup job = some ⟨task, .crediting result⟩) : t.post.Backs task.dataId task.amount := by
  have hjobs : ∀ {job task result}, t.pre.jobs.lookup job = some ⟨task, .crediting result⟩ →
      t.post.Backs task.dataId task.amount := fun hj => backs_stays h inv.system careful (inv.jobs _ _ _ hj)
  cases move_cases h with
  | chain _ _ _ jobs _ => exact hjobs (jobs ▸ hj)
  | took job' task' keystore _ announced _ _ jobs _ =>
      rw [jobs, LookupMap.lookup_insert_iff] at hj
      split at hj
      · -- nothing is to be reported at once but the creation of a key
        have hstart := Option.some.inj hj
        obtain rfl : task' = task := congrArg Job.task hstart
        intro hpos
        obtain ⟨amount, hamount, -⟩ := inv.system.chain.tasks task' announced
        have hparse := start_crediting (congrArg Job.stage hstart)
        rw [hamount] at hparse
        have hzero : 0 = amount := eq_of_parseUnsigned_toString hparse
        exact absurd (hamount.trans (congrArg toString hzero.symm)) hpos
      · exact hjobs hj
  | resumed job' env task' data result' event held fires jobs _ =>
      rw [jobs, LookupMap.lookup_insert_iff] at hj
      split at hj
      · cases hj
        refine backs_resumed inv.system held ?_ fires
        unfold Move.Careful at careful
        rw [event] at careful
        exact fun d y => careful task data result d y held
      · exact hjobs hj
  | failed _ jobs _ _ => exact hjobs ((jobs job task result).mp hj)
  | credited _ _ _ _ _ _ _ jobs _ =>
      rw [jobs] at hj
      obtain ⟨-, hj⟩ := LookupMap.lookup_of_erase hj
      exact hjobs hj
  | stopped _ _ _ jobs _ =>
      rw [jobs] at hj
      obtain ⟨-, hj⟩ := LookupMap.lookup_of_erase hj
      exact hjobs hj

theorem credits_backed (h : Fires (System.next H) t) (careful : Move.Careful t) (inv : CreditInv t.pre) :
    ∀ credit ∈ t.post.credits, t.post.Backs credit.dataId credit.request.amount := by
  have hcredits : ∀ credit ∈ t.pre.credits, t.post.Backs credit.dataId credit.request.amount :=
    fun credit hc => backs_stays h inv.system careful (inv.credits credit hc)
  cases move_cases h with
  | chain _ _ _ _ credits => exact credits ▸ hcredits
  | took _ _ _ _ _ _ _ _ credits => exact credits ▸ hcredits
  | resumed _ _ _ _ _ _ _ _ _ credits => exact credits ▸ hcredits
  | failed _ _ _ credits => exact credits ▸ hcredits
  | stopped _ _ _ _ credits => exact credits ▸ hcredits
  | credited job told task result _ held _ _ credits =>
      intro credit hc
      rw [credits] at hc
      split at hc
      · rcases List.mem_append.mp hc with hc | hc
        · exact hcredits credit hc
        · obtain rfl := List.mem_singleton.mp hc
          exact backs_stays h inv.system careful (inv.jobs _ _ _ held)
      · exact hcredits credit hc

theorem creditInv_step (h : Fires (System.next H) t) (careful : Move.Careful t) (inv : CreditInv t.pre) :
    CreditInv t.post :=
  ⟨systemInv_step h inv.system, fun _ _ _ hj => jobs_backed h careful inv hj, credits_backed h careful inv⟩

end CreditInv

/-! ## What is kept is credited -/

/-- Everything covered is reported, or about to be. -/
structure ReportInv (s : System) : Prop where
  system : SystemInv s
  covered : ∀ d, s.chain.Covered d → s.Reports d

section ReportInv
variable {H : Host} {t : Move} {d : CryptoHash}

theorem reports_stays (h : Fires (System.next H) t) (reported : Move.Reported t) (hr : t.pre.Reports d) :
    t.post.Reports d := by
  unfold Move.Reported at reported
  rcases hr with ⟨credit, hc, hcredit⟩ | ⟨job, task, result, hj, hpos, hd⟩
  · -- a credit stays
    refine Or.inl ⟨credit, ?_, hcredit⟩
    cases move_cases h with
    | chain _ _ _ _ credits => exact credits ▸ hc
    | took _ _ _ _ _ _ _ _ credits => exact credits ▸ hc
    | resumed _ _ _ _ _ _ _ _ _ credits => exact credits ▸ hc
    | failed _ _ _ credits => exact credits ▸ hc
    | stopped _ _ _ _ credits => exact credits ▸ hc
    | credited _ _ _ _ _ _ _ _ credits =>
        rw [credits]
        split
        · exact List.mem_append_left _ hc
        · exact hc
  · -- a job that is about to report stays, or reports
    have hstays : t.post.jobs.lookup job = some ⟨task, .crediting result⟩ → t.post.Reports d :=
      fun hj' => Or.inr ⟨job, task, result, hj', hpos, hd⟩
    cases move_cases h with
    | chain _ _ _ jobs _ => exact hstays (jobs ▸ hj)
    | took job' _ _ _ _ new _ jobs _ =>
        refine hstays ?_
        rw [jobs, LookupMap.lookup_insert_iff, if_neg]
        · exact hj
        · rintro rfl
          rw [new] at hj
          cases hj
    | resumed job' _ _ _ _ _ held _ jobs _ =>
        refine hstays ?_
        rw [jobs, LookupMap.lookup_insert_iff, if_neg]
        · exact hj
        · rintro rfl
          rw [held] at hj
          cases hj
    | failed _ jobs _ _ => exact hstays ((jobs job task result).mpr hj)
    | credited job' told task' result' event held _ jobs credits =>
        by_cases hjob : job = job'
        · subst hjob
          rw [event] at reported
          obtain rfl : told = true := reported
          cases held.symm.trans hj
          refine Or.inl ⟨completeTopup task result, ?_, hpos, hd⟩
          rw [credits, if_pos rfl]
          exact List.mem_append_right _ List.mem_cons_self
        · refine hstays ?_
          rw [jobs, LookupMap.lookup_erase_iff, if_neg hjob]
          exact hj
    | stopped job' event _ jobs _ =>
        rw [event] at reported
        refine hstays ?_
        rw [jobs, LookupMap.lookup_erase_iff, if_neg]
        · exact hj
        · rintro rfl
          exact reported task result hj

theorem reportInv_step (h : Fires (System.next H) t) (reported : Move.Reported t) (inv : ReportInv t.pre) :
    ReportInv t.post := by
  refine ⟨systemInv_step h inv.system, ?_⟩
  intro d hd
  have hold : t.pre.chain.Covered d → t.post.Reports d := fun hc => reports_stays h reported (inv.covered d hc)
  unfold Move.Reported at reported
  cases move_cases h with
  | took _ _ _ _ _ _ chain _ _ => exact hold (chain ▸ hd)
  | credited _ _ _ _ _ _ chain _ _ => exact hold (chain ▸ hd)
  | stopped _ _ chain _ _ => exact hold (chain ▸ hd)
  | chain e event fires _ _ =>
      rcases covered_origin fires inv.system.chain hd with hpre | ⟨env, text, data, hev, -⟩
      · exact hold hpre
      · have he : e = .call env (.resumeTopup text (.success data)) := hev
        rw [event, he] at reported
        exact reported.elim
  | failed chain _ _ _ =>
      rcases chain with hsame | ⟨env, text, result, fires, hno⟩
      · exact hold (hsame ▸ hd)
      · rcases covered_origin fires inv.system.chain hd with hpre | ⟨env', text', data, hev, -⟩
        · exact hold hpre
        · rcases hno with ⟨message, rfl⟩ | ⟨job, env'', event⟩
          · cases hev
          · rw [event] at reported
            exact reported.elim
  | resumed job env task data result _ held fires jobs _ =>
      rcases covered_origin fires inv.system.chain hd with hpre | ⟨env', text, data', hev, hdecoded⟩
      · exact hold hpre
      · -- the job that resumed it is the one about to report
        cases hev
        obtain ⟨htask, hpos⟩ := inv.system.jobs job task data result held
        obtain ⟨amount, hamount, hzero | ⟨d₀, hd₀, -⟩⟩ := inv.system.chain.tasks task htask
        · exact absurd (hamount.trans (congrArg toString hzero)) hpos
        · have hsame : decodeDataId task.dataId = .ok d₀ := hd₀ ▸ decodeDataId_hexEncode d₀
          obtain rfl : d = d₀ := Except.ok.inj (hdecoded.symm.trans hsame)
          refine Or.inr ⟨job, task, result, ?_, hpos, hd₀⟩
          rw [jobs]
          exact AList.lookup_insert _

end ReportInv

/-! ## Exactly when -/

theorem creditInv_deploy (c : Contract) : CreditInv (System.deploy c) where
  system := systemInv_deploy c
  jobs _ _ _ h := by cases h
  credits _ h := absurd h List.not_mem_nil

theorem reportInv_deploy (c : Contract) : ReportInv (System.deploy c) where
  system := systemInv_deploy c
  covered d h := by
    rcases h with h | ⟨y, data, hy, -⟩
    · cases h
    · cases hy

/-- **A top-up is credited exactly when its tokens are kept**, in every history of careful steps: no credit is for
    tokens that went back, and with every report getting through what is kept is credited or about to be. -/
theorem credited_exactly_when_kept {H : Host} {owner : AccountId} {operator : Option AccountId}
    {standard version : Option String} {tr : List Move} {s : System}
    (h : System.History H owner operator standard version tr s) (careful : ∀ t ∈ tr, Move.Careful t) :
    s.CreditedOnlyIfKept ∧ ((∀ t ∈ tr, Move.Reported t) → s.KeptOnlyIfCredited) := by
  constructor
  · intro credit hc hpos
    have inv : CreditInv s := Run.invariant_of (I := CreditInv) (creditInv_deploy _)
      (fun _ hf hcareful hi => creditInv_step hf hcareful hi) h careful
    obtain ⟨d, hd, hcovered⟩ := inv.credits credit hc hpos
    exact ⟨d, hd, hcovered.notRefunded inv.system.chain⟩
  · intro reported d hd
    have inv : ReportInv s := Run.invariant_of (I := ReportInv) (reportInv_deploy _)
      (fun _ hf hreported hi => reportInv_step hf hreported hi) h reported
    exact inv.covered d (Or.inl hd)

/-! ## One top-up, with and without its key

`aliceAccount` stores payment key 1 and tops it up with 10000 units; a worker takes the task, resumes the yield, the
callback runs, and the worker reports what it saw. -/

/-- The test of `Chain.Careful`. -/
def Chain.isCareful (ch : Chain) : Event → Bool
  | .yielded _ d delivery =>
      match ch.world.yields.lookup d with
      | some ⟨.onTopUpResponse owner nonce _, some (.topUpResult (.success _))⟩ =>
          match delivery with
          | .resumed => decide (paymentKey owner nonce ∈ ch.world.contract.secretsStorage)
          | _        => false
      | _ => true
  | _ => true

/-- The test of `Move.Careful`. -/
def Move.isCareful (t : Move) : Bool :=
  match t.event with
  | .chain e              => t.pre.chain.isCareful e
  | .resume job (.seen _) =>
      match t.pre.jobs.lookup job with
      | some ⟨task, .resuming _ _⟩ =>
          match decodeDataId task.dataId with
          | .ok d    => (t.pre.chain.world.yields.lookup d).all fun y => y.payload.isNone
          | .error _ => true
      | _ => true
  | _ => true

/-- The test of `Move.Reported`. -/
def Move.isReported (t : Move) : Bool :=
  match t.event with
  | .chain (.call _ (.resumeTopup _ (.success _))) => false
  | .resume _ (.unseen _)                          => false
  | .credit _ told                                 => told
  | .stop job =>
      match t.pre.jobs.lookup job with
      | some ⟨_, .crediting _⟩ => false
      | _                      => true
  | _ => true

theorem Chain.careful_of_isCareful {ch : Chain} {e : Event} (h : ch.isCareful e = true) : ch.Careful e := by
  cases e with
  | call _ _ => trivial
  | withdrawn _ _ => trivial
  | yielded env d delivery =>
      intro y owner nonce amount data hy hcb hp
      obtain ⟨callback, payload⟩ := y
      subst hcb hp
      simp only [Chain.isCareful, hy] at h
      cases delivery with
      | resumed => exact ⟨rfl, of_decide_eq_true h⟩
      | timedOut => cases h
      | outOfGas => cases h

theorem Move.careful_of_isCareful {t : Move} (h : Move.isCareful t = true) : Move.Careful t := by
  unfold Move.isCareful at h
  unfold Move.Careful
  split
  · next e event =>
      rw [event] at h
      exact Chain.careful_of_isCareful h
  · next job env event =>
      intro task data result d y hj hd hy
      rw [event] at h
      simp only [hj, hd, hy, Option.all_some, Option.isNone_iff_eq_none] at h
      exact h
  · trivial

theorem Move.reported_of_isReported {t : Move} (h : Move.isReported t = true) : Move.Reported t := by
  unfold Move.isReported at h
  unfold Move.Reported
  split
  · next event =>
      rw [event] at h
      cases h
  · next event =>
      rw [event] at h
      cases h
  · next event =>
      rw [event] at h
      exact h
  · next job event =>
      intro task result hj
      rw [event] at h
      simp only [hj] at h
      cases h
  · trivial

/-- The text of a payment key before its top-up. -/
def plainKey : String :=
  "\x7b\"initial_balance\":\"0\",\"key\":\"Zmlyc3Qga2V5\"\x7d"

/-- The text of that key with 10000 more. -/
def toppedUpKey : String :=
  "\x7b\"initial_balance\":\"10000\",\"key\":\"Zmlyc3Qga2V5\"\x7d"

/-- The ciphertext of that key before the top-up. -/
def sealedKey : String :=
  "AU4Rld8CDeWeDWWjOkJ58Rg+euTl2YDjCfi1Wt/y5hw+9V/xb2b0M2Ama5Xbb4/sAddgMQVDBq5KSzgFmPbP0RQsOkJJ13BwBYZJ29gi3K95V"
    ++ "1hvzkKM+yyoi5R0HtqLB/Rt0opUmdjv"

/-- The ciphertext of that key after it. -/
def resealedKey : String :=
  "AcAsC5ZeAjq+6AjytUjY1Rk6i1Ipvm8xIabxbi1BpEmzfclvd2yEI+V6J4VImj+cQ/tudWh21q2anKxKpOcuwZNIFNkgk6yKD0ohY6uH3uUJu"
    ++ "jBqWPWIi+Dtyy/NBxICi3aoJ3NH9SUw4c+XkQ=="

/-- A keystore that knows this one key. -/
def keystoreOfKey : Services where
  fetchPaymentKeyVault _ _ := some none
  decryptRaw seed encrypted vault :=
    if seed = "system:payment_key:alice.near:1" ∧ encrypted = sealedKey ∧ vault = none then
      some plainKey.toByteArray.toList
    else none
  encrypt seed plaintext vault :=
    if seed = "system:payment_key:alice.near:1" ∧ plaintext = toppedUpKey ∧ vault = none then some resealedKey
    else none
  initPaymentKey _ _ _ _ _ := true

/-- A host that knows the two digests of this run. -/
def topUpHost : Host :=
  { asciiHost with
    sha256 := fun s =>
      if s = "Zmlyc3Qga2V5" then
        #v[228, 107, 241, 204, 6, 25, 27, 250, 12, 134, 162, 84, 224, 221, 14, 195, 51, 45, 228, 161, 254, 248, 186, 58,
           214, 168, 20, 56, 227, 209, 225, 80]
      else if s = "init:alice.near:1" then
        #v[252, 195, 234, 161, 190, 250, 207, 118, 158, 207, 116, 153, 147, 247, 172, 163, 205, 65, 88, 106, 184, 168,
           118, 180, 128, 230, 59, 137, 134, 253, 184, 20]
      else Vector.replicate 32 0 }

/-- The task made of the top-up. -/
def topUpTask : TopUpTaskData where
  dataId := hexEncode (List.replicate 32 1)
  owner := "alice.near"
  nonce := 1
  amount := "10000"
  encryptedData := sealedKey

/-- The top-up, with `meanwhile` between its resumption and its callback. -/
def creditRun (meanwhile : List Action) : List Action :=
  [.chain (callBy aliceAccount (.storeSecrets (.system .paymentKey) "1" sealedKey .allowAll none) (10 ^ 24)),
   .chain (callBy ownerAccount (.setPaymentTokenContract (some tokenAccount))),
   .chain (callBy tokenAccount (.ftOnTransfer aliceAccount 10000 (some (.topUpPaymentKey 1 none))) 0 0 1),
   .take 0 topUpTask (some keystoreOfKey),
   .resume 0 (.seen (envOf ownerAccount 0 0 2))]
  ++ meanwhile
  ++ [.chain (.yielded (envOf ownerAccount 0 0 2) (Vector.replicate 32 1) .resumed), .credit 0 true]

/-- Replay actions from the deployment. -/
def System.replay (as : List Action) : Option (List Move × System) :=
  Runs.replay (System.next topUpHost) (System.deploy (Contract.new ownerAccount none none none)) as

theorem exists_credit_history (as : List Action) (p : List Move × System → Bool)
    (h : (System.replay as).any p = true) :
    ∃ tr s, System.History topUpHost ownerAccount none none none tr s ∧ p (tr, s) = true :=
  exists_run h

/-- With its key in place, the top-up is credited and its tokens are kept. -/
theorem credited_and_kept : ∃ tr s, System.History topUpHost ownerAccount none none none tr s ∧
    (∀ t ∈ tr, Move.Careful t) ∧ (∀ t ∈ tr, Move.Reported t) ∧
    s.credits.map (fun credit => credit.request.amount) = ["10000"] ∧ s.CreditedOnlyIfKept ∧
    s.chain.settled.lookup (Vector.replicate 32 1) = some .kept ∧ s.Reports (Vector.replicate 32 1) := by
  obtain ⟨tr, s, h, hp⟩ := exists_credit_history (creditRun [])
    (fun x => x.1.all Move.isCareful && x.1.all Move.isReported
      && decide (x.2.credits.map (fun credit => credit.request.amount) = ["10000"]
        ∧ x.2.chain.settled.lookup (Vector.replicate 32 1) = some .kept)) (by decide +kernel)
  simp only [Bool.and_eq_true, List.all_eq_true, decide_eq_true_eq] at hp
  obtain ⟨⟨hcareful, hreported⟩, hcredits, hkept⟩ := hp
  have careful : ∀ t ∈ tr, Move.Careful t := fun t ht => Move.careful_of_isCareful (hcareful t ht)
  have reported : ∀ t ∈ tr, Move.Reported t := fun t ht => Move.reported_of_isReported (hreported t ht)
  obtain ⟨honly, hall⟩ := credited_exactly_when_kept h careful
  exact ⟨tr, s, h, careful, reported, hcredits, honly, hkept, hall reported _ hkept⟩

/-- With its key deleted before the callback runs, the top-up is credited though its tokens went back. -/
theorem credited_and_refunded : ∃ tr s, System.History topUpHost ownerAccount none none none tr s ∧
    s.chain.settled.lookup (Vector.replicate 32 1) = some .refunded ∧
    (∃ credit ∈ s.credits, credit.request.amount = "10000" ∧
      credit.dataId = hexEncode (Vector.replicate 32 (1 : UInt8)).toList) ∧
    ¬ s.CreditedOnlyIfKept := by
  obtain ⟨tr, s, h, hp⟩ := exists_credit_history
    (creditRun [.chain (callBy aliceAccount (.deleteSecrets (.system .paymentKey) "1"))])
    (fun x => decide (x.2.chain.settled.lookup (Vector.replicate 32 1) = some .refunded
      ∧ ∃ credit ∈ x.2.credits, credit.request.amount = "10000" ∧
        credit.dataId = hexEncode (Vector.replicate 32 (1 : UInt8)).toList)) (by decide +kernel)
  obtain ⟨hrefunded, credit, hc, hamount, hid⟩ := of_decide_eq_true hp
  refine ⟨tr, s, h, hrefunded, ⟨credit, hc, hamount, hid⟩, ?_⟩
  intro honly
  obtain ⟨d, hd, hnot⟩ := honly credit hc (by rw [hamount]; decide)
  -- the id in the credit is the id of the refunded top-up
  have hdecoded := decodeDataId_hexEncode d
  rw [← hd, hid, decodeDataId_hexEncode] at hdecoded
  obtain rfl := Except.ok.inj hdecoded
  rcases hnot with hkept | ⟨hnone, -⟩
  · rw [hrefunded] at hkept
    cases hkept
  · rw [hrefunded] at hnone
    cases hnone

end Worker

end Outlayer
