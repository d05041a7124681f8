import Outlayer.Contract.Replay
import Outlayer.Contract.Steps

/-!
# `Contract.Correctness.Plans` — what a subscription index stands for

A payment names a plan by its index and is signed before it lands, so an index must not come to stand for
another offer. A new price list is compared with the one it replaces: a row that stays keeps its name. A row
that was left out is compared with nothing, and the next list may put any offer under its index.
-/

namespace Outlayer
open Text Checked Collections Runs

/-! ## One replacement -/

section Replacement
variable {env : Env} {cfg cfg' : Config} {plans : List SubscriptionPlan}

/-- A list passes the row check when its indexes are new and distinct and every row has a name and a price. -/
theorem checkPlans_ok {seen : List Nat} {u : Unit} :
    checkPlans seen plans = .ok u ↔
      (plans.map SubscriptionPlan.index).Nodup ∧
        ∀ plan ∈ plans, plan.index ∉ seen ∧ trim plan.name ≠ "" ∧ plan.priceUsd > 0 := by
  induction plans generalizing seen with
  | nil => simp [checkPlans]
  | cons plan plans ih =>
      simp only [checkPlans, bind_eq_ok, require_eq_ok, ih, List.map_cons, List.nodup_cons, List.mem_map,
        List.forall_mem_cons, List.mem_append, List.mem_singleton, not_or, not_exists, not_and]
      constructor
      · rintro ⟨_, hnew, _, hname, _, hprice, hnodup, hrest⟩
        refine ⟨⟨fun p hp heq => (hrest p hp).1.2 heq, hnodup⟩, ⟨hnew, hname, hprice⟩, ?_⟩
        exact fun p hp => ⟨(hrest p hp).1.1, (hrest p hp).2⟩
      · rintro ⟨⟨hne, hnodup⟩, ⟨hnew, hname, hprice⟩, hrest⟩
        refine ⟨(), hnew, (), hname, (), hprice, hnodup, ?_⟩
        exact fun p hp => ⟨⟨(hrest p hp).1, hne p hp⟩, (hrest p hp).2⟩

/-- In a list with distinct indexes, the row of an index is the one a search finds. -/
theorem find_index (hnodup : (plans.map SubscriptionPlan.index).Nodup) {plan : SubscriptionPlan}
    (hplan : plan ∈ plans) : plans.find? (fun p => p.index = plan.index) = some plan := by
  induction plans with
  | nil => cases hplan
  | cons first rest ih =>
      simp only [List.map_cons, List.nodup_cons, List.mem_map, not_exists, not_and] at hnodup
      rcases List.mem_cons.mp hplan with rfl | hrest
      · simp
      · have hne : first.index ≠ plan.index := fun heq => hnodup.1 plan hrest heq.symm
        rw [List.find?_cons_of_neg (by simpa using hne)]
        exact ih hnodup.2 hrest

/-- What a replacement that went through has checked. -/
theorem setSubscriptionPlans_ok (h : setSubscriptionPlans env cfg plans = .ok cfg') :
    cfg'.subscriptionPlans = plans ∧ (plans.map SubscriptionPlan.index).Nodup ∧
      ∀ held ∈ cfg.subscriptionPlans, ∀ plan ∈ plans, plan.index = held.index → plan.name = held.name := by
  simp only [setSubscriptionPlans, bind_eq_ok, forEach_eq_ok, checkPlans_ok, pure_eq_ok] at h
  obtain ⟨_, -, _, -, _, ⟨hnodup, -⟩, _, hchecked, rfl⟩ := h
  refine ⟨rfl, hnodup, ?_⟩
  intro held hheld plan hplan hindex
  have hcheck := hchecked held hheld
  unfold checkNotRepointed at hcheck
  -- the check looks for the first row of the index, and there is only one
  rw [← hindex, find_index hnodup hplan] at hcheck
  simpa using hcheck

/-- A list of one row is taken where its index is not on the list. -/
theorem setSubscriptionPlans_single {plan : SubscriptionPlan} (howner : env.predecessor = cfg.ownerId)
    (hname : trim plan.name ≠ "") (hprice : plan.priceUsd > 0)
    (hfree : ∀ held ∈ cfg.subscriptionPlans, held.index ≠ plan.index) :
    setSubscriptionPlans env cfg [plan] = .ok { cfg with subscriptionPlans := [plan] } := by
  simp only [setSubscriptionPlans, assertOwner, bind_eq_ok, require_eq_ok, forEach_eq_ok, checkPlans_ok,
    pure_eq_ok]
  refine ⟨(), howner, (), by simp [maxSubscriptionPlans], (), ?_, (), ?_, trivial⟩
  · simpa using ⟨hname, hprice⟩
  · intro held hheld
    have hne : plan.index ≠ held.index := fun heq => hfree held hheld heq.symm
    simp [checkNotRepointed, hne, pure, Except.pure]

end Replacement

/-! ## Steps -/

/-- Committing a part changes the configuration only when the part is the configuration. -/
theorem commit_config_kept {c c' : Contract} {r : PartRun} {es : List Effect}
    (h : r.commit c = .ok (c', es)) :
    r = .config (.ok c'.toConfig) ∨ (∀ x, r ≠ .config x) ∧ c'.toConfig = c.toConfig := by
  cases r with
  | config _ =>
      obtain ⟨_, rfl, rfl, -⟩ := commit_config h
      exact Or.inl rfl
  | ledger _ =>
      obtain ⟨_, -, rfl⟩ := commit_ledger h
      exact Or.inr ⟨nofun, rfl⟩
  | secrets _ =>
      obtain ⟨_, _, -, rfl, -⟩ := commit_secrets h
      exact Or.inr ⟨nofun, rfl⟩
  | registry _ =>
      obtain ⟨_, _, -, rfl, -⟩ := commit_registry h
      exact Or.inr ⟨nofun, rfl⟩
  | pricing _ =>
      obtain ⟨_, -, rfl, -⟩ := commit_pricing h
      exact Or.inr ⟨nofun, rfl⟩
  | policies _ =>
      obtain ⟨_, _, -, rfl, -⟩ := commit_policies h
      exact Or.inr ⟨nofun, rfl⟩
  | emits _ =>
      obtain ⟨-, rfl⟩ := commit_emits h
      exact Or.inr ⟨nofun, rfl⟩

/-- What a step does to the price list. -/
inductive PlansCase (t : Step) : Prop
  | replaced (env : Env) (plans : List SubscriptionPlan)
      (event : t.event = .call env (.setSubscriptionPlans plans))
      (run : setSubscriptionPlans (t.pre.seenBy env) t.pre.contract.toConfig plans
        = .ok t.post.contract.toConfig)
  | kept (event : ∀ env plans, t.event ≠ .call env (.setSubscriptionPlans plans))
      (same : t.post.contract.subscriptionPlans = t.pre.contract.subscriptionPlans)

section Steps
variable {H : Host} {t : Step}

/-- A call on the configuration that is no replacement leaves the price list. -/
theorem config_call_plans {env : Env} {c : Contract} {cfg : Config} {call : Call}
    (hne : ∀ plans, call ≠ .setSubscriptionPlans plans) (h : runCall H env c call = .config (.ok cfg)) :
    cfg.subscriptionPlans = c.subscriptionPlans := by
  have hset (x : Config → Config) (hx : (x c.toConfig).subscriptionPlans = c.subscriptionPlans)
      (hrun : (do assertOwner env c.toConfig; pure (x c.toConfig) : Res Config) = .ok cfg) :
      cfg.subscriptionPlans = c.subscriptionPlans := by
    simp only [bind_eq_ok, pure_eq_ok] at hrun
    obtain ⟨_, -, rfl⟩ := hrun
    exact hx
  cases call with
  | setSubscriptionPlans plans => exact absurd rfl (hne plans)
  | setOwner id => exact hset (fun cfg => { cfg with ownerId := id }) rfl (PartRun.config.inj h)
  | setOperator id => exact hset (fun cfg => { cfg with operatorId := id }) rfl (PartRun.config.inj h)
  | setPaused b => exact hset (fun cfg => { cfg with paused := b }) rfl (PartRun.config.inj h)
  | setPricing p =>
      have hrun := PartRun.config.inj h
      simp only [setPricing, bind_eq_ok, pure_eq_ok] at hrun
      obtain ⟨_, -, rfl⟩ := hrun
      rfl
  | setPaymentTokenContract token =>
      exact hset (fun cfg => { cfg with paymentTokenContract := token }) rfl (PartRun.config.inj h)
  | setEventMetadata standard version =>
      have hrun := PartRun.config.inj h
      simp only [setEventMetadata, bind_eq_ok, pure_eq_ok] at hrun
      obtain ⟨_, -, rfl⟩ := hrun
      rfl
  | _ => cases h

/-- Only a replacement changes the price list. -/
theorem step_plans (hf : Fires (World.next H) t) : PlansCase t := by
  -- outside the calls the configuration stays as it is
  have hkept (hcall : ∀ env call, t.event ≠ .call env call)
      (hsame : t.post.contract.toConfig = t.pre.contract.toConfig) : PlansCase t :=
    .kept (fun env plans => hcall env _) (by rw [hsame])
  cases step_cases hf with
  | call env call event run post =>
      obtain ⟨-, hcommit⟩ := exec_commit run
      by_cases hplans : ∃ plans, call = .setSubscriptionPlans plans
      · obtain ⟨plans, rfl⟩ := hplans
        rcases commit_config_kept hcommit with hrun | ⟨hoff, -⟩
        · exact .replaced env plans event (PartRun.config.inj hrun)
        · exact absurd rfl (hoff _)
      · have hne : ∀ plans, call ≠ .setSubscriptionPlans plans := fun plans heq => hplans ⟨plans, heq⟩
        refine .kept (fun env' plans heq => ?_) ?_
        · rw [event] at heq
          cases heq
          exact hne plans rfl
        · rcases commit_config_kept hcommit with hrun | ⟨-, hsame⟩
          · exact config_call_plans hne hrun
          · rw [hsame]
  | callback env d delivery y payload event waiting delivered run post =>
      refine hkept (by simp [event]) ?_
      rcases commit_config_kept run with hrun | ⟨-, hsame⟩
      · cases hcb : y.callback with
        | onExecutionResponse _ => rw [hcb] at hrun; cases hrun
        | onTopUpResponse _ _ _ => rw [hcb] at hrun; cases hrun
        | onDeletePaymentKeyResponse _ _ => rw [hcb] at hrun; cases hrun
      · exact hsame
  | spent env d delivery event failed out post => exact hkept (by simp [event]) (by rw [post]; rfl)
  | withdrawn receipt transferOk x l event pending run out post =>
      exact hkept (by simp [event]) (by rw [post])
  | stuck receipt x event pending overflow out post => exact hkept (by simp [event]) (by rw [post])

end Steps

/-! ## Whole histories -/

/-- The price list a call brings. -/
def Event.newPlans : Event → Option (List SubscriptionPlan)
  | .call _ (.setSubscriptionPlans plans) => some plans
  | _                                     => none

/-- A list that replaces another keeps a row for each of its indexes. -/
def Step.KeepsIndexes (t : Step) : Prop :=
  ∀ plans ∈ t.event.newPlans, ∀ held ∈ t.pre.contract.subscriptionPlans, ∃ plan ∈ plans,
    plan.index = held.index

instance (t : Step) : Decidable t.KeepsIndexes :=
  inferInstanceAs (Decidable (∀ plans ∈ t.event.newPlans, _))

/-- The contract takes this list as its price list. -/
def AcceptsPlans (H : Host) (c : Contract) (plans : List SubscriptionPlan) : Prop :=
  ∃ env r, exec H env c (.setSubscriptionPlans plans) = .ok r

/-- An index that once stood for an offer is held under no other name in any later state of the run. -/
def IndexesKeepOffers (tr : List Step) : Prop :=
  ∀ tr₁ t tr₂, tr = tr₁ ++ t :: tr₂ → ∀ held ∈ t.post.contract.subscriptionPlans, ∀ u ∈ t :: tr₂,
    ∀ plan ∈ u.post.contract.subscriptionPlans, plan.index = held.index → plan.name = held.name

/-- Once an index stands for an offer it stands for no other: no later state of the run holds it under another
    name, and in no later state is a list taken that would. -/
def IndexesNeverRepointed (H : Host) (tr : List Step) : Prop :=
  ∀ tr₁ t tr₂, tr = tr₁ ++ t :: tr₂ → ∀ held ∈ t.post.contract.subscriptionPlans, ∀ u ∈ t :: tr₂,
    (∀ plan ∈ u.post.contract.subscriptionPlans, plan.index = held.index → plan.name = held.name) ∧
    ∀ plans, AcceptsPlans H u.post.contract plans →
      ∀ plan ∈ plans, plan.index = held.index → plan.name = held.name

/-- The offer is on the list, and the list has no index twice. -/
structure World.Offers (w : World) (index : Nat) (name : String) : Prop where
  listed : ∃ plan ∈ w.contract.subscriptionPlans, plan.index = index ∧ plan.name = name
  distinct : (w.contract.subscriptionPlans.map SubscriptionPlan.index).Nodup

section History
variable {H : Host} {owner : AccountId} {operator : Option AccountId} {standard version : Option String}
  {tr : List Step} {w : World} {t : Step} {index : Nat} {name : String}

/-- An index stands for one offer. -/
theorem World.Offers.unique (h : w.Offers index name) {plan : SubscriptionPlan}
    (hplan : plan ∈ w.contract.subscriptionPlans) (hindex : plan.index = index) : plan.name = name := by
  obtain ⟨held, hheld, rfl, rfl⟩ := h.listed
  have hfound := find_index h.distinct hplan
  rw [hindex, find_index h.distinct hheld] at hfound
  cases hfound
  rfl

/-- A list taken in a state that has the offer does not repoint it. -/
theorem World.Offers.accepts (h : w.Offers index name) {plans : List SubscriptionPlan}
    (ha : AcceptsPlans H w.contract plans) {plan : SubscriptionPlan} (hplan : plan ∈ plans)
    (hindex : plan.index = index) : plan.name = name := by
  obtain ⟨env, ⟨c, es⟩, hexec⟩ := ha
  obtain ⟨-, hcommit⟩ := exec_commit hexec
  obtain ⟨held, hheld, rfl, rfl⟩ := h.listed
  rcases commit_config_kept hcommit with hrun | ⟨hoff, -⟩
  · obtain ⟨-, -, hsame⟩ := setSubscriptionPlans_ok (PartRun.config.inj hrun)
    exact hsame held hheld plan hplan hindex
  · exact absurd rfl (hoff _)

/-- A step that keeps the indexes keeps the offer. -/
theorem offers_step (hf : Fires (World.next H) t) (hc : t.KeepsIndexes) (h : t.pre.Offers index name) :
    t.post.Offers index name := by
  cases step_plans hf with
  | replaced env plans event run =>
      obtain ⟨hpost, hdistinct, hsame⟩ := setSubscriptionPlans_ok run
      change t.post.contract.subscriptionPlans = plans at hpost
      obtain ⟨held, hheld, rfl, rfl⟩ := h.listed
      obtain ⟨plan, hplan, hindex⟩ := hc plans (by rw [event]; rfl) held hheld
      constructor
      · rw [hpost]
        exact ⟨plan, hplan, hindex, hsame held hheld plan hplan hindex⟩
      · rwa [hpost]
  | kept event same =>
      constructor
      · rw [same]
        exact h.listed
      · rw [same]
        exact h.distinct

theorem distinct_step (hf : Fires (World.next H) t)
    (h : (t.pre.contract.subscriptionPlans.map SubscriptionPlan.index).Nodup) :
    (t.post.contract.subscriptionPlans.map SubscriptionPlan.index).Nodup := by
  cases step_plans hf with
  | replaced env plans event run =>
      obtain ⟨hpost, hdistinct, -⟩ := setSubscriptionPlans_ok run
      change t.post.contract.subscriptionPlans = plans at hpost
      rwa [hpost]
  | kept event same => rwa [same]

/-- After a step that drops the row of an index, a list with another offer under it is taken. -/
theorem accepts_of_dropped (hf : Fires (World.next H) t) {plans : List SubscriptionPlan}
    (hplans : plans ∈ t.event.newPlans) (hdropped : ∀ plan ∈ plans, plan.index ≠ index) (name : String) :
    ∃ plan, plan.index = index ∧ plan.name ≠ name ∧ AcceptsPlans H t.post.contract [plan] := by
  cases step_plans hf with
  | replaced env plans' event run =>
      rw [event] at hplans
      cases hplans
      obtain ⟨hpost, -, -⟩ := setSubscriptionPlans_ok run
      -- any other name will do: the list that lost the index has nothing to compare it with
      obtain ⟨other, hother, hname⟩ : ∃ other, other ≠ name ∧ trim other ≠ "" := by
        by_cases ha : name = "a"
        · exact ⟨"b", by rw [ha]; decide, by decide⟩
        · exact ⟨"a", fun heq => ha heq.symm, by decide⟩
      let plan : SubscriptionPlan := { index, name := other, priceUsd := 1, active := true }
      let caller : Env :=
        { predecessor := t.post.contract.ownerId, signer := t.post.contract.ownerId
          current := t.post.contract.ownerId, attachedDeposit := 0, blockTimestamp := 0
          dataId := Vector.replicate 32 0 }
      have hset : setSubscriptionPlans caller t.post.contract.toConfig [plan] = .ok _ :=
        setSubscriptionPlans_single rfl hname (Nat.succ_pos 0) (by rw [hpost]; exact hdropped)
      refine ⟨plan, rfl, hother, caller, ({ t.post.contract with subscriptionPlans := [plan] }, []), ?_⟩
      simp only [exec, bind_eq_ok, require_eq_ok, runCall, hset, PartRun.commit, pure_eq_ok]
      exact ⟨(), Or.inr rfl, _, rfl, rfl⟩
  | kept event same =>
      exfalso
      unfold Event.newPlans at hplans
      split at hplans
      · next env plans event' => exact event env plans event'
      · cases hplans

/-- Where every new list keeps the indexes of the one it replaces, an offer stays on the list once it is there. -/
theorem offers_later (h : World.History H owner operator standard version tr w) (hc : ∀ t ∈ tr, t.KeepsIndexes)
    {tr₁ tr₂ : List Step} (hsplit : tr = tr₁ ++ t :: tr₂) {held : SubscriptionPlan}
    (hheld : held ∈ t.post.contract.subscriptionPlans) {u : Step} (hu : u ∈ t :: tr₂) :
    u.post.Offers held.index held.name := by
  subst hsplit
  obtain ⟨hrun, hf, hlater⟩ := h.at_split
  have hdistinct := hrun.invariant
    (I := fun w => (w.contract.subscriptionPlans.map SubscriptionPlan.index).Nodup) List.nodup_nil
    (fun _ hf hd => distinct_step hf hd)
  have hoffers : t.post.Offers held.index held.name := ⟨⟨held, hheld, rfl, rfl⟩, distinct_step hf hdistinct⟩
  rcases List.mem_cons.mp hu with rfl | hu
  · exact hoffers
  · obtain ⟨tr₃, tr₄, rfl⟩ := List.append_of_mem hu
    obtain ⟨hbefore, hfu, -⟩ := hlater.at_split
    have hpre := hbefore.invariant_of (I := fun w => w.Offers held.index held.name)
      (C := Step.KeepsIndexes) hoffers (fun _ hf hc hi => offers_step hf hc hi)
      (fun v hv => hc v (by simp [hv]))
    exact offers_step hfu (hc u (by simp)) hpre

/-- **An index keeps its offer** through every history in which no list leaves a row out. -/
theorem indexes_keep_offers (h : World.History H owner operator standard version tr w)
    (hc : ∀ t ∈ tr, t.KeepsIndexes) : IndexesKeepOffers tr :=
  fun _ _ _ hsplit _ hheld _ hu _ hplan hindex => (offers_later h hc hsplit hheld hu).unique hplan hindex

/-- **An index is never repointed exactly when no row is ever left out.** In every history: no index once
    offered comes to stand for another offer, and no list that would do so is taken, if and only if every new
    list keeps a row for each index of the list it replaces. -/
theorem plan_indexes_never_repointed_iff (h : World.History H owner operator standard version tr w) :
    IndexesNeverRepointed H tr ↔ ∀ t ∈ tr, t.KeepsIndexes := by
  constructor
  · intro hstable t ht
    by_contra hdrop
    simp only [Step.KeepsIndexes, not_forall, not_exists, not_and] at hdrop
    obtain ⟨plans, hplans, held, hheld, hdropped⟩ := hdrop
    obtain ⟨tr₁, tr₂, rfl⟩ := List.append_of_mem ht
    obtain ⟨hrun, hf, -⟩ := h.at_split
    -- the row that is dropped came onto the list at an earlier step
    obtain ⟨tr₃, u, tr₄, rfl, -, hoffered, -⟩ :=
      hrun.since (Q := fun w => held ∈ w.contract.subscriptionPlans) List.not_mem_nil hheld
    obtain ⟨plan, hindex, hname, haccepts⟩ := accepts_of_dropped hf hplans hdropped held.name
    have hsplit : tr₃ ++ u :: tr₄ ++ t :: tr₂ = tr₃ ++ u :: (tr₄ ++ t :: tr₂) := by simp
    have hkept := (hstable tr₃ u (tr₄ ++ t :: tr₂) hsplit held hoffered t (by simp)).2
    exact hname (hkept [plan] haccepts plan List.mem_cons_self hindex)
  · intro hc tr₁ t tr₂ hsplit held hheld u hu
    have hnow := offers_later h hc hsplit hheld hu
    exact ⟨fun plan hplan hindex => hnow.unique hplan hindex,
      fun plans ha plan hplan hindex => hnow.accepts ha hplan hindex⟩

end History

/-- A price list of one plan. -/
def onePlan (name : String) (active : Bool) : List SubscriptionPlan :=
  [{ index := 2, name, priceUsd := 10, active }]

/-- Index 2 is withdrawn and offered again, with its row in place: it stays `starter`. -/
theorem index_stays_with_row_kept : ∃ tr w, World.History asciiHost ownerAccount none none none tr w ∧
    w.contract.subscriptionPlans = onePlan "starter" true ∧ IndexesNeverRepointed asciiHost tr := by
  obtain ⟨tr, w, h, hp⟩ := exists_history
    [callBy ownerAccount (.setSubscriptionPlans (onePlan "starter" true)),
     callBy ownerAccount (.setSubscriptionPlans (onePlan "starter" false)),
     callBy ownerAccount (.setSubscriptionPlans (onePlan "starter" true))]
    (fun x => decide ((∀ t ∈ x.1, Step.KeepsIndexes t) ∧
      x.2.contract.subscriptionPlans = onePlan "starter" true)) (by decide +kernel)
  obtain ⟨hc, hplans⟩ := of_decide_eq_true hp
  exact ⟨tr, w, h, hplans, (plan_indexes_never_repointed_iff h).mpr hc⟩

/-- Index 2 is left out of a list and comes back as another offer. -/
theorem index_repointed_after_gap : ∃ tr w, World.History asciiHost ownerAccount none none none tr w ∧
    (∃ t ∈ tr, t.post.contract.subscriptionPlans = onePlan "starter" true) ∧
    w.contract.subscriptionPlans = onePlan "pro" true ∧ ¬ IndexesNeverRepointed asciiHost tr := by
  obtain ⟨tr, w, h, hp⟩ := exists_history
    [callBy ownerAccount (.setSubscriptionPlans (onePlan "starter" true)),
     callBy ownerAccount (.setSubscriptionPlans []),
     callBy ownerAccount (.setSubscriptionPlans (onePlan "pro" true))]
    (fun x => ofThree (fun (t _ u : Step) => decide (t.post.contract.subscriptionPlans = onePlan "starter" true ∧
        u.post.contract.subscriptionPlans = onePlan "pro" true ∧
        x.2.contract.subscriptionPlans = onePlan "pro" true)) x.1) (by decide +kernel)
  obtain ⟨t, v, u, rfl, hp⟩ := exists_of_ofThree hp
  obtain ⟨hstarter, hpro, hend⟩ := of_decide_eq_true hp
  refine ⟨_, w, h, ⟨t, List.mem_cons_self, hstarter⟩, hend, fun hstable => ?_⟩
  have hnever := (hstable [] t [v, u] rfl ⟨2, "starter", 10, true⟩
    (by rw [hstarter]; exact List.mem_cons_self) u (by simp)).1 ⟨2, "pro", 10, true⟩
    (by rw [hpro]; exact List.mem_cons_self) rfl
  exact absurd hnever (by decide)

end Outlayer
