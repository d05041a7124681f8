import Outlayer.Contract.TopUpSteps
import Outlayer.Worker.TopUps

/-!
# `Worker.Steps` — what a step of the system can do

`chain_step` reads a step of the chain as a step of the contract's world, with what it adds to the tasks and to the
settled top-ups; `ChainInv` is what that gives for every chain: an announced top-up waits or is settled, and what is
settled does not wait. `move_cases` lists what a step of the system can be, and `JobInv` is what holds of the jobs.
-/

namespace Outlayer
open Text Checked Collections Runs

namespace Worker

/-! ## Steps of the chain -/

/-- A step of the chain as it happened. -/
abbrev ChainStep := Transition Chain Event (List Effect)

/-- The step of the world in a step of the chain. -/
def ChainStep.toStep (u : ChainStep) : Step := ⟨u.pre.world, u.event, u.out, u.post.world⟩

section ChainStep
variable {H : Host} {u : ChainStep} {d : CryptoHash}

/-- **A step of the chain**: a step of the world, under a new id, with its events made tasks and its delivery a
    settlement. -/
theorem chain_step (h : Fires (Chain.next H) u) :
    Fires (World.next H) u.toStep ∧ u.pre.reuses u.event = false ∧
      u.post.tasks = u.pre.tasks ++ u.out.filterMap (topUpTaskOf H) ∧
      u.post.settled = u.pre.settle u.event u.out := by
  unfold Fires Chain.next at h
  split at h
  · cases h
  · next hnew =>
      cases hw : World.next H u.pre.world u.event with
      | none =>
          rw [hw] at h
          cases h
      | some r =>
          obtain ⟨w, effects⟩ := r
          rw [hw] at h
          obtain ⟨hpost, rfl⟩ := Prod.mk.inj (Option.some.inj h)
          refine ⟨?_, Bool.eq_false_iff.mpr hnew, ?_, ?_⟩
          · show World.next H u.pre.world u.event = some (u.post.world, u.out)
            rw [hw, ← hpost]
          · rw [← hpost]
          · rw [← hpost]

/-- What is settled after a step: what was, and the top-up it delivered. -/
theorem settled_lookup (h : Fires (Chain.next H) u) :
    u.post.settled.lookup d =
      if delivered u.event = some d ∧ (u.pre.world.yields.lookup d).any isTopUp = true then some (outcomeOf u.out)
      else u.pre.settled.lookup d := by
  rw [(chain_step h).2.2.2, Chain.settle]
  cases hd : delivered u.event with
  | none => simp
  | some d' =>
      by_cases hdd : d' = d
      · subst hdd
        by_cases hy : (u.pre.world.yields.lookup d').any isTopUp = true
        · simp [hy]
        · simp [hy]
      · have hne : d ≠ d' := Ne.symm hdd
        dsimp only
        split
        · rw [LookupMap.lookup_insert_iff, if_neg hne, if_neg]
          rintro ⟨heq, -⟩
          exact hdd (Option.some.inj heq)
        · rw [if_neg]
          rintro ⟨heq, -⟩
          exact hdd (Option.some.inj heq)

theorem delivered_eq {e : Event} (h : delivered e = some d) : ∃ env delivery, e = .yielded env d delivery := by
  cases e with
  | call _ _ => cases h
  | withdrawn _ _ => cases h
  | yielded env d' delivery =>
      obtain rfl : d' = d := Option.some.inj h
      exact ⟨env, delivery, rfl⟩

theorem isTopUp_eq {y : Yield} (h : isTopUp y = true) :
    ∃ owner nonce amount, y.callback = .onTopUpResponse owner nonce amount := by
  unfold isTopUp at h
  split at h
  · next owner nonce amount hcb => exact ⟨owner, nonce, amount, hcb⟩
  · cases h

end ChainStep

/-! ## What holds of every chain -/

/-- The top-up waits, or it is settled. -/
def Chain.Known (ch : Chain) (d : CryptoHash) : Prop :=
  (∃ y, ch.world.yields.lookup d = some y ∧ isTopUp y = true) ∨ d ∈ ch.settled

/-- What holds of every chain. A task of nothing is the creation of a key. -/
structure ChainInv (ch : Chain) : Prop where
  positive : ch.world.TopUpsPositive
  spent : ∀ d ∈ ch.settled, ch.world.yields.lookup d = none
  tasks : ∀ task ∈ ch.tasks, ∃ amount, task.amount = toString amount ∧
    (amount = 0 ∨ ∃ d : CryptoHash, task.dataId = hexEncode d.toList ∧ ch.Known d)

theorem chainInv_deploy (c : Contract) : ChainInv (Chain.deploy c) where
  positive _ _ _ _ _ h := by cases h
  spent _ h := by cases h
  tasks _ h := absurd h List.not_mem_nil

section Invariant
variable {H : Host} {u : ChainStep} {d : CryptoHash}

/-- A settled top-up stays settled. -/
theorem settled_stays (h : Fires (Chain.next H) u) (hd : d ∈ u.pre.settled) : d ∈ u.post.settled := by
  obtain ⟨o, ho⟩ := LookupMap.mem_iff_lookup.mp hd
  rw [LookupMap.mem_iff_lookup, settled_lookup h]
  split
  · exact ⟨_, rfl⟩
  · exact ⟨o, ho⟩

/-- A top-up that is not delivered still waits. -/
theorem topUp_stays (h : Fires (Chain.next H) u) (hd : delivered u.event ≠ some d) {y : Yield}
    (hy : u.pre.world.yields.lookup d = some y) :
    ∃ y', u.post.world.yields.lookup d = some y' ∧ y.Later y' := by
  refine step_yield_later (t := u.toStep) (chain_step h).1 ?_ hy
  intro env delivery event
  have hev : u.event = .yielded env d delivery := event
  exact hd (by rw [hev]; rfl)

theorem Yield.Later.isTopUp {y y' : Yield} (h : y.Later y') (hy : Worker.isTopUp y = true) :
    Worker.isTopUp y' = true := by
  unfold Worker.isTopUp at hy ⊢
  rw [h.callback]
  exact hy

theorem known_stays (h : Fires (Chain.next H) u) (hd : u.pre.Known d) : u.post.Known d := by
  rcases hd with ⟨y, hy, htop⟩ | hd
  · by_cases hdel : delivered u.event = some d
    · right
      rw [LookupMap.mem_iff_lookup, settled_lookup h, if_pos ⟨hdel, by simp [hy, htop]⟩]
      exact ⟨_, rfl⟩
    · obtain ⟨y', hy', hlater⟩ := topUp_stays h hdel hy
      exact Or.inl ⟨y', hy', Yield.Later.isTopUp hlater htop⟩
  · exact Or.inr (settled_stays h hd)

/-- A task that a step adds: the creation of a key, or a top-up that now waits. -/
theorem new_task (h : Fires (Chain.next H) u) {task : TopUpTaskData}
    (hmem : task ∈ u.out.filterMap (topUpTaskOf H)) :
    ∃ amount, task.amount = toString amount ∧
      (amount = 0 ∨ ∃ d : CryptoHash, task.dataId = hexEncode d.toList ∧ u.post.Known d) := by
  obtain ⟨e, he, htask⟩ := List.mem_filterMap.mp hmem
  unfold topUpTaskOf at htask
  split at htask
  · next standard version dataId owner nonce amount data =>
      obtain rfl := Option.some.inj htask
      refine ⟨amount, rfl, ?_⟩
      by_cases hzero : amount = 0
      · exact Or.inl hzero
      · refine Or.inr ⟨dataId, ?_, Or.inl ⟨_, step_announced (t := u.toStep) (chain_step h).1 he hzero, rfl⟩⟩
        refine if_neg ?_
        intro htext
        exact hzero (toString_nat_inj (n := 0) htext)
  · cases htask

theorem chainInv_step (h : Fires (Chain.next H) u) (inv : ChainInv u.pre) : ChainInv u.post := by
  obtain ⟨hw, hreuse, htasks, -⟩ := chain_step h
  constructor
  case positive => exact topUpsPositive_step (t := u.toStep) hw inv.positive
  case spent =>
    intro d hd
    by_contra hne
    obtain ⟨y, hy⟩ := Option.ne_none_iff_exists'.mp hne
    by_cases hdel : delivered u.event = some d
    · obtain ⟨env, delivery, event⟩ := delivered_eq hdel
      have hgone : u.post.world.yields.lookup d = none := delivered_gone (t := u.toStep) hw event
      rw [hgone] at hy
      cases hy
    · -- settled before the step, and not in flight then: only a call under the same id brings it back
      have hpre : d ∈ u.pre.settled := by
        obtain ⟨o, ho⟩ := LookupMap.mem_iff_lookup.mp hd
        rw [settled_lookup h, if_neg (fun hc => hdel hc.1)] at ho
        exact LookupMap.mem_iff_lookup.mpr ⟨o, ho⟩
      obtain ⟨env, call, event, hid⟩ := step_yield_new (t := u.toStep) hw (inv.spent d hpre) hy
      have hev : u.event = .call env call := event
      rw [hev] at hreuse
      exact absurd (hid ▸ hpre) (of_decide_eq_false hreuse)
  case tasks =>
    intro task htask
    rw [htasks] at htask
    rcases List.mem_append.mp htask with hold | hnew
    · obtain ⟨amount, hamount, hzero | ⟨d, hd, hknown⟩⟩ := inv.tasks task hold
      · exact ⟨amount, hamount, Or.inl hzero⟩
      · exact ⟨amount, hamount, Or.inr ⟨d, hd, known_stays h hknown⟩⟩
    · exact new_task h hnew

end Invariant

/-! ## Steps of the system -/

/-- The jobs that are about to report are the same. -/
def SameReports (s s' : System) : Prop :=
  ∀ job task result, s'.jobs.lookup job = some ⟨task, .crediting result⟩ ↔
    s.jobs.lookup job = some ⟨task, .crediting result⟩

/-- What a step of the system can be. -/
inductive MoveCase (H : Host) (t : Move) : Prop
  /-- a step of the chain -/
  | chain (e : Event) (event : t.event = .chain e)
      (fires : Fires (Chain.next H) ⟨t.pre.chain, e, t.out, t.post.chain⟩) (jobs : t.post.jobs = t.pre.jobs)
      (credits : t.post.credits = t.pre.credits)
  /-- a task taken up -/
  | took (job : Nat) (task : TopUpTaskData) (keystore : Option Services)
      (event : t.event = .take job task keystore) (announced : task ∈ t.pre.chain.tasks)
      (new : t.pre.jobs.lookup job = none) (chain : t.post.chain = t.pre.chain)
      (jobs : t.post.jobs = t.pre.jobs.insert job (Job.start H keystore task))
      (credits : t.post.credits = t.pre.credits)
  /-- a top-up resumed, as its worker sees -/
  | resumed (job : Nat) (env : Env) (task : TopUpTaskData) (data : String) (result : ProcessedTopUp)
      (event : t.event = .resume job (.seen env))
      (held : t.pre.jobs.lookup job = some ⟨task, .resuming data result⟩)
      (fires : Fires (Chain.next H)
        ⟨t.pre.chain, .call (withoutDeposit env) (successCall task data), t.out, t.post.chain⟩)
      (jobs : t.post.jobs = t.pre.jobs.insert job ⟨task, .crediting result⟩)
      (credits : t.post.credits = t.pre.credits)
  /-- a job that gets nowhere: it is put down, or it resumes its yield and reports nothing -/
  | failed (chain : t.post.chain = t.pre.chain ∨ ∃ env text result,
        Fires (Chain.next H) ⟨t.pre.chain, .call env (.resumeTopup text result), t.out, t.post.chain⟩ ∧
          ((∃ message, result = .error message) ∨ ∃ job env', t.event = .resume job (.unseen env')))
      (jobs : SameReports t.pre t.post)
      (others : ∀ job task data result, t.post.jobs.lookup job = some ⟨task, .resuming data result⟩ →
        t.pre.jobs.lookup job = some ⟨task, .resuming data result⟩)
      (credits : t.post.credits = t.pre.credits)
  /-- a report -/
  | credited (job : Nat) (told : Bool) (task : TopUpTaskData) (result : ProcessedTopUp)
      (event : t.event = .credit job told)
      (held : t.pre.jobs.lookup job = some ⟨task, .crediting result⟩) (chain : t.post.chain = t.pre.chain)
      (jobs : t.post.jobs = t.pre.jobs.erase job)
      (credits : t.post.credits = if told then t.pre.credits ++ [completeTopup task result] else t.pre.credits)
  /-- a worker that stops -/
  | stopped (job : Nat) (event : t.event = .stop job) (chain : t.post.chain = t.pre.chain)
      (jobs : t.post.jobs = t.pre.jobs.erase job) (credits : t.post.credits = t.pre.credits)

section Moves
variable {H : Host} {s s' : System} {es : List Effect} {job : Nat} {task : TopUpTaskData}

/-- A transaction that is executed is a call that goes through, or leaves the chain as it is. -/
theorem send_cases {ch ch' : Chain} {env : Env} {call : Call} {refusal : Option String}
    (h : ch.send H env call = some (ch', es, refusal)) :
    (refusal = none ∧ Fires (Chain.next H) ⟨ch, .call (withoutDeposit env) call, es, ch'⟩) ∨
      (∃ why, refusal = some why) ∧ ch' = ch := by
  unfold Chain.send at h
  split at h
  · next why _ =>
      cases h
      exact Or.inr ⟨⟨why, rfl⟩, rfl⟩
  · obtain ⟨⟨ch₁, es₁⟩, hnext, heq⟩ := Option.map_eq_some_iff.mp h
    cases heq
    exact Or.inl ⟨rfl, hnext⟩

/-- Moving a job that is not about to report to where it is not either. -/
theorem sameReports_put {j : Option Job} (old : ∀ task result, s.jobs.lookup job ≠ some ⟨task, .crediting result⟩)
    (new : ∀ task result, j ≠ some ⟨task, .crediting result⟩) : SameReports s (s.put job j) := by
  intro job' task result
  cases j with
  | none =>
      show (s.jobs.erase job).lookup job' = _ ↔ _
      rw [LookupMap.lookup_erase_iff]
      split
      · next heq =>
          subst heq
          constructor
          · intro h
            cases h
          · exact fun h => absurd h (old task result)
      · rfl
  | some j =>
      show (s.jobs.insert job j).lookup job' = _ ↔ _
      rw [LookupMap.lookup_insert_iff]
      split
      · next heq =>
          subst heq
          exact ⟨fun h => absurd h (new task result), fun h => absurd h (old task result)⟩
      · rfl

/-- A job put where it is not to be resumed makes no job one to be resumed. -/
theorem resuming_put {j : Option Job} (new : ∀ task data result, j ≠ some ⟨task, .resuming data result⟩)
    {job' : Nat} {data : String} {result : ProcessedTopUp}
    (h : (s.put job j).jobs.lookup job' = some ⟨task, .resuming data result⟩) :
    s.jobs.lookup job' = some ⟨task, .resuming data result⟩ := by
  cases j with
  | none =>
      change (s.jobs.erase job).lookup job' = _ at h
      obtain ⟨-, h⟩ := LookupMap.lookup_of_erase h
      exact h
  | some j =>
      change (s.jobs.insert job j).lookup job' = _ at h
      rw [LookupMap.lookup_insert_iff] at h
      split at h
      · exact absurd h (new task data result)
      · exact h

/-- A job that ends, or ends up failing, gets nowhere. -/
private theorem failed_case {t : Move} {j : Option Job} {chain : Chain}
    (hpost : t.post = { t.pre with chain }.put job j)
    (old : ∀ task result, t.pre.jobs.lookup job ≠ some ⟨task, .crediting result⟩)
    (new : j = none ∨ ∃ task message, j = some ⟨task, .failing message⟩)
    (hchain : chain = t.pre.chain ∨ ∃ env text result,
      Fires (Chain.next H) ⟨t.pre.chain, .call env (.resumeTopup text result), t.out, chain⟩ ∧
        ((∃ message, result = .error message) ∨ ∃ job env', t.event = .resume job (.unseen env'))) :
    MoveCase H t := by
  have hput : t.post.chain = chain ∧ t.post.credits = t.pre.credits := by
    rw [hpost]
    cases j <;> exact ⟨rfl, rfl⟩
  have hcrediting : ∀ task result, j ≠ some ⟨task, .crediting result⟩ := by
    rintro task result rfl
    rcases new with hnew | ⟨_, _, hnew⟩ <;> cases hnew
  have hresuming : ∀ task data result, j ≠ some ⟨task, .resuming data result⟩ := by
    rintro task data result rfl
    rcases new with hnew | ⟨_, _, hnew⟩ <;> cases hnew
  refine .failed (hput.1 ▸ hchain) ?_ ?_ hput.2
  · rw [hpost]
    exact sameReports_put (s := { t.pre with chain }) old hcrediting
  · intro job' task data result h
    rw [hpost] at h
    exact resuming_put (s := { t.pre with chain }) hresuming h

theorem answered_refused (task : TopUpTaskData) (result : ProcessedTopUp) (why : String) :
    Job.answered task result (some why) = none ∨
      ∃ task' message, Job.answered task result (some why) = some ⟨task', .failing message⟩ := by
  simp only [Job.answered]
  split
  · exact Or.inl rfl
  · exact Or.inr ⟨task, _, rfl⟩

theorem resume_cases {t : Move} {data : String} {result : ProcessedTopUp} {sending : Sending}
    (event : t.event = .resume job sending) (held : t.pre.jobs.lookup job = some ⟨task, .resuming data result⟩)
    (h : t.pre.resume H job task data result sending = some (t.post, t.out)) : MoveCase H t := by
  have old : ∀ task' result', t.pre.jobs.lookup job ≠ some ⟨task', .crediting result'⟩ := by
    intro task' result' hc
    rw [held] at hc
    cases hc
  cases sending with
  | unsent =>
      have hpost := (Prod.mk.inj (Option.some.inj h)).1
      exact failed_case hpost.symm old (Or.inr ⟨task, _, rfl⟩) (Or.inl rfl)
  | unseen env =>
      simp only [System.resume, Option.bind_eq_bind, Option.bind_eq_some_iff] at h
      obtain ⟨⟨chain, effects, refusal⟩, hsend, hpost⟩ := h
      obtain ⟨hpost, rfl⟩ := Prod.mk.inj (Option.some.inj hpost)
      refine failed_case hpost.symm old (Or.inr ⟨task, _, rfl⟩) ?_
      rcases send_cases hsend with ⟨-, hfires⟩ | ⟨-, rfl⟩
      · exact Or.inr ⟨_, _, _, hfires, Or.inr ⟨job, env, event⟩⟩
      · exact Or.inl rfl
  | seen env =>
      simp only [System.resume, Option.bind_eq_bind, Option.bind_eq_some_iff] at h
      obtain ⟨⟨chain, effects, refusal⟩, hsend, hpost⟩ := h
      obtain ⟨hpost, rfl⟩ := Prod.mk.inj (Option.some.inj hpost)
      rcases send_cases hsend with ⟨rfl, hfires⟩ | ⟨⟨why, rfl⟩, rfl⟩
      · refine .resumed job env task data result event held ?_ ?_ ?_
        · rw [← hpost]
          exact hfires
        · rw [← hpost]
          rfl
        · rw [← hpost]
          rfl
      · -- refused: the yield is gone, or the payer is to be told
        exact failed_case hpost.symm old (answered_refused task result why) (Or.inl rfl)

theorem giveUp_cases {t : Move} {message : String} {sending : Sending}
    (held : t.pre.jobs.lookup job = some ⟨task, .failing message⟩)
    (h : t.pre.giveUp H job task message sending = some (t.post, t.out)) : MoveCase H t := by
  have old : ∀ task' result', t.pre.jobs.lookup job ≠ some ⟨task', .crediting result'⟩ := by
    intro task' result' hc
    rw [held] at hc
    cases hc
  -- the error is sent, with or without an answer, or it is not
  have hsent : ∀ {env : Env} {chain : Chain} {refusal : Option String},
      t.pre.chain.send H env (.resumeTopup task.dataId (.error message)) = some (chain, t.out, refusal) →
      t.post = { t.pre with chain }.put job none → MoveCase H t := by
    intro env chain refusal hsend hpost
    refine failed_case hpost old (Or.inl rfl) ?_
    rcases send_cases hsend with ⟨-, hfires⟩ | ⟨-, rfl⟩
    · exact Or.inr ⟨_, _, _, hfires, Or.inl ⟨message, rfl⟩⟩
    · exact Or.inl rfl
  have hput : some (t.pre.put job none, ([] : List Effect)) = some (t.post, t.out) → MoveCase H t :=
    fun hsome => failed_case (Prod.mk.inj (Option.some.inj hsome)).1.symm old (Or.inl rfl) (Or.inl rfl)
  unfold System.giveUp at h
  split at h
  · exact hput h
  · cases sending with
    | unsent => exact hput h
    | unseen env =>
        simp only [Option.bind_eq_bind, Option.bind_eq_some_iff] at h
        obtain ⟨⟨chain, effects, refusal⟩, hsend, hpost⟩ := h
        obtain ⟨hpost, rfl⟩ := Prod.mk.inj (Option.some.inj hpost)
        exact hsent hsend hpost.symm
    | seen env =>
        simp only [Option.bind_eq_bind, Option.bind_eq_some_iff] at h
        obtain ⟨⟨chain, effects, refusal⟩, hsend, hpost⟩ := h
        obtain ⟨hpost, rfl⟩ := Prod.mk.inj (Option.some.inj hpost)
        exact hsent hsend hpost.symm

/-- **Inversion.** Every step of the system is one of the six cases. -/
theorem move_cases {t : Move} (h : Fires (System.next H) t) : MoveCase H t := by
  unfold Fires at h
  cases hev : t.event with
  | chain e =>
      rw [hev] at h
      obtain ⟨⟨ch, es⟩, hnext, heq⟩ := Option.map_eq_some_iff.mp h
      obtain ⟨hpost, rfl⟩ := Prod.mk.inj heq
      refine .chain e hev ?_ (by rw [← hpost]) (by rw [← hpost])
      rw [← hpost]
      exact hnext
  | take job task keystore =>
      rw [hev] at h
      simp only [System.next] at h
      split at h
      · next hcond =>
          obtain ⟨hpost, -⟩ := Prod.mk.inj (Option.some.inj h)
          exact .took job task keystore hev hcond.1 (AList.lookup_eq_none.mpr hcond.2) (by rw [← hpost]; rfl)
            (by rw [← hpost]; rfl) (by rw [← hpost]; rfl)
      · cases h
  | resume job sending =>
      rw [hev] at h
      simp only [System.next] at h
      split at h
      · next task data result held => exact resume_cases hev held h
      · cases h
  | credit job told =>
      rw [hev] at h
      simp only [System.next] at h
      split at h
      · next task result held =>
          obtain ⟨hpost, -⟩ := Prod.mk.inj (Option.some.inj h)
          exact .credited job told task result hev held (by rw [← hpost]; rfl) (by rw [← hpost]; rfl)
            (by rw [← hpost]; rfl)
      · cases h
  | giveUp job sending =>
      rw [hev] at h
      simp only [System.next] at h
      split at h
      · next task message held => exact giveUp_cases held h
      · cases h
  | stop job =>
      rw [hev] at h
      obtain ⟨hpost, -⟩ := Prod.mk.inj (Option.some.inj h)
      exact .stopped job hev (by rw [← hpost]; rfl) (by rw [← hpost]; rfl) (by rw [← hpost]; rfl)

/-- What a step does to the chain: nothing, or a step of it, a call unless it was a step of the chain alone. -/
theorem move_chain {t : Move} (h : Fires (System.next H) t) :
    t.post.chain = t.pre.chain ∨ ∃ e, Fires (Chain.next H) ⟨t.pre.chain, e, t.out, t.post.chain⟩ ∧
      (t.event = .chain e ∨ ∃ env call, e = .call env call) := by
  cases move_cases h with
  | chain e event fires _ _ => exact Or.inr ⟨e, fires, Or.inl event⟩
  | took _ _ _ _ _ _ chain _ _ => exact Or.inl chain
  | resumed _ _ _ _ _ _ _ fires _ _ => exact Or.inr ⟨_, fires, Or.inr ⟨_, _, rfl⟩⟩
  | failed chain _ _ _ =>
      rcases chain with hsame | ⟨_, _, _, fires, -⟩
      · exact Or.inl hsame
      · exact Or.inr ⟨_, fires, Or.inr ⟨_, _, rfl⟩⟩
  | credited _ _ _ _ _ _ chain _ _ => exact Or.inl chain
  | stopped _ _ chain _ _ => exact Or.inl chain

theorem chainInv_move {t : Move} (h : Fires (System.next H) t) (inv : ChainInv t.pre.chain) :
    ChainInv t.post.chain := by
  rcases move_chain h with hsame | ⟨e, fires, -⟩
  · exact hsame ▸ inv
  · exact chainInv_step fires inv

end Moves

/-! ## What holds of every job -/

/-- A task that went through has a number for its amount, and zero only for the creation of a key. -/
theorem processTopupTask_ok {H : Host} {S : Services} {task : TopUpTaskData} {p : Prepared}
    (h : processTopupTask H S task = .ok p) :
    ∃ n, parseUnsigned 128 task.amount = some n ∧
      ((∃ result, p = .initialized result) ∧ n = 0 ∨ (∃ data result, p = .ready data result) ∧ n ≠ 0) := by
  simp only [processTopupTask, bind_eq_ok, expect_eq_ok] at h
  obtain ⟨_, -, _, -, _, -, _, -, _, -, _, -, _, -, n, hn, h⟩ := h
  refine ⟨n, hn, ?_⟩
  split at h
  · next hzero =>
      simp only [bind_eq_ok, pure_eq_ok] at h
      obtain ⟨_, -, rfl⟩ := h
      exact Or.inl ⟨⟨_, rfl⟩, hzero⟩
  · next hpos =>
      simp only [bind_eq_ok, expect_eq_ok, pure_eq_ok] at h
      obtain ⟨_, -, rfl⟩ := h
      exact Or.inr ⟨⟨_, _, rfl⟩, hpos⟩

section Start
variable {H : Host} {keystore : Option Services} {task : TopUpTaskData}

/-- Only the creation of a key is reported without a call of the contract. -/
theorem start_crediting {result : ProcessedTopUp} (h : (Job.start H keystore task).stage = .crediting result) :
    parseUnsigned 128 task.amount = some 0 := by
  simp only [Job.start] at h
  split at h
  · cases h
  · split at h
    · next hrun =>
        obtain ⟨n, hn, ⟨-, rfl⟩ | ⟨⟨_, _, hready⟩, -⟩⟩ := processTopupTask_ok hrun
        · exact hn
        · cases hready
    · cases h
    · cases h

/-- A top-up is resumed only when it is of something. -/
theorem start_resuming {data : String} {result : ProcessedTopUp}
    (h : (Job.start H keystore task).stage = .resuming data result) : task.amount ≠ "0" := by
  simp only [Job.start] at h
  split at h
  · cases h
  · split at h
    · cases h
    · next hrun =>
        obtain ⟨n, hn, ⟨⟨_, hinit⟩, -⟩ | ⟨-, hpos⟩⟩ := processTopupTask_ok hrun
        · cases hinit
        · intro hzero
          rw [hzero] at hn
          exact hpos (eq_of_parseUnsigned_toString (n := 0) hn)
    · cases h

end Start

/-- What holds of the jobs that are to resume a yield. -/
def JobInv (s : System) : Prop :=
  ∀ job task data result, s.jobs.lookup job = some ⟨task, .resuming data result⟩ →
    task ∈ s.chain.tasks ∧ task.amount ≠ "0"

theorem jobInv_step {H : Host} {t : Move} (h : Fires (System.next H) t) (inv : JobInv t.pre) : JobInv t.post := by
  have hgrow : ∀ task ∈ t.pre.chain.tasks, task ∈ t.post.chain.tasks := by
    intro task htask
    rcases move_chain h with hsame | ⟨e, fires, -⟩
    · exact hsame ▸ htask
    · have htasks : t.post.chain.tasks = t.pre.chain.tasks ++ t.out.filterMap (topUpTaskOf H) :=
        (chain_step fires).2.2.1
      rw [htasks]
      exact List.mem_append_left _ htask
  have hold : ∀ {job task data result}, t.pre.jobs.lookup job = some ⟨task, .resuming data result⟩ →
      task ∈ t.post.chain.tasks ∧ task.amount ≠ "0" := by
    intro job task data result hj
    obtain ⟨htask, hpos⟩ := inv job task data result hj
    exact ⟨hgrow task htask, hpos⟩
  intro job task data result hj
  cases move_cases h with
  | chain _ _ _ jobs _ => exact hold (jobs ▸ hj)
  | took job' task' keystore _ announced _ chain jobs _ =>
      rw [jobs, LookupMap.lookup_insert_iff] at hj
      split at hj
      · have hstart := Option.some.inj hj
        obtain rfl : task' = task := congrArg Job.task hstart
        exact ⟨chain ▸ announced, start_resuming (congrArg Job.stage hstart)⟩
      · exact hold hj
  | resumed _ _ _ _ _ _ _ _ jobs _ =>
      rw [jobs, LookupMap.lookup_insert_iff] at hj
      split at hj
      · cases hj
      · exact hold hj
  | failed _ _ others _ => exact hold (others job task data result hj)
  | credited _ _ _ _ _ _ _ jobs _ =>
      rw [jobs] at hj
      obtain ⟨-, hj⟩ := LookupMap.lookup_of_erase hj
      exact hold hj
  | stopped _ _ _ jobs _ =>
      rw [jobs] at hj
      obtain ⟨-, hj⟩ := LookupMap.lookup_of_erase hj
      exact hold hj

/-- What holds of every system. -/
structure SystemInv (s : System) : Prop where
  chain : ChainInv s.chain
  jobs : JobInv s

theorem systemInv_deploy (c : Contract) : SystemInv (System.deploy c) where
  chain := chainInv_deploy c
  jobs _ _ _ _ h := by cases h

theorem systemInv_step {H : Host} {t : Move} (h : Fires (System.next H) t) (inv : SystemInv t.pre) :
    SystemInv t.post :=
  ⟨chainInv_move h inv.chain, jobInv_step h inv.jobs⟩

end Worker

end Outlayer
