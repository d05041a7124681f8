import Outlayer.Contract.RegistrySteps
import Outlayer.Contract.Replay

/-!
# `Contract.Correctness.Transfers` — a project moves only to an account that agreed to take it

An acceptance is a promise by one account to take one named project from one other account. It is recorded
once, it ends once (used by the transfer, or revoked), and its deposit goes back to the acceptor when it ends.
What a step does to an acceptance is said once, in `acceptance_step`; what happened to it over a history
follows from when it came into being and when it ended.
-/

namespace Outlayer
open Text Checked Collections Runs

/-- The deposit recorded for an acceptance. -/
def World.accepted (w : World) (a : TransferAcceptance) : Option Nat :=
  w.contract.projectTransferAcceptances.lookup a

/-- What recording an acceptance costs. -/
def acceptanceDeposit (a : TransferAcceptance) : Nat := transferAcceptanceBytes a * storagePricePerByte

/-- The acceptor records the acceptance. -/
def Event.Records (a : TransferAcceptance) : Event → Prop
  | .call env (.acceptProjectTransfer owner name) => a = ⟨env.predecessor, owner, name⟩
  | _                                             => False

/-- The acceptance is revoked by the acceptor, or used by the account it takes the project from. -/
def Event.Ends (a : TransferAcceptance) : Event → Prop
  | .call env (.revokeProjectTransfer owner name) => a = ⟨env.predecessor, owner, name⟩
  | .call env (.transferProject name newOwner)    => a = ⟨newOwner, env.predecessor, name⟩
  | _                                             => False

/-- No call both records and ends an acceptance. -/
theorem not_ends_of_records {a : TransferAcceptance} {e : Event} (h : e.Records a) : ¬ e.Ends a := by
  cases e with
  | call env call =>
      cases call with
      | acceptProjectTransfer => exact id
      | _ => exact h.elim
  | yielded _ _ _ => exact h.elim
  | withdrawn _ _ => exact h.elim

/-- The step sends the acceptor its deposit, and nothing else to anyone. -/
def Step.Returns (t : Step) (a : TransferAcceptance) (deposit : Nat) : Prop :=
  ∃ event, t.out = [.storage (.transfer a.newOwner deposit),
    .storage (emitSystemEvent t.pre.contract.toConfig event)]

/-- Nothing in these steps is about the acceptance. -/
def Untouched (a : TransferAcceptance) (tr : List Step) : Prop :=
  ∀ t ∈ tr, ¬ t.event.Records a ∧ ¬ t.event.Ends a

/-- The acceptance was recorded in these steps and nothing has touched it since. -/
def HeldSince (a : TransferAcceptance) (tr : List Step) : Prop :=
  ∃ tr₁ u tr₂, tr = tr₁ ++ u :: tr₂ ∧ u.event.Records a ∧ Untouched a tr₂

/-! ## One step -/

/-- What a step that ended in registry `g` did to an acceptance of registry `old`. -/
inductive AcceptanceStep (a : TransferAcceptance) (e : Event) (c : Config) (old g : Registry)
    (out : List Effect) : Prop
  | recorded (event : e.Records a) (new : old.projectTransferAcceptances.lookup a = none)
      (held : g.projectTransferAcceptances.lookup a = some (acceptanceDeposit a))
  | ended (deposit : Nat) (logged : SystemEvent) (event : e.Ends a)
      (held : old.projectTransferAcceptances.lookup a = some deposit)
      (gone : g.projectTransferAcceptances.lookup a = none)
      (paid : out = (refund a.newOwner deposit ++ [emitSystemEvent c logged]).map .storage)
  | other (neither : ¬ e.Records a ∧ ¬ e.Ends a)
      (same : g.projectTransferAcceptances.lookup a = old.projectTransferAcceptances.lookup a)

theorem acceptance_call {w : World} {env : Env} {c : Contract} {call : Call} {g : Registry}
    {ses : List StorageEffect} (h : RegistryCall (w.seenBy env) c call g ses) (a : TransferAcceptance) :
    AcceptanceStep a (.call env call) c.toConfig c.toRegistry g (ses.map .storage) := by
  cases h with
  | @accept owner name deposit event new paid measured =>
      by_cases ha : a = ⟨env.predecessor, owner, name⟩
      · subst ha
        exact .recorded rfl new (measured ▸ AList.lookup_insert _)
      · exact .other ⟨ha, id⟩ (AList.lookup_insert_ne ha)
  | @revoke owner name deposit event held =>
      by_cases ha : a = ⟨env.predecessor, owner, name⟩
      · subst ha
        exact .ended deposit event rfl held (AList.lookup_erase _ _) rfl
      · exact .other ⟨id, ha⟩ (AList.lookup_erase_ne ha)
  | @transfer name newOwner project deposit event unpriced exists_ free held owner =>
      by_cases ha : a = ⟨newOwner, env.predecessor, name⟩
      · subst ha
        exact .ended deposit event rfl held (AList.lookup_erase _ _) rfl
      · exact .other ⟨id, ha⟩ (AList.lookup_erase_ne ha)
  | create | addVersion | activate | removeVersion | delete => exact .other ⟨id, id⟩ rfl

/-- **What a step can do to an acceptance.** -/
theorem acceptance_step {H : Host} {t : Step} (hf : Fires (World.next H) t) (a : TransferAcceptance) :
    AcceptanceStep a t.event t.pre.contract.toConfig t.pre.contract.toRegistry t.post.contract.toRegistry
      t.out := by
  rcases step_parts hf with ⟨env, call, he, -, hparts⟩ | ⟨hno, hsame, -⟩
  · rw [he]
    rcases hparts.registry with ⟨ses, hrun, hout⟩ | ⟨hoff, hsame⟩
    · rw [hout]
      exact acceptance_call (registry_call hrun) a
    · rw [hsame]
      refine .other ?_ rfl
      cases call with
      | acceptProjectTransfer | revokeProjectTransfer | transferProject => exact absurd rfl (hoff _)
      | _ => exact ⟨id, id⟩
  · rw [hsame]
    refine .other ?_ rfl
    cases he : t.event with
    | call env call => exact absurd he (hno env call)
    | yielded _ _ _ => exact ⟨id, id⟩
    | withdrawn _ _ => exact ⟨id, id⟩

/-- While a deposit is on record, before and after, nothing touches the acceptance. -/
theorem untouched_of_held {H : Host} {t : Step} (hf : Fires (World.next H) t) {a : TransferAcceptance}
    {deposit : Nat} (hpre : t.pre.accepted a = some deposit) (hpost : t.post.accepted a = some deposit) :
    ¬ t.event.Records a ∧ ¬ t.event.Ends a := by
  unfold World.accepted at hpre hpost
  cases acceptance_step hf a with
  | recorded event new held =>
      rw [hpre] at new
      cases new
  | ended d logged event held gone paid =>
      rw [hpost] at gone
      cases gone
  | other neither same => exact neither

/-! ## Where a project comes from -/

/-- After the step `newOwner` owns a project `newOwner/name` that it did not own there before. -/
def Step.Brings (t : Step) (newOwner : AccountId) (name : String) : Prop :=
  ∃ project, t.post.contract.projects.lookup (projectIdOf newOwner name) = some project ∧
    project.owner = newOwner ∧
    ∀ before, t.pre.contract.projects.lookup (projectIdOf newOwner name) = some before →
      before.owner = newOwner → before.uuid ≠ project.uuid

/-- `owner` creates the project `owner/name`. -/
def Event.Creates (owner : AccountId) (name : String) : Event → Prop
  | .call env (.createProject projectName _) => env.predecessor = owner ∧ projectName = name
  | _                                        => False

/-- `owner` transfers the project `owner/name` to `newOwner`. -/
def Event.Transfers (owner newOwner : AccountId) (name : String) : Event → Prop
  | .call env (.transferProject projectName receiver) =>
      env.predecessor = owner ∧ receiver = newOwner ∧ projectName = name
  | _ => False

section Arrivals
variable {env : Env} {c : Contract} {call : Call} {g : Registry} {ses : List StorageEffect}

/-- A project that is new under `newOwner/name` was created there or transferred there. -/
theorem arrival_call {w : World} (h : RegistryCall (w.seenBy env) c call g ses) {newOwner : AccountId}
    {name : String} {project : Project}
    (there : g.projects.lookup (projectIdOf newOwner name) = some project) (owned : project.owner = newOwner)
    (new : ∀ before, c.projects.lookup (projectIdOf newOwner name) = some before → before.owner = newOwner →
      before.uuid ≠ project.uuid) :
    (Event.call env call).Creates newOwner name ∨
      ∃ owner, (Event.call env call).Transfers owner newOwner name := by
  -- what was under the id before, with the same owner and uuid, is not new
  have hkept : c.projects.lookup (projectIdOf newOwner name) ≠ some project := by
    intro hsame
    exact new project hsame owned rfl
  cases h with
  | @create name' source project' key version free uuid active priced paid owner named keyed =>
      change (c.projects.insert _ _).lookup _ = _ at there
      rw [LookupMap.lookup_insert_iff] at there
      split at there
      · next hid =>
          cases there
          have hcaller : env.predecessor = newOwner := owner.symm.trans owned
          rw [← hcaller] at hid
          exact Or.inl ⟨hcaller, (projectIdOf_name_inj hid).symm⟩
      · exact absurd there hkept
  | @addVersion name' source setActive project' versions key version exists_ found fresh priced paid owner keyed =>
      cases setActive with
      | false => exact absurd there hkept
      | true =>
          change (c.projects.insert _ _).lookup _ = _ at there
          rw [LookupMap.lookup_insert_iff] at there
          split at there
          · next hid =>
              cases there
              exact absurd rfl (new project' (hid ▸ exists_) owned)
          · exact absurd there hkept
  | @activate name' key project' versions exists_ found held owner =>
      change (c.projects.insert _ _).lookup _ = _ at there
      rw [LookupMap.lookup_insert_iff] at there
      split at there
      · next hid =>
          cases there
          exact absurd rfl (new project' (hid ▸ exists_) owned)
      · exact absurd there hkept
  | delete project' event exists_ owner => exact absurd (LookupMap.lookup_of_erase there).2 hkept
  | @transfer name' newOwner' project' deposit event unpriced exists_ free held owner =>
      change ((c.projects.erase _).insert _ _).lookup _ = _ at there
      rw [LookupMap.lookup_insert_iff] at there
      split at there
      · next hid =>
          cases there
          obtain rfl : newOwner' = newOwner := owned
          exact Or.inr ⟨env.predecessor, rfl, rfl, (projectIdOf_name_inj hid).symm⟩
      · exact absurd (LookupMap.lookup_of_erase there).2 hkept
  | removeVersion | accept | revoke => exact absurd there hkept

theorem arrival_step {H : Host} {t : Step} (hf : Fires (World.next H) t) {newOwner : AccountId} {name : String}
    (h : t.Brings newOwner name) :
    t.event.Creates newOwner name ∨ ∃ owner, t.event.Transfers owner newOwner name := by
  obtain ⟨project, there, owned, new⟩ := h
  have hkept : t.post.contract.toRegistry ≠ t.pre.contract.toRegistry := by
    intro hsame
    refine new project ?_ owned rfl
    rw [← there]
    exact congrArg (fun g : Registry => g.projects.lookup (projectIdOf newOwner name)) hsame.symm
  rcases step_parts hf with ⟨env, call, he, -, hparts⟩ | ⟨-, hsame, -⟩
  · rw [he]
    rcases hparts.registry with ⟨ses, hrun, -⟩ | ⟨-, hsame⟩
    · exact arrival_call (registry_call hrun) there owned new
    · exact absurd hsame hkept
  · exact absurd hsame hkept

/-- What a transfer does to projects: the one it moves keeps its uuid, every other stays as it is. -/
theorem transfer_call {w : World} {newOwner : AccountId} {name : String}
    (h : RegistryCall (w.seenBy env) c (.transferProject name newOwner) g ses) :
    (∃ project moved, c.projects.lookup (projectIdOf env.predecessor name) = some project ∧
      g.projects.lookup (projectIdOf newOwner name) = some moved ∧ moved.uuid = project.uuid) ∧
    ∀ id project, id ≠ projectIdOf env.predecessor name → c.projects.lookup id = some project →
      g.projects.lookup id = some project := by
  cases h with
  | transfer project deposit event unpriced exists_ free held owner =>
      refine ⟨⟨project, _, exists_, AList.lookup_insert _, rfl⟩, ?_⟩
      intro id other hid hother
      have hleft : (c.projects.erase (projectIdOf env.predecessor name)).lookup id = some other := by
        rw [LookupMap.lookup_erase_iff, if_neg hid]
        exact hother
      show ((c.projects.erase _).insert _ _).lookup id = some other
      rw [LookupMap.lookup_insert_iff, if_neg]
      · exact hleft
      · rintro rfl
        exact nomatch free.symm.trans hleft

end Arrivals

/-! ## Histories -/

/-- How projects change hands in a history `tr` that ends in `w`. -/
structure MovesOnAcceptance (tr : List Step) (w : World) : Prop where
  /-- a project is new under `newOwner/name` only by creation, or by a transfer onto an acceptance in force -/
  arrives : ∀ tr₁ t tr₂, tr = tr₁ ++ t :: tr₂ → ∀ newOwner name, t.Brings newOwner name →
    t.event.Creates newOwner name ∨
      ∃ owner, t.event.Transfers owner newOwner name ∧ HeldSince ⟨newOwner, owner, name⟩ tr₁
  /-- a recorded acceptance is still in force, or the first step that touched it ended it and returned its
      deposit -/
  recorded : ∀ a tr₁ u tr₂, tr = tr₁ ++ u :: tr₂ → u.event.Records a →
    (Untouched a tr₂ ∧ w.accepted a = some (acceptanceDeposit a)) ∨
      ∃ tr₃ e tr₄, tr₂ = tr₃ ++ e :: tr₄ ∧ Untouched a tr₃ ∧ e.event.Ends a ∧
        e.Returns a (acceptanceDeposit a)
  /-- what ends an acceptance finds it in force, returns its deposit and leaves none -/
  ended : ∀ a tr₁ e tr₂, tr = tr₁ ++ e :: tr₂ → e.event.Ends a →
    HeldSince a tr₁ ∧ e.Returns a (acceptanceDeposit a) ∧ e.post.accepted a = none
  /-- an acceptance that has ended does not end again before it is recorded again -/
  once : ∀ a tr₁ e tr₂ e' tr₃, tr = tr₁ ++ e :: tr₂ ++ e' :: tr₃ → e.event.Ends a → e'.event.Ends a →
    ∃ u ∈ tr₂, u.event.Records a
  /-- a transfer moves its project under the new id and leaves every other project as it is -/
  overwrites_nothing : ∀ t ∈ tr, ∀ owner newOwner name, t.event.Transfers owner newOwner name →
    (∃ project moved, t.pre.contract.projects.lookup (projectIdOf owner name) = some project ∧
      t.post.contract.projects.lookup (projectIdOf newOwner name) = some moved ∧
      moved.uuid = project.uuid) ∧
    ∀ id project, id ≠ projectIdOf owner name → t.pre.contract.projects.lookup id = some project →
      t.post.contract.projects.lookup id = some project

section Histories
variable {H : Host} {w₀ w : World} {tr : List Step} {a : TransferAcceptance} {deposit : Nat}

/-- A run with the deposit on record all along does not touch the acceptance. -/
theorem untouched_of_all (hrun : Run (World.next H) w₀ tr w)
    (hall : ∀ t ∈ tr, t.pre.accepted a = some deposit ∧ t.post.accepted a = some deposit) : Untouched a tr := by
  intro t ht
  obtain ⟨_, -, hf⟩ := hrun.fired ht
  exact untouched_of_held hf (hall t ht).1 (hall t ht).2

/-- A deposit on record that was not there at the start was recorded at its price, and is untouched since. -/
theorem heldSince_of_accepted (hrun : Run (World.next H) w₀ tr w) (hnone : w₀.accepted a = none)
    (hheld : w.accepted a = some deposit) : HeldSince a tr ∧ deposit = acceptanceDeposit a := by
  have hstart : ¬ w₀.accepted a = some deposit := by
    rw [hnone]
    exact nofun
  -- the step since which exactly this deposit has been on record
  obtain ⟨tr₁, u, tr₂, rfl, hno, hyes, hsince⟩ :=
    hrun.since (Q := fun s => s.accepted a = some deposit) hstart hheld
  obtain ⟨-, hfires, hrest⟩ := hrun.at_split
  have huntouched := untouched_of_all hrest hsince
  unfold World.accepted at hno hyes
  cases acceptance_step hfires a with
  | recorded event new held =>
      rw [hyes] at held
      exact ⟨⟨tr₁, u, tr₂, rfl, event, huntouched⟩, Option.some.inj held⟩
  | ended d logged event held gone paid =>
      rw [hyes] at gone
      cases gone
  | other neither same =>
      rw [hyes] at same
      exact absurd same.symm hno

/-- What an ending step finds and leaves. -/
theorem ended_step {t : Step} (hf : Fires (World.next H) t) (hends : t.event.Ends a) :
    ∃ deposit, t.pre.accepted a = some deposit ∧ t.post.accepted a = none ∧
      (0 < deposit → t.Returns a deposit) := by
  cases acceptance_step hf a with
  | recorded event new held => exact absurd hends (not_ends_of_records event)
  | ended d logged event held gone paid =>
      refine ⟨d, held, gone, ?_⟩
      intro hpos
      refine ⟨logged, ?_⟩
      rw [paid, refund, if_pos hpos]
      rfl
  | other neither same => exact absurd hends neither.2

theorem acceptanceDeposit_pos (a : TransferAcceptance) : 0 < acceptanceDeposit a := by
  refine Nat.mul_pos ?_ (by decide)
  unfold transferAcceptanceBytes
  omega

/-- A step that ends an acceptance nobody had recorded at the start. -/
theorem ends_held {tr₁ tr₂ : List Step} {e : Step} (hrun : Run (World.next H) w₀ (tr₁ ++ e :: tr₂) w)
    (hnone : w₀.accepted a = none) (hends : e.event.Ends a) :
    HeldSince a tr₁ ∧ e.Returns a (acceptanceDeposit a) ∧ e.post.accepted a = none := by
  obtain ⟨hbefore, hfires, -⟩ := hrun.at_split
  obtain ⟨deposit, hheld, hgone, hreturns⟩ := ended_step hfires hends
  obtain ⟨hsince, rfl⟩ := heldSince_of_accepted hbefore hnone hheld
  exact ⟨hsince, hreturns (acceptanceDeposit_pos a), hgone⟩

/-- From its recording on, an acceptance stays in force until the step that ends it. -/
theorem recorded_until {tr₁ tr₂ : List Step} {u : Step} (hrun : Run (World.next H) w₀ (tr₁ ++ u :: tr₂) w)
    (hrecords : u.event.Records a) :
    (Untouched a tr₂ ∧ w.accepted a = some (acceptanceDeposit a)) ∨
      ∃ tr₃ e tr₄, tr₂ = tr₃ ++ e :: tr₄ ∧ Untouched a tr₃ ∧ e.event.Ends a ∧
        e.Returns a (acceptanceDeposit a) := by
  obtain ⟨-, hfires, hafter⟩ := hrun.at_split
  have hheld : u.post.accepted a = some (acceptanceDeposit a) := by
    cases acceptance_step hfires a with
    | recorded event new held => exact held
    | ended d logged event held gone paid => exact absurd event (not_ends_of_records hrecords)
    | other neither same => exact absurd hrecords neither.1
  -- on record to the end, or up to the step that takes it off
  rcases hafter.until (Q := fun s => s.accepted a = some (acceptanceDeposit a)) hheld with
    ⟨hend, hall⟩ | ⟨tr₃, e, tr₄, rfl, hall, hyes, hno⟩
  · exact Or.inl ⟨untouched_of_all hafter hall, hend⟩
  · obtain ⟨hbefore, hfe, -⟩ := hafter.at_split
    refine Or.inr ⟨tr₃, e, tr₄, rfl, untouched_of_all hbefore hall, ?_⟩
    unfold World.accepted at hyes hno
    cases acceptance_step hfe a with
    | recorded event new held =>
        rw [hyes] at new
        cases new
    | ended d logged event held gone paid =>
        obtain ⟨d', hd', -, hreturns⟩ := ended_step hfe event
        rw [World.accepted, hyes] at hd'
        cases hd'
        exact ⟨event, hreturns (acceptanceDeposit_pos a)⟩
    | other neither same => exact absurd (same.trans hyes) hno

/-- Between two endings the acceptance is recorded. -/
theorem recorded_between {tr₁ tr₂ tr₃ : List Step} {e e' : Step}
    (hrun : Run (World.next H) w₀ (tr₁ ++ e :: tr₂ ++ e' :: tr₃) w) (hends : e.event.Ends a)
    (hends' : e'.event.Ends a) : ∃ u ∈ tr₂, u.event.Records a := by
  obtain ⟨hbefore, hfires', -⟩ := hrun.at_split
  obtain ⟨-, hfires, hbetween⟩ := hbefore.at_split
  obtain ⟨_, -, hgone, -⟩ := ended_step hfires hends
  obtain ⟨_, hheld, -, -⟩ := ended_step hfires' hends'
  -- off the record after the first ending and on it before the second
  obtain ⟨⟨_, u, _, rfl, hrecords, -⟩, -⟩ := heldSince_of_accepted hbetween hgone hheld
  exact ⟨u, by simp, hrecords⟩

/-- A transfer in a run, seen from its event. -/
theorem transfer_step {t : Step} (hf : Fires (World.next H) t) {owner newOwner : AccountId} {name : String}
    (h : t.event.Transfers owner newOwner name) :
    t.event.Ends ⟨newOwner, owner, name⟩ ∧
    (∃ project moved, t.pre.contract.projects.lookup (projectIdOf owner name) = some project ∧
      t.post.contract.projects.lookup (projectIdOf newOwner name) = some moved ∧
      moved.uuid = project.uuid) ∧
    ∀ id project, id ≠ projectIdOf owner name → t.pre.contract.projects.lookup id = some project →
      t.post.contract.projects.lookup id = some project := by
  cases he : t.event with
  | call env call =>
      rw [he] at h
      cases call with
      | transferProject projectName receiver =>
          obtain ⟨rfl, rfl, rfl⟩ := h
          refine ⟨rfl, ?_⟩
          rcases step_parts hf with ⟨env', call', he', -, hparts⟩ | ⟨hno, -⟩
          · rw [he] at he'
            cases he'
            rcases hparts.registry with ⟨ses, hrun, -⟩ | ⟨hoff, -⟩
            · exact transfer_call (registry_call hrun)
            · exact absurd rfl (hoff _)
          · exact absurd he (hno env _)
      | _ => exact h.elim
  | yielded _ _ _ =>
      rw [he] at h
      exact h.elim
  | withdrawn _ _ =>
      rw [he] at h
      exact h.elim

end Histories

/-- **Projects move onto acceptances only**, in every history: nobody is given a project it did not agree to
    take, an acceptance is good for one transfer, its deposit comes back once, and no project is overwritten. -/
theorem moves_on_acceptance {H : Host} {owner : AccountId} {operator : Option AccountId}
    {standard version : Option String} {tr : List Step} {w : World}
    (h : World.History H owner operator standard version tr w) : MovesOnAcceptance tr w where
  arrives := by
    rintro tr₁ t tr₂ rfl newOwner name hbrings
    obtain ⟨-, hf, -⟩ := h.at_split
    rcases arrival_step hf hbrings with hcreates | ⟨from_, htransfers⟩
    · exact Or.inl hcreates
    · exact Or.inr ⟨from_, htransfers, (ends_held h rfl (transfer_step hf htransfers).1).1⟩
  recorded := by
    rintro a tr₁ u tr₂ rfl hrecords
    exact recorded_until h hrecords
  ended := by
    rintro a tr₁ e tr₂ rfl hends
    exact ends_held h rfl hends
  once := by
    rintro a tr₁ e tr₂ e' tr₃ rfl hends hends'
    exact recorded_between h hends hends'
  overwrites_nothing := by
    intro t ht owner newOwner name htransfers
    obtain ⟨_, -, hf⟩ := h.fired ht
    exact (transfer_step hf htransfers).2

/-- Bob takes `app` from Alice, twice, and each time it takes an acceptance of its own. -/
theorem moves_on_acceptance_twice :
    ∃ tr w, World.History asciiHost ownerAccount none none none tr w ∧
      (w.contract.projects.lookup "bob.near/app" ≠ none ∧ tr.length = 7) ∧ MovesOnAcceptance tr w := by
  obtain ⟨tr, w, h, hp⟩ := exists_history
    [callBy aliceAccount (.createProject "app" (.gitHub "github.com/alice/app" "v1" none)) (10 ^ 24),
     callBy bobAccount (.acceptProjectTransfer aliceAccount "app") (10 ^ 24),
     callBy aliceAccount (.transferProject "app" bobAccount),
     callBy bobAccount (.deleteProject "app"),
     callBy aliceAccount (.createProject "app" (.gitHub "github.com/alice/app" "v1" none)) (10 ^ 24),
     callBy bobAccount (.acceptProjectTransfer aliceAccount "app") (10 ^ 24),
     callBy aliceAccount (.transferProject "app" bobAccount)]
    (fun r => decide (r.2.contract.projects.lookup "bob.near/app" ≠ none ∧ r.1.length = 7))
    (by decide +kernel)
  exact ⟨tr, w, h, of_decide_eq_true hp, moves_on_acceptance h⟩

end Outlayer
