import Outlayer.Contract.RegistrySteps
import Outlayer.Contract.Correctness.Prices

/-!
# `Contract.Correctness.PriceTables` — a price list belongs to a project that exists

Names are reusable, so a price list left behind by a project would apply to the next project of that name. The
list of a deleted project is what is left behind; nothing else is.
-/

namespace Outlayer
open Checked Collections Runs

/-- Every key of the price table is the id of a project. -/
def Contract.PricesLive (c : Contract) : Prop :=
  ∀ id, c.projectPricing.lookup id ≠ none → c.projects.lookup id ≠ none

/-- The project an event deletes. -/
def Event.deletedProject : Event → Option String
  | .call env (.deleteProject name) => some (projectIdOf env.predecessor name)
  | _                               => none

/-- The project an event creates. -/
def Event.createdProject : Event → Option String
  | .call env (.createProject name _) => some (projectIdOf env.predecessor name)
  | _                                 => none

/-- The step deletes a project that has a price list. -/
def Step.DeletesPriced (t : Step) : Prop :=
  ∃ id ∈ t.event.deletedProject, t.pre.contract.projectPricing.lookup id ≠ none

instance (t : Step) : Decidable t.DeletesPriced := inferInstanceAs (Decidable (∃ id ∈ _, _))

theorem deletedProject_eq_some {e : Event} {id : String} (h : e.deletedProject = some id) :
    ∃ env name, e = .call env (.deleteProject name) ∧ id = projectIdOf env.predecessor name := by
  unfold Event.deletedProject at h
  split at h
  · next env name =>
      cases h
      exact ⟨env, name, rfl, rfl⟩
  · cases h

theorem createdProject_eq_some {e : Event} {id : String} (h : e.createdProject = some id) :
    ∃ env name source, e = .call env (.createProject name source) ∧ id = projectIdOf env.predecessor name := by
  unfold Event.createdProject at h
  split at h
  · next env name source =>
      cases h
      exact ⟨env, name, source, rfl, rfl⟩
  · cases h

/-! ## One step -/

section Calls
variable {H : Host} {env : Env} {c c' : Contract} {call : Call} {ses : List StorageEffect}

/-- A call on the registry keeps the table live, unless it deletes a priced project. -/
theorem pricesLive_registry (h : RegistryCall env c call c'.toRegistry ses)
    (hprices : c'.toPriceTable = c.toPriceTable) (hlive : c.PricesLive)
    (hdelete : ∀ name, call = .deleteProject name →
      c.projectPricing.lookup (projectIdOf env.predecessor name) = none) : c'.PricesLive := by
  intro id hid
  rw [show c'.projectPricing = c.projectPricing from congrArg PriceTable.projectPricing hprices] at hid
  have hold := hlive id hid
  generalize hg : c'.toRegistry = g at h
  cases h with
  | create project key version free _ _ _ _ _ _ _ => exact LookupMap.lookup_insert_ne_none hold
  | @addVersion name source setActive project versions key version exists_ found new priced paid _ _ =>
      show (if setActive then _ else c.projects).lookup id ≠ none
      split
      · exact LookupMap.lookup_insert_ne_none hold
      · exact hold
  | activate project versions exists_ found held _ => exact LookupMap.lookup_insert_ne_none hold
  | removeVersion _ _ _ _ _ _ _ _ => exact hold
  | @delete name project event exists_ _ =>
      refine LookupMap.lookup_erase_ne_none hold ?_
      rintro rfl
      exact hid (hdelete name rfl)
  | accept _ _ _ _ _ => exact hold
  | revoke _ _ _ => exact hold
  | transfer project deposit event unpriced exists_ free held _ =>
      refine LookupMap.lookup_insert_ne_none (LookupMap.lookup_erase_ne_none hold ?_)
      -- a priced project does not move
      rintro rfl
      exact hid unpriced

/-- So does a call on the table itself. -/
theorem pricesLive_pricing (h : runCall H env c call = .pricing (.ok c'.toPriceTable))
    (hregistry : c'.toRegistry = c.toRegistry) (hlive : c.PricesLive) : c'.PricesLive := by
  intro id hid
  rw [show c'.projects = c.projects from congrArg Registry.projects hregistry]
  cases call with
  | setProjectPricing projectId pricing =>
      obtain ⟨hproject, -, htable⟩ := setProjectPricing_ok (PartRun.pricing.inj h)
      rw [show c'.projectPricing = c.projectPricing.insert projectId pricing from
        congrArg PriceTable.projectPricing htable, LookupMap.lookup_insert_iff] at hid
      split at hid
      · next hsame =>
          subst hsame
          exact hproject
      · exact hlive id hid
  | removeProjectPricing projectId =>
      have hrun := PartRun.pricing.inj h
      simp only [removeProjectPricing, bind_eq_ok, pure_eq_ok] at hrun
      obtain ⟨_, -, htable⟩ := hrun
      rw [show c'.projectPricing = c.projectPricing.erase projectId from
        congrArg PriceTable.projectPricing htable.symm, LookupMap.lookup_erase_iff] at hid
      split at hid
      · exact absurd rfl hid
      · exact hlive id hid
  | _ => cases h

end Calls

section Step
variable {H : Host} {t : Step}

/-- A call on the registry does not touch the prices. -/
theorem PartsKept.prices_of_registry {c c' : Contract} {r : PartRun} {es : List Effect}
    {x : Res (Registry × List StorageEffect)} (h : PartsKept c c' r es) (hr : r = .registry x) :
    c'.toPriceTable = c.toPriceTable := by
  rcases h.pricing with hp | ⟨-, hp⟩
  · rw [hr] at hp
    cases hp
  · exact hp

/-- What stays the same stays live. -/
theorem pricesLive_of_same {c c' : Contract} (hregistry : c'.toRegistry = c.toRegistry)
    (hprices : c'.toPriceTable = c.toPriceTable) (hlive : c.PricesLive) : c'.PricesLive := by
  intro id hid
  rw [show c'.projectPricing = c.projectPricing from congrArg PriceTable.projectPricing hprices] at hid
  rw [show c'.projects = c.projects from congrArg Registry.projects hregistry]
  exact hlive id hid

/-- A deletion keeps the table and drops the project. -/
theorem not_pricesLive_of_delete (hf : Fires (World.next H) t) (hdel : t.DeletesPriced) :
    ¬ t.post.contract.PricesLive := by
  intro hpost
  obtain ⟨id, hid, hpriced⟩ := hdel
  obtain ⟨env, name, event, rfl⟩ := deletedProject_eq_some hid
  rcases step_parts hf with ⟨env', call, event', -, hparts⟩ | ⟨hno, -⟩
  · rw [event] at event'
    cases event'
    rcases hparts.registry with ⟨ses, hrun, -⟩ | ⟨hoff, -⟩
    · have hprices := hparts.prices_of_registry hrun
      have hcall := registry_call hrun
      generalize hg : t.post.contract.toRegistry = g at hcall
      cases hcall with
      | delete project event exists_ _ =>
          refine hpost (projectIdOf env.predecessor name) ?_ ?_
          · rwa [show t.post.contract.projectPricing = t.pre.contract.projectPricing from
              congrArg PriceTable.projectPricing hprices]
          · rw [show t.post.contract.projects = _ from congrArg Registry.projects hg]
            exact AList.lookup_erase _ _
    · exact hoff _ rfl
  · exact absurd event (hno env _)

/-- Any other step keeps a live table live. -/
theorem pricesLive_step (hf : Fires (World.next H) t) (hlive : t.pre.contract.PricesLive)
    (hkeep : ¬ t.DeletesPriced) : t.post.contract.PricesLive := by
  rcases step_parts hf with ⟨env, call, event, -, hparts⟩ | ⟨-, hregistry, -, hprices⟩
  · rcases hparts.registry with ⟨ses, hrun, -⟩ | ⟨-, hsame⟩
    · refine pricesLive_registry (registry_call hrun) (hparts.prices_of_registry hrun) hlive ?_
      rintro name rfl
      by_contra hpriced
      exact hkeep ⟨projectIdOf env.predecessor name, by rw [event]; rfl, hpriced⟩
    · rcases hparts.pricing with hp | ⟨-, hp⟩
      · exact pricesLive_pricing hp hsame hlive
      · exact pricesLive_of_same hsame hp hlive
  · exact pricesLive_of_same hregistry hprices hlive

/-- A project created while the table is live starts without a price list. -/
theorem created_unpriced (hf : Fires (World.next H) t) (hlive : t.pre.contract.PricesLive) {id : String}
    (hid : t.event.createdProject = some id) : t.post.contract.projectPricing.lookup id = none := by
  obtain ⟨env, name, source, event, rfl⟩ := createdProject_eq_some hid
  rcases step_parts hf with ⟨env', call, event', -, hparts⟩ | ⟨hno, -⟩
  · rw [event] at event'
    cases event'
    rcases hparts.registry with ⟨ses, hrun, -⟩ | ⟨hoff, -⟩
    · rw [show t.post.contract.projectPricing = t.pre.contract.projectPricing from
        congrArg PriceTable.projectPricing (hparts.prices_of_registry hrun)]
      have hcall := registry_call hrun
      generalize t.post.contract.toRegistry = g at hcall
      cases hcall with
      | create project key version free _ _ _ _ _ _ _ =>
          -- a price list under this id would belong to a project, and there is none
          by_contra hpriced
          exact hlive _ hpriced free
    · exact absurd rfl (hoff _)
  · exact absurd event (hno env _)

end Step

/-! ## Whole histories -/

/-- **Prices are never inherited** in a history: in every world it passes through, a price list belongs to a
    project that exists, and a project that was just created has none. -/
def PricesNeverInherited (tr : List Step) : Prop :=
  ∀ t ∈ tr, t.post.contract.PricesLive ∧
    ∀ id ∈ t.event.createdProject, t.post.contract.projectPricing.lookup id = none

/-- **Exactly the deletions of priced projects** break it. -/
theorem prices_never_inherited_iff {H : Host} {owner : AccountId} {operator : Option AccountId}
    {standard version : Option String} {tr : List Step} {w : World}
    (h : World.History H owner operator standard version tr w) :
    PricesNeverInherited tr ↔ ∀ t ∈ tr, ¬ t.DeletesPriced := by
  constructor
  · intro hprop t ht hdel
    obtain ⟨_, -, hf⟩ := h.fired ht
    exact not_pricesLive_of_delete hf hdel (hprop t ht).1
  · intro hkeep t ht
    obtain ⟨tr₁, tr₂, rfl⟩ := List.append_of_mem ht
    obtain ⟨hrun, hf, -⟩ := h.at_split
    have hlive : t.pre.contract.PricesLive := by
      refine Run.invariant_of (I := fun w => w.contract.PricesLive) (C := fun t => ¬ Step.DeletesPriced t) ?_
        (fun _ hf hc hi => pricesLive_step hf hi hc) hrun
        (fun u hu => hkeep u (List.mem_append_left _ hu))
      intro id hid
      exact absurd rfl hid
    exact ⟨pricesLive_step hf hlive (hkeep t ht), fun id hid => created_unpriced hf hlive hid⟩

/-- Alice's project is priced; `ending` follows. -/
def pricedRun (ending : List Event) : List Event :=
  registered ++ [callBy ownerAccount (.setProjectPricing "alice.near/app" (oneRow "run"))] ++ ending

/-- Unpriced before it is deleted, the project leaves nothing behind. -/
theorem nothing_inherited_when_unpriced : ∃ tr w,
    World.History asciiHost ownerAccount none none none tr w ∧ PricesNeverInherited tr ∧
      ∃ t ∈ tr, t.event.deletedProject = some "alice.near/app" := by
  obtain ⟨tr, w, h, hp⟩ := exists_history
    (pricedRun [callBy ownerAccount (.removeProjectPricing "alice.near/app"),
      callBy aliceAccount (.deleteProject "app")])
    (fun x => decide ((∀ t ∈ x.1, ¬ Step.DeletesPriced t) ∧
      ∃ t ∈ x.1, t.event.deletedProject = some "alice.near/app")) (by decide +kernel)
  obtain ⟨hkeep, hdeleted⟩ := of_decide_eq_true hp
  exact ⟨tr, w, h, (prices_never_inherited_iff h).mpr hkeep, hdeleted⟩

/-- Deleted while priced and created again, the new project is born with the old price list. -/
theorem price_inherited_after_delete : ∃ tr w,
    World.History asciiHost ownerAccount none none none tr w ∧ ¬ PricesNeverInherited tr ∧
      w.contract.projectPricing.lookup "alice.near/app" = some (oneRow "run") := by
  obtain ⟨tr, w, h, hp⟩ := exists_history
    (pricedRun (callBy aliceAccount (.deleteProject "app") :: registered))
    (fun x => decide ((∃ t ∈ x.1, ∃ id ∈ t.event.createdProject,
        t.post.contract.projectPricing.lookup id ≠ none) ∧
      x.2.contract.projectPricing.lookup "alice.near/app" = some (oneRow "run"))) (by decide +kernel)
  obtain ⟨⟨t, ht, id, hid, hpriced⟩, hprice⟩ := of_decide_eq_true hp
  exact ⟨tr, w, h, fun hprop => hpriced ((hprop t ht).2 id hid), hprice⟩

end Outlayer
