import Outlayer.Contract.RegistrySteps

/-!
# `Contract.RegistryMaps` — the project registry is sound

A project finds its versions through a uuid. Uuids are counted up and never shared, every project has the
version it calls active, and every version was paid for. `Registry.Sound` says so, `sound_call` that every
call keeps it.
-/

namespace Outlayer
open Checked Collections Runs

/-- The registry's maps fit together. -/
structure Registry.Sound (g : Registry) : Prop where
  issued : ∀ uuid versions, g.projectVersions.lookup uuid = some versions →
    ∃ n, n ≤ g.nextProjectId ∧ uuid = projectUuid n
  unique : ∀ id id' project project', g.projects.lookup id = some project →
    g.projects.lookup id' = some project' → project.uuid = project'.uuid → id = id'
  active : ∀ id project, g.projects.lookup id = some project →
    ∃ versions, g.projectVersions.lookup project.uuid = some versions ∧
      versions.lookup project.activeVersion ≠ none
  priced : ∀ uuid versions key version, g.projectVersions.lookup uuid = some versions →
    versions.lookup key = some version → 0 < version.storageDeposit

section Sound
variable {g g' : Registry}

/-- A uuid that has not been handed out has no versions. -/
theorem Registry.Sound.fresh (hg : g.Sound) {n : Nat} (h : g.nextProjectId < n) :
    g.projectVersions.lookup (projectUuid n) = none := by
  by_contra hne
  obtain ⟨versions, hversions⟩ := Option.ne_none_iff_exists'.mp hne
  obtain ⟨m, hle, huuid⟩ := hg.issued _ _ hversions
  obtain rfl := projectUuid_inj huuid
  omega

/-- Writing the versions of a uuid that has some: every project keeps its active version. -/
theorem Registry.Sound.set_versions (hg : g.Sound) {uuid : String}
    {versions versions' : LookupMap String VersionInfo}
    (found : g.projectVersions.lookup uuid = some versions)
    (kept : ∀ id project, g.projects.lookup id = some project → project.uuid = uuid →
      versions'.lookup project.activeVersion ≠ none)
    (paid : ∀ key version, versions'.lookup key = some version → 0 < version.storageDeposit) :
    Registry.Sound { g with projectVersions := g.projectVersions.insert uuid versions' } where
  issued := by
    intro uuid' vs hvs
    dsimp only at hvs
    rw [LookupMap.lookup_insert_iff] at hvs
    split at hvs
    · next he => exact he ▸ hg.issued uuid versions found
    · exact hg.issued uuid' vs hvs
  unique := hg.unique
  active := by
    intro id project hproject
    dsimp only
    rw [LookupMap.lookup_insert_iff]
    split
    · next he => exact ⟨versions', rfl, kept id project hproject he⟩
    · exact hg.active id project hproject
  priced := by
    intro uuid' vs key version hvs hversion
    dsimp only at hvs
    rw [LookupMap.lookup_insert_iff] at hvs
    split at hvs
    · cases hvs
      exact paid key version hversion
    · exact hg.priced uuid' vs key version hvs hversion

/-- Rewriting a project under its own uuid, with an active version it has. -/
theorem Registry.Sound.set_project (hg : g.Sound) {id : String} {project : Project} (project' : Project)
    {versions : LookupMap String VersionInfo} (exists_ : g.projects.lookup id = some project)
    (uuid : project'.uuid = project.uuid) (found : g.projectVersions.lookup project.uuid = some versions)
    (held : versions.lookup project'.activeVersion ≠ none) :
    Registry.Sound { g with projects := g.projects.insert id project' } where
  issued := hg.issued
  unique := by
    intro id₁ id₂ p₁ p₂ h₁ h₂ hsame
    dsimp only at h₁ h₂
    rw [LookupMap.lookup_insert_iff] at h₁ h₂
    split at h₁
    · next he₁ =>
        cases h₁
        split at h₂
        · next he₂ => exact he₁.trans he₂.symm
        · exact he₁.trans (hg.unique id id₂ project p₂ exists_ h₂ (uuid ▸ hsame))
    · split at h₂
      · next he₂ =>
          cases h₂
          exact (hg.unique id₁ id p₁ project h₁ exists_ (uuid ▸ hsame)).trans he₂.symm
      · exact hg.unique id₁ id₂ p₁ p₂ h₁ h₂ hsame
  active := by
    intro id' p hp
    dsimp only at hp
    rw [LookupMap.lookup_insert_iff] at hp
    split at hp
    · cases hp
      exact ⟨versions, uuid ▸ found, held⟩
    · exact hg.active id' p hp
  priced := hg.priced

/-- A version more: what was active still is. -/
theorem Registry.Sound.add_version (hg : g.Sound) (key : String) {uuid : String}
    {versions : LookupMap String VersionInfo} {version : VersionInfo}
    (found : g.projectVersions.lookup uuid = some versions) (paid : 0 < version.storageDeposit) :
    Registry.Sound { g with projectVersions := g.projectVersions.insert uuid (versions.insert key version) } := by
  refine hg.set_versions found ?_ ?_
  · intro id project hproject huuid
    obtain ⟨vs, hvs, hheld⟩ := hg.active id project hproject
    rw [huuid, found] at hvs
    cases hvs
    exact LookupMap.lookup_insert_ne_none hheld
  · have hpaid : LookupMap.All (fun _ v => 0 < v.storageDeposit) versions := by
      intro k v hv
      exact hg.priced uuid versions k v found hv
    exact hpaid.insert paid

/-- A version less, that the project does not call active. -/
theorem Registry.Sound.remove_version (hg : g.Sound) {id key : String} {project : Project}
    {versions : LookupMap String VersionInfo} (exists_ : g.projects.lookup id = some project)
    (inactive : project.activeVersion ≠ key) (found : g.projectVersions.lookup project.uuid = some versions) :
    Registry.Sound { g with projectVersions := g.projectVersions.insert project.uuid (versions.erase key) } := by
  refine hg.set_versions found ?_ ?_
  · -- the uuid is this project's alone, so the active version at stake is its own
    intro id' project' hproject' huuid
    obtain rfl := hg.unique id' id project' project hproject' exists_ huuid
    rw [exists_] at hproject'
    cases hproject'
    obtain ⟨vs, hvs, hheld⟩ := hg.active id' project exists_
    rw [found] at hvs
    cases hvs
    exact LookupMap.lookup_erase_ne_none hheld inactive
  · intro k v hv
    exact hg.priced _ versions k v found (LookupMap.lookup_of_erase hv).2

/-- A new project under a new uuid, with its first version. -/
theorem Registry.Sound.add_project (hg : g.Sound) {id key : String} {project : Project} {version : VersionInfo}
    (uuid : project.uuid = projectUuid (g.nextProjectId + 1)) (current : project.activeVersion = key)
    (paid : 0 < version.storageDeposit) :
    Registry.Sound { g with
      projects := g.projects.insert id project
      projectVersions := g.projectVersions.insert project.uuid (AList.insert key version ∅)
      nextProjectId := g.nextProjectId + 1 } where
  issued := by
    intro uuid' vs hvs
    dsimp only at hvs ⊢
    rw [LookupMap.lookup_insert_iff] at hvs
    split at hvs
    · next he => exact ⟨_, Nat.le_refl _, he.trans uuid⟩
    · obtain ⟨n, hle, hn⟩ := hg.issued uuid' vs hvs
      exact ⟨n, by omega, hn⟩
  unique := by
    -- the new uuid belongs to no project there was
    have hnew : ∀ {id' project'}, g.projects.lookup id' = some project' → project'.uuid ≠ project.uuid := by
      intro id' project' h' he
      obtain ⟨vs, hvs, -⟩ := hg.active id' project' h'
      rw [he, uuid, hg.fresh (Nat.lt_succ_self _)] at hvs
      cases hvs
    intro id₁ id₂ p₁ p₂ h₁ h₂ hsame
    dsimp only at h₁ h₂
    rw [LookupMap.lookup_insert_iff] at h₁ h₂
    split at h₁
    · next he₁ =>
        cases h₁
        split at h₂
        · next he₂ => exact he₁.trans he₂.symm
        · exact absurd hsame.symm (hnew h₂)
    · split at h₂
      · cases h₂
        exact absurd hsame (hnew h₁)
      · exact hg.unique id₁ id₂ p₁ p₂ h₁ h₂ hsame
  active := by
    intro id' p hp
    dsimp only at hp ⊢
    rw [LookupMap.lookup_insert_iff] at hp ⊢
    split at hp
    · cases hp
      refine ⟨_, if_pos rfl, ?_⟩
      rw [current, AList.lookup_insert]
      nofun
    · obtain ⟨vs, hvs, hheld⟩ := hg.active id' p hp
      refine ⟨vs, ?_, hheld⟩
      rw [if_neg, hvs]
      intro he
      rw [he, uuid, hg.fresh (Nat.lt_succ_self _)] at hvs
      cases hvs
  priced := by
    intro uuid' vs key' version' hvs hversion
    dsimp only at hvs
    rw [LookupMap.lookup_insert_iff] at hvs
    split at hvs
    · cases hvs
      rw [LookupMap.lookup_insert_iff] at hversion
      split at hversion
      · cases hversion
        exact paid
      · cases hversion
    · exact hg.priced uuid' vs key' version' hvs hversion

/-- Dropping a project with the versions under its uuid. -/
theorem Registry.Sound.drop_project (hg : g.Sound) {id : String} {project : Project}
    (exists_ : g.projects.lookup id = some project) :
    Registry.Sound { g with
      projects := g.projects.erase id
      projectVersions := g.projectVersions.erase project.uuid } where
  issued := by
    intro uuid vs hvs
    dsimp only at hvs
    obtain ⟨-, hvs⟩ := LookupMap.lookup_of_erase hvs
    exact hg.issued uuid vs hvs
  unique := by
    intro id₁ id₂ p₁ p₂ h₁ h₂ hsame
    dsimp only at h₁ h₂
    obtain ⟨-, h₁⟩ := LookupMap.lookup_of_erase h₁
    obtain ⟨-, h₂⟩ := LookupMap.lookup_of_erase h₂
    exact hg.unique id₁ id₂ p₁ p₂ h₁ h₂ hsame
  active := by
    intro id' p hp
    dsimp only at hp ⊢
    obtain ⟨hne, hp⟩ := LookupMap.lookup_of_erase hp
    obtain ⟨vs, hvs, hheld⟩ := hg.active id' p hp
    refine ⟨vs, ?_, hheld⟩
    rw [LookupMap.lookup_erase_iff, if_neg, hvs]
    -- another project has another uuid, so its versions stay
    exact fun he => hne (hg.unique id' id p project hp exists_ he)
  priced := by
    intro uuid vs key version hvs hversion
    dsimp only at hvs
    obtain ⟨-, hvs⟩ := LookupMap.lookup_of_erase hvs
    exact hg.priced uuid vs key version hvs hversion

/-- Moving a project to another id. -/
theorem Registry.Sound.move_project (hg : g.Sound) {id id' : String} {project : Project} (project' : Project)
    (exists_ : g.projects.lookup id = some project) (uuid : project'.uuid = project.uuid)
    (current : project'.activeVersion = project.activeVersion) :
    Registry.Sound { g with projects := (g.projects.erase id).insert id' project' } where
  issued := hg.issued
  unique := by
    -- what is left after the move has another uuid
    have hother : ∀ {id₁ p₁}, (g.projects.erase id).lookup id₁ = some p₁ → p₁.uuid ≠ project'.uuid := by
      intro id₁ p₁ h₁ he
      obtain ⟨hne, h₁⟩ := LookupMap.lookup_of_erase h₁
      exact hne (hg.unique id₁ id p₁ project h₁ exists_ (he.trans uuid))
    intro id₁ id₂ p₁ p₂ h₁ h₂ hsame
    dsimp only at h₁ h₂
    rw [LookupMap.lookup_insert_iff] at h₁ h₂
    split at h₁
    · next he₁ =>
        cases h₁
        split at h₂
        · next he₂ => exact he₁.trans he₂.symm
        · exact absurd hsame.symm (hother h₂)
    · split at h₂
      · cases h₂
        exact absurd hsame (hother h₁)
      · obtain ⟨-, h₁⟩ := LookupMap.lookup_of_erase h₁
        obtain ⟨-, h₂⟩ := LookupMap.lookup_of_erase h₂
        exact hg.unique id₁ id₂ p₁ p₂ h₁ h₂ hsame
  active := by
    intro id₁ p₁ h₁
    dsimp only at h₁
    rw [LookupMap.lookup_insert_iff] at h₁
    split at h₁
    · cases h₁
      rw [uuid, current]
      exact hg.active id project exists_
    · obtain ⟨-, h₁⟩ := LookupMap.lookup_of_erase h₁
      exact hg.active id₁ p₁ h₁
  priced := hg.priced

/-- Soundness is about three of the maps. -/
theorem Registry.Sound.of_same (hg : g.Sound) (projects : g'.projects = g.projects)
    (versions : g'.projectVersions = g.projectVersions) (next : g'.nextProjectId = g.nextProjectId) :
    g'.Sound := by
  obtain ⟨_, _, _, _, _⟩ := g
  obtain ⟨_, _, _, _, _⟩ := g'
  obtain rfl := projects
  obtain rfl := versions
  obtain rfl := next
  exact ⟨hg.issued, hg.unique, hg.active, hg.priced⟩

end Sound

/-- **Every call keeps the registry sound.** -/
theorem sound_call {env : Env} {c : Contract} {call : Call} {g : Registry} {ses : List StorageEffect}
    (h : RegistryCall env c call g ses) (hg : c.toRegistry.Sound) : g.Sound := by
  cases h with
  | create project key version free uuid active priced paid _ _ _ =>
      exact (hg.add_project uuid active priced).of_same rfl rfl rfl
  | @addVersion name source setActive project versions key version exists_ found new priced paid _ _ =>
      have hadded := hg.add_version key found priced
      cases setActive with
      | false => exact hadded.of_same rfl rfl rfl
      | true =>
          refine (hadded.set_project { project with activeVersion := key } exists_ rfl
            (AList.lookup_insert _) ?_).of_same rfl rfl rfl
          rw [AList.lookup_insert]
          nofun
  | @activate name key project versions exists_ found held _ =>
      exact (hg.set_project { project with activeVersion := key } exists_ rfl found held).of_same rfl rfl rfl
  | @removeVersion name key project versions version exists_ inactive found held _ =>
      exact (hg.remove_version exists_ inactive found).of_same rfl rfl rfl
  | delete project event exists_ _ => exact (hg.drop_project exists_).of_same rfl rfl rfl
  | accept deposit event new paid _ => exact hg.of_same rfl rfl rfl
  | revoke deposit event held => exact hg.of_same rfl rfl rfl
  | @transfer name newOwner project deposit event unpriced exists_ free held _ =>
      exact (hg.move_project { project with owner := newOwner } exists_ rfl rfl).of_same rfl rfl rfl

theorem sound_step {H : Host} {t : Step} (hf : Fires (World.next H) t)
    (hg : t.pre.contract.toRegistry.Sound) : t.post.contract.toRegistry.Sound := by
  rcases step_parts hf with ⟨env, call, -, -, hparts⟩ | ⟨-, hsame, -⟩
  · rcases hparts.registry with ⟨ses, hrun, -⟩ | ⟨-, hsame⟩
    · exact sound_call (registry_call hrun) hg
    · rwa [hsame]
  · rwa [hsame]

/-- **The registry is sound in every world a history reaches.** -/
theorem sound_history {H : Host} {owner : AccountId} {operator : Option AccountId}
    {standard version : Option String} {tr : List Step} {w : World}
    (h : World.History H owner operator standard version tr w) : w.contract.toRegistry.Sound :=
  Run.invariant (I := fun w => w.contract.toRegistry.Sound) ⟨nofun, nofun, nofun, nofun⟩
    (fun _ hf hg => sound_step hf hg) h

end Outlayer
