import Outlayer.Contract.RegistryMaps
import Outlayer.Contract.Replay

/-!
# `Contract.Correctness.Registry` — the project registry in every state

Projects are kept by id, their versions by uuid, and each owner's ids in an index. `Registry.Sound` says that
uuids are never shared and that active versions exist; `Registry.Coherent` adds what ties the four maps
together: an id spells its project's owner and name, versions are there for the uuids in use and for no other,
a version's key is the key of its source, and the index is exact. Every call keeps it, so it holds in every
world a history reaches.
-/

namespace Outlayer
open Text Checked Collections Runs

/-- The maps of the registry tell the same story. -/
structure Registry.Coherent (g : Registry) : Prop extends g.Sound where
  ids : LookupMap.All (fun id project => id = projectIdOf project.owner project.name) g.projects
  counted : LookupMap.All
    (fun _ project => ∃ n, 1 ≤ n ∧ n ≤ g.nextProjectId ∧ project.uuid = projectUuid n) g.projects
  live : ∀ uuid, (∃ versions, g.projectVersions.lookup uuid = some versions) ↔
    ∃ id project, g.projects.lookup id = some project ∧ project.uuid = uuid
  sources : LookupMap.All
    (fun _ versions => LookupMap.All (fun key version => key = getVersionKey version.source) versions)
    g.projectVersions
  index : Index.Follows Project.owner g.userProjectsIndex g.projects

section Uuids
variable {g : Registry}

/-- Versions for every uuid in use is what soundness gives; this is the other half. -/
def Registry.NoneLeft (g : Registry) : Prop :=
  ∀ uuid versions, g.projectVersions.lookup uuid = some versions →
    ∃ id project, g.projects.lookup id = some project ∧ project.uuid = uuid

theorem Registry.Sound.live_iff (hg : g.Sound) (left : g.NoneLeft) (uuid : String) :
    (∃ versions, g.projectVersions.lookup uuid = some versions) ↔
      ∃ id project, g.projects.lookup id = some project ∧ project.uuid = uuid := by
  constructor
  · rintro ⟨versions, h⟩
    exact left uuid versions h
  · rintro ⟨id, project, hproject, rfl⟩
    obtain ⟨versions, hversions, -⟩ := hg.active id project hproject
    exact ⟨versions, hversions⟩

theorem Registry.Coherent.noneLeft (hg : g.Coherent) : g.NoneLeft := by
  intro uuid versions h
  exact (hg.live uuid).mp ⟨versions, h⟩

/-- Whoever has a uuid keeps it when a project is rewritten under its own id. -/
theorem has_uuid_rewrite {projects : LookupMap String Project} {id : String} {project project' : Project}
    {uuid : String} (old : projects.lookup id = some project) (same : project'.uuid = project.uuid)
    (h : ∃ id₁ p₁, projects.lookup id₁ = some p₁ ∧ p₁.uuid = uuid) :
    ∃ id₁ p₁, (projects.insert id project').lookup id₁ = some p₁ ∧ p₁.uuid = uuid := by
  obtain ⟨id₁, p₁, h₁, huuid⟩ := h
  by_cases hid : id₁ = id
  · subst hid
    obtain rfl : project = p₁ := Option.some.inj (old.symm.trans h₁)
    exact ⟨id₁, project', AList.lookup_insert _, same.trans huuid⟩
  · refine ⟨id₁, p₁, ?_, huuid⟩
    rw [LookupMap.lookup_insert_iff, if_neg hid]
    exact h₁

/-- Taking a project out leaves the others with their uuids. -/
theorem has_uuid_erase {projects : LookupMap String Project} {id : String} {project : Project}
    {uuid : String} (old : projects.lookup id = some project) (other : uuid ≠ project.uuid)
    (h : ∃ id₁ p₁, projects.lookup id₁ = some p₁ ∧ p₁.uuid = uuid) :
    ∃ id₁ p₁, (projects.erase id).lookup id₁ = some p₁ ∧ p₁.uuid = uuid := by
  obtain ⟨id₁, p₁, h₁, huuid⟩ := h
  refine ⟨id₁, p₁, ?_, huuid⟩
  rw [LookupMap.lookup_erase_iff, if_neg, h₁]
  rintro rfl
  obtain rfl : project = p₁ := Option.some.inj (old.symm.trans h₁)
  exact other huuid.symm

/-- A project put under an id nobody has takes its uuid along. -/
theorem has_uuid_add {projects : LookupMap String Project} {id : String} {project : Project} {uuid : String}
    (new : projects.lookup id = none) (h : ∃ id₁ p₁, projects.lookup id₁ = some p₁ ∧ p₁.uuid = uuid) :
    ∃ id₁ p₁, (projects.insert id project).lookup id₁ = some p₁ ∧ p₁.uuid = uuid := by
  obtain ⟨id₁, p₁, h₁, huuid⟩ := h
  refine ⟨id₁, p₁, ?_, huuid⟩
  rw [LookupMap.lookup_insert_iff, if_neg, h₁]
  rintro rfl
  rw [new] at h₁
  cases h₁

end Uuids

/-! ## Calls -/

section Calls
variable {env : Env} {c : Contract} {g : Registry} {ses : List StorageEffect}

/-- A project rewritten under its own id, owner, name and uuid. -/
theorem Registry.Coherent.set_project {g : Registry} (hg : g.Coherent) {id : String} {project : Project}
    (project' : Project) {versions : LookupMap String VersionInfo}
    (exists_ : g.projects.lookup id = some project) (owner : project'.owner = project.owner)
    (name : project'.name = project.name) (uuid : project'.uuid = project.uuid)
    (found : g.projectVersions.lookup project.uuid = some versions)
    (held : versions.lookup project'.activeVersion ≠ none) :
    Registry.Coherent { g with projects := g.projects.insert id project' } where
  toSound := hg.toSound.set_project project' exists_ uuid found held
  ids := by
    apply hg.ids.insert
    rw [owner, name]
    exact hg.ids id project exists_
  counted := by
    apply hg.counted.insert
    rw [uuid]
    exact hg.counted id project exists_
  live := by
    apply (hg.toSound.set_project project' exists_ uuid found held).live_iff
    intro uuid' vs hvs
    exact has_uuid_rewrite exists_ uuid (hg.noneLeft uuid' vs hvs)
  sources := hg.sources
  index := hg.index.rewrite exists_ owner

/-- The versions of a live uuid rewritten, every key the key of its source. -/
theorem Registry.Coherent.set_versions {g : Registry} (hg : g.Coherent) {uuid : String}
    {versions versions' : LookupMap String VersionInfo}
    (found : g.projectVersions.lookup uuid = some versions)
    (sound : Registry.Sound { g with projectVersions := g.projectVersions.insert uuid versions' })
    (keyed : LookupMap.All (fun key version => key = getVersionKey version.source) versions') :
    Registry.Coherent { g with projectVersions := g.projectVersions.insert uuid versions' } where
  toSound := sound
  ids := hg.ids
  counted := hg.counted
  live := by
    apply sound.live_iff
    intro uuid' vs hvs
    change (g.projectVersions.insert uuid versions').lookup uuid' = some vs at hvs
    rw [LookupMap.lookup_insert_iff] at hvs
    split at hvs
    · next he => exact he ▸ hg.noneLeft uuid versions found
    · exact hg.noneLeft uuid' vs hvs
  sources := hg.sources.insert keyed
  index := hg.index

/-- Adding a version keeps every active version, and the new one is priced. -/
theorem Registry.Coherent.add_version {g : Registry} (hg : g.Coherent) {uuid key : String}
    {versions : LookupMap String VersionInfo} {version : VersionInfo}
    (found : g.projectVersions.lookup uuid = some versions) (priced : 0 < version.storageDeposit)
    (keyed : key = getVersionKey version.source) :
    Registry.Coherent
      { g with projectVersions := g.projectVersions.insert uuid (versions.insert key version) } :=
  hg.set_versions found (hg.toSound.add_version key found priced) ((hg.sources uuid versions found).insert keyed)

/-- Removing a version the project does not call active. -/
theorem Registry.Coherent.remove_version {g : Registry} (hg : g.Coherent) {id key : String} {project : Project}
    {versions : LookupMap String VersionInfo} (exists_ : g.projects.lookup id = some project)
    (inactive : project.activeVersion ≠ key)
    (found : g.projectVersions.lookup project.uuid = some versions) :
    Registry.Coherent
      { g with projectVersions := g.projectVersions.insert project.uuid (versions.erase key) } :=
  hg.set_versions found (hg.toSound.remove_version exists_ inactive found)
    ((hg.sources _ versions found).erase key)

/-- **Every call keeps the registry coherent.** -/
theorem coherent_call {call : Call} (h : RegistryCall env c call g ses) (hg : c.toRegistry.Coherent) :
    g.Coherent := by
  have hsound := sound_call h hg.toSound
  cases h with
  | create project key version free uuid active priced paid owner named keyed =>
      refine { toSound := hsound, ids := ?_, counted := ?_, live := ?_, sources := ?_, index := ?_ }
      · apply hg.ids.insert
        rw [owner, named]
      · have hmore : LookupMap.All (fun _ project => ∃ n, 1 ≤ n ∧ n ≤ c.nextProjectId + 1 ∧
            project.uuid = projectUuid n) c.projects := by
          refine hg.counted.mono ?_
          rintro _ p ⟨n, hpos, hle, hn⟩
          exact ⟨n, hpos, by omega, hn⟩
        exact hmore.insert ⟨c.nextProjectId + 1, by omega, Nat.le_refl _, uuid⟩
      · apply hsound.live_iff
        intro uuid' vs hvs
        change (c.projectVersions.insert _ _).lookup uuid' = some vs at hvs
        rw [LookupMap.lookup_insert_iff] at hvs
        split at hvs
        · next he => exact ⟨_, project, AList.lookup_insert _, he.symm⟩
        · exact has_uuid_add free (hg.noneLeft uuid' vs hvs)
      · exact hg.sources.insert (LookupMap.all_empty.insert keyed)
      · exact hg.index.add free owner
  | @addVersion name source setActive project versions key version exists_ found new priced paid owner keyed =>
      have hadded := hg.add_version found priced keyed
      cases setActive with
      | false => exact hadded
      | true =>
          refine hadded.set_project { project with activeVersion := key } exists_ rfl rfl rfl
            (AList.lookup_insert _) ?_
          rw [AList.lookup_insert]
          exact Option.some_ne_none version
  | @activate name key project versions exists_ found held owner =>
      exact hg.set_project { project with activeVersion := key } exists_ rfl rfl rfl found held
  | removeVersion project versions version exists_ inactive found held owner =>
      exact hg.remove_version exists_ inactive found
  | delete project event exists_ owner =>
      refine { toSound := hsound, ids := hg.ids.erase _, counted := hg.counted.erase _, live := ?_,
               sources := hg.sources.erase _, index := ?_ }
      · apply hsound.live_iff
        intro uuid' vs hvs
        obtain ⟨hne, hvs⟩ := LookupMap.lookup_of_erase hvs
        exact has_uuid_erase exists_ hne (hg.noneLeft uuid' vs hvs)
      · exact hg.index.drop exists_ owner
  | accept deposit event new paid _ =>
      exact { hg with }
  | revoke deposit event held =>
      exact { hg with }
  | @transfer name newOwner project deposit event unpriced exists_ free held owner =>
      have hname : name = project.name := by
        apply projectIdOf_name_inj
        exact (hg.ids _ project exists_).trans (by rw [owner])
      refine { toSound := hsound, ids := ?_, counted := ?_, live := ?_, sources := hg.sources,
               index := (hg.index.drop exists_ owner).add free rfl }
      · apply (hg.ids.erase _).insert
        rw [← hname]
      · exact (hg.counted.erase _).insert (hg.counted _ project exists_)
      · apply hsound.live_iff
        intro uuid' vs hvs
        by_cases huuid : uuid' = project.uuid
        · exact ⟨_, _, AList.lookup_insert _, huuid.symm⟩
        · exact has_uuid_add free (has_uuid_erase exists_ huuid (hg.noneLeft uuid' vs hvs))

end Calls

theorem coherent_step {H : Host} {t : Step} (hf : Fires (World.next H) t)
    (hg : t.pre.contract.toRegistry.Coherent) : t.post.contract.toRegistry.Coherent := by
  rcases step_parts hf with ⟨env, call, -, -, hparts⟩ | ⟨-, hsame, -⟩
  · rcases hparts.registry with ⟨ses, hrun, -⟩ | ⟨-, hsame⟩
    · exact coherent_call (registry_call hrun) hg
    · rwa [hsame]
  · rwa [hsame]

/-- A registry with nothing in it. -/
theorem coherent_new (owner : AccountId) (operator : Option AccountId) (standard version : Option String) :
    (Contract.new owner operator standard version).toRegistry.Coherent where
  issued := nofun
  unique := nofun
  active := nofun
  priced := nofun
  ids := nofun
  counted := nofun
  live := by
    intro uuid
    constructor
    · rintro ⟨_, h⟩
      cases h
    · rintro ⟨_, _, h, -⟩
      cases h
  sources := nofun
  index := Index.follows_empty

/-- **The registry is coherent in every world a history reaches**: ids spell owner and name, uuids are distinct
    and counted, versions and index fit the projects. -/
theorem registry_coherent {H : Host} {owner : AccountId} {operator : Option AccountId}
    {standard version : Option String} {tr : List Step} {w : World}
    (h : World.History H owner operator standard version tr w) : w.contract.toRegistry.Coherent :=
  Run.invariant (I := fun w => w.contract.toRegistry.Coherent) (coherent_new owner operator standard version)
    (fun _ hf hg => coherent_step hf hg) h

/-- A history with every call on projects: a name used again after deletion, a transfer to another account and
    one to oneself. -/
theorem registry_coherent_after_moves :
    ∃ tr w, World.History asciiHost ownerAccount none none none tr w ∧ w.contract.projects.keys.length = 2 ∧
      w.contract.toRegistry.Coherent := by
  obtain ⟨tr, w, h, hp⟩ := exists_history
    [callBy aliceAccount (.createProject "app" (.gitHub "github.com/alice/app" "v1" none)) (10 ^ 24),
     callBy aliceAccount (.addVersion "app" (.gitHub "github.com/alice/app" "v2" none) true) (10 ^ 24),
     callBy aliceAccount (.setActiveVersion "app" "github.com/alice/app@v1"),
     callBy aliceAccount (.removeVersion "app" "github.com/alice/app@v2"),
     callBy aliceAccount (.deleteProject "app"),
     callBy aliceAccount (.createProject "app" (.gitHub "github.com/alice/app" "v1" none)) (10 ^ 24),
     callBy bobAccount (.acceptProjectTransfer aliceAccount "app") (10 ^ 24),
     callBy aliceAccount (.transferProject "app" bobAccount),
     callBy aliceAccount (.acceptProjectTransfer aliceAccount "app") (10 ^ 24),
     callBy aliceAccount (.createProject "app" (.gitHub "github.com/alice/app" "v3" none)) (10 ^ 24),
     callBy aliceAccount (.transferProject "app" aliceAccount)]
    (fun r => r.2.contract.projects.keys.length == 2) (by decide +kernel)
  exact ⟨tr, w, h, by simpa using hp, registry_coherent h⟩

end Outlayer
