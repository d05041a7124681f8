import Outlayer.Contract.Steps

/-!
# `Contract.RegistrySteps` — what a call does to the project registry

`RegistryCall` lists the outcomes of the eight methods on projects, with what each one stores, drops and sends
back. Every statement about projects is derived from it.
-/

namespace Outlayer
open Text Checked Collections Runs

/-- The uuid of the `n`-th project. -/
def projectUuid (n : Nat) : String := "p" ++ formatHex 16 n

theorem projectUuid_inj {m n : Nat} (h : projectUuid m = projectUuid n) : m = n := by
  have hl := congrArg String.toList h
  simp only [projectUuid, String.toList_append] at hl
  exact formatHex_inj (String.toList_inj.mp (List.append_cancel_left hl))

/-- Under one owner a project id determines the name. -/
theorem projectIdOf_name_inj {owner : AccountId} {name name' : String}
    (h : projectIdOf owner name = projectIdOf owner name') : name = name' := by
  have hl := congrArg String.toList h
  simp only [projectIdOf, String.toList_append] at hl
  exact String.toList_inj.mp (List.append_cancel_left hl)

/-- Storing a version is never free. -/
theorem versionDeposit_pos (source : CodeSource) :
    0 < calculateVersionStorageSize source * storagePricePerByte := by
  refine Nat.mul_pos ?_ (by decide)
  simp only [calculateVersionStorageSize, versionBaseStorage]
  omega

/-- What a call that went through did to the registry. -/
inductive RegistryCall (env : Env) (c : Contract) : Call → Registry → List StorageEffect → Prop
  | create {name : String} {source : CodeSource} (project : Project) (key : String) (version : VersionInfo)
      (free : c.projects.lookup (projectIdOf env.predecessor name) = none)
      (uuid : project.uuid = projectUuid (c.nextProjectId + 1)) (active : project.activeVersion = key)
      (priced : 0 < version.storageDeposit)
      (paid : project.storageDeposit + version.storageDeposit ≤ env.attachedDeposit)
      (owner : project.owner = env.predecessor) (named : project.name = name)
      (keyed : key = getVersionKey version.source) :
      RegistryCall env c (.createProject name source)
        { c.toRegistry with
          projects := c.projects.insert (projectIdOf env.predecessor name) project
          projectVersions := c.projectVersions.insert project.uuid (AList.insert key version ∅)
          userProjectsIndex :=
            Index.insert c.userProjectsIndex env.predecessor (projectIdOf env.predecessor name)
          nextProjectId := c.nextProjectId + 1 }
        (refund env.predecessor (env.attachedDeposit - (project.storageDeposit + version.storageDeposit)))
  | addVersion {name : String} {source : CodeSource} {setActive : Bool} (project : Project)
      (versions : LookupMap String VersionInfo) (key : String) (version : VersionInfo)
      (exists_ : c.projects.lookup (projectIdOf env.predecessor name) = some project)
      (found : c.projectVersions.lookup project.uuid = some versions) (new : versions.lookup key = none)
      (priced : 0 < version.storageDeposit) (paid : version.storageDeposit ≤ env.attachedDeposit)
      (owner : project.owner = env.predecessor) (keyed : key = getVersionKey version.source) :
      RegistryCall env c (.addVersion name source setActive)
        { c.toRegistry with
          projectVersions := c.projectVersions.insert project.uuid (versions.insert key version)
          projects :=
            if setActive then
              c.projects.insert (projectIdOf env.predecessor name) { project with activeVersion := key }
            else c.projects }
        (refund env.predecessor (env.attachedDeposit - version.storageDeposit))
  | activate {name key : String} (project : Project) (versions : LookupMap String VersionInfo)
      (exists_ : c.projects.lookup (projectIdOf env.predecessor name) = some project)
      (found : c.projectVersions.lookup project.uuid = some versions) (held : versions.lookup key ≠ none)
      (owner : project.owner = env.predecessor) :
      RegistryCall env c (.setActiveVersion name key)
        { c.toRegistry with
          projects := c.projects.insert (projectIdOf env.predecessor name) { project with activeVersion := key } }
        []
  | removeVersion {name key : String} (project : Project) (versions : LookupMap String VersionInfo)
      (version : VersionInfo)
      (exists_ : c.projects.lookup (projectIdOf env.predecessor name) = some project)
      (inactive : project.activeVersion ≠ key)
      (found : c.projectVersions.lookup project.uuid = some versions)
      (held : versions.lookup key = some version) (owner : project.owner = env.predecessor) :
      RegistryCall env c (.removeVersion name key)
        { c.toRegistry with
          projectVersions := c.projectVersions.insert project.uuid (versions.erase key) }
        (refund env.predecessor version.storageDeposit)
  | delete {name : String} (project : Project) (event : SystemEvent)
      (exists_ : c.projects.lookup (projectIdOf env.predecessor name) = some project)
      (owner : project.owner = env.predecessor) :
      RegistryCall env c (.deleteProject name)
        { c.toRegistry with
          projects := c.projects.erase (projectIdOf env.predecessor name)
          projectVersions := c.projectVersions.erase project.uuid
          userProjectsIndex :=
            Index.remove c.userProjectsIndex env.predecessor (projectIdOf env.predecessor name) }
        (refund env.predecessor project.storageDeposit ++ [emitSystemEvent c.toConfig event])
  | accept {owner : AccountId} {name : String} (deposit : Nat) (event : SystemEvent)
      (new : c.projectTransferAcceptances.lookup ⟨env.predecessor, owner, name⟩ = none)
      (paid : deposit ≤ env.attachedDeposit)
      (measured : deposit = transferAcceptanceBytes ⟨env.predecessor, owner, name⟩ * storagePricePerByte) :
      RegistryCall env c (.acceptProjectTransfer owner name)
        { c.toRegistry with
          projectTransferAcceptances :=
            c.projectTransferAcceptances.insert ⟨env.predecessor, owner, name⟩ deposit }
        (refund env.predecessor (env.attachedDeposit - deposit) ++ [emitSystemEvent c.toConfig event])
  | revoke {owner : AccountId} {name : String} (deposit : Nat) (event : SystemEvent)
      (held : c.projectTransferAcceptances.lookup ⟨env.predecessor, owner, name⟩ = some deposit) :
      RegistryCall env c (.revokeProjectTransfer owner name)
        { c.toRegistry with
          projectTransferAcceptances := c.projectTransferAcceptances.erase ⟨env.predecessor, owner, name⟩ }
        (refund env.predecessor deposit ++ [emitSystemEvent c.toConfig event])
  | transfer {name : String} {newOwner : AccountId} (project : Project) (deposit : Nat) (event : SystemEvent)
      (unpriced : c.projectPricing.lookup (projectIdOf env.predecessor name) = none)
      (exists_ : c.projects.lookup (projectIdOf env.predecessor name) = some project)
      (free : (c.projects.erase (projectIdOf env.predecessor name)).lookup (projectIdOf newOwner name) = none)
      (held : c.projectTransferAcceptances.lookup ⟨newOwner, env.predecessor, name⟩ = some deposit)
      (owner : project.owner = env.predecessor) :
      RegistryCall env c (.transferProject name newOwner)
        { c.toRegistry with
          projects := (c.projects.erase (projectIdOf env.predecessor name)).insert (projectIdOf newOwner name)
            { project with owner := newOwner }
          userProjectsIndex :=
            Index.insert
              (Index.remove c.userProjectsIndex env.predecessor (projectIdOf env.predecessor name))
              newOwner (projectIdOf newOwner name)
          projectTransferAcceptances := c.projectTransferAcceptances.erase ⟨newOwner, env.predecessor, name⟩ }
        (refund newOwner deposit ++ [emitSystemEvent c.toConfig event])

section Methods
variable {env : Env} {c : Contract} {g : Registry} {ses : List StorageEffect}

theorem createProject_call {name : String} {source : CodeSource}
    (h : createProject env c name source = .ok (g, ses)) :
    RegistryCall env c (.createProject name source) g ses := by
  simp only [createProject, bind_eq_ok, require_eq_ok, add_eq_ok, pure_eq_ok] at h
  obtain ⟨_, -, _, -, _, hfree, n, ⟨-, rfl⟩, _, -, _, hpaid, h⟩ := h
  cases h
  rw [Nat.add_mul] at hpaid ⊢
  exact .create _ _ _ hfree rfl rfl (versionDeposit_pos source) hpaid rfl rfl rfl

theorem addVersion_call {name : String} {source : CodeSource} {setActive : Bool}
    (h : addVersion env c name source setActive = .ok (g, ses)) :
    RegistryCall env c (.addVersion name source setActive) g ses := by
  simp only [addVersion, bind_eq_ok, expect_eq_ok, require_eq_ok, pure_eq_ok] at h
  obtain ⟨_, -, project, hproject, _, howner, _, -, _, hpaid, versions, hversions, _, hnew, h⟩ := h
  cases h
  exact .addVersion project versions _ _ hproject hversions hnew (versionDeposit_pos source) hpaid howner rfl

theorem setActiveVersion_call {name key : String} (h : setActiveVersion env c name key = .ok (g, ses)) :
    RegistryCall env c (.setActiveVersion name key) g ses := by
  simp only [setActiveVersion, bind_eq_ok, expect_eq_ok, require_eq_ok, pure_eq_ok] at h
  obtain ⟨project, hproject, _, howner, versions, hversions, _, hheld, h⟩ := h
  cases h
  exact .activate project versions hproject hversions hheld howner

theorem removeVersion_call {name key : String} (h : removeVersion env c name key = .ok (g, ses)) :
    RegistryCall env c (.removeVersion name key) g ses := by
  simp only [removeVersion, bind_eq_ok, expect_eq_ok, require_eq_ok, pure_eq_ok] at h
  obtain ⟨project, hproject, _, howner, _, hinactive, versions, hversions, version, hversion, h⟩ := h
  cases h
  exact .removeVersion project versions version hproject hinactive hversions hversion howner

theorem deleteProject_call {name : String} (h : deleteProject env c name = .ok (g, ses)) :
    RegistryCall env c (.deleteProject name) g ses := by
  simp only [deleteProject, bind_eq_ok, expect_eq_ok, require_eq_ok, pure_eq_ok] at h
  obtain ⟨project, hproject, _, howner, h⟩ := h
  cases h
  exact .delete project _ hproject howner

theorem acceptProjectTransfer_call {owner : AccountId} {name : String}
    (h : acceptProjectTransfer env c owner name = .ok (g, ses)) :
    RegistryCall env c (.acceptProjectTransfer owner name) g ses := by
  simp only [acceptProjectTransfer, bind_eq_ok, require_eq_ok, pure_eq_ok] at h
  obtain ⟨_, -, _, -, _, -, _, hnew, _, hpaid, h⟩ := h
  cases h
  exact .accept _ _ hnew hpaid rfl

theorem revokeProjectTransfer_call {owner : AccountId} {name : String}
    (h : revokeProjectTransfer env c owner name = .ok (g, ses)) :
    RegistryCall env c (.revokeProjectTransfer owner name) g ses := by
  simp only [revokeProjectTransfer, bind_eq_ok, expect_eq_ok, pure_eq_ok] at h
  obtain ⟨deposit, hheld, h⟩ := h
  cases h
  exact .revoke deposit _ hheld

theorem transferProject_call {name : String} {newOwner : AccountId}
    (h : transferProject env c name newOwner = .ok (g, ses)) :
    RegistryCall env c (.transferProject name newOwner) g ses := by
  simp only [transferProject, bind_eq_ok, expect_eq_ok, require_eq_ok, pure_eq_ok] at h
  obtain ⟨_, hunpriced, deposit, hheld, project, hproject, _, howner, _, hfree, h⟩ := h
  cases h
  exact .transfer project deposit _ hunpriced hproject hfree hheld howner

/-- **Inversion of registry calls.** -/
theorem registry_call {H : Host} {call : Call} (h : runCall H env c call = .registry (.ok (g, ses))) :
    RegistryCall env c call g ses := by
  cases call with
  | createProject name source => exact createProject_call (PartRun.registry.inj h)
  | addVersion name source setActive => exact addVersion_call (PartRun.registry.inj h)
  | setActiveVersion name key => exact setActiveVersion_call (PartRun.registry.inj h)
  | removeVersion name key => exact removeVersion_call (PartRun.registry.inj h)
  | deleteProject name => exact deleteProject_call (PartRun.registry.inj h)
  | acceptProjectTransfer owner name => exact acceptProjectTransfer_call (PartRun.registry.inj h)
  | revokeProjectTransfer owner name => exact revokeProjectTransfer_call (PartRun.registry.inj h)
  | transferProject name newOwner => exact transferProject_call (PartRun.registry.inj h)
  | _ => cases h

end Methods

end Outlayer
