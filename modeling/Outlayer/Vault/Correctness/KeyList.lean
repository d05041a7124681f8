import Outlayer.Vault.Correctness.Unlock

/-!
# `Vault.Correctness.KeyList` — the list of registered keys

A registration is checked when it is proposed and takes effect when the DAO has answered, so any number of them can
have passed the first check before one takes effect. The callback checks the list again, as it is then, and that is
enough: no key is listed twice, the initial key is never listed, and the list never outgrows its limit.
-/

namespace Outlayer
open Checked Collections Runs

namespace Vault

/-- The list is what the two checks of a registration are there for. -/
structure KeyListKept (v : Vault) : Prop where
  nodup : v.registeredTeeKeys.Nodup
  notInitial : ∀ k, v.initialTeeKey = some k → k ∉ v.registeredTeeKeys
  bounded : v.registeredTeeKeys.length ≤ maxRegisteredTeeKeys

/-- Taking keys off the list loses them and nothing else. -/
theorem unlist_perm {ks registered registered' : List PublicKey} (h : unlist registered ks = .ok registered') :
    (ks ++ registered').Perm registered := by
  induction ks generalizing registered with
  | nil =>
      cases h
      exact List.Perm.refl _
  | cons k ks ih =>
      simp only [unlist, bind_eq_ok, require_eq_ok] at h
      obtain ⟨_, hk, h⟩ := h
      have hi : registered.idxOf k < registered.length := List.idxOf_lt_length_of_mem hk
      have hcut := swapRemoveAt_perm hi
      rw [List.getElem_idxOf hi] at hcut
      exact ((ih h).cons k).trans hcut

/-- What is left of a list that was in order is in order. -/
theorem KeyListKept.unlist {v : Vault} (hv : v.KeyListKept) {ks registered : List PublicKey}
    (h : unlist v.registeredTeeKeys ks = .ok registered) :
    KeyListKept { v with registeredTeeKeys := registered } := by
  have hperm := unlist_perm h
  refine ⟨?_, ?_, ?_⟩
  · have hnodup : (ks ++ registered).Nodup := hperm.nodup_iff.mpr hv.nodup
    exact (List.nodup_append.mp hnodup).2.1
  · intro k hk hlisted
    exact hv.notInitial k hk (hperm.mem_iff.mp (List.mem_append_right ks hlisted))
  · have hlength := hperm.length_eq
    rw [List.length_append] at hlength
    have hbound := hv.bounded
    change registered.length ≤ maxRegisteredTeeKeys
    omega

/-- **Registration.** The key is new, is not the initial one, and there is room: as the callback finds the list, not
    as the proposal found it. -/
theorem KeyListKept.register {v : Vault} (hv : v.KeyListKept) {k : PublicKey} (notInitial : v.initialTeeKey ≠ some k)
    (unlisted : k ∉ v.registeredTeeKeys) (room : v.registeredTeeKeys.length < maxRegisteredTeeKeys) :
    KeyListKept { v with registeredTeeKeys := v.registeredTeeKeys ++ [k] } := by
  refine ⟨?_, ?_, ?_⟩
  · show (v.registeredTeeKeys ++ [k]).Nodup
    rw [← List.concat_eq_append]
    exact hv.nodup.concat unlisted
  · intro k' hk' hlisted
    rcases List.mem_append.mp hlisted with hold | hnew
    · exact hv.notInitial k' hk' hold
    · obtain rfl := List.mem_singleton.mp hnew
      exact notInitial hk'
  · show (v.registeredTeeKeys ++ [k]).length ≤ maxRegisteredTeeKeys
    rw [List.length_append]
    exact room

theorem Move.keyListKept {env : Env} {current : AccountId} {start : Start} {v v' : Vault} {o : Outcome}
    (h : Move env current v start v' o) (hv : v.KeyListKept) : v'.KeyListKept := by
  cases h with
  | register k notInitial unlisted room => exact hv.register notInitial unlisted room
  | clear ks registered logs parent nodup left unlisted => exact hv.unlist unlisted
  -- the unlocking empties the list, and forgets the initial key
  | unlock cessation answer o promise => exact ⟨List.nodup_nil, nofun, Nat.zero_le _⟩
  | finalize k r v' o locked parent recovery elapsed result =>
      rcases result with ⟨rfl, -⟩ | ⟨rfl, -⟩
      · exact ⟨hv.nodup, hv.notInitial, hv.bounded⟩
      · exact hv
  | finalized k answer v' o result =>
      rcases result with ⟨rfl | rfl, -⟩ | ⟨rfl, -⟩
      · exact hv
      · exact ⟨hv.nodup, hv.notInitial, hv.bounded⟩
      · exact hv
  | _ => exact ⟨hv.nodup, hv.notInitial, hv.bounded⟩

theorem keyListKept_step {t : Step} (h : Fires Chain.next t) (hv : t.pre.vault.KeyListKept) :
    t.post.vault.KeyListKept := by
  rcases step_vault h with ⟨env, call, -, move⟩ | ⟨env, n, r, answer, -, -, move⟩ | ⟨hsame, -⟩
  · exact move.keyListKept hv
  · exact move.keyListKept hv
  · rwa [hsame]

/-- **The list of registered keys.** Whatever the order of proposals, answers of the DAO, clearings and recoveries,
    no key is listed twice, the initial key is not listed, and the list stays within its limit. -/
theorem registered_tee_keys_kept {account parent keystoreDao mpcContract : AccountId} {initial : Option PublicKey}
    {window : Option Nat} {tr : List Step} {w : Chain}
    (h : Chain.History account parent keystoreDao mpcContract initial window tr w) :
    w.vault.registeredTeeKeys.Nodup ∧ (∀ k, w.vault.initialTeeKey = some k → k ∉ w.vault.registeredTeeKeys) ∧
      w.vault.registeredTeeKeys.length ≤ maxRegisteredTeeKeys := by
  obtain ⟨v, hnew, hrun⟩ := h
  have hempty : v.registeredTeeKeys = [] := by
    simp only [new, bind_eq_ok, pure_eq_ok] at hnew
    obtain ⟨_, -, _, -, rfl⟩ := hnew
    rfl
  have hstart : v.KeyListKept := by
    refine ⟨?_, ?_, ?_⟩
    · rw [hempty]
      exact List.nodup_nil
    · intro k _ hk
      rw [hempty] at hk
      exact List.not_mem_nil hk
    · rw [hempty]
      exact Nat.zero_le _
  have hkept := hrun.invariant (I := fun w => w.vault.KeyListKept) hstart (fun _ hf => keyListKept_step hf)
  exact ⟨hkept.nodup, hkept.notInitial, hkept.bounded⟩

/-- One key proposed twice before the DAO answers: it is registered once. -/
theorem registered_once_when_proposed_twice : ∃ tr w,
    Chain.History vaultAccount parentAccount daoAccount mpcAccount (some (keyOf 0)) none tr w ∧
      w.vault.registeredTeeKeys = [keyOf 1] ∧ w.vault.registeredTeeKeys.Nodup := by
  obtain ⟨tr, w, h, hp⟩ := exists_vault_history
    [.call (envOn daoAccount 1) (.proposeTeeKey (keyOf 1)), .call (envOn parentAccount 1) (.proposeTeeKey (keyOf 1)),
     .callback (envOn vaultAccount 1) 0 (.value true), .callback (envOn vaultAccount 1) 1 (.value true)]
    (fun p => decide (p.2.vault.registeredTeeKeys = [keyOf 1])) (by decide +kernel)
  exact ⟨tr, w, h, of_decide_eq_true hp, (registered_tee_keys_kept h).1⟩

end Vault

end Outlayer
