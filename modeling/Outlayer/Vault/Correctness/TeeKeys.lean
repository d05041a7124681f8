import Outlayer.Vault.Correctness.Unlock

/-!
# `Vault.Correctness.TeeKeys` — the workers' keys on the account

The contract keeps a list of the workers' keys, and the swap deletes the keys of that list. So the list has to
cover what is on the account, and once the account is handed over nothing may come after. Two methods leave a gap:
a registration that was under way when the swap was dispatched is neither stopped nor undone by it, and a clearing
takes keys off the list before they are off the account. Without these two orders no worker's key is on the account
of an unlocked vault, and every one on that of a locked vault is listed.
-/

namespace Outlayer
open Checked Collections Runs

namespace Vault

/-! ## Batches -/

section Batches
variable {origin : KeyOrigin} {keys keys' : Keys}

theorem applyBatch_cons {a : KeyAction} {as : List KeyAction} :
    applyBatch origin keys (a :: as) = some keys' ↔
      ∃ mid, a.apply origin keys = some mid ∧ applyBatch origin mid as = some keys' := by
  rw [applyBatch, Option.bind_eq_some_iff]

theorem apply_delete {k : PublicKey} (h : (KeyAction.deleteKey k).apply origin keys = some keys') :
    k ∈ keys ∧ keys' = keys.erase k := by
  change (if k ∈ keys then some (keys.erase k) else none) = some keys' at h
  split at h
  · next hk => exact ⟨hk, (Option.some.inj h).symm⟩
  · cases h

theorem apply_add {k : PublicKey} {p : Permission} (h : (KeyAction.addKey k p).apply origin keys = some keys') :
    k ∉ keys ∧ keys' = keys.insert k ⟨p, origin⟩ := by
  change (if k ∈ keys then none else some (keys.insert k ⟨p, origin⟩)) = some keys' at h
  split at h
  · cases h
  · next hk => exact ⟨hk, (Option.some.inj h).symm⟩

/-- What a batch adds, it adds in the name of its origin; what else is there was there before. -/
theorem applyBatch_lookup {as : List KeyAction} (h : applyBatch origin keys as = some keys') {k : PublicKey}
    {a : AccessKey} (hk : keys'.lookup k = some a) : keys.lookup k = some a ∨ a.origin = origin := by
  induction as generalizing keys with
  | nil =>
      cases h
      exact Or.inl hk
  | cons b bs ih =>
      obtain ⟨mid, hb, hbs⟩ := applyBatch_cons.mp h
      rcases ih hbs with hmid | horigin
      · cases b with
        | addKey k' p =>
            obtain ⟨-, rfl⟩ := apply_add hb
            rw [LookupMap.lookup_insert_iff] at hmid
            split at hmid
            · cases hmid
              exact Or.inr rfl
            · exact Or.inl hmid
        | deleteKey k' =>
            obtain ⟨-, rfl⟩ := apply_delete hb
            exact Or.inl (LookupMap.lookup_of_erase hmid).2
      · exact Or.inr horigin

/-- The keys that batches of deletions name are there before and not after. -/
theorem applyBatch_deletes {ks : List PublicKey} {as : List KeyAction}
    (h : applyBatch origin keys (ks.map .deleteKey ++ as) = some keys') :
    ∃ mid, applyBatch origin mid as = some keys' ∧ (∀ k ∈ ks, k ∈ keys) ∧
      ∀ k a, mid.lookup k = some a → k ∉ ks ∧ keys.lookup k = some a := by
  induction ks generalizing keys with
  | nil => exact ⟨keys, h, nofun, fun k a hk => ⟨List.not_mem_nil, hk⟩⟩
  | cons k ks ih =>
      obtain ⟨next, hdelete, hrest⟩ := applyBatch_cons.mp h
      obtain ⟨hk, rfl⟩ := apply_delete hdelete
      obtain ⟨mid, hmid, hin, hout⟩ := ih hrest
      refine ⟨mid, hmid, ?_, ?_⟩
      · intro k' hk'
        rcases List.mem_cons.mp hk' with rfl | hk'
        · exact hk
        · obtain ⟨a, ha⟩ := LookupMap.mem_iff_lookup.mp (hin k' hk')
          exact LookupMap.mem_iff_lookup.mpr ⟨a, (LookupMap.lookup_of_erase ha).2⟩
      · intro k' a ha
        obtain ⟨hnot, hlookup⟩ := hout k' a ha
        obtain ⟨hne, hlookup⟩ := LookupMap.lookup_of_erase hlookup
        refine ⟨?_, hlookup⟩
        intro hmem
        rcases List.mem_cons.mp hmem with rfl | hmem
        · exact hne rfl
        · exact hnot hmem

end Batches

/-! ## Lists -/

theorem mem_unseen {k : PublicKey} {seen ks : List PublicKey} : k ∈ unseen seen ks ↔ k ∈ ks ∧ k ∉ seen := by
  induction ks generalizing seen with
  | nil => simp [unseen]
  | cons x xs ih =>
      unfold unseen
      by_cases hx : x ∈ seen
      · rw [if_pos hx, ih, List.mem_cons]
        constructor
        · rintro ⟨hk, hseen⟩
          exact ⟨Or.inr hk, hseen⟩
        · rintro ⟨rfl | hk, hseen⟩
          · exact absurd hx hseen
          · exact ⟨hk, hseen⟩
      · rw [if_neg hx, List.mem_cons, ih, List.mem_cons, List.mem_cons]
        by_cases hkx : k = x
        · subst hkx
          exact iff_of_true (Or.inl rfl) ⟨Or.inl rfl, hx⟩
        · simp [hkx]

/-- A key that is not named stays on the list. -/
theorem mem_unlist {k : PublicKey} {ks registered registered' : List PublicKey}
    (h : unlist registered ks = .ok registered') (hk : k ∈ registered) (hnot : k ∉ ks) : k ∈ registered' := by
  induction ks generalizing registered with
  | nil =>
      cases h
      exact hk
  | cons x xs ih =>
      simp only [unlist, bind_eq_ok, require_eq_ok] at h
      obtain ⟨_, hx, h⟩ := h
      obtain ⟨hne, hnot⟩ := List.ne_and_not_mem_of_not_mem_cons hnot
      refine ih h ?_ hnot
      have hi : registered.idxOf x < registered.length := List.idxOf_lt_length_of_mem hx
      rcases List.mem_cons.mp ((swapRemoveAt_perm hi).mem_iff.mpr hk) with heq | hin
      · rw [List.getElem_idxOf hi] at heq
        exact absurd heq hne
      · exact hin

/-! ## The property, and the orders it needs -/

/-- The contract knows the key for a worker's. -/
def Lists (v : Vault) (k : PublicKey) : Prop := v.initialTeeKey = some k ∨ k ∈ v.registeredTeeKeys

/-- No worker's key is on the account of an unlocked vault, and every one on that of a locked vault is known. -/
structure Chain.TeeKeysKept (w : Chain) : Prop where
  unlocked : w.vault.unlocked = true → ∀ k a, w.keys.lookup k = some a → a.origin.isTee = false
  locked : w.vault.unlocked = false → ∀ k a, w.keys.lookup k = some a → a.origin.isTee = true → w.vault.Lists k

/-- The promise whose batch the step applied. -/
def Step.applied (t : Step) : Option Promise :=
  match t.event with
  | .batch n false =>
      match t.pre.inFlight.lookup n with
      | some (.promise p) =>
          (p.batch t.pre.account).bind fun b =>
            if (applyBatch b.1 t.pre.keys b.2).isSome then some p else none
      | _ => none
  | _ => none

/-- The step handed the account over: it applied the batch of a swap. -/
def Step.HandsOver (t : Step) : Prop := ∃ deleted k cessation, t.applied = some (.swap deleted k cessation)

/-- No worker's key `k` is on the account, and none is on its way there. -/
structure Chain.Gone (w : Chain) (k : PublicKey) : Prop where
  off : ∀ a, w.keys.lookup k = some a → a.origin.isTee = false
  quiet : ∀ n, w.inFlight.lookup n ≠ some (.promise (.addTeeKey k))

/-- The orders in which the list covers the account: a swap that is applied deletes every key listed by then, no
    key is registered after it, and only keys that are gone are taken off the list. -/
structure Orderly (tr : List Step) : Prop where
  covers : ∀ t ∈ tr, ∀ deleted k cessation, t.applied = some (.swap deleted k cessation) →
    ∀ listed ∈ t.pre.vault.registeredTeeKeys, listed ∈ deleted
  closed : tr.Pairwise fun t u => t.HandsOver → ∀ k, u.out.promise ≠ some (.addTeeKey k)
  gone : ∀ t ∈ tr, ∀ ks, t.out.promise = some (.deleteKeys ks) → ∀ k ∈ ks, t.pre.Gone k

/-! ## Before the account is handed over -/

/-- Every key on the account is a worker's and known; a key on its way there is listed, not there yet and on its
    way once; a swap on its way deletes the initial key. Nothing can unlock the vault. -/
structure Chain.Guarded (w : Chain) : Prop where
  locked : w.vault.unlocked = false
  unreported : ∀ n cessation, w.inFlight.lookup n ≠ some (.swapped cessation true)
  closed : ∀ n k p, w.inFlight.lookup n ≠ some (.promise (.addKey k p))
  known : ∀ k a, w.keys.lookup k = some a →
    a.origin.isTee = true ∧ a.permission = teePermission w.account ∧ w.vault.Lists k
  adding : ∀ n k, w.inFlight.lookup n = some (.promise (.addTeeKey k)) → k ∈ w.vault.registeredTeeKeys ∧ k ∉ w.keys
  once : ∀ n m k, w.inFlight.lookup n = some (.promise (.addTeeKey k)) →
    w.inFlight.lookup m = some (.promise (.addTeeKey k)) → n = m
  swapping : ∀ n deleted k cessation, w.inFlight.lookup n = some (.promise (.swap deleted k cessation)) →
    ∀ i, w.vault.initialTeeKey = some i → i ∈ deleted

section Guarded
variable {w : Chain} {env : Env} {account : AccountId} {start : Start} {v : Vault} {o : Outcome}

theorem guarded_spend (hw : w.Guarded) (n : Nat) : (w.spend n).Guarded where
  locked := hw.locked
  unreported m cessation h := hw.unreported m cessation (spend_inFlight h).2
  closed m k p h := hw.closed m k p (spend_inFlight h).2
  known := hw.known
  adding m k h := hw.adding m k (spend_inFlight h).2
  once m m' k h h' := hw.once m m' k (spend_inFlight h).2 (spend_inFlight h').2
  swapping m deleted k cessation h := hw.swapping m deleted k cessation (spend_inFlight h).2

/-- What an execution may promise without breaking the guard. -/
structure Safe (w : Chain) (v : Vault) (p : Promise) : Prop where
  adding : ∀ k, p = .addTeeKey k →
    k ∈ v.registeredTeeKeys ∧ k ∉ w.keys ∧ ∀ n, w.inFlight.lookup n ≠ some (.promise (.addTeeKey k))
  closed : ∀ k permission, p ≠ .addKey k permission
  swapping : ∀ deleted k cessation, p = .swap deleted k cessation → ∀ i, v.initialTeeKey = some i → i ∈ deleted

/-- The guard after an execution, from what it did to the lists and what it promised. -/
theorem guarded_after_of (hw : w.Guarded) (hlocked : v.unlocked = false)
    (hinitial : v.initialTeeKey = w.vault.initialTeeKey)
    (hknown : ∀ k, k ∈ w.keys → w.vault.Lists k → v.Lists k)
    (hadding : ∀ n k, w.inFlight.lookup n = some (.promise (.addTeeKey k)) → k ∈ v.registeredTeeKeys)
    (hsafe : ∀ p, o.promise = some p → Safe w v p) : (w.after v o).Guarded := by
  constructor
  case locked => rwa [after_vault]
  case unreported =>
    intro n cessation h
    rcases after_inFlight h with h | ⟨p, -, -, hp⟩
    · exact hw.unreported n cessation h
    · cases hp
  case closed =>
    intro n k permission h
    rcases after_inFlight h with h | ⟨p, ho, -, hp⟩
    · exact hw.closed n k permission h
    · cases hp
      exact (hsafe _ ho).closed k permission rfl
  case known =>
    intro k a h
    rw [after_keys] at h
    rw [after_account, after_vault]
    obtain ⟨htee, hpermission, hlists⟩ := hw.known k a h
    exact ⟨htee, hpermission, hknown k (LookupMap.mem_iff_lookup.mpr ⟨a, h⟩) hlists⟩
  case adding =>
    intro n k h
    rw [after_keys, after_vault]
    rcases after_inFlight h with h | ⟨p, ho, -, hp⟩
    -- what was on its way stays off the account: an execution moves no keys
    · exact ⟨hadding n k h, (hw.adding n k h).2⟩
    · cases hp
      obtain ⟨hlisted, hoff, -⟩ := (hsafe _ ho).adding k rfl
      exact ⟨hlisted, hoff⟩
  case once =>
    intro n m k hn hm
    rcases after_inFlight hn with hn | ⟨p, ho, hat, hp⟩
    · rcases after_inFlight hm with hm | ⟨p', ho', -, hp'⟩
      · exact hw.once n m k hn hm
      · cases hp'
        exact absurd hn (((hsafe _ ho').adding k rfl).2.2 n)
    · rcases after_inFlight hm with hm | ⟨p', ho', hat', -⟩
      · cases hp
        exact absurd hm (((hsafe _ ho).adding k rfl).2.2 m)
      · exact hat.trans hat'.symm
  case swapping =>
    intro n deleted k cessation h i hi
    rw [after_vault] at hi
    rcases after_inFlight h with h | ⟨p, ho, -, hp⟩
    · exact hw.swapping n deleted k cessation h i (hinitial ▸ hi)
    · cases hp
      exact (hsafe _ ho).swapping deleted k cessation rfl i hi

/-- An execution that leaves the lists alone. -/
theorem guarded_after_same (hw : w.Guarded) (hlocked : v.unlocked = w.vault.unlocked)
    (hinitial : v.initialTeeKey = w.vault.initialTeeKey)
    (hregistered : v.registeredTeeKeys = w.vault.registeredTeeKeys)
    (hsafe : ∀ p, o.promise = some p → Safe w v p) : (w.after v o).Guarded := by
  refine guarded_after_of hw (hlocked.trans hw.locked) hinitial ?_ ?_ hsafe
  · intro k _ hlists
    unfold Lists at hlists ⊢
    rwa [hinitial, hregistered]
  · intro n k h
    rw [hregistered]
    exact (hw.adding n k h).1

theorem safe_dispatchSwap (k : PublicKey) (cessation : Bool) : Safe w v (v.dispatchSwap k cessation) where
  adding := nofun
  closed := nofun
  swapping := by
    intro deleted k' c' h i hi
    cases h
    rw [mem_unseen, hi]
    exact ⟨List.mem_append_left _ (List.mem_singleton_self i), List.not_mem_nil⟩

theorem safe_none (h : o.promise = none) : ∀ p, o.promise = some p → Safe w v p := by
  intro p hp
  rw [h] at hp
  cases hp

/-- A registration puts the key on the list before it asks for it on the account. -/
theorem guarded_register {k : PublicKey} {logs : List String} (hw : w.Guarded)
    (hinitial : w.vault.initialTeeKey ≠ some k) (hlisted : k ∉ w.vault.registeredTeeKeys) :
    (w.after { w.vault with registeredTeeKeys := w.vault.registeredTeeKeys ++ [k] }
      { logs, promise := some (.addTeeKey k) }).Guarded := by
  refine guarded_after_of hw hw.locked rfl ?_ ?_ ?_
  · rintro k' - (hlists | hlists)
    · exact Or.inl hlists
    · exact Or.inr (List.mem_append_left _ hlists)
  · intro n k' h
    exact List.mem_append_left _ (hw.adding n k' h).1
  · intro p hp
    cases hp
    refine ⟨?_, nofun, nofun⟩
    intro k' heq
    cases heq
    refine ⟨List.mem_append_right _ (List.mem_singleton_self k), ?_, ?_⟩
    · intro hmem
      obtain ⟨a, ha⟩ := LookupMap.mem_iff_lookup.mp hmem
      rcases (hw.known k a ha).2.2 with hlists | hlists
      · exact hinitial hlists
      · exact hlisted hlists
    -- nor can it be on its way, since what is on its way is listed
    · intro n h
      exact hlisted (hw.adding n k h).1

/-- A clearing keeps on the list what is on the account or on its way there. -/
theorem guarded_clear {ks registered : List PublicKey} {logs : List String} (hw : w.Guarded)
    (hunlist : unlist w.vault.registeredTeeKeys ks = .ok registered)
    (hgone : ∀ k ∈ ks, w.Gone k) :
    (w.after { w.vault with registeredTeeKeys := registered }
      { logs, promise := some (.deleteKeys ks) }).Guarded := by
  refine guarded_after_of hw hw.locked rfl ?_ ?_ ?_
  · rintro k hk (hlists | hlists)
    · exact Or.inl hlists
    · refine Or.inr (mem_unlist hunlist hlists ?_)
      intro hmem
      obtain ⟨a, ha⟩ := LookupMap.mem_iff_lookup.mp hk
      have hoff := (hgone k hmem).off a ha
      rw [(hw.known k a ha).1] at hoff
      cases hoff
  · intro n k h
    refine mem_unlist hunlist (hw.adding n k h).1 ?_
    intro hmem
    exact (hgone k hmem).quiet n h
  · intro p hp
    cases hp
    exact ⟨nofun, nofun, nofun⟩

/-- An execution keeps the guard, unless it is the callback that unlocks. -/
theorem guarded_move (hw : w.Guarded) (move : Move env account w.vault start v o)
    (hstart : ∀ cessation answer, start ≠ .callback (.swapped cessation true) answer)
    (hgone : ∀ ks, o.promise = some (.deleteKeys ks) → ∀ k ∈ ks, w.Gone k) : (w.after v o).Guarded := by
  have hplain : ∀ {p : Promise}, (∀ k, p ≠ .addTeeKey k) → (∀ k permission, p ≠ .addKey k permission) →
      (∀ deleted k cessation, p ≠ .swap deleted k cessation) → ∀ q, some p = some q → Safe w v q := by
    intro p hadd hkey hswap q hq
    cases hq
    exact ⟨fun k h => absurd h (hadd k), hkey, fun deleted k c h => absurd h (hswap deleted k c)⟩
  cases move with
  | propose k locked => exact guarded_after_same hw rfl rfl rfl (hplain nofun nofun nofun)
  | register k notInitial unlisted room => exact guarded_register hw notInitial unlisted
  | requestMaster request args locked => exact guarded_after_same hw rfl rfl rfl (hplain nofun nofun nofun)
  | clear ks registered logs parent nodup left unlisted => exact guarded_clear hw unlisted (hgone ks rfl)
  | askToInitiate locked none_ => exact guarded_after_same hw rfl rfl rfl (hplain nofun nofun nofun)
  | initiate none_ finalizeBefore => exact guarded_after_same hw rfl rfl rfl (safe_none rfl)
  | exit locked parent none_ finalizeBefore => exact guarded_after_same hw rfl rfl rfl (safe_none rfl)
  | setWindow secs logs parent low high => exact guarded_after_same hw rfl rfl rfl (safe_none rfl)
  | finalize k r v o locked parent recovery elapsed result =>
      rcases result with ⟨rfl, hp⟩ | ⟨rfl, hp | hp⟩
      · exact guarded_after_same hw rfl rfl rfl (safe_none hp)
      · refine guarded_after_same hw rfl rfl rfl ?_
        rw [hp]
        exact hplain nofun nofun nofun
      · refine guarded_after_same hw rfl rfl rfl ?_
        intro p hp'
        rw [hp] at hp'
        cases hp'
        exact safe_dispatchSwap k false
  | finalized k answer v o result =>
      rcases result with ⟨rfl | rfl, hp⟩ | ⟨rfl, hp⟩
      · exact guarded_after_same hw rfl rfl rfl (safe_none hp)
      · exact guarded_after_same hw rfl rfl rfl (safe_none hp)
      · refine guarded_after_same hw rfl rfl rfl ?_
        intro p hp'
        rw [hp] at hp'
        cases hp'
        exact safe_dispatchSwap k true
  -- no swap has reported a success, so this callback cannot come
  | unlock cessation answer o promise => exact absurd rfl (hstart cessation answer)
  | swapFailed cessation answer o promise => exact guarded_after_same hw rfl rfl rfl (safe_none promise)
  | addKey k fullAccess allowance permission unlocked parent =>
      rw [hw.locked] at unlocked
      cases unlocked

theorem guarded_refused (hw : w.Guarded) (p : Promise) : (w.report p false).Guarded where
  locked := by
    rw [report_vault]
    exact hw.locked
  unreported n cessation h := by
    rcases report_inFlight h with h | ⟨_, _, _, -, hr⟩
    · exact hw.unreported n cessation h
    · cases hr
  closed n k permission h := by
    rcases report_inFlight h with h | ⟨_, _, _, -, hr⟩
    · exact hw.closed n k permission h
    · cases hr
  known := by
    rw [report_keys, report_account, report_vault]
    exact hw.known
  adding n k h := by
    rw [report_vault, report_keys]
    rcases report_inFlight h with h | ⟨_, _, _, -, hr⟩
    · exact hw.adding n k h
    · cases hr
  once n m k hn hm := by
    rcases report_inFlight hn with hn | ⟨_, _, _, -, hr⟩
    · rcases report_inFlight hm with hm | ⟨_, _, _, -, hr⟩
      · exact hw.once n m k hn hm
      · cases hr
    · cases hr
  swapping n deleted k cessation h := by
    rw [report_vault]
    rcases report_inFlight h with h | ⟨_, _, _, -, hr⟩
    · exact hw.swapping n deleted k cessation h
    · cases hr

/-- Fewer keys are guarded too. -/
theorem guarded_deleted {keys : Keys} (hw : w.Guarded)
    (hfewer : ∀ k a, keys.lookup k = some a → w.keys.lookup k = some a) :
    ({ w with keys := keys } : Chain).Guarded where
  locked := hw.locked
  unreported := hw.unreported
  closed := hw.closed
  known k a h := hw.known k a (hfewer k a h)
  adding n k h := by
    refine ⟨(hw.adding n k h).1, ?_⟩
    intro hmem
    obtain ⟨a, ha⟩ := LookupMap.mem_iff_lookup.mp hmem
    exact (hw.adding n k h).2 (LookupMap.mem_iff_lookup.mpr ⟨a, hfewer k a ha⟩)
  once := hw.once
  swapping := hw.swapping

/-- A worker's key that arrives was on its way, so it is listed; it was on its way once. -/
theorem guarded_added {n : Nat} {k : PublicKey} (hw : w.Guarded)
    (held : w.inFlight.lookup n = some (.promise (.addTeeKey k))) :
    ({ w.spend n with keys := w.keys.insert k ⟨teePermission w.account, .registered⟩ } : Chain).Guarded where
  locked := hw.locked
  unreported := (guarded_spend hw n).unreported
  closed := (guarded_spend hw n).closed
  known k' a h := by
    rw [LookupMap.lookup_insert_iff] at h
    split at h
    · next heq =>
        cases h
        subst heq
        exact ⟨rfl, rfl, Or.inr (hw.adding n _ held).1⟩
    · exact hw.known k' a h
  adding m k' h := by
    obtain ⟨hm, hflight⟩ := spend_inFlight h
    refine ⟨(hw.adding m k' hflight).1, ?_⟩
    intro hmem
    rcases (AList.mem_insert _).mp hmem with heq | hmem
    -- the same key from another receipt: there is only this one
    · rw [heq] at hflight
      exact hm (hw.once m n k hflight held)
    · exact (hw.adding m k' hflight).2 hmem
  once := (guarded_spend hw n).once
  swapping := (guarded_spend hw n).swapping

end Guarded

/-! ## After it -/

/-- No worker's key is on the account, and none is on its way there. -/
structure Chain.Cleared (w : Chain) : Prop where
  off : ∀ k a, w.keys.lookup k = some a → a.origin.isTee = false
  quiet : ∀ n k, w.inFlight.lookup n ≠ some (.promise (.addTeeKey k))

/-- The swap that is applied clears the account: what it deletes covers what is there, and it could not delete
    what is still on its way. -/
theorem cleared_swap {w : Chain} {n : Nat} {deleted : List PublicKey} {k : PublicKey} {cessation : Bool}
    {keys : Keys} (hw : w.Guarded) (held : w.inFlight.lookup n = some (.promise (.swap deleted k cessation)))
    (hcovers : ∀ listed ∈ w.vault.registeredTeeKeys, listed ∈ deleted)
    (happlied : applyBatch .other w.keys (deleted.map .deleteKey ++ [.addKey k .fullAccess]) = some keys) :
    (({ w.spend n with keys := keys } : Chain).report (.swap deleted k cessation) true).Cleared := by
  obtain ⟨mid, hmid, hthere, hleft⟩ := applyBatch_deletes happlied
  constructor
  · intro k' a h
    rw [report_keys] at h
    rcases applyBatch_lookup hmid h with h | horigin
    -- a key the swap left there was known, so the swap names it
    · obtain ⟨hnot, h⟩ := hleft k' a h
      rcases (hw.known k' a h).2.2 with hinitial | hlisted
      · exact absurd (hw.swapping n deleted k cessation held k' hinitial) hnot
      · exact absurd (hcovers k' hlisted) hnot
    · rw [horigin]
      rfl
  · intro m k' h
    rcases report_inFlight h with h | ⟨_, _, _, -, hr⟩
    -- it is listed, so the swap deletes it; but the batch went through, so it is on the account
    · obtain ⟨hlisted, hoff⟩ := hw.adding m k' (spend_inFlight h).2
      exact hoff (hthere k' (hcovers k' hlisted))
    · cases hr

/-! ## Steps -/

section Steps
variable {t : Step}

/-- **Before:** a step keeps the guard or hands the account over, cleared. -/
theorem guarded_step (h : Fires Chain.next t) (hw : t.pre.Guarded)
    (hgone : ∀ ks, t.out.promise = some (.deleteKeys ks) → ∀ k ∈ ks, t.pre.Gone k)
    (hcovers : ∀ deleted k cessation, t.applied = some (.swap deleted k cessation) →
      ∀ listed ∈ t.pre.vault.registeredTeeKeys, listed ∈ deleted) :
    t.post.Guarded ∨ t.HandsOver ∧ t.post.Cleared := by
  cases step_cases h with
  | call env call v event move post =>
      rw [post]
      exact Or.inl (guarded_move hw move nofun hgone)
  | callback env n r answer v event held move post =>
      rw [post]
      refine Or.inl (guarded_move (guarded_spend hw n) move ?_ ?_)
      · intro cessation answer' hstart
        cases hstart
        exact hw.unreported n cessation held
      · intro ks hks k hk
        have hk' := hgone ks hks k hk
        exact ⟨hk'.off, fun m hm => hk'.quiet m (spend_inFlight hm).2⟩
  | lost n out post =>
      rw [post]
      exact Or.inl (guarded_spend hw n)
  | applied n p origin actions keys event held batch applied out post =>
      have happlied : t.applied = some p := by
        simp [Step.applied, event, held, batch, applied]
      cases p with
      | addTeeKey k =>
          cases batch
          obtain ⟨mid, hadd, hend⟩ := applyBatch_cons.mp applied
          cases hend
          obtain ⟨-, rfl⟩ := apply_add hadd
          rw [post]
          exact Or.inl (guarded_added hw held)
      | deleteKeys ks =>
          cases batch
          rw [← List.append_nil (ks.map KeyAction.deleteKey)] at applied
          obtain ⟨mid, hend, -, hleft⟩ := applyBatch_deletes applied
          cases hend
          rw [post]
          exact Or.inl (guarded_deleted (guarded_spend hw n) fun k a hk => (hleft k a hk).2)
      | swap deleted k cessation =>
          cases batch
          rw [post]
          exact Or.inr ⟨⟨deleted, k, cessation, happlied⟩,
            cleared_swap hw held (hcovers deleted k cessation happlied) applied⟩
      -- `unlocked_add_key` needs an unlocked vault
      | addKey k permission => exact absurd held (hw.closed n k permission)
      | isKeystoreApproved _ | isCeasedToInitiate | isCeasedToFinalize _ | requestAppPrivateKey _ _ => cases batch
  | refused n p held out post =>
      rw [post]
      exact Or.inl (guarded_refused (guarded_spend hw n) p)
  | signed signer origin actions keys holder applied out post =>
      -- a full-access key is not a worker's
      obtain ⟨-, hpermission, -⟩ := hw.known signer _ holder
      cases hpermission

/-- **After:** as long as nothing is registered, the account stays cleared. -/
theorem cleared_step (h : Fires Chain.next t) (hw : t.pre.Cleared)
    (hclosed : ∀ k, t.out.promise ≠ some (.addTeeKey k)) : t.post.Cleared := by
  constructor
  · intro k a hk
    cases step_cases h with
    | call env call v event move post =>
        rw [post, after_keys] at hk
        exact hw.off k a hk
    | callback env n r answer v event held move post =>
        rw [post, after_keys] at hk
        exact hw.off k a hk
    | lost n out post =>
        rw [post] at hk
        exact hw.off k a hk
    | applied n p origin actions keys event held batch applied out post =>
        rw [post, report_keys] at hk
        rcases applyBatch_lookup applied hk with hk | horigin
        · exact hw.off k a hk
        · cases p with
          -- only this promise adds a key in a worker's name
          | addTeeKey k' => exact absurd held (hw.quiet n k')
          | deleteKeys _ | swap _ _ _ | addKey _ _ =>
              cases batch
              rw [horigin]
              rfl
          | isKeystoreApproved _ | isCeasedToInitiate | isCeasedToFinalize _ | requestAppPrivateKey _ _ =>
              cases batch
    | refused n p held out post =>
        rw [post, report_keys] at hk
        exact hw.off k a hk
    | signed signer origin actions keys holder applied out post =>
        rw [post] at hk
        rcases applyBatch_lookup applied hk with hk | horigin
        · exact hw.off k a hk
        · rw [horigin]
          rfl
  · intro n k hk
    rcases step_receipt h hk with hold | ⟨p, hp, hr⟩ | ⟨m, deleted, k', cessation, ok, -, hr⟩
    · exact hw.quiet n k hold
    · cases hr
      exact hclosed k hp
    · cases hr

end Steps

/-! ## Histories -/

theorem guarded_deploy {account parent keystoreDao mpcContract : AccountId} {initial : Option PublicKey}
    {window : Option Nat} {v : Vault} (h : new account parent keystoreDao mpcContract initial window = .ok v) :
    (Chain.deploy account v).Guarded := by
  simp only [new, bind_eq_ok, pure_eq_ok] at h
  obtain ⟨_, -, _, -, rfl⟩ := h
  refine ⟨rfl, nofun, nofun, ?_, nofun, nofun, nofun⟩
  intro k a hk
  cases initial with
  | none => cases hk
  | some i =>
      change ((∅ : Keys).insert i ⟨teePermission account, .initial⟩).lookup k = some a at hk
      rw [LookupMap.lookup_insert_iff] at hk
      split at hk
      · next heq =>
          cases hk
          subst heq
          exact ⟨rfl, rfl, Or.inl rfl⟩
      · cases hk

/-- In an orderly history the account is guarded until it is handed over, and cleared from then on. -/
theorem orderly_run {w₀ w : Chain} {tr : List Step} (hrun : Run Chain.next w₀ tr w) (h0 : w₀.Guarded) :
    Orderly tr → w.Guarded ∨ (∃ t ∈ tr, t.HandsOver) ∧ w.Cleared := by
  induction hrun with
  | start => exact fun _ => Or.inl h0
  | @step tr t hrun hf ih =>
      intro horderly
      obtain ⟨hpairs, -, hlast⟩ := List.pairwise_append.mp horderly.closed
      have hbefore : Orderly tr :=
        ⟨fun u hu => horderly.covers u (List.mem_append_left _ hu), hpairs,
          fun u hu => horderly.gone u (List.mem_append_left _ hu)⟩
      have ht : t ∈ tr ++ [t] := List.mem_append_right _ (List.mem_singleton_self t)
      -- the invariant changes once, at the step that hands the account over
      rcases ih hbefore with hguarded | ⟨⟨u, hu, hhands⟩, hcleared⟩
      · rcases guarded_step hf hguarded (horderly.gone t ht) (horderly.covers t ht) with hpost | ⟨hhands, hpost⟩
        · exact Or.inl hpost
        · exact Or.inr ⟨⟨t, ht, hhands⟩, hpost⟩
      · refine Or.inr ⟨⟨u, List.mem_append_left _ hu, hhands⟩, cleared_step hf hcleared ?_⟩
        exact hlast u hu t (List.mem_singleton_self t) hhands

/-- **No worker's key survives a recovery**, and until then every one on the account is known, in every history
    whose registrations and clearings are orderly. -/
theorem tee_keys_kept_when_orderly {account parent keystoreDao mpcContract : AccountId}
    {initial : Option PublicKey} {window : Option Nat} {tr : List Step} {w : Chain}
    (h : Chain.History account parent keystoreDao mpcContract initial window tr w) (orderly : Orderly tr) :
    w.TeeKeysKept := by
  obtain ⟨v, hnew, hrun⟩ := h
  rcases orderly_run hrun (guarded_deploy hnew) orderly with hguarded | ⟨-, hcleared⟩
  · constructor
    · intro hunlocked
      exact absurd (hguarded.locked.symm.trans hunlocked) nofun
    · intro _ k a hk _
      exact (hguarded.known k a hk).2.2
  · constructor
    · exact fun _ => hcleared.off
    · intro _ k a hk htee
      rw [hcleared.off k a hk] at htee
      cases htee

/-- The promises the orders are about. -/
def Promise.isSwap : Promise → Bool
  | .swap _ _ _ => true
  | _           => false

/-- The promise that adds a TEE key. -/
def Promise.isAddTeeKey : Promise → Bool
  | .addTeeKey _ => true
  | _            => false

/-- The promise that takes keys off the account. -/
def Promise.isDeleteKeys : Promise → Bool
  | .deleteKeys _ => true
  | _             => false

/-- The promise is a swap only if it deletes all of `ks`. -/
def Promise.covers (ks : List PublicKey) : Promise → Bool
  | .swap deleted _ _ => ks.all fun k => decide (k ∈ deleted)
  | _                 => true

/-- A test that is enough: the swaps cover the list, nothing is registered after one, and nothing is cleared. -/
def isOrderly (tr : List Step) : Bool :=
  decide (tr.Pairwise fun t u =>
    (t.applied.any Promise.isSwap && u.out.promise.any Promise.isAddTeeKey) = false) &&
  tr.all fun t =>
    t.applied.all (Promise.covers t.pre.vault.registeredTeeKeys) && !t.out.promise.any Promise.isDeleteKeys

theorem orderly_of_isOrderly {tr : List Step} (h : isOrderly tr = true) : Orderly tr := by
  obtain ⟨hpairs, hall⟩ := (Bool.and_eq_true _ _).mp h
  constructor
  · intro t ht deleted k cessation happlied
    obtain ⟨hcovers, -⟩ := (Bool.and_eq_true _ _).mp (List.all_eq_true.mp hall t ht)
    rw [happlied] at hcovers
    simpa [Promise.covers] using hcovers
  · refine (of_decide_eq_true hpairs).imp ?_
    rintro t u hclosed ⟨deleted, k, cessation, happlied⟩ k' hpromise
    rw [happlied, hpromise] at hclosed
    cases hclosed
  · intro t ht ks hpromise
    obtain ⟨-, hnone⟩ := (Bool.and_eq_true _ _).mp (List.all_eq_true.mp hall t ht)
    rw [hpromise] at hnone
    cases hnone

/-- A worker's key is proposed, approved and added. -/
def registration (k : PublicKey) (receipt : Nat) : List Event :=
  [.call (envOn daoAccount 1) (.proposeTeeKey k), .callback (envOn vaultAccount 1) receipt (.value true),
   .batch (receipt + 1) false]

/-- A key registered before the exit is deleted by its swap. -/
theorem registered_key_deleted_by_swap : ∃ tr w,
    Chain.History vaultAccount parentAccount daoAccount mpcAccount (some (keyOf 0)) none tr w ∧ Orderly tr ∧
      w.vault.unlocked = true ∧ w.TeeKeysKept := by
  obtain ⟨tr, w, h, hp⟩ := exists_vault_history
    (registration (keyOf 1) 0 ++
      [.call (envOn parentAccount 1) .unilateralInitiateRecovery,
       .call (envOn parentAccount 2) (.finalizeRecovery (keyOf 9)), .batch 2 false,
       .callback (envOn vaultAccount 2) 3 (.value true)])
    (fun p => isOrderly p.1 && p.2.vault.unlocked) (by decide +kernel)
  obtain ⟨horderly, hunlocked⟩ := (Bool.and_eq_true _ _).mp hp
  have orderly := orderly_of_isOrderly horderly
  exact ⟨tr, w, h, orderly, hunlocked, tee_keys_kept_when_orderly h orderly⟩

/-- A worker's key is on the account and not on the list. -/
def Chain.strayKey (w : Chain) (k : PublicKey) : Bool :=
  decide (w.keys.lookup k = some ⟨teePermission w.account, .registered⟩ ∧ w.vault.initialTeeKey ≠ some k ∧
    k ∉ w.vault.registeredTeeKeys)

theorem not_kept_of_strayKey {w : Chain} {k : PublicKey} (h : w.strayKey k = true) : ¬ w.TeeKeysKept := by
  obtain ⟨hkey, hinitial, hlisted⟩ := of_decide_eq_true h
  intro hkept
  cases hunlocked : w.vault.unlocked with
  | true => exact absurd (hkept.unlocked hunlocked _ _ hkey) nofun
  | false =>
      rcases hkept.locked hunlocked _ _ hkey rfl with h | h
      · exact hinitial h
      · exact hlisted h

/-- A key approved between the dispatch of a swap and its callback is on the account of the unlocked vault; and a
    clearing that named a key still on its way is refused, and leaves the other it named on the account of a locked
    vault, off the list. -/
theorem tee_keys_stray :
    (∃ tr w, Chain.History vaultAccount parentAccount daoAccount mpcAccount (some (keyOf 0)) none tr w ∧
      w.vault.unlocked = true ∧ ¬ w.TeeKeysKept) ∧
    ∃ tr w, Chain.History vaultAccount parentAccount daoAccount mpcAccount (some (keyOf 0)) none tr w ∧
      w.vault.unlocked = false ∧ w.inFlight.entries = [] ∧ ¬ w.TeeKeysKept := by
  constructor
  · obtain ⟨tr, w, h, hp⟩ := exists_vault_history
      [.call (envOn parentAccount 1) .unilateralInitiateRecovery,
       .call (envOn daoAccount 2) (.proposeTeeKey (keyOf 1)),
       .call (envOn parentAccount 2) (.finalizeRecovery (keyOf 9)),
       .callback (envOn vaultAccount 2) 0 (.value true), .batch 1 false, .batch 2 false,
       .callback (envOn vaultAccount 2) 3 (.value true)]
      (fun p => p.2.vault.unlocked && p.2.strayKey (keyOf 1)) (by decide +kernel)
    obtain ⟨hunlocked, hstray⟩ := (Bool.and_eq_true _ _).mp hp
    exact ⟨tr, w, h, hunlocked, not_kept_of_strayKey hstray⟩
  · obtain ⟨tr, w, h, hp⟩ := exists_vault_history
      (registration (keyOf 1) 0 ++ registration (keyOf 2) 2 ++
        [.call (envOn daoAccount 1) (.proposeTeeKey (keyOf 3)), .callback (envOn vaultAccount 1) 4 (.value true),
         .call (envOn parentAccount 1) (.clearUnusedTeeKeys [keyOf 1, keyOf 3]), .batch 6 false, .batch 5 false])
      (fun p => !p.2.vault.unlocked && decide (p.2.inFlight.entries = []) && p.2.strayKey (keyOf 1))
      (by decide +kernel)
    simp only [Bool.and_eq_true, Bool.not_eq_true', decide_eq_true_eq] at hp
    obtain ⟨⟨hlocked, hempty⟩, hstray⟩ := hp
    exact ⟨tr, w, h, hlocked, hempty, not_kept_of_strayKey hstray⟩

end Vault

end Outlayer
