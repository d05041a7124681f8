import Outlayer.Contract.Correctness.Policies
import Outlayer.Contract.Messages

/-!
# `Contract.Correctness.PolicySignatures` — how often a policy signature can be filed

A signature names the version it writes, and the version only grows while the policy is stored. Deleting the
policy drops the version with it, so from then on only the deadline of an old signature stands in its way:
`policy_filed_again_after_delete` files one a second time. Where every policy outlives the signatures filed
for it, each is good for one write.
-/

namespace Outlayer
open Text Checked Collections Runs

/-- A signature as it was filed: for which key, over which text, until when. -/
structure Filing where
  key : String
  validUntil : Nat
  message : String
  signature : Option (List UInt8)
deriving DecidableEq

/-- The signature a store files. -/
def Event.filing : Event → Option Filing
  | .call env (.storeWalletPolicy walletPubkey encryptedData signature version locked validUntil _) =>
      match canonicalWalletPubkey walletPubkey with
      | .ok key  => some {
          key, validUntil
          message := policyStoreMessage key version locked validUntil encryptedData env.predecessor
          signature := hexDecode signature }
      | .error _ => none
  | _ => none

/-- The block time of an event, for those that run a method. -/
def Event.time : Event → Option Nat
  | .call env _      => some env.blockTimestamp
  | .yielded env _ _ => some env.blockTimestamp
  | .withdrawn _ _   => none

/-- Block time does not go back. -/
def ClockRuns (tr : List Step) : Prop :=
  tr.Pairwise fun t u => ∀ time time', t.event.time = some time → u.event.time = some time' → time ≤ time'

/-- No signature is filed twice for one message. -/
def FiledOnce (tr : List Step) : Prop :=
  tr.Pairwise fun t u => ∀ f f', t.event.filing = some f → u.event.filing = some f' →
    ¬ (f.message = f'.message ∧ f.signature = f'.signature)

/-- A policy is deleted only after every signature filed for it has expired. -/
def DeletedAfterExpiry (tr : List Step) : Prop :=
  tr.Pairwise fun t u => ∀ f owner time, t.event.filing = some f → u.event.DeletesPolicy f.key owner →
    u.event.time = some time → f.validUntil < time / 1000000000

/-! ## One step -/

/-- What a step that files a signature must have been, and what it leaves. -/
structure FilingStep (H : Host) (t : Step) (f : Filing) (version : Nat) (time : Nat) : Prop where
  timed : t.event.time = some time
  next : version = (t.pre.contract.metaOf f.key).version + 1
  inTime : time / 1000000000 ≤ f.validUntil
  stored : t.post.contract.walletPolicies.lookup f.key ≠ none
  written : (t.post.contract.metaOf f.key).version = version
  canonical : ∃ walletPubkey, canonicalWalletPubkey walletPubkey = .ok f.key
  message : ∃ locked data caller, f.message = policyStoreMessage f.key version locked f.validUntil data caller

theorem filing_call {H : Host} {w : World} {env : Env} {c : Contract} {p : PolicyStore}
    {ses : List StorageEffect} {walletPubkey data signature : String} {version : Nat} {locked : Bool}
    {validUntil : Nat} {refundTo : Option AccountId} {key : String}
    (hkey : canonicalWalletPubkey walletPubkey = .ok key)
    (h : PolicyCall H (w.seenBy env) c
      (.storeWalletPolicy walletPubkey data signature version locked validUntil refundTo) p ses) :
    Signed H env c.toPolicyStore key data signature version locked validUntil ∧
      p.walletPolicies.lookup key ≠ none ∧ p.metaOf key = ⟨version, locked⟩ := by
  cases h with
  | create key' deposit excess receiver event canonical signed new paid =>
      obtain rfl := Except.ok.inj (hkey.symm.trans canonical)
      exact ⟨⟨signed.next, signed.inTime, signed.verified⟩, stored_self _ key _,
        metaOf_eq (AList.lookup_insert _)⟩
  | update key' old deposit excess receiver event canonical signed exists_ owner paid =>
      obtain rfl := Except.ok.inj (hkey.symm.trans canonical)
      exact ⟨⟨signed.next, signed.inTime, signed.verified⟩, stored_self _ key _,
        metaOf_eq (AList.lookup_insert _)⟩

theorem filing_step {H : Host} {t : Step} (hf : Fires (World.next H) t) {f : Filing}
    (h : t.event.filing = some f) : ∃ version time, FilingStep H t f version time := by
  rcases step_parts hf with ⟨env, call, he, -, hparts⟩ | ⟨hno, -⟩
  · rw [he] at h
    cases call with
    | storeWalletPolicy walletPubkey data signature version locked validUntil refundTo =>
        cases hkey : canonicalWalletPubkey walletPubkey with
        | error why =>
            simp only [Event.filing, hkey] at h
            cases h
        | ok key =>
            simp only [Event.filing, hkey, Option.some.injEq] at h
            subst h
            rcases hparts.policies with ⟨ses, hrun, -⟩ | ⟨hoff, -⟩
            · obtain ⟨hsigned, hstored, hmeta⟩ := filing_call hkey (policy_call hrun)
              refine ⟨version, env.blockTimestamp, by rw [he]; rfl, hsigned.next, hsigned.inTime, hstored, ?_,
                ⟨walletPubkey, hkey⟩, ⟨locked, data, env.predecessor, rfl⟩⟩
              exact congrArg PolicyMeta.version hmeta
            · exact absurd rfl (hoff _)
    | _ => cases h
  · cases he : t.event with
    | call env call => exact absurd he (hno env call)
    | yielded _ _ _ =>
        rw [he] at h
        cases h
    | withdrawn _ _ =>
        rw [he] at h
        cases h

/-- A stored policy at some version stays at least there, unless the step deletes it. -/
theorem version_kept {H : Host} {t : Step} (hf : Fires (World.next H) t) {key : String} {version : Nat}
    (hpre : t.pre.contract.walletPolicies.lookup key ≠ none ∧ version ≤ (t.pre.contract.metaOf key).version)
    (hpost : ¬ (t.post.contract.walletPolicies.lookup key ≠ none ∧
      version ≤ (t.post.contract.metaOf key).version)) : ∃ owner, t.event.DeletesPolicy key owner := by
  obtain ⟨old, hold⟩ := Option.ne_none_iff_exists'.mp hpre.1
  have hstep := policy_step hf hold
  cases hnew : t.post.contract.walletPolicies.lookup key with
  | none => exact ⟨old.owner, (hstep.deleted hnew).1⟩
  | some new =>
      have hversion := (hstep.kept new hnew).version
      refine absurd ⟨?_, ?_⟩ hpost
      · rw [hnew]
        exact Option.some_ne_none new
      · exact hpre.2.trans (hversion ▸ Nat.le_add_right _ _)

theorem deletesPolicy_time {key : String} {owner : AccountId} {e : Event} (h : e.DeletesPolicy key owner) :
    ∃ time, e.time = some time := by
  cases e with
  | call env call => exact ⟨env.blockTimestamp, rfl⟩
  | yielded _ _ _ => exact h.elim
  | withdrawn _ _ => exact h.elim

/-! ## Histories -/

/-- **Where policies outlive the signatures filed for them, a signature is good for one write.** -/
theorem policy_signature_filed_once {H : Host} {owner : AccountId} {operator : Option AccountId}
    {standard version : Option String} {tr : List Step} {w : World}
    (h : World.History H owner operator standard version tr w) (hclock : ClockRuns tr)
    (hexpired : DeletedAfterExpiry tr) : FiledOnce tr := by
  rw [FiledOnce, pairwise_iff_split]
  rintro tr₁ t tr₂ t' tr₃ rfl f f' hfiled hfiled' ⟨hmessage, -⟩
  obtain ⟨hbefore, hf', -⟩ := h.at_split
  obtain ⟨-, hf, hbetween⟩ := hbefore.at_split
  obtain ⟨v, time, hstep⟩ := filing_step hf hfiled
  obtain ⟨v', time', hstep'⟩ := filing_step hf' hfiled'
  -- the same text means the same key, version and deadline
  obtain ⟨pubkey, hkey⟩ := hstep.canonical
  obtain ⟨pubkey', hkey'⟩ := hstep'.canonical
  obtain ⟨locked, data, caller, hmsg⟩ := hstep.message
  obtain ⟨locked', data', caller', hmsg'⟩ := hstep'.message
  rw [hmsg, hmsg'] at hmessage
  obtain ⟨hsame, rfl, -, huntil, -⟩ := policyStoreMessage_inj (keyShaped_of_canonical hkey)
    (keyShaped_of_canonical hkey') hmessage
  have hstart : t.post.contract.walletPolicies.lookup f.key ≠ none ∧
      v ≤ (t.post.contract.metaOf f.key).version := ⟨hstep.stored, hstep.written.symm.le⟩
  rcases hbetween.until (Q := fun s => s.contract.walletPolicies.lookup f.key ≠ none ∧
      v ≤ (s.contract.metaOf f.key).version) hstart with ⟨hend, -⟩ | ⟨tr₄, u, tr₅, rfl, -, hpre, hpost⟩
  · -- the version has moved past the one that was signed
    have hnext := hstep'.next
    rw [← hsame] at hnext
    omega
  · obtain ⟨-, hfu, -⟩ := hbetween.at_split
    obtain ⟨who, hdelete⟩ := version_kept hfu hpre hpost
    obtain ⟨timeu, htimeu⟩ := deletesPolicy_time hdelete
    have hlate : f.validUntil < timeu / 1000000000 := by
      refine pairwise_iff_split.mp hexpired tr₁ t tr₄ u (tr₅ ++ t' :: tr₃) ?_ f who timeu hfiled hdelete htimeu
      simp only [List.append_assoc, List.cons_append]
    have hle : timeu ≤ time' := by
      refine pairwise_iff_split.mp hclock (tr₁ ++ t :: tr₄) u tr₅ t' tr₃ ?_ timeu time' htimeu hstep'.timed
      simp only [List.append_assoc, List.cons_append]
    have hin := hstep'.inTime
    rw [← huntil] at hin
    have hdiv := Nat.div_le_div_right hle (c := 1000000000)
    omega

/-- A policy is filed, and deleted after its signature has expired. -/
theorem expired_policy_filed_once :
    ∃ tr w, (World.History walletHost ownerAccount none none none tr w ∧ ClockRuns tr ∧ DeletedAfterExpiry tr) ∧
      tr.length = 2 ∧ FiledOnce tr := by
  obtain ⟨tr, w, h, hp⟩ := exists_replay walletHost World.fresh
    [filePolicy 1, callBy aliceAccount (.deleteWalletPolicy walletKey) 0 1001000000000]
    (fun x => ofTwo (fun (t u : Step) => decide (t.event.filing.map Filing.validUntil = some 1000 ∧
        t.event.time = some 1000000000 ∧ u.event.time = some 1001000000000)) x.1)
    (by decide +kernel)
  obtain ⟨t, u, rfl, hp⟩ := exists_of_ofTwo hp
  obtain ⟨hfiled, htime, htime'⟩ := of_decide_eq_true hp
  have hclock : ClockRuns [t, u] := by
    refine List.pairwise_pair.mpr ?_
    intro time time' ht hu
    rw [htime, Option.some.injEq] at ht
    rw [htime', Option.some.injEq] at hu
    omega
  have hexpired : DeletedAfterExpiry [t, u] := by
    refine List.pairwise_pair.mpr ?_
    intro f owner time hf _ hu
    rw [hf, Option.map_some, Option.some.injEq] at hfiled
    rw [htime', Option.some.injEq] at hu
    omega
  exact ⟨_, w, ⟨h, hclock, hexpired⟩, rfl, policy_signature_filed_once h hclock hexpired⟩

/-- **Deleted and filed again.** The policy is stored at second 1, deleted at second 2, and stored again at
    second 3 on the same signature, which is good until second 1000. -/
theorem policy_filed_again_after_delete :
    ∃ tr w, World.History walletHost ownerAccount none none none tr w ∧
      (tr.filterMap fun t => t.event.time) = [1000000000, 2000000000, 3000000000] ∧ ¬ FiledOnce tr := by
  obtain ⟨tr, w, h, hp⟩ := exists_replay walletHost World.fresh
    [filePolicy 1, callBy aliceAccount (.deleteWalletPolicy walletKey) 0 2000000000, filePolicy 3]
    (fun x => ofThree (fun (t v u : Step) => decide (t.event.filing.isSome ∧ u.event.filing = t.event.filing ∧
        ([t, v, u].filterMap fun t => t.event.time) = [1000000000, 2000000000, 3000000000])) x.1)
    (by decide +kernel)
  obtain ⟨t, v, u, rfl, hp⟩ := exists_of_ofThree hp
  obtain ⟨hsome, hsame, htimes⟩ := of_decide_eq_true hp
  obtain ⟨f, hf⟩ := Option.isSome_iff_exists.mp hsome
  refine ⟨_, w, h, htimes, fun honce => ?_⟩
  exact pairwise_iff_split.mp honce [] t [v] u [] rfl f f hf (hsame.trans hf) ⟨rfl, rfl⟩

end Outlayer
