import Mathlib.Data.List.Dedup
import Outlayer.KeystoreDao.Steps

/-!
# `KeystoreDao.Correctness.Threshold` — more than half of the members

The threshold is computed in three places: from the members there are after one was added or removed, and in `new`
from the list it is given. A list that names a member twice counts that member twice, and nothing puts the threshold
right until the membership changes: it can be more than the members there are, and then every tally that does not
carry panics. The threshold is the right one in every state that is reached exactly when the repetitions in the list
do not change half of its length.
-/

namespace Outlayer
open Checked Collections Runs

namespace KeystoreDao

/-! ## Members -/

section Members
variable {α : Type} [DecidableEq α]

theorem mem_foldl_insert {l : List α} {s : UnorderedSet α} {a : α} :
    a ∈ l.foldl UnorderedSet.insert s ↔ a ∈ l ∨ a ∈ s := by
  induction l generalizing s with
  | nil => simp
  | cons b l ih =>
      rw [List.foldl_cons, ih, UnorderedSet.mem_insert, List.mem_cons]
      constructor
      · rintro (h | h | h)
        · exact Or.inl (Or.inr h)
        · exact Or.inl (Or.inl h)
        · exact Or.inr h
      · rintro ((h | h) | h)
        · exact Or.inr (Or.inl h)
        · exact Or.inl h
        · exact Or.inr (Or.inr h)

/-- A set filled from a list has as many elements as the list has distinct ones. -/
theorem length_foldl_insert (l : List α) :
    (l.foldl UnorderedSet.insert UnorderedSet.empty).elems.length = l.dedup.length := by
  refine List.Perm.length_eq ((List.perm_ext_iff_of_nodup (UnorderedSet.nodup _) (List.nodup_dedup l)).mpr ?_)
  intro a
  rw [← UnorderedSet.mem_def, mem_foldl_insert, List.mem_dedup]
  simp

/-- A set of more than one element is not emptied by a removal. -/
theorem remove_ne_nil {s : UnorderedSet α} (h : s.elems.length > 1) (a : α) : (s.remove a).elems ≠ [] := by
  intro hnil
  have hall : ∀ b ∈ s.elems, b = a := by
    intro b hb
    by_contra hne
    have hmem : b ∈ s.remove a := UnorderedSet.mem_remove.mpr ⟨hne, hb⟩
    rw [UnorderedSet.mem_def, hnil] at hmem
    exact List.not_mem_nil hmem
  have hsub : s.elems.Subperm [a] :=
    List.subperm_of_subset s.nodup fun b hb => List.mem_singleton.mpr (hall b hb)
  have hlength := hsub.length_le
  rw [List.length_singleton] at hlength
  omega

end Members

/-- A call leaves the members and the threshold alone, or it adds or removes one and computes the threshold anew. -/
theorem Move.members {current : AccountId} {env : Env} {d d' : KeystoreDao} {call : Call} {o : Outcome}
    (h : Move current env d call d' o) :
    (d'.daoMembers = d.daoMembers ∧ d'.approvalThreshold = d.approvalThreshold) ∨
      d'.approvalThreshold = thresholdOf d'.daoMembers.elems.length ∧ d'.daoMembers.elems ≠ [] := by
  cases h with
  | addMember m => exact Or.inr ⟨rfl, UnorderedSet.insert_ne_nil _ _⟩
  | removeMember m left => exact Or.inr ⟨rfl, remove_ne_nil left m⟩
  | vote id approve p d' o member kind found pending first result =>
      obtain ⟨votesFor, votesAgainst, status, ks, rfl⟩ := result.frame
      exact Or.inl ⟨rfl, rfl⟩
  | voteRevoke id approve p d' o member found pending first result =>
      obtain ⟨votesFor, votesAgainst, status, ks, rfl⟩ := result.frame
      exact Or.inl ⟨rfl, rfl⟩
  | propose ks d₁ d' o o' p member keys pending made first result outcome =>
      obtain ⟨votesFor, votesAgainst, status, ks, rfl⟩ := result.frame
      subst made
      exact Or.inl ⟨rfl, rfl⟩
  | _ => exact Or.inl ⟨rfl, rfl⟩

/-! ## The threshold -/

/-- More than half of the members, so no more than there are, and a tally can subtract it. -/
structure ThresholdKept (d : KeystoreDao) : Prop where
  exact : d.approvalThreshold = d.daoMembers.elems.length / 2 + 1
  atMost : d.approvalThreshold ≤ d.daoMembers.elems.length
  spare : ∃ n, sub (asU32 d.daoMembers.elems.length) d.approvalThreshold = .ok n

/-- There are members, and the threshold is that of their number. -/
structure Counted (d : KeystoreDao) : Prop where
  threshold : d.approvalThreshold = thresholdOf d.daoMembers.elems.length
  nonempty : d.daoMembers.elems ≠ []

theorem asU32_of_lt {n : Nat} (h : n < 2 ^ 32) : asU32 n = n := Nat.mod_eq_of_lt h

theorem Counted.kept {d : KeystoreDao} (h : d.Counted) (hfew : d.daoMembers.elems.length < 2 ^ 32) :
    d.ThresholdKept := by
  have hpos : 0 < d.daoMembers.elems.length := List.length_pos_iff.mpr h.nonempty
  have hexact : d.approvalThreshold = d.daoMembers.elems.length / 2 + 1 := by
    rw [h.threshold, thresholdOf, asU32_of_lt hfew]
  have hle : d.approvalThreshold ≤ d.daoMembers.elems.length := by omega
  refine ⟨hexact, hle, d.daoMembers.elems.length - d.approvalThreshold, ?_⟩
  rw [asU32_of_lt hfew, sub_eq_ok]
  exact ⟨hle, rfl⟩

theorem counted_step {A : Attestation} {current : AccountId} {t : Step} (h : Fires (next A current) t)
    (hpre : t.pre.Counted) : t.post.Counted := by
  rcases (step_move h).members with ⟨hmembers, hthreshold⟩ | ⟨hthreshold, hnonempty⟩
  · constructor
    · rw [hmembers, hthreshold]
      exact hpre.threshold
    · rw [hmembers]
      exact hpre.nonempty
  · exact ⟨hthreshold, hnonempty⟩

theorem new_eq_ok {ownerId initAccountId mpcContractId : AccountId} {members : List AccountId} {d : KeystoreDao}
    (h : new ownerId initAccountId members mpcContractId = .ok d) :
    members ≠ [] ∧ d.daoMembers = members.foldl UnorderedSet.insert UnorderedSet.empty ∧
      d.approvalThreshold = thresholdOf members.length := by
  simp only [new, bind_eq_ok, require_eq_ok, pure_eq_ok] at h
  obtain ⟨_, hne, rfl⟩ := h
  exact ⟨hne, rfl, rfl⟩

/-- The threshold `new` sets is right when the repetitions in the list make no difference to its half. -/
theorem counted_new {ownerId initAccountId mpcContractId : AccountId} {members : List AccountId} {d : KeystoreDao}
    (h : new ownerId initAccountId members mpcContractId = .ok d) (hlength : members.length < 2 ^ 32)
    (hhalf : members.length / 2 = members.dedup.length / 2) : d.Counted := by
  obtain ⟨hne, hmembers, hthreshold⟩ := new_eq_ok h
  have hcount : d.daoMembers.elems.length = members.dedup.length := by
    rw [hmembers, length_foldl_insert]
  have hle : members.dedup.length ≤ members.length := (List.dedup_sublist members).length_le
  constructor
  · rw [hthreshold, hcount, thresholdOf, thresholdOf, asU32_of_lt hlength,
      asU32_of_lt (Nat.lt_of_le_of_lt hle hlength), hhalf]
  · intro hnil
    obtain ⟨m, hm⟩ := List.exists_mem_of_ne_nil members hne
    have hin : m ∈ d.daoMembers := by
      rw [hmembers]
      exact mem_foldl_insert.mpr (Or.inl hm)
    rw [UnorderedSet.mem_def, hnil] at hin
    exact List.not_mem_nil hin

/-- **The threshold.** It is more than half of the distinct members in every state of every history that starts from
    a list, exactly when the repetitions in the list make no difference to half of its length. (A vector has a length
    of 32 bits, and so has the count of members the threshold is computed from.) -/
theorem threshold_kept_iff {A : Attestation} {current ownerId initAccountId mpcContractId : AccountId}
    {members : List AccountId} (hlength : members.length < 2 ^ 32) :
    (∀ tr d, History A current ownerId initAccountId members mpcContractId tr d →
        d.daoMembers.elems.length < 2 ^ 32 → d.ThresholdKept) ↔
      members.length / 2 = members.dedup.length / 2 := by
  constructor
  · intro hkept
    by_cases hne : members = []
    · subst hne
      rfl
    · have hnew : ∃ d, new ownerId initAccountId members mpcContractId = .ok d := by
        simp [new, hne]
      obtain ⟨d, hnew⟩ := hnew
      obtain ⟨-, hmembers, hthreshold⟩ := new_eq_ok hnew
      have hcount : d.daoMembers.elems.length = members.dedup.length := by
        rw [hmembers, length_foldl_insert]
      have hle : members.dedup.length ≤ members.length := (List.dedup_sublist members).length_le
      -- the state right after `new` is one of those reached
      have hexact := (hkept [] d ⟨d, hnew, .start⟩ (by omega)).exact
      rw [hthreshold, hcount, thresholdOf, asU32_of_lt hlength] at hexact
      exact Nat.add_right_cancel hexact
  · rintro hhalf tr d ⟨d₀, hnew, hrun⟩ hfew
    have hcounted := hrun.invariant (I := Counted) (counted_new hnew hlength hhalf) (fun _ hf => counted_step hf)
    exact hcounted.kept hfew

/-! ## A DAO of `dao.near` -/

/-- The accounts of a small DAO: the contract, its owner, the two it was made with and three members. -/
def daoSelf : AccountId := ⟨"dao.near", by decide⟩
def daoOwner : AccountId := ⟨"owner.dao.near", by decide⟩
def daoInit : AccountId := ⟨"init.dao.near", by decide⟩
def daoMpc : AccountId := ⟨"mpc.near", by decide⟩
def memberA : AccountId := ⟨"member-a.near", by decide⟩
def memberB : AccountId := ⟨"member-b.near", by decide⟩
def memberC : AccountId := ⟨"member-c.near", by decide⟩

/-- The keys of these histories. -/
def keystoreKey : Vector UInt8 32 := Vector.replicate 32 7

/-- A platform that is up to date, whose quotes all bind `keystoreKey`. -/
def upToDate : Attestation where
  quoteFmspc := fun _ => pure [0x20, 0xa0, 0x6f, 0, 0, 0]
  verify := fun _ _ _ => pure
    { status := "UpToDate", advisoryIds := []
      td10 := some { mrTd := Vector.replicate 48 0, rtMr0 := Vector.replicate 48 0, rtMr1 := Vector.replicate 48 0
                     rtMr2 := Vector.replicate 48 0, rtMr3 := Vector.replicate 48 0
                     reportData := Vector.replicate 64 7 } }
  sha256 := fun _ => Vector.replicate 32 0

/-- A call by `who`. -/
def sentBy (who : AccountId) (call : Call) : Event :=
  { env := { predecessor := who, attachedDeposit := 0, blockTimestamp := 0 }, call }

/-- A history of the DAO that `new` makes of a list of members. -/
theorem exists_dao_history (members : List AccountId) (es : List Event) (p : List Step × KeystoreDao → Bool)
    (h : ((new daoOwner daoInit members daoMpc).toOption.bind fun d => replay (next upToDate daoSelf) d es).any p =
      true) :
    ∃ tr d, History upToDate daoSelf daoOwner daoInit members daoMpc tr d ∧ p (tr, d) = true := by
  obtain ⟨⟨tr, d⟩, hr, hp⟩ := (Option.any_eq_true p _).mp h
  obtain ⟨d₀, hnew, hr⟩ := Option.bind_eq_some_iff.mp hr
  exact ⟨tr, d, ⟨d₀, toOption_eq_some.mp hnew, run_of_replay hr⟩, hp⟩

/-- Three names for two members: half of three is half of two. -/
theorem threshold_kept_of_three : ∃ tr d,
    History upToDate daoSelf daoOwner daoInit [memberA, memberA, memberB] daoMpc tr d ∧
      d.approvalThreshold = 2 ∧ d.ThresholdKept := by
  obtain ⟨tr, d, h, hp⟩ := exists_dao_history [memberA, memberA, memberB] []
    (fun p => decide (p.2.approvalThreshold = 2 ∧ p.2.daoMembers.elems.length < 2 ^ 32)) (by decide +kernel)
  obtain ⟨hthreshold, hfew⟩ := of_decide_eq_true hp
  exact ⟨tr, d, h, hthreshold, (threshold_kept_iff (by decide)).mpr (by decide) tr d h hfew⟩

/-- A list that names its one member twice: the threshold is two, and a tally would subtract two from one. -/
theorem threshold_of_repeated_member : ∃ tr d,
    History upToDate daoSelf daoOwner daoInit [memberA, memberA] daoMpc tr d ∧ d.daoMembers.elems.length = 1 ∧
      d.approvalThreshold = 2 ∧ ¬ d.ThresholdKept := by
  obtain ⟨tr, d, h, hp⟩ := exists_dao_history [memberA, memberA] []
    (fun p => decide (p.2.daoMembers.elems.length = 1 ∧ p.2.approvalThreshold = 2)) (by decide +kernel)
  obtain ⟨hone, htwo⟩ : d.daoMembers.elems.length = 1 ∧ d.approvalThreshold = 2 := of_decide_eq_true hp
  refine ⟨tr, d, h, hone, htwo, ?_⟩
  intro hkept
  have hatMost := hkept.atMost
  omega

/-! ## A keystore of `dao.near` -/

/-- 48 bytes, in the text a measurement is written in. -/
def zeros : String := Text.hexEncode (List.replicate 48 0)

theorem validate_zeros (name : String) : validateMeasurementField name zeros = .ok () := by
  have hsize : zeros.utf8ByteSize = 96 := by decide +kernel
  -- the characters are those of the list; reading them back from the text is not needed
  have hhex : zeros.toList.all Text.isAsciiHexdigit = true := by
    unfold zeros Text.hexEncode
    rw [String.toList_ofList]
    decide
  simp [validateMeasurementField, require, hsize, hhex]

/-- The measurements of `upToDate`. -/
def zeroMeasurements : ApprovedMeasurements :=
  { mrtd := zeros, rtmr0 := zeros, rtmr1 := zeros, rtmr2 := zeros, rtmr3 := zeros }

/-- The DAO once its owner has set it up for registrations. -/
def ready (d : KeystoreDao) : KeystoreDao :=
  { d with collaterals := ["fmspc20a06f000000"], approvedMeasurements := [zeroMeasurements] }

/-- Setting it up takes two calls, and nothing is decided by them. -/
theorem ready_run {d : KeystoreDao} (owner : d.ownerId = daoOwner) (collaterals : d.collaterals = [])
    (measurements : d.approvedMeasurements = []) :
    ∃ tr, Run (next upToDate daoSelf) d tr d.ready ∧ ∀ t ∈ tr, t.event.call.isOther = true ∧ t.out.Quiet := by
  have hfirst : next upToDate daoSelf d (sentBy daoOwner (.updateCollateral "fmspc20a06f000000" 0)) =
      some ({ d with collaterals := ["fmspc20a06f000000"] }, { logs := [.collateralUpdated 0 1] }) := by
    refine toOption_eq_some.mpr ?_
    simp [exec, runCall, updateCollateral, assertOwner, sentBy, owner, collaterals, maxCollaterals]
  have hsecond : next upToDate daoSelf { d with collaterals := ["fmspc20a06f000000"] }
      (sentBy daoOwner (.addApprovedMeasurements zeroMeasurements none)) =
      some (d.ready, { logs := [.measurementsAdded zeroMeasurements 1] }) := by
    refine toOption_eq_some.mpr ?_
    simp [exec, runCall, addApprovedMeasurements, validateMeasurements, zeroMeasurements, validate_zeros,
      assertOwner, sentBy, owner, measurements, ready]
  refine ⟨_, .step (t := ⟨_, _, _, _⟩) (.step (t := ⟨_, _, _, _⟩) .start hfirst) hsecond, ?_⟩
  intro t ht
  simp only [List.nil_append, List.mem_append, List.mem_singleton] at ht
  rcases ht with rfl | rfl
  · exact ⟨rfl, quiet_line rfl⟩
  · exact ⟨rfl, quiet_line rfl⟩

/-- A history of the DAO that `new` makes of a list of members, from the state in which keystores can be submitted. -/
theorem exists_ready_history (members : List AccountId) (es : List Event) (p : List Step × KeystoreDao → Bool)
    (h : ((new daoOwner daoInit members daoMpc).toOption.bind fun d =>
      replay (next upToDate daoSelf) d.ready es).any p = true) :
    ∃ tr tr' d, History upToDate daoSelf daoOwner daoInit members daoMpc (tr ++ tr') d ∧
      (∀ t ∈ tr, t.event.call.isOther = true ∧ t.out.Quiet) ∧ p (tr', d) = true := by
  obtain ⟨⟨tr', d⟩, hr, hp⟩ := (Option.any_eq_true p _).mp h
  obtain ⟨d₀, hnew, hr⟩ := Option.bind_eq_some_iff.mp hr
  have hnew := toOption_eq_some.mp hnew
  have hfields : d₀.ownerId = daoOwner ∧ d₀.collaterals = [] ∧ d₀.approvedMeasurements = [] := by
    simp only [new, bind_eq_ok, pure_eq_ok] at hnew
    obtain ⟨_, -, rfl⟩ := hnew
    exact ⟨rfl, rfl, rfl⟩
  obtain ⟨tr, hready, hsetUp⟩ := ready_run hfields.1 hfields.2.1 hfields.2.2
  exact ⟨tr, tr', d, ⟨d₀, hnew, hready.append (run_of_replay hr)⟩, hsetUp, hp⟩

/-- The init account submits the key. -/
def submission : Event := sentBy daoInit (.submitKeystoreRegistration (.ed25519 keystoreKey) "00" none)

end KeystoreDao

end Outlayer
