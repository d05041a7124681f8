import Outlayer.KeystoreDao.Correctness.Ballots
import Outlayer.KeystoreDao.Correctness.Threshold

/-!
# `KeystoreDao.Correctness.Decisions` — a proposal everybody has voted on

The tally of a proposal is taken when a vote arrives, and a member votes once. A tally that is undecided leaves a
member who has not voted, so a proposal stays open to somebody as long as the members stay. Taking away the one member
who has not voted is where it ends: everybody left has voted, nobody can vote again, and the proposal is pending for
good. The votes on a version of the vault differ, a member may vote there again after the membership has changed.
-/

namespace Outlayer
open Checked Collections Runs

namespace KeystoreDao

/-- The status of a proposal of either kind. -/
def HasStatus (d : KeystoreDao) (id : Nat) (s : ProposalStatus) : Prop :=
  (d.proposals.lookup id).map (·.status) = some s ∨ (d.revokeProposals.lookup id).map (·.status) = some s

instance (d : KeystoreDao) (id : Nat) (s : ProposalStatus) : Decidable (d.HasStatus id s) :=
  inferInstanceAs (Decidable (_ ∨ _))

/-- A proposal every member has voted on is executed or rejected. -/
def Decided (d : KeystoreDao) : Prop :=
  ∀ id s, d.HasStatus id s → (∀ m ∈ d.daoMembers, d.votes.lookup (id, m) ≠ none) → s = .executed ∨ s = .rejected

/-- Of the members, only `m` has not voted. -/
def LastToVote (d : KeystoreDao) (id : Nat) (m : AccountId) : Prop :=
  m ∈ d.daoMembers ∧ d.votes.lookup (id, m) = none ∧
    ∀ m' ∈ d.daoMembers.elems, m' ≠ m → d.votes.lookup (id, m') ≠ none

instance (d : KeystoreDao) (id : Nat) (m : AccountId) : Decidable (d.LastToVote id m) :=
  inferInstanceAs (Decidable (_ ∧ _ ∧ _))

/-- Nobody is removed who is the last to vote on a proposal that is not decided. -/
def NoLastRemoved (t : Step) : Prop :=
  ∀ m id, t.event.call = .removeDaoMember m → t.pre.HasStatus id .pending → ¬ t.pre.LastToVote id m

/-! ## Tallies -/

/-- When everybody has voted, the votes for and those against are as many as there are members. -/
theorem votesOf_add {d : KeystoreDao} {id : Nat} (hall : ∀ m ∈ d.daoMembers, d.votes.lookup (id, m) ≠ none) :
    d.daoMembers.elems.length ≤ d.votesOf id true + d.votesOf id false := by
  have hsplit := List.length_eq_countP_add_countP (l := d.daoMembers.elems)
    (p := fun m => decide (d.votes.lookup (id, m) = some true))
  have hfalse : d.daoMembers.elems.countP
      (fun m => decide ¬(decide (d.votes.lookup (id, m) = some true)) = true) ≤ d.votesOf id false := by
    refine List.countP_mono_left fun m hm hnot => ?_
    obtain ⟨b, hb⟩ := Option.ne_none_iff_exists'.mp (hall m hm)
    cases b with
    | true => simp [hb] at hnot
    | false => simp [hb]
  unfold votesOf at hfalse ⊢
  omega

/-- **An undecided tally** leaves a member who has not voted. -/
theorem exists_not_voted {d : KeystoreDao} {id votes : Nat} (h : tally d id = .ok (.undecided votes)) :
    ∃ m ∈ d.daoMembers, d.votes.lookup (id, m) = none := by
  by_contra hnone
  have hall : ∀ m ∈ d.daoMembers, d.votes.lookup (id, m) ≠ none := fun m hm hv => hnone ⟨m, hm, hv⟩
  have hvotes := votesOf_add hall
  have hcast : asU32 d.daoMembers.elems.length ≤ d.daoMembers.elems.length := Nat.mod_le _ _
  rcases tally_eq_ok h with ⟨-, hcarried⟩ | ⟨hfor, hle, ⟨-, hrejected⟩ | ⟨hagainst, -⟩⟩
  · cases hcarried
  · cases hrejected
  · omega

/-- What can be said of the status of a proposal: it is decided, or it is pending and some member can still vote. -/
def InHand (d : KeystoreDao) (id : Nat) (s : ProposalStatus) : Prop :=
  s = .executed ∨ s = .rejected ∨ s = .pending ∧ ∃ m ∈ d.daoMembers, d.votes.lookup (id, m) = none

/-! ## Votes on a proposal -/

section Votes
variable {env : Env} {d d' : KeystoreDao} {id : Nat} {approve : Bool} {o : Outcome} {s : ProposalStatus}

/-- A vote is on record for its own proposal only. -/
theorem withVote_lookup_ne {id' : Nat} (hne : id' ≠ id) (m : AccountId) :
    (withVote env d id approve).votes.lookup (id', m) = d.votes.lookup (id', m) :=
  AList.lookup_insert_ne fun heq => hne (Prod.mk.inj heq).1

/-- The other proposals are as they were. -/
theorem InHand.withVote {id' : Nat} (hne : id' ≠ id) (h : d.InHand id' s) :
    (withVote env d id approve).InHand id' s := by
  rcases h with hexecuted | hrejected | ⟨hpending, m, hm, hnone⟩
  · exact Or.inl hexecuted
  · exact Or.inr (Or.inl hrejected)
  · exact Or.inr (Or.inr ⟨hpending, m, hm, (withVote_lookup_ne hne m).trans hnone⟩)

theorem RegistrationVote.inHand {p : KeystoreProposal} (h : RegistrationVote env d id approve p d' o)
    (kind : d.revokeProposals.lookup id = none) (pending : p.status = .pending) (hs : d'.HasStatus id s) :
    d'.InHand id s := by
  cases h with
  | carried votesFor votesAgainst votes tallied =>
      simp only [HasStatus, KeystoreDao.withVote, AList.lookup_insert, kind] at hs
      rcases hs with hs | hs
      · exact Or.inl (Option.some.inj hs).symm
      · cases hs
  | rejected votesFor votesAgainst votes tallied =>
      simp only [HasStatus, KeystoreDao.withVote, AList.lookup_insert, kind] at hs
      rcases hs with hs | hs
      · exact Or.inr (Or.inl (Option.some.inj hs).symm)
      · cases hs
  | undecided votesFor votesAgainst votes tallied =>
      simp only [HasStatus, KeystoreDao.withVote, AList.lookup_insert, kind] at hs
      rcases hs with hs | hs
      · exact Or.inr (Or.inr ⟨(Option.some.inj hs).symm.trans pending, exists_not_voted tallied⟩)
      · cases hs

theorem RevocationVote.inHand {p : RevokeKeysProposal} (h : RevocationVote env d id approve p d' o)
    (kind : d.proposals.lookup id = none) (pending : p.status = .pending) (hs : d'.HasStatus id s) :
    d'.InHand id s := by
  cases h with
  | carried votesFor votesAgainst votes approved revoked gone tallied result =>
      simp only [HasStatus, KeystoreDao.withVote, AList.lookup_insert, kind] at hs
      rcases hs with hs | hs
      · cases hs
      · exact Or.inl (Option.some.inj hs).symm
  | rejected votesFor votesAgainst votes tallied =>
      simp only [HasStatus, KeystoreDao.withVote, AList.lookup_insert, kind] at hs
      rcases hs with hs | hs
      · cases hs
      · exact Or.inr (Or.inl (Option.some.inj hs).symm)
  | undecided votesFor votesAgainst votes tallied =>
      simp only [HasStatus, KeystoreDao.withVote, AList.lookup_insert, kind] at hs
      rcases hs with hs | hs
      · cases hs
      · exact Or.inr (Or.inr ⟨(Option.some.inj hs).symm.trans pending, exists_not_voted tallied⟩)

end Votes

/-! ## Invariant -/

/-- There are members, and every proposal is decided or open to one of them. -/
structure Open (d : KeystoreDao) : Prop where
  ids : d.Ids
  nonempty : d.daoMembers.elems ≠ []
  inHand : ∀ id s, d.HasStatus id s → d.InHand id s

theorem Open.decided {d : KeystoreDao} (h : d.Open) : d.Decided := by
  intro id s hs hall
  rcases h.inHand id s hs with hexecuted | hrejected | ⟨-, m, hm, hnone⟩
  · exact Or.inl hexecuted
  · exact Or.inr hrejected
  · exact absurd hnone (hall m hm)

theorem Ids.lt_of_status {d : KeystoreDao} {id : Nat} {s : ProposalStatus} (h : d.Ids) (hs : d.HasStatus id s) :
    id < d.nextProposalId := by
  rcases hs with hp | hp
  · obtain ⟨p, hp, -⟩ := Option.map_eq_some_iff.mp hp
    exact h.proposals id p hp
  · obtain ⟨p, hp, -⟩ := Option.map_eq_some_iff.mp hp
    exact h.revocations id p hp

section Steps
variable {current : AccountId} {env : Env} {d d' : KeystoreDao} {call : Call} {o : Outcome}

/-- A removal leaves a proposal open, when who is removed was not the last to vote. -/
theorem exists_not_voted_of_remove {m m₀ : AccountId} {id : Nat} (hm₀ : m₀ ∈ d.daoMembers)
    (hnone : d.votes.lookup (id, m₀) = none) (hlast : ¬ d.LastToVote id m) :
    ∃ m' ∈ d.daoMembers.remove m, d.votes.lookup (id, m') = none := by
  by_cases heq : m₀ = m
  · subst heq
    by_contra hno
    refine hlast ⟨hm₀, hnone, ?_⟩
    intro m' hm' hne hnone'
    exact hno ⟨m', UnorderedSet.mem_remove.mpr ⟨hne, hm'⟩, hnone'⟩
  · exact ⟨m₀, UnorderedSet.mem_remove.mpr ⟨heq, hm₀⟩, hnone⟩

theorem Move.inHand (h : Move current env d call d' o) (hpre : d.Open)
    (hlast : ∀ m id, call = .removeDaoMember m → d.HasStatus id .pending → ¬ d.LastToVote id m) {id : Nat}
    {s : ProposalStatus} (hs : d'.HasStatus id s) : d'.InHand id s := by
  cases h with
  | submit k quote appId m o fresh quiet =>
      by_cases hid : id = d.nextProposalId
      · -- a new proposal is open to every member, and there is one
        subst hid
        simp only [HasStatus, AList.lookup_insert, hpre.ids.fresh.2.1] at hs
        obtain ⟨m, hm⟩ := List.exists_mem_of_ne_nil _ hpre.nonempty
        rcases hs with hs | hs
        · exact Or.inr (Or.inr ⟨(Option.some.inj hs).symm, m, hm, hpre.ids.fresh.2.2 m⟩)
        · cases hs
      · simp only [HasStatus, AList.lookup_insert_ne hid] at hs
        exact hpre.inHand id s hs
  | vote id' approve p d' o member kind found pending first result =>
      by_cases hid : id = id'
      · subst hid
        exact result.inHand kind pending hs
      · obtain ⟨votesFor, votesAgainst, status, ks, rfl⟩ := result.frame
        simp only [HasStatus, AList.lookup_insert_ne hid] at hs
        exact (hpre.inHand id s hs).withVote hid
  | voteRevoke id' approve p d' o member found pending first result =>
      by_cases hid : id = id'
      · subst hid
        have hkind : d.proposals.lookup id = none :=
          (hpre.ids.apart id).resolve_right fun hnone => absurd (hnone.symm.trans found) nofun
        exact result.inHand hkind pending hs
      · obtain ⟨votesFor, votesAgainst, status, ks, rfl⟩ := result.frame
        simp only [HasStatus, AList.lookup_insert_ne hid] at hs
        exact (hpre.inHand id s hs).withVote hid
  | propose ks d₁ d' o o' p member keys pending made first result outcome =>
      subst made
      by_cases hid : id = d.nextProposalId
      · subst hid
        exact result.inHand hpre.ids.fresh.1 pending hs
      · obtain ⟨votesFor, votesAgainst, status, ks', rfl⟩ := result.frame
        simp only [HasStatus, AList.lookup_insert_ne hid] at hs
        exact (hpre.inHand id s hs).withVote hid
  | addMember m =>
      rcases hpre.inHand id s hs with hexecuted | hrejected | ⟨hpending, m', hm', hnone⟩
      · exact Or.inl hexecuted
      · exact Or.inr (Or.inl hrejected)
      · exact Or.inr (Or.inr ⟨hpending, m', UnorderedSet.mem_insert.mpr (Or.inr hm'), hnone⟩)
  | removeMember m left =>
      rcases hpre.inHand id s hs with hexecuted | hrejected | ⟨rfl, m', hm', hnone⟩
      · exact Or.inl hexecuted
      · exact Or.inr (Or.inl hrejected)
      · exact Or.inr (Or.inr ⟨rfl, exists_not_voted_of_remove hm' hnone (hlast m id rfl hs)⟩)
  | _ => exact hpre.inHand id s hs

end Steps

theorem open_step {A : Attestation} {current : AccountId} {t : Step} (h : Fires (next A current) t)
    (hlast : NoLastRemoved t) (hpre : t.pre.Open) : t.post.Open where
  ids := ids_step h hpre.ids
  nonempty := by
    rcases (step_move h).members with ⟨hmembers, -⟩ | ⟨-, hnonempty⟩
    · rw [hmembers]
      exact hpre.nonempty
    · exact hnonempty
  inHand := fun _ _ hs => (step_move h).inHand hpre hlast hs

theorem open_new {ownerId initAccountId mpcContractId : AccountId} {members : List AccountId} {d : KeystoreDao}
    (h : new ownerId initAccountId members mpcContractId = .ok d) : d.Open where
  ids := ids_new h
  nonempty := by
    obtain ⟨hne, hmembers, -⟩ := new_eq_ok h
    obtain ⟨m, hm⟩ := List.exists_mem_of_ne_nil members hne
    rw [hmembers]
    exact List.ne_nil_of_mem (UnorderedSet.mem_def.mp (mem_foldl_insert.mpr (Or.inl hm)))
  inHand := by
    simp only [new, bind_eq_ok, pure_eq_ok] at h
    obtain ⟨_, -, rfl⟩ := h
    rintro id s (hnone | hnone)
    · cases hnone
    · cases hnone

/-- **Decisions.** In every history in which nobody is removed who is the last to vote on a proposal that is not
    decided, a proposal every member has voted on is executed or rejected. -/
theorem proposals_decided {A : Attestation} {current ownerId initAccountId mpcContractId : AccountId}
    {members : List AccountId} {tr : List Step} {d : KeystoreDao}
    (history : History A current ownerId initAccountId members mpcContractId tr d)
    (removals : ∀ t ∈ tr, NoLastRemoved t) : d.Decided := by
  obtain ⟨d₀, hnew, hrun⟩ := history
  have hopen := hrun.invariant_of (I := Open) (C := NoLastRemoved) (open_new hnew)
    (fun t hf hlast hpre => open_step hf hlast hpre) removals
  exact hopen.decided

/-! ## Removals in `dao.near` -/

/-- The removal of a member. -/
def Call.isRemoveMember : Call → Bool
  | .removeDaoMember _ => true
  | _                  => false

/-- The condition of `NoLastRemoved`, for the ids there are. -/
def noLastRemoved (t : Step) : Bool :=
  match t.event.call with
  | .removeDaoMember m =>
      decide (∀ id < t.pre.nextProposalId, t.pre.HasStatus id .pending → ¬ t.pre.LastToVote id m)
  | _ => true

theorem noLastRemoved_of_test {t : Step} (hids : t.pre.Ids) (h : noLastRemoved t = true) : NoLastRemoved t := by
  intro m id hcall hpending
  unfold noLastRemoved at h
  rw [hcall] at h
  exact of_decide_eq_true h id (hids.lt_of_status hpending) hpending

/-- One of three members is removed while a proposal is open to two of them, and the last one carries it. -/
theorem decided_after_removal : ∃ tr d,
    History upToDate daoSelf daoOwner daoInit [memberA, memberB, memberC] daoMpc tr d ∧
      (∃ t ∈ tr, t.event.call.isRemoveMember = true ∧ t.pre.HasStatus 1 .pending) ∧ d.HasStatus 1 .executed ∧
        d.Decided := by
  obtain ⟨tr, tr', d, h, hsetUp, hp⟩ := exists_ready_history [memberA, memberB, memberC]
    [submission, sentBy memberA (.vote 1 true), sentBy daoOwner (.removeDaoMember memberB),
     sentBy memberC (.vote 1 true)]
    (fun p => p.1.all noLastRemoved &&
      decide ((∃ t ∈ p.1, t.event.call.isRemoveMember = true ∧ t.pre.HasStatus 1 .pending) ∧
        p.2.HasStatus 1 .executed)) (by decide +kernel)
  obtain ⟨htest, hrest⟩ := (Bool.and_eq_true _ _).mp hp
  obtain ⟨⟨t, ht, hremoval⟩, hexecuted⟩ := of_decide_eq_true hrest
  refine ⟨tr ++ tr', d, h, ⟨t, List.mem_append_right tr ht, hremoval⟩, hexecuted, proposals_decided h ?_⟩
  intro u hu
  rcases List.mem_append.mp hu with hu | hu
  · intro m id hcall
    have hother := (hsetUp u hu).1
    rw [hcall] at hother
    cases hother
  · obtain ⟨d₀, hnew, hrun⟩ := h
    have hids := (hrun.stays (ids_new hnew) (fun _ hf => ids_step hf) (List.mem_append_right tr hu)).1
    exact noLastRemoved_of_test hids (List.all_eq_true.mp htest u hu)

/-- One of two members votes for a keystore, and the other one is removed: the one who is left has voted and the
    proposal is pending. The vote that would carry it is refused. -/
theorem undecided_after_removal : ∃ tr d,
    History upToDate daoSelf daoOwner daoInit [memberA, memberB] daoMpc tr d ∧ d.daoMembers.elems = [memberA] ∧
      d.votes.lookup (1, memberA) = some true ∧ d.HasStatus 1 .pending ∧
        next upToDate daoSelf d (sentBy memberA (.vote 1 true)) = none ∧ ¬ d.Decided := by
  obtain ⟨tr, tr', d, h, -, hp⟩ := exists_ready_history [memberA, memberB]
    [submission, sentBy memberA (.vote 1 true), sentBy daoOwner (.removeDaoMember memberB)]
    (fun p => decide (p.2.daoMembers.elems = [memberA] ∧ p.2.votes.lookup (1, memberA) = some true ∧
        p.2.HasStatus 1 .pending) && (next upToDate daoSelf p.2 (sentBy memberA (.vote 1 true))).isNone)
    (by decide +kernel)
  obtain ⟨hstate, hrefused⟩ := (Bool.and_eq_true _ _).mp hp
  obtain ⟨hmembers, hvoted, hpending⟩ := of_decide_eq_true hstate
  refine ⟨tr ++ tr', d, h, hmembers, hvoted, hpending, Option.isNone_iff_eq_none.mp hrefused, ?_⟩
  intro hdecided
  have hall : ∀ m ∈ d.daoMembers, d.votes.lookup (1, m) ≠ none := by
    intro m hm
    rw [UnorderedSet.mem_def, hmembers] at hm
    rw [List.mem_singleton.mp hm, hvoted]
    exact Option.some_ne_none true
  rcases hdecided 1 .pending hpending hall with hs | hs
  · cases hs
  · cases hs

end KeystoreDao

end Outlayer
