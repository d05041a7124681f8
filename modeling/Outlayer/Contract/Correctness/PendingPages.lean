import Outlayer.Contract.LedgerSteps
import Outlayer.Contract.Replay
import Outlayer.Contract.Views
import Mathlib.Data.List.Sort

/-!
# `Contract.Correctness.PendingPages` — a page of pending ids is a cut of their list

The view walks over every id that was ever handed out, in order, and keeps the pending ones from `from` on until
the page is full. The test for a full page comes after the push, so the page holds what was asked for as soon as
that is one id or more; asked for none, it holds one all the same.
-/

namespace Outlayer
open Collections Runs

/-! ## The loop -/

/-- The pending ids among `ids`. -/
def pendingAmong (pending : LookupMap Nat ExecutionRequest) (ids : List Nat) : List Nat :=
  ids.filter fun id => (pending.lookup id).isSome

/-- The page takes what is left of its size, of what is left after the ids still to skip. The size counts as one
    where none was asked for. -/
theorem pendingIdsLoop_eq (pending : LookupMap Nat ExecutionRequest) (from_ maxLimit : Nat) :
    ∀ (ids : List Nat) (skipped : Nat) (result : List Nat), result.length < max maxLimit 1 →
      pendingIdsLoop pending from_ maxLimit ids skipped result =
        result ++ ((pendingAmong pending ids).drop (from_ - skipped)).take (max maxLimit 1 - result.length) := by
  intro ids
  induction ids with
  | nil =>
      intro skipped result _
      simp [pendingIdsLoop, pendingAmong]
  | cons id rest ih =>
      intro skipped result hroom
      cases hid : (pending.lookup id).isSome with
      | false =>
          rw [show pendingAmong pending (id :: rest) = pendingAmong pending rest by simp [pendingAmong, hid]]
          simpa [pendingIdsLoop, hid] using ih skipped result hroom
      | true =>
          rw [show pendingAmong pending (id :: rest) = id :: pendingAmong pending rest by
            simp [pendingAmong, hid]]
          by_cases hskip : skipped < from_
          · have hleft : from_ - skipped = from_ - (skipped + 1) + 1 := by omega
            rw [hleft, List.drop_succ_cons, ← ih (skipped + 1) result hroom]
            simp [pendingIdsLoop, hid, hskip]
          · have hnone : from_ - skipped = 0 := by omega
            obtain ⟨room, hsize⟩ : ∃ room, max maxLimit 1 - result.length = room + 1 :=
              ⟨max maxLimit 1 - result.length - 1, by omega⟩
            rw [hnone, List.drop_zero, hsize, List.take_succ_cons]
            by_cases hfull : maxLimit ≤ (result ++ [id]).length
            · -- the page is full now: nothing is left of its size
              have hroom : room = 0 := by
                rw [List.length_append, List.length_singleton] at hfull
                omega
              rw [hroom, List.take_zero, pendingIdsLoop, if_pos hid, if_neg hskip, if_pos hfull]
            · have hroom' : (result ++ [id]).length < max maxLimit 1 := by omega
              have hleft : max maxLimit 1 - (result ++ [id]).length = room := by
                rw [List.length_append, List.length_singleton]
                omega
              have hrest := ih skipped (result ++ [id]) hroom'
              rw [hnone, List.drop_zero, hleft, List.append_assoc, List.singleton_append] at hrest
              rw [pendingIdsLoop, if_pos hid, if_neg hskip, if_neg hfull, hrest]

/-! ## The list of all pending ids -/

/-- The ids that are pending, each once and from the lowest up. -/
def Ledger.PendingIds (l : Ledger) (ids : List Nat) : Prop :=
  ids.Pairwise (· < ·) ∧ ∀ id, id ∈ ids ↔ id ∈ l.pendingRequests

/-- Where every pending id was handed out, the walk over the ids meets exactly these. -/
theorem pendingIds_walk {l : Ledger} (hids : ∀ id ∈ l.pendingRequests, id < l.nextRequestId) :
    l.PendingIds (pendingAmong l.pendingRequests (List.range l.nextRequestId)) := by
  refine ⟨List.pairwise_lt_range.filter _, fun id => ?_⟩
  rw [pendingAmong, List.mem_filter, List.mem_range, AList.lookup_isSome]
  exact and_iff_right_of_imp (hids id)

theorem Ledger.PendingIds.unique {l : Ledger} {ids ids' : List Nat} (h : l.PendingIds ids)
    (h' : l.PendingIds ids') : ids = ids' := by
  have hmem : ∀ id, id ∈ ids ↔ id ∈ ids' := fun id => (h.2 id).trans (h'.2 id).symm
  have hperm : ids.Perm ids' :=
    (List.perm_ext_iff_of_nodup (h.1.imp Nat.ne_of_lt) (h'.1.imp Nat.ne_of_lt)).mpr hmem
  exact hperm.eq_of_pairwise (fun a b _ _ hab hba => absurd hab (Nat.lt_asymm hba)) h.1 h'.1

/-- The page, from the list of all pending ids. -/
theorem getPendingRequestIds_eq {l : Ledger} {ids : List Nat} (hids : l.PendingIds ids)
    (hnext : ∀ id ∈ l.pendingRequests, id < l.nextRequestId) (fromIndex limit : Option Nat) :
    getPendingRequestIds l fromIndex limit =
      (ids.drop (fromIndex.getD 0)).take (max (limit.getD 100) 1) := by
  have hloop := pendingIdsLoop_eq l.pendingRequests (fromIndex.getD 0) (limit.getD 100)
    (List.range l.nextRequestId) 0 [] (by rw [List.length_nil]; omega)
  rw [(pendingIds_walk hnext).unique hids] at hloop
  exact hloop

/-- Pages of one size, one after the other, are the list from its start. -/
theorem pages_tile {α : Type} (xs : List α) (size : Nat) :
    ∀ n, (List.range n).flatMap (fun page => (xs.drop (page * size)).take size) = xs.take (n * size) := by
  intro n
  induction n with
  | zero => simp
  | succ n ih =>
      rw [List.range_succ, List.flatMap_append, ih, List.flatMap_singleton, Nat.succ_mul, List.take_add]

/-- **Pages of pending ids.** In every reachable world, for every start and every size, the page is exactly the
    cut of the list of all pending ids if and only if an id was asked for or none is left to give; and pages of a
    size of at least one tile the list. -/
theorem pending_page_exact_iff {H : Host} {owner : AccountId} {operator : Option AccountId}
    {standard version : Option String} {tr : List Step} {w : World}
    (h : World.History H owner operator standard version tr w) {ids : List Nat}
    (hids : w.contract.toLedger.PendingIds ids) :
    (∀ fromIndex limit : Option Nat,
      getPendingRequestIds w.contract.toLedger fromIndex limit =
          (ids.drop (fromIndex.getD 0)).take (limit.getD 100) ↔
        limit.getD 100 ≠ 0 ∨ ids.length ≤ fromIndex.getD 0) ∧
    (∀ size pages : Nat, 0 < size →
      (List.range pages).flatMap (fun page =>
          getPendingRequestIds w.contract.toLedger (some (page * size)) (some size)) =
        ids.take (pages * size)) := by
  have hnext : ∀ id ∈ w.contract.pendingRequests, id < w.contract.nextRequestId := by
    intro id hid
    obtain ⟨r, hr⟩ := LookupMap.mem_iff_lookup.mp hid
    exact (ledgerInv_history h).lt_next hr
  have hpage := getPendingRequestIds_eq hids hnext
  constructor
  · intro fromIndex limit
    rw [hpage]
    by_cases hlimit : limit.getD 100 = 0
    · rw [hlimit, show max 0 1 = 1 from rfl, List.take_zero, List.take_eq_nil_iff, List.drop_eq_nil_iff]
      simp
    · rw [Nat.max_eq_left (Nat.one_le_iff_ne_zero.mpr hlimit)]
      exact iff_of_true rfl (Or.inl hlimit)
  · intro size pages hsize
    rw [← pages_tile ids size pages]
    congr 1
    funext page
    rw [hpage, Option.getD_some, Option.getD_some, Nat.max_eq_left hsize]

/-- Bob's requests 0 and 1 are admitted and the first one is cancelled: a hole is left. -/
def requestsWithHole : List Event :=
  [callBy bobAccount (.requestExecution { source := .gitHub "alice/app" "main" none }) (10 ^ 21) 0 1,
   callBy bobAccount (.requestExecution { source := .gitHub "alice/app" "main" none }) (10 ^ 21) 0 2,
   callBy ownerAccount (.cancelPendingRequests [0]),
   callBy bobAccount (.requestExecution { source := .gitHub "alice/app" "main" none }) (10 ^ 21) 0 3]

/-- Requests 1 and 2 are pending: the pages of one id are theirs. -/
theorem pages_over_a_hole : ∃ tr w, World.History asciiHost ownerAccount none none none tr w ∧
    w.contract.toLedger.PendingIds [1, 2] ∧
    getPendingRequestIds w.contract.toLedger (some 1) (some 1) = [2] := by
  obtain ⟨tr, w, h, hp⟩ := exists_history requestsWithHole
    (fun x => decide (pendingAmong x.2.contract.pendingRequests (List.range x.2.contract.nextRequestId) = [1, 2]))
    (by decide +kernel)
  have hids : w.contract.toLedger.PendingIds [1, 2] := by
    rw [← of_decide_eq_true hp]
    apply pendingIds_walk
    intro id hid
    obtain ⟨r, hr⟩ := LookupMap.mem_iff_lookup.mp hid
    exact (ledgerInv_history h).lt_next hr
  exact ⟨tr, w, h, hids, ((pending_page_exact_iff h hids).1 (some 1) (some 1)).mpr (Or.inl (by decide))⟩

/-- Asked for no id at all, the view gives one. -/
theorem empty_page_holds_an_id : ∃ tr w ids, World.History asciiHost ownerAccount none none none tr w ∧
    w.contract.toLedger.PendingIds ids ∧
    getPendingRequestIds w.contract.toLedger (some 0) (some 0) ≠ (ids.drop 0).take 0 := by
  obtain ⟨tr, w, h, hp⟩ := exists_history requestsWithHole
    (fun x => decide (getPendingRequestIds x.2.contract.toLedger (some 0) (some 0) = [1])) (by decide +kernel)
  refine ⟨tr, w, _, h, pendingIds_walk ?_, ?_⟩
  · intro id hid
    obtain ⟨r, hr⟩ := LookupMap.mem_iff_lookup.mp hid
    exact (ledgerInv_history h).lt_next hr
  · rw [of_decide_eq_true hp]
    nofun

end Outlayer
