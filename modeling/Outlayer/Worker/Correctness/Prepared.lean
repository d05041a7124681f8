import Outlayer.Lib.Keyed
import Outlayer.Worker.Correctness.Sentences
import Outlayer.Worker.Tasks.Host

/-!
# `Worker.Correctness.Prepared` — the list of the tasks a caller prepared

A row is asked for by its owner, and the store by project and owner. So the list is put together owner by owner, in the
order of the rows, and an owner of two rows is asked for twice. It has every task once exactly when no such owner has
one. Then the one row under which a task is found is the row under which it is listed.
-/

namespace Outlayer
open Text

namespace Worker
namespace Tasks
open Wit

variable {Key Secret Point Shared : Type}

/-! ## Rows -/

namespace Ready

/-- The run's facts with the row `at_` in place of the first. -/
def rowAt (ready : Ready Key) : Option Nat → Ready Key
  | none     => ready
  | some at_ => ready.swapRow at_

/-- The owners of the rows, in order. -/
def owners (ready : Ready Key) : List String := ready.scope.owner :: ready.others.map RowGrant.owner

/-- The rows, as they are asked for. -/
def rows (ready : Ready Key) : List (Option Nat) := none :: (List.range ready.others.length).map some

theorem swapRow_of_none {ready : Ready Key} {i : Nat} (h : ready.others[i]? = none) : ready.swapRow i = ready := by
  unfold swapRow
  rw [h]

theorem swapRow_of_some {ready : Ready Key} {i : Nat} {row : RowGrant Key} (h : ready.others[i]? = some row) :
    ready.swapRow i =
      { ready with
        scope := { ready.scope with owner := row.owner }
        profile := row.profile
        grant := row.grant
        others := ready.others.set i ⟨ready.scope.owner, ready.profile, ready.grant⟩ } := by
  unfold swapRow
  rw [h]

/-- The first row is put back. -/
theorem swapRow_swapRow (ready : Ready Key) (i : Nat) : (ready.swapRow i).swapRow i = ready := by
  cases hrow : ready.others[i]? with
  | none => rw [swapRow_of_none hrow, swapRow_of_none hrow]
  | some row =>
      obtain ⟨hlt, hget⟩ := List.getElem?_eq_some_iff.mp hrow
      have hput : (ready.others.set i ⟨ready.scope.owner, ready.profile, ready.grant⟩)[i]? =
          some ⟨ready.scope.owner, ready.profile, ready.grant⟩ := List.getElem?_set_self hlt
      have hback : ready.others.set i row = ready.others := by rw [← hget, List.set_getElem_self]
      rw [swapRow_of_some hrow, swapRow_of_some hput]
      simp [hback]

/-- Project, caller and store are the same under every row. -/
theorem rowAt_same (ready : Ready Key) (at_ : Option Nat) :
    (ready.rowAt at_).scope.projectUuid = ready.scope.projectUuid ∧ (ready.rowAt at_).caller = ready.caller ∧
      (ready.rowAt at_).store = ready.store := by
  cases at_ with
  | none => exact ⟨rfl, rfl, rfl⟩
  | some i =>
      unfold rowAt
      cases hrow : ready.others[i]? with
      | none     => simp [swapRow_of_none hrow]
      | some row => simp [swapRow_of_some hrow]

@[simp] theorem rowAt_caller (ready : Ready Key) (at_ : Option Nat) : (ready.rowAt at_).caller = ready.caller :=
  (ready.rowAt_same at_).2.1

@[simp] theorem rowAt_store (ready : Ready Key) (at_ : Option Nat) : (ready.rowAt at_).store = ready.store :=
  (ready.rowAt_same at_).2.2

theorem rowAt_scope (ready : Ready Key) (at_ : Option Nat) :
    (ready.rowAt at_).scope = ⟨ready.scope.projectUuid, (ready.rowAt at_).scope.owner⟩ := by
  rw [← (ready.rowAt_same at_).1]

/-- The rows' owners, one for each. -/
theorem map_owner_rows (ready : Ready Key) :
    ready.rows.map (fun at_ => (ready.rowAt at_).scope.owner) = ready.owners := by
  unfold rows owners
  rw [List.map_cons, List.map_map]
  congr 1
  refine List.ext_getElem (by simp) fun i hi hi' => ?_
  have hlt : i < ready.others.length := by simpa using hi'
  simp [rowAt, swapRow, hlt]

end Ready

/-! ## Calls that read -/

namespace HostState

variable {α : Type} {s : HostState Key Point} {ready : Ready Key}

theorem withRow_read (h : s.access = .ready ready) (at_ : Option Nat) (f : Ready Key → Except Stop α) :
    withRow at_ (read f) s = (f (ready.rowAt at_), s) := by
  obtain ⟨access, calls, devices⟩ := s
  obtain rfl : access = .ready ready := h
  cases at_ with
  | none   => rfl
  | some i =>
      have hback := ready.swapRow_swapRow i
      simp [withRow, read, swapRow, Access.facts, Except.bind, Ready.rowAt, hback]

/-- The first of the answers that is not that there is none. -/
def firstFound : Except Stop α → List (Except Stop α) → Except Stop α
  | .error (.refused ⟨.notFound, _⟩), answer :: rest => firstFound answer rest
  | answer, _                                        => answer

theorem underRows_read (h : s.access = .ready ready) (f : Ready Key → Except Stop α) (rest : List Nat) :
    ∀ answer, underRows (read f) rest answer s =
      (firstFound answer (rest.map fun i => f (ready.rowAt (some i))), s) := by
  induction rest with
  | nil =>
      intro answer
      unfold underRows firstFound
      split <;> simp_all
  | cons i rest ih =>
      intro answer
      unfold underRows
      split
      · rw [withRow_read h]
        exact ih _
      · next hfound =>
          rw [firstFound.eq_def]
          split
          · next message _ _ _ => exact absurd rfl (hfound message)
          · rfl

theorem otherCount_of_ready (h : s.access = .ready ready) : s.otherCount = ready.others.length := by
  unfold otherCount
  rw [h]

theorem underAnyRow_read (h : s.access = .ready ready) (f : Ready Key → Except Stop α) :
    underAnyRow (read f) s =
      (firstFound (f ready) ((List.range ready.others.length).map fun i => f (ready.rowAt (some i))), s) := by
  unfold underAnyRow
  rw [withRow_read h, otherCount_of_ready h]
  exact underRows_read h f _ _

/-- The loop of the list, where every row has its answer. -/
theorem mineUnder_read (C : Crates Key Secret Point Shared) (h : s.access = .ready ready)
    (outcomes : Option Nat → List Wit.Outcome) (ats : List (Option Nat)) :
    (∀ at_ ∈ ats, listed C (ready.rowAt at_) = .ok (outcomes at_)) →
      ∀ all, mineUnder C ats all s = (.ok (all ++ ats.flatMap outcomes), s) := by
  induction ats with
  | nil =>
      intro _ all
      simp [mineUnder]
  | cons at_ rest ih =>
      intro hlisted all
      unfold mineUnder
      rw [withRow_read h, hlisted at_ List.mem_cons_self]
      simp only
      rw [ih (fun a ha => hlisted a (List.mem_cons_of_mem _ ha)), List.flatMap_cons, List.append_assoc]

theorem enter_of_ready (h : s.access = .ready ready) (hcalls : s.calls < maxCallsPerRun) :
    enter s = (.ok ready, { s with calls := s.calls + 1 }) := by
  unfold maxCallsPerRun at hcalls
  have hmin : min (s.calls + 1) (2 ^ 32 - 1) = s.calls + 1 := by omega
  have hfew : ¬ s.calls + 1 > maxCallsPerRun := by
    unfold maxCallsPerRun
    omega
  unfold enter count
  rw [hmin]
  simp [hfew, h, Access.facts]

end HostState

/-! ## What is handed out of a task -/

/-- A scalar within the order is found, for every task. -/
def Crates.FindsScalars (C : Crates Key Secret Point Shared) : Prop :=
  ∀ projectKey task, (C.deriveKeys projectKey task).isSome = true

section
variable {C : Crates Key Secret Point Shared} (finds : C.FindsScalars) (ready : Ready Key)
include finds

theorem Ready.keys_ok (task : String) : ∃ keys, ready.keys C task = .ok keys := by
  obtain ⟨keys, hkeys⟩ := Option.isSome_iff_exists.mp (finds ready.grant.key task)
  exact ⟨keys, by rw [Ready.keys, hkeys]⟩

theorem Ready.reasonGiven_error {id : String} {sealed_ : List UInt8} {stop : Stop}
    (h : ready.reasonGiven C id sealed_ = .error stop) : stop = .refused unreadable := by
  obtain ⟨keys, hkeys⟩ := ready.keys_ok finds id
  unfold Ready.reasonGiven at h
  rw [hkeys] at h
  split at h
  · cases h
  · simp only [bind, Except.bind] at h
    split at h
    · exact (Except.error.inj h).symm
    · split at h
      · exact (Except.error.inj h).symm
      · split at h <;> cases h

theorem Ready.openedOutcome_error {task : Client.Prepared} {stop : Stop}
    (h : ready.openedOutcome C task = .error stop) : stop = .refused unreadable := by
  obtain ⟨keys, hkeys⟩ := ready.keys_ok finds task.id
  unfold Ready.openedOutcome at h
  rw [hkeys] at h
  cases hresult : Ready.resultGiven C keys task with
  | error stop' =>
      simp only [bind, Except.bind, hresult, Except.error.injEq] at h
      subst h
      unfold Ready.resultGiven at hresult
      split at hresult
      · cases hresult
      · split at hresult
        · exact (Except.error.inj hresult).symm
        · cases hresult
  | ok result =>
      simp only [bind, Except.bind, hresult] at h
      split at h
      · next sealed_ _ =>
          cases hreason : ready.reasonGiven C task.id sealed_ with
          | error stop' =>
              rw [hreason] at h
              rw [← Except.error.inj h]
              exact ready.reasonGiven_error finds hreason
          | ok reason =>
              rw [hreason] at h
              cases h
      · cases h

omit finds in
/-- A task in the list: with what opens beside it, or without. -/
def Ready.entry (C : Crates Key Secret Point Shared) (ready : Ready Key) (task : Client.Prepared) : Wit.Outcome :=
  Ready.outcomeWith task ((ready.openedOutcome C task).toOption.getD (none, none))

theorem Ready.outcome_theList (task : Client.Prepared) :
    ready.outcome C task .theList = .ok (ready.entry C task) := by
  unfold Ready.outcome Ready.entry
  cases hopened : ready.openedOutcome C task with
  | ok opened  => rfl
  | error stop =>
      obtain rfl := ready.openedOutcome_error finds hopened
      rfl

/-- A task asked for is its entry, unless what is beside it does not open; then the entry holds nothing of it. -/
theorem Ready.outcome_thisTask (task : Client.Prepared) :
    ready.outcome C task .thisTask = .ok (ready.entry C task) ∨
      ready.outcome C task .thisTask = .error (.refused unreadable) ∧ (ready.entry C task).result = none ∧
        (ready.entry C task).rejection = none := by
  unfold Ready.outcome Ready.entry
  cases hopened : ready.openedOutcome C task with
  | ok opened  => exact .inl rfl
  | error stop =>
      obtain rfl := ready.openedOutcome_error finds hopened
      exact .inr ⟨rfl, rfl, rfl⟩

end

/-! ## What the store keeps -/

/-- A task the caller prepared in the run's project, for the owner of one of the rows. -/
def Ready.belongs (ready : Ready Key) (k : Client.Kept) : Bool :=
  decide (k.scope.projectUuid = ready.scope.projectUuid) && decide (k.preparer = ready.caller) &&
    decide (k.scope.owner ∈ ready.owners)

/-- A task the caller prepared for the owner of one row. -/
def Ready.under (ready : Ready Key) (at_ : Option Nat) (k : Client.Kept) : Bool :=
  k.isOf (ready.rowAt at_).scope ready.caller

theorem Ready.under_iff {ready : Ready Key} {at_ : Option Nat} {k : Client.Kept} :
    ready.under at_ k = true ↔ (k.scope.projectUuid = ready.scope.projectUuid ∧ k.preparer = ready.caller) ∧
      (ready.rowAt at_).scope.owner = k.scope.owner := by
  unfold Ready.under Client.Kept.isOf
  rw [ready.rowAt_scope at_, Bool.and_eq_true, decide_eq_true_iff, decide_eq_true_iff]
  obtain ⟨⟨uuid, owner⟩, preparer, task⟩ := k
  simp only [Client.Scope.mk.injEq]
  constructor
  · rintro ⟨⟨huuid, howner⟩, hpreparer⟩
    exact ⟨⟨huuid, hpreparer⟩, howner.symm⟩
  · rintro ⟨⟨huuid, hpreparer⟩, howner⟩
    exact ⟨⟨huuid, howner.symm⟩, hpreparer⟩

theorem Ready.belongs_eq (ready : Ready Key) (k : Client.Kept) :
    ready.belongs k = ready.rows.any fun at_ => ready.under at_ k := by
  rw [Bool.eq_iff_iff, List.any_eq_true]
  unfold Ready.belongs
  rw [Bool.and_eq_true, Bool.and_eq_true, decide_eq_true_iff, decide_eq_true_iff, decide_eq_true_iff,
    ← ready.map_owner_rows, List.mem_map]
  constructor
  · rintro ⟨hmine, at_, hat, howner⟩
    exact ⟨at_, hat, Ready.under_iff.mpr ⟨hmine, howner⟩⟩
  · rintro ⟨at_, hat, hunder⟩
    obtain ⟨hmine, howner⟩ := Ready.under_iff.mp hunder
    exact ⟨hmine, at_, hat, howner⟩

/-- A task of the caller is under as many rows as its owner has. -/
theorem Ready.countP_under {ready : Ready Key} {k : Client.Kept}
    (hmine : k.scope.projectUuid = ready.scope.projectUuid ∧ k.preparer = ready.caller) :
    (ready.rows.countP fun at_ => ready.under at_ k) = ready.owners.count k.scope.owner := by
  rw [← ready.map_owner_rows, List.count, List.countP_map]
  refine List.countP_congr fun at_ _ => ?_
  rw [Ready.under_iff, Function.comp_apply, beq_iff_eq]
  exact ⟨fun h => h.2, fun h => ⟨hmine, h⟩⟩

/-- No task is under two rows exactly when the owner of every task listed has one row. -/
theorem Ready.countP_under_le_one_iff {ready : Ready Key} {content : List Client.Kept} :
    (∀ k ∈ content, (ready.rows.countP fun at_ => ready.under at_ k) ≤ 1) ↔
      ∀ k ∈ content, ready.belongs k = true → ready.owners.count k.scope.owner = 1 := by
  refine forall₂_congr fun k _ => ?_
  unfold Ready.belongs
  rw [Bool.and_eq_true, Bool.and_eq_true, decide_eq_true_iff, decide_eq_true_iff, decide_eq_true_iff]
  constructor
  · rintro hle ⟨hmine, howner⟩
    rw [Ready.countP_under hmine] at hle
    have hpos := List.count_pos_iff.mpr howner
    omega
  · intro hone
    by_cases hmine : k.scope.projectUuid = ready.scope.projectUuid ∧ k.preparer = ready.caller
    · rw [Ready.countP_under hmine]
      by_cases howner : k.scope.owner ∈ ready.owners
      · exact (hone ⟨hmine, howner⟩).le
      · rw [List.count_eq_zero.mpr howner]
        exact Nat.zero_le 1
    · refine (List.countP_eq_zero.mpr fun at_ _ hunder => ?_).trans_le (Nat.zero_le 1)
      exact hmine (Ready.under_iff.mp hunder).1

/-! ## The list -/

section
variable {C : Crates Key Secret Point Shared} {ready : Ready Key} {content : List Client.Kept}
  {s : HostState Key Point}

theorem mapM_ok {α β : Type} {f : α → Except Stop β} {g : α → β} (h : ∀ a, f a = .ok (g a)) (l : List α) :
    l.mapM f = .ok (l.map g) := by
  obtain rfl : f = fun a => .ok (g a) := funext h
  exact List.mapM_pure

/-- What a row lists: an entry for each task under it. -/
theorem listed_rowAt (finds : C.FindsScalars) (honest : Client.Honest ready.store content) (at_ : Option Nat) :
    ∃ outcomes, HostState.listed C (ready.rowAt at_) = .ok outcomes ∧
      (outcomes.map Wit.Outcome.id).Perm ((content.filter (ready.under at_)).map fun k => k.task.id) ∧
      ∀ e ∈ outcomes, ∃ k ∈ content, ready.under at_ k = true ∧ e = (ready.rowAt at_).entry C k.task := by
  obtain ⟨tasks, hmine, hperm⟩ := honest.list (ready.rowAt at_).scope ready.caller
  refine ⟨tasks.map ((ready.rowAt at_).entry C), ?_, ?_, ?_⟩
  · unfold HostState.listed
    rw [ready.rowAt_store, ready.rowAt_caller, hmine]
    exact mapM_ok ((ready.rowAt at_).outcome_theList finds) tasks
  · have hids := hperm.map Client.Prepared.id
    rw [List.map_map] at hids
    rw [List.map_map]
    exact hids
  · intro e he
    obtain ⟨task, htask, rfl⟩ := List.mem_map.mp he
    obtain ⟨k, hk, rfl⟩ := List.mem_map.mp (hperm.mem_iff.mp htask)
    obtain ⟨hk, hunder⟩ := List.mem_filter.mp hk
    exact ⟨k, hk, hunder, rfl⟩

/-- The list: the rows' lists one after the other. -/
theorem mine_eq (finds : C.FindsScalars) (honest : Client.Honest ready.store content)
    (hready : s.access = .ready ready) (hcalls : s.calls < maxCallsPerRun) :
    ∃ list, (HostState.mine C s).1 = .ok list ∧
      (list.map Wit.Outcome.id).Perm
        (ready.rows.flatMap fun at_ => (content.filter (ready.under at_)).map fun k => k.task.id) ∧
      ∀ e ∈ list, ∃ at_ ∈ ready.rows, ∃ k ∈ content,
        ready.under at_ k = true ∧ e = (ready.rowAt at_).entry C k.task := by
  choose outcomes hlisted hids hentry using listed_rowAt (C := C) finds honest
  have hready' : ({ s with calls := s.calls + 1 } : HostState Key Point).access = .ready ready := hready
  refine ⟨ready.rows.flatMap outcomes, ?_, ?_, ?_⟩
  · unfold HostState.mine
    rw [HostState.enter_of_ready hready hcalls]
    simp only
    rw [HostState.otherCount_of_ready hready',
      HostState.mineUnder_read C hready' outcomes _ (fun at_ _ => hlisted at_), List.nil_append]
    rfl
  · rw [List.map_flatMap]
    exact List.Perm.flatMap_left _ fun at_ _ => hids at_
  · intro e he
    obtain ⟨at_, hat, he⟩ := List.mem_flatMap.mp he
    obtain ⟨k, hk, hunder, rfl⟩ := hentry at_ e he
    exact ⟨at_, hat, k, hk, hunder, rfl⟩

/-! ## One task -/

/-- An answer that says there is none. -/
def NotFound {α : Type} (answer : Except Stop α) : Prop := ∃ message, answer = .error (.refused ⟨.notFound, message⟩)

theorem firstFound_of_found {α : Type} {answer : Except Stop α} (h : ¬ NotFound answer) (rest : List (Except Stop α)) :
    HostState.firstFound answer rest = answer := by
  rw [HostState.firstFound.eq_def]
  split
  · next message _ _ => exact absurd ⟨message, rfl⟩ h
  · rfl

theorem firstFound_of_notFound {α : Type} {answer : Except Stop α} (h : NotFound answer) (next : Except Stop α)
    (rest : List (Except Stop α)) :
    HostState.firstFound answer (next :: rest) = HostState.firstFound next rest := by
  obtain ⟨message, rfl⟩ := h
  rfl

/-- One answer is found, and is the only one that says anything else than that there is none. -/
theorem firstFound_eq {α : Type} {found : Except Stop α} (hfound : ¬ NotFound found) (rest : List (Except Stop α)) :
    ∀ answer, found ∈ answer :: rest → (∀ other ∈ answer :: rest, NotFound other ∨ other = found) →
      HostState.firstFound answer rest = found := by
  induction rest with
  | nil =>
      intro answer hmem _
      rw [← List.mem_singleton.mp hmem]
      exact firstFound_of_found hfound []
  | cons next rest ih =>
      intro answer hmem hothers
      rcases hothers answer List.mem_cons_self with hnone | rfl
      · rw [firstFound_of_notFound hnone]
        refine ih next ?_ fun other hother => hothers other (List.mem_cons_of_mem _ hother)
        rcases List.mem_cons.mp hmem with rfl | hrest
        · exact absurd hnone hfound
        · exact hrest
      · exact firstFound_of_found hfound _

/-- Where every answer says there is none, so does the whole. -/
theorem notFound_firstFound {α : Type} (rest : List (Except Stop α)) :
    ∀ answer, (∀ other ∈ answer :: rest, NotFound other) → NotFound (HostState.firstFound answer rest) := by
  induction rest with
  | nil =>
      intro answer hall
      have hnone := hall answer List.mem_cons_self
      rw [HostState.firstFound.eq_def]
      split
      · next heq => cases heq
      · exact hnone
  | cons next rest ih =>
      intro answer hall
      rw [firstFound_of_notFound (hall answer List.mem_cons_self)]
      exact ih next fun other hother => hall other (List.mem_cons_of_mem _ hother)

/-- A task under a row is found there. -/
theorem found_of_under (honest : Client.Honest ready.store content) {at_ : Option Nat} {k : Client.Kept}
    (hk : k ∈ content) (hunder : ready.under at_ k = true) :
    HostState.found C k.task.id (ready.rowAt at_) = (ready.rowAt at_).outcome C k.task .thisTask := by
  have hof := hunder
  unfold Ready.under Client.Kept.isOf at hof
  rw [Bool.and_eq_true, decide_eq_true_iff, decide_eq_true_iff] at hof
  have hone := honest.one k hk
  rw [hof.1, hof.2] at hone
  unfold HostState.found
  rw [ready.rowAt_store, ready.rowAt_caller, hone]
  simp

/-- Where no task of the id is under a row, none is found there. -/
theorem notFound_of_absent (honest : Client.Honest ready.store content) {at_ : Option Nat} {id : String}
    (h : ∀ k ∈ content, ready.under at_ k = true → k.task.id ≠ id) :
    NotFound (HostState.found C id (ready.rowAt at_)) := by
  obtain ⟨found, hmine⟩ := honest.absent (ready.rowAt at_).scope ready.caller id h
  refine ⟨"no such task", ?_⟩
  unfold HostState.found
  rw [ready.rowAt_store, ready.rowAt_caller, hmine]
  rfl

theorem status_eq (hready : s.access = .ready ready) (hcalls : s.calls < maxCallsPerRun) {id : String}
    (hid : isId id = true) :
    (HostState.status C id s).1 = HostState.firstFound (HostState.found C id ready)
      ((List.range ready.others.length).map fun i => HostState.found C id (ready.rowAt (some i))) := by
  have hready' : ({ s with calls := s.calls + 1 } : HostState Key Point).access = .ready ready := hready
  unfold HostState.status
  rw [HostState.enter_of_ready hready hcalls]
  simp only [anId, if_pos hid]
  rw [HostState.underAnyRow_read hready']

theorem mem_answers {id : String} {answer : Except Stop Wit.Outcome} :
    answer ∈ HostState.found C id ready ::
        (List.range ready.others.length).map (fun i => HostState.found C id (ready.rowAt (some i))) ↔
      ∃ at_ ∈ ready.rows, HostState.found C id (ready.rowAt at_) = answer := by
  have hrows : HostState.found C id ready ::
      (List.range ready.others.length).map (fun i => HostState.found C id (ready.rowAt (some i))) =
        ready.rows.map fun at_ => HostState.found C id (ready.rowAt at_) := by
    unfold Ready.rows
    rw [List.map_cons, List.map_map]
    rfl
  rw [hrows, List.mem_map]

theorem not_notFound_outcome (finds : C.FindsScalars) (at_ : Option Nat) (task : Client.Prepared) :
    ¬ NotFound ((ready.rowAt at_).outcome C task .thisTask) := by
  rintro ⟨message, hnone⟩
  rcases (ready.rowAt at_).outcome_thisTask finds task with hok | ⟨hrefused, -, -⟩
  · rw [hok] at hnone
    cases hnone
  · rw [hrefused] at hnone
    cases hnone

/-- A member that is counted once at most is the only one. -/
theorem eq_of_countP_le_one {α : Type} {p : α → Bool} {l : List α} (h : l.countP p ≤ 1) {a b : α} (ha : a ∈ l)
    (hb : b ∈ l) (hpa : p a = true) (hpb : p b = true) : a = b := by
  rw [List.countP_eq_length_filter] at h
  obtain ⟨x, hx⟩ | hnil : (∃ x, l.filter p = [x]) ∨ l.filter p = [] := by
    match l.filter p, h with
    | [], _  => exact .inr rfl
    | [x], _ => exact .inl ⟨x, rfl⟩
  · have ha' : a ∈ l.filter p := List.mem_filter.mpr ⟨ha, hpa⟩
    have hb' : b ∈ l.filter p := List.mem_filter.mpr ⟨hb, hpb⟩
    rw [hx] at ha' hb'
    rw [List.mem_singleton.mp ha', List.mem_singleton.mp hb']
  · have ha' : a ∈ l.filter p := List.mem_filter.mpr ⟨ha, hpa⟩
    rw [hnil] at ha'
    cases ha'

/-- A task under one row only is found by the walk as it stands there. -/
theorem status_of_under (finds : C.FindsScalars) (honest : Client.Honest ready.store content)
    (hready : s.access = .ready ready) (hcalls : s.calls < maxCallsPerRun) {at_ : Option Nat} (hat : at_ ∈ ready.rows)
    {k : Client.Kept} (hk : k ∈ content) (hunder : ready.under at_ k = true)
    (hone : (ready.rows.countP fun at_ => ready.under at_ k) ≤ 1) :
    (HostState.status C k.task.id s).1 = (ready.rowAt at_).outcome C k.task .thisTask := by
  rw [status_eq hready hcalls (honest.is_id k hk)]
  refine firstFound_eq (not_notFound_outcome finds at_ k.task) _ _ ?_ fun other hother => ?_
  · exact mem_answers.mpr ⟨at_, hat, found_of_under honest hk hunder⟩
  · obtain ⟨at', hat', rfl⟩ := mem_answers.mp hother
    by_cases hunder' : ready.under at' k = true
    · obtain rfl := eq_of_countP_le_one hone hat' hat hunder' hunder
      exact .inr (found_of_under honest hk hunder)
    · refine .inl (notFound_of_absent honest fun k' hk' hk'under hid => hunder' ?_)
      rwa [← List.inj_on_of_nodup_map honest.ids hk' hk hid]

/-- What is promised of the list: it is returned, it has every task of the caller once and no other, and a task asked
    for is its entry, up to one that does not open. -/
structure ListedOnce (C : Crates Key Secret Point Shared) (s : HostState Key Point) (ready : Ready Key)
    (content : List Client.Kept) : Prop where
  returned : ∃ list, (HostState.mine C s).1 = .ok list
  once : ∀ list, (HostState.mine C s).1 = .ok list →
    (list.map Wit.Outcome.id).Perm ((content.filter ready.belongs).map fun k => k.task.id)
  entries : ∀ list, (HostState.mine C s).1 = .ok list → ∀ e ∈ list,
    ∃ k ∈ content, ready.belongs k = true ∧ ∃ opened, e = Ready.outcomeWith k.task opened
  status : ∀ list, (HostState.mine C s).1 = .ok list → ∀ e ∈ list,
    (HostState.status C e.id s).1 = .ok e ∨
      (HostState.status C e.id s).1 = .error (.refused unreadable) ∧ e.result = none ∧ e.rejection = none
  absent : ∀ list, (HostState.mine C s).1 = .ok list → ∀ id, (∀ e ∈ list, e.id ≠ id) →
    NotFound (HostState.status C id s).1

end

/-- The list has each task of the caller once exactly when every owner of such a task has one of the run's rows. -/
theorem mine_lists_once_iff {C : Crates Key Secret Point Shared} {s : HostState Key Point} {ready : Ready Key}
    {content : List Client.Kept} (finds : C.FindsScalars) (honest : Client.Honest ready.store content)
    (hready : s.access = .ready ready) (hcalls : s.calls < maxCallsPerRun) :
    ListedOnce C s ready content ↔
      ∀ k ∈ content, ready.belongs k = true → ready.owners.count k.scope.owner = 1 := by
  obtain ⟨list, hlist, hids, hentries⟩ := mine_eq finds honest hready hcalls
  have hbelongs : content.filter ready.belongs =
      content.filter fun k => ready.rows.any fun at_ => ready.under at_ k := by
    congr 1
    exact funext ready.belongs_eq
  have hclassed := perm_classed_iff honest.ids ready.under ready.rows
  rw [← Ready.countP_under_le_one_iff, ← hclassed, ← hbelongs]
  constructor
  · intro h
    exact hids.symm.trans (h.once list hlist)
  · intro hperm
    have hone := hclassed.mp (hbelongs ▸ hperm)
    have hsame : ∀ list', (HostState.mine C s).1 = .ok list' → list' = list := by
      intro list' hlist'
      rw [hlist] at hlist'
      exact (Except.ok.inj hlist').symm
    refine ⟨⟨list, hlist⟩, ?_, ?_, ?_, ?_⟩
    · intro list' hlist'
      rw [hsame list' hlist']
      exact hids.trans hperm
    · intro list' hlist' e he
      rw [hsame list' hlist'] at he
      obtain ⟨at_, hat, k, hk, hunder, rfl⟩ := hentries e he
      refine ⟨k, hk, ?_, _, rfl⟩
      rw [ready.belongs_eq]
      exact List.any_eq_true.mpr ⟨at_, hat, hunder⟩
    · intro list' hlist' e he
      rw [hsame list' hlist'] at he
      obtain ⟨at_, hat, k, hk, hunder, rfl⟩ := hentries e he
      have hstatus := status_of_under finds honest hready hcalls hat hk hunder (hone k hk)
      have hid : ((ready.rowAt at_).entry C k.task).id = k.task.id := rfl
      rw [hid, hstatus]
      exact (ready.rowAt at_).outcome_thisTask finds k.task
    · intro list' hlist' id hnone
      rw [hsame list' hlist'] at hnone
      by_cases hid : isId id = true
      · rw [status_eq hready hcalls hid]
        refine notFound_firstFound _ _ fun other hother => ?_
        obtain ⟨at_, hat, rfl⟩ := mem_answers.mp hother
        refine notFound_of_absent honest fun k hk hunder hkid => ?_
        have hmem : id ∈ list.map Wit.Outcome.id := by
          refine (hids.trans hperm).mem_iff.mpr (List.mem_map.mpr ⟨k, List.mem_filter.mpr ⟨hk, ?_⟩, hkid⟩)
          rw [ready.belongs_eq]
          exact List.any_eq_true.mpr ⟨at_, hat, hunder⟩
        obtain ⟨e, he, heid⟩ := List.mem_map.mp hmem
        exact hnone e he heid
      · unfold HostState.status
        rw [HostState.enter_of_ready hready hcalls]
        simp only [anId, if_neg hid]
        exact ⟨"no such task", rfl⟩

/-! ## Two rows of one owner -/

namespace Client

/-- A store that keeps its tasks in memory. -/
def memoryStore (content : List Kept) : Store where
  mine scope preparer id :=
    let kept := content.filter fun k => k.isOf scope preparer && id.all fun id => decide (id = k.task.id)
    let found := kept.map Kept.task
    if found = [] ∧ id.isSome = true then .error (.refused .notFound none) else .ok found

theorem honest_memoryStore {content : List Kept} (ids : (content.map fun k => k.task.id).Nodup)
    (is_id : ∀ k ∈ content, isId k.task.id = true) : Honest (memoryStore content) content where
  ids := ids
  is_id := is_id
  list scope preparer := by
    refine ⟨(content.filter fun k => k.isOf scope preparer).map Kept.task, ?_, List.Perm.refl _⟩
    simp [memoryStore]
  one k hk := by
    have hself : k.isOf k.scope k.preparer = true := by simp [Kept.isOf]
    have hfound : content.filter (fun k' => k'.isOf k.scope k.preparer && decide (k.task.id = k'.task.id)) = [k] := by
      have hnodup := ids.of_map.filter fun k' => k'.isOf k.scope k.preparer && decide (k.task.id = k'.task.id)
      refine List.perm_singleton.mp ((List.perm_ext_iff_of_nodup hnodup (List.nodup_singleton k)).mpr fun k' => ?_)
      rw [List.mem_filter, List.mem_singleton, Bool.and_eq_true, decide_eq_true_iff]
      constructor
      · rintro ⟨hk', -, hid⟩
        exact (List.inj_on_of_nodup_map ids hk hk' hid).symm
      · rintro rfl
        exact ⟨hk, hself, rfl⟩
    simp only [memoryStore, Option.all_some, hfound]
    simp
  absent scope preparer id hnone := by
    refine ⟨none, ?_⟩
    have hfound : content.filter (fun k => k.isOf scope preparer && decide (id = k.task.id)) = [] := by
      refine List.filter_eq_nil_iff.mpr fun k hk h => ?_
      rw [Bool.and_eq_true, decide_eq_true_iff] at h
      exact hnone k hk h.1 h.2.symm
    simp only [memoryStore, Option.all_some, hfound]
    simp

end Client

/-- A task that an agent prepared for the owner of its rows. -/
def letter : Client.Kept where
  scope := ⟨"p0000000000000001", "alice.near"⟩
  preparer := "agent.near"
  task :=
    { id := "req-7-0", kind := .confirm, state := .open, createdAt := 0, expiresAt := 3600, run := none,
      outcome := none, rejection := none, failureReason := none }

/-- A row of the owner, and what the keystore answers beside one. -/
def defaultRow : Monitor.SecretsReference := ⟨"default", "alice.near"⟩

/-- A grant to a caller admitted by name, of a row without a vault. -/
def rowGrant : TaskGrant Unit := ⟨(), true, none⟩

/-- The hash of a build. -/
def buildHash : String := String.ofList (List.replicate 64 '0')

/-- The agent's run, which names a row beside the owner's first. -/
def agentRun (row : Monitor.SecretsReference) : TasksRun Unit where
  declared := true
  grant := some rowGrant
  projectId := some "acme.near/mail"
  projectUuid := some "p0000000000000001"
  build := some buildHash
  owner := some defaultRow.accountId
  profile := some defaultRow.profile
  otherRows := otherRows ((extraRows (some defaultRow) (some [defaultRow, row])).map fun row => (row, some rowGrant))
  caller := some "agent.near"
  predecessor := some "agent.near"
  store := some (some (Client.memoryStore [letter]))
  chain := some (some fun _ _ => .ok .itsKey)

/-- A run of an agent's, ready to prepare tasks. -/
def agentReady (row : Monitor.SecretsReference) : Ready Unit where
  grant := rowGrant
  scope := ⟨"p0000000000000001", "alice.near"⟩
  profile := "default"
  others := (agentRun row).otherRows
  caller := "agent.near"
  store := Client.memoryStore [letter]
  chain := fun _ _ => .ok .itsKey

/-- The host of that run. -/
def agentHost (row : Monitor.SecretsReference) : HostState Unit Unit := HostState.new (some (agentRun row))

theorem agentHost_access (row : Monitor.SecretsReference) : (agentHost row).access = .ready (agentReady row) := by
  have hbuild : isBuildHash buildHash = true := by decide +kernel
  simp [agentHost, HostState.new, accessOf, hbuild, Option.filter, agentRun, agentReady, defaultRow]

theorem honest_letter (row : Monitor.SecretsReference) : Client.Honest (agentReady row).store [letter] :=
  Client.honest_memoryStore (List.nodup_singleton _) (by decide)

theorem onePoint_findsScalars : onePoint.FindsScalars := fun _ _ => rfl

/-- One row beside the first, of another owner: every task is listed once. -/
theorem officers_row_lists_once :
    ListedOnce onePoint (agentHost ⟨"default", "officer.near"⟩) (agentReady ⟨"default", "officer.near"⟩) [letter] :=
  (mine_lists_once_iff onePoint_findsScalars (honest_letter _) (agentHost_access _) (by decide)).mpr (by decide)

/-- Two rows of one owner: the task is listed twice. -/
theorem second_profile_lists_twice :
    Client.Honest (agentReady ⟨"work", "alice.near"⟩).store [letter] ∧
      ((HostState.mine onePoint (agentHost ⟨"work", "alice.near"⟩)).1.map fun list => list.map Wit.Outcome.id) =
        .ok ["req-7-0", "req-7-0"] ∧
      ¬ ListedOnce onePoint (agentHost ⟨"work", "alice.near"⟩) (agentReady ⟨"work", "alice.near"⟩) [letter] := by
  have hids : ((HostState.mine onePoint (agentHost ⟨"work", "alice.near"⟩)).1.map fun list => list.map Wit.Outcome.id) =
      .ok ["req-7-0", "req-7-0"] := by
    decide +kernel
  refine ⟨honest_letter _, hids, fun h => ?_⟩
  obtain ⟨list, hlist⟩ := h.returned
  rw [hlist] at hids
  have htwice : list.map Wit.Outcome.id = ["req-7-0", "req-7-0"] := Except.ok.inj hids
  have hperm := (h.once list hlist).length_eq
  rw [htwice] at hperm
  exact absurd hperm (by decide)

end Tasks
end Worker
end Outlayer
