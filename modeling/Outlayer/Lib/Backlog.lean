import Mathlib.Data.List.Perm.Subperm

/-!
# `Lib.Backlog` — batches of items, delivered piece by piece

Batches come one after the other; each holds items, which are known once the batch was read. A reader passes the
batches in order and leaves behind what it could not finish: a batch unread, or read with items still to deliver. A
batch left behind is finished later or given up, and giving up is reported with the items that were still to deliver.

The `Account` of a batch is what the reader did for it. `Standing` says what the account of a batch that was passed can
be, given what is still to do for it; every item is then done, still to do or reported, and only one of the three.
-/

namespace Backlog

variable {E : Type}

/-- What was done for one batch. -/
structure Account (E : Type) where
  /-- the items, as often as the batch was read -/
  reads : List (List E)
  done : List E
  /-- the items still to deliver when it was given up, nothing when it was unread -/
  reports : List (Option (List E))

namespace Account

/-- Nothing was done. -/
def blank : Account E := ⟨[], [], []⟩

/-- Two accounts, one after the other. -/
def append (a b : Account E) : Account E := ⟨a.reads ++ b.reads, a.done ++ b.done, a.reports ++ b.reports⟩

theorem blank_append (a : Account E) : blank.append a = a := rfl

theorem append_blank (a : Account E) : a.append blank = a := by
  unfold append blank
  rw [List.append_nil, List.append_nil, List.append_nil]

end Account

/-- How a batch that was passed stands: the first argument is what is still to do, nothing when nothing is. -/
inductive Standing : Option (Option (List E)) → Account E → Prop
  | unread : Standing (some none) .blank
  | kept {items done left : List E} : left ≠ [] → (done ++ left).Perm items →
      Standing (some (some left)) ⟨[items], done, []⟩
  | finished {items done : List E} : done.Perm items → Standing none ⟨[items], done, []⟩
  | lostUnread : Standing none ⟨[], [], [none]⟩
  | lost {items done left : List E} : left ≠ [] → (done ++ left).Perm items →
      Standing none ⟨[items], done, [some left]⟩

/-- Every item of the batch was read and done. -/
def Account.Finished (a : Account E) : Prop := ∃ items ∈ a.reads, a.done.Perm items

/-- The batch was given up. -/
def Account.GivenUp (a : Account E) : Prop := a.reports ≠ []

theorem not_perm_of_append {items done left : List E} (hleft : left ≠ []) (h : (done ++ left).Perm items) :
    ¬ done.Perm items := by
  intro hdone
  have hlength := hdone.length_eq.trans h.length_eq.symm
  rw [List.length_append] at hlength
  exact hleft (List.length_eq_zero_iff.mp (by omega))

/-- **A batch that was passed is finished, still to do or given up, and only one of the three.** -/
theorem Standing.one_of_three {entry : Option (Option (List E))} {a : Account E} (h : Standing entry a) :
    (a.Finished ∧ entry = none ∧ ¬ a.GivenUp) ∨ (¬ a.Finished ∧ entry ≠ none ∧ ¬ a.GivenUp) ∨
      (¬ a.Finished ∧ entry = none ∧ a.GivenUp) := by
  have hnot : ∀ {items done left : List E} {reports}, left ≠ [] → (done ++ left).Perm items →
      ¬ (Account.mk [items] done reports).Finished := by
    rintro items done left reports hleft hperm ⟨items', hitems, hdone⟩
    obtain rfl := List.mem_singleton.mp hitems
    exact not_perm_of_append hleft hperm hdone
  have hunread : ∀ {reports}, ¬ (Account.mk (E := E) [] [] reports).Finished := by
    rintro reports ⟨items, hitems, -⟩
    exact List.not_mem_nil hitems
  cases h with
  | unread => exact Or.inr (Or.inl ⟨hunread, Option.some_ne_none _, fun h => h rfl⟩)
  | kept hleft hperm => exact Or.inr (Or.inl ⟨hnot hleft hperm, Option.some_ne_none _, fun h => h rfl⟩)
  | finished hperm => exact Or.inl ⟨⟨_, List.mem_singleton_self _, hperm⟩, rfl, fun h => h rfl⟩
  | lostUnread => exact Or.inr (Or.inr ⟨hunread, rfl, List.cons_ne_nil _ _⟩)
  | lost hleft hperm => exact Or.inr (Or.inr ⟨hnot hleft hperm, rfl, List.cons_ne_nil _ _⟩)

/-- What is kept of a batch that was read. -/
def keptItems (entry : Option (Option (List E))) : List E := entry.join.getD []

/-- **What is done of a batch is of the batch, and none of it is still to do.** -/
theorem Standing.subperm {entry : Option (Option (List E))} {a : Account E} (h : Standing entry a) {items : List E}
    (hitems : items ∈ a.reads) : a.reads = [items] ∧ (a.done ++ keptItems entry).Subperm items := by
  cases h with
  | unread => exact absurd hitems List.not_mem_nil
  | kept _ hperm =>
      obtain rfl := List.mem_singleton.mp hitems
      exact ⟨rfl, hperm.subperm⟩
  | finished hperm =>
      obtain rfl := List.mem_singleton.mp hitems
      refine ⟨rfl, ?_⟩
      show List.Subperm (_ ++ []) _
      rw [List.append_nil]
      exact hperm.subperm
  | lostUnread => exact absurd hitems List.not_mem_nil
  | @lost items' done left _ hperm =>
      obtain rfl := List.mem_singleton.mp hitems
      refine ⟨rfl, ?_⟩
      show List.Subperm (done ++ []) items
      rw [List.append_nil]
      exact (List.sublist_append_left done left).subperm.trans hperm.subperm

/-- Nothing is done of a batch that was not read. -/
theorem Standing.read_of_done {entry : Option (Option (List E))} {a : Account E} (h : Standing entry a) {e : E}
    (he : e ∈ a.done) : ∃ items ∈ a.reads, e ∈ items := by
  cases h with
  | unread => exact absurd he List.not_mem_nil
  | kept _ hperm => exact ⟨_, List.mem_singleton_self _, hperm.subset (List.mem_append_left _ he)⟩
  | finished hperm => exact ⟨_, List.mem_singleton_self _, hperm.subset he⟩
  | lostUnread => exact absurd he List.not_mem_nil
  | lost _ hperm => exact ⟨_, List.mem_singleton_self _, hperm.subset (List.mem_append_left _ he)⟩

/-! ## What happens to a batch -/

/-- What is still to do once items were delivered and some are left. -/
def leftover (left : List E) : Option (Option (List E)) := if left = [] then none else some (some left)

/-- A batch read now, some of its items done. -/
theorem standing_read {items done left : List E} (h : (done ++ left).Perm items) :
    Standing (leftover left) ⟨[items], done, []⟩ := by
  unfold leftover
  split
  · next hleft =>
      rw [hleft, List.append_nil] at h
      exact .finished h
  · next hleft => exact .kept hleft h

/-- More of a batch's items done. -/
theorem Standing.resume {kept done left : List E} {a : Account E} (h : Standing (some (some kept)) a)
    (hperm : (done ++ left).Perm kept) : Standing (leftover left) (a.append ⟨[], done, []⟩) := by
  cases h with
  | @kept items done' _ _ hitems =>
      show Standing (leftover left) ⟨[items], done' ++ done, []⟩
      refine standing_read ?_
      rw [List.append_assoc]
      exact (hperm.append_left done').trans hitems

/-- A batch left unread is read, some of its items done. -/
theorem Standing.read {a : Account E} (h : Standing (some none) a) {items done left : List E}
    (hperm : (done ++ left).Perm items) : Standing (leftover left) (a.append ⟨[items], done, []⟩) := by
  cases h with
  | unread => exact standing_read hperm

/-- A batch is given up. -/
theorem Standing.giveUp {kept : Option (List E)} {a : Account E} (h : Standing (some kept) a) :
    Standing none (a.append ⟨[], [], [kept]⟩) := by
  cases h with
  | unread => exact .lostUnread
  | @kept items done left hleft hperm =>
      show Standing none ⟨[items], done ++ [], [some left]⟩
      rw [List.append_nil]
      exact .lost hleft hperm

end Backlog
