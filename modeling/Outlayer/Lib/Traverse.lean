import Mathlib.Data.List.Forall2

/-!
# `Lib.Traverse` — going through a list with a step that may fail

`List.mapM` over `Except` returns exactly when every step does, and what it returns stands in the order of the list.
-/

namespace Traverse

variable {α β γ ε : Type} {f : α → Except ε β}

theorem mapM_cons_eq_ok {a : α} {l : List α} {bs : List β} :
    (a :: l).mapM f = .ok bs ↔ ∃ b bs', f a = .ok b ∧ l.mapM f = .ok bs' ∧ bs = b :: bs' := by
  rw [List.mapM_cons]
  cases ha : f a with
  | error e => simp [bind, Except.bind]
  | ok b =>
      cases hl : l.mapM f with
      | error e => simp [bind, Except.bind]
      | ok bs' => simp [bind, Except.bind, pure, Except.pure, eq_comm]

/-- **Step by step.** -/
theorem mapM_eq_ok_iff {l : List α} {bs : List β} :
    l.mapM f = .ok bs ↔ List.Forall₂ (fun a b => f a = .ok b) l bs := by
  induction l generalizing bs with
  | nil => simp [pure, Except.pure, eq_comm]
  | cons a l ih =>
      rw [mapM_cons_eq_ok, List.forall₂_cons_left_iff]
      constructor
      · rintro ⟨b, bs', hb, hl, rfl⟩
        exact ⟨b, bs', hb, ih.mp hl, rfl⟩
      · rintro ⟨b, bs', hb, hl, rfl⟩
        exact ⟨b, bs', hb, ih.mpr hl, rfl⟩

/-- Two lists one by one. -/
theorem exists_of_mem_right {R : α → β → Prop} {l : List α} {bs : List β} (h : List.Forall₂ R l bs) {b : β}
    (hb : b ∈ bs) : ∃ a ∈ l, R a b := by
  induction h with
  | nil => cases hb
  | cons hab _ ih =>
      rcases List.mem_cons.mp hb with rfl | hb
      · exact ⟨_, List.mem_cons_self, hab⟩
      · obtain ⟨a, ha, hr⟩ := ih hb
        exact ⟨a, List.mem_cons_of_mem _ ha, hr⟩

/-- What is returned came from some element. -/
theorem exists_of_mem_mapM {l : List α} {bs : List β} (h : l.mapM f = .ok bs) {b : β} (hb : b ∈ bs) :
    ∃ a ∈ l, f a = .ok b :=
  exists_of_mem_right (mapM_eq_ok_iff.mp h) hb

end Traverse
