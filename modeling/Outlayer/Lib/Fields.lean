import Outlayer.Lib.Json

/-!
# `Lib.Fields` — texts put together from fields

A signed text joins its fields with a separator. It says one thing only when the cuts between the fields can be
found again: at the first separator, when the field before it holds none; at the last one, when the field after
it holds none; or after a known number of bytes.
-/

namespace Fields

section Cuts
variable {α : Type} {sep : α} {a b x y : List α}

/-- **The first separator.** -/
theorem cut_first (ha : sep ∉ a) (hb : sep ∉ b) (h : a ++ sep :: x = b ++ sep :: y) : a = b ∧ x = y := by
  induction a generalizing b with
  | nil =>
      cases b with
      | nil => exact ⟨rfl, (List.cons.inj h).2⟩
      | cons d ds =>
          obtain ⟨rfl, -⟩ := List.cons.inj h
          exact absurd List.mem_cons_self hb
  | cons c cs ih =>
      cases b with
      | nil =>
          obtain ⟨rfl, -⟩ := List.cons.inj h
          exact absurd List.mem_cons_self ha
      | cons d ds =>
          obtain ⟨rfl, ht⟩ := List.cons.inj h
          obtain ⟨rfl, hx⟩ := ih (fun hm => ha (List.mem_cons_of_mem c hm))
            (fun hm => hb (List.mem_cons_of_mem c hm)) ht
          exact ⟨rfl, hx⟩

/-- **The last separator.** -/
theorem cut_last (hx : sep ∉ x) (hy : sep ∉ y) (h : a ++ sep :: x = b ++ sep :: y) : a = b ∧ x = y := by
  have hrev := congrArg List.reverse h
  simp only [List.reverse_append, List.reverse_cons, List.append_assoc, List.singleton_append] at hrev
  obtain ⟨hxy, hab⟩ := cut_first (by simpa using hx) (by simpa using hy) hrev
  exact ⟨List.reverse_injective hab, List.reverse_injective hxy⟩

/-- What stands after a field: nothing, or a separator and more. -/
def Tail (sep : α) (t : List α) : Prop := t = [] ∨ ∃ rest, t = sep :: rest

/-- One text is read past a field of the other: the head of the second continues the first beyond its field. -/
def Overruns (sep : α) (head field tail head' field' tail' : List α) : Prop :=
  ∃ u, head' = head ++ sep :: field ++ u ∧ tail = u ++ sep :: field' ++ tail'

/-- The shorter of two cuts ends where the other's head goes on. -/
theorem overruns_of_longer {head field tail head' field' tail' c : List α} (hf : sep ∉ field) (hf' : sep ∉ field')
    (hne : field ≠ field') (ht : Tail sep tail) (hcut : head' ++ sep :: field' = head ++ sep :: field ++ c)
    (htail : tail = c ++ tail') : Overruns sep head field tail head' field' tail' := by
  have hempty : c ≠ [] := by
    intro hnil
    rw [hnil, List.append_nil] at hcut
    exact hne (cut_last hf' hf hcut).2.symm
  -- what lies between the two cuts begins with a separator, for the tail does
  obtain ⟨c', rfl⟩ : ∃ c', c = sep :: c' := by
    cases c with
    | nil => exact absurd rfl hempty
    | cons d ds =>
        rcases ht with hnil | ⟨rest, hrest⟩
        · rw [hnil] at htail
          cases htail
        · rw [hrest] at htail
          obtain ⟨rfl, -⟩ := List.cons.inj htail
          exact ⟨ds, rfl⟩
  rcases List.append_eq_append_iff.mp hcut with ⟨d, hd, hrest⟩ | ⟨u, hu, hrest⟩
  · -- the second head would end inside the first field
    cases d with
    | nil =>
        rw [List.append_nil] at hd
        exact ⟨[], by rw [List.append_nil, hd], by rw [htail, hrest]; rfl⟩
    | cons e es =>
        obtain ⟨rfl, hes⟩ := List.cons.inj hrest
        exact absurd (hes ▸ List.mem_append_right es List.mem_cons_self) hf'
  · exact ⟨u, hu, by rw [htail, hrest, List.append_assoc]⟩

/-- **Two fields in one text.** Two texts with different fields are the same exactly when one of them is read past
    the field of the other. -/
theorem eq_iff_overruns {head field tail head' field' tail' : List α} (hf : sep ∉ field) (hf' : sep ∉ field')
    (hne : field ≠ field') (ht : Tail sep tail) (ht' : Tail sep tail') :
    head ++ sep :: field ++ tail = head' ++ sep :: field' ++ tail' ↔
      Overruns sep head field tail head' field' tail' ∨ Overruns sep head' field' tail' head field tail := by
  constructor
  · intro h
    rcases List.append_eq_append_iff.mp h with ⟨c, hcut, htail⟩ | ⟨c, hcut, htail⟩
    · exact Or.inl (overruns_of_longer hf hf' hne ht hcut htail)
    · exact Or.inr (overruns_of_longer hf' hf hne.symm ht' hcut htail)
  · rintro (⟨u, rfl, rfl⟩ | ⟨u, rfl, rfl⟩) <;> simp

end Cuts

/-- A prefix of a text that begins with a known one agrees with it as far as both go. -/
theorem take_of_prefix_append {α : Type} {l a x : List α} (h : l <+: a ++ x) :
    l.take a.length = a.take l.length := by
  obtain ⟨rest, hrest⟩ := h
  have hl : l = (a ++ x).take l.length := by rw [← hrest, List.take_left]
  calc l.take a.length = ((a ++ x).take l.length).take a.length := by rw [← hl]
    _ = ((a ++ x).take a.length).take l.length := by rw [List.take_take, List.take_take, Nat.min_comm]
    _ = a.take l.length := by rw [List.take_left]

/-- **A known number of bytes.** -/
theorem cut_sized {a b x y : List Char} (hsize : Json.size a = Json.size b) (h : a ++ x = b ++ y) :
    a = b ∧ x = y := by
  -- one of the two is a prefix of the other, and what it lacks has no bytes
  have hnil : ∀ {l : List Char}, Json.size l = 0 → l = [] := by
    intro l hl
    cases l with
    | nil => rfl
    | cons c cs =>
        have hpos := c.utf8Size_pos
        rw [Json.size_cons] at hl
        omega
  rcases List.append_eq_append_iff.mp h with ⟨c, rfl, rfl⟩ | ⟨c, rfl, rfl⟩
  · obtain rfl : c = [] := hnil (by rw [Json.size_append] at hsize; omega)
    exact ⟨by simp, by simp⟩
  · obtain rfl : c = [] := hnil (by rw [Json.size_append] at hsize; omega)
    exact ⟨by simp, by simp⟩

/-- A printed number holds digits only. -/
theorem not_mem_toString {c : Char} (h : c.isDigit = false) (n : Nat) : c ∉ (toString n).toList := by
  intro hc
  rw [show (toString n).toList = Nat.toDigits 10 n from Nat.toList_repr] at hc
  rw [Nat.isDigit_of_mem_toDigits (by decide) (by decide) hc] at h
  cases h

end Fields
