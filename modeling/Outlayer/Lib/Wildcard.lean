import Mathlib.Data.List.Count
import Mathlib.Data.List.Infix

/-!
# `Lib.Wildcard` — patterns with a wildcard

A pattern is a list in which one letter, the wildcard, stands for any run of letters and every other letter for itself.
What a pattern stands for is stated by replacing its wildcards (`filled`) and, for proofs, letter by letter (`Matches`).
The lemma behind matching without a search is `matches_later_wildcard`: once the letters between two wildcards were
found, an earlier wildcard never has to stand for more.
-/

namespace Wildcard

section Patterns
variable {α : Type} {star : α}

/-! ## What a pattern stands for -/

/-- The pattern with its wildcards replaced by the runs, one after the other. -/
def filled [DecidableEq α] (star : α) : List α → List (List α) → List α
  | [], _        => []
  | a :: p, runs => if a = star then runs.headD [] ++ filled star p runs.tail else a :: filled star p runs

/-- A text that a pattern stands for, letter by letter. -/
inductive Matches (star : α) : List α → List α → Prop
  | nil : Matches star [] []
  | any {p t : List α} (run : List α) : Matches star p t → Matches star (star :: p) (run ++ t)
  | letter {a : α} {p t : List α} : a ≠ star → Matches star p t → Matches star (a :: p) (a :: t)

/-- The two readings are one: there is a run for each wildcard. -/
theorem matches_iff_filled [DecidableEq α] {p t : List α} :
    Matches star p t ↔ ∃ runs, runs.length = p.count star ∧ filled star p runs = t := by
  constructor
  · intro h
    induction h with
    | nil => exact ⟨[], rfl, rfl⟩
    | any run _ ih =>
        obtain ⟨runs, hlen, hfill⟩ := ih
        refine ⟨run :: runs, ?_, ?_⟩
        · rw [List.length_cons, hlen, List.count_cons_self]
        · rw [filled, if_pos rfl, List.headD_cons, List.tail_cons, hfill]
    | letter hne _ ih =>
        obtain ⟨runs, hlen, hfill⟩ := ih
        refine ⟨runs, ?_, ?_⟩
        · rw [hlen, List.count_cons_of_ne hne]
        · rw [filled, if_neg hne, hfill]
  · rintro ⟨runs, -, hfill⟩
    subst hfill
    induction p generalizing runs with
    | nil => exact .nil
    | cons a p ih =>
        rw [filled]
        split
        · next heq =>
            subst heq
            exact .any _ (ih runs.tail)
        · next hne => exact .letter hne (ih runs)

/-! ## Wildcards and letters in front -/

/-- A wildcard in front stands for the letters before some end of the text. -/
theorem matches_star {p t : List α} :
    Matches star (star :: p) t ↔ ∃ run rest, t = run ++ rest ∧ Matches star p rest := by
  constructor
  · intro h
    cases h with
    | any run h => exact ⟨run, _, rfl, h⟩
    | letter hne _ => exact absurd rfl hne
  · rintro ⟨run, rest, rfl, h⟩
    exact .any run h

theorem matches_star_of {p t : List α} (h : Matches star p t) : Matches star (star :: p) t := .any [] h

/-- The wildcard in front may stand for one letter more. -/
theorem matches_star_cons {p t : List α} {a : α} :
    Matches star (star :: p) (a :: t) ↔ Matches star p (a :: t) ∨ Matches star (star :: p) t := by
  rw [matches_star, matches_star]
  constructor
  · rintro ⟨run, rest, heq, h⟩
    cases run with
    | nil => exact Or.inl (by rw [heq]; exact h)
    | cons b run =>
        rw [List.cons_append, List.cons.injEq] at heq
        exact Or.inr ⟨run, rest, heq.2, h⟩
  · rintro (h | ⟨run, rest, rfl, h⟩)
    · exact ⟨[], _, rfl, h⟩
    · exact ⟨a :: run, rest, rfl, h⟩

theorem matches_letter {p t : List α} {a b : α} (hne : a ≠ star) :
    Matches star (a :: p) (b :: t) ↔ a = b ∧ Matches star p t := by
  constructor
  · intro h
    generalize htext : b :: t = text at h
    cases h with
    | any => exact absurd rfl hne
    | letter _ h =>
        obtain ⟨rfl, rfl⟩ := List.cons.inj htext
        exact ⟨rfl, h⟩
  · rintro ⟨rfl, h⟩
    exact .letter hne h

/-- Letters in front are found at the front of the text. -/
theorem matches_append {lit p t : List α} (hlit : star ∉ lit) :
    Matches star (lit ++ p) t ↔ ∃ rest, t = lit ++ rest ∧ Matches star p rest := by
  induction lit generalizing t with
  | nil => exact ⟨fun h => ⟨t, rfl, h⟩, fun ⟨_, heq, h⟩ => heq ▸ h⟩
  | cons a lit ih =>
      rw [List.mem_cons, not_or] at hlit
      obtain ⟨hne, hlit⟩ := hlit
      constructor
      · intro h
        cases h with
        | any => exact absurd rfl hne
        | letter _ h =>
            obtain ⟨rest, rfl, hrest⟩ := (ih hlit).mp h
            exact ⟨rest, rfl, hrest⟩
      · rintro ⟨rest, rfl, hrest⟩
        exact .letter (Ne.symm hne) ((ih hlit).mpr ⟨rest, rfl, hrest⟩)

/-- Nothing is what a pattern of wildcards stands for, and no other. -/
theorem matches_nil {p : List α} : Matches star p [] ↔ ∀ a ∈ p, a = star := by
  constructor
  · intro h
    generalize ht : ([] : List α) = t at h
    induction h with
    | nil => nofun
    | any run _ ih =>
        obtain ⟨-, hrest⟩ := List.append_eq_nil_iff.mp ht.symm
        exact List.forall_mem_cons.mpr ⟨rfl, ih hrest.symm⟩
    | letter => cases ht
  · intro h
    induction p with
    | nil => exact .nil
    | cons a p ih =>
        obtain ⟨rfl, hp⟩ := List.forall_mem_cons.mp h
        exact matches_star_of (ih hp)

/-! ## The last wildcard is enough -/

/-- Letters between two wildcards, found as early as they can be: the earlier wildcard need not stand for more, since
    what it would take can be given to the later one. -/
theorem matches_later_wildcard {lit p t : List α} (hlit : star ∉ lit) :
    Matches star (star :: (lit ++ star :: p)) (lit ++ t) ↔ Matches star (star :: p) t := by
  constructor
  · intro h
    obtain ⟨run, rest, heq, hrest⟩ := matches_star.mp h
    obtain ⟨tail, rfl, htail⟩ := (matches_append hlit).mp hrest
    obtain ⟨run', rest', rfl, hp⟩ := matches_star.mp htail
    -- what is left for the later wildcard is an end of the text after the letters
    have hlong : (run' ++ rest').length ≤ t.length := by
      have hlen := congrArg List.length heq
      simp only [List.length_append] at hlen ⊢
      omega
    have hend : run' ++ rest' <:+ t := by
      have hwhole : run' ++ rest' <:+ lit ++ t := heq ▸ ⟨run ++ lit, by rw [List.append_assoc]⟩
      exact List.suffix_of_suffix_length_le hwhole (List.suffix_append lit t) hlong
    obtain ⟨front, rfl⟩ := hend
    exact matches_star.mpr ⟨front ++ run', rest', by rw [List.append_assoc], hp⟩
  · intro h
    exact matches_star_of ((matches_append hlit).mpr ⟨t, rfl, h⟩)

/-- The letters after the wildcard were found up to the end of the text: what is left of the pattern stands for
    nothing. -/
theorem matches_at_end {lit p : List α} (hlit : star ∉ lit) :
    Matches star (star :: (lit ++ p)) lit ↔ Matches star p [] := by
  constructor
  · intro h
    obtain ⟨run, rest, heq, hrest⟩ := matches_star.mp h
    obtain ⟨tail, rfl, htail⟩ := (matches_append hlit).mp hrest
    have hnil : tail = [] := by
      have hlen := congrArg List.length heq
      simp only [List.length_append] at hlen
      exact List.eq_nil_of_length_eq_zero (by omega)
    exact hnil ▸ htail
  · intro h
    exact matches_star_of ((matches_append hlit).mpr ⟨[], (List.append_nil lit).symm, h⟩)

end Patterns

end Wildcard
