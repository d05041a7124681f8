import Mathlib.Data.List.Forall2
import Mathlib.Data.List.Perm.Basic
import Mathlib.Order.Defs.PartialOrder

/-!
# `Lib.Kleene` — strong Kleene logic, for evaluators that can fail

A question that cannot be answered is `unknown`. The connectives are those of strong Kleene logic: an answer that
settles the matter does, whatever is unknown beside it. Over lists, `all` and `any` depend on what is in the list and
not on its order.

`a ≤ b` is the order of information: `b` is `a`, or `a` was not known. Every connective is monotone in it, so what is
settled stays settled when more becomes known. `verdict` reads the result of a computation that may fail, and
`verdict_le_iff` says what the order means there: a computation that answered answers the same.
-/

namespace Kleene

/-- A truth value, or none. -/
inductive Truth
  | no
  | unknown
  | yes
deriving DecidableEq

namespace Truth

/-- A known truth value. -/
def ofBool : Bool → Truth
  | true  => yes
  | false => no

/-- An answer, or none. -/
def ofOption : Option Bool → Truth
  | some b => ofBool b
  | none   => unknown

/-! ## Connectives -/

/-- No if either is no, unknown if neither is and one is unknown. -/
def and : Truth → Truth → Truth
  | no, _      => no
  | _, no      => no
  | yes, yes   => yes
  | _, _       => unknown

/-- Yes if either is yes, unknown if neither is and one is unknown. -/
def or : Truth → Truth → Truth
  | yes, _  => yes
  | _, yes  => yes
  | no, no  => no
  | _, _    => unknown

/-- The unknown stays unknown. -/
def not : Truth → Truth
  | no      => yes
  | unknown => unknown
  | yes     => no

/-- The conjunction of a list. -/
def all (ts : List Truth) : Truth := ts.foldr and yes

/-- The disjunction of a list. -/
def any (ts : List Truth) : Truth := ts.foldr or no

@[simp] theorem all_cons (t : Truth) (ts : List Truth) : all (t :: ts) = t.and (all ts) := rfl
@[simp] theorem any_cons (t : Truth) (ts : List Truth) : any (t :: ts) = t.or (any ts) := rfl

@[simp] theorem yes_and (t : Truth) : yes.and t = t := by cases t <;> rfl
@[simp] theorem no_and (t : Truth) : no.and t = no := by cases t <;> rfl
@[simp] theorem and_no (t : Truth) : t.and no = no := by cases t <;> rfl
@[simp] theorem no_or (t : Truth) : no.or t = t := by cases t <;> rfl
@[simp] theorem yes_or (t : Truth) : yes.or t = yes := by cases t <;> rfl
@[simp] theorem or_yes (t : Truth) : t.or yes = yes := by cases t <;> rfl

theorem and_assoc (a b c : Truth) : (a.and b).and c = a.and (b.and c) := by
  cases a <;> cases b <;> cases c <;> rfl

theorem and_left_comm (a b c : Truth) : a.and (b.and c) = b.and (a.and c) := by
  cases a <;> cases b <;> cases c <;> rfl

theorem or_assoc (a b c : Truth) : (a.or b).or c = a.or (b.or c) := by
  cases a <;> cases b <;> cases c <;> rfl

theorem or_left_comm (a b c : Truth) : a.or (b.or c) = b.or (a.or c) := by
  cases a <;> cases b <;> cases c <;> rfl

instance : LeftCommutative and := ⟨and_left_comm⟩
instance : LeftCommutative or := ⟨or_left_comm⟩

/-- **The order of a list does not matter**, to its conjunction and to its disjunction. -/
theorem all_perm {ts us : List Truth} (h : ts.Perm us) : all ts = all us := h.foldr_eq yes

theorem any_perm {ts us : List Truth} (h : ts.Perm us) : any ts = any us := h.foldr_eq no

/-! ## Information -/

/-- `b` is `a`, or `a` was not known. -/
instance : PartialOrder Truth where
  le a b := a = unknown ∨ a = b
  le_refl a := Or.inr rfl
  le_trans a b c hab hbc := by
    rcases hab with rfl | rfl
    · exact Or.inl rfl
    · exact hbc
  le_antisymm a b hab hba := by
    rcases hab with rfl | rfl
    · rcases hba with rfl | rfl
      · rfl
      · rfl
    · rfl

theorem unknown_le (t : Truth) : unknown ≤ t := Or.inl rfl

theorem ofOption_le {o o' : Option Bool} (h : ∀ b, o = some b → o' = some b) : ofOption o ≤ ofOption o' := by
  cases o with
  | none => exact unknown_le _
  | some b => exact Or.inr (by rw [h b rfl])

/-- What is known does not change. -/
theorem eq_of_le {a b : Truth} (h : a ≤ b) (known : a ≠ unknown) : b = a := by
  rcases h with hunknown | heq
  · exact absurd hunknown known
  · exact heq.symm

theorem and_le_and {a a' b b' : Truth} (ha : a ≤ a') (hb : b ≤ b') : a.and b ≤ a'.and b' := by
  rcases ha with rfl | rfl
  · -- `unknown` beside a `no` is settled, and stays so
    rcases hb with rfl | rfl
    · exact unknown_le _
    · cases b with
      | no => exact Or.inr (and_no a').symm
      | unknown => exact unknown_le _
      | yes => exact unknown_le _
  · rcases hb with rfl | rfl
    · cases a with
      | no => exact Or.inr (no_and b').symm
      | unknown => exact unknown_le _
      | yes => exact unknown_le _
    · exact le_refl _

theorem or_le_or {a a' b b' : Truth} (ha : a ≤ a') (hb : b ≤ b') : a.or b ≤ a'.or b' := by
  rcases ha with rfl | rfl
  · rcases hb with rfl | rfl
    · exact unknown_le _
    · cases b with
      | no => exact unknown_le _
      | unknown => exact unknown_le _
      | yes => exact Or.inr (or_yes a').symm
  · rcases hb with rfl | rfl
    · cases a with
      | no => exact unknown_le _
      | unknown => exact unknown_le _
      | yes => exact Or.inr (yes_or b').symm
    · exact le_refl _

theorem not_le_not {a b : Truth} (h : a ≤ b) : a.not ≤ b.not := by
  rcases h with rfl | rfl
  · exact unknown_le _
  · exact le_refl _

theorem all_le_all {ts us : List Truth} (h : List.Forall₂ (· ≤ ·) ts us) : all ts ≤ all us := by
  induction h with
  | nil => exact le_refl _
  | cons hle _ ih => exact and_le_and hle ih

theorem any_le_any {ts us : List Truth} (h : List.Forall₂ (· ≤ ·) ts us) : any ts ≤ any us := by
  induction h with
  | nil => exact le_refl _
  | cons hle _ ih => exact or_le_or hle ih

end Truth

/-! ## Computations that may fail -/

section Verdicts
variable {ε α : Type}

/-- What a computation that may fail says. -/
def verdict : Except ε Bool → Truth
  | .ok b    => .ofBool b
  | .error _ => .unknown

@[simp] theorem verdict_ok (b : Bool) : verdict (.ok b : Except ε Bool) = .ofBool b := rfl
@[simp] theorem verdict_error (e : ε) : verdict (.error e : Except ε Bool) = .unknown := rfl

theorem verdict_eq_ofBool {x : Except ε Bool} {b : Bool} : verdict x = .ofBool b ↔ x = .ok b := by
  cases x with
  | ok b' => cases b <;> cases b' <;> simp [Truth.ofBool]
  | error e => cases b <;> simp [Truth.ofBool]

/-- `y` answers what `x` answers, and may answer where `x` fails. -/
def Completes (x y : Except ε α) : Prop := ∀ a, x = .ok a → y = .ok a

theorem completes_error {e : ε} {y : Except ε α} : Completes (.error e) y := fun _ h => by cases h

theorem Completes.bind {β : Type} {x y : Except ε α} {f g : α → Except ε β} (h : Completes x y)
    (hrest : ∀ a, Completes (f a) (g a)) : Completes (x >>= f) (y >>= g) := by
  cases x with
  | error e => exact completes_error
  | ok a =>
      rw [h a rfl]
      exact hrest a

theorem completes_refl (x : Except ε α) : Completes x x := fun _ h => h

/-- **More information** is a computation that answers where it failed before. -/
theorem verdict_le_iff {x y : Except ε Bool} : verdict x ≤ verdict y ↔ Completes x y := by
  constructor
  · rintro hle b rfl
    have hknown : verdict (.ok b : Except ε Bool) ≠ .unknown := by cases b <;> exact nofun
    exact verdict_eq_ofBool.mp (Truth.eq_of_le hle hknown)
  · intro h
    cases x with
    | error e => exact Truth.unknown_le _
    | ok b =>
        rw [h b rfl]

end Verdicts

end Kleene
