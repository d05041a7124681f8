import Mathlib.Algebra.GroupWithZero.Nat

/-!
# `Lib.Checked` — panicking computations and checked machine arithmetic

A computation that may panic returns `Res α = Except String α`: the value, or the text it panics with. The
guards (`require`, `expect`) and the checked operators (`add`, `sub`, `mul` at a width in bits, failing as
a build with overflow checks does) come with one `*_eq_ok` lemma each. Together with `bind_eq_ok` they turn
"this sequence returned `b`" into the conjunction of everything that must have held on the way, so a proof
about a successful run never unfolds the monad.
-/

namespace Checked

/-- A computation that returns a value or panics with a message. -/
abbrev Res (α : Type) := Except String α

/-- Panic with `msg` unless `p` holds. -/
def require (p : Prop) [Decidable p] (msg : String) : Res Unit :=
  if p then .ok () else .error msg

/-- Unwrap an option, panicking with `msg` on `none`. -/
def expect {α : Type} (o : Option α) (msg : String) : Res α :=
  match o with
  | some a => .ok a
  | none   => .error msg

/-- `a + b` at width `w`, panicking when the sum does not fit. -/
def add (w a b : Nat) : Res Nat :=
  if a + b < 2 ^ w then .ok (a + b) else .error "attempt to add with overflow"

/-- `a - b`, panicking when it would be negative. -/
def sub (a b : Nat) : Res Nat :=
  if b ≤ a then .ok (a - b) else .error "attempt to subtract with overflow"

/-- `a * b` at width `w`, panicking when the product does not fit. -/
def mul (w a b : Nat) : Res Nat :=
  if a * b < 2 ^ w then .ok (a * b) else .error "attempt to multiply with overflow"

/-! ## Inversion: what a successful computation establishes -/

section Inversion
variable {α β : Type}

/-- A sequence returns exactly when its first part returns and the rest returns on that value. -/
@[simp] theorem bind_eq_ok {x : Res α} {f : α → Res β} {b : β} :
    (x >>= f) = .ok b ↔ ∃ a, x = .ok a ∧ f a = .ok b := by
  cases x <;> simp [bind, Except.bind]

@[simp] theorem map_eq_ok {x : Res α} {f : α → β} {b : β} :
    (f <$> x) = .ok b ↔ ∃ a, x = .ok a ∧ f a = b := by
  cases x <;> simp [Functor.map, Except.map]

theorem toOption_eq_some {x : Res α} {a : α} : x.toOption = some a ↔ x = .ok a := by
  cases x <;> simp [Except.toOption]

@[simp] theorem pure_eq_ok {a b : α} : (pure a : Res α) = .ok b ↔ a = b := by
  simp [pure, Except.pure]

@[simp] theorem throw_ne_ok {e : String} {a : α} : ¬ (throw e : Res α) = .ok a := by
  simp [throw, throwThe, MonadExceptOf.throw]

@[simp] theorem require_eq_ok {p : Prop} [Decidable p] {msg : String} {u : Unit} :
    require p msg = .ok u ↔ p := by
  by_cases h : p <;> simp [require, h]

@[simp] theorem expect_eq_ok {o : Option α} {msg : String} {a : α} :
    expect o msg = .ok a ↔ o = some a := by
  cases o <;> simp [expect]

@[simp] theorem add_eq_ok {w a b n : Nat} : add w a b = .ok n ↔ a + b < 2 ^ w ∧ n = a + b := by
  by_cases h : a + b < 2 ^ w <;> simp [add, h, eq_comm]

@[simp] theorem sub_eq_ok {a b n : Nat} : sub a b = .ok n ↔ b ≤ a ∧ n = a - b := by
  by_cases h : b ≤ a <;> simp [sub, h, eq_comm]

@[simp] theorem mul_eq_ok {w a b n : Nat} : mul w a b = .ok n ↔ a * b < 2 ^ w ∧ n = a * b := by
  by_cases h : a * b < 2 ^ w <;> simp [mul, h, eq_comm]

/-- A guard's success carries no choice of value. -/
@[simp] theorem exists_unit_ok {x : Res Unit} : (∃ u, x = .ok u) ↔ x = .ok () :=
  ⟨fun ⟨(), h⟩ => h, fun h => ⟨(), h⟩⟩

end Inversion

/-! ## Checking every element of a list -/

/-- Run a guard over a list, in order; the first panic stops it. -/
def forEach {α : Type} (f : α → Res Unit) : List α → Res Unit
  | []      => .ok ()
  | x :: xs => do
      f x
      forEach f xs

/-- The guard over a list passes exactly when it passes on every element. -/
@[simp] theorem forEach_eq_ok {α : Type} {f : α → Res Unit} {xs : List α} {u : Unit} :
    forEach f xs = .ok u ↔ ∀ x ∈ xs, f x = .ok () := by
  induction xs with
  | nil => simp [forEach]
  | cons x xs ih => simp [forEach, ih]

end Checked
