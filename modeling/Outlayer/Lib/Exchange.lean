import Mathlib.Data.List.Basic

/-!
# `Lib.Exchange` — programs that ask the outside world

A program that depends on the world only through what it asks (a request over the network, a record in a store) is a
tree: it returns, fails, or asks something and goes on with the answer, whichever that is. Its runs are the paths
through the tree, so that "whatever the world answers" is a quantifier over paths.

* `Runs x t r` — `x` may exchange `t` and end with `r`; `runs_bind`, `runs_recover` and `runs_watch` take the runs of
  a compound program apart;
* `x.Asks P` — whatever is answered, every question of `x` satisfies `P`, with one rule for each way to build a
  program.
-/

/-- A program over questions `Ask`, where the answer to `q` is an `Answer q`. -/
inductive Exchange (Ask : Type) (Answer : Ask → Type) (ε α : Type)
  | done (a : α)
  | fail (e : ε)
  | ask (q : Ask) (next : Answer q → Exchange Ask Answer ε α)

namespace Exchange

variable {Ask : Type} {Answer : Ask → Type} {ε ε' α β : Type}

/-- One after the other; a failure ends both. -/
def bind (x : Exchange Ask Answer ε α) (f : α → Exchange Ask Answer ε β) : Exchange Ask Answer ε β :=
  match x with
  | .done a     => f a
  | .fail e     => .fail e
  | .ask q next => .ask q fun a => (next a).bind f

instance : Monad (Exchange Ask Answer ε) where
  pure := .done
  bind := .bind

/-- A computation that asks nothing. -/
def lift : Except ε α → Exchange Ask Answer ε α
  | .ok a    => .done a
  | .error e => .fail e

instance : MonadLift (Except ε) (Exchange Ask Answer ε) := ⟨lift⟩

/-- Ask one question. -/
def query (q : Ask) : Exchange Ask Answer ε (Answer q) := .ask q .done

/-- Go on with `f` where the program fails. -/
def recover (x : Exchange Ask Answer ε α) (f : ε → Exchange Ask Answer ε' α) : Exchange Ask Answer ε' α :=
  match x with
  | .done a     => .done a
  | .fail e     => f e
  | .ask q next => .ask q fun a => (next a).recover f

/-- Run a program to its end, whichever it is, and tell whether an answer was one that `mark` marks; `seen` says
    whether one was before. -/
def watch (mark : (q : Ask) → Answer q → Bool) (seen : Bool) (x : Exchange Ask Answer ε α) :
    Exchange Ask Answer ε' (Except ε α × Bool) :=
  match x with
  | .done a     => .done (.ok a, seen)
  | .fail e     => .done (.error e, seen)
  | .ask q next => .ask q fun a => watch mark (seen || mark q a) (next a)

/-- Run a program to its end, whichever it is. -/
def attempt : Exchange Ask Answer ε α → Exchange Ask Answer ε' (Except ε α)
  | .done a     => .done (.ok a)
  | .fail e     => .done (.error e)
  | .ask q next => .ask q fun a => attempt (next a)

@[simp] theorem pure_eq (a : α) : (pure a : Exchange Ask Answer ε α) = .done a := rfl

@[simp] theorem done_bind (a : α) (f : α → Exchange Ask Answer ε β) : .done a >>= f = f a := rfl

@[simp] theorem fail_bind (e : ε) (f : α → Exchange Ask Answer ε β) :
    (.fail e : Exchange Ask Answer ε α) >>= f = .fail e := rfl

@[simp] theorem ask_bind (q : Ask) (next : Answer q → Exchange Ask Answer ε α) (f : α → Exchange Ask Answer ε β) :
    .ask q next >>= f = .ask q fun a => next a >>= f := rfl

@[simp] theorem lift_ok (a : α) : (lift (.ok a) : Exchange Ask Answer ε α) = .done a := rfl

@[simp] theorem lift_error (e : ε) : (lift (.error e) : Exchange Ask Answer ε α) = .fail e := rfl

/-! ## Runs -/

/-- A question and the answer it got. -/
abbrev Event (Answer : Ask → Type) : Type := Σ q, Answer q

/-- `x` may exchange `t` with the world and end with `r`. -/
inductive Runs : Exchange Ask Answer ε α → List (Event Answer) → Except ε α → Prop
  | done (a : α) : Runs (.done a) [] (.ok a)
  | fail (e : ε) : Runs (.fail e) [] (.error e)
  | ask {q : Ask} {next : Answer q → Exchange Ask Answer ε α} {t : List (Event Answer)} {r : Except ε α}
      (a : Answer q) : Runs (next a) t r → Runs (.ask q next) (⟨q, a⟩ :: t) r

section Runs
variable {x : Exchange Ask Answer ε α} {t : List (Event Answer)} {r : Except ε α}

@[simp] theorem runs_done {a : α} : Runs (.done a : Exchange Ask Answer ε α) t r ↔ t = [] ∧ r = .ok a := by
  constructor
  · intro h
    cases h
    exact ⟨rfl, rfl⟩
  · rintro ⟨rfl, rfl⟩
    exact .done a

@[simp] theorem runs_fail {e : ε} : Runs (.fail e : Exchange Ask Answer ε α) t r ↔ t = [] ∧ r = .error e := by
  constructor
  · intro h
    cases h
    exact ⟨rfl, rfl⟩
  · rintro ⟨rfl, rfl⟩
    exact .fail e

theorem runs_ask {q : Ask} {next : Answer q → Exchange Ask Answer ε α} :
    Runs (.ask q next) t r ↔ ∃ a t', t = ⟨q, a⟩ :: t' ∧ Runs (next a) t' r := by
  constructor
  · intro h
    cases h with
    | ask a h => exact ⟨a, _, rfl, h⟩
  · rintro ⟨a, t', rfl, h⟩
    exact .ask a h

/-- **Runs in sequence**: the first part fails, or returns and the second part runs on what it returned. -/
theorem runs_bind {f : α → Exchange Ask Answer ε β} {r : Except ε β} :
    Runs (x >>= f) t r ↔
      (∃ e, Runs x t (.error e) ∧ r = .error e) ∨ ∃ a t₁ t₂, t = t₁ ++ t₂ ∧ Runs x t₁ (.ok a) ∧ Runs (f a) t₂ r := by
  induction x generalizing t with
  | done a =>
      constructor
      · intro h
        exact Or.inr ⟨a, [], t, rfl, .done a, h⟩
      · rintro (⟨e, h, -⟩ | ⟨a', t₁, t₂, rfl, h, hf⟩)
        · cases h
        · cases h
          exact hf
  | fail e =>
      constructor
      · intro h
        obtain ⟨rfl, rfl⟩ := runs_fail.mp h
        exact Or.inl ⟨e, .fail e, rfl⟩
      · rintro (⟨e', h, rfl⟩ | ⟨a, t₁, t₂, rfl, h, -⟩)
        · cases h
          exact .fail e
        · cases h
  | ask q next ih =>
      constructor
      · intro h
        obtain ⟨a, t', rfl, hnext⟩ := runs_ask.mp h
        rcases (ih a).mp hnext with ⟨e, hx, rfl⟩ | ⟨b, t₁, t₂, rfl, hx, hf⟩
        · exact Or.inl ⟨e, .ask a hx, rfl⟩
        · exact Or.inr ⟨b, ⟨q, a⟩ :: t₁, t₂, rfl, .ask a hx, hf⟩
      · rintro (⟨e, h, rfl⟩ | ⟨b, t₁, t₂, rfl, h, hf⟩)
        · obtain ⟨a, t', rfl, hnext⟩ := runs_ask.mp h
          exact .ask a ((ih a).mpr (Or.inl ⟨e, hnext, rfl⟩))
        · obtain ⟨a, t', rfl, hnext⟩ := runs_ask.mp h
          exact .ask a ((ih a).mpr (Or.inr ⟨b, t', t₂, rfl, hnext, hf⟩))

/-- A part that returns, and the rest. -/
theorem Runs.bind {f : α → Exchange Ask Answer ε β} {a : α} {t₁ t₂ : List (Event Answer)} {r : Except ε β}
    (h : Runs x t₁ (.ok a)) (hf : Runs (f a) t₂ r) : Runs (x >>= f) (t₁ ++ t₂) r :=
  runs_bind.mpr (Or.inr ⟨a, t₁, t₂, rfl, h, hf⟩)

/-- A part that fails. -/
theorem Runs.bind_fail {f : α → Exchange Ask Answer ε β} {e : ε} (h : Runs x t (.error e)) :
    Runs (x >>= f) t (.error e) := runs_bind.mpr (Or.inl ⟨e, h, rfl⟩)

@[simp] theorem runs_lift {y : Except ε α} :
    Runs (lift y : Exchange Ask Answer ε α) t r ↔ t = [] ∧ r = y := by
  cases y <;> simp

@[simp] theorem runs_query {q : Ask} {r : Except ε (Answer q)} :
    Runs (query q : Exchange Ask Answer ε (Answer q)) t r ↔ ∃ a, t = [⟨q, a⟩] ∧ r = .ok a := by
  rw [query, runs_ask]
  constructor
  · rintro ⟨a, t', rfl, h⟩
    obtain ⟨rfl, rfl⟩ := runs_done.mp h
    exact ⟨a, rfl, rfl⟩
  · rintro ⟨a, rfl, rfl⟩
    exact ⟨a, [], rfl, .done a⟩

theorem runs_recover {f : ε → Exchange Ask Answer ε' α} {r : Except ε' α} :
    Runs (recover x f) t r ↔
      (∃ a, Runs x t (.ok a) ∧ r = .ok a) ∨ ∃ e t₁ t₂, t = t₁ ++ t₂ ∧ Runs x t₁ (.error e) ∧ Runs (f e) t₂ r := by
  induction x generalizing t with
  | done a =>
      constructor
      · intro h
        obtain ⟨rfl, rfl⟩ := runs_done.mp h
        exact Or.inl ⟨a, .done a, rfl⟩
      · rintro (⟨a', h, rfl⟩ | ⟨e, t₁, t₂, rfl, h, -⟩)
        · cases h
          exact .done a
        · cases h
  | fail e =>
      constructor
      · intro h
        exact Or.inr ⟨e, [], t, rfl, .fail e, h⟩
      · rintro (⟨a, h, -⟩ | ⟨e', t₁, t₂, rfl, h, hf⟩)
        · cases h
        · cases h
          exact hf
  | ask q next ih =>
      constructor
      · intro h
        obtain ⟨a, t', rfl, hnext⟩ := runs_ask.mp h
        rcases (ih a).mp hnext with ⟨b, hx, rfl⟩ | ⟨e, t₁, t₂, rfl, hx, hf⟩
        · exact Or.inl ⟨b, .ask a hx, rfl⟩
        · exact Or.inr ⟨e, ⟨q, a⟩ :: t₁, t₂, rfl, .ask a hx, hf⟩
      · rintro (⟨b, h, rfl⟩ | ⟨e, t₁, t₂, rfl, h, hf⟩)
        · obtain ⟨a, t', rfl, hnext⟩ := runs_ask.mp h
          exact .ask a ((ih a).mpr (Or.inl ⟨b, hnext, rfl⟩))
        · obtain ⟨a, t', rfl, hnext⟩ := runs_ask.mp h
          exact .ask a ((ih a).mpr (Or.inr ⟨e, t', t₂, rfl, hnext, hf⟩))

/-- An attempted program never fails: it runs as it would. -/
theorem runs_attempt {r : Except ε' (Except ε α)} : Runs (attempt x) t r ↔ ∃ r', Runs x t r' ∧ r = .ok r' := by
  induction x generalizing t with
  | done a =>
      rw [attempt, runs_done]
      constructor
      · rintro ⟨rfl, rfl⟩
        exact ⟨.ok a, .done a, rfl⟩
      · rintro ⟨r', h, rfl⟩
        cases h
        exact ⟨rfl, rfl⟩
  | fail e =>
      rw [attempt, runs_done]
      constructor
      · rintro ⟨rfl, rfl⟩
        exact ⟨.error e, .fail e, rfl⟩
      · rintro ⟨r', h, rfl⟩
        cases h
        exact ⟨rfl, rfl⟩
  | ask q next ih =>
      rw [attempt, runs_ask]
      constructor
      · rintro ⟨a, t', rfl, hnext⟩
        obtain ⟨r', hx, rfl⟩ := (ih a).mp hnext
        exact ⟨r', .ask a hx, rfl⟩
      · rintro ⟨r', h, rfl⟩
        obtain ⟨a, t', rfl, hnext⟩ := runs_ask.mp h
        exact ⟨a, t', rfl, (ih a).mpr ⟨r', hnext, rfl⟩⟩

/-- **A watched program** never fails: it runs as it would, and says whether an answer was marked. -/
theorem runs_watch {mark : (q : Ask) → Answer q → Bool} {seen : Bool} {r : Except ε' (Except ε α × Bool)} :
    Runs (watch mark seen x) t r ↔ ∃ r', Runs x t r' ∧ r = .ok (r', seen || t.any fun e => mark e.1 e.2) := by
  induction x generalizing t seen with
  | done a =>
      rw [watch, runs_done]
      constructor
      · rintro ⟨rfl, rfl⟩
        exact ⟨.ok a, .done a, by simp⟩
      · rintro ⟨r', h, rfl⟩
        cases h
        simp
  | fail e =>
      rw [watch, runs_done]
      constructor
      · rintro ⟨rfl, rfl⟩
        exact ⟨.error e, .fail e, by simp⟩
      · rintro ⟨r', h, rfl⟩
        cases h
        simp
  | ask q next ih =>
      rw [watch, runs_ask]
      constructor
      · rintro ⟨a, t', rfl, hnext⟩
        obtain ⟨r', hx, rfl⟩ := (ih a).mp hnext
        exact ⟨r', .ask a hx, by rw [List.any_cons, Bool.or_assoc]⟩
      · rintro ⟨r', h, rfl⟩
        obtain ⟨a, t', rfl, hnext⟩ := runs_ask.mp h
        exact ⟨a, t', rfl, (ih a).mpr ⟨r', hnext, by rw [List.any_cons, Bool.or_assoc]⟩⟩

end Runs

/-! ## What every run asks -/

/-- Whatever is answered, every question satisfies `P`. -/
def Asks (P : Ask → Prop) : Exchange Ask Answer ε α → Prop
  | .done _     => True
  | .fail _     => True
  | .ask q next => P q ∧ ∀ a, (next a).Asks P

section Asks
variable {P P' : Ask → Prop} {x : Exchange Ask Answer ε α}

/-- **The questions of a run.** -/
theorem Asks.mem (hx : x.Asks P) {t : List (Event Answer)} {r : Except ε α} (hr : Runs x t r) : ∀ e ∈ t, P e.1 := by
  induction hr with
  | done a => simp
  | fail e => simp
  | @ask q next t r a hr ih =>
      intro e he
      rcases List.mem_cons.mp he with rfl | he
      · exact hx.1
      · exact ih (hx.2 a) e he

theorem Asks.mono (hx : x.Asks P) (h : ∀ q, P q → P' q) : x.Asks P' := by
  induction x with
  | done a => trivial
  | fail e => trivial
  | ask q next ih => exact ⟨h q hx.1, fun a => ih a (hx.2 a)⟩

theorem Asks.bind {f : α → Exchange Ask Answer ε β} (hx : x.Asks P) (hf : ∀ a, (f a).Asks P) : (x >>= f).Asks P := by
  induction x with
  | done a => exact hf a
  | fail e => trivial
  | ask q next ih => exact ⟨hx.1, fun a => ih a (hx.2 a)⟩

theorem asks_lift {y : Except ε α} : (lift y : Exchange Ask Answer ε α).Asks P := by cases y <;> trivial

theorem asks_query {q : Ask} (hq : P q) : (query q : Exchange Ask Answer ε (Answer q)).Asks P :=
  ⟨hq, fun _ => trivial⟩

theorem Asks.recover {f : ε → Exchange Ask Answer ε' α} (hx : x.Asks P) (hf : ∀ e, (f e).Asks P) :
    (x.recover f).Asks P := by
  induction x with
  | done a => trivial
  | fail e => exact hf e
  | ask q next ih => exact ⟨hx.1, fun a => ih a (hx.2 a)⟩

theorem Asks.watch {mark : (q : Ask) → Answer q → Bool} {seen : Bool} (hx : x.Asks P) :
    (x.watch mark seen : Exchange Ask Answer ε' (Except ε α × Bool)).Asks P := by
  induction x generalizing seen with
  | done a => trivial
  | fail e => trivial
  | ask q next ih => exact ⟨hx.1, fun a => ih a (hx.2 a)⟩

end Asks

end Exchange
