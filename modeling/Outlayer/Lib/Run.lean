import Mathlib.Algebra.GroupWithZero.Nat
import Mathlib.Data.List.Basic

/-!
# `Lib.Run` — runs of a deterministic system, and the rules to reason about them

A system is a partial step function `next : S → E → Option (S × O)`: in state `s` the event `e` either cannot
happen (`none`) or leads to a new state and some output. A `Run` lists the steps that happened as
`Transition`s, so that a property of a whole history ("this happened at most once", "this much came in") is a
statement about one list.

* `Run.invariant` — what every allowed step keeps holds at the end of every run whose steps are allowed;
* `Run.balance` — a quantity every step changes by a known gain and loss is the start plus all gains minus
  all losses;
* `Run.at_split`, `Run.fired` — a run cut at one of its steps: a run up to it, the step, a run after it;
* `Run.stays` — an invariant around every step; `Run.since` — the step that brought about what holds now;
  `Run.until` — the step that put an end to what held at the start; `pairwise_iff_split` — any two steps.
-/

namespace Runs

/-- One step of a run as it happened. -/
structure Transition (S E O : Type) where
  pre : S
  event : E
  out : O
  post : S

variable {S E O : Type}

/-- `t` is a step the system can take. -/
def Fires (next : S → E → Option (S × O)) (t : Transition S E O) : Prop :=
  next t.pre t.event = some (t.post, t.out)

/-- The runs of a system from `s₀`: the steps taken, oldest first, and the state they lead to. -/
inductive Run (next : S → E → Option (S × O)) (s₀ : S) : List (Transition S E O) → S → Prop
  | start : Run next s₀ [] s₀
  | step {tr : List (Transition S E O)} {t : Transition S E O} :
      Run next s₀ tr t.pre → Fires next t → Run next s₀ (tr ++ [t]) t.post

variable {next : S → E → Option (S × O)} {s₀ : S}

/-- **Invariants.** `I` holds at the start and every step allowed by `C` keeps it, so it holds after every
    run of allowed steps. -/
theorem Run.invariant_of {I : S → Prop} {C : Transition S E O → Prop} (h0 : I s₀)
    (hstep : ∀ t, Fires next t → C t → I t.pre → I t.post) {tr : List (Transition S E O)} {s : S}
    (h : Run next s₀ tr s) : (∀ t ∈ tr, C t) → I s := by
  induction h with
  | start => exact fun _ => h0
  | @step tr t _ hf ih =>
      intro hc
      exact hstep t hf (hc t (by simp)) (ih (fun u hu => hc u (List.mem_append_left _ hu)))

/-- An invariant every step keeps holds after every run. -/
theorem Run.invariant {I : S → Prop} (h0 : I s₀)
    (hstep : ∀ t, Fires next t → I t.pre → I t.post) {tr : List (Transition S E O)} {s : S}
    (h : Run next s₀ tr s) : I s :=
  h.invariant_of (C := fun _ => True) h0 (fun t hf _ hi => hstep t hf hi) (fun _ _ => trivial)

/-- **Accounting.** When every step satisfies `Φ post + loss = Φ pre + gain`, the end state holds the start
    value plus every gain, less every loss. -/
theorem Run.balance (I : S → Prop) (Φ : S → Nat) (gain loss : Transition S E O → Nat) (h0 : I s₀)
    (hinv : ∀ t, Fires next t → I t.pre → I t.post)
    (hstep : ∀ t, Fires next t → I t.pre → Φ t.post + loss t = Φ t.pre + gain t)
    {tr : List (Transition S E O)} {s : S} (h : Run next s₀ tr s) :
    Φ s + (tr.map loss).sum = Φ s₀ + (tr.map gain).sum := by
  induction h with
  | start => simp
  | @step tr t hrun hf ih =>
      have hs := hstep t hf (hrun.invariant h0 hinv)
      simp only [List.map_append, List.sum_append, List.map_cons, List.map_nil, List.sum_cons,
        List.sum_nil]
      omega

/-- **Cutting a run at a step.** -/
theorem Run.at_split {tr₁ tr₂ : List (Transition S E O)} {t : Transition S E O} {s : S}
    (h : Run next s₀ (tr₁ ++ t :: tr₂) s) :
    Run next s₀ tr₁ t.pre ∧ Fires next t ∧ Run next t.post tr₂ s := by
  generalize he : tr₁ ++ t :: tr₂ = tr at h
  induction h generalizing tr₂ with
  | start => simp at he
  | @step tr u hrun hf ih =>
      rcases List.eq_nil_or_concat tr₂ with rfl | ⟨init, z, rfl⟩
      · obtain ⟨rfl, hu⟩ := List.append_inj' he rfl
        obtain rfl : t = u := by simpa using hu
        exact ⟨hrun, hf, .start⟩
      · rw [List.concat_eq_append] at *
        rw [← List.cons_append, ← List.append_assoc] at he
        obtain ⟨he', hz⟩ := List.append_inj' he rfl
        obtain rfl : z = u := by simpa using hz
        obtain ⟨h1, h2, h3⟩ := ih he'
        exact ⟨h1, h2, .step h3 hf⟩

/-- Every step of a run fired, from a state the run had reached. -/
theorem Run.fired {tr : List (Transition S E O)} {s : S} (h : Run next s₀ tr s)
    {t : Transition S E O} (ht : t ∈ tr) : ∃ tr₁, Run next s₀ tr₁ t.pre ∧ Fires next t := by
  obtain ⟨tr₁, tr₂, rfl⟩ := List.append_of_mem ht
  obtain ⟨h1, h2, -⟩ := h.at_split
  exact ⟨tr₁, h1, h2⟩

/-- An invariant holds before and after every step of a run. -/
theorem Run.stays {I : S → Prop} (h0 : I s₀) (hstep : ∀ t, Fires next t → I t.pre → I t.post)
    {tr : List (Transition S E O)} {s : S} (h : Run next s₀ tr s) {t : Transition S E O} (ht : t ∈ tr) :
    I t.pre ∧ I t.post := by
  obtain ⟨tr₁, hrun, hf⟩ := h.fired ht
  have hpre := hrun.invariant h0 hstep
  exact ⟨hpre, hstep t hf hpre⟩

/-- **Since when.** What holds now and did not hold at the start was brought about by some step, and has held
    since. -/
theorem Run.since {Q : S → Prop} (h0 : ¬ Q s₀) {tr : List (Transition S E O)} {s : S}
    (h : Run next s₀ tr s) (hs : Q s) :
    ∃ tr₁ t tr₂, tr = tr₁ ++ t :: tr₂ ∧ ¬ Q t.pre ∧ Q t.post ∧ ∀ u ∈ tr₂, Q u.pre ∧ Q u.post := by
  induction h with
  | start => exact absurd hs h0
  | @step tr t hrun hf ih =>
      by_cases hpre : Q t.pre
      · obtain ⟨tr₁, u, tr₂, rfl, hno, hyes, hsince⟩ := ih hpre
        refine ⟨tr₁, u, tr₂ ++ [t], by simp, hno, hyes, ?_⟩
        intro v hv
        rcases List.mem_append.mp hv with hv | hv
        · exact hsince v hv
        · obtain rfl := List.mem_singleton.mp hv
          exact ⟨hpre, hs⟩
      · exact ⟨tr, t, [], rfl, hpre, hs, fun u hu => absurd hu List.not_mem_nil⟩

/-- **Until when.** What holds at the start holds to the end, or some step puts an end to it. -/
theorem Run.until {Q : S → Prop} (h0 : Q s₀) {tr : List (Transition S E O)} {s : S} (h : Run next s₀ tr s) :
    (Q s ∧ ∀ u ∈ tr, Q u.pre ∧ Q u.post) ∨
      ∃ tr₁ t tr₂, tr = tr₁ ++ t :: tr₂ ∧ (∀ u ∈ tr₁, Q u.pre ∧ Q u.post) ∧ Q t.pre ∧ ¬ Q t.post := by
  induction h with
  | start => exact Or.inl ⟨h0, fun u hu => absurd hu List.not_mem_nil⟩
  | @step tr t hrun hf ih =>
      rcases ih with ⟨hpre, hall⟩ | ⟨tr₁, u, tr₂, rfl, hall, hyes, hno⟩
      · by_cases hpost : Q t.post
        · refine Or.inl ⟨hpost, ?_⟩
          intro v hv
          rcases List.mem_append.mp hv with hv | hv
          · exact hall v hv
          · obtain rfl := List.mem_singleton.mp hv
            exact ⟨hpre, hpost⟩
        · exact Or.inr ⟨tr, t, [], rfl, hall, hpre, hpost⟩
      · exact Or.inr ⟨tr₁, u, tr₂ ++ [t], by simp, hall, hyes, hno⟩

/-- What holds of any two steps, the earlier and the later one. -/
theorem pairwise_iff_split {R : Transition S E O → Transition S E O → Prop} {tr : List (Transition S E O)} :
    tr.Pairwise R ↔ ∀ tr₁ t tr₂ t' tr₃, tr = tr₁ ++ t :: tr₂ ++ t' :: tr₃ → R t t' := by
  constructor
  · rintro h tr₁ t tr₂ t' tr₃ rfl
    rw [List.pairwise_append] at h
    exact h.2.2 t (by simp) t' (by simp)
  · intro h
    induction tr with
    | nil => exact List.Pairwise.nil
    | cons a as ih =>
        refine List.Pairwise.cons ?_ (ih ?_)
        · intro b hb
          obtain ⟨as₁, as₂, rfl⟩ := List.append_of_mem hb
          exact h [] a as₁ b as₂ rfl
        · rintro tr₁ t tr₂ t' tr₃ rfl
          exact h (a :: tr₁) t tr₂ t' tr₃ rfl

/-- A finite sequence of events, replayed: the transitions it makes, if every event can happen. -/
def replay (next : S → E → Option (S × O)) (s : S) : List E → Option (List (Transition S E O) × S)
  | []      => some ([], s)
  | e :: es =>
      match next s e with
      | none          => none
      | some (s', o)  => (replay next s' es).map fun r => (⟨s, e, o, s'⟩ :: r.1, r.2)

theorem replay_cons {e : E} {es : List E} {s s' : S} {tr : List (Transition S E O)}
    (h : replay next s (e :: es) = some (tr, s')) :
    ∃ s₁ o tr', next s e = some (s₁, o) ∧ replay next s₁ es = some (tr', s') ∧ tr = ⟨s, e, o, s₁⟩ :: tr' := by
  unfold replay at h
  cases hn : next s e with
  | none => simp [hn] at h
  | some so =>
      obtain ⟨s₁, o⟩ := so
      simp only [hn, Option.map_eq_some_iff, Prod.mk.injEq] at h
      obtain ⟨⟨tr', s''⟩, hr, rfl, rfl⟩ := h
      exact ⟨s₁, o, tr', rfl, hr, rfl⟩

/-- Appending runs. -/
theorem Run.append {tr₁ tr₂ : List (Transition S E O)} {s s' : S} (h₁ : Run next s₀ tr₁ s)
    (h₂ : Run next s tr₂ s') : Run next s₀ (tr₁ ++ tr₂) s' := by
  induction h₂ with
  | start => simpa using h₁
  | step _ hf ih =>
      rw [← List.append_assoc]
      exact .step ih hf

/-- A replay that goes through is a run. -/
theorem run_of_replay {es : List E} {s s' : S} {tr : List (Transition S E O)}
    (h : replay next s es = some (tr, s')) : Run next s tr s' := by
  induction es generalizing s tr with
  | nil =>
      obtain ⟨rfl, rfl⟩ : [] = tr ∧ s = s' := by simpa [replay] using h
      exact .start
  | cons e es ih =>
      obtain ⟨s₁, o, tr', hn, hr, rfl⟩ := replay_cons h
      have h1 : Run next s ([] ++ [⟨s, e, o, s₁⟩]) s₁ := Run.step (t := ⟨s, e, o, s₁⟩) .start hn
      exact h1.append (ih hr)

/-- A replay whose result passes a test gives a run whose end passes it. -/
theorem exists_run {p : List (Transition S E O) × S → Bool} {es : List E}
    (h : (replay next s₀ es).any p = true) : ∃ tr s, Run next s₀ tr s ∧ p (tr, s) = true := by
  obtain ⟨⟨tr, s⟩, hr, hp⟩ := (Option.any_eq_true p _).mp h
  exact ⟨tr, s, run_of_replay hr, hp⟩

/-- The steps of a replay are of the events replayed. -/
theorem replay_events {es : List E} {s s' : S} {tr : List (Transition S E O)}
    (h : replay next s es = some (tr, s')) : tr.map Transition.event = es := by
  induction es generalizing s tr with
  | nil =>
      obtain ⟨rfl, -⟩ : [] = tr ∧ s = s' := by simpa [replay] using h
      rfl
  | cons e es ih =>
      obtain ⟨s₁, o, tr', -, hr, rfl⟩ := replay_cons h
      rw [List.map_cons, ih hr]

/-- A test of the steps of a run of two. -/
def ofTwo {T : Type} (p : T → T → Bool) : List T → Bool
  | [t, u] => p t u
  | _      => false

/-- A test of the steps of a run of three. -/
def ofThree {T : Type} (p : T → T → T → Bool) : List T → Bool
  | [t, u, v] => p t u v
  | _         => false

theorem exists_of_ofTwo {T : Type} {p : T → T → Bool} {tr : List T} (h : ofTwo p tr = true) :
    ∃ t u, tr = [t, u] ∧ p t u = true := by
  unfold ofTwo at h
  split at h
  · exact ⟨_, _, rfl, h⟩
  · cases h

theorem exists_of_ofThree {T : Type} {p : T → T → T → Bool} {tr : List T} (h : ofThree p tr = true) :
    ∃ t u v, tr = [t, u, v] ∧ p t u v = true := by
  unfold ofThree at h
  split at h
  · exact ⟨_, _, _, rfl, h⟩
  · cases h

end Runs
