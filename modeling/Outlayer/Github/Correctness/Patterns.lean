import Outlayer.Github.Policy
import Outlayer.Lib.Wildcard

/-!
# `Github.Correctness.Patterns` — what a pattern of the policy means

The matcher goes through pattern and text once, with the last `*` and the place it stands for saved: where a letter does
not fit, that `*` takes one letter more and the rest is tried again. The earlier ones are never tried again, and need
not be. Every turn either moves on in the pattern or takes a letter from the text for good, so the loop ends.
-/

namespace Outlayer
open Wildcard

namespace Github

/-- The loop ends within so many turns. -/
inductive GlobEnds : Nat → List Char → List Char → Option (List Char × List Char) → Prop
  | text (turns : Nat) (p : List Char) (saved : Option (List Char × List Char)) : GlobEnds (turns + 1) p [] saved
  | refused {turns : Nat} {p t : List Char} {c : Char} {saved : Option (List Char × List Char)}
      (step : globStep p c t saved = none) : GlobEnds (turns + 1) p (c :: t) saved
  | turn {turns : Nat} {p t p' t' : List Char} {c : Char} {saved saved' : Option (List Char × List Char)}
      (step : globStep p c t saved = some (p', t', saved')) (rest : GlobEnds turns p' t' saved') :
      GlobEnds (turns + 1) p (c :: t) saved

section Matcher
variable {p t p' t' : List Char} {c : Char} {saved saved' : Option (List Char × List Char)}

/-! ## One turn -/

/-- Where the loop can be: before the first `*`, or with the letters since the last one found in the text. -/
inductive GlobState : List Char → List Char → Option (List Char × List Char) → Prop
  | plain (p t : List Char) : GlobState p t none
  | starred (lit p t : List Char) (letters : '*' ∉ lit) : GlobState p t (some (lit ++ p, lit ++ t))

/-- What the loop has still to find out. -/
def globAsks (p t : List Char) (saved : Option (List Char × List Char)) : Prop :=
  match saved with
  | none                  => Matches '*' p t
  | some (afterStar, mark) => Matches '*' ('*' :: afterStar) mark

/-- The turns that may be left: for each letter the last `*` may still take, the pattern after it once more. -/
def turnsLeft (p t : List Char) (saved : Option (List Char × List Char)) : Nat :=
  match saved with
  | none                  => t.length * (p.length + 1) + p.length
  | some (afterStar, mark) => mark.length * (afterStar.length + 1) + p.length

/-- What the turn asks of the pattern: a `*`, the letter itself, or a longer run for the last `*`. -/
theorem globStep_cases (p : List Char) (c : Char) (t : List Char) (saved : Option (List Char × List Char)) :
    (∃ q, p = '*' :: q ∧ globStep p c t saved = some (q, c :: t, some (q, c :: t))) ∨
    (∃ q, p = c :: q ∧ c ≠ '*' ∧ globStep p c t saved = some (q, t, saved)) ∨
    (¬ Matches '*' p (c :: t) ∧ globStep p c t saved = globStep.lengthened saved) := by
  unfold globStep
  split
  · next q => exact Or.inl ⟨q, rfl, rfl⟩
  · next a q hstar =>
      right
      split
      · next heq => exact Or.inl ⟨q, by rw [heq], fun h => hstar (heq.trans h), rfl⟩
      · next hne => exact Or.inr ⟨fun h => hne ((matches_letter hstar).mp h).1, rfl⟩
  · exact Or.inr (Or.inr ⟨nofun, rfl⟩)

/-- A turn keeps the state, asks the same question and leaves fewer turns. -/
theorem globStep_some (hs : GlobState p (c :: t) saved) (h : globStep p c t saved = some (p', t', saved')) :
    GlobState p' t' saved' ∧ (globAsks p' t' saved' ↔ globAsks p (c :: t) saved) ∧
      turnsLeft p' t' saved' < turnsLeft p (c :: t) saved := by
  rcases globStep_cases p c t saved with ⟨q, rfl, hstep⟩ | ⟨q, rfl, hne, hstep⟩ | ⟨hno, hstep⟩
  · -- a `*`: it becomes the last one, and nothing was found after it yet
    rw [hstep] at h
    simp only [Option.some.injEq, Prod.mk.injEq] at h
    obtain ⟨rfl, rfl, rfl⟩ := h
    refine ⟨.starred [] q (c :: t) List.not_mem_nil, ?_, ?_⟩
    · cases hs with
      | plain => exact Iff.rfl
      | starred lit _ _ letters => exact (matches_later_wildcard letters).symm
    · cases hs with
      | plain =>
          show (c :: t).length * (q.length + 1) + q.length < (c :: t).length * (q.length + 1 + 1) + (q.length + 1)
          rw [Nat.mul_succ _ (q.length + 1)]
          omega
      | starred lit _ _ letters =>
          show (c :: t).length * (q.length + 1) + q.length <
            (lit ++ c :: t).length * ((lit ++ '*' :: q).length + 1) + (q.length + 1)
          have hmono : (c :: t).length * (q.length + 1) ≤
              (lit ++ c :: t).length * ((lit ++ '*' :: q).length + 1) :=
            Nat.mul_le_mul (by simp) (by simp; omega)
          omega
  · -- the letter: one more was found
    rw [hstep] at h
    simp only [Option.some.injEq, Prod.mk.injEq] at h
    obtain ⟨rfl, rfl, rfl⟩ := h
    cases hs with
    | plain =>
        refine ⟨.plain _ _, ?_, ?_⟩
        · show Matches '*' q t ↔ Matches '*' (c :: q) (c :: t)
          rw [matches_letter hne]
          exact (and_iff_right rfl).symm
        · show t.length * (q.length + 1) + q.length < (t.length + 1) * (q.length + 1 + 1) + (q.length + 1)
          have hmono : t.length * (q.length + 1) ≤ (t.length + 1) * (q.length + 1 + 1) :=
            Nat.mul_le_mul (Nat.le_succ _) (Nat.le_succ _)
          omega
    | starred lit _ _ letters =>
        have hnext := GlobState.starred (lit ++ [c]) q t (by simp [letters, Ne.symm hne])
        rw [List.append_assoc, List.append_assoc, List.singleton_append, List.singleton_append] at hnext
        exact ⟨hnext, Iff.rfl, Nat.add_lt_add_left (Nat.lt_succ_self _) _⟩
  · -- no fit: the last `*` takes the first letter of what it stands for
    cases hs with
    | plain =>
        rw [hstep] at h
        cases h
    | starred lit _ _ letters =>
        obtain ⟨d, mark, hmark⟩ : ∃ d mark, lit ++ c :: t = d :: mark :=
          List.exists_cons_of_ne_nil (List.append_ne_nil_of_right_ne_nil _ (List.cons_ne_nil _ _))
        rw [hmark] at h hstep ⊢
        rw [hstep, globStep.lengthened, Option.some.injEq, Prod.mk.injEq, Prod.mk.injEq] at h
        obtain ⟨rfl, rfl, rfl⟩ := h
        refine ⟨.starred [] (lit ++ p) mark List.not_mem_nil, ?_, ?_⟩
        · show Matches '*' ('*' :: (lit ++ p)) mark ↔ Matches '*' ('*' :: (lit ++ p)) (d :: mark)
          rw [matches_star_cons, ← hmark, matches_append letters]
          constructor
          · exact Or.inr
          · rintro (⟨rest, heq, hrest⟩ | hrest)
            · exact absurd (List.append_cancel_left heq ▸ hrest) hno
            · exact hrest
        · show mark.length * ((lit ++ p).length + 1) + (lit ++ p).length <
            (mark.length + 1) * ((lit ++ p).length + 1) + p.length
          rw [Nat.succ_mul]
          omega

/-- Where the loop gives up there is nothing to find. -/
theorem globStep_none (hs : GlobState p (c :: t) saved) (h : globStep p c t saved = none) :
    ¬ globAsks p (c :: t) saved := by
  rcases globStep_cases p c t saved with ⟨q, rfl, hstep⟩ | ⟨q, rfl, hne, hstep⟩ | ⟨hno, hstep⟩
  · rw [hstep] at h
    cases h
  · rw [hstep] at h
    cases h
  · cases hs with
    | plain => exact hno
    | starred lit _ _ letters =>
        obtain ⟨d, mark, hmark⟩ : ∃ d mark, lit ++ c :: t = d :: mark :=
          List.exists_cons_of_ne_nil (List.append_ne_nil_of_right_ne_nil _ (List.cons_ne_nil _ _))
        rw [hmark] at h hstep
        rw [hstep] at h
        cases h

/-- At the end of the text what is left of the pattern decides. -/
theorem globAsks_at_end (hs : GlobState p [] saved) : globAsks p [] saved ↔ p.all (· = '*') = true := by
  have hall : Matches '*' p [] ↔ p.all (· = '*') = true := by
    rw [matches_nil, List.all_eq_true]
    simp
  cases hs with
  | plain => exact hall
  | starred lit _ _ letters =>
      rw [← hall, globAsks, List.append_nil]
      exact matches_at_end letters

/-! ## The loop -/

/-- With a turn more than may be left, the loop ends and its answer is right. -/
theorem globLoop_correct (fuel : Nat) : ∀ {p t : List Char} {saved : Option (List Char × List Char)},
    GlobState p t saved → turnsLeft p t saved < fuel →
      GlobEnds fuel p t saved ∧ (globLoop fuel p t saved = true ↔ globAsks p t saved) := by
  induction fuel with
  | zero => exact fun _ h => absurd h (Nat.not_lt_zero _)
  | succ fuel ih =>
      intro p t saved hs hfuel
      cases t with
      | nil => exact ⟨.text _ _ _, (globAsks_at_end hs).symm⟩
      | cons c t =>
          cases hstep : globStep p c t saved with
          | none =>
              refine ⟨.refused hstep, ?_⟩
              rw [globLoop, hstep]
              exact iff_of_false Bool.false_ne_true (globStep_none hs hstep)
          | some next =>
              obtain ⟨p', t', saved'⟩ := next
              obtain ⟨hs', hasks, hless⟩ := globStep_some hs hstep
              obtain ⟨hends, hloop⟩ := ih hs' (by omega)
              refine ⟨.turn hstep hends, ?_⟩
              rw [globLoop, hstep, ← hasks]
              exact hloop

end Matcher

/-- **Patterns mean what the policy says.** A text fits a pattern if and only if it is the pattern with each `*`
    replaced by some run of characters; and on every input the loop ends within the turns it is given. -/
theorem glob_exact (pattern text : String) :
    (glob pattern text = true ↔
      ∃ runs, runs.length = pattern.toList.count '*' ∧ filled '*' pattern.toList runs = text.toList) ∧
    GlobEnds ((pattern.toList.length + 2) * (text.toList.length + 2)) pattern.toList text.toList none := by
  have hfuel : turnsLeft pattern.toList text.toList none <
      (pattern.toList.length + 2) * (text.toList.length + 2) := by
    show text.toList.length * (pattern.toList.length + 1) + pattern.toList.length < _
    have hmono : text.toList.length * (pattern.toList.length + 1) ≤
        text.toList.length * (pattern.toList.length + 2) := Nat.mul_le_mul_left _ (Nat.le_succ _)
    rw [Nat.mul_comm (pattern.toList.length + 2), Nat.add_mul]
    omega
  obtain ⟨hends, hloop⟩ := globLoop_correct _ (.plain _ _) hfuel
  exact ⟨hloop.trans matches_iff_filled, hends⟩

example : glob "a*b*c" "a-x-b-y-c" = true ∧ glob "docs/?" "docs/a" = false := by decide +kernel

end Github
end Outlayer
