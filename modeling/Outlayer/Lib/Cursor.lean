import Mathlib.Data.List.Basic

/-!
# `Lib.Cursor` — reading a buffer with a cursor

A reader walks a buffer from a position: it ends with a value and a later position, or it fails. What it accepts is a
*spelling*: which values it ends with, and over which stretch of the buffer. `Reads` ties the two together, with one
rule for each way of putting readers together, so that the spelling of a parser is put together as the parser is.

Nothing here knows what is parsed; `Reads.whole` is what a caller that asks for the last byte takes away.
-/

namespace Outlayer
namespace Cursors

variable {β α γ σ ι : Type}

/-- A buffer and how far it has been read. -/
structure Cursor (β : Type) where
  buf : List β
  pos : Nat

/-- A computation that reads from a cursor and may fail. -/
abbrev Reader (β α : Type) := StateT (Cursor β) Option α

namespace Cursor

/-- What is left to read. -/
def rest (c : Cursor β) : List β := c.buf.drop c.pos

/-- The cursor some elements further on. -/
def advance (c : Cursor β) (n : Nat) : Cursor β := { c with pos := c.pos + n }

@[simp] theorem advance_pos (c : Cursor β) (n : Nat) : (c.advance n).pos = c.pos + n := rfl
@[simp] theorem advance_buf (c : Cursor β) (n : Nat) : (c.advance n).buf = c.buf := rfl
theorem advance_advance (c : Cursor β) (m n : Nat) : (c.advance m).advance n = c.advance (m + n) := by
  simp only [advance, Nat.add_assoc]

theorem rest_advance (c : Cursor β) (n : Nat) : (c.advance n).rest = c.rest.drop n := by
  simp only [rest, advance, List.drop_drop]

theorem length_rest (c : Cursor β) : c.rest.length = c.buf.length - c.pos := List.length_drop

end Cursor

/-! ## Readers -/

/-- One element. -/
def next : Reader β β := fun c => (c.buf[c.pos]?).map fun b => (b, c.advance 1)

/-- Past `n` elements, whatever they are. -/
def skip (n : Nat) : Reader β Unit := fun c =>
  if c.buf.length < c.pos + n then none else some ((), c.advance n)

/-- No value. -/
def refuse : Reader β α := fun _ => none

/-- A loop that runs `n` times and may stop early only by failing. -/
def times (step : σ → Reader β σ) : Nat → σ → Reader β σ
  | 0, s     => pure s
  | n + 1, s => step s >>= times step n

/-! ## Spellings -/

/-- Which stretches of a buffer say which value. -/
abbrev Spelling (β α : Type) := α → List β → Prop

/-- Items one after the other. -/
def Each (S : Spelling β ι) : Spelling β (List ι)
  | [], b      => b = []
  | x :: xs, b => ∃ b₁ b₂, S x b₁ ∧ Each S xs b₂ ∧ b = b₁ ++ b₂

/-- `p` ends with a value exactly over the stretches that spell it, and just past them. -/
def Reads (p : Reader β α) (S : Spelling β α) : Prop :=
  ∀ (c c' : Cursor β) (a : α), c.pos ≤ c.buf.length →
    (p c = some (a, c') ↔ ∃ b, S a b ∧ b <+: c.rest ∧ c' = c.advance b.length)

theorem pos_le_of_rest {c : Cursor β} {b : List β} (hc : c.pos ≤ c.buf.length) (hb : b <+: c.rest) :
    (c.advance b.length).pos ≤ (c.advance b.length).buf.length := by
  have hlen := hb.length_le
  rw [c.length_rest] at hlen
  simp only [Cursor.advance_pos, Cursor.advance_buf]
  omega

theorem append_prefix_rest {c : Cursor β} {b₁ b₂ : List β} :
    b₁ ++ b₂ <+: c.rest ↔ b₁ <+: c.rest ∧ b₂ <+: (c.advance b₁.length).rest := by
  rw [c.rest_advance]
  constructor
  · rintro ⟨t, ht⟩
    refine ⟨⟨b₂ ++ t, by rw [← ht, List.append_assoc]⟩, ⟨t, ?_⟩⟩
    rw [← ht, List.append_assoc, List.drop_left]
  · rintro ⟨⟨t, ht⟩, ⟨t', ht'⟩⟩
    rw [← ht, List.drop_left] at ht'
    exact ⟨t', by rw [← ht, ← ht', List.append_assoc]⟩

namespace Reads

variable {p : Reader β α} {f : α → Reader β γ} {S T : Spelling β α} {U : α → Spelling β γ}

theorem congr (hp : Reads p S) (h : ∀ a b, S a b ↔ T a b) : Reads p T := by
  intro c c' a hc
  rw [hp c c' a hc]
  exact exists_congr fun b => and_congr_left' (h a b)

protected theorem pure (a : α) : Reads (pure a : Reader β α) (fun x b => x = a ∧ b = []) := by
  intro c c' x _
  show some (a, c) = some (x, c') ↔ _
  constructor
  · intro h
    obtain ⟨rfl, rfl⟩ := Prod.mk.inj (Option.some.inj h)
    exact ⟨[], ⟨rfl, rfl⟩, List.nil_prefix, rfl⟩
  · rintro ⟨b, ⟨rfl, rfl⟩, -, rfl⟩
    rfl

protected theorem refuse : Reads (refuse : Reader β α) (fun _ _ => False) := by
  intro c c' x _
  constructor
  · intro h
    cases h
  · rintro ⟨b, hb, -⟩
    exact hb.elim

/-- One reader after the other: the stretches follow each other. -/
protected theorem bind (hp : Reads p S) (hf : ∀ a, Reads (f a) (U a)) :
    Reads (p >>= f) (fun x b => ∃ a b₁ b₂, S a b₁ ∧ U a x b₂ ∧ b = b₁ ++ b₂) := by
  intro c c' x hc
  have hrun : (p >>= f) c = (p c).bind fun r => f r.1 r.2 := rfl
  rw [hrun, Option.bind_eq_some_iff]
  constructor
  · rintro ⟨⟨a, c₁⟩, hpc, hfc⟩
    obtain ⟨b₁, hb₁, hpre₁, rfl⟩ := (hp c c₁ a hc).mp hpc
    obtain ⟨b₂, hb₂, hpre₂, rfl⟩ := (hf a _ c' x (pos_le_of_rest hc hpre₁)).mp hfc
    refine ⟨b₁ ++ b₂, ⟨a, b₁, b₂, hb₁, hb₂, rfl⟩, append_prefix_rest.mpr ⟨hpre₁, hpre₂⟩, ?_⟩
    rw [Cursor.advance_advance, List.length_append]
  · rintro ⟨b, ⟨a, b₁, b₂, hb₁, hb₂, rfl⟩, hpre, rfl⟩
    obtain ⟨hpre₁, hpre₂⟩ := append_prefix_rest.mp hpre
    refine ⟨(a, c.advance b₁.length), (hp c _ a hc).mpr ⟨b₁, hb₁, hpre₁, rfl⟩, ?_⟩
    refine (hf a _ _ x (pos_le_of_rest hc hpre₁)).mpr ⟨b₂, hb₂, hpre₂, ?_⟩
    rw [Cursor.advance_advance, List.length_append]

/-- A check that only decides whether to go on. -/
theorem check (q : Prop) [Decidable q] (hp : Reads p S) :
    Reads (if q then refuse else p) (fun a b => ¬ q ∧ S a b) := by
  split
  · next hq => exact Reads.refuse.congr fun a b => (iff_false_intro fun h => h.1 hq).symm
  · next hq => exact hp.congr fun a b => (and_iff_right hq).symm

theorem ite {r : Reader β α} (q : Prop) [Decidable q] (hp : Reads p S) (hr : Reads r T) :
    Reads (if q then p else r) (fun a b => q ∧ S a b ∨ ¬ q ∧ T a b) := by
  split
  · next hq => exact hp.congr fun a b => by simp only [hq, true_and, not_true, false_and, or_false]
  · next hq => exact hr.congr fun a b => by simp only [hq, false_and, not_false_eq_true, true_and, false_or]

protected theorem next : Reads (next : Reader β β) (fun x b => b = [x]) := by
  intro c c' x _
  have hget : c.buf[c.pos]? = c.rest.head? := by rw [Cursor.rest, List.head?_drop]
  have hrun : (next : Reader β β) c = (c.buf[c.pos]?).map fun b => (b, c.advance 1) := rfl
  rw [hrun, hget, Option.map_eq_some_iff]
  constructor
  · rintro ⟨y, hy, heq⟩
    obtain ⟨rfl, rfl⟩ := Prod.mk.inj heq
    obtain ⟨t, ht⟩ := List.head?_eq_some_iff.mp hy
    exact ⟨[y], rfl, ⟨t, ht.symm⟩, rfl⟩
  · rintro ⟨b, rfl, ⟨t, ht⟩, rfl⟩
    exact ⟨x, by rw [← ht]; rfl, rfl⟩

protected theorem skip (n : Nat) : Reads (skip n : Reader β Unit) (fun _ b => b.length = n) := by
  intro c c' u hc
  have hrun : (skip n : Reader β Unit) c = if c.buf.length < c.pos + n then none else some ((), c.advance n) := rfl
  rw [hrun]
  constructor
  · intro h
    split at h
    · cases h
    · next hlen =>
        have heq := (Prod.mk.inj (Option.some.inj h)).2
        have htake : (c.rest.take n).length = n := by
          rw [List.length_take, c.length_rest]
          omega
        exact ⟨c.rest.take n, htake, List.take_prefix n c.rest, by rw [htake, heq]⟩
  · rintro ⟨b, rfl, hpre, rfl⟩
    have hpos := pos_le_of_rest hc hpre
    simp only [Cursor.advance_pos, Cursor.advance_buf] at hpos
    rw [if_neg (by omega)]

/-- A loop over items, each of which changes what the loop carries. -/
protected theorem times {step : σ → Reader β σ} {I : Spelling β ι} {f : σ → ι → σ}
    (hstep : ∀ s, Reads (step s) (fun s' b => ∃ x, I x b ∧ s' = f s x)) :
    ∀ n s, Reads (times step n s) (fun s' b => ∃ xs : List ι, xs.length = n ∧ Each I xs b ∧ s' = xs.foldl f s)
  | 0, s => by
      refine (Reads.pure s).congr fun s' b => ⟨?_, ?_⟩
      · rintro ⟨rfl, rfl⟩
        exact ⟨[], rfl, rfl, rfl⟩
      · rintro ⟨xs, hlen, heach, rfl⟩
        obtain rfl := List.length_eq_zero_iff.mp hlen
        exact ⟨rfl, heach⟩
  | n + 1, s => by
      refine ((hstep s).bind fun s₁ => Reads.times hstep n s₁).congr fun s' b => ⟨?_, ?_⟩
      · rintro ⟨s₁, b₁, b₂, ⟨x, hx, rfl⟩, ⟨xs, hlen, heach, rfl⟩, rfl⟩
        exact ⟨x :: xs, by rw [List.length_cons, hlen], ⟨b₁, b₂, hx, heach, rfl⟩, rfl⟩
      · rintro ⟨xs, hlen, heach, rfl⟩
        obtain ⟨x, xs, rfl⟩ := List.exists_cons_of_length_eq_add_one hlen
        obtain ⟨b₁, b₂, hx, hxs, rfl⟩ := heach
        exact ⟨f s x, b₁, b₂, ⟨x, hx, rfl⟩, ⟨xs, Nat.succ.inj hlen, hxs, rfl⟩, rfl⟩

/-- A reader that must end at the end of the buffer. -/
theorem whole (hp : Reads p S) {c : Cursor β} (hc : c.pos ≤ c.buf.length) :
    (∃ a c', p c = some (a, c') ∧ c'.pos = c.buf.length) ↔ ∃ a, S a c.rest := by
  constructor
  · rintro ⟨a, c', hrun, hend⟩
    obtain ⟨b, hb, hpre, rfl⟩ := (hp c c' a hc).mp hrun
    have hlen : b.length = c.rest.length := by
      rw [c.length_rest]
      simp only [Cursor.advance_pos] at hend
      omega
    rw [hpre.eq_of_length hlen] at hb
    exact ⟨a, hb⟩
  · rintro ⟨a, ha⟩
    refine ⟨a, _, (hp c _ a hc).mpr ⟨c.rest, ha, List.prefix_rfl, rfl⟩, ?_⟩
    simp only [Cursor.advance_pos, c.length_rest]
    omega

end Reads

end Cursors
end Outlayer
