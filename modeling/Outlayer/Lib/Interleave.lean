import Mathlib.Data.List.Forall2
import Outlayer.Lib.Exchange
import Outlayer.Lib.Run

/-!
# `Lib.Interleave` — programs that keep to a protocol, side by side over one store

Several programs run at once over one store, which answers some of what they ask. What one program may ask, and when,
is a *protocol*: a partial automaton over its exchanges. That a program keeps to its protocol says nothing of the
others; that all of them do is what an argument about the store rests on.

* `x.Keeps next post s` — from the protocol's state `s`, whatever is answered, `x` asks only what `next` lets it, and
  ends in a state that `post` describes, with one rule for each way to build a program;
* `x.announce` — the program that asks what `x` asks and says at its end what `x` came to;
* `Pool.step` — programs over one store, one exchange of one of them at a time, in any order;
* `Pool.invariant` — what every allowed exchange keeps of the store and of the programs' protocol states.
-/

open Runs

namespace Exchange

variable {Ask : Type} {Answer : Ask → Type} {ε ε' α β S L W H : Type}

/-! ## One program -/

/-- **Keeping to a protocol.** `next s q a` is where the protocol goes from `s` when `q` is answered `a`; there is no
    such state where it does not let `q` be asked. -/
def Keeps (next : S → (q : Ask) → Answer q → Option S) (post : Except ε α → S → Prop) :
    Exchange Ask Answer ε α → S → Prop
  | .done a,     s => post (.ok a) s
  | .fail e,     s => post (.error e) s
  | .ask q rest, s => ∀ a, ∃ s', next s q a = some s' ∧ (rest a).Keeps next post s'

section Keeps
variable {next : S → (q : Ask) → Answer q → Option S} {post post' mid : Except ε α → S → Prop}
  {x : Exchange Ask Answer ε α} {s : S}

theorem Keeps.mono (hx : x.Keeps next post s) (h : ∀ r s', post r s' → post' r s') : x.Keeps next post' s := by
  induction x generalizing s with
  | done a => exact h _ _ hx
  | fail e => exact h _ _ hx
  | ask q rest ih =>
      intro a
      obtain ⟨s', hs', hrest⟩ := hx a
      exact ⟨s', hs', ih a hrest⟩

/-- **One after the other**: what the first part ends with is where the second starts, or the end. -/
theorem Keeps.bind {f : α → Exchange Ask Answer ε β} {post : Except ε β → S → Prop} (hx : x.Keeps next mid s)
    (hok : ∀ a s', mid (.ok a) s' → (f a).Keeps next post s')
    (herror : ∀ e s', mid (.error e) s' → post (.error e) s') : (x >>= f).Keeps next post s := by
  induction x generalizing s with
  | done a => exact hok a s hx
  | fail e => exact herror e s hx
  | ask q rest ih =>
      intro a
      obtain ⟨s', hs', hrest⟩ := hx a
      exact ⟨s', hs', ih a hrest⟩

theorem Keeps.recover {f : ε → Exchange Ask Answer ε' α} {post : Except ε' α → S → Prop} (hx : x.Keeps next mid s)
    (hok : ∀ a s', mid (.ok a) s' → post (.ok a) s')
    (herror : ∀ e s', mid (.error e) s' → (f e).Keeps next post s') : (x.recover f).Keeps next post s := by
  induction x generalizing s with
  | done a => exact hok a s hx
  | fail e => exact herror e s hx
  | ask q rest ih =>
      intro a
      obtain ⟨s', hs', hrest⟩ := hx a
      exact ⟨s', hs', ih a hrest⟩

theorem Keeps.attempt (hx : x.Keeps next post s) :
    (x.attempt : Exchange Ask Answer ε' (Except ε α)).Keeps next (fun _ s' => ∃ r, post r s') s := by
  induction x generalizing s with
  | done a => exact ⟨_, hx⟩
  | fail e => exact ⟨_, hx⟩
  | ask q rest ih =>
      intro a
      obtain ⟨s', hs', hrest⟩ := hx a
      exact ⟨s', hs', ih a hrest⟩

theorem Keeps.watch {mark : (q : Ask) → Answer q → Bool} {seen : Bool} (hx : x.Keeps next post s) :
    (x.watch mark seen : Exchange Ask Answer ε' (Except ε α × Bool)).Keeps next (fun _ s' => ∃ r, post r s') s := by
  induction x generalizing s seen with
  | done a => exact ⟨_, hx⟩
  | fail e => exact ⟨_, hx⟩
  | ask q rest ih =>
      intro a
      obtain ⟨s', hs', hrest⟩ := hx a
      exact ⟨s', hs', ih a hrest⟩

/-- Questions the protocol does not mind leave it where it is. -/
theorem Asks.keeps {P : Ask → Prop} (hx : x.Asks P) (h : ∀ q, P q → ∀ a, next s q a = some s) :
    x.Keeps next (fun _ s' => s' = s) s := by
  induction x with
  | done a => rfl
  | fail e => rfl
  | ask q rest ih => exact fun a => ⟨s, h q hx.1 a, ih a (hx.2 a)⟩

theorem keeps_lift {y : Except ε α} : (lift y : Exchange Ask Answer ε α).Keeps next post s ↔ post y s := by
  cases y <;> rfl

end Keeps

/-- A program, whatever it ends with. -/
def forget : Exchange Ask Answer ε α → Exchange Ask Answer Unit Unit
  | .done _     => .done ()
  | .fail _     => .fail ()
  | .ask q rest => .ask q fun a => (rest a).forget

theorem Keeps.forget {next : S → (q : Ask) → Answer q → Option S} {post : S → Prop} {x : Exchange Ask Answer ε α}
    {s : S} (hx : x.Keeps next (fun _ => post) s) : x.forget.Keeps next (fun _ => post) s := by
  induction x generalizing s with
  | done a => exact hx
  | fail e => exact hx
  | ask q rest ih =>
      intro a
      obtain ⟨s', hs', hrest⟩ := hx a
      exact ⟨s', hs', ih a hrest⟩

/-- A program has ended. -/
def Ended : Exchange Ask Answer ε α → Prop
  | .ask _ _ => False
  | _        => True

instance : (x : Exchange Ask Answer ε α) → Decidable x.Ended
  | .done _  => inferInstanceAs (Decidable True)
  | .fail _  => inferInstanceAs (Decidable True)
  | .ask _ _ => inferInstanceAs (Decidable False)

/-! ## Results -/

/-- What a program asks, and at its end what it came to. -/
def announce : Exchange Ask Answer ε α → Exchange (Ask ⊕ Except ε α) (Sum.elim Answer fun _ => Unit) Unit Unit
  | .done a     => .ask (.inr (.ok a)) .done
  | .fail e     => .ask (.inr (.error e)) .done
  | .ask q rest => .ask (.inl q) fun a => (rest a).announce

/-- The protocol of a program that says what it came to: that of the program, and what it may come to where. -/
def announcing (next : S → (q : Ask) → Answer q → Option S) (post : Except ε α → S → Bool) :
    S ⊕ Except ε α → (q : Ask ⊕ Except ε α) → Sum.elim Answer (fun _ => Unit) q → Option (S ⊕ Except ε α)
  | .inl s, .inl q, a => (next s q a).map .inl
  | .inl s, .inr r, _ => if post r s = true then some (.inr r) else none
  | .inr _, _, _      => none

theorem Keeps.announce {next : S → (q : Ask) → Answer q → Option S} {post : Except ε α → S → Bool}
    {x : Exchange Ask Answer ε α} {s : S} (hx : x.Keeps next (fun r s => post r s = true) s) :
    x.announce.Keeps (announcing next post) (fun _ s => s.isRight = true) (.inl s) := by
  induction x generalizing s with
  | done a => exact fun _ => ⟨_, if_pos hx, rfl⟩
  | fail e => exact fun _ => ⟨_, if_pos hx, rfl⟩
  | ask q rest ih =>
      intro a
      obtain ⟨s', hs', hrest⟩ := hx a
      exact ⟨.inl s', by rw [announcing, hs']; rfl, ih a hrest⟩

/-! ## Many programs -/

/-- Programs over one store. Each has a label. -/
structure Pool (Ask : Type) (Answer : Ask → Type) (L W : Type) where
  store : W
  programs : List (L × Exchange Ask Answer Unit Unit)

namespace Pool

/-- One exchange: program `turn.1` asks its question, and `serve` says what `turn.2` has it answered and what becomes of
    the store. -/
def step (serve : W → L → (q : Ask) → H → Option (Answer q × W)) (p : Pool Ask Answer L W) (turn : Nat × H) :
    Option (Pool Ask Answer L W × L × Event Answer) :=
  match p.programs[turn.1]? with
  | some (l, .ask q rest) =>
      (serve p.store l q turn.2).map fun r => (⟨r.2, p.programs.set turn.1 (l, rest r.1)⟩, l, ⟨q, r.1⟩)
  | _ => none

/-- Every program keeps to its label's protocol, from the states given, to a state in `final`. -/
def Follows (next : L → S → (q : Ask) → Answer q → Option S) (final : S → Prop) (p : Pool Ask Answer L W)
    (states : List (L × S)) : Prop :=
  List.Forall₂ (fun program state => program.1 = state.1 ∧
    program.2.Keeps (next program.1) (fun _ => final) state.2) p.programs states

/-- No program has anything left to ask. -/
def AtRest (p : Pool Ask Answer L W) : Prop := ∀ program ∈ p.programs, program.2.Ended

instance (p : Pool Ask Answer L W) : Decidable p.AtRest :=
  inferInstanceAs (Decidable (∀ program ∈ p.programs, program.2.Ended))

section Invariant
variable {serve : W → L → (q : Ask) → H → Option (Answer q × W)} {next : L → S → (q : Ask) → Answer q → Option S}
  {final : S → Prop} {p p₀ : Pool Ask Answer L W} {states : List (L × S)}

/-- What an exchange is: some program asks, is answered and goes on. -/
theorem step_eq_some {turn : Nat × H} {out : L × Event Answer} {p' : Pool Ask Answer L W}
    (h : p.step serve turn = some (p', out)) :
    ∃ before l q rest after a, p.programs = before ++ (l, .ask q rest) :: after ∧
      serve p.store l q turn.2 = some (a, p'.store) ∧
      p'.programs = before ++ (l, rest a) :: after ∧ out = (l, ⟨q, a⟩) := by
  unfold step at h
  split at h
  · next l q rest hprogram =>
      obtain ⟨hlt, hget⟩ := List.getElem?_eq_some_iff.mp hprogram
      obtain ⟨⟨a, w⟩, hserve, heq⟩ := Option.map_eq_some_iff.mp h
      cases heq
      obtain ⟨before, after, hsplit, -, hset⟩ : ∃ before after, p.programs = before ++ p.programs[turn.1] :: after ∧
          before.length = turn.1 ∧ p.programs.set turn.1 (l, rest a) = before ++ (l, rest a) :: after :=
        List.exists_of_set hlt
      rw [hget] at hsplit
      exact ⟨before, l, q, rest, after, a, hsplit, hserve, hset, rfl⟩
  · cases h

/-- A relation between the members of two lists, cut at a member of the first. -/
theorem forall₂_split {A B : Type} {R : A → B → Prop} {before after : List A} {x : A} {ys : List B}
    (h : List.Forall₂ R (before ++ x :: after) ys) :
    ∃ ys₁ y ys₂, ys = ys₁ ++ y :: ys₂ ∧ List.Forall₂ R before ys₁ ∧ R x y ∧ List.Forall₂ R after ys₂ := by
  induction before generalizing ys with
  | nil =>
      cases h with
      | cons hxy hafter => exact ⟨[], _, _, rfl, .nil, hxy, hafter⟩
  | cons b before ih =>
      cases h with
      | cons hb hrest =>
          obtain ⟨ys₁, y, ys₂, rfl, hbefore, hxy, hafter⟩ := ih hrest
          exact ⟨_ :: ys₁, y, ys₂, rfl, .cons hb hbefore, hxy, hafter⟩

/-- **Invariants of a pool.** `I` speaks of the store and of the programs' protocol states; it holds at the start, and
    every exchange that a protocol lets happen and that `C` allows keeps it. -/
theorem invariant {I : W → List (L × S) → Prop} {C : L × Event Answer → Prop} (hfollows : p₀.Follows next final states)
    (h0 : I p₀.store states)
    (hstep : ∀ w w' l s s' q a how before after, serve w l q how = some (a, w') → next l s q a = some s' →
      C (l, ⟨q, a⟩) → I w (before ++ (l, s) :: after) → I w' (before ++ (l, s') :: after))
    {tr : List (Transition (Pool Ask Answer L W) (Nat × H) (L × Event Answer))} (h : Run (step serve) p₀ tr p)
    (hC : ∀ t ∈ tr, C t.out) : ∃ states, p.Follows next final states ∧ I p.store states := by
  refine Run.invariant_of (I := fun p => ∃ states, p.Follows next final states ∧ I p.store states)
    (C := fun t => C t.out) ⟨states, hfollows, h0⟩ ?_ h hC
  rintro t hfires hallowed ⟨states, hfollows, hI⟩
  obtain ⟨before, l, q, rest, after, a, hpre, hserve, hpost, hout⟩ := step_eq_some hfires
  unfold Follows at hfollows
  rw [hpre] at hfollows
  obtain ⟨states₁, ⟨l', s⟩, states₂, rfl, hbefore, ⟨hl, hkeeps⟩, hafter⟩ := forall₂_split hfollows
  obtain rfl : l = l' := hl
  obtain ⟨s', hnext, hrest⟩ := hkeeps a
  rw [hout] at hallowed
  refine ⟨states₁ ++ (l, s') :: states₂, ?_, hstep _ _ _ _ _ _ _ _ _ _ hserve hnext hallowed hI⟩
  unfold Follows
  rw [hpost]
  exact List.rel_append hbefore (.cons ⟨rfl, hrest⟩ hafter)

/-- At rest every protocol state is a final one. -/
theorem Follows.final_of_atRest (hfollows : p.Follows next final states) (hrest : p.AtRest) :
    ∀ state ∈ states, final state.2 := by
  unfold Follows AtRest at *
  generalize p.programs = programs at hfollows hrest
  induction hfollows with
  | nil => simp
  | @cons program state programs states hprogram _ ih =>
      have hended := hrest program List.mem_cons_self
      have hfinal : final state.2 := by
        obtain ⟨l, x⟩ := program
        cases x with
        | done a => exact hprogram.2
        | fail e => exact hprogram.2
        | ask q rest => exact hended.elim
      intro other hother
      rcases List.mem_cons.mp hother with rfl | hother
      · exact hfinal
      · exact ih (fun program hmem => hrest program (List.mem_cons_of_mem _ hmem)) other hother

end Invariant
end Pool
end Exchange
