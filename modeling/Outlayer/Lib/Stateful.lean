import Mathlib.Logic.Basic

/-!
# `Lib.Stateful` — what programs over a state do

A program over a state is described by a relation between the state it starts in, its result and the state it leaves
(`Does`). Descriptions compose along `bind`; a program made of parts is described from the descriptions of the parts,
and no proof runs one.

Many programs only add to a log kept in the state and leave alone what else of it matters. For these the state need not
be mentioned: `Emits` relates a program's result to what it added.
-/

namespace Stateful

variable {σ α β : Type}

/-- What a program does. -/
def Does (m : StateM σ α) (post : σ → α → σ → Prop) : Prop := ∀ s, post s (m.run s).1 (m.run s).2

theorem Does.mono {m : StateM σ α} {P Q : σ → α → σ → Prop} (h : Does m P) (hPQ : ∀ {s a s'}, P s a s' → Q s a s') :
    Does m Q := fun s => hPQ (h s)

theorem does_pure {P : σ → α → σ → Prop} {a : α} (h : ∀ s, P s a s) : Does (pure a) P := h

/-- **In sequence**, through whatever state the first part leaves. -/
theorem Does.bind {m : StateM σ α} {f : α → StateM σ β} {P : σ → α → σ → Prop} {Q : α → σ → β → σ → Prop}
    {R : σ → β → σ → Prop} (hm : Does m P) (hf : ∀ a, Does (f a) (Q a))
    (h : ∀ {s a s' b s''}, P s a s' → Q a s' b s'' → R s b s'') : Does (m >>= f) R :=
  fun s => h (hm s) (hf _ _)

/-- In sequence, when the second part is looked at in the state the first one leaves. -/
theorem Does.bind' {m : StateM σ α} {f : α → StateM σ β} {P : σ → α → σ → Prop} {R : σ → β → σ → Prop} (hm : Does m P)
    (h : ∀ {s a s'}, P s a s' → R s ((f a).run s').1 ((f a).run s').2) : Does (m >>= f) R :=
  fun s => h (hm s)

/-- A run, part by part. -/
theorem run_bind_of {m : StateM σ α} {f : α → StateM σ β} {s s' : σ} {a : α} (h : m.run s = (a, s')) :
    (m >>= f).run s = (f a).run s' := by
  rw [StateT.run_bind, h]
  rfl

/-! ## Programs that add to a log -/

section Emits
variable {ω κ : Type} {log : σ → List ω} {fixed : σ → κ}

/-- What a program returns and adds to the log; `fixed` of the state stays as it is. -/
def Emits (log : σ → List ω) (fixed : σ → κ) (m : StateM σ α) (P : α → List ω → Prop) : Prop :=
  Does m fun s a s' => fixed s' = fixed s ∧ ∃ added, log s' = log s ++ added ∧ P a added

theorem Emits.mono {m : StateM σ α} {P Q : α → List ω → Prop} (h : Emits log fixed m P)
    (hPQ : ∀ {a added}, P a added → Q a added) : Emits log fixed m Q := by
  refine Does.mono h ?_
  rintro s a s' ⟨hfixed, added, hlog, hP⟩
  exact ⟨hfixed, added, hlog, hPQ hP⟩

theorem emits_pure {P : α → List ω → Prop} {a : α} (h : P a []) : Emits log fixed (pure a) P :=
  does_pure fun s => ⟨rfl, [], (List.append_nil (log s)).symm, h⟩

theorem emits_pure_of_eq {P : α → List ω → Prop} {m : StateM σ α} {a : α} (hm : m = pure a) (h : P a []) :
    Emits log fixed m P := hm ▸ emits_pure h

theorem Emits.bind {m : StateM σ α} {f : α → StateM σ β} {P : α → List ω → Prop} {Q : α → β → List ω → Prop}
    {R : β → List ω → Prop} (hm : Emits log fixed m P) (hf : ∀ a, Emits log fixed (f a) (Q a))
    (h : ∀ {a added b more}, P a added → Q a b more → R b (added ++ more)) : Emits log fixed (m >>= f) R := by
  refine Does.bind hm hf ?_
  rintro s a s' b s'' ⟨hfixed, added, hlog, hP⟩ ⟨hfixed', more, hlog', hQ⟩
  refine ⟨hfixed'.trans hfixed, added ++ more, ?_, h hP hQ⟩
  rw [hlog', hlog, List.append_assoc]

/-- A program that adds nothing. -/
def Silent (log : σ → List ω) (fixed : σ → κ) (m : StateM σ α) (P : α → Prop) : Prop :=
  Emits log fixed m fun a added => added = [] ∧ P a

theorem silent_pure {P : α → Prop} {a : α} (h : P a) : Silent log fixed (pure a) P := emits_pure ⟨rfl, h⟩

/-- A program that reads the state. -/
theorem silent_get : Silent log fixed (get : StateM σ σ) fun _ => True :=
  fun s => ⟨rfl, [], (List.append_nil (log s)).symm, rfl, trivial⟩

/-- A program that changes the state elsewhere. -/
theorem silent_modify {f : σ → σ} (hfixed : ∀ s, fixed (f s) = fixed s) (hlog : ∀ s, log (f s) = log s) :
    Silent log fixed (modify f) fun _ => True :=
  fun s => ⟨hfixed s, [], (hlog s).trans (List.append_nil (log s)).symm, rfl, trivial⟩

/-- After a program that adds nothing. -/
theorem Silent.bind {m : StateM σ α} {f : α → StateM σ β} {P : α → Prop} {R : β → List ω → Prop}
    (hm : Silent log fixed m P) (hf : ∀ a, P a → Emits log fixed (f a) R) : Emits log fixed (m >>= f) R := by
  intro s
  obtain ⟨hfixed, added, hlog, rfl, hP⟩ := hm s
  obtain ⟨hfixed', more, hlog', hR⟩ := hf _ hP (m.run s).2
  refine ⟨hfixed'.trans hfixed, more, ?_, hR⟩
  rw [hlog, List.append_nil] at hlog'
  exact hlog'

theorem Silent.mono {m : StateM σ α} {P Q : α → Prop} (h : Silent log fixed m P) (hPQ : ∀ a, P a → Q a) :
    Silent log fixed m Q :=
  Emits.mono h fun ⟨hadded, hP⟩ => ⟨hadded, hPQ _ hP⟩

/-- What follows a program that adds to the log, looked at in the state it leaves. -/
theorem Emits.then {m : StateM σ α} {f : α → StateM σ β} {P : α → List ω → Prop} {R : σ → β → σ → Prop}
    (hm : Emits log fixed m P)
    (hf : ∀ a added s s', P a added → fixed s' = fixed s → log s' = log s ++ added →
      R s ((f a).run s').1 ((f a).run s').2) : Does (m >>= f) R := by
  intro s
  obtain ⟨hfixed, added, hlog, hP⟩ := hm s
  exact hf _ added s _ hP hfixed hlog

/-- What follows a program that adds nothing. -/
theorem Silent.then {m : StateM σ α} {f : α → StateM σ β} {P : α → Prop} {R : σ → β → σ → Prop}
    (hm : Silent log fixed m P)
    (hf : ∀ a s s', P a → fixed s' = fixed s → log s' = log s → R s ((f a).run s').1 ((f a).run s').2) :
    Does (m >>= f) R := by
  refine Emits.then hm ?_
  rintro a _ s s' ⟨rfl, hP⟩ hfixed hlog
  exact hf a s s' hP hfixed (hlog.trans (List.append_nil (log s)))

end Emits

end Stateful
