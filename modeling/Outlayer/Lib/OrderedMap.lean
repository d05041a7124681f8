import Mathlib.Data.List.Basic
import Mathlib.Order.Lattice

/-!
# `Lib.OrderedMap` — finite maps in the order of their keys

A map is a list of entries whose keys ascend (`Sorted`); putting an entry in its place, erasing one, changing one and
keeping some of them all leave it so. What a key stands for is `lookup`, and each operation comes with what it does
to it.
-/

namespace OrderedMap

variable {K V : Type} [LinearOrder K]

/-- The keys ascend. -/
def Sorted (m : List (K × V)) : Prop := m.Pairwise fun a b => a.1 < b.1

/-- Put an entry in its place; an equal key is replaced. -/
def put (k : K) (v : V) : List (K × V) → List (K × V)
  | []          => [(k, v)]
  | (a, b) :: m =>
      if k = a then (k, v) :: m
      else if k < a then (k, v) :: (a, b) :: m
      else (a, b) :: put k v m

/-- The map without a key. -/
def erase (k : K) (m : List (K × V)) : List (K × V) := m.filter fun e => decide (e.1 ≠ k)

/-- Change what a key stands for, if it stands for anything. -/
def change (k : K) (f : V → V) (m : List (K × V)) : List (K × V) :=
  m.map fun e => if e.1 = k then (e.1, f e.2) else e

section Lookup
variable {k key : K} {v : V} {m : List (K × V)}

theorem lookup_cons {a : K} {b : V} : List.lookup key ((a, b) :: m) = if key = a then some b else m.lookup key := by
  by_cases h : key = a
  · simp [h]
  · have hne : (key == a) = false := by simpa using h
    rw [List.lookup_cons, hne, if_neg h]

theorem lookup_put : (put k v m).lookup key = if key = k then some v else m.lookup key := by
  induction m with
  | nil => exact lookup_cons
  | cons ab m ih =>
      obtain ⟨a, b⟩ := ab
      unfold put
      split
      · next heq =>
          subst heq
          rw [lookup_cons, lookup_cons]
          split <;> rfl
      · next hne =>
          split
          · exact lookup_cons
          · rw [lookup_cons, ih, lookup_cons]
            by_cases hk : key = k
            · rw [if_pos hk, if_pos hk, if_neg (hk ▸ hne)]
            · rw [if_neg hk, if_neg hk]

theorem lookup_erase : (erase k m).lookup key = if key = k then none else m.lookup key := by
  induction m with
  | nil =>
      split <;> rfl
  | cons ab m ih =>
      obtain ⟨a, b⟩ := ab
      unfold erase at ih ⊢
      rw [List.filter_cons]
      by_cases ha : a = k
      · rw [if_neg (by simpa using ha), ih, lookup_cons]
        by_cases hk : key = k
        · rw [if_pos hk, if_pos hk]
        · rw [if_neg hk, if_neg hk, if_neg (ha ▸ hk)]
      · rw [if_pos (by simpa using ha), lookup_cons, ih, lookup_cons]
        by_cases hk : key = k
        · have hne : key ≠ a := fun h => ha (h.symm.trans hk)
          rw [if_pos hk, if_neg hne, if_pos hk]
        · rw [if_neg hk, if_neg hk]

/-- Keeping what a key stands for keeps it. -/
theorem lookup_filter {p : K × V → Bool} (h : ∀ v, m.lookup key = some v → p (key, v) = true) :
    (m.filter p).lookup key = m.lookup key := by
  induction m with
  | nil => rfl
  | cons ab m ih =>
      obtain ⟨a, b⟩ := ab
      rw [lookup_cons] at h ⊢
      by_cases hk : key = a
      · rw [if_pos hk] at h ⊢
        rw [List.filter_cons_of_pos (hk ▸ h b rfl), lookup_cons, if_pos hk]
      · rw [if_neg hk] at h ⊢
        rw [← ih h, List.filter_cons]
        split
        · rw [lookup_cons, if_neg hk]
        · rfl

theorem lookup_change {f : V → V} :
    (change k f m).lookup key = if key = k then (m.lookup key).map f else m.lookup key := by
  induction m with
  | nil =>
      split <;> rfl
  | cons ab m ih =>
      obtain ⟨a, b⟩ := ab
      unfold change at ih ⊢
      rw [List.map_cons]
      by_cases ha : a = k
      · rw [if_pos ha, lookup_cons, ih, lookup_cons]
        by_cases hk : key = k
        · rw [if_pos hk, if_pos hk]
          split <;> rfl
        · have hne : key ≠ a := fun h => hk (h.trans ha)
          rw [if_neg hk, if_neg hk, if_neg hne, if_neg hne]
      · rw [if_neg ha, lookup_cons, ih, lookup_cons]
        by_cases hk : key = k
        · have hne : key ≠ a := fun h => ha (h.symm.trans hk)
          rw [if_pos hk, if_neg hne, if_pos hk, if_neg hne]
        · rw [if_neg hk, if_neg hk]

/-- In a map, an entry is what its key stands for. -/
theorem lookup_eq_some_iff (h : Sorted m) : m.lookup key = some v ↔ (key, v) ∈ m := by
  induction m with
  | nil => simp
  | cons ab m ih =>
      obtain ⟨a, b⟩ := ab
      obtain ⟨hall, hm⟩ := List.pairwise_cons.mp h
      rw [lookup_cons, List.mem_cons, Prod.mk.injEq]
      by_cases hk : key = a
      · rw [if_pos hk]
        constructor
        · intro hb
          exact Or.inl ⟨hk, (Option.some.inj hb).symm⟩
        · rintro (⟨-, rfl⟩ | hmem)
          · rfl
          · exact absurd (hall _ hmem) (by simp [hk])
      · rw [if_neg hk, ih hm]
        constructor
        · exact Or.inr
        · rintro (⟨rfl, -⟩ | hmem)
          · exact absurd rfl hk
          · exact hmem

theorem lookup_eq_none_iff : m.lookup key = none ↔ key ∉ m.map Prod.fst := by
  induction m with
  | nil => simp
  | cons ab m ih =>
      obtain ⟨a, b⟩ := ab
      rw [lookup_cons, List.map_cons, List.mem_cons, not_or]
      by_cases hk : key = a
      · rw [if_pos hk]
        constructor
        · intro hn
          cases hn
        · exact fun hn => absurd hk hn.1
      · rw [if_neg hk, ih]
        exact ⟨fun hn => ⟨hk, hn⟩, And.right⟩

theorem mem_keys_iff : key ∈ m.map Prod.fst ↔ ∃ v, m.lookup key = some v := by
  rw [← Option.isSome_iff_exists, ← Option.ne_none_iff_isSome, ne_eq, lookup_eq_none_iff, not_not]

end Lookup

section Sorted
variable {k : K} {v : V} {m : List (K × V)}

theorem mem_put {e : K × V} (h : e ∈ put k v m) : e = (k, v) ∨ e ∈ m := by
  induction m with
  | nil => exact Or.inl (List.mem_singleton.mp h)
  | cons ab m ih =>
      unfold put at h
      split at h
      · rcases List.mem_cons.mp h with h | h
        · exact Or.inl h
        · exact Or.inr (List.mem_cons_of_mem _ h)
      · split at h
        · exact List.mem_cons.mp h
        · rcases List.mem_cons.mp h with h | h
          · exact Or.inr (h ▸ List.mem_cons_self)
          · exact (ih h).imp id (List.mem_cons_of_mem _)

theorem Sorted.put (h : Sorted m) : Sorted (put k v m) := by
  induction m with
  | nil => exact List.pairwise_singleton _ _
  | cons ab m ih =>
      obtain ⟨hall, hm⟩ := List.pairwise_cons.mp h
      unfold OrderedMap.put
      split
      · next heq =>
          subst heq
          exact List.pairwise_cons.mpr ⟨hall, hm⟩
      · next hne =>
          split
          · next hlt =>
              refine List.pairwise_cons.mpr ⟨?_, h⟩
              intro b hb
              rcases List.mem_cons.mp hb with rfl | hb
              · exact hlt
              · exact lt_trans hlt (hall b hb)
          · next hnlt =>
              have hgt : ab.1 < k := lt_of_le_of_ne (not_lt.mp hnlt) (Ne.symm hne)
              refine List.pairwise_cons.mpr ⟨?_, ih hm⟩
              intro b hb
              rcases mem_put hb with rfl | hb
              · exact hgt
              · exact hall b hb

theorem Sorted.filter (h : Sorted m) (p : K × V → Bool) : Sorted (m.filter p) := List.Pairwise.filter p h

theorem Sorted.erase (h : Sorted m) : Sorted (OrderedMap.erase k m) := h.filter _

/-- Changing entries under their keys keeps the order. -/
theorem Sorted.map (h : Sorted m) (f : K × V → K × V) (hf : ∀ e, (f e).1 = e.1) : Sorted (m.map f) := by
  refine List.pairwise_map.mpr (List.Pairwise.imp ?_ h)
  intro a b hab
  rw [hf, hf]
  exact hab

theorem Sorted.change (h : Sorted m) {f : V → V} : Sorted (OrderedMap.change k f m) := by
  refine h.map _ ?_
  intro e
  split <;> rfl

/-- The first entry has the least key. -/
theorem Sorted.head_le {e : K × V} (h : Sorted (e :: m)) : ∀ x ∈ m, e.1 < x.1 := (List.pairwise_cons.mp h).1

theorem Sorted.tail {e : K × V} (h : Sorted (e :: m)) : Sorted m := (List.pairwise_cons.mp h).2

end Sorted

end OrderedMap
