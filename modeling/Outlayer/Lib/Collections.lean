import Mathlib.Algebra.GroupWithZero.Nat
import Mathlib.Data.List.AList
import Mathlib.Data.List.Perm.Basic

/-!
# `Lib.Collections` — persistent maps with totals, and insertion-ordered sets

Two storage collections, as a contract runtime offers them.

* `LookupMap K V` — a finite map without an order, taken from Mathlib's `AList`. What is added here is
  `total f m`, the sum of `f` over the entries, with the two equations an accounting proof needs: what
  writing a key and what removing a key does to the sum.
* `UnorderedSet α` — a duplicate-free vector with `insert` (push at the end) and `remove` (the last element
  moves into the hole). Iteration follows the vector, so pages cut from it are pages of that order.
-/

namespace Collections

/-! ## Maps -/

/-- A finite map from `K` to `V`. -/
abbrev LookupMap (K V : Type) := AList (fun _ : K => V)

namespace LookupMap
variable {K V : Type} [DecidableEq K]

/-- The sum of `f` over the entries of a map. -/
def total (f : K → V → Nat) (m : LookupMap K V) : Nat :=
  (m.entries.map fun e => f e.1 e.2).sum

/-- Removing a key from an entry list takes exactly its weight out of the sum. -/
private theorem sum_kerase (f : K → V → Nat) (k : K) (l : List (Sigma fun _ : K => V)) :
    ((l.kerase k).map fun e => f e.1 e.2).sum + (l.dlookup k).elim 0 (f k)
      = (l.map fun e => f e.1 e.2).sum := by
  induction l with
  | nil => rfl
  | cons e l ih =>
      obtain ⟨a, v⟩ := e
      by_cases h : k = a
      · subst h
        have hk : (⟨k, v⟩ :: l : List (Sigma fun _ : K => V)).kerase k = l := List.kerase_cons_eq rfl
        rw [hk, List.dlookup_cons_eq]
        simp [Nat.add_comm]
      · rw [List.kerase_cons_ne h, List.dlookup_cons_ne l ⟨a, v⟩ h]
        simp only [List.map_cons, List.sum_cons]
        omega

/-- **Removal.** The sum drops by the weight of the removed entry, by nothing when the key is absent. -/
theorem total_erase (f : K → V → Nat) (k : K) (m : LookupMap K V) :
    total f (m.erase k) + (m.lookup k).elim 0 (f k) = total f m :=
  sum_kerase f k m.entries

/-- An entry weighs what it weighs on top of the others. -/
theorem total_insert_erase (f : K → V → Nat) (k : K) (v : V) (m : LookupMap K V) :
    total f (m.insert k v) = f k v + total f (m.erase k) := by
  show ((m.insert k v).entries.map fun e => f e.1 e.2).sum = f k v + total f (m.erase k)
  rw [AList.entries_insert, List.map_cons, List.sum_cons]
  rfl

/-- **Writing.** The new entry comes in, the one it replaces goes out. -/
theorem total_insert (f : K → V → Nat) (k : K) (v : V) (m : LookupMap K V) :
    total f (m.insert k v) + (m.lookup k).elim 0 (f k) = total f m + f k v := by
  have h := total_erase f k m
  rw [total_insert_erase]
  omega

theorem total_insert_new {f : K → V → Nat} {k : K} {m : LookupMap K V} (h : m.lookup k = none) (v : V) :
    total f (m.insert k v) = total f m + f k v := by
  have hi := total_insert f k v m
  rwa [h, Option.elim_none, Nat.add_zero] at hi

theorem total_insert_old {f : K → V → Nat} {k : K} {m : LookupMap K V} {old : V} (h : m.lookup k = some old)
    (v : V) : total f (m.insert k v) + f k old = total f m + f k v := by
  have hi := total_insert f k v m
  rwa [h, Option.elim_some] at hi

theorem total_erase_old {f : K → V → Nat} {k : K} {m : LookupMap K V} {old : V} (h : m.lookup k = some old) :
    total f (m.erase k) + f k old = total f m := by
  have he := total_erase f k m
  rwa [h, Option.elim_some] at he

/-- An entry weighs at most the whole. -/
theorem le_total {f : K → V → Nat} {k : K} {v : V} {m : LookupMap K V} (h : m.lookup k = some v) :
    f k v ≤ total f m := by
  have he := total_erase_old (f := f) h
  omega

/-- The sum depends on the weights of the entries only. -/
theorem total_congr {f g : K → V → Nat} {m : LookupMap K V}
    (h : ∀ k v, m.lookup k = some v → f k v = g k v) : total f m = total g m := by
  unfold total
  congr 1
  refine List.map_congr_left fun e he => h e.1 e.2 ?_
  exact AList.mem_lookup_iff.mpr he

omit [DecidableEq K] in
@[simp] theorem total_zero (m : LookupMap K V) : total (fun _ _ => 0) m = 0 := by
  simp [total]

/-- A key is in the map exactly when its lookup answers. -/
theorem mem_iff_lookup {k : K} {m : LookupMap K V} : k ∈ m ↔ ∃ v, m.lookup k = some v := by
  rw [← AList.lookup_isSome, Option.isSome_iff_exists]

/-- Looking up any key after a write. -/
theorem lookup_insert_iff {k k' : K} {v : V} {m : LookupMap K V} :
    (m.insert k v).lookup k' = if k' = k then some v else m.lookup k' := by
  split
  · next h => subst h; exact AList.lookup_insert m
  · next h => exact AList.lookup_insert_ne h

/-- Looking up any key after a removal. -/
theorem lookup_erase_iff {k k' : K} {m : LookupMap K V} :
    (m.erase k).lookup k' = if k' = k then none else m.lookup k' := by
  split
  · next h => subst h; exact AList.lookup_erase k' m
  · next h => exact AList.lookup_erase_ne h

/-- A write keeps every key. -/
theorem lookup_insert_ne_none {k k' : K} {v : V} {m : LookupMap K V} (h : m.lookup k' ≠ none) :
    (m.insert k v).lookup k' ≠ none := by
  rw [lookup_insert_iff]
  split
  · exact Option.some_ne_none v
  · exact h

/-- A removal keeps every other key. -/
theorem lookup_erase_ne_none {k k' : K} {m : LookupMap K V} (h : m.lookup k' ≠ none) (hne : k' ≠ k) :
    (m.erase k).lookup k' ≠ none := by
  rwa [lookup_erase_iff, if_neg hne]

/-- What a removal leaves was there. -/
theorem erase_insert (k : K) (v : V) (m : LookupMap K V) : (m.insert k v).erase k = m.erase k := by
  ext1
  show List.kerase k (AList.insert k v m).entries = List.kerase k m.entries
  rw [AList.entries_insert]
  exact List.kerase_cons_eq rfl

theorem lookup_of_erase {k k' : K} {v : V} {m : LookupMap K V} (h : (m.erase k).lookup k' = some v) :
    k' ≠ k ∧ m.lookup k' = some v := by
  rw [lookup_erase_iff] at h
  split at h
  · cases h
  · next hne => exact ⟨hne, h⟩

/-- Keep the entries whose key passes a test. -/
def retain (p : K → Bool) (m : LookupMap K V) : LookupMap K V where
  entries := m.entries.filter fun e => p e.1
  nodupKeys := List.NodupKeys.sublist List.filter_sublist m.nodupKeys

theorem mem_entries_iff {k : K} {v : V} {m : LookupMap K V} : ⟨k, v⟩ ∈ m.entries ↔ m.lookup k = some v := by
  rw [← AList.mem_lookup_iff, Option.mem_def]

theorem lookup_retain {p : K → Bool} {m : LookupMap K V} {k : K} {v : V} :
    (m.retain p).lookup k = some v ↔ p k = true ∧ m.lookup k = some v := by
  rw [← mem_entries_iff, ← mem_entries_iff]
  show _ ∈ m.entries.filter _ ↔ _
  rw [List.mem_filter]
  exact And.comm

/-- Every entry satisfies `P`. -/
def All (P : K → V → Prop) (m : LookupMap K V) : Prop := ∀ k v, m.lookup k = some v → P k v

theorem all_empty {P : K → V → Prop} : All P (∅ : LookupMap K V) := by
  intro k v h
  cases h

/-- Writing an entry that satisfies `P`. -/
theorem All.insert {P : K → V → Prop} {m : LookupMap K V} (h : All P m) {k : K} {v : V} (hv : P k v) :
    All P (m.insert k v) := by
  intro k' v' h'
  rw [lookup_insert_iff] at h'
  split at h'
  · next hk =>
      cases h'
      exact hk ▸ hv
  · exact h k' v' h'

theorem All.erase {P : K → V → Prop} {m : LookupMap K V} (h : All P m) (k : K) : All P (m.erase k) := by
  intro k' v' h'
  exact h k' v' (lookup_of_erase h').2

theorem All.mono {P Q : K → V → Prop} {m : LookupMap K V} (h : All P m) (hpq : ∀ k v, P k v → Q k v) :
    All Q m := by
  intro k v hv
  exact hpq k v (h k v hv)

end LookupMap

/-! ## Sets -/

/-- Remove `a` from a duplicate-free vector by moving the last element into its place. -/
def swapRemove {α : Type} [DecidableEq α] (l : List α) (a : α) : List α :=
  match l.getLast? with
  | none   => []
  | some z => if z = a then l.dropLast else l.dropLast.map fun x => if x = a then z else x

section SwapRemove
variable {α : Type} [DecidableEq α]

/-- Mapping the one occurrence of `a` to `z` is, up to order, dropping `a` and adding `z`. -/
private theorem map_replace_perm {l : List α} {a z : α} (hnd : l.Nodup) (ha : a ∈ l) :
    (l.map fun x => if x = a then z else x).Perm (z :: l.erase a) := by
  induction l with
  | nil => simp at ha
  | cons y ys ih =>
      obtain ⟨hy, hys⟩ := List.nodup_cons.mp hnd
      by_cases h : y = a
      · subst h
        have hid : (ys.map fun x => if x = y then z else x) = ys := by
          rw [List.map_congr_left (g := id), List.map_id]
          intro x hx
          rw [if_neg (fun he : x = y => hy (he ▸ hx)), id]
        simp [hid]
      · have ha' : a ∈ ys := (List.mem_cons.mp ha).resolve_left (fun he => h he.symm)
        rw [List.map_cons, if_neg h, List.erase_cons_tail (by simpa using h)]
        exact ((ih hys ha').cons y).trans (List.Perm.swap z y _)

/-- **`swapRemove` is `erase` up to order** on a duplicate-free vector holding the element. -/
theorem swapRemove_perm {l : List α} {a : α} (hnd : l.Nodup) (ha : a ∈ l) :
    (swapRemove l a).Perm (l.erase a) := by
  rcases List.eq_nil_or_concat l with rfl | ⟨init, z, rfl⟩
  · simp at ha
  · rw [List.concat_eq_append] at *
    obtain ⟨hinit, -, hdisj⟩ := List.nodup_append.mp hnd
    have hz : z ∉ init := fun hm => hdisj z hm z (List.mem_singleton_self z) rfl
    simp only [swapRemove, List.getLast?_concat, List.dropLast_concat]
    by_cases h : z = a
    · subst h
      rw [if_pos rfl, List.erase_append_right _ hz]
      simp
    · have ha' : a ∈ init := by
        rcases List.mem_append.mp ha with hm | hm
        · exact hm
        · exact absurd (List.mem_singleton.mp hm).symm h
      rw [if_neg h, List.erase_append_left _ ha']
      exact (map_replace_perm hinit ha').trans (List.perm_append_singleton _ _).symm

/-- `Vec::swap_remove`: take out the element at a position; the last element takes its place. -/
def swapRemoveAt (l : List α) (i : Nat) : List α :=
  match l.getLast? with
  | none   => []
  | some z => (l.set i z).dropLast

omit [DecidableEq α] in
/-- **Only the element at the position is taken out.** -/
theorem swapRemoveAt_perm {l : List α} {i : Nat} (hi : i < l.length) : (l[i] :: swapRemoveAt l i).Perm l := by
  rcases List.eq_nil_or_concat l with rfl | ⟨init, z, rfl⟩
  · exact absurd hi (Nat.not_lt_zero i)
  · simp only [List.concat_eq_append, List.length_append, List.length_singleton] at hi ⊢
    simp only [swapRemoveAt, List.getLast?_concat]
    by_cases hlast : i < init.length
    · rw [List.set_append_left _ _ hlast, List.dropLast_concat, List.getElem_append_left hlast]
      -- what is put in place of `init[i]` is what leaves the end
      have hset := (List.set_perm_cons_eraseIdx hlast z).cons init[i]
      have hswap := List.Perm.swap z init[i] (init.eraseIdx i)
      have hback := (List.getElem_cons_eraseIdx_perm hlast).cons z
      exact ((hset.trans hswap).trans hback).trans (List.perm_append_singleton z init).symm
    · obtain rfl : i = init.length := by omega
      rw [List.set_append_right _ _ (Nat.le_refl _), Nat.sub_self, List.set_cons_zero, List.dropLast_concat,
        List.getElem_concat_length rfl]
      exact (List.perm_append_singleton z init).symm

end SwapRemove

/-- A duplicate-free vector used as a set; iteration is in vector order. -/
structure UnorderedSet (α : Type) where
  elems : List α
  nodup : elems.Nodup

namespace UnorderedSet
variable {α : Type} [DecidableEq α]

/-- The empty set. -/
def empty : UnorderedSet α := ⟨[], List.nodup_nil⟩

/-- Push an element at the end unless it is there already. -/
def insert (s : UnorderedSet α) (a : α) : UnorderedSet α :=
  if h : a ∈ s.elems then s
  else ⟨s.elems ++ [a], by
    rw [List.nodup_append]
    exact ⟨s.nodup, List.nodup_singleton a,
      fun x hx y hy he => h (List.mem_singleton.mp hy ▸ he ▸ hx)⟩⟩

/-- Remove an element if it is there; the last element takes its place. -/
def remove (s : UnorderedSet α) (a : α) : UnorderedSet α :=
  if h : a ∈ s.elems then
    ⟨swapRemove s.elems a, (swapRemove_perm s.nodup h).nodup_iff.mpr (s.nodup.erase a)⟩
  else s

instance : Membership α (UnorderedSet α) := ⟨fun s a => a ∈ s.elems⟩

instance (a : α) (s : UnorderedSet α) : Decidable (a ∈ s) := inferInstanceAs (Decidable (a ∈ s.elems))

omit [DecidableEq α] in
theorem mem_def {a : α} {s : UnorderedSet α} : a ∈ s ↔ a ∈ s.elems := Iff.rfl

omit [DecidableEq α] in
@[simp] theorem not_mem_empty (a : α) : a ∉ (empty : UnorderedSet α) := List.not_mem_nil

@[simp] theorem mem_insert {s : UnorderedSet α} {a b : α} : b ∈ s.insert a ↔ b = a ∨ b ∈ s := by
  unfold insert
  simp only [mem_def]
  split
  · next h => exact ⟨Or.inr, fun hb => hb.elim (fun he => he ▸ h) id⟩
  · next h => simp [or_comm]

@[simp] theorem mem_remove {s : UnorderedSet α} {a b : α} : b ∈ s.remove a ↔ b ≠ a ∧ b ∈ s := by
  unfold remove
  simp only [mem_def]
  split
  · next h => rw [(swapRemove_perm s.nodup h).mem_iff, s.nodup.mem_erase_iff]
  · next h => exact ⟨fun hb => ⟨fun he => h (he ▸ hb), hb⟩, fun hb => hb.2⟩

/-- A set an element was added to is not empty. -/
theorem insert_ne_nil (s : UnorderedSet α) (a : α) : (s.insert a).elems ≠ [] :=
  List.ne_nil_of_mem (mem_def.mp (mem_insert.mpr (Or.inl rfl)))

end UnorderedSet

/-! ## Pages -/

/-- Pages of `k` elements, put together, are the front of the list. -/
theorem flatMap_pages {α : Type} (l : List α) (k n : Nat) :
    ((List.range n).flatMap fun i => (l.drop (i * k)).take k) = l.take (n * k) := by
  induction n with
  | zero => simp
  | succ n ih =>
      rw [List.range_succ, List.flatMap_append, ih, List.flatMap_singleton, Nat.succ_mul, List.take_add]

/-! ## Indexes -/

/-- A map from keys to non-empty sets, as a contract keeps "everything that belongs to this account". -/
abbrev Index (K α : Type) := LookupMap K (UnorderedSet α)

namespace Index
variable {K α : Type} [DecidableEq K] [DecidableEq α]

/-- Add `a` to the set of `k`, starting a new set if there is none. -/
def insert (m : Index K α) (k : K) (a : α) : Index K α :=
  AList.insert k (((m.lookup k).getD .empty).insert a) m

/-- Remove `a` from the set of `k`; a set left empty goes. -/
def remove (m : Index K α) (k : K) (a : α) : Index K α :=
  match m.lookup k with
  | none   => m
  | some s => if (s.remove a).elems = [] then m.erase k else AList.insert k (s.remove a) m

/-- `a` is listed under `k`. -/
def Lists (m : Index K α) (k : K) (a : α) : Prop := ∃ s, m.lookup k = some s ∧ a ∈ s

/-- No key maps to an empty set. -/
def NoEmpty (m : Index K α) : Prop := ∀ k s, m.lookup k = some s → s.elems ≠ []

omit [DecidableEq α] in
theorem not_lists_empty (k : K) (a : α) : ¬ Lists (∅ : Index K α) k a := by
  rintro ⟨s, h, -⟩
  simp at h

omit [DecidableEq α] in
theorem noEmpty_empty : NoEmpty (∅ : Index K α) := by
  intro k s h
  simp at h

/-- Listed after an insertion: the new entry, or an old one. -/
theorem lists_insert {m : Index K α} {k k' : K} {a b : α} :
    Lists (insert m k a) k' b ↔ (k' = k ∧ b = a) ∨ Lists m k' b := by
  unfold Lists insert
  simp only [LookupMap.lookup_insert_iff]
  by_cases hk : k' = k
  · subst hk
    cases hm : m.lookup k' with
    | none => simp
    | some s => simp
  · simp [hk]

/-- Listed after a removal: an old entry other than the removed one. -/
theorem lists_remove {m : Index K α} {k k' : K} {a b : α} :
    Lists (remove m k a) k' b ↔ Lists m k' b ∧ ¬ (k' = k ∧ b = a) := by
  unfold Lists remove
  cases hm : m.lookup k with
  | none =>
      constructor
      · rintro ⟨s, hs, hb⟩
        refine ⟨⟨s, hs, hb⟩, ?_⟩
        rintro ⟨rfl, -⟩
        rw [hm] at hs
        cases hs
      · exact And.left
  | some s =>
      dsimp only
      by_cases hk : k' = k
      · subst hk
        split
        · next hnil =>
            have hall : ∀ x, x ∉ s.remove a := fun x hx => by
              rw [UnorderedSet.mem_def, hnil] at hx
              exact List.not_mem_nil hx
            simp only [LookupMap.lookup_erase_iff, if_true, hm, Option.some.injEq, true_and]
            constructor
            · rintro ⟨_, h, -⟩
              cases h
            · rintro ⟨⟨_, rfl, hb⟩, hne⟩
              exact absurd (UnorderedSet.mem_remove.mpr ⟨hne, hb⟩) (hall b)
        · simp only [LookupMap.lookup_insert_iff, if_true, hm, Option.some.injEq, true_and]
          constructor
          · rintro ⟨_, rfl, hb⟩
            obtain ⟨hne, hb⟩ := UnorderedSet.mem_remove.mp hb
            exact ⟨⟨s, rfl, hb⟩, hne⟩
          · rintro ⟨⟨_, rfl, hb⟩, hne⟩
            exact ⟨_, rfl, UnorderedSet.mem_remove.mpr ⟨hne, hb⟩⟩
      · split
        · simp [hk]
        · simp [hk]

theorem noEmpty_insert {m : Index K α} (h : NoEmpty m) (k : K) (a : α) : NoEmpty (insert m k a) := by
  intro k' s hs
  rw [insert, LookupMap.lookup_insert_iff] at hs
  split at hs
  · cases hs
    exact UnorderedSet.insert_ne_nil _ _
  · exact h k' s hs

theorem noEmpty_remove {m : Index K α} (h : NoEmpty m) (k : K) (a : α) : NoEmpty (remove m k a) := by
  intro k' s hs
  unfold remove at hs
  cases hm : m.lookup k with
  | none =>
      rw [hm] at hs
      exact h k' s hs
  | some t =>
      rw [hm] at hs
      dsimp only at hs
      split at hs
      · obtain ⟨-, hs⟩ := LookupMap.lookup_of_erase hs
        exact h k' s hs
      · next hne =>
          rw [LookupMap.lookup_insert_iff] at hs
          split at hs
          · cases hs
            exact hne
          · exact h k' s hs

/-! An index is there to answer "which rows belong to `k`" without a search. It follows the rows when it lists
exactly them. -/

section Follows
variable {V : Type} {rows : LookupMap α V} {ownerOf : V → K} {m : Index K α}

/-- Listed under `k` are exactly the rows that belong to `k`, and no set is empty. -/
structure Follows (ownerOf : V → K) (m : Index K α) (rows : LookupMap α V) : Prop where
  lists : ∀ k a, Lists m k a ↔ ∃ v, rows.lookup a = some v ∧ ownerOf v = k
  noEmpty : NoEmpty m

theorem follows_empty : Follows ownerOf (∅ : Index K α) ∅ where
  lists k a := iff_of_false (not_lists_empty k a) (by rintro ⟨v, hv, -⟩; cases hv)
  noEmpty := noEmpty_empty

/-- A new row, listed under its owner. -/
theorem Follows.add (h : Follows ownerOf m rows) {a : α} {v : V} {owner : K} (new : rows.lookup a = none)
    (owned : ownerOf v = owner) : Follows ownerOf (insert m owner a) (rows.insert a v) where
  lists := by
    subst owned
    intro k b
    rw [lists_insert, h.lists, LookupMap.lookup_insert_iff]
    by_cases hb : b = a
    · subst hb
      simp [new, eq_comm]
    · simp [hb]
  noEmpty := noEmpty_insert h.noEmpty _ _

/-- A row rewritten by its owner. -/
theorem Follows.rewrite (h : Follows ownerOf m rows) {a : α} {v v' : V} (old : rows.lookup a = some v)
    (same : ownerOf v' = ownerOf v) : Follows ownerOf m (rows.insert a v') where
  lists := by
    intro k b
    rw [h.lists, LookupMap.lookup_insert_iff]
    by_cases hb : b = a
    · subst hb
      simp [old, same]
    · simp [hb]
  noEmpty := h.noEmpty

/-- A row taken out, and off its owner's list. -/
theorem Follows.drop (h : Follows ownerOf m rows) {a : α} {v : V} {owner : K} (old : rows.lookup a = some v)
    (owned : ownerOf v = owner) : Follows ownerOf (remove m owner a) (rows.erase a) where
  lists := by
    subst owned
    intro k b
    rw [lists_remove, h.lists, LookupMap.lookup_erase_iff]
    by_cases hb : b = a
    · subst hb
      simp [old, eq_comm]
    · simp [hb]
  noEmpty := noEmpty_remove h.noEmpty _ _

end Follows

end Index

end Collections
