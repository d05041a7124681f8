import Outlayer.Lib.Collections

/-!
# `Lib.Joins` — writing many entries into a map, and joining maps that agree

`insertAll` writes entries one after another, the later over the earlier. `joinEntries` writes the entries it does not
skip, and refuses where a key is there with another value; nothing is ever written over. What a join says depends on
what it is `Told` and on nothing else: it goes through exactly when no key is told two values, and its result holds
exactly what was told. So entries may come in any order, and in any number of batches.
-/

namespace Collections.LookupMap
variable {K V ε : Type} [DecidableEq K]

/-! ## Entries -/

/-- The entries of a map, in the order it gives them out. -/
def pairs (m : LookupMap K V) : List (K × V) := m.entries.map fun e => (e.1, e.2)

theorem mem_pairs {m : LookupMap K V} {k : K} {v : V} : (k, v) ∈ m.pairs ↔ m.lookup k = some v := by
  rw [← mem_entries_iff]
  unfold pairs
  constructor
  · intro h
    obtain ⟨e, he, heq⟩ := List.mem_map.mp h
    cases heq
    exact he
  · intro h
    exact List.mem_map.mpr ⟨_, h, rfl⟩

omit [DecidableEq K] in
theorem nodup_pairs_keys (m : LookupMap K V) : (m.pairs.map Prod.fst).Nodup := by
  have hkeys : m.pairs.map Prod.fst = m.entries.keys := by
    rw [pairs, List.map_map, List.keys]
    rfl
  rw [hkeys]
  exact m.nodupKeys

/-! ## Writing -/

/-- Write the entries one after another. -/
def insertAll (m : LookupMap K V) (es : List (K × V)) : LookupMap K V := es.foldl (fun m e => m.insert e.1 e.2) m

@[simp] theorem insertAll_cons (m : LookupMap K V) (e : K × V) (es : List (K × V)) :
    m.insertAll (e :: es) = insertAll (m.insert e.1 e.2) es := rfl

theorem lookup_insertAll_of_notMem {m : LookupMap K V} {es : List (K × V)} {k : K} (h : k ∉ es.map Prod.fst) :
    (m.insertAll es).lookup k = m.lookup k := by
  induction es generalizing m with
  | nil => rfl
  | cons e es ih =>
      rw [List.map_cons, List.mem_cons, not_or] at h
      rw [insertAll_cons, ih h.2, lookup_insert_iff, if_neg h.1]

/-- What a key reads after the writes is told by the writes, or, where they leave it alone, by the map. -/
theorem lookup_insertAll_congr {m m' : LookupMap K V} {es : List (K × V)} {k : K}
    (h : k ∈ es.map Prod.fst ∨ m.lookup k = m'.lookup k) :
    (m.insertAll es).lookup k = (m'.insertAll es).lookup k := by
  induction es generalizing m m' with
  | nil =>
      rcases h with hmem | hsame
      · cases hmem
      · exact hsame
  | cons e es ih =>
      rw [insertAll_cons, insertAll_cons]
      refine ih ?_
      rw [lookup_insert_iff, lookup_insert_iff]
      by_cases hk : k = e.1
      · simp [hk]
      · rw [if_neg hk, if_neg hk]
        rcases h with hmem | hsame
        · rw [List.map_cons, List.mem_cons] at hmem
          exact .inl (hmem.resolve_left hk)
        · exact .inr hsame

theorem lookup_insertAll_of_mem {m : LookupMap K V} {es : List (K × V)} {k : K} {v : V}
    (hnodup : (es.map Prod.fst).Nodup) (h : (k, v) ∈ es) : (m.insertAll es).lookup k = some v := by
  induction es generalizing m with
  | nil => cases h
  | cons e es ih =>
      rw [List.map_cons, List.nodup_cons] at hnodup
      rw [insertAll_cons]
      rcases List.mem_cons.mp h with rfl | h
      · rw [lookup_insertAll_of_notMem hnodup.1]
        exact AList.lookup_insert _
      · exact ih hnodup.2 h

/-- A map written over another: its own entries, and the other's where it has none. -/
theorem lookup_insertAll_pairs (m m' : LookupMap K V) (k : K) :
    (m.insertAll m'.pairs).lookup k = (m'.lookup k).or (m.lookup k) := by
  cases hk : m'.lookup k with
  | some v => exact lookup_insertAll_of_mem (nodup_pairs_keys m') (mem_pairs.mpr hk)
  | none =>
      refine lookup_insertAll_of_notMem fun hmem => ?_
      obtain ⟨⟨k', v⟩, he, rfl⟩ := List.mem_map.mp hmem
      rw [mem_pairs.mp he] at hk
      cases hk

/-! ## Joining -/

section Join
variable [DecidableEq V] (skip : K → Bool) (refusal : K → ε)

/-- Take in one entry: one that is skipped, or there already, changes nothing; one that is there with another value is
    refused. -/
def joinEntry (m : LookupMap K V) (e : K × V) : Except ε (LookupMap K V) :=
  if skip e.1 then .ok m
  else match m.lookup e.1 with
    | some held => if held = e.2 then .ok m else .error (refusal e.1)
    | none      => .ok (m.insert e.1 e.2)

/-- Joins the entries one after another, up to the first refusal. -/
def joinEntries (m : LookupMap K V) : List (K × V) → Except ε (LookupMap K V)
  | []      => .ok m
  | e :: es =>
      match joinEntry skip refusal m e with
      | .ok m'     => joinEntries m' es
      | .error why => .error why

/-- A join is told `v` for `k`: by the map, or by an entry it does not skip. -/
def Told (m : LookupMap K V) (es : List (K × V)) (k : K) (v : V) : Prop :=
  m.lookup k = some v ∨ skip k = false ∧ (k, v) ∈ es

/-- No key is told two values. -/
def Consistent (m : LookupMap K V) (es : List (K × V)) : Prop :=
  ∀ k v v', Told skip m es k v → Told skip m es k v' → v = v'

variable {skip refusal} {m m' : LookupMap K V} {e : K × V} {es es' : List (K × V)}

omit [DecidableEq V] in
theorem told_nil {k : K} {v : V} : Told skip m [] k v ↔ m.lookup k = some v := by
  simp [Told]

/-- **One entry.** What goes through holds what was told so far, and the entry. -/
theorem told_of_joinEntry (h : joinEntry skip refusal m e = .ok m') (es : List (K × V)) (k : K) (v : V) :
    Told skip m' es k v ↔ Told skip m (e :: es) k v := by
  obtain ⟨k₀, v₀⟩ := e
  unfold joinEntry at h
  split at h
  · next hskip =>
      cases h
      unfold Told
      constructor
      · exact Or.imp_right (And.imp_right (List.mem_cons_of_mem _))
      · rintro (hm | ⟨hkept, hmem⟩)
        · exact .inl hm
        · rcases List.mem_cons.mp hmem with heq | hmem
          · cases heq
            rw [hkept] at hskip
            cases hskip
          · exact .inr ⟨hkept, hmem⟩
  · next hkept =>
      have hkept : skip k₀ = false := by simpa using hkept
      split at h
      · next held hheld =>
          split at h
          · next hsame =>
              cases h
              cases hsame
              unfold Told
              constructor
              · exact Or.imp_right (And.imp_right (List.mem_cons_of_mem _))
              · rintro (hm | ⟨hkept, hmem⟩)
                · exact .inl hm
                · rcases List.mem_cons.mp hmem with heq | hmem
                  · cases heq
                    exact .inl hheld
                  · exact .inr ⟨hkept, hmem⟩
          · cases h
      · next hfree =>
          cases h
          unfold Told
          rw [lookup_insert_iff]
          by_cases hk : k = k₀
          · subst hk
            simp [hkept, hfree, eq_comm]
          · simp [hk]

/-- An entry is refused where its key is told another value already. -/
theorem not_consistent_of_joinEntry {why : ε} (h : joinEntry skip refusal m e = .error why) :
    ¬ Consistent skip m (e :: es) := by
  obtain ⟨k₀, v₀⟩ := e
  unfold joinEntry at h
  split at h
  · cases h
  · next hkept =>
      split at h
      · next held hheld =>
          split at h
          · cases h
          · next hdiffers =>
              intro hconsistent
              refine hdiffers (hconsistent k₀ held v₀ (.inl hheld) (.inr ⟨by simpa using hkept, ?_⟩))
              exact List.mem_cons_self
      · cases h

/-- **A join** goes through exactly when no key is told two values. -/
theorem exists_joinEntries_iff : (∃ m', joinEntries skip refusal m es = .ok m') ↔ Consistent skip m es := by
  induction es generalizing m with
  | nil =>
      refine iff_of_true ⟨m, rfl⟩ fun k v v' h h' => ?_
      rw [told_nil] at h h'
      exact Option.some.inj (h.symm.trans h')
  | cons e es ih =>
      rw [joinEntries]
      cases hjoin : joinEntry skip refusal m e with
      | error why =>
          refine iff_of_false ?_ (not_consistent_of_joinEntry hjoin)
          rintro ⟨m', h⟩
          cases h
      | ok m₁ =>
          refine ih.trans ?_
          unfold Consistent
          simp only [told_of_joinEntry hjoin es]

/-- And its result holds exactly what was told. -/
theorem lookup_joinEntries (h : joinEntries skip refusal m es = .ok m') (k : K) (v : V) :
    m'.lookup k = some v ↔ Told skip m es k v := by
  induction es generalizing m with
  | nil =>
      cases h
      exact told_nil.symm
  | cons e es ih =>
      rw [joinEntries] at h
      cases hjoin : joinEntry skip refusal m e with
      | error why =>
          rw [hjoin] at h
          cases h
      | ok m₁ =>
          rw [hjoin] at h
          exact (ih h).trans (told_of_joinEntry hjoin es k v)

/-- A join in two batches is one join. -/
theorem joinEntries_append :
    joinEntries skip refusal m (es ++ es')
      = joinEntries skip refusal m es >>= fun m' => joinEntries skip refusal m' es' := by
  induction es generalizing m with
  | nil => rfl
  | cons e es ih =>
      rw [List.cons_append, joinEntries, joinEntries]
      cases joinEntry skip refusal m e with
      | ok m₁ => exact ih
      | error why => rfl

end Join

end Collections.LookupMap
