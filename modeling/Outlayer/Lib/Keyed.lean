import Mathlib.Data.List.Nodup

/-!
# `Lib.Keyed` — lists whose members have keys

Members with different keys, sorted into classes. A list put together class by class, where the classes are given as a
list themselves, has every member of a class as often as its classes are in that list. So it has each once exactly when
no member is in two of them.

The answers of an oracle, under the questions they were given to. A question in the list is not asked again. While the
list `Recalls` the oracle, asking through the list says what the oracle says, and the list goes on recalling it; no
question stands in it twice.
-/

namespace Outlayer

variable {α κ ω : Type} [DecidableEq κ] {key : α → κ} {content : List α}

theorem count_keys_filter (hkeys : (content.map key).Nodup) {a : α} (ha : a ∈ content) (p : α → Bool) :
    ((content.filter p).map key).count (key a) = if p a = true then 1 else 0 := by
  have hnodup : ((content.filter p).map key).Nodup := hkeys.sublist (List.filter_sublist.map key)
  have hmem : key a ∈ (content.filter p).map key ↔ p a = true := by
    constructor
    · intro h
      obtain ⟨b, hb, hkey⟩ := List.mem_map.mp h
      obtain ⟨hb, hp⟩ := List.mem_filter.mp hb
      rwa [← List.inj_on_of_nodup_map hkeys hb ha hkey]
    · intro hp
      exact List.mem_map_of_mem (List.mem_filter.mpr ⟨ha, hp⟩)
  rw [hnodup.count]
  exact if_congr hmem rfl rfl

theorem count_by_class (hkeys : (content.map key).Nodup) {a : α} (ha : a ∈ content) (p : ω → α → Bool)
    (classes : List ω) :
    (classes.flatMap fun o => (content.filter (p o)).map key).count (key a) = classes.countP (p · a) := by
  induction classes with
  | nil => rfl
  | cons o rest ih =>
      rw [List.flatMap_cons, List.count_append, count_keys_filter hkeys ha, ih, List.countP_cons, Nat.add_comm]

theorem count_classed (hkeys : (content.map key).Nodup) {a : α} (ha : a ∈ content) (p : ω → α → Bool)
    (classes : List ω) :
    ((content.filter fun a => classes.any (p · a)).map key).count (key a) =
      if 0 < classes.countP (p · a) then 1 else 0 := by
  rw [count_keys_filter hkeys ha]
  refine if_congr ?_ rfl rfl
  rw [List.any_eq_true, List.countP_pos_iff]

/-- Class by class, every member once: no member is in two of the classes listed. -/
theorem perm_classed_iff (hkeys : (content.map key).Nodup) (p : ω → α → Bool) (classes : List ω) :
    (classes.flatMap fun o => (content.filter (p o)).map key).Perm
        ((content.filter fun a => classes.any (p · a)).map key) ↔
      ∀ a ∈ content, classes.countP (p · a) ≤ 1 := by
  constructor
  · intro hperm a ha
    have hcount := hperm.count_eq (key a)
    rw [count_by_class hkeys ha, count_classed hkeys ha] at hcount
    split at hcount <;> omega
  · intro hone
    rw [List.perm_iff_count]
    intro x
    by_cases hx : ∃ a ∈ content, key a = x
    · obtain ⟨a, ha, rfl⟩ := hx
      have hle := hone a ha
      rw [count_by_class hkeys ha, count_classed hkeys ha]
      split <;> omega
    · have hnone : ∀ q : α → Bool, x ∉ (content.filter q).map key := by
        intro q hmem
        obtain ⟨a, ha, hkey⟩ := List.mem_map.mp hmem
        exact hx ⟨a, (List.mem_filter.mp ha).1, hkey⟩
      have hleft : x ∉ classes.flatMap fun o => (content.filter (p o)).map key := by
        intro hmem
        obtain ⟨o, -, ho⟩ := List.mem_flatMap.mp hmem
        exact hnone _ ho
      rw [List.count_eq_zero.mpr hleft, List.count_eq_zero.mpr (hnone _)]

/-! ## Asking a question once -/

variable {Key Answer Fault : Type}

/-- What was answered, or what is answered now. -/
def askOnce [BEq Key] (ask : Key → Except Fault Answer) (asked : List (Key × Answer)) (k : Key) :
    Except Fault (Answer × List (Key × Answer)) :=
  match asked.lookup k with
  | some answered => .ok (answered, asked)
  | none => do
      let answered ← ask k
      .ok (answered, asked ++ [(k, answered)])

/-- The list holds answers of the oracle, one for a question. -/
structure Recalls (ask : Key → Except Fault Answer) (asked : List (Key × Answer)) : Prop where
  answers : ∀ entry ∈ asked, ask entry.1 = .ok entry.2
  once : (asked.map Prod.fst).Nodup

variable {ask : Key → Except Fault Answer} {asked : List (Key × Answer)}

theorem Recalls.nil : Recalls ask ([] : List (Key × Answer)) := ⟨fun _ h => absurd h List.not_mem_nil, List.nodup_nil⟩

section
variable [BEq Key] [LawfulBEq Key]

theorem mem_of_lookup {k : Key} {a : Answer} (h : asked.lookup k = some a) : (k, a) ∈ asked := by
  obtain ⟨before, after, rfl, -⟩ := List.lookup_eq_some_iff.mp h
  exact List.mem_append_right _ List.mem_cons_self

theorem not_mem_of_lookup {k : Key} (h : asked.lookup k = none) : k ∉ asked.map Prod.fst := by
  intro hmem
  obtain ⟨entry, hentry, rfl⟩ := List.mem_map.mp hmem
  exact absurd (List.lookup_eq_none_iff.mp h entry hentry) (by simp)

/-- A question has no answer through the list where the oracle has none. -/
theorem askOnce_error (hrecalls : Recalls ask asked) {k : Key} {down : Fault} (h : ask k = .error down) :
    askOnce ask asked k = .error down := by
  unfold askOnce
  split
  · next answered hlookup =>
      have hasked := hrecalls.answers _ (mem_of_lookup hlookup)
      rw [h] at hasked
      cases hasked
  · rw [h]
    rfl

/-- Otherwise it has the oracle's. -/
theorem askOnce_ok (hrecalls : Recalls ask asked) {k : Key} {a : Answer} (h : ask k = .ok a) :
    ∃ asked', askOnce ask asked k = .ok (a, asked') ∧ Recalls ask asked' := by
  unfold askOnce
  split
  · next answered hlookup =>
      have hasked := hrecalls.answers _ (mem_of_lookup hlookup)
      rw [h] at hasked
      cases hasked
      exact ⟨asked, rfl, hrecalls⟩
  · next hlookup =>
      refine ⟨asked ++ [(k, a)], by rw [h]; rfl, ?_, ?_⟩
      · intro entry hentry
        rcases List.mem_append.mp hentry with hold | hnew
        · exact hrecalls.answers entry hold
        · rw [List.mem_singleton.mp hnew]
          exact h
      · rw [List.map_append, List.nodup_append]
        refine ⟨hrecalls.once, List.nodup_singleton k, ?_⟩
        intro key hold other hnew heq
        rw [heq, List.mem_singleton.mp hnew] at hold
        exact not_mem_of_lookup hlookup hold

end

end Outlayer
