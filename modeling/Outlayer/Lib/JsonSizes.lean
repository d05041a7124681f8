import Outlayer.Lib.JsonFields

/-!
# `Lib.JsonSizes` — how deep a value nests, and how long its text is

A compact text is read exactly when its value nests less deep than the reader goes (`parse_compact_iff`): what stands
before the part that is too deep is read as it was written, and there the reader stops. The length of a compact text is
the sum of what its parts take, a separator or a bracket after each of them (`size_obj`), in whatever order
its members stand (`size_collect`).
-/

namespace Json

/-! ## Depth -/

mutual

/-- The levels of arrays and objects in a value. -/
def Value.nesting : Value → Nat
  | .arr vs => nestingElements vs + 1
  | .obj ms => nestingMembers ms + 1
  | _       => 0

/-- The deepest nesting among the elements. -/
def nestingElements : List Value → Nat
  | []      => 0
  | v :: vs => max v.nesting (nestingElements vs)

/-- The deepest nesting among the members. -/
def nestingMembers : List (String × Value) → Nat
  | []           => 0
  | (_, v) :: ms => max v.nesting (nestingMembers ms)

end

section Numbered
variable (number : String → Option String)

mutual

/-- A value whose numbers the reader accepts. -/
def Value.Numbered : Value → Prop
  | .num text => NumberText number text
  | .arr vs   => NumberedElements vs
  | .obj ms   => NumberedMembers ms
  | _         => True

/-- The numbers of every element are numbers. -/
def NumberedElements : List Value → Prop
  | []      => True
  | v :: vs => v.Numbered ∧ NumberedElements vs

/-- The numbers of every member are numbers. -/
def NumberedMembers : List (String × Value) → Prop
  | []           => True
  | (_, v) :: ms => v.Numbered ∧ NumberedMembers ms

end

end Numbered

section Depth
variable {number : String → Option String} {fuel depth : Nat} {rest : List Char}

mutual

/-- **A value can be read back where the reader goes as deep as it nests.** -/
theorem good_iff : ∀ (v : Value) {d : Nat}, v.Good number (d + 1) ↔ v.Numbered number ∧ v.nesting ≤ d
  | .null, d | .bool _, d | .str _, d => by simp [Value.Good, Value.Numbered, Value.nesting]
  | .num _, d => by simp [Value.Good, Value.Numbered, Value.nesting]
  | .arr vs, 0 => by simp [Value.Good, Value.nesting]
  | .arr vs, d + 1 => by
      have := @goodElements_nesting vs d
      simp only [Value.Good, Value.Numbered, Value.nesting, Nat.add_sub_cancel, this]
      exact ⟨fun ⟨_, h, hle⟩ => ⟨h, Nat.succ_le_succ hle⟩,
        fun ⟨h, hle⟩ => ⟨by omega, h, Nat.le_of_succ_le_succ hle⟩⟩
  | .obj ms, 0 => by simp [Value.Good, Value.nesting]
  | .obj ms, d + 1 => by
      have := @goodMembers_nesting ms d
      simp only [Value.Good, Value.Numbered, Value.nesting, Nat.add_sub_cancel, this]
      exact ⟨fun ⟨_, h, hle⟩ => ⟨h, Nat.succ_le_succ hle⟩,
        fun ⟨h, hle⟩ => ⟨by omega, h, Nat.le_of_succ_le_succ hle⟩⟩

theorem goodElements_nesting : ∀ {vs : List Value} {d : Nat},
    GoodElements number (d + 1) vs ↔ NumberedElements number vs ∧ nestingElements vs ≤ d
  | [], d => by simp [GoodElements, NumberedElements, nestingElements]
  | v :: vs, d => by
      simp only [GoodElements, NumberedElements, nestingElements, good_iff v, goodElements_nesting, max_le_iff]
      tauto

theorem goodMembers_nesting : ∀ {ms : List (String × Value)} {d : Nat},
    GoodMembers number (d + 1) ms ↔ NumberedMembers number ms ∧ nestingMembers ms ≤ d
  | [], d => by simp [GoodMembers, NumberedMembers, nestingMembers]
  | (k, v) :: ms, d => by
      simp only [GoodMembers, NumberedMembers, nestingMembers, good_iff v, goodMembers_nesting, max_le_iff]
      tauto

end

/-- What opens too deep is refused. -/
theorem readTree_deep (hd : depth ≤ 1) (cs : List Char) :
    readTree number fuel depth ('[' :: cs) = none ∧ readTree number fuel depth ('{' :: cs) = none := by
  cases fuel with
  | zero => exact ⟨rfl, rfl⟩
  | succ fuel =>
      constructor
      · rw [readTree, skipSpace_cons (by decide)]
        simp [hd]
      · rw [readTree, skipSpace_cons (by decide)]
        simp [hd]

/-- What no reader reads with `fuel`: what nests too deep for it. -/
private structure Refuses (number : String → Option String) (fuel : Nat) : Prop where
  value : ∀ {depth : Nat} (rest : List Char) (v : Value), v.Numbered number → ¬ v.Good number depth → Ends rest →
    2 * v.compact.toList.length ≤ fuel → readTree number fuel depth (v.compact.toList ++ rest) = none
  elements : ∀ {depth : Nat} (rest : List Char) (v : Value) (vs : List Value), NumberedElements number (v :: vs) →
    ¬ GoodElements number depth (v :: vs) → 2 * (compactElements (v :: vs)).toList.length + 1 ≤ fuel →
    readTreeElements number fuel depth ((compactElements (v :: vs)).toList ++ ']' :: rest) = none
  members : ∀ {depth : Nat} (rest : List Char) (kv : String × Value) (ms : List (String × Value)),
    NumberedMembers number (kv :: ms) → ¬ GoodMembers number depth (kv :: ms) →
    2 * (compactMembers (kv :: ms)).toList.length + 1 ≤ fuel →
    readTreeMembers number fuel depth ((compactMembers (kv :: ms)).toList ++ '}' :: rest) = none

private theorem refuses_value (ih : Refuses number fuel) (v : Value) (hv : v.Numbered number)
    (hdeep : ¬ v.Good number depth) (hfuel : 2 * v.compact.toList.length ≤ fuel + 1) :
    readTree number (fuel + 1) depth (v.compact.toList ++ rest) = none := by
  cases v with
  | null => exact absurd trivial hdeep
  | bool b => exact absurd trivial hdeep
  | num text => exact absurd hv hdeep
  | str s => exact absurd trivial hdeep
  | arr vs =>
      have htext : (Value.arr vs).compact.toList ++ rest = '[' :: ((compactElements vs).toList ++ ']' :: rest) := by
        simp [Value.compact, String.toList_append]
      have hlen : (Value.arr vs).compact.toList.length = (compactElements vs).toList.length + 2 := by
        simp [Value.compact]
      rw [htext]
      rcases Nat.lt_or_ge 1 depth with hd | hd
      · cases vs with
        | nil => exact absurd ⟨hd, trivial⟩ hdeep
        | cons v vs =>
            obtain ⟨c, cs, hcs, hspace, hclose⟩ := head_compact v ((good_iff v).mpr ⟨hv.1, Nat.le_refl _⟩)
            have helements := ih.elements rest v vs hv (fun h => hdeep ⟨hd, h⟩) (by omega)
            obtain ⟨cs', hcs'⟩ : ∃ cs', (compactElements (v :: vs)).toList = c :: cs' := by
              cases vs with
              | nil => exact ⟨cs, hcs⟩
              | cons v' vs => exact ⟨_, by simp [compactElements, hcs]; rfl⟩
            rw [hcs', List.cons_append, readTree_bracket hd hspace hclose, ← List.cons_append, ← hcs', helements]
            rfl
      · exact (readTree_deep hd _).1
  | obj ms =>
      have htext : (Value.obj ms).compact.toList ++ rest = '{' :: ((compactMembers ms).toList ++ '}' :: rest) := by
        simp [Value.compact, String.toList_append]
      have hlen : (Value.obj ms).compact.toList.length = (compactMembers ms).toList.length + 2 := by
        simp [Value.compact]
      rw [htext]
      rcases Nat.lt_or_ge 1 depth with hd | hd
      · cases ms with
        | nil => exact absurd ⟨hd, trivial⟩ hdeep
        | cons kv ms =>
            obtain ⟨cs, hcs⟩ : ∃ cs, (compactMembers (kv :: ms)).toList = '"' :: cs := by
              cases ms with
              | nil => exact ⟨_, by simp [compactMembers, quote_toList]; rfl⟩
              | cons kv' ms => exact ⟨_, by simp [compactMembers, quote_toList]; rfl⟩
            have hmembers := ih.members rest kv ms hv (fun h => hdeep ⟨hd, h⟩) (by omega)
            rw [hcs, List.cons_append, readTree_brace_quote hd, ← List.cons_append, ← hcs, hmembers]
            rfl
      · exact (readTree_deep hd _).2

private theorem refuses_elements (ih : Refuses number fuel) (v : Value) (vs : List Value)
    (hv : NumberedElements number (v :: vs)) (hdeep : ¬ GoodElements number depth (v :: vs))
    (hfuel : 2 * (compactElements (v :: vs)).toList.length + 1 ≤ fuel + 1) :
    readTreeElements number (fuel + 1) depth ((compactElements (v :: vs)).toList ++ ']' :: rest) = none := by
  by_cases hgood : v.Good number depth
  · cases vs with
    | nil => exact absurd ⟨hgood, trivial⟩ hdeep
    | cons v' vs =>
        have htext : (compactElements (v :: v' :: vs)).toList
            = v.compact.toList ++ ',' :: (compactElements (v' :: vs)).toList := by
          simp [compactElements, String.toList_append]
        rw [htext, List.length_append, List.length_cons] at hfuel
        have hread := (readsBack number fuel).value (',' :: ((compactElements (v' :: vs)).toList ++ ']' :: rest)) v
          hgood (Or.inl rfl) (by omega)
        have hmore := ih.elements rest v' vs hv.2 (fun h => hdeep ⟨hgood, h⟩) (by omega)
        rw [htext, List.append_assoc, List.cons_append]
        simp only [readTreeElements, hread, Option.bind_eq_bind, Option.bind_some]
        rw [skipSpace_cons (by decide)]
        simp only [hmore, Option.map_none]
  · -- the first element is already too deep
    obtain ⟨tail, hends, hlen, htail⟩ : ∃ tail, Ends tail ∧
        v.compact.toList.length ≤ (compactElements (v :: vs)).toList.length ∧
        (compactElements (v :: vs)).toList ++ ']' :: rest = v.compact.toList ++ tail := by
      cases vs with
      | nil => exact ⟨']' :: rest, Or.inr (Or.inl rfl), Nat.le_refl _, rfl⟩
      | cons v' vs =>
          refine ⟨',' :: ((compactElements (v' :: vs)).toList ++ ']' :: rest), Or.inl rfl, ?_, ?_⟩
          · simp [compactElements, String.toList_append]
          · simp [compactElements, String.toList_append]
    have hread := ih.value tail v hv.1 hgood hends (by omega)
    rw [htail]
    simp only [readTreeElements, hread, Option.bind_eq_bind, Option.bind_none]

private theorem refuses_members (ih : Refuses number fuel) (kv : String × Value) (ms : List (String × Value))
    (hv : NumberedMembers number (kv :: ms)) (hdeep : ¬ GoodMembers number depth (kv :: ms))
    (hfuel : 2 * (compactMembers (kv :: ms)).toList.length + 1 ≤ fuel + 1) :
    readTreeMembers number (fuel + 1) depth ((compactMembers (kv :: ms)).toList ++ '}' :: rest) = none := by
  obtain ⟨k, v⟩ := kv
  -- the key and its colon are read
  obtain ⟨tail, hends, hlen, htail⟩ : ∃ tail, Ends tail ∧
      v.compact.toList.length + 1 ≤ (compactMembers ((k, v) :: ms)).toList.length ∧
      (compactMembers ((k, v) :: ms)).toList ++ '}' :: rest
        = '"' :: (escape k.toList ++ '"' :: ':' :: (v.compact.toList ++ tail)) := by
    cases ms with
    | nil =>
        refine ⟨'}' :: rest, Or.inr (Or.inr rfl), ?_, ?_⟩
        · simp only [compactMembers, String.toList_append, quote_toList, List.length_append, List.length_cons]
          omega
        · simp [compactMembers, String.toList_append, quote_toList]
    | cons kv' ms =>
        refine ⟨',' :: ((compactMembers (kv' :: ms)).toList ++ '}' :: rest), Or.inl rfl, ?_, ?_⟩
        · simp only [compactMembers, String.toList_append, quote_toList, List.length_append, List.length_cons]
          omega
        · simp [compactMembers, String.toList_append, quote_toList]
  by_cases hgood : v.Good number depth
  · cases ms with
    | nil => exact absurd ⟨hgood, trivial⟩ hdeep
    | cons kv' ms =>
        have htext : (compactMembers ((k, v) :: kv' :: ms)).toList
            = '"' :: (escape k.toList
                ++ '"' :: ':' :: (v.compact.toList ++ ',' :: (compactMembers (kv' :: ms)).toList)) := by
          simp [compactMembers, String.toList_append, quote_toList]
        rw [htext] at hfuel
        simp only [List.length_cons, List.length_append] at hfuel
        have hread := (readsBack number fuel).value (',' :: ((compactMembers (kv' :: ms)).toList ++ '}' :: rest)) v
          hgood (Or.inl rfl) (by omega)
        have hmore := ih.members rest kv' ms hv.2 (fun h => hdeep ⟨hgood, h⟩) (by omega)
        rw [htext]
        simp only [List.cons_append, List.append_assoc]
        rw [readTreeMembers, skipSpace_cons (by decide)]
        simp only [readString_quoted, Option.bind_eq_bind, Option.bind_some]
        rw [skipSpace_cons (by decide)]
        simp only [hread, Option.bind_some]
        rw [skipSpace_cons (by decide)]
        simp only [hmore, Option.map_none]
  · have hread := ih.value tail v hv.1 hgood hends (by omega)
    rw [htail, readTreeMembers, skipSpace_cons (by decide)]
    simp only [readString_quoted, Option.bind_eq_bind, Option.bind_some]
    rw [skipSpace_cons (by decide)]
    simp only [hread, Option.bind_none]

private theorem refuses (number : String → Option String) (fuel : Nat) : Refuses number fuel := by
  induction fuel with
  | zero => exact ⟨fun _ _ _ _ _ _ => rfl, fun _ _ _ _ _ _ => rfl, fun _ _ _ _ _ _ => rfl⟩
  | succ fuel ih =>
      exact ⟨fun _ v hv hdeep _ => refuses_value ih v hv hdeep, fun _ => refuses_elements ih,
        fun _ => refuses_members ih⟩

/-- **What was written is read exactly when it nests less deep than the reader goes.** -/
theorem parse_compact_eq {v : Value} (hv : v.Numbered number) :
    parse number v.compact = if v.nesting < recursionLimit then some (v.reread number) else none := by
  by_cases hd : v.nesting < recursionLimit
  · rw [if_pos hd]
    exact parse_compact ((good_iff v).mpr ⟨hv, Nat.le_of_lt_succ hd⟩)
  · rw [if_neg hd]
    have hdeep : ¬ v.Good number recursionLimit := fun h => hd (Nat.lt_succ_of_le ((good_iff v).mp h).2)
    have hread := (refuses number (2 * v.compact.toList.length + 2)).value [] v hv hdeep trivial (by omega)
    rw [List.append_nil] at hread
    simp only [parse_eq, parseTree, hread, Option.bind_eq_bind, Option.bind_none, Option.map_none]

end Depth

/-! ## Length -/

/-- The bytes of the compact text of a value. -/
def Value.size (v : Value) : Nat := v.compact.utf8ByteSize

/-- The bytes of a member: its key between quotes, a colon, its value, and what follows it. -/
def memberSize (kv : String × Value) : Nat := escapedSize kv.1 + 3 + kv.2.size + 1

theorem size_quote (s : String) : (quote s).utf8ByteSize = escapedSize s + 2 := by
  have hquote : '"'.utf8Size = 1 := by decide
  rw [← size_toList, quote_toList, size_cons, size_append, size_cons, size_nil, hquote, escapedSize]
  omega

/-- The bytes the characters within the first `max` bytes take when they are escaped. -/
def escapedWithin : (max : Nat) → List Char → Nat
  | _, []        => 0
  | max, c :: cs =>
      if c.utf8Size ≤ max then Json.size (escapeChar c) + escapedWithin (max - c.utf8Size) cs else 0

theorem escapedSize_append (s t : String) : escapedSize (s ++ t) = escapedSize s + escapedSize t := by
  simp only [escapedSize, escape, String.toList_append, List.flatMap_append, size_append]

/-- A text without anything to escape. -/
theorem escapedSize_plain {s : String} (h : ∀ c ∈ s.toList, escapeChar c = [c]) : escapedSize s = s.utf8ByteSize := by
  rw [escapedSize, ← size_toList]
  generalize s.toList = cs at h
  induction cs with
  | nil => rfl
  | cons c cs ih =>
      show Json.size (escapeChar c ++ escape cs) = _
      rw [size_append, h c List.mem_cons_self, ih fun d hd => h d (List.mem_cons_of_mem _ hd)]
      rfl

@[simp] theorem size_bool (b : Bool) : (Value.bool b).size = if b then 4 else 5 := by
  cases b <;> decide

@[simp] theorem size_str (s : String) : (Value.str s).size = escapedSize s + 2 := size_quote s

theorem size_compactMembers (kv : String × Value) (ms : List (String × Value)) :
    (compactMembers (kv :: ms)).utf8ByteSize + 1 = ((kv :: ms).map memberSize).sum := by
  have hcolon : ":".utf8ByteSize = 1 := by decide
  have hcomma : ",".utf8ByteSize = 1 := by decide
  induction ms generalizing kv with
  | nil =>
      obtain ⟨k, v⟩ := kv
      have hsize : v.compact.utf8ByteSize = v.size := rfl
      simp only [compactMembers, String.utf8ByteSize_append, size_quote, hcolon, hsize, List.map_cons, List.map_nil,
        List.sum_cons, List.sum_nil, memberSize]
      omega
  | cons kv' ms ih =>
      obtain ⟨k, v⟩ := kv
      have hsize : v.compact.utf8ByteSize = v.size := rfl
      rw [List.map_cons, List.sum_cons, ← ih kv']
      simp only [compactMembers, String.utf8ByteSize_append, size_quote, hcolon, hcomma, hsize, memberSize]
      omega

theorem size_obj (kv : String × Value) (ms : List (String × Value)) :
    (Value.obj (kv :: ms)).size = 1 + ((kv :: ms).map memberSize).sum := by
  have hopen : "\x7b".utf8ByteSize = 1 := by decide
  have hclose : "\x7d".utf8ByteSize = 1 := by decide
  rw [← size_compactMembers]
  show ("\x7b" ++ compactMembers (kv :: ms) ++ "\x7d").utf8ByteSize = _
  rw [String.utf8ByteSize_append, String.utf8ByteSize_append, hopen, hclose]
  omega

/-! ### Members in order -/

section Ordered
variable {k : String} {v : Value} {m ms : List (String × Value)}

theorem perm_insertMember (h : k ∉ m.map Prod.fst) : (insertMember k v m).Perm ((k, v) :: m) := by
  induction m with
  | nil => exact List.Perm.refl _
  | cons ab m ih =>
      obtain ⟨a, b⟩ := ab
      rw [List.map_cons, List.mem_cons, not_or] at h
      unfold insertMember
      rw [if_neg h.1]
      by_cases hlt : k < a
      · rw [if_pos hlt]
      · rw [if_neg hlt]
        exact ((ih h.2).cons _).trans (List.Perm.swap _ _ _)

/-- Members with different keys are put in order, and none is lost. -/
theorem perm_collect (h : (ms.map Prod.fst).Nodup) : (collect ms).Perm ms := by
  have hfold : ∀ (ms m : List (String × Value)), (ms.map Prod.fst ++ m.map Prod.fst).Nodup →
      (ms.foldl (fun m kv => insertMember kv.1 kv.2 m) m).Perm (ms ++ m) := by
    intro ms
    induction ms with
    | nil => exact fun m _ => List.Perm.refl _
    | cons kv ms ih =>
        intro m hnodup
        rw [List.map_cons, List.cons_append, List.nodup_cons, List.mem_append, not_or] at hnodup
        have hput := @perm_insertMember kv.1 kv.2 m hnodup.1.2
        have hrest : (ms.map Prod.fst ++ (insertMember kv.1 kv.2 m).map Prod.fst).Nodup := by
          have hkeys := ((hput.map Prod.fst).append_left (ms.map Prod.fst)).trans List.perm_middle
          rw [hkeys.nodup_iff, List.nodup_cons, List.mem_append, not_or]
          exact hnodup
        exact (ih _ hrest).trans ((hput.append_left ms).trans List.perm_middle)
  have := hfold ms [] (by simpa using h)
  rwa [List.append_nil] at this

/-- An object as a map of its members. -/
def Value.ofMembers (ms : List (String × Value)) : Value := .obj (collect ms)

theorem distinct_ofMembers (ms : List (String × Value)) : (Value.ofMembers ms).Distinct :=
  Value.Sorted.distinct (v := .ofMembers ms) (sorted_collect ms)

theorem get_ofMembers (h : (ms.map Prod.fst).Nodup) (key : String) : (Value.ofMembers ms).get key = ms.lookup key :=
  lookup_collect h

theorem size_ofMembers (h : (ms.map Prod.fst).Nodup) : (Value.ofMembers ms).size = (Value.obj ms).size := by
  unfold Value.ofMembers
  have hperm := perm_collect h
  cases ms with
  | nil => rfl
  | cons kv ms =>
      cases hcollect : collect (kv :: ms) with
      | nil =>
          rw [hcollect] at hperm
          exact absurd hperm.length_eq (by simp)
      | cons kv' ms' =>
          rw [hcollect] at hperm
          rw [size_obj, size_obj, (hperm.map memberSize).sum_nat]

theorem size_ofMember (key : String) (v : Value) :
    (Value.ofMembers [(key, v)]).size = escapedSize key + 5 + v.size := by
  rw [size_ofMembers (by simp), size_obj]
  simp only [List.map_cons, List.map_nil, List.sum_cons, List.sum_nil, memberSize]
  omega

theorem nestingMembers_le {d : Nat} : nestingMembers ms ≤ d ↔ ∀ kv ∈ ms, kv.2.nesting ≤ d := by
  induction ms with
  | nil => simp [nestingMembers]
  | cons kv ms ih => simp [nestingMembers, ih]

theorem nesting_ofMembers (h : (ms.map Prod.fst).Nodup) : (Value.ofMembers ms).nesting = nestingMembers ms + 1 := by
  have hsame : ∀ d, nestingMembers (collect ms) ≤ d ↔ nestingMembers ms ≤ d := by
    intro d
    simp only [nestingMembers_le, (perm_collect h).mem_iff]
  show nestingMembers (collect ms) + 1 = _
  rw [Nat.le_antisymm ((hsame _).mpr (Nat.le_refl _)) ((hsame _).mp (Nat.le_refl _))]

theorem nesting_ofMembers_le (h : (ms.map Prod.fst).Nodup) {d : Nat} :
    (Value.ofMembers ms).nesting ≤ d + 1 ↔ ∀ kv ∈ ms, kv.2.nesting ≤ d := by
  rw [nesting_ofMembers h, Nat.add_le_add_iff_right, nestingMembers_le]

theorem numberedMembers_iff {number : String → Option String} :
    NumberedMembers number ms ↔ ∀ kv ∈ ms, kv.2.Numbered number := by
  induction ms with
  | nil => simp [NumberedMembers]
  | cons kv ms ih => simp [NumberedMembers, ih]

theorem numbered_ofMembers {number : String → Option String} (h : ∀ kv ∈ ms, kv.2.Numbered number) :
    (Value.ofMembers ms).Numbered number :=
  numberedMembers_iff.mpr fun kv hkv => h kv (mem_of_mem_collect hkv)

end Ordered

end Json
