import Outlayer.Lib.JsonFields

/-!
# `Lib.JsonRecords` — one record, read from a tree and from its value

A reader of records takes the members of a tree as they stand, and refuses one that repeats a field; a reader of values
has collected them before it looks. Where the first finds a field, the second finds the same under its name
(`get_collapse`), so what was compared on the value holds of what was read into the record.
-/

namespace Json

/-- A member of the record with the given fields, if it stands there. An array may end early, but not before the first
    `least` fields. -/
def Value.memberFrom (fields : List String) (least : Nat) (name : String) : Value → Option (Option Value)
  | .obj ms =>
      match ms.filter fun m => m.1 == name with
      | []  => some none
      | [m] => some (some m.2)
      | _   => none
  | .arr vs => if least ≤ vs.length ∧ vs.length ≤ fields.length then some vs[fields.idxOf name]? else none
  | _ => none

/-- A field that has to be there. -/
def readRequired {α : Type} (found : Option (Option Value)) (read : Value → Option α) : Option α := do
  let w ← found
  let w ← w
  read w

/-- A field with a default. -/
def readDefaulted {α : Type} (found : Option (Option Value)) (default : α) (read : Value → Option α) : Option α := do
  let w ← found
  match w with
  | none   => some default
  | some w => read w

/-- A field that may be absent or `null`. -/
def readNullable {α : Type} (found : Option (Option Value)) (read : Value → Option α) : Option (Option α) := do
  let w ← found
  match w with
  | none       => some none
  | some .null => some none
  | some w     => (read w).map some

section Collapse
variable {fields : List String} {name : String} {v : Value}

/-- An array of all its fields, or an object. -/
theorem member_eq_memberFrom : v.member fields name = v.memberFrom fields fields.length name := by
  cases v with
  | arr vs =>
      show (if _ then _ else _) = if _ then _ else _
      by_cases h : vs.length = fields.length
      · rw [if_pos h, if_pos ⟨Nat.le_of_eq h.symm, Nat.le_of_eq h⟩]
      · rw [if_neg h, if_neg fun hle => h (Nat.le_antisymm hle.2 hle.1)]
  | _ => rfl

theorem required_eq {α : Type} {read : Value → Option α} :
    v.required fields name read = readRequired (v.memberFrom fields fields.length name) read := by
  rw [Value.required, member_eq_memberFrom]
  rfl

theorem nullable_eq {α : Type} {read : Value → Option α} :
    v.nullable fields name read = readNullable (v.memberFrom fields fields.length name) read := by
  rw [Value.nullable, member_eq_memberFrom]
  rfl

/-- What a key stands for in a map is the last member under it. -/
theorem lookup_collect_filter (key : String) (ms : List (String × Value)) :
    (collect ms).lookup key = ((ms.filter fun m => m.1 == key).getLast?).map Prod.snd := by
  have hfold : ∀ (ms m : List (String × Value)),
      (ms.foldl (fun m kv => insertMember kv.1 kv.2 m) m).lookup key
        = (((ms.filter fun m => m.1 == key).getLast?).map Prod.snd).or (m.lookup key) := by
    intro ms
    induction ms with
    | nil => exact fun m => rfl
    | cons kv ms ih =>
        intro m
        rw [List.foldl_cons, ih, lookup_insertMember]
        by_cases hk : kv.1 = key
        · rw [if_pos hk.symm, List.filter_cons_of_pos (by simpa using hk)]
          cases hlast : (ms.filter fun m => m.1 == key).getLast? with
          | none =>
              rw [List.getLast?_eq_none_iff] at hlast
              rw [hlast]
              rfl
          | some last =>
              have hne : ms.filter (fun m => m.1 == key) ≠ [] := by
                intro hnil
                rw [hnil] at hlast
                cases hlast
              rw [List.getLast?_cons, hlast]
              rfl
        · rw [if_neg fun h => hk h.symm, List.filter_cons_of_neg (by simpa using hk)]
  rw [collect, hfold]
  exact Option.or_none

theorem collapseMembers_eq (ms : List (String × Value)) :
    collapseMembers ms = ms.map fun kv => (kv.1, kv.2.collapse) := by
  induction ms with
  | nil => rfl
  | cons kv ms ih => rw [collapseMembers, ih, List.map_cons]

/-- **A field that was found is what the value has under its name.** -/
theorem get_collapse {least : Nat} {found : Option Value} (h : v.memberFrom fields least name = some found)
    (hobj : v.collapse.asArray = none) : v.collapse.get name = found.map Value.collapse := by
  cases v with
  | obj ms =>
      have hfilter : (collapseMembers ms).filter (fun m => m.1 == name)
          = (ms.filter fun m => m.1 == name).map fun kv => (kv.1, kv.2.collapse) := by
        rw [collapseMembers_eq, List.filter_map]
        rfl
      show (collect (collapseMembers ms)).lookup name = _
      rw [lookup_collect_filter, hfilter]
      simp only [Value.memberFrom] at h
      split at h
      · next hnone =>
          cases h
          rw [hnone]
          rfl
      · next m hone =>
          cases h
          rw [hone]
          rfl
      · cases h
  | arr vs => cases hobj
  | _ => cases h

end Collapse

/-! ## Leaves -/

section Leaves
variable {v : Value}

theorem collapse_eq_str {s : String} (h : v.collapse = .str s) : v = .str s := by
  cases v <;> cases h
  rfl

theorem asStr_collapse (v : Value) : v.collapse.asStr = v.asStr := by cases v <;> rfl

theorem asBool_collapse (v : Value) : v.collapse.asBool = v.asBool := by cases v <;> rfl

theorem asUnsigned_collapse (w : Nat) (v : Value) : v.collapse.asUnsigned w = v.asUnsigned w := by cases v <;> rfl

theorem collapse_eq_null : v.collapse = .null ↔ v = .null := by
  cases v <;> simp [Value.collapse]

theorem asStr_eq_some {s : String} : v.asStr = some s ↔ v = .str s := by
  cases v <;> simp [Value.asStr]

end Leaves

/-! ## What was read -/

section Read
variable {α : Type} {read : Value → Option α} {fields : List String} {least : Nat} {name : String} {v : Value}

theorem readRequired_collapse {a : α} (h : readRequired (v.memberFrom fields least name) read = some a)
    (hobj : v.collapse.asArray = none) : ∃ w, v.collapse.get name = some w.collapse ∧ read w = some a := by
  simp only [readRequired, Option.bind_eq_bind, Option.bind_eq_some_iff] at h
  obtain ⟨found, hfound, w, rfl, hread⟩ := h
  exact ⟨w, get_collapse hfound hobj, hread⟩

theorem readRequired_str {s : String} (h : readRequired (v.memberFrom fields least name) Value.asStr = some s)
    (hobj : v.collapse.asArray = none) : v.collapse.get name = some (.str s) := by
  obtain ⟨w, hw, hs⟩ := readRequired_collapse h hobj
  rw [hw, asStr_eq_some.mp hs]
  rfl

theorem readDefaulted_collapse {default a : α}
    (h : readDefaulted (v.memberFrom fields least name) default read = some a) (hobj : v.collapse.asArray = none) :
    v.collapse.get name = none ∧ a = default ∨ ∃ w, v.collapse.get name = some w.collapse ∧ read w = some a := by
  simp only [readDefaulted, Option.bind_eq_bind, Option.bind_eq_some_iff] at h
  obtain ⟨found, hfound, hread⟩ := h
  have hget := get_collapse hfound hobj
  cases found with
  | none => exact Or.inl ⟨hget, (Option.some.inj hread).symm⟩
  | some w => exact Or.inr ⟨w, hget, hread⟩

theorem readDefaulted_bool {b : Bool} (h : readDefaulted (v.memberFrom fields least name) false Value.asBool = some b)
    (hobj : v.collapse.asArray = none) : ((v.collapse.get name).bind Value.asBool).getD false = b := by
  rcases readDefaulted_collapse h hobj with ⟨hnone, rfl⟩ | ⟨w, hw, hb⟩
  · rw [hnone]
    rfl
  · rw [hw, Option.bind_some, asBool_collapse, hb]
    rfl

/-- Nothing there and `null` are the same. -/
theorem readNullable_collapse {o : Option α} (h : readNullable (v.memberFrom fields least name) read = some o)
    (hobj : v.collapse.asArray = none) :
    o = none ∧ (v.collapse.get name).getD .null = .null ∨
      ∃ w a, o = some a ∧ v.collapse.get name = some w.collapse ∧ w ≠ .null ∧ read w = some a := by
  simp only [readNullable, Option.bind_eq_bind, Option.bind_eq_some_iff] at h
  obtain ⟨found, hfound, hread⟩ := h
  have hget := get_collapse hfound hobj
  cases found with
  | none => exact Or.inl ⟨(Option.some.inj hread).symm, by rw [hget]; rfl⟩
  | some w =>
      by_cases hnull : w = .null
      · subst hnull
        exact Or.inl ⟨(Option.some.inj hread).symm, by rw [hget]; rfl⟩
      · obtain ⟨a, ha, rfl⟩ := Option.map_eq_some_iff.mp (show (read w).map some = some o by
          cases w with
          | null => exact absurd rfl hnull
          | _ => exact hread)
        exact Or.inr ⟨w, a, rfl, hget, hnull, ha⟩

theorem readNullable_str {o : Option String}
    (h : readNullable (v.memberFrom fields least name) Value.asStr = some o) (hobj : v.collapse.asArray = none) :
    (v.collapse.get name).bind Value.asStr = o := by
  rcases readNullable_collapse h hobj with ⟨rfl, hnull⟩ | ⟨w, s, rfl, hw, -, hs⟩
  · cases hget : v.collapse.get name with
    | none => rfl
    | some u =>
        rw [hget] at hnull
        rw [Option.bind_some, show u = .null from hnull]
        rfl
  · rw [hw, Option.bind_some, asStr_collapse, hs]

theorem required_collapse {a : α} (h : v.required fields name read = some a) (hobj : v.collapse.asArray = none) :
    ∃ w, v.collapse.get name = some w.collapse ∧ read w = some a :=
  readRequired_collapse (required_eq.symm.trans h) hobj

theorem required_str {s : String} (h : v.required fields name Value.asStr = some s)
    (hobj : v.collapse.asArray = none) : v.collapse.get name = some (.str s) :=
  readRequired_str (required_eq.symm.trans h) hobj

theorem nullable_str {o : Option String} (h : v.nullable fields name Value.asStr = some o)
    (hobj : v.collapse.asArray = none) : (v.collapse.get name).bind Value.asStr = o :=
  readNullable_str (nullable_eq.symm.trans h) hobj

end Read

/-! ## What was written -/

section Renumber
variable {number : String → Option String} {fields : List String} {v w : Value} {ms : List (String × Value)}

theorem renumberMembers_eq (ms : List (String × Value)) :
    renumberMembers number ms = ms.map fun kv => (kv.1, kv.2.renumber number) := by
  induction ms with
  | nil => rfl
  | cons kv ms ih => rw [renumberMembers, ih, List.map_cons]

theorem filter_key (h : (ms.map Prod.fst).Nodup) (key : String) :
    ms.filter (fun m => m.1 == key) = ((ms.lookup key).map fun w => (key, w)).toList := by
  induction ms with
  | nil => rfl
  | cons kv ms ih =>
      obtain ⟨k, v⟩ := kv
      obtain ⟨hnew, hms⟩ := List.nodup_cons.mp h
      by_cases hk : k = key
      · subst hk
        have hnone : ms.filter (fun m => m.1 == k) = [] := by
          rw [List.filter_eq_nil_iff]
          intro m hm heq
          exact hnew (List.mem_map.mpr ⟨m, hm, by simpa using heq⟩)
        rw [List.filter_cons_of_pos (by simp), hnone, List.lookup_cons_self]
        rfl
      · have hne : (key == k) = false := by simpa using fun h => hk h.symm
        rw [List.filter_cons_of_neg (by simpa using hk), ih hms, List.lookup_cons, hne]

/-- A record that was written by name is found by name. -/
theorem memberFrom_renumber {least : Nat} {key : String} (h : v.Distinct) (hobj : v.asArray = none)
    (hget : v.get key = some w) :
    (v.renumber number).memberFrom fields least key = some (some (w.renumber number)) := by
  cases v with
  | obj ms =>
      have hfilter : (renumberMembers number ms).filter (fun m => m.1 == key) = [(key, w.renumber number)] := by
        rw [renumberMembers_eq, List.filter_map]
        show ((ms.filter fun m => m.1 == key).map _) = _
        rw [filter_key h, show ms.lookup key = some w from hget]
        rfl
      show (match (renumberMembers number ms).filter fun m => m.1 == key with
        | []  => some none
        | [m] => some (some m.2)
        | _   => none) = _
      rw [hfilter]
  | _ => cases hget

variable {α β : Type} {read : Value → Option α} {least : Nat} {key : String}

theorem readRequired_renumber (h : v.Distinct) (hobj : v.asArray = none) (hget : v.get key = some w) :
    readRequired ((v.renumber number).memberFrom fields least key) read = read (w.renumber number) := by
  rw [memberFrom_renumber h hobj hget]
  rfl

theorem readDefaulted_renumber (h : v.Distinct) (hobj : v.asArray = none) (hget : v.get key = some w) (default : α) :
    readDefaulted ((v.renumber number).memberFrom fields least key) default read = read (w.renumber number) := by
  rw [memberFrom_renumber h hobj hget]
  rfl

/-- What is never `null` reads as an option. -/
theorem readNullable_renumber {write : β → Value} {f : β → α} {o : Option β} (h : v.Distinct)
    (hobj : v.asArray = none) (hget : v.get key = some (.ofOption write o))
    (hread : ∀ b, read ((write b).renumber number) = some (f b) ∧ (write b).renumber number ≠ .null) :
    readNullable ((v.renumber number).memberFrom fields least key) read = some (o.map f) := by
  rw [memberFrom_renumber h hobj hget]
  cases o with
  | none => rfl
  | some b =>
      obtain ⟨hb, hnull⟩ := hread b
      show readNullable (some (some ((write b).renumber number))) read = _
      generalize (write b).renumber number = u at hb hnull
      cases u with
      | null => exact absurd rfl hnull
      | _ =>
          show Option.map some (read _) = _
          rw [hb]
          rfl

theorem readNullable_renumber_str {o : Option String} (h : v.Distinct) (hobj : v.asArray = none)
    (hget : v.get key = some (.ofOption .str o)) :
    readNullable ((v.renumber number).memberFrom fields least key) Value.asStr = some o := by
  rw [readNullable_renumber (f := id) h hobj hget, Option.map_id_fun, id]
  intro b
  refine ⟨rfl, ?_⟩
  intro hnull
  cases hnull

/-- A record that holds every field. -/
theorem required_renumber (h : v.Distinct) (hobj : v.asArray = none) (hget : v.get key = some w) :
    (v.renumber number).required fields key read = read (w.renumber number) := by
  rw [required_eq]
  exact readRequired_renumber h hobj hget

theorem nullable_renumber_str {o : Option String} (h : v.Distinct) (hobj : v.asArray = none)
    (hget : v.get key = some (.ofOption .str o)) :
    (v.renumber number).nullable fields key Value.asStr = some o := by
  rw [nullable_eq]
  exact readNullable_renumber_str h hobj hget

end Renumber

end Json
