import Outlayer.Lib.JsonRecords

/-!
# `Lib.JsonStrict` — records that refuse what they do not know

A derived reader may be told to refuse unknown fields. What it accepts is then a record and nothing else (`IsRecord`):
an object with every field that is needed, none twice and no other, or an array of all the fields in order. The lemmas
on the way back say when a record that was written is read as it was.
-/

namespace Json

/-- Does an object hold nothing else than the fields? An array holds no names; its length says it. -/
def Value.knows (fields : List String) : Value → Bool
  | .obj ms => ms.all fun m => decide (m.1 ∈ fields)
  | _       => true

/-- Every field that is needed, none twice, and no other. -/
def Value.IsRecord (fields needed : List String) : Value → Prop
  | .obj ms =>
      (ms.map Prod.fst).Nodup ∧ (∀ name ∈ needed, name ∈ ms.map Prod.fst) ∧ ∀ name ∈ ms.map Prod.fst, name ∈ fields
  | .arr vs => vs.length = fields.length
  | _       => False

/-- A variant without fields, by its name. -/
def Value.unitVariant {α : Type} (variants : List (String × α)) (v : Value) : Option α := do
  let (name, body) ← v.variant
  let a ← variants.lookup name
  if body.isUnit then some a else none

section Accepted
variable {α : Type} {fields needed : List String} {name : String} {v : Value} {read : Value → Option α}

theorem required_eq_some {a : α} :
    v.required fields name read = some a ↔ ∃ w, v.member fields name = some (some w) ∧ read w = some a := by
  simp only [Value.required, Option.bind_eq_bind, Option.bind_eq_some_iff]
  constructor
  · rintro ⟨found, hfound, w, rfl, hread⟩
    exact ⟨w, hfound, hread⟩
  · rintro ⟨w, hfound, hread⟩
    exact ⟨some w, hfound, w, rfl, hread⟩

theorem nullable_eq_some {o : Option α} (h : v.nullable fields name read = some o) :
    ∃ found, v.member fields name = some found ∧
      (o = none ∧ (found = none ∨ found = some .null) ∨ ∃ w a, found = some w ∧ read w = some a ∧ o = some a) := by
  simp only [Value.nullable, Option.bind_eq_bind, Option.bind_eq_some_iff] at h
  obtain ⟨found, hfound, hread⟩ := h
  refine ⟨found, hfound, ?_⟩
  cases found with
  | none => exact .inl ⟨(Option.some.inj hread).symm, .inl rfl⟩
  | some w =>
      by_cases hnull : w = .null
      · subst hnull
        exact .inl ⟨(Option.some.inj hread).symm, .inr rfl⟩
      · have hmap : (read w).map some = some o := by
          cases w with
          | null => exact absurd rfl hnull
          | _    => exact hread
        obtain ⟨a, ha, rfl⟩ := Option.map_eq_some_iff.mp hmap
        exact .inr ⟨w, a, rfl, ha, rfl⟩

/-- Fields that are each found, at most once, and those that are needed once: a record. -/
theorem isRecord_of_members (hknows : v.knows fields = true)
    (hfound : ∀ name ∈ fields, (v.member fields name).isSome = true) (hne : fields ≠ [])
    (hneeded : ∀ name ∈ needed, ∃ w, v.member fields name = some (some w)) : v.IsRecord fields needed := by
  cases v with
  | obj ms =>
      have hfields : ∀ name ∈ ms.map Prod.fst, name ∈ fields := by
        intro name hname
        obtain ⟨m, hm, rfl⟩ := List.mem_map.mp hname
        exact of_decide_eq_true (List.all_eq_true.mp hknows m hm)
      refine ⟨List.nodup_iff_count.mpr fun name => ?_, fun name hname => ?_, hfields⟩
      · by_cases hname : name ∈ ms.map Prod.fst
        · have hsome := hfound name (hfields name hname)
          have hcount : (ms.map Prod.fst).count name = (ms.filter fun m => m.1 == name).length := by
            rw [List.count, List.countP_map, List.countP_eq_length_filter]
            rfl
          rw [hcount]
          simp only [Value.member] at hsome
          split at hsome
          · next hnil => simp [hnil]
          · next m hone => simp [hone]
          · cases hsome
        · rw [List.count_eq_zero.mpr hname]
          exact Nat.zero_le 1
      · obtain ⟨w, hw⟩ := hneeded name hname
        simp only [Value.member] at hw
        split at hw
        · cases hw
        · next m hone =>
            have hm : m ∈ ms.filter fun m => m.1 == name := by
              rw [hone]
              exact List.mem_singleton_self m
            obtain ⟨hm, hkey⟩ := List.mem_filter.mp hm
            exact List.mem_map.mpr ⟨m, hm, by simpa using hkey⟩
        · cases hw
  | arr vs =>
      obtain ⟨name, hname⟩ := List.exists_mem_of_ne_nil fields hne
      have hsome := hfound name hname
      simp only [Value.member] at hsome
      split at hsome
      · next hlen => exact hlen
      · cases hsome
  | _ =>
      obtain ⟨name, hname⟩ := List.exists_mem_of_ne_nil fields hne
      cases hfound name hname

theorem asList_eq_some {as : List α} (h : v.asList read = some as) :
    ∃ vs, v = .arr vs ∧ ∀ w ∈ vs, ∃ a, read w = some a := by
  simp only [Value.asList, Option.bind_eq_some_iff] at h
  obtain ⟨vs, hvs, hread⟩ := h
  cases v with
  | arr ws =>
      obtain rfl : ws = vs := Option.some.inj hvs
      refine ⟨ws, rfl, ?_⟩
      clear hvs
      induction ws generalizing as with
      | nil => exact fun w hw => absurd hw List.not_mem_nil
      | cons w ws ih =>
          simp only [readAll, Option.bind_eq_bind, Option.bind_eq_some_iff, Option.pure_def] at hread
          obtain ⟨a, ha, as', has, -⟩ := hread
          exact List.forall_mem_cons.mpr ⟨⟨a, ha⟩, ih has⟩
  | _ => cases hvs

end Accepted

section Renumber
variable {number : String → Option String} {fields : List String} {v : Value} {key : String}

theorem knows_renumber : (v.renumber number).knows fields = v.knows fields := by
  cases v with
  | obj ms =>
      show (renumberMembers number ms).all _ = ms.all _
      rw [renumberMembers_eq, List.all_map]
      rfl
  | _ => rfl

/-- What is not written is not there. -/
theorem nullable_renumber_absent {α : Type} {read : Value → Option α} {ms : List (String × Value)}
    (h : (Value.obj ms).get key = none) : ((Value.obj ms).renumber number).nullable fields key read = some none := by
  have hnone : (renumberMembers number ms).filter (fun m => m.1 == key) = [] := by
    rw [renumberMembers_eq, List.filter_map, List.map_eq_nil_iff, List.filter_eq_nil_iff]
    intro m hm heq
    have hkey : m.1 = key := by simpa using heq
    have hne := List.lookup_eq_none_iff.mp h m hm
    rw [hkey] at hne
    simp at hne
  have hmember : ((Value.obj ms).renumber number).member fields key = some none := by
    simp only [Value.renumber, Value.member, hnone]
  rw [Value.nullable, hmember]
  rfl

/-- What is written and is not `null`. -/
theorem nullable_renumber_some {α : Type} {read : Value → Option α} {w : Value} {a : α} (h : v.Distinct)
    (hobj : v.asArray = none) (hget : v.get key = some w) (hread : read (w.renumber number) = some a)
    (hnull : w.renumber number ≠ .null) : (v.renumber number).nullable fields key read = some (some a) := by
  -- a value that is always written is written for `()`
  have hunit : v.get key = some (Value.ofOption (fun _ : Unit => w) (some ())) := hget
  rw [nullable_eq, readNullable_renumber (f := fun _ => a) h hobj hunit fun _ => ⟨hread, hnull⟩]
  rfl

theorem asList_renumber {α : Type} {read : Value → Option α} {write : α → Value} (as : List α)
    (h : ∀ a ∈ as, read ((write a).renumber number) = some a) :
    ((Value.arr (as.map write)).renumber number).asList read = some as := by
  show readAll read (renumberElements number (as.map write)) = some as
  induction as with
  | nil => rfl
  | cons a as ih =>
      obtain ⟨ha, has⟩ := List.forall_mem_cons.mp h
      rw [List.map_cons, renumberElements, readAll, ha, ih has]
      rfl

end Renumber
end Json
