import Outlayer.Lib.TextParts
import Outlayer.Lib.JsonReread

/-!
# `Lib.JsonFields` — typed data in JSON values

Reading a record off an object, member by member: a member that has to be there (`field`), one that may be absent or
`null` (`optional`), and one with a default (`defaulted`). Whole numbers are written in decimal; a reader of JSON keeps
those of 64 bits as they are and larger ones as floating-point numbers (`WholeNumbers`), which no integer type accepts.

Values can be compared (`Value.beq_iff`), and a compact text holds no control character (`compact_printed`).
-/

namespace Json
open Text

/-! ## Reading -/

/-- A boolean. -/
def Value.asBool : Value → Option Bool
  | .bool b => some b
  | _       => none

/-- An unsigned integer of `w` bits. -/
def Value.asUnsigned (w : Nat) : Value → Option Nat
  | .num text => parseUnsigned w text
  | _         => none

/-- A number below 256. -/
def Value.asByte (v : Value) : Option UInt8 := (v.asUnsigned 8).map UInt8.ofNat

/-- Read every element. -/
def readAll {α : Type} (read : Value → Option α) : List Value → Option (List α)
  | []      => some []
  | v :: vs => do
      let a ← read v
      let as ← readAll read vs
      pure (a :: as)

/-- An array whose elements all read. -/
def Value.asList {α : Type} (read : Value → Option α) (v : Value) : Option (List α) := v.asArray.bind (readAll read)

/-- A member that has to be there. -/
def Value.field {α : Type} (v : Value) (key : String) (read : Value → Option α) : Option α :=
  (v.get key).bind read

/-- A member that may be absent or `null`. -/
def Value.optional {α : Type} (v : Value) (key : String) (read : Value → Option α) : Option (Option α) :=
  match v.get key with
  | none       => some none
  | some .null => some none
  | some w     => (read w).map some

/-! ## Writing -/

/-- A number. -/
def Value.ofNat (n : Nat) : Value := .num (toString n)

/-- Nothing is written as `null`. -/
def Value.ofOption {α : Type} (write : α → Value) : Option α → Value
  | none   => .null
  | some a => write a

/-- Bytes, as an array of numbers. -/
def Value.ofBytes (bs : List UInt8) : Value := .arr (bs.map fun b => .ofNat b.toNat)

/-! ## Equality -/

mutual

/-- Equality of values, decided by structure. -/
def Value.beq : Value → Value → Bool
  | .null, .null     => true
  | .bool a, .bool b => a == b
  | .num a, .num b   => a == b
  | .str a, .str b   => a == b
  | .arr a, .arr b   => beqElements a b
  | .obj a, .obj b   => beqMembers a b
  | _, _             => false

/-- Equality of lists of elements. -/
def beqElements : List Value → List Value → Bool
  | [], []           => true
  | a :: as, b :: bs => a.beq b && beqElements as bs
  | _, _             => false

/-- Equality of lists of members. -/
def beqMembers : List (String × Value) → List (String × Value) → Bool
  | [], []                     => true
  | (k, a) :: as, (l, b) :: bs => k == l && a.beq b && beqMembers as bs
  | _, _                       => false

end

mutual

theorem Value.beq_iff : ∀ a b : Value, a.beq b = true ↔ a = b
  | .null, b   => by cases b <;> simp [Value.beq]
  | .bool _, b => by cases b <;> simp [Value.beq]
  | .num _, b  => by cases b <;> simp [Value.beq]
  | .str _, b  => by cases b <;> simp [Value.beq]
  | .arr as, b => by
      cases b with
      | arr bs => simp [Value.beq, beqElements_iff as bs]
      | _ => simp [Value.beq]
  | .obj as, b => by
      cases b with
      | obj bs => simp [Value.beq, beqMembers_iff as bs]
      | _ => simp [Value.beq]

theorem beqElements_iff : ∀ as bs : List Value, beqElements as bs = true ↔ as = bs
  | [], bs      => by cases bs <;> simp [beqElements]
  | a :: as, bs => by
      cases bs with
      | nil => simp [beqElements]
      | cons b bs => simp [beqElements, Value.beq_iff a b, beqElements_iff as bs]

theorem beqMembers_iff : ∀ as bs : List (String × Value), beqMembers as bs = true ↔ as = bs
  | [], bs           => by cases bs <;> simp [beqMembers]
  | (k, a) :: as, bs => by
      cases bs with
      | nil => simp [beqMembers]
      | cons b bs => simp [beqMembers, Value.beq_iff a b.2, beqMembers_iff as bs, Prod.ext_iff]

end

instance : DecidableEq Value := fun a b => decidable_of_iff _ (Value.beq_iff a b)

/-! ## Whole numbers -/

/-- How a reader of JSON keeps whole numbers: those of 64 bits as they are written, larger ones as floating-point
    numbers, whose texts no integer type accepts. -/
structure WholeNumbers (number : String → Option String) : Prop where
  kept : ∀ n, n < 2 ^ 64 → number (toString n) = some (toString n)
  float : ∀ n, 2 ^ 64 ≤ n → n < 2 ^ 128 → ∃ text, number (toString n) = some text ∧ parseUnsigned 64 text = none

/-- A reader that keeps every number as it is written. -/
theorem wholeNumbers_some : WholeNumbers some where
  kept _ _ := rfl
  float n hn _ := ⟨toString n, rfl, parseUnsigned_toString_of_le hn⟩

/-- A number written in decimal is one number. -/
theorem readNumber_toString (n : Nat) : readNumber (toString n).toList = some ((toString n).toList, []) := by
  have hdigits : ∀ c ∈ Nat.toDigits 10 n, c.isDigit = true :=
    fun c hc => Nat.isDigit_of_mem_toDigits (by decide) (by decide) hc
  have hlist : (toString n).toList = Nat.toDigits 10 n := Nat.toList_repr
  rw [hlist]
  obtain ⟨d, ds, hds⟩ : ∃ d ds, Nat.toDigits 10 n = d :: ds := List.exists_cons_of_ne_nil Nat.toDigits_ne_nil
  have hzero : ¬ (d = '0' ∧ 0 < ds.length) := by
    rintro ⟨rfl, hpos⟩
    rcases Nat.eq_zero_or_pos n with rfl | hn
    · rw [show Nat.toDigits 10 0 = ['0'] by decide] at hds
      cases hds
      exact absurd hpos (by decide)
    · exact Decimal.toDigits_head n hn (by rw [hds]; rfl)
  have hsign : readSign (d :: ds) = ([], d :: ds) := by
    unfold readSign
    split
    · next heq =>
        have hd := hdigits d (by rw [hds]; exact List.mem_cons_self)
        rw [(List.cons.inj heq).1] at hd
        exact absurd hd (by decide)
    · rfl
  have htake : (d :: ds).takeWhile Char.isDigit = d :: ds := by
    rw [List.takeWhile_eq_self_iff, ← hds]
    exact hdigits
  have hdrop : (d :: ds).dropWhile Char.isDigit = [] := by
    rw [List.dropWhile_eq_nil_iff, ← hds]
    exact hdigits
  rw [hds]
  simp [readNumber, hsign, readInteger, readDigits, htake, hdrop, hzero, readFraction, readExponent]

theorem numberText_toString {number : String → Option String} {n : Nat} (h : (number (toString n)).isSome = true) :
    NumberText number (toString n) := ⟨readNumber_toString n, h⟩

section Whole
variable {number : String → Option String} (whole : WholeNumbers number) {n : Nat}
include whole

theorem WholeNumbers.isSome (hn : n < 2 ^ 128) : (number (toString n)).isSome = true := by
  rcases Nat.lt_or_ge n (2 ^ 64) with h | h
  · rw [whole.kept n h]
    rfl
  · obtain ⟨text, ht, -⟩ := whole.float n h hn
    rw [ht]
    rfl

theorem WholeNumbers.good (hn : n < 2 ^ 128) (depth : Nat) : (Value.ofNat n).Good number depth :=
  numberText_toString (whole.isSome hn)

theorem WholeNumbers.reread (hn : n < 2 ^ 64) : (Value.ofNat n).reread number = .ofNat n := by
  show Value.num ((number (toString n)).getD (toString n)) = _
  rw [whole.kept n hn]
  rfl

/-- **A whole number is read as an integer of `w` bits when it fits**, up to 64 bits. -/
theorem WholeNumbers.asUnsigned {w : Nat} (hw : w ≤ 64) (hn : n < 2 ^ w) :
    ((Value.ofNat n).reread number).asUnsigned w = some n := by
  rw [whole.reread (lt_of_lt_of_le hn (Nat.pow_le_pow_right (by decide) hw))]
  exact parseUnsigned_toString hn

/-- A larger one is not read as an integer at all. -/
theorem WholeNumbers.asUnsigned_large (h : 2 ^ 64 ≤ n) (hn : n < 2 ^ 128) :
    ((Value.ofNat n).reread number).asUnsigned 64 = none := by
  obtain ⟨text, ht, hnone⟩ := whole.float n h hn
  show parseUnsigned 64 ((number (toString n)).getD (toString n)) = none
  rw [ht]
  exact hnone

/-- Bytes written as an array of numbers are read back. -/
theorem WholeNumbers.asBytes (bs : List UInt8) :
    ((Value.ofBytes bs).reread number).asList Value.asByte = some bs := by
  show readAll Value.asByte (rereadElements number (bs.map fun b => .ofNat b.toNat)) = some bs
  induction bs with
  | nil => rfl
  | cons b bs ih =>
      have hb : ((Value.ofNat b.toNat).reread number).asByte = some b := by
        rw [Value.asByte, whole.asUnsigned (by decide) b.toNat_lt, Option.map_some, UInt8.ofNat_toNat]
      rw [List.map_cons, rereadElements, readAll, hb, ih]
      rfl

theorem WholeNumbers.good_bytes (bs : List UInt8) {depth : Nat} (hd : 1 < depth) :
    (Value.ofBytes bs).Good number depth := by
  refine ⟨hd, goodElements_iff.mpr ?_⟩
  intro v hv
  obtain ⟨b, -, rfl⟩ := List.mem_map.mp hv
  exact whole.good (lt_of_lt_of_le b.toNat_lt (by decide)) _

end Whole

/-- A text with a character that is neither a digit nor a sign is no whole number. -/
theorem parseUnsigned_of_mem {w : Nat} {s : String} {c : Char} (hc : c ∈ s.toList) (hdigit : c.isDigit = false)
    (hsign : c ≠ '+') : parseUnsigned w s = none := by
  rw [Option.eq_none_iff_forall_ne_some]
  intro n h
  simp only [parseUnsigned, Option.ite_none_right_eq_some] at h
  obtain ⟨⟨-, hall, -⟩, -⟩ := h
  have hall := List.all_eq_true.mp hall
  have hno : c.isDigit = true := by
    split at hall
    · next ds heq =>
        rw [heq] at hc
        exact hall c ((List.mem_cons.mp hc).resolve_left hsign)
    · exact hall c hc
  rw [hdigit] at hno
  cases hno

/-! ## Members of a value that is read again -/

/-- An object whose keys are given. -/
theorem distinct_of_keys {ms : List (String × Value)} (keys : List String) (h : ms.map Prod.fst = keys)
    (hkeys : keys.Nodup) : (Value.obj ms).Distinct := by
  show (ms.map Prod.fst).Nodup
  rw [h]
  exact hkeys

section Reread
variable {number : String → Option String} {α β : Type} {read : Value → Option α} {v w : Value} {key : String}

theorem field_reread (h : v.Distinct) (hget : v.get key = some w) :
    (v.reread number).field key read = read (w.reread number) := by
  rw [Value.field, get_reread h, hget]
  rfl

/-- What is never `null` reads as an option. -/
theorem optional_reread {write : β → Value} {f : β → α} {o : Option β} (h : v.Distinct)
    (hget : v.get key = some (.ofOption write o))
    (hread : ∀ b, read ((write b).reread number) = some (f b) ∧ (write b).reread number ≠ .null) :
    (v.reread number).optional key read = some (o.map f) := by
  rw [Value.optional, get_reread h, hget]
  cases o with
  | none => rfl
  | some b =>
      obtain ⟨hb, hnull⟩ := hread b
      dsimp only [Option.map_some, Value.ofOption]
      generalize (write b).reread number = u at hb hnull
      cases u with
      | null => exact absurd rfl hnull
      | _ =>
          dsimp only
          rw [hb]
          rfl

theorem optional_reread_str {o : Option String} (h : v.Distinct) (hget : v.get key = some (.ofOption .str o)) :
    (v.reread number).optional key Value.asStr = some o := by
  rw [optional_reread (f := id) h hget, Option.map_id_fun, id]
  intro b
  refine ⟨rfl, ?_⟩
  intro hnull
  cases hnull

end Reread

/-! ## No line breaks -/

private theorem printed_digit {c : Char} (h : c.isDigit = true) : 0x20 ≤ c.toNat := by
  simp only [Char.isDigit, Bool.and_eq_true, decide_eq_true_eq] at h
  have := h.1
  have h48 : (48 : UInt32).toNat ≤ c.val.toNat := UInt32.le_iff_toNat_le.mp h.1
  have : (48 : UInt32).toNat = 48 := rfl
  simp only [Char.toNat]
  omega

private theorem readDigits_printed {cs ds r : List Char} (h : readDigits cs = some (ds, r)) :
    ∀ c ∈ ds, 0x20 ≤ c.toNat := by
  unfold readDigits at h
  split at h
  · cases h
  · cases h
    exact fun c hc => printed_digit (List.mem_takeWhile_imp hc)

private theorem readFraction_printed {cs ds r : List Char} (h : readFraction cs = some (ds, r)) :
    ∀ c ∈ ds, 0x20 ≤ c.toNat := by
  unfold readFraction at h
  split at h
  · obtain ⟨⟨ds', r'⟩, hd, heq⟩ := Option.map_eq_some_iff.mp h
    obtain ⟨rfl, rfl⟩ := Prod.mk.inj heq
    exact List.forall_mem_cons.mpr ⟨by decide, readDigits_printed hd⟩
  · cases h
    exact fun c hc => absurd hc List.not_mem_nil

private theorem readExponent_printed {cs ds r : List Char} (h : readExponent cs = some (ds, r)) :
    ∀ c ∈ ds, 0x20 ≤ c.toNat := by
  unfold readExponent at h
  split at h
  · next e rest =>
      split at h
      · next he =>
          have hhead : 0x20 ≤ e.toNat := by
            rcases he with rfl | rfl <;> decide
          split at h
          · obtain ⟨⟨ds', r'⟩, hd, heq⟩ := Option.map_eq_some_iff.mp h
            obtain ⟨rfl, rfl⟩ := Prod.mk.inj heq
            exact List.forall_mem_cons.mpr ⟨hhead, List.forall_mem_cons.mpr ⟨by decide, readDigits_printed hd⟩⟩
          · obtain ⟨⟨ds', r'⟩, hd, heq⟩ := Option.map_eq_some_iff.mp h
            obtain ⟨rfl, rfl⟩ := Prod.mk.inj heq
            exact List.forall_mem_cons.mpr ⟨hhead, List.forall_mem_cons.mpr ⟨by decide, readDigits_printed hd⟩⟩
          · obtain ⟨⟨ds', r'⟩, hd, heq⟩ := Option.map_eq_some_iff.mp h
            obtain ⟨rfl, rfl⟩ := Prod.mk.inj heq
            exact List.forall_mem_cons.mpr ⟨hhead, readDigits_printed hd⟩
      · cases h
        exact fun c hc => absurd hc List.not_mem_nil
  · cases h
    exact fun c hc => absurd hc List.not_mem_nil

private theorem numberText_printed {number : String → Option String} {text : String} (h : NumberText number text) :
    ∀ c ∈ text.toList, 0x20 ≤ c.toNat := by
  have hread := h.1
  simp only [readNumber, readInteger, Option.bind_eq_bind, Option.bind_eq_some_iff, Option.pure_def, Option.some.injEq,
    Prod.mk.injEq] at hread
  obtain ⟨⟨int, r₁⟩, ⟨⟨ds, r⟩, hd, hint⟩, ⟨frac, r₂⟩, h2, ⟨exp, r₃⟩, h3, heq, -⟩ := hread
  have hint' : int = ds := by
    dsimp only at hint
    split at hint
    · cases hint
    · cases hint
      rfl
  have hsign : ∀ c ∈ (readSign text.toList).1, 0x20 ≤ c.toNat := by
    unfold readSign
    split
    · exact List.forall_mem_singleton.mpr (by decide)
    · exact fun c hc => absurd hc List.not_mem_nil
  intro c hc
  rw [← heq] at hc
  simp only [List.mem_append] at hc
  rcases hc with ((hc | hc) | hc) | hc
  · exact hsign c hc
  · exact readDigits_printed hd c (hint' ▸ hc)
  · exact readFraction_printed h2 c hc
  · exact readExponent_printed h3 c hc

private theorem escapeChar_printed (c : Char) : ∀ d ∈ escapeChar c, 0x20 ≤ d.toNat := by
  rcases escapeChar_cases c with ⟨e, hc, he⟩ | ⟨hc, hlt⟩ | ⟨hc, -, hraw⟩
  · have hall : ∀ p ∈ simpleEscapes, 0x20 ≤ p.1.toNat := by decide
    rw [hc]
    exact List.forall_mem_cons.mpr ⟨by decide, List.forall_mem_singleton.mpr (hall _ (mem_simpleEscapes he))⟩
  · have hdigit : ∀ d, d < 16 → 0x20 ≤ (Nat.digitChar d).toNat := by decide
    have hhi := hdigit (c.toNat / 16) (by omega)
    have hlo := hdigit (c.toNat % 16) (by omega)
    rw [hc]
    intro d hd
    simp only [List.mem_cons, List.not_mem_nil, or_false] at hd
    rcases hd with rfl | rfl | rfl | rfl | rfl | rfl
    · decide
    · decide
    · decide
    · decide
    · exact hhi
    · exact hlo
  · rw [hc]
    exact List.forall_mem_singleton.mpr (not_lt.mp (not_or.mp hraw).2)

private theorem quote_printed (s : String) : ∀ c ∈ (quote s).toList, 0x20 ≤ c.toNat := by
  intro c hc
  rw [quote, String.toList_ofList, List.mem_cons, List.mem_append, List.mem_singleton] at hc
  rcases hc with rfl | hc | rfl
  · decide
  · obtain ⟨d, -, hd⟩ := List.mem_flatMap.mp hc
    exact escapeChar_printed d c hd
  · decide

section Printed
variable {number : String → Option String}

private theorem printed_of_all {s : String} (h : (s.toList.all fun c => decide (0x20 ≤ c.toNat)) = true) :
    ∀ c ∈ s.toList, 0x20 ≤ c.toNat := by
  intro c hc
  exact of_decide_eq_true (List.all_eq_true.mp h c hc)

private theorem printed_append {s t : String} (hs : ∀ c ∈ s.toList, 0x20 ≤ c.toNat)
    (ht : ∀ c ∈ t.toList, 0x20 ≤ c.toNat) : ∀ c ∈ (s ++ t).toList, 0x20 ≤ c.toNat := by
  intro c hc
  rw [String.toList_append, List.mem_append] at hc
  exact hc.elim (hs c) (ht c)

mutual

/-- What is written compactly holds no control characters. -/
theorem compact_printed : ∀ {depth : Nat} (v : Value), v.Good number depth → ∀ c ∈ v.compact.toList, 0x20 ≤ c.toNat
  | _, .null, _       => printed_of_all (by decide)
  | _, .bool true, _  => printed_of_all (by decide)
  | _, .bool false, _ => printed_of_all (by decide)
  | _, .num _, h      => numberText_printed h
  | _, .str s, _      => quote_printed s
  | _, .arr vs, h     =>
      printed_append (printed_append (printed_of_all (by decide)) (compactElements_printed vs h.2))
        (printed_of_all (by decide))
  | _, .obj ms, h     =>
      printed_append (printed_append (printed_of_all (by decide)) (compactMembers_printed ms h.2))
        (printed_of_all (by decide))

theorem compactElements_printed : ∀ {depth : Nat} (vs : List Value), GoodElements number depth vs →
    ∀ c ∈ (compactElements vs).toList, 0x20 ≤ c.toNat
  | _, [], _            => printed_of_all (by decide)
  | _, [v], h           => compact_printed v h.1
  | _, v :: v' :: vs, h =>
      printed_append (printed_append (compact_printed v h.1) (printed_of_all (by decide)))
        (compactElements_printed (v' :: vs) h.2)

theorem compactMembers_printed : ∀ {depth : Nat} (ms : List (String × Value)), GoodMembers number depth ms →
    ∀ c ∈ (compactMembers ms).toList, 0x20 ≤ c.toNat
  | _, [], _                => printed_of_all (by decide)
  | _, [(k, v)], h          =>
      printed_append (printed_append (quote_printed k) (printed_of_all (by decide))) (compact_printed v h.1)
  | _, (k, v) :: kv :: ms, h =>
      printed_append (printed_append (printed_append (printed_append (quote_printed k) (printed_of_all (by decide)))
        (compact_printed v h.1)) (printed_of_all (by decide))) (compactMembers_printed (kv :: ms) h.2)

end

end Printed

/-! ## Enumerations -/

/-- The variant a value names, and what it holds. -/
def Value.variant : Value → Option (String × Value)
  | .str name           => some (name, .null)
  | .obj [(name, body)] => some (name, body)
  | _                   => none

/-- A variant without fields: what it holds is nothing. -/
def Value.isUnit : Value → Bool
  | .null => true
  | _     => false

/-- A member of the record with the given fields, if it stands there. -/
def Value.member (fields : List String) (name : String) : Value → Option (Option Value)
  | .obj ms =>
      match ms.filter fun m => m.1 == name with
      | []  => some none
      | [m] => some (some m.2)
      | _   => none
  | .arr vs => if vs.length = fields.length then some vs[fields.idxOf name]? else none
  | _ => none

/-- A field that has to be there. -/
def Value.required {α : Type} (v : Value) (fields : List String) (name : String) (read : Value → Option α) :
    Option α := do
  let found ← v.member fields name
  let w ← found
  read w

/-- A field that may be absent or `null`. -/
def Value.nullable {α : Type} (v : Value) (fields : List String) (name : String) (read : Value → Option α) :
    Option (Option α) := do
  let found ← v.member fields name
  match found with
  | none       => some none
  | some .null => some none
  | some w     => (read w).map some

section Fields
variable {α β : Type} {v : Value} {fields : List String} {name : String}

/-- What is read by two readers at one field is one value, read twice. -/
theorem required_both {read : Value → Option α} {read' : Value → Option β} {a : α} {b : β}
    (h : v.required fields name read = some a) (h' : v.required fields name read' = some b) :
    ∃ w, read w = some a ∧ read' w = some b := by
  simp only [Value.required, Option.bind_eq_bind, Option.bind_eq_some_iff] at h h'
  obtain ⟨found, hfound, w, hw, hread⟩ := h
  obtain ⟨found', hfound', w', hw', hread'⟩ := h'
  obtain rfl : found = found' := Option.some.inj (hfound.symm.trans hfound')
  obtain rfl : w = w' := Option.some.inj (hw.symm.trans hw')
  exact ⟨w, hread, hread'⟩

/-- A field read once is read alike every time. -/
theorem required_unique {read : Value → Option α} {a b : α} (h : v.required fields name read = some a)
    (h' : v.required fields name read = some b) : a = b := Option.some.inj (h.symm.trans h')

/-- Elements read by two readers correspond. -/
theorem asList_both {read : Value → Option α} {read' : Value → Option β} {R : α → β → Prop}
    (hR : ∀ w a b, read w = some a → read' w = some b → R a b) {as : List α} {bs : List β}
    (h : v.asList read = some as) (h' : v.asList read' = some bs) : List.Forall₂ R as bs := by
  simp only [Value.asList, Option.bind_eq_some_iff] at h h'
  obtain ⟨vs, hvs, hread⟩ := h
  obtain ⟨vs', hvs', hread'⟩ := h'
  obtain rfl : vs = vs' := Option.some.inj (hvs.symm.trans hvs')
  clear hvs hvs'
  induction vs generalizing as bs with
  | nil =>
      cases hread
      cases hread'
      exact .nil
  | cons w ws ih =>
      simp only [readAll, Option.bind_eq_bind, Option.bind_eq_some_iff, Option.pure_def, Option.some.injEq]
        at hread hread'
      obtain ⟨a, ha, as', has, rfl⟩ := hread
      obtain ⟨b, hb, bs', hbs, rfl⟩ := hread'
      exact .cons (hR w a b ha hb) (ih has hbs)

end Fields

end Json
