import Outlayer.Lib.JsonTree
import Mathlib.Data.String.Basic

/-!
# `Lib.JsonReread` — the compact text of a value, read again

A value is written compactly and read again as the same value, its numbers as the reader keeps them and the members of
its objects in order: `parse_compact`. What it takes is `Good`: the nesting is within the recursion limit, and every
number text is one the reader accepts. Everything read is good (`good_of_parse`) as soon as the reader accepts the
number texts it keeps. A member is found again under its key when no other member of the object has that key
(`get_reread`); an object that was read has its members in order, so none does.
-/

namespace Json

/-! ## Numbers -/

/-- What may follow a number: the end of the text, a comma, or a closing bracket or brace. -/
def Ends : List Char → Prop
  | []     => True
  | c :: _ => c = ',' ∨ c = ']' ∨ c = '}'

/-- A text that is one number, and that the reader accepts. -/
def NumberText (number : String → Option String) (text : String) : Prop :=
  readNumber text.toList = some (text.toList, []) ∧ (number text).isSome = true

/-- The reader accepts the number texts it keeps. -/
def KeepsNumbers (number : String → Option String) : Prop :=
  ∀ lexeme text, number lexeme = some text → NumberText number text

/-- The reader that keeps every number as it is written. -/
def verbatim (text : String) : Option String :=
  if readNumber text.toList = some (text.toList, []) then some text else none

theorem keepsNumbers_verbatim : KeepsNumbers verbatim := by
  intro lexeme text h
  unfold verbatim at h
  split at h
  · next hread =>
      cases h
      exact ⟨hread, by rw [verbatim, if_pos hread]; rfl⟩
  · cases h

section Numbers
variable {rest : List Char}

theorem Ends.not_digit (h : Ends rest) : ∀ c, rest.head? = some c → c.isDigit = false := by
  intro c hc
  cases rest with
  | nil => cases hc
  | cons d rest =>
      obtain rfl := Option.some.inj hc
      rcases h with rfl | rfl | rfl <;> decide

private theorem takeWhile_of_ends (h : Ends rest) : rest.takeWhile Char.isDigit = [] := by
  cases rest with
  | nil => rfl
  | cons c rest => rw [List.takeWhile_cons_of_neg (by simp [h.not_digit c rfl])]

private theorem dropWhile_of_ends (h : Ends rest) : rest.dropWhile Char.isDigit = rest := by
  cases rest with
  | nil => rfl
  | cons c rest => rw [List.dropWhile_cons_of_neg (by simp [h.not_digit c rfl])]

private theorem takeWhile_append_of_ends (h : Ends rest) (cs : List Char) :
    (cs ++ rest).takeWhile Char.isDigit = cs.takeWhile Char.isDigit := by
  induction cs with
  | nil => exact takeWhile_of_ends h
  | cons c cs ih =>
      rw [List.cons_append, List.takeWhile_cons, List.takeWhile_cons, ih]

private theorem dropWhile_append_of_ends (h : Ends rest) (cs : List Char) :
    (cs ++ rest).dropWhile Char.isDigit = cs.dropWhile Char.isDigit ++ rest := by
  induction cs with
  | nil => exact dropWhile_of_ends h
  | cons c cs ih =>
      rw [List.cons_append, List.dropWhile_cons, List.dropWhile_cons, ih]
      split <;> rfl

private theorem readDigits_append (h : Ends rest) {cs ds r : List Char} (hr : readDigits cs = some (ds, r)) :
    readDigits (cs ++ rest) = some (ds, r ++ rest) := by
  unfold readDigits at hr ⊢
  rw [takeWhile_append_of_ends h, dropWhile_append_of_ends h]
  cases hds : cs.takeWhile Char.isDigit with
  | nil =>
      rw [hds] at hr
      cases hr
  | cons d ds' =>
      rw [hds] at hr
      cases hr
      rfl

private theorem readInteger_append (h : Ends rest) {cs ds r : List Char} (hr : readInteger cs = some (ds, r)) :
    readInteger (cs ++ rest) = some (ds, r ++ rest) := by
  simp only [readInteger, Option.bind_eq_bind, Option.bind_eq_some_iff] at hr ⊢
  obtain ⟨⟨ds', r'⟩, hd, hr⟩ := hr
  refine ⟨(ds', r' ++ rest), readDigits_append h hd, ?_⟩
  dsimp only at hr ⊢
  split at hr
  · cases hr
  · next hz =>
      cases hr
      rw [if_neg hz]
      rfl

private theorem readFraction_append (h : Ends rest) {cs ds r : List Char} (hr : readFraction cs = some (ds, r)) :
    readFraction (cs ++ rest) = some (ds, r ++ rest) := by
  unfold readFraction at hr
  split at hr
  · next cs' =>
      obtain ⟨⟨ds', r'⟩, hd, heq⟩ := Option.map_eq_some_iff.mp hr
      obtain ⟨rfl, rfl⟩ := Prod.mk.inj heq
      simp only [readFraction, List.cons_append, readDigits_append h hd, Option.map_some]
  · next hdot =>
      cases hr
      unfold readFraction
      split
      · next cs' heq =>
          -- a point after the number would be in what follows it
          cases cs with
          | nil =>
              rw [List.nil_append] at heq
              subst heq
              rcases h with h | h | h <;> cases h
          | cons c cs => exact absurd (by rw [(List.cons.inj heq).1]) (hdot cs)
      · rfl

private theorem readExponent_append (h : Ends rest) {cs ds r : List Char} (hr : readExponent cs = some (ds, r)) :
    readExponent (cs ++ rest) = some (ds, r ++ rest) := by
  cases cs with
  | nil =>
      cases hr
      cases rest with
      | nil => rfl
      | cons c rest =>
          have hne : ¬ (c = 'e' ∨ c = 'E') := by
            rcases h with rfl | rfl | rfl <;> decide
          simp [readExponent, hne]
  | cons e cs =>
      by_cases he : e = 'e' ∨ e = 'E'
      · simp only [readExponent, he, if_true, List.cons_append] at hr ⊢
        split at hr
        · next ds' =>
            obtain ⟨⟨ds₁, r₁⟩, hd, heq⟩ := Option.map_eq_some_iff.mp hr
            obtain ⟨rfl, rfl⟩ := Prod.mk.inj heq
            simp only [List.cons_append, readDigits_append h hd, Option.map_some]
        · next ds' =>
            obtain ⟨⟨ds₁, r₁⟩, hd, heq⟩ := Option.map_eq_some_iff.mp hr
            obtain ⟨rfl, rfl⟩ := Prod.mk.inj heq
            simp only [List.cons_append, readDigits_append h hd, Option.map_some]
        · next hplus hminus =>
            obtain ⟨⟨ds₁, r₁⟩, hd, heq⟩ := Option.map_eq_some_iff.mp hr
            obtain ⟨rfl, rfl⟩ := Prod.mk.inj heq
            have happ := readDigits_append h hd
            -- digits come first: neither sign does
            cases cs with
            | nil => cases hd
            | cons c cs =>
                split
                · next heq => exact absurd (by rw [(List.cons.inj heq).1]) (hplus cs)
                · next heq => exact absurd (by rw [(List.cons.inj heq).1]) (hminus cs)
                · rw [happ]
                  rfl
      · simp only [readExponent, he, if_false, List.cons_append] at hr ⊢
        cases hr
        rfl

/-- What ends a number ends it after the same digits. -/
theorem readNumber_append (h : Ends rest) {cs ds r : List Char} (hr : readNumber cs = some (ds, r)) :
    readNumber (cs ++ rest) = some (ds, r ++ rest) := by
  simp only [readNumber, Option.bind_eq_bind, Option.bind_eq_some_iff, Option.pure_def, Option.some.injEq,
    Prod.mk.injEq] at hr ⊢
  obtain ⟨⟨int, r₁⟩, h1, ⟨frac, r₂⟩, h2, ⟨exp, r₃⟩, h3, rfl, rfl⟩ := hr
  have hsign : readSign (cs ++ rest) = ((readSign cs).1, (readSign cs).2 ++ rest) := by
    cases cs with
    | nil => cases h1
    | cons c cs =>
        by_cases hc : c = '-'
        · subst hc
          rfl
        · have hne : ∀ cs : List Char, readSign (c :: cs) = ([], c :: cs) := by
            intro cs
            unfold readSign
            split
            · next heq => exact absurd (List.cons.inj heq).1 hc
            · rfl
          rw [List.cons_append, hne, hne]
          rfl
  rw [hsign]
  exact ⟨(int, r₁ ++ rest), readInteger_append h h1, (frac, r₂ ++ rest), readFraction_append h h2,
    (exp, r₃ ++ rest), readExponent_append h h3, rfl, rfl⟩

end Numbers

/-! ## Values -/

section Values
variable (number : String → Option String)

mutual

/-- A value the reader can read back with `depth` levels to open, plus one. -/
def Value.Good (depth : Nat) : Value → Prop
  | .null     => True
  | .bool _   => True
  | .num text => NumberText number text
  | .str _    => True
  | .arr vs   => 1 < depth ∧ GoodElements (depth - 1) vs
  | .obj ms   => 1 < depth ∧ GoodMembers (depth - 1) ms

/-- Every element is good at this depth. -/
def GoodElements (depth : Nat) : List Value → Prop
  | []      => True
  | v :: vs => v.Good depth ∧ GoodElements depth vs

/-- Every member's value is good at this depth. -/
def GoodMembers (depth : Nat) : List (String × Value) → Prop
  | []           => True
  | (_, v) :: ms => v.Good depth ∧ GoodMembers depth ms

end

mutual

/-- The value as it is read again: its numbers as the reader keeps them, its objects collected. -/
def Value.reread : Value → Value
  | .null     => .null
  | .bool b   => .bool b
  | .num text => .num ((number text).getD text)
  | .str s    => .str s
  | .arr vs   => .arr (rereadElements vs)
  | .obj ms   => .obj (collect (rereadMembers ms))

/-- Rereads every element. -/
def rereadElements : List Value → List Value
  | []      => []
  | v :: vs => v.reread :: rereadElements vs

/-- Rereads every member's value. -/
def rereadMembers : List (String × Value) → List (String × Value)
  | []           => []
  | (k, v) :: ms => (k, v.reread) :: rereadMembers ms

end

mutual

/-- The value with its numbers as the reader keeps them, its members where they stand. -/
def Value.renumber : Value → Value
  | .null     => .null
  | .bool b   => .bool b
  | .num text => .num ((number text).getD text)
  | .str s    => .str s
  | .arr vs   => .arr (renumberElements vs)
  | .obj ms   => .obj (renumberMembers ms)

/-- Renumbers every element. -/
def renumberElements : List Value → List Value
  | []      => []
  | v :: vs => v.renumber :: renumberElements vs

/-- Renumbers every member's value. -/
def renumberMembers : List (String × Value) → List (String × Value)
  | []           => []
  | (k, v) :: ms => (k, v.renumber) :: renumberMembers ms

end

variable {number}

mutual

theorem collapse_renumber : ∀ v : Value, (v.renumber number).collapse = v.reread number
  | .null | .bool _ | .num _ | .str _ => rfl
  | .arr vs => congrArg Value.arr (collapseElements_renumber vs)
  | .obj ms => congrArg (fun m => Value.obj (collect m)) (collapseMembers_renumber ms)

theorem collapseElements_renumber :
    ∀ vs : List Value, collapseElements (renumberElements number vs) = rereadElements number vs
  | []      => rfl
  | v :: vs => congrArg₂ List.cons (collapse_renumber v) (collapseElements_renumber vs)

theorem collapseMembers_renumber :
    ∀ ms : List (String × Value), collapseMembers (renumberMembers number ms) = rereadMembers number ms
  | []           => rfl
  | (k, v) :: ms => congrArg₂ List.cons (congrArg (Prod.mk k) (collapse_renumber v)) (collapseMembers_renumber ms)

end

end Values

section Members
variable {number : String → Option String}

theorem goodMembers_iff {depth : Nat} {ms : List (String × Value)} :
    GoodMembers number depth ms ↔ ∀ kv ∈ ms, kv.2.Good number depth := by
  induction ms with
  | nil => simp [GoodMembers]
  | cons kv ms ih => simp [GoodMembers, ih]

theorem goodElements_iff {depth : Nat} {vs : List Value} :
    GoodElements number depth vs ↔ ∀ v ∈ vs, v.Good number depth := by
  induction vs with
  | nil => simp [GoodElements]
  | cons v vs ih => simp [GoodElements, ih]

theorem rereadMembers_eq (ms : List (String × Value)) :
    rereadMembers number ms = ms.map fun kv => (kv.1, kv.2.reread number) := by
  induction ms with
  | nil => rfl
  | cons kv ms ih => rw [rereadMembers, ih, List.map_cons]

theorem lookup_reread (key : String) (ms : List (String × Value)) :
    (rereadMembers number ms).lookup key = (ms.lookup key).map (Value.reread number) := by
  induction ms with
  | nil => rfl
  | cons kv ms ih =>
      obtain ⟨k, v⟩ := kv
      rw [rereadMembers, List.lookup_cons, List.lookup_cons]
      split
      · rfl
      · exact ih

end Members

/-! ### Ordered maps -/

section Ordered
variable {k key : String} {v : Value} {m : List (String × Value)}

/-- Putting a member into an ordered map keeps the order. -/
theorem sorted_insertMember (h : m.Pairwise (fun a b => a.1 < b.1)) :
    (insertMember k v m).Pairwise (fun a b => a.1 < b.1) := by
  induction m with
  | nil => simp [insertMember]
  | cons ab m ih =>
      obtain ⟨hall, hm⟩ := List.pairwise_cons.mp h
      unfold insertMember
      split
      · next heq =>
          subst heq
          exact List.pairwise_cons.mpr ⟨hall, hm⟩
      · next hne =>
          split
          · next hlt =>
              refine List.pairwise_cons.mpr ⟨?_, h⟩
              intro b hb
              rcases List.mem_cons.mp hb with rfl | hb
              · exact hlt
              · exact lt_trans hlt (hall b hb)
          · next hnlt =>
              have hgt : ab.1 < k := lt_of_le_of_ne (not_lt.mp hnlt) (Ne.symm hne)
              refine List.pairwise_cons.mpr ⟨?_, ih hm⟩
              intro b hb
              rcases mem_insertMember hb with rfl | hb
              · exact hgt
              · exact hall b hb

theorem sorted_collect (ms : List (String × Value)) : (collect ms).Pairwise (fun a b => a.1 < b.1) := by
  have hfold : ∀ (ms m : List (String × Value)), m.Pairwise (fun a b => a.1 < b.1) →
      (ms.foldl (fun m kv => insertMember kv.1 kv.2 m) m).Pairwise (fun a b => a.1 < b.1) := by
    intro ms
    induction ms with
    | nil => exact fun _ h => h
    | cons kv ms ih => exact fun m h => ih _ (sorted_insertMember h)
  exact hfold ms [] List.Pairwise.nil

private theorem lookup_cons_if {a : String} {b : Value} :
    List.lookup key ((a, b) :: m) = if key = a then some b else m.lookup key := by
  by_cases h : key = a
  · simp [h]
  · have hne : (key == a) = false := by simpa using h
    rw [List.lookup_cons, hne, if_neg h]

theorem lookup_insertMember : (insertMember k v m).lookup key = if key = k then some v else m.lookup key := by
  induction m with
  | nil => exact lookup_cons_if
  | cons ab m ih =>
      obtain ⟨a, b⟩ := ab
      unfold insertMember
      split
      · next heq =>
          subst heq
          rw [lookup_cons_if, lookup_cons_if]
          split <;> rfl
      · next hne =>
          split
          · exact lookup_cons_if
          · rw [lookup_cons_if, ih, lookup_cons_if]
            by_cases hk : key = k
            · rw [if_pos hk, if_pos hk, if_neg (hk ▸ hne)]
            · rw [if_neg hk, if_neg hk]

/-- Collecting members of different keys keeps what each key stands for. -/
theorem lookup_collect {ms : List (String × Value)} (h : (ms.map Prod.fst).Nodup) :
    (collect ms).lookup key = ms.lookup key := by
  have hfold : ∀ (ms m : List (String × Value)), (ms.map Prod.fst).Nodup →
      (ms.foldl (fun m kv => insertMember kv.1 kv.2 m) m).lookup key = (ms.lookup key).or (m.lookup key) := by
    intro ms
    induction ms with
    | nil => exact fun m _ => rfl
    | cons kv ms ih =>
        intro m hm
        obtain ⟨a, b⟩ := kv
        obtain ⟨hnew, hms⟩ := List.nodup_cons.mp hm
        rw [List.foldl_cons, ih _ hms, lookup_insertMember, lookup_cons_if]
        by_cases hk : key = a
        · have hnone : ms.lookup key = none := by
            rw [List.lookup_eq_none_iff]
            intro p hp
            have hne : key ≠ p.1 := by
              intro heq
              exact hnew (List.mem_map.mpr ⟨p, hp, by rw [← heq, hk]⟩)
            simpa using hne
          rw [if_pos hk, if_pos hk, hnone]
          rfl
        · rw [if_neg hk, if_neg hk]
  rw [collect, hfold ms [] h]
  exact Option.or_none

end Ordered

/-- No two members of an object have one key. -/
def Value.Distinct : Value → Prop
  | .obj ms => (ms.map Prod.fst).Nodup
  | _       => True

/-- The members of an object are in order. -/
def Value.Sorted : Value → Prop
  | .obj ms => ms.Pairwise (fun a b => a.1 < b.1)
  | _       => True

theorem Value.Sorted.distinct {v : Value} (h : v.Sorted) : v.Distinct := by
  cases v with
  | obj ms =>
      refine List.pairwise_map.mpr (List.Pairwise.imp ?_ h)
      exact fun hlt => ne_of_lt hlt
  | _ => trivial

theorem Value.Sorted.set {v : Value} (h : v.Sorted) (key : String) (member : Value) : (v.set key member).Sorted := by
  cases v with
  | obj ms => exact sorted_insertMember h
  | _ => trivial

/-- **Reading again keeps what each key stands for.** -/
theorem get_reread {number : String → Option String} {v : Value} (h : v.Distinct) (key : String) :
    (v.reread number).get key = (v.get key).map (Value.reread number) := by
  cases v with
  | obj ms =>
      have hkeys : ((rereadMembers number ms).map Prod.fst).Nodup := by
        rw [rereadMembers_eq, List.map_map]
        exact h
      show (collect (rereadMembers number ms)).lookup key = _
      rw [lookup_collect hkeys]
      exact lookup_reread key ms
  | _ => rfl

/-- Writing a member and reading it. -/
theorem get_set_self (v member : Value) (key : String) (h : ∃ w, v.get key = some w) :
    (v.set key member).get key = some member := by
  cases v with
  | obj m =>
      show (insertMember key member m).lookup key = some member
      rw [lookup_insertMember, if_pos rfl]
  | _ =>
      obtain ⟨w, hw⟩ := h
      cases hw

/-! ## Reading a value that was written -/

theorem quote_toList (s : String) : (quote s).toList = '"' :: (escape s.toList ++ ['"']) := by
  rw [quote, String.toList_ofList]

/-- A number starts with a minus sign or a digit. -/
private theorem head_number {cs ds r : List Char} (h : readNumber cs = some (ds, r)) :
    ∃ c cs', cs = c :: cs' ∧ (c = '-' ∨ c.isDigit = true) := by
  cases cs with
  | nil => cases h
  | cons c cs =>
      refine ⟨c, cs, rfl, ?_⟩
      by_cases hc : c = '-'
      · exact Or.inl hc
      · right
        have hsign : readSign (c :: cs) = ([], c :: cs) := by
          unfold readSign
          split
          · next heq => exact absurd (List.cons.inj heq).1 hc
          · rfl
        simp only [readNumber, readInteger, readDigits, hsign, Option.bind_eq_bind, Option.bind_eq_some_iff] at h
        obtain ⟨_, ⟨_, hd, -⟩, -⟩ := h
        by_contra hdigit
        rw [List.takeWhile_cons_of_neg (by simpa using hdigit)] at hd
        cases hd

section ReadBack
variable {number : String → Option String} {fuel depth : Nat} {rest : List Char}

/-- A number text is read as the number the reader keeps. -/
private theorem readTree_number {text : String} (h : NumberText number text) (hrest : Ends rest) :
    readTree number (fuel + 1) depth (text.toList ++ rest)
      = some (.num ((number text).getD text), rest) := by
  obtain ⟨hread, hnum⟩ := h
  obtain ⟨c, cs, hcs, hc⟩ := head_number hread
  obtain ⟨n, hn⟩ := Option.isSome_iff_exists.mp hnum
  have hread' := readNumber_append hrest hread
  rw [hcs, List.cons_append, ← hcs, List.nil_append] at hread'
  rw [hcs, List.cons_append, readTree]
  have hlit : isSpace c = false ∧ c ≠ 'n' ∧ c ≠ 't' ∧ c ≠ 'f' ∧ c ≠ '"' ∧ c ≠ '[' ∧ c ≠ '{' := by
    rcases hc with rfl | hc
    · decide
    · refine ⟨?_, ?_, ?_, ?_, ?_, ?_, ?_⟩
      · rw [Bool.eq_false_iff]
        intro hs
        simp only [isSpace, Bool.or_eq_true, beq_iff_eq] at hs
        rcases hs with ((rfl | rfl) | rfl) | rfl <;> revert hc <;> decide
      all_goals
        rintro rfl
        revert hc
        decide
  obtain ⟨hspace, h1, h2, h3, h4, h5, h6⟩ := hlit
  rw [skipSpace_cons hspace]
  simp only [h1, h2, h3, h4, h5, h6, if_false, hc, if_true, Option.bind_eq_bind, hread', Option.bind_some,
    String.ofList_toList, hn, Option.getD_some]
  rfl

/-- A literal is read off the text. -/
private theorem readLiteral_append (lit : List Char) : readLiteral lit (lit ++ rest) = some rest := by
  rw [readLiteral, if_pos (List.prefix_append lit rest), List.drop_left]

private theorem readTree_string (s : String) :
    readTree number (fuel + 1) depth ((quote s).toList ++ rest) = some (.str s, rest) := by
  have htext : (quote s).toList ++ rest = '"' :: (escape s.toList ++ '"' :: rest) := by simp [quote_toList]
  rw [htext, readTree_quote, readString_quoted, Option.map_some, String.ofList_toList]

/-- A bracket opens an array of elements, unless it is closed at once. -/
theorem readTree_bracket (hd : 1 < depth) {c : Char} {cs : List Char} (hs : isSpace c = false)
    (hc : c ≠ ']') :
    readTree number (fuel + 1) depth ('[' :: c :: cs)
      = (readTreeElements number fuel (depth - 1) (c :: cs)).map fun p => (.arr p.1, p.2) := by
  have hd' : ¬ depth ≤ 1 := by omega
  rw [readTree, skipSpace_cons (by decide)]
  simp [hd', skipSpace_cons hs, hc]

/-- No value starts with white space or a closing bracket. -/
theorem head_compact (v : Value) (hv : v.Good number depth) :
    ∃ c cs, v.compact.toList = c :: cs ∧ isSpace c = false ∧ c ≠ ']' := by
  cases v with
  | null => exact ⟨'n', _, rfl, by decide, by decide⟩
  | bool b =>
      cases b with
      | true => exact ⟨'t', _, rfl, by decide, by decide⟩
      | false => exact ⟨'f', _, rfl, by decide, by decide⟩
  | num text =>
      obtain ⟨c, cs, hcs, hc⟩ := head_number hv.1
      refine ⟨c, cs, hcs, ?_, ?_⟩
      · rw [Bool.eq_false_iff]
        intro hs
        simp only [isSpace, Bool.or_eq_true, beq_iff_eq] at hs
        rcases hs with ((rfl | rfl) | rfl) | rfl <;> revert hc <;> decide
      · rintro rfl
        revert hc
        decide
  | str s => exact ⟨'"', _, quote_toList s, by decide, by decide⟩
  | arr vs =>
      refine ⟨'[', (compactElements vs).toList ++ [']'], ?_, by decide, by decide⟩
      simp [Value.compact, String.toList_append]
  | obj ms =>
      refine ⟨'{', (compactMembers ms).toList ++ ['}'], ?_, by decide, by decide⟩
      simp [Value.compact, String.toList_append]

/-- What each reader reads with `fuel`: what was written, up to what ends it. Two calls are nested for each character
    at most. -/
structure ReadsBack (number : String → Option String) (fuel : Nat) : Prop where
  value : ∀ {depth : Nat} (rest : List Char) (v : Value), v.Good number depth → Ends rest →
    2 * v.compact.toList.length ≤ fuel →
      readTree number fuel depth (v.compact.toList ++ rest) = some (v.renumber number, rest)
  elements : ∀ {depth : Nat} (rest : List Char) (v : Value) (vs : List Value), GoodElements number depth (v :: vs) →
    2 * (compactElements (v :: vs)).toList.length + 1 ≤ fuel →
    readTreeElements number fuel depth ((compactElements (v :: vs)).toList ++ ']' :: rest)
      = some (renumberElements number (v :: vs), rest)
  members : ∀ {depth : Nat} (rest : List Char) (kv : String × Value) (ms : List (String × Value)),
    GoodMembers number depth (kv :: ms) → 2 * (compactMembers (kv :: ms)).toList.length + 1 ≤ fuel →
    readTreeMembers number fuel depth ((compactMembers (kv :: ms)).toList ++ '}' :: rest)
      = some (renumberMembers number (kv :: ms), rest)

private theorem readsBack_array (ih : ReadsBack number fuel) (vs : List Value) (hv : (Value.arr vs).Good number depth)
    (hfuel : 2 * (Value.arr vs).compact.toList.length ≤ fuel + 1) :
    readTree number (fuel + 1) depth ((Value.arr vs).compact.toList ++ rest)
      = some ((Value.arr vs).renumber number, rest) := by
  cases vs with
  | nil =>
      have hd : ¬ depth ≤ 1 := by
        have := hv.1
        omega
      show readTree number (fuel + 1) depth ('[' :: ']' :: rest) = _
      rw [readTree, skipSpace_cons (by decide)]
      simp [hd, skipSpace_cons (c := ']') (by decide), Value.renumber, renumberElements]
  | cons v vs =>
      have htext : (Value.arr (v :: vs)).compact.toList ++ rest
          = '[' :: ((compactElements (v :: vs)).toList ++ ']' :: rest) := by
        simp [Value.compact, String.toList_append]
      have hlen : (Value.arr (v :: vs)).compact.toList.length = (compactElements (v :: vs)).toList.length + 2 := by
        simp [Value.compact]
      obtain ⟨c, cs, hcs, hspace, hclose⟩ := head_compact v hv.2.1
      have helements := ih.elements rest v vs hv.2 (by omega)
      obtain ⟨cs', hcs'⟩ : ∃ cs', (compactElements (v :: vs)).toList = c :: cs' := by
        cases vs with
        | nil => exact ⟨cs, hcs⟩
        | cons v' vs => exact ⟨_, by simp [compactElements, hcs]; rfl⟩
      rw [htext, hcs', List.cons_append, readTree_bracket hv.1 hspace hclose, ← List.cons_append, ← hcs', helements]
      rfl

private theorem readsBack_object (ih : ReadsBack number fuel) (ms : List (String × Value))
    (hv : (Value.obj ms).Good number depth) (hfuel : 2 * (Value.obj ms).compact.toList.length ≤ fuel + 1) :
    readTree number (fuel + 1) depth ((Value.obj ms).compact.toList ++ rest)
      = some ((Value.obj ms).renumber number, rest) := by
  cases ms with
  | nil =>
      have hd : ¬ depth ≤ 1 := by
        have := hv.1
        omega
      show readTree number (fuel + 1) depth ('{' :: '}' :: rest) = _
      rw [readTree, skipSpace_cons (by decide)]
      simp [hd, skipSpace_cons (c := '}') (by decide), Value.renumber, renumberMembers]
  | cons kv ms =>
      have htext : (Value.obj (kv :: ms)).compact.toList ++ rest
          = '{' :: ((compactMembers (kv :: ms)).toList ++ '}' :: rest) := by
        simp [Value.compact, String.toList_append]
      have hlen : (Value.obj (kv :: ms)).compact.toList.length = (compactMembers (kv :: ms)).toList.length + 2 := by
        simp [Value.compact]
      obtain ⟨cs, hcs⟩ : ∃ cs, (compactMembers (kv :: ms)).toList = '"' :: cs := by
        cases ms with
        | nil => exact ⟨_, by simp [compactMembers, quote_toList]; rfl⟩
        | cons kv' ms => exact ⟨_, by simp [compactMembers, quote_toList]; rfl⟩
      have hmembers := ih.members rest kv ms hv.2 (by omega)
      rw [htext, hcs, List.cons_append, readTree_brace_quote hv.1, ← List.cons_append, ← hcs, hmembers]
      rfl

private theorem readsBack_value (ih : ReadsBack number fuel) (v : Value) (hv : v.Good number depth) (hrest : Ends rest)
    (hfuel : 2 * v.compact.toList.length ≤ fuel + 1) :
    readTree number (fuel + 1) depth (v.compact.toList ++ rest) = some (v.renumber number, rest) := by
  cases v with
  | null =>
      show readTree number (fuel + 1) depth ('n' :: (['u', 'l', 'l'] ++ rest)) = _
      rw [readTree, skipSpace_cons (by decide)]
      simp only [if_true, readLiteral_append, Option.map_some]
      rfl
  | bool b =>
      cases b with
      | true =>
          show readTree number (fuel + 1) depth ('t' :: (['r', 'u', 'e'] ++ rest)) = _
          rw [readTree, skipSpace_cons (by decide)]
          simp only [if_true, readLiteral_append, Option.map_some, show ¬ ('t' = 'n') by decide, if_false]
          rfl
      | false =>
          show readTree number (fuel + 1) depth ('f' :: (['a', 'l', 's', 'e'] ++ rest)) = _
          rw [readTree, skipSpace_cons (by decide)]
          simp only [if_true, readLiteral_append, Option.map_some, show ¬ ('f' = 'n') by decide,
            show ¬ ('f' = 't') by decide, if_false]
          rfl
  | num text => exact readTree_number hv hrest
  | str s => exact readTree_string s
  | arr vs => exact readsBack_array ih vs hv hfuel
  | obj ms => exact readsBack_object ih ms hv hfuel

private theorem readsBack_elements (ih : ReadsBack number fuel) (v : Value) (vs : List Value)
    (hv : GoodElements number depth (v :: vs)) (hfuel : 2 * (compactElements (v :: vs)).toList.length + 1 ≤ fuel + 1) :
    readTreeElements number (fuel + 1) depth ((compactElements (v :: vs)).toList ++ ']' :: rest)
      = some (renumberElements number (v :: vs), rest) := by
  cases vs with
  | nil =>
      have hread := ih.value (']' :: rest) v hv.1 (Or.inr (Or.inl rfl)) (by simp only [compactElements] at hfuel; omega)
      simp only [compactElements, readTreeElements, hread, Option.bind_eq_bind, Option.bind_some]
      rw [skipSpace_cons (by decide)]
      rfl
  | cons v' vs =>
      have htext : (compactElements (v :: v' :: vs)).toList
          = v.compact.toList ++ ',' :: (compactElements (v' :: vs)).toList := by
        simp [compactElements, String.toList_append]
      rw [htext, List.length_append, List.length_cons] at hfuel
      have hread := ih.value (',' :: ((compactElements (v' :: vs)).toList ++ ']' :: rest)) v hv.1 (Or.inl rfl)
        (by omega)
      have hmore := ih.elements rest v' vs hv.2 (by omega)
      rw [htext, List.append_assoc, List.cons_append]
      simp only [readTreeElements, hread, Option.bind_eq_bind, Option.bind_some]
      rw [skipSpace_cons (by decide)]
      simp only [hmore, Option.map_some]
      rfl

private theorem readsBack_members (ih : ReadsBack number fuel) (kv : String × Value) (ms : List (String × Value))
    (hv : GoodMembers number depth (kv :: ms))
    (hfuel : 2 * (compactMembers (kv :: ms)).toList.length + 1 ≤ fuel + 1) :
    readTreeMembers number (fuel + 1) depth ((compactMembers (kv :: ms)).toList ++ '}' :: rest)
      = some (renumberMembers number (kv :: ms), rest) := by
  obtain ⟨k, v⟩ := kv
  cases ms with
  | nil =>
      have htext : (compactMembers [(k, v)]).toList = '"' :: (escape k.toList ++ '"' :: ':' :: v.compact.toList) := by
        simp [compactMembers, String.toList_append, quote_toList]
      rw [htext] at hfuel
      simp only [List.length_cons, List.length_append] at hfuel
      have hread := ih.value ('}' :: rest) v hv.1 (Or.inr (Or.inr rfl)) (by omega)
      rw [htext]
      simp only [List.cons_append, List.append_assoc]
      rw [readTreeMembers_quote (readString_quoted k _) hread, String.ofList_toList]
      rfl
  | cons kv' ms =>
      have htext : (compactMembers ((k, v) :: kv' :: ms)).toList
          = '"' :: (escape k.toList
              ++ '"' :: ':' :: (v.compact.toList ++ ',' :: (compactMembers (kv' :: ms)).toList)) := by
        simp [compactMembers, String.toList_append, quote_toList]
      rw [htext] at hfuel
      simp only [List.length_cons, List.length_append] at hfuel
      have hread := ih.value (',' :: ((compactMembers (kv' :: ms)).toList ++ '}' :: rest)) v hv.1 (Or.inl rfl)
        (by omega)
      have hmore := ih.members rest kv' ms hv.2 (by omega)
      rw [htext]
      simp only [List.cons_append, List.append_assoc]
      rw [readTreeMembers, skipSpace_cons (by decide)]
      simp only [readString_quoted, Option.bind_eq_bind, Option.bind_some]
      rw [skipSpace_cons (by decide)]
      simp only [hread, Option.bind_some]
      rw [skipSpace_cons (by decide)]
      simp only [hmore, Option.map_some, String.ofList_toList]
      rfl

theorem readsBack (number : String → Option String) (fuel : Nat) : ReadsBack number fuel := by
  induction fuel with
  | zero =>
      constructor
      · intro depth rest v hv _ hfuel
        obtain ⟨c, cs, hcs, -⟩ := head_compact v hv
        rw [hcs, List.length_cons] at hfuel
        omega
      · intro depth rest v vs _ hfuel
        omega
      · intro depth rest kv ms _ hfuel
        omega
  | succ fuel ih => exact ⟨fun _ => readsBack_value ih, fun _ => readsBack_elements ih, fun _ => readsBack_members ih⟩

/-- **What was written compactly is read as it was written**, its numbers as the reader keeps them. -/
theorem parseTree_compact {v : Value} (hv : v.Good number recursionLimit) :
    parseTree number v.compact = some (v.renumber number) := by
  have hread := (readsBack number (2 * v.compact.toList.length + 2)).value [] v hv trivial (by omega)
  rw [List.append_nil] at hread
  simp only [parseTree, hread, Option.bind_eq_bind, Option.bind_some]
  rfl

/-- What was written compactly is read as the value itself. -/
theorem parse_compact {v : Value} (hv : v.Good number recursionLimit) :
    parse number v.compact = some (v.reread number) := by
  rw [parse_eq, parseTree_compact hv, Option.map_some, collapse_renumber]

end ReadBack

/-! ## What is read is good -/

section GoodOfRead
variable {number : String → Option String} {fuel depth : Nat} {cs rest : List Char}

/-- What each reader reads with `fuel` is good, and an object in order. -/
private structure ReadsGood (number : String → Option String) (fuel : Nat) : Prop where
  value : ∀ {depth cs v rest}, readValue number fuel depth cs = some (v, rest) → v.Good number depth ∧ v.Sorted
  elements : ∀ {depth cs vs rest}, readElements number fuel depth cs = some (vs, rest) → GoodElements number depth vs
  members : ∀ {depth cs ms rest}, readMembers number fuel depth cs = some (ms, rest) → GoodMembers number depth ms

private theorem readsGood_value (keeps : KeepsNumbers number) (ih : ReadsGood number fuel) {v : Value}
    (h : readValue number (fuel + 1) depth cs = some (v, rest)) : v.Good number depth ∧ v.Sorted := by
  rw [readValue] at h
  split at h
  · cases h
  · next c cs' _ =>
      have hlit : ∀ {lit : List Char} {w : Value}, w.Good number depth ∧ w.Sorted →
          (readLiteral lit cs').map (fun r => (w, r)) = some (v, rest) → v.Good number depth ∧ v.Sorted := by
        intro lit w hw hr
        obtain ⟨_, -, heq⟩ := Option.map_eq_some_iff.mp hr
        obtain ⟨rfl, rfl⟩ := Prod.mk.inj heq
        exact hw
      by_cases hc : c = 'n'
      · rw [if_pos hc] at h
        exact hlit (w := .null) ⟨trivial, trivial⟩ h
      rw [if_neg hc] at h
      by_cases hc : c = 't'
      · rw [if_pos hc] at h
        exact hlit (w := .bool true) ⟨trivial, trivial⟩ h
      rw [if_neg hc] at h
      by_cases hc : c = 'f'
      · rw [if_pos hc] at h
        exact hlit (w := .bool false) ⟨trivial, trivial⟩ h
      rw [if_neg hc] at h
      by_cases hc : c = '"'
      · rw [if_pos hc] at h
        obtain ⟨_, -, heq⟩ := Option.map_eq_some_iff.mp h
        obtain ⟨rfl, rfl⟩ := Prod.mk.inj heq
        exact ⟨trivial, trivial⟩
      rw [if_neg hc] at h
      by_cases hc : c = '['
      · rw [if_pos hc] at h
        split at h
        · cases h
        · next hd =>
            have hd : 1 < depth := by omega
            split at h
            · cases h
              exact ⟨⟨hd, trivial⟩, trivial⟩
            · obtain ⟨_, hr, heq⟩ := Option.map_eq_some_iff.mp h
              obtain ⟨rfl, rfl⟩ := Prod.mk.inj heq
              exact ⟨⟨hd, ih.elements hr⟩, trivial⟩
      rw [if_neg hc] at h
      by_cases hc : c = '{'
      · rw [if_pos hc] at h
        split at h
        · cases h
        · next hd =>
            have hd : 1 < depth := by omega
            split at h
            · cases h
              exact ⟨⟨hd, trivial⟩, List.Pairwise.nil⟩
            · obtain ⟨_, hr, heq⟩ := Option.map_eq_some_iff.mp h
              obtain ⟨rfl, rfl⟩ := Prod.mk.inj heq
              refine ⟨⟨hd, goodMembers_iff.mpr ?_⟩, sorted_collect _⟩
              exact fun kv hkv => goodMembers_iff.mp (ih.members hr) kv (mem_of_mem_collect hkv)
      rw [if_neg hc] at h
      split at h
      · simp only [Option.bind_eq_bind, Option.bind_eq_some_iff, Option.pure_def, Option.some.injEq,
          Prod.mk.injEq] at h
        obtain ⟨_, -, _, hn, rfl, rfl⟩ := h
        exact ⟨keeps _ _ hn, trivial⟩
      · cases h

private theorem readsGood_elements (ih : ReadsGood number fuel) {vs : List Value}
    (h : readElements number (fuel + 1) depth cs = some (vs, rest)) : GoodElements number depth vs := by
  simp only [readElements, Option.bind_eq_bind, Option.bind_eq_some_iff] at h
  obtain ⟨⟨v, mid⟩, hv, h⟩ := h
  have hgood := (ih.value hv).1
  dsimp only at h
  split at h
  · obtain ⟨⟨ws, _⟩, he, heq⟩ := Option.map_eq_some_iff.mp h
    obtain ⟨rfl, rfl⟩ := Prod.mk.inj heq
    exact ⟨hgood, ih.elements he⟩
  · cases h
    exact ⟨hgood, trivial⟩
  · cases h

private theorem readsGood_members (ih : ReadsGood number fuel) {ms : List (String × Value)}
    (h : readMembers number (fuel + 1) depth cs = some (ms, rest)) : GoodMembers number depth ms := by
  rw [readMembers] at h
  split at h
  · simp only [Option.bind_eq_bind, Option.bind_eq_some_iff] at h
    obtain ⟨⟨k, mid⟩, -, h⟩ := h
    dsimp only at h
    split at h
    · simp only [Option.bind_eq_some_iff] at h
      obtain ⟨⟨v, mid'⟩, hv, h⟩ := h
      have hgood := (ih.value hv).1
      dsimp only at h
      split at h
      · obtain ⟨⟨ms', _⟩, hms, heq⟩ := Option.map_eq_some_iff.mp h
        obtain ⟨rfl, rfl⟩ := Prod.mk.inj heq
        exact ⟨hgood, ih.members hms⟩
      · cases h
        exact ⟨hgood, trivial⟩
      · cases h
    · cases h
  · cases h

private theorem readsGood (keeps : KeepsNumbers number) (fuel : Nat) : ReadsGood number fuel := by
  induction fuel with
  | zero =>
      constructor
      · intro _ _ _ _ h
        simp [readValue] at h
      · intro _ _ _ _ h
        simp [readElements] at h
      · intro _ _ _ _ h
        simp [readMembers] at h
  | succ fuel ih => exact ⟨readsGood_value keeps ih, readsGood_elements ih, readsGood_members ih⟩

/-- **What is read can be written and read back.** -/
theorem good_of_parse (keeps : KeepsNumbers number) {text : String} {v : Value} (h : parse number text = some v) :
    v.Good number recursionLimit ∧ v.Sorted := by
  simp only [parse, Option.bind_eq_bind, Option.bind_eq_some_iff] at h
  obtain ⟨⟨v', rest⟩, hv, h⟩ := h
  dsimp only at h
  split at h
  · cases h
    exact (readsGood keeps _).value hv
  · cases h

end GoodOfRead

/-- Writing a member keeps a value good. -/
theorem Value.Good.set {number : String → Option String} {depth : Nat} {v member : Value} (hv : v.Good number depth)
    (hmember : member.Good number (depth - 1)) (key : String) : (v.set key member).Good number depth := by
  cases v with
  | obj ms =>
      obtain ⟨hd, hms⟩ := hv
      refine ⟨hd, goodMembers_iff.mpr ?_⟩
      intro kv hkv
      rcases mem_insertMember hkv with rfl | hkv
      · exact hmember
      · exact goodMembers_iff.mp hms kv hkv
  | _ => exact hv

end Json
