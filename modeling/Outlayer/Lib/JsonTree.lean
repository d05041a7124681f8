import Outlayer.Lib.Json

/-!
# `Lib.JsonTree` — JSON text read without forgetting

Two readers of one text may disagree where an object repeats a key: a reader of values keeps the last of them, a reader
of records sees them all. `parseTree` reads a text as the latter does, every member where it stands, and `parse` is
what is left of that when repeated members are collected (`parse_eq`). Both are one walk over the text, so whatever the
text is they accept it together.
-/

namespace Json

section Reader
variable (number : String → Option String)

mutual

/-- A value, after any white space, the members of its objects as they stand. -/
def readTree : (fuel depth : Nat) → List Char → Option (Value × List Char)
  | 0, _, _ => none
  | fuel + 1, depth, cs =>
      match skipSpace cs with
      | []      => none
      | c :: cs =>
          if c = 'n' then (readLiteral ['u', 'l', 'l'] cs).map fun r => (.null, r)
          else if c = 't' then (readLiteral ['r', 'u', 'e'] cs).map fun r => (.bool true, r)
          else if c = 'f' then (readLiteral ['a', 'l', 's', 'e'] cs).map fun r => (.bool false, r)
          else if c = '"' then (readString cs.length.succ cs).map fun p => (.str (String.ofList p.1), p.2)
          else if c = '[' then
            if depth ≤ 1 then none
            else if (skipSpace cs).head? = some ']' then some (.arr [], (skipSpace cs).tail)
            else (readTreeElements fuel (depth - 1) cs).map fun p => (.arr p.1, p.2)
          else if c = '{' then
            if depth ≤ 1 then none
            else if (skipSpace cs).head? = some '}' then some (.obj [], (skipSpace cs).tail)
            else (readTreeMembers fuel (depth - 1) cs).map fun p => (.obj p.1, p.2)
          else if c = '-' ∨ c.isDigit then do
            let (lexeme, rest) ← readNumber (c :: cs)
            let n ← number (String.ofList lexeme)
            pure (.num n, rest)
          else none

/-- Reads the elements of an array, after its bracket. -/
def readTreeElements : (fuel depth : Nat) → List Char → Option (List Value × List Char)
  | 0, _, _ => none
  | fuel + 1, depth, cs => do
      let (v, rest) ← readTree fuel depth cs
      match skipSpace rest with
      | ',' :: rest => (readTreeElements fuel depth rest).map fun p => (v :: p.1, p.2)
      | ']' :: rest => pure ([v], rest)
      | _           => none

/-- Reads the members of an object, after its brace. -/
def readTreeMembers : (fuel depth : Nat) → List Char → Option (List (String × Value) × List Char)
  | 0, _, _ => none
  | fuel + 1, depth, cs =>
      match skipSpace cs with
      | '"' :: cs => do
          let (k, rest) ← readString cs.length.succ cs
          match skipSpace rest with
          | ':' :: rest => do
              let (v, rest) ← readTree fuel depth rest
              match skipSpace rest with
              | ',' :: rest =>
                  (readTreeMembers fuel depth rest).map fun p => ((String.ofList k, v) :: p.1, p.2)
              | '}' :: rest => pure ([(String.ofList k, v)], rest)
              | _           => none
          | _ => none
      | _ => none

end

/-- Read a whole text: one value, then only white space. -/
def parseTree (text : String) : Option Value := do
  let cs := text.toList
  let (v, rest) ← readTree number (2 * cs.length + 2) recursionLimit cs
  if skipSpace rest = [] then pure v else none

end Reader

/-! ## Collecting what is repeated -/

mutual

/-- The value of a tree: of members with one key the last stays. -/
def Value.collapse : Value → Value
  | .null     => .null
  | .bool b   => .bool b
  | .num text => .num text
  | .str s    => .str s
  | .arr vs   => .arr (collapseElements vs)
  | .obj ms   => .obj (collect (collapseMembers ms))

/-- Collapses every element. -/
def collapseElements : List Value → List Value
  | []      => []
  | v :: vs => v.collapse :: collapseElements vs

/-- Collapses every member's value. -/
def collapseMembers : List (String × Value) → List (String × Value)
  | []           => []
  | (k, v) :: ms => (k, v.collapse) :: collapseMembers ms

end

section Collapse
variable {number : String → Option String} {fuel : Nat}

/-- The two readers with `fuel`, one call of each. -/
private structure Collapses (number : String → Option String) (fuel : Nat) : Prop where
  value : ∀ (depth : Nat) (cs : List Char),
    readValue number fuel depth cs = (readTree number fuel depth cs).map fun p => (p.1.collapse, p.2)
  elements : ∀ (depth : Nat) (cs : List Char),
    readElements number fuel depth cs = (readTreeElements number fuel depth cs).map fun p => (collapseElements p.1, p.2)
  members : ∀ (depth : Nat) (cs : List Char),
    readMembers number fuel depth cs = (readTreeMembers number fuel depth cs).map fun p => (collapseMembers p.1, p.2)

private theorem collapses_value (ih : Collapses number fuel) (depth : Nat) (cs : List Char) :
    readValue number (fuel + 1) depth cs
      = (readTree number (fuel + 1) depth cs).map fun p => (p.1.collapse, p.2) := by
  rw [readValue, readTree]
  cases skipSpace cs with
  | nil => rfl
  | cons c cs =>
      dsimp only
      by_cases hc : c = 'n'
      · rw [if_pos hc, if_pos hc, Option.map_map]
        rfl
      rw [if_neg hc, if_neg hc]
      by_cases hc : c = 't'
      · rw [if_pos hc, if_pos hc, Option.map_map]
        rfl
      rw [if_neg hc, if_neg hc]
      by_cases hc : c = 'f'
      · rw [if_pos hc, if_pos hc, Option.map_map]
        rfl
      rw [if_neg hc, if_neg hc]
      by_cases hc : c = '"'
      · rw [if_pos hc, if_pos hc, Option.map_map]
        rfl
      rw [if_neg hc, if_neg hc]
      by_cases hc : c = '['
      · rw [if_pos hc, if_pos hc]
        split
        · rfl
        · split
          · rfl
          · rw [ih.elements, Option.map_map, Option.map_map]
            rfl
      rw [if_neg hc, if_neg hc]
      by_cases hc : c = '{'
      · rw [if_pos hc, if_pos hc]
        split
        · rfl
        · split
          · rfl
          · rw [ih.members, Option.map_map, Option.map_map]
            rfl
      rw [if_neg hc, if_neg hc]
      split
      · cases readNumber (c :: cs) with
        | none => rfl
        | some p =>
            show (number (String.ofList p.1) >>= _) = Option.map _ (number (String.ofList p.1) >>= _)
            cases number (String.ofList p.1) <;> rfl
      · rfl

/-- What a text starts with: one character, or another, or neither. -/
private theorem starts_cases (a b : Char) (cs : List Char) :
    (∃ rest, cs = a :: rest) ∨ (∃ rest, cs = b :: rest) ∨ ∀ rest, cs ≠ a :: rest ∧ cs ≠ b :: rest := by
  by_cases ha : ∃ rest, cs = a :: rest
  · exact Or.inl ha
  · by_cases hb : ∃ rest, cs = b :: rest
    · exact Or.inr (Or.inl hb)
    · exact Or.inr (Or.inr fun rest => ⟨fun h => ha ⟨rest, h⟩, fun h => hb ⟨rest, h⟩⟩)

private theorem collapses_elements (ih : Collapses number fuel) (depth : Nat) (cs : List Char) :
    readElements number (fuel + 1) depth cs
      = (readTreeElements number (fuel + 1) depth cs).map fun p => (collapseElements p.1, p.2) := by
  rw [readElements, readTreeElements, ih.value]
  cases readTree number fuel depth cs with
  | none => rfl
  | some p =>
      obtain ⟨v, rest⟩ := p
      simp only [Option.map_some, Option.bind_eq_bind, Option.bind_some]
      rcases starts_cases ',' ']' (skipSpace rest) with ⟨rest', h⟩ | ⟨rest', h⟩ | h
      · simp only [h, ih.elements, Option.map_map]
        rfl
      · simp only [h]
        rfl
      · simp [fun rest' => (h rest').1, fun rest' => (h rest').2]

private theorem collapses_members (ih : Collapses number fuel) (depth : Nat) (cs : List Char) :
    readMembers number (fuel + 1) depth cs
      = (readTreeMembers number (fuel + 1) depth cs).map fun p => (collapseMembers p.1, p.2) := by
  rw [readMembers, readTreeMembers]
  by_cases hquote : ∃ cs', skipSpace cs = '"' :: cs'
  · obtain ⟨cs', h⟩ := hquote
    simp only [h]
    cases readString cs'.length.succ cs' with
    | none => rfl
    | some p =>
        obtain ⟨k, rest⟩ := p
        simp only [Option.bind_eq_bind, Option.bind_some]
        by_cases hcolon : ∃ rest', skipSpace rest = ':' :: rest'
        · obtain ⟨rest', h⟩ := hcolon
          simp only [h, ih.value]
          cases readTree number fuel depth rest' with
          | none => rfl
          | some p =>
              obtain ⟨v, rest⟩ := p
              simp only [Option.map_some, Option.bind_some]
              rcases starts_cases ',' '}' (skipSpace rest) with ⟨rest', h⟩ | ⟨rest', h⟩ | h
              · simp only [h, ih.members, Option.map_map]
                rfl
              · simp only [h]
                rfl
              · simp [fun rest' => (h rest').1, fun rest' => (h rest').2]
        · simp [not_exists.mp hcolon]
  · simp [not_exists.mp hquote]

private theorem collapses (number : String → Option String) (fuel : Nat) : Collapses number fuel := by
  induction fuel with
  | zero => exact ⟨fun _ _ => rfl, fun _ _ => rfl, fun _ _ => rfl⟩
  | succ fuel ih => exact ⟨collapses_value ih, collapses_elements ih, collapses_members ih⟩

/-- **A value is what its tree collapses to.** -/
theorem parse_eq (text : String) : parse number text = (parseTree number text).map Value.collapse := by
  rw [parse, parseTree]
  dsimp only
  rw [(collapses number _).value]
  cases readTree number (2 * text.toList.length + 2) recursionLimit text.toList with
  | none => rfl
  | some p =>
      obtain ⟨v, rest⟩ := p
      simp only [Option.map_some, Option.bind_eq_bind, Option.bind_some]
      split <;> rfl

end Collapse

/-! ## Steps -/

section Steps
variable {number : String → Option String}

theorem readTree_quote (fuel depth : Nat) (cs : List Char) :
    readTree number (fuel + 1) depth ('"' :: cs)
      = (readString cs.length.succ cs).map fun p => (.str (String.ofList p.1), p.2) := by
  rw [readTree, skipSpace_cons (by decide)]
  rfl

theorem readTree_brace_quote {depth : Nat} (h : 1 < depth) (fuel : Nat) (cs : List Char) :
    readTree number (fuel + 1) depth ('{' :: '"' :: cs)
      = (readTreeMembers number fuel (depth - 1) ('"' :: cs)).map fun p => (.obj p.1, p.2) := by
  have hd : ¬ depth ≤ 1 := by omega
  rw [readTree, skipSpace_cons (by decide)]
  simp [hd, skipSpace_cons (c := '"') (by decide)]

/-- A member at the end of its object. -/
theorem readTreeMembers_quote {fuel depth : Nat} {cs k rest rest' : List Char} {v : Value}
    (hk : readString cs.length.succ cs = some (k, ':' :: rest))
    (hv : readTree number fuel depth rest = some (v, '}' :: rest')) :
    readTreeMembers number (fuel + 1) depth ('"' :: cs) = some ([(String.ofList k, v)], rest') := by
  rw [readTreeMembers, skipSpace_cons (by decide)]
  simp only [hk, Option.bind_eq_bind, Option.bind_some]
  rw [skipSpace_cons (by decide)]
  simp only [hv, Option.bind_some]
  rw [skipSpace_cons (by decide)]
  rfl

end Steps

end Json
