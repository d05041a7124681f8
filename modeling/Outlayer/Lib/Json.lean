import Outlayer.Lib.Text

/-!
# `Lib.Json` — JSON text: a reader, and the compact writer

The reader follows a strict recursive-descent implementation: the four JSON white-space characters, string
escapes with surrogate pairs, no raw control characters, no trailing comma, a recursion limit, and objects as
ordered maps in which a repeated key keeps its last value. Reading a number (which values are in range, and
how they are kept) is a parameter.

Two facts about it are proved for use elsewhere: a string written by `quote` is read back, and a text from
which a string was read is at least as long as what `quote` writes for that string.
-/

namespace Json

/-- A JSON value. A number is kept as its text. -/
inductive Value
  | null
  | bool (b : Bool)
  | num (text : String)
  | str (s : String)
  | arr (elements : List Value)
  | obj (members : List (String × Value))

/-! ## Objects as ordered maps -/

/-- Put a member into an ordered map; an equal key is replaced. -/
def insertMember (k : String) (v : Value) : List (String × Value) → List (String × Value)
  | []          => [(k, v)]
  | (a, b) :: m =>
      if k = a then (k, v) :: m
      else if k < a then (k, v) :: (a, b) :: m
      else (a, b) :: insertMember k v m

/-- The ordered map of a list of members, the last of equal keys winning. -/
def collect (members : List (String × Value)) : List (String × Value) :=
  members.foldl (fun m kv => insertMember kv.1 kv.2 m) []

/-- The member of an object under `key`; anything but an object has none. -/
def Value.get (v : Value) (key : String) : Option Value :=
  match v with
  | .obj m => m.lookup key
  | _      => none

/-- A string. -/
def Value.asStr : Value → Option String
  | .str s => some s
  | _      => none

/-- An array. -/
def Value.asArray : Value → Option (List Value)
  | .arr vs => some vs
  | _       => none

/-- Write a member of an object; anything but an object stays as it is. -/
def Value.set (v : Value) (key : String) (member : Value) : Value :=
  match v with
  | .obj m => .obj (insertMember key member m)
  | _      => v

/-! ## Strings -/

/-- The one-letter escapes. -/
def simpleEscape (c : Char) : Option Char :=
  if c = '"' then some '"'
  else if c = '\\' then some '\\'
  else if c = '/' then some '/'
  else if c = 'b' then some (Char.ofNat 8)
  else if c = 'f' then some (Char.ofNat 12)
  else if c = 'n' then some '\n'
  else if c = 'r' then some '\r'
  else if c = 't' then some '\t'
  else none

/-- Four hexadecimal digits. -/
def readHex4 : List Char → Option (Nat × List Char)
  | a :: b :: c :: d :: cs => do
      let a ← Text.hexDigitVal a
      let b ← Text.hexDigitVal b
      let c ← Text.hexDigitVal c
      let d ← Text.hexDigitVal d
      pure (((a * 16 + b) * 16 + c) * 16 + d, cs)
  | _ => none

/-- The second half of a surrogate pair, itself an escape. -/
def readLowSurrogate (hi : Nat) : List Char → Option (Char × List Char)
  | '\\' :: 'u' :: cs => do
      let (lo, rest) ← readHex4 cs
      if 0xdc00 ≤ lo ∧ lo ≤ 0xdfff then
        pure (Char.ofNat (0x10000 + (hi - 0xd800) * 0x400 + (lo - 0xdc00)), rest)
      else none
  | _ => none

/-- What follows a backslash and a `u`. -/
def readUnicodeEscape (cs : List Char) : Option (Char × List Char) := do
  let (n, rest) ← readHex4 cs
  if 0xd800 ≤ n ∧ n ≤ 0xdbff then readLowSurrogate n rest
  else if 0xdc00 ≤ n ∧ n ≤ 0xdfff then none
  else pure (Char.ofNat n, rest)

/-- One character of a string, raw or escaped. The closing quote is not one. -/
def readChar : List Char → Option (Char × List Char)
  | []      => none
  | c :: cs =>
      if c = '\\' then
        match cs with
        | []      => none
        | e :: cs => if e = 'u' then readUnicodeEscape cs else (simpleEscape e).map fun d => (d, cs)
      else if c = '"' ∨ c.toNat < 0x20 then none
      else some (c, cs)

/-- The rest of a string after its opening quote. Every character takes at least one from the text, so the
    text's length is fuel enough. -/
def readString : Nat → List Char → Option (List Char × List Char)
  | 0, _        => none
  | fuel + 1, cs =>
      if cs.head? = some '"' then some ([], cs.tail)
      else do
        let (c, rest) ← readChar cs
        let (s, rest) ← readString fuel rest
        pure (c :: s, rest)

/-! ## Values -/

/-- JSON's own white space. -/
def isSpace (c : Char) : Bool := c == ' ' || c == '\n' || c == '\t' || c == '\r'

/-- Leaves out the white space in front. -/
def skipSpace (cs : List Char) : List Char := cs.dropWhile isSpace

/-- Drop an exact run of characters. -/
def readLiteral (lit cs : List Char) : Option (List Char) :=
  if lit <+: cs then some (cs.drop lit.length) else none

/-- The longest run of decimal digits; at least one is required. -/
def readDigits (cs : List Char) : Option (List Char × List Char) :=
  match cs.takeWhile Char.isDigit with
  | [] => none
  | ds => some (ds, cs.dropWhile Char.isDigit)

/-- The integer part: `0`, or digits that do not start with `0`. -/
def readInteger (cs : List Char) : Option (List Char × List Char) := do
  let (ds, rest) ← readDigits cs
  if ds.head? = some '0' ∧ ds.length > 1 then none else pure (ds, rest)

/-- An optional fraction. -/
def readFraction (cs : List Char) : Option (List Char × List Char) :=
  match cs with
  | '.' :: rest => (readDigits rest).map fun p => ('.' :: p.1, p.2)
  | _           => some ([], cs)

/-- An optional exponent. -/
def readExponent (cs : List Char) : Option (List Char × List Char) :=
  match cs with
  | e :: rest =>
      if e = 'e' ∨ e = 'E' then
        match rest with
        | '+' :: ds => (readDigits ds).map fun p => (e :: '+' :: p.1, p.2)
        | '-' :: ds => (readDigits ds).map fun p => (e :: '-' :: p.1, p.2)
        | ds        => (readDigits ds).map fun p => (e :: p.1, p.2)
      else some ([], cs)
  | [] => some ([], cs)

/-- An optional minus sign. -/
def readSign : List Char → List Char × List Char
  | '-' :: cs => (['-'], cs)
  | cs        => ([], cs)

/-- The longest number a text starts with. -/
def readNumber (cs : List Char) : Option (List Char × List Char) := do
  let (int, rest) ← readInteger (readSign cs).2
  let (frac, rest) ← readFraction rest
  let (exp, rest) ← readExponent rest
  pure ((readSign cs).1 ++ int ++ frac ++ exp, rest)

/-- How deep arrays and objects may nest, plus one. -/
def recursionLimit : Nat := 128

section Reader
variable (number : String → Option String)

mutual

/-- A value, after any white space. `depth` counts the levels that may still be opened, plus one. -/
def readValue : (fuel depth : Nat) → List Char → Option (Value × List Char)
  | 0, _, _ => none
  | fuel + 1, depth, cs =>
      match skipSpace cs with
      | []      => none
      | c :: cs =>
          if c = 'n' then (readLiteral ['u', 'l', 'l'] cs).map fun r => (.null, r)
          else if c = 't' then (readLiteral ['r', 'u', 'e'] cs).map fun r => (.bool true, r)
          else if c = 'f' then (readLiteral ['a', 'l', 's', 'e'] cs).map fun r => (.bool false, r)
          else if c = '"' then (readString cs.length.succ cs).map fun p => (.str (String.ofList p.1), p.2)
          else if c = '[' then
            if depth ≤ 1 then none
            else if (skipSpace cs).head? = some ']' then some (.arr [], (skipSpace cs).tail)
            else (readElements fuel (depth - 1) cs).map fun p => (.arr p.1, p.2)
          else if c = '{' then
            if depth ≤ 1 then none
            else if (skipSpace cs).head? = some '}' then some (.obj [], (skipSpace cs).tail)
            else (readMembers fuel (depth - 1) cs).map fun p => (.obj (collect p.1), p.2)
          else if c = '-' ∨ c.isDigit then do
            let (lexeme, rest) ← readNumber (c :: cs)
            let n ← number (String.ofList lexeme)
            pure (.num n, rest)
          else none

/-- The elements of an array up to its closing bracket. -/
def readElements : (fuel depth : Nat) → List Char → Option (List Value × List Char)
  | 0, _, _ => none
  | fuel + 1, depth, cs => do
      let (v, rest) ← readValue fuel depth cs
      match skipSpace rest with
      | ',' :: rest => (readElements fuel depth rest).map fun p => (v :: p.1, p.2)
      | ']' :: rest => pure ([v], rest)
      | _           => none

/-- The members of an object up to its closing brace. -/
def readMembers : (fuel depth : Nat) → List Char → Option (List (String × Value) × List Char)
  | 0, _, _ => none
  | fuel + 1, depth, cs =>
      match skipSpace cs with
      | '"' :: cs => do
          let (k, rest) ← readString cs.length.succ cs
          match skipSpace rest with
          | ':' :: rest => do
              let (v, rest) ← readValue fuel depth rest
              match skipSpace rest with
              | ',' :: rest =>
                  (readMembers fuel depth rest).map fun p => ((String.ofList k, v) :: p.1, p.2)
              | '}' :: rest => pure ([(String.ofList k, v)], rest)
              | _           => none
          | _ => none
      | _ => none

end

/-- Read a whole text: one value, then only white space. At most two calls are nested for each character. -/
def parse (text : String) : Option Value := do
  let cs := text.toList
  let (v, rest) ← readValue number (2 * cs.length + 2) recursionLimit cs
  if skipSpace rest = [] then pure v else none

end Reader

/-! ## Writing strings -/

/-- The compact escape of one character. -/
def escapeChar (c : Char) : List Char :=
  if c = '"' then ['\\', '"']
  else if c = '\\' then ['\\', '\\']
  else if c.toNat = 8 then ['\\', 'b']
  else if c.toNat = 9 then ['\\', 't']
  else if c.toNat = 10 then ['\\', 'n']
  else if c.toNat = 12 then ['\\', 'f']
  else if c.toNat = 13 then ['\\', 'r']
  else if c.toNat < 0x20 then ['\\', 'u', '0', '0', Nat.digitChar (c.toNat / 16), Nat.digitChar (c.toNat % 16)]
  else [c]

/-- The characters of a string as they stand between its quotes. -/
def escape (cs : List Char) : List Char := cs.flatMap escapeChar

/-- A string as one JSON value. -/
def quote (s : String) : String := String.ofList ('"' :: (escape s.toList ++ ['"']))

mutual

/-- The compact text of a value. -/
def Value.compact : Value → String
  | .null       => "null"
  | .bool true  => "true"
  | .bool false => "false"
  | .num text   => text
  | .str s      => quote s
  | .arr vs     => "[" ++ compactElements vs ++ "]"
  | .obj ms     => "\x7b" ++ compactMembers ms ++ "\x7d"

/-- The elements of an array, a comma between any two. -/
def compactElements : List Value → String
  | []           => ""
  | [v]          => v.compact
  | v :: v' :: vs => v.compact ++ "," ++ compactElements (v' :: vs)

/-- The members of an object, a comma between any two. -/
def compactMembers : List (String × Value) → String
  | []                => ""
  | [(k, v)]          => quote k ++ ":" ++ v.compact
  | (k, v) :: kv :: ms => quote k ++ ":" ++ v.compact ++ "," ++ compactMembers (kv :: ms)

end

/-! ## Reading back what was written -/

private theorem hexDigitVal_digitChar : ∀ d, d < 16 → Text.hexDigitVal (Nat.digitChar d) = some d := by
  decide

/-- **How a character is escaped**: by one letter, by its code, or not at all. -/
theorem escapeChar_cases (c : Char) :
    (∃ e, escapeChar c = ['\\', e] ∧ simpleEscape e = some c) ∨
    (escapeChar c = ['\\', 'u', '0', '0', Nat.digitChar (c.toNat / 16), Nat.digitChar (c.toNat % 16)] ∧
      c.toNat < 0x20) ∨
    (escapeChar c = [c] ∧ c ≠ '\\' ∧ ¬ (c = '"' ∨ c.toNat < 0x20)) := by
  have hletter {n : Nat} {e : Char} (hn : c.toNat = n) (hread : simpleEscape e = some (Char.ofNat n)) :
      ∃ e', ['\\', e] = ['\\', e'] ∧ simpleEscape e' = some c := by
    refine ⟨e, rfl, ?_⟩
    rw [hread, ← hn, Char.ofNat_toNat]
  unfold escapeChar
  by_cases hquote : c = '"'
  · subst hquote
    exact Or.inl ⟨'"', rfl, by decide⟩
  rw [if_neg hquote]
  by_cases hslash : c = '\\'
  · subst hslash
    exact Or.inl ⟨'\\', rfl, by decide⟩
  rw [if_neg hslash]
  by_cases h8 : c.toNat = 8
  · rw [if_pos h8]
    exact Or.inl (hletter h8 (by decide))
  rw [if_neg h8]
  by_cases h9 : c.toNat = 9
  · rw [if_pos h9]
    exact Or.inl (hletter h9 (by decide))
  rw [if_neg h9]
  by_cases h10 : c.toNat = 10
  · rw [if_pos h10]
    exact Or.inl (hletter h10 (by decide))
  rw [if_neg h10]
  by_cases h12 : c.toNat = 12
  · rw [if_pos h12]
    exact Or.inl (hletter h12 (by decide))
  rw [if_neg h12]
  by_cases h13 : c.toNat = 13
  · rw [if_pos h13]
    exact Or.inl (hletter h13 (by decide))
  rw [if_neg h13]
  by_cases hctl : c.toNat < 0x20
  · rw [if_pos hctl]
    exact Or.inr (Or.inl ⟨rfl, hctl⟩)
  · rw [if_neg hctl]
    exact Or.inr (Or.inr ⟨rfl, hslash, not_or.mpr ⟨hquote, hctl⟩⟩)

/-- One escaped character is read back. -/
theorem readChar_escapeChar (c : Char) (rest : List Char) :
    readChar (escapeChar c ++ rest) = some (c, rest) := by
  rcases escapeChar_cases c with ⟨e, hc, he⟩ | ⟨hc, hlt⟩ | ⟨hc, hslash, hraw⟩
  · have hu : e ≠ 'u' := by
      rintro rfl
      cases he
    rw [hc]
    simp [readChar, hu, he]
  · -- two zero digits, then the code in two hexadecimal digits
    have h0 : Text.hexDigitVal '0' = some 0 := by decide
    have hhi := hexDigitVal_digitChar (c.toNat / 16) (by omega)
    have hlo := hexDigitVal_digitChar (c.toNat % 16) (by omega)
    have hn : c.toNat / 16 * 16 + c.toNat % 16 = c.toNat := by omega
    have h1 : ¬ (55296 ≤ c.toNat ∧ c.toNat ≤ 56319) := by omega
    have h2 : ¬ (56320 ≤ c.toNat ∧ c.toNat ≤ 57343) := by omega
    rw [hc]
    simp [readChar, readUnicodeEscape, readHex4, h0, hhi, hlo, hn, h1, h2]
  · rw [hc]
    show (if c = '\\' then _ else if c = '"' ∨ c.toNat < 0x20 then none else some (c, rest)) = _
    rw [if_neg hslash, if_neg hraw]

/-- An escaped character is at least one, and not a quote. -/
private theorem head_escapeChar (c : Char) : ∃ d cs, escapeChar c = d :: cs ∧ d ≠ '"' := by
  rcases escapeChar_cases c with ⟨e, hc, -⟩ | ⟨hc, -⟩ | ⟨hc, -, hraw⟩
  · exact ⟨_, _, hc, by decide⟩
  · exact ⟨_, _, hc, by decide⟩
  · exact ⟨_, _, hc, (not_or.mp hraw).1⟩

theorem escape_cons_append (c : Char) (cs rest : List Char) :
    escape (c :: cs) ++ rest = escapeChar c ++ (escape cs ++ rest) := by
  rw [escape, List.flatMap_cons, List.append_assoc]
  rfl

/-- A written string is read back, up to and including its closing quote. -/
theorem readString_escape {fuel : Nat} {cs : List Char} (h : cs.length < fuel) (rest : List Char) :
    readString fuel (escape cs ++ '"' :: rest) = some (cs, rest) := by
  induction cs generalizing fuel with
  | nil =>
      obtain ⟨fuel, rfl⟩ : ∃ n, fuel = n + 1 := ⟨fuel - 1, by simp at h; omega⟩
      simp [readString, escape]
  | cons c cs ih =>
      obtain ⟨fuel, rfl⟩ : ∃ n, fuel = n + 1 := ⟨fuel - 1, by simp at h; omega⟩
      obtain ⟨d, ds, hc, hd⟩ := head_escapeChar c
      have hopen : (escapeChar c ++ (escape cs ++ '"' :: rest)).head? ≠ some '"' := by
        rw [hc]
        simpa using hd
      rw [escape_cons_append, readString, if_neg hopen, readChar_escapeChar]
      simp only [Option.bind_eq_bind, Option.bind_some]
      rw [ih (by simpa using h)]
      rfl

/-- Escaping makes no text shorter. -/
theorem length_le_length_escape (cs : List Char) : cs.length ≤ (escape cs).length := by
  induction cs with
  | nil => simp
  | cons c cs ih =>
      obtain ⟨d, ds, hc, -⟩ := head_escapeChar c
      simp only [escape, List.flatMap_cons, List.length_append, List.length_cons, hc] at *
      omega

theorem skipSpace_cons {c : Char} {cs : List Char} (h : isSpace c = false) :
    skipSpace (c :: cs) = c :: cs := by
  simp [skipSpace, List.dropWhile, h]

section Steps
variable {number : String → Option String}

/-- A value that starts with a quote is the string after it. -/
theorem readValue_quote (fuel depth : Nat) (cs : List Char) :
    readValue number (fuel + 1) depth ('"' :: cs)
      = (readString cs.length.succ cs).map fun p => (.str (String.ofList p.1), p.2) := by
  rw [readValue, skipSpace_cons (by decide)]
  rfl

/-- A value that starts with a brace and a quote is the object of its members. -/
theorem readValue_brace_quote {depth : Nat} (h : 1 < depth) (fuel : Nat) (cs : List Char) :
    readValue number (fuel + 1) depth ('{' :: '"' :: cs)
      = (readMembers number fuel (depth - 1) ('"' :: cs)).map fun p => (.obj (collect p.1), p.2) := by
  have hd : ¬ depth ≤ 1 := by omega
  rw [readValue, skipSpace_cons (by decide)]
  simp [hd, skipSpace_cons (c := '"') (by decide)]

/-- A member: its key, a colon, its value, and either the end or more members. -/
theorem readMembers_quote {fuel depth : Nat} {cs k rest rest' : List Char} {v : Value}
    (hk : readString cs.length.succ cs = some (k, ':' :: rest))
    (hv : readValue number fuel depth rest = some (v, '}' :: rest')) :
    readMembers number (fuel + 1) depth ('"' :: cs) = some ([(String.ofList k, v)], rest') := by
  rw [readMembers, skipSpace_cons (by decide)]
  simp only [hk, Option.bind_eq_bind, Option.bind_some]
  rw [skipSpace_cons (by decide)]
  simp only [hv, Option.bind_some]
  rw [skipSpace_cons (by decide)]
  rfl

end Steps

/-- The object of one string member, as compact text. -/
def singleton (key value : String) : String :=
  String.ofList ('{' :: ((quote key).toList ++ ':' :: ((quote value).toList ++ ['}'])))

/-- A quoted string is read back with the fuel its own length gives. -/
theorem readString_quoted (s : String) (rest : List Char) :
    readString (escape s.toList ++ '"' :: rest).length.succ (escape s.toList ++ '"' :: rest)
      = some (s.toList, rest) := by
  have hlen := length_le_length_escape s.toList
  exact readString_escape (by simp; omega) rest

/-- **A one-member object is read back.** -/
theorem parse_singleton (number : String → Option String) (key value : String) :
    parse number (singleton key value) = some (.obj [(key, .str value)]) := by
  have htext : (singleton key value).toList = '{' :: '"' :: (escape key.toList ++ '"' :: ':' :: '"' ::
      (escape value.toList ++ ['"', '}'])) := by
    simp [singleton, quote]
  -- the text is not empty, so the fuel covers the three nested calls
  obtain ⟨fuel, hfuel⟩ : ∃ n, 2 * (singleton key value).toList.length + 2 = n + 3 :=
    ⟨2 * (singleton key value).toList.length - 1, by rw [htext]; simp; omega⟩
  have hvalue : readValue number (fuel + 1) (recursionLimit - 1) ('"' :: (escape value.toList ++ ['"', '}']))
      = some (.str value, ['}']) := by
    rw [readValue_quote, readString_quoted, Option.map_some, String.ofList_toList]
  have hmembers := readMembers_quote (readString_quoted key (':' :: '"' ::
      (escape value.toList ++ ['"', '}']))) hvalue
  rw [String.ofList_toList] at hmembers
  have hobj : readValue number (fuel + 3) recursionLimit (singleton key value).toList
      = some (.obj [(key, .str value)], []) := by
    rw [htext, readValue_brace_quote (by decide), hmembers]
    rfl
  simp only [parse, hfuel, hobj, Option.bind_eq_bind, Option.bind_some]
  rfl

/-! ## How much text a string takes -/

/-- The bytes of a list of characters. -/
def size (cs : List Char) : Nat := (cs.map Char.utf8Size).sum

@[simp] theorem size_nil : size [] = 0 := rfl

@[simp] theorem size_cons (c : Char) (cs : List Char) : size (c :: cs) = c.utf8Size + size cs := rfl

@[simp] theorem size_append (a b : List Char) : size (a ++ b) = size a + size b := by
  simp [size]

theorem size_toList (s : String) : size s.toList = s.utf8ByteSize := by
  have h : ∀ cs : List Char, (String.ofList cs).utf8ByteSize = size cs := by
    intro cs
    induction cs with
    | nil => rfl
    | cons c cs ih => rw [String.ofList_cons, String.utf8ByteSize_append, String.utf8ByteSize_singleton, ih,
        size_cons]
  rw [← h, String.ofList_toList]

/-- The bytes `quote` writes between the quotes. -/
def escapedSize (s : String) : Nat := size (escape s.toList)

private theorem utf8Size_digitChar : ∀ d, d < 16 → (Nat.digitChar d).utf8Size = 1 := by decide

/-- The one-letter escapes. -/
def simpleEscapes : List (Char × Char) :=
  [('"', '"'), ('\\', '\\'), ('/', '/'), ('b', Char.ofNat 8), ('f', Char.ofNat 12), ('n', '\n'), ('r', '\r'),
   ('t', '\t')]

theorem mem_simpleEscapes {e c : Char} (h : simpleEscape e = some c) : (e, c) ∈ simpleEscapes := by
  unfold simpleEscape at h
  repeat'
    split at h
    · cases h
      subst_vars
      decide
  cases h

/-- The one-letter escapes stand for characters that take at most two bytes escaped. -/
private theorem size_simpleEscape_le {e c : Char} (h : simpleEscape e = some c) :
    size (escapeChar c) ≤ 2 ∧ e.utf8Size = 1 := by
  have hall : ∀ p ∈ simpleEscapes, size (escapeChar p.2) ≤ 2 ∧ p.1.utf8Size = 1 := by decide
  exact hall _ (mem_simpleEscapes h)

/-- No character takes more than six bytes escaped. -/
private theorem size_escapeChar_le (c : Char) : size (escapeChar c) ≤ 6 := by
  rcases escapeChar_cases c with ⟨e, -, he⟩ | ⟨hc, hlt⟩ | ⟨hc, -⟩
  · have := size_simpleEscape_le he
    omega
  · have hhi := utf8Size_digitChar (c.toNat / 16) (by omega)
    have hlo := utf8Size_digitChar (c.toNat % 16) (by omega)
    have h1 : '\\'.utf8Size = 1 ∧ 'u'.utf8Size = 1 ∧ '0'.utf8Size = 1 := by decide
    simp only [hc, size_cons, size_nil, hhi, hlo, h1]
    omega
  · have h4 : c.utf8Size ≤ 4 := Char.utf8Size_le_four c
    simp only [hc, size_cons, size_nil]
    omega

private theorem size_dropWhile_le (p : Char → Bool) (cs : List Char) : size (cs.dropWhile p) ≤ size cs := by
  induction cs with
  | nil => simp
  | cons c cs ih =>
      rw [List.dropWhile_cons]
      split
      · rw [size_cons]
        omega
      · exact Nat.le_refl _

private theorem size_drop_le (n : Nat) (cs : List Char) : size (cs.drop n) ≤ size cs := by
  have h : size (cs.take n) + size (cs.drop n) = size cs := by rw [← size_append, List.take_append_drop]
  omega

private theorem readHex4_size {cs rest : List Char} {n : Nat} (h : readHex4 cs = some (n, rest)) :
    size rest + 4 ≤ size cs := by
  unfold readHex4 at h
  split at h
  · next a b c d cs' =>
      simp only [Option.bind_eq_bind, Option.bind_eq_some_iff, Option.pure_def, Option.some.injEq,
        Prod.mk.injEq] at h
      obtain ⟨_, -, _, -, _, -, _, -, -, rfl⟩ := h
      have := Char.utf8Size_pos a
      have := Char.utf8Size_pos b
      have := Char.utf8Size_pos c
      have := Char.utf8Size_pos d
      simp only [size_cons]
      omega
  · cases h

private theorem readLowSurrogate_size {hi : Nat} {cs rest : List Char} {c : Char}
    (h : readLowSurrogate hi cs = some (c, rest)) : size rest ≤ size cs := by
  unfold readLowSurrogate at h
  split at h
  · next cs' =>
      simp only [Option.bind_eq_bind, Option.bind_eq_some_iff] at h
      obtain ⟨⟨lo, rest'⟩, hlo, h⟩ := h
      have := readHex4_size hlo
      simp only [Option.pure_def, Option.ite_none_right_eq_some, Option.some.injEq, Prod.mk.injEq] at h
      obtain ⟨-, -, rfl⟩ := h
      simp only [size_cons]
      omega
  · cases h

private theorem readUnicodeEscape_size {cs rest : List Char} {c : Char}
    (h : readUnicodeEscape cs = some (c, rest)) : size rest + 4 ≤ size cs := by
  simp only [readUnicodeEscape, Option.bind_eq_bind, Option.bind_eq_some_iff] at h
  obtain ⟨⟨n, rest'⟩, hn, h⟩ := h
  have hsize := readHex4_size hn
  simp only at h
  split at h
  · have := readLowSurrogate_size h
    omega
  · split at h
    · cases h
    · cases h
      exact hsize

/-- Reading one character takes at least what escaping it writes. -/
theorem readChar_size {cs rest : List Char} {c : Char} (h : readChar cs = some (c, rest)) :
    size (escapeChar c) + size rest ≤ size cs := by
  unfold readChar at h
  split at h
  · cases h
  · next a cs' =>
      split at h
      · next ha =>
          have h1 : a.utf8Size = 1 := by rw [ha]; decide
          split at h
          · cases h
          · next e cs'' =>
              have he := Char.utf8Size_pos e
              simp only [size_cons, h1]
              split at h
              · have := readUnicodeEscape_size h
                have := size_escapeChar_le c
                omega
              · simp only [Option.map_eq_some_iff, Prod.mk.injEq] at h
                obtain ⟨d, hd, rfl, rfl⟩ := h
                have := size_simpleEscape_le hd
                omega
      · next ha =>
          split at h
          · cases h
          · next hraw =>
              cases h
              -- a raw character is written as it is
              obtain ⟨hq, hctl⟩ := not_or.mp hraw
              have hself : escapeChar c = [c] := by
                unfold escapeChar
                rw [if_neg hq, if_neg ha]
                repeat rw [if_neg (by omega)]
              simp [hself]

private theorem size_escape_cons (c : Char) (cs : List Char) :
    size (escape (c :: cs)) = size (escapeChar c) + size (escape cs) := by
  simp [escape]

/-- Reading a string takes at least what escaping it writes, and the closing quote. -/
theorem readString_size {fuel : Nat} {cs s rest : List Char} (h : readString fuel cs = some (s, rest)) :
    size (escape s) + 1 + size rest ≤ size cs := by
  induction fuel generalizing cs s with
  | zero => simp [readString] at h
  | succ fuel ih =>
      rw [readString] at h
      split at h
      · next hq =>
          obtain ⟨cs', rfl⟩ : ∃ cs', cs = '"' :: cs' := List.head?_eq_some_iff.mp hq
          cases h
          simp [escape]
          decide
      · simp only [Option.bind_eq_bind, Option.bind_eq_some_iff, Option.pure_def, Option.some.injEq,
          Prod.mk.injEq] at h
        obtain ⟨⟨c, mid⟩, hc, ⟨s', rest'⟩, hs, rfl, rfl⟩ := h
        have h1 := readChar_size hc
        have h2 := ih hs
        have hcons := size_escape_cons c s'
        dsimp only at *
        omega

private theorem skipSpace_size (cs : List Char) : size (skipSpace cs) ≤ size cs := size_dropWhile_le _ cs

private theorem readLiteral_size {lit cs rest : List Char} (h : readLiteral lit cs = some rest) :
    size rest ≤ size cs := by
  simp only [readLiteral, Option.ite_none_right_eq_some, Option.some.injEq] at h
  obtain ⟨-, rfl⟩ := h
  exact size_drop_le _ _

private theorem readDigits_size {cs ds rest : List Char} (h : readDigits cs = some (ds, rest)) :
    size rest ≤ size cs := by
  unfold readDigits at h
  split at h
  · cases h
  · cases h
    exact size_dropWhile_le _ _

private theorem readInteger_size {cs ds rest : List Char} (h : readInteger cs = some (ds, rest)) :
    size rest ≤ size cs := by
  simp only [readInteger, Option.bind_eq_bind, Option.bind_eq_some_iff] at h
  obtain ⟨⟨ds', rest'⟩, hd, h⟩ := h
  split at h
  · cases h
  · cases h
    exact readDigits_size hd

private theorem readFraction_size {cs ds rest : List Char} (h : readFraction cs = some (ds, rest)) :
    size rest ≤ size cs := by
  unfold readFraction at h
  split at h
  · simp only [Option.map_eq_some_iff, Prod.mk.injEq] at h
    obtain ⟨⟨ds', rest'⟩, hd, -, rfl⟩ := h
    have := readDigits_size hd
    rw [size_cons]
    dsimp only
    omega
  · cases h
    exact Nat.le_refl _

private theorem readExponent_size {cs ds rest : List Char} (h : readExponent cs = some (ds, rest)) :
    size rest ≤ size cs := by
  unfold readExponent at h
  repeat' split at h
  all_goals first
    | (cases h; exact Nat.le_refl _)
    | skip
  all_goals
    simp only [Option.map_eq_some_iff, Prod.mk.injEq] at h
    obtain ⟨⟨ds', rest'⟩, hd, -, rfl⟩ := h
    have := readDigits_size hd
    simp only [size_cons]
    omega

private theorem readNumber_size {cs ds rest : List Char} (h : readNumber cs = some (ds, rest)) :
    size rest ≤ size cs := by
  simp only [readNumber, Option.bind_eq_bind, Option.bind_eq_some_iff, Option.pure_def, Option.some.injEq,
    Prod.mk.injEq] at h
  obtain ⟨⟨int, cs₁⟩, h1, ⟨frac, cs₂⟩, h2, ⟨exp, cs₃⟩, h3, -, rfl⟩ := h
  have hs1 := readInteger_size h1
  have hs2 := readFraction_size h2
  have hs3 := readExponent_size h3
  have hsign : size (readSign cs).2 ≤ size cs := by
    unfold readSign
    split
    · exact Nat.le_add_left _ _
    · exact Nat.le_refl _
  dsimp only at *
  omega

/-- The bytes a string value is written in; nothing is said of other values. -/
def strSize : Value → Nat
  | .str s => escapedSize s + 2
  | _      => 0

/-- `n` bytes are enough to hold `v`, as far as strings and the string members of an object go: quotes, a
    colon and braces included. -/
def Fits (n : Nat) : Value → Prop
  | .str s => escapedSize s + 2 ≤ n
  | .obj m => ∀ kv ∈ m, escapedSize kv.1 + 2 + 1 + strSize kv.2 + 2 ≤ n
  | _      => True

private theorem Fits.strSize_le {n : Nat} {v : Value} (h : Fits n v) : strSize v ≤ n := by
  cases v with
  | str s => exact h
  | _ => exact Nat.zero_le _

/-- A member of an object one was put into is that one, or was there. -/
theorem mem_insertMember {k : String} {v : Value} {kv : String × Value} :
    ∀ {m : List (String × Value)}, kv ∈ insertMember k v m → kv = (k, v) ∨ kv ∈ m := by
  intro m
  induction m with
  | nil => simp [insertMember]
  | cons ab m ih =>
      intro h
      unfold insertMember at h
      split at h
      · rcases List.mem_cons.mp h with h | h
        · exact Or.inl h
        · exact Or.inr (List.mem_cons_of_mem _ h)
      · split at h
        · rcases List.mem_cons.mp h with h | h
          · exact Or.inl h
          · exact Or.inr h
        · rcases List.mem_cons.mp h with h | h
          · exact Or.inr (h ▸ List.mem_cons_self)
          · exact (ih h).imp id (List.mem_cons_of_mem _)

/-- Collecting members makes up none. -/
theorem mem_of_mem_collect {ms : List (String × Value)} {kv : String × Value} (h : kv ∈ collect ms) :
    kv ∈ ms := by
  have hfold : ∀ (ms m : List (String × Value)),
      kv ∈ ms.foldl (fun m kv => insertMember kv.1 kv.2 m) m → kv ∈ m ∨ kv ∈ ms := by
    intro ms
    induction ms with
    | nil => exact fun m h => Or.inl h
    | cons a ms ih =>
        intro m h
        rcases ih _ h with h | h
        · rcases mem_insertMember h with rfl | h
          · exact Or.inr List.mem_cons_self
          · exact Or.inl h
        · exact Or.inr (List.mem_cons_of_mem _ h)
  exact (hfold ms [] h).resolve_left List.not_mem_nil

/-- What one call of each reader takes from the text: a value at least what it fits into; members, for each
    of them, the quoted key, the colon, the value and the closing brace. -/
private structure Takes (number : String → Option String) (fuel : Nat) : Prop where
  value : ∀ {depth cs v rest}, readValue number fuel depth cs = some (v, rest) →
    ∃ n, Fits n v ∧ n + size rest ≤ size cs
  elements : ∀ {depth cs vs rest}, readElements number fuel depth cs = some (vs, rest) → size rest ≤ size cs
  members : ∀ {depth cs ms rest}, readMembers number fuel depth cs = some (ms, rest) →
    size rest ≤ size cs ∧
      ∀ kv ∈ ms, escapedSize kv.1 + 2 + 1 + strSize kv.2 + 1 + size rest ≤ size cs

section Takes
variable {number : String → Option String} {fuel : Nat}

private theorem takes_value (ih : Takes number fuel) {depth : Nat} {cs rest : List Char} {v : Value}
    (h : readValue number (fuel + 1) depth cs = some (v, rest)) : ∃ n, Fits n v ∧ n + size rest ≤ size cs := by
  have hskip := skipSpace_size cs
  rw [readValue] at h
  split at h
  · cases h
  · next c cs' hcs =>
      rw [hcs, size_cons] at hskip
      have hinner := skipSpace_size cs'
      have htail : size (skipSpace cs').tail ≤ size (skipSpace cs') := by
        rw [← List.drop_one]
        exact size_drop_le _ _
      have hpos := Char.utf8Size_pos c
      have hlit : ∀ {lit : List Char} {w : Value}, Fits 0 w →
          (readLiteral lit cs').map (fun r => (w, r)) = some (v, rest) →
          ∃ n, Fits n v ∧ n + size rest ≤ size cs := by
        intro lit w hw hr
        simp only [Option.map_eq_some_iff, Prod.mk.injEq] at hr
        obtain ⟨_, hr, rfl, rfl⟩ := hr
        have := readLiteral_size hr
        exact ⟨0, hw, by omega⟩
      by_cases hc : c = 'n'
      · rw [if_pos hc] at h
        exact hlit (w := .null) trivial h
      rw [if_neg hc] at h
      by_cases hc : c = 't'
      · rw [if_pos hc] at h
        exact hlit (w := .bool true) trivial h
      rw [if_neg hc] at h
      by_cases hc : c = 'f'
      · rw [if_pos hc] at h
        exact hlit (w := .bool false) trivial h
      rw [if_neg hc] at h
      by_cases hc : c = '"'
      · rw [if_pos hc, Option.map_eq_some_iff] at h
        obtain ⟨⟨s, r⟩, hr, hv⟩ := h
        obtain ⟨rfl, rfl⟩ := Prod.mk.inj hv
        have := readString_size hr
        refine ⟨size (escape s) + 2, ?_, by dsimp only; omega⟩
        simp only [Fits, escapedSize, String.toList_ofList]
        exact Nat.le_refl _
      rw [if_neg hc] at h
      by_cases hc : c = '['
      · rw [if_pos hc] at h
        split at h
        · cases h
        split at h
        · cases h
          exact ⟨0, trivial, by omega⟩
        · rw [Option.map_eq_some_iff] at h
          obtain ⟨⟨vs, r⟩, hr, hv⟩ := h
          obtain ⟨rfl, rfl⟩ := Prod.mk.inj hv
          have := ih.elements hr
          exact ⟨0, trivial, by dsimp only; omega⟩
      rw [if_neg hc] at h
      by_cases hc : c = '{'
      · rw [if_pos hc] at h
        split at h
        · cases h
        split at h
        · cases h
          exact ⟨0, by simp [Fits], by omega⟩
        · rw [Option.map_eq_some_iff] at h
          obtain ⟨⟨ms, r⟩, hr, hv⟩ := h
          obtain ⟨rfl, rfl⟩ := Prod.mk.inj hv
          obtain ⟨hle, hmem⟩ := ih.members hr
          -- the opening brace pays for what the members leave over
          refine ⟨1 + (size cs' - size r), ?_, by dsimp only; omega⟩
          intro kv hkv
          have := hmem kv (mem_of_mem_collect hkv)
          omega
      rw [if_neg hc] at h
      split at h
      · simp only [Option.bind_eq_bind, Option.bind_eq_some_iff, Option.pure_def, Option.some.injEq,
          Prod.mk.injEq] at h
        obtain ⟨⟨lexeme, r⟩, hr, _, -, rfl, rfl⟩ := h
        have := readNumber_size hr
        rw [size_cons] at this
        exact ⟨0, trivial, by dsimp only; omega⟩
      · cases h

private theorem takes_elements (ih : Takes number fuel) {depth : Nat} {cs rest : List Char}
    {vs : List Value} (h : readElements number (fuel + 1) depth cs = some (vs, rest)) :
    size rest ≤ size cs := by
  simp only [readElements, Option.bind_eq_bind, Option.bind_eq_some_iff] at h
  obtain ⟨⟨v, mid⟩, hv, h⟩ := h
  obtain ⟨n, -, hn⟩ := ih.value hv
  have hskip := skipSpace_size mid
  dsimp only at h
  split at h
  · next r hr =>
      simp only [Option.map_eq_some_iff, Prod.mk.injEq] at h
      obtain ⟨⟨ws, r'⟩, he, -, rfl⟩ := h
      have := ih.elements he
      rw [hr, size_cons] at hskip
      dsimp only
      omega
  · next r hr =>
      cases h
      rw [hr, size_cons] at hskip
      omega
  · cases h

private theorem takes_members (ih : Takes number fuel) {depth : Nat} {cs rest : List Char}
    {ms : List (String × Value)} (h : readMembers number (fuel + 1) depth cs = some (ms, rest)) :
    size rest ≤ size cs ∧
      ∀ kv ∈ ms, escapedSize kv.1 + 2 + 1 + strSize kv.2 + 1 + size rest ≤ size cs := by
  have hskip := skipSpace_size cs
  have h1 : ∀ c : Char, 1 ≤ c.utf8Size := Char.utf8Size_pos
  rw [readMembers] at h
  split at h
  · next cs' hcs =>
      rw [hcs, size_cons] at hskip
      simp only [Option.bind_eq_bind, Option.bind_eq_some_iff] at h
      obtain ⟨⟨k, mid⟩, hk, h⟩ := h
      have hkey := readString_size hk
      have hskip₁ := skipSpace_size mid
      have hquote := h1 '"'
      dsimp only at h
      split at h
      · next r hr =>
          rw [hr, size_cons] at hskip₁
          have hcolon := h1 ':'
          simp only [Option.bind_eq_some_iff] at h
          obtain ⟨⟨v, mid'⟩, hv, h⟩ := h
          obtain ⟨n, hfits, hn⟩ := ih.value hv
          have hval := hfits.strSize_le
          have hskip₂ := skipSpace_size mid'
          have hesc : escapedSize (String.ofList k) = size (escape k) := by simp [escapedSize]
          dsimp only at h
          split at h
          · next r' hr' =>
              rw [hr', size_cons] at hskip₂
              have hcomma := h1 ','
              simp only [Option.map_eq_some_iff, Prod.mk.injEq] at h
              obtain ⟨⟨ms', r''⟩, hms, rfl, rfl⟩ := h
              obtain ⟨hle, hmem⟩ := ih.members hms
              dsimp only at *
              refine ⟨by omega, ?_⟩
              intro kv hkv
              rcases List.mem_cons.mp hkv with rfl | hkv
              · dsimp only
                omega
              · have := hmem kv hkv
                omega
          · next r' hr' =>
              rw [hr', size_cons] at hskip₂
              have hbrace := h1 '}'
              cases h
              refine ⟨by omega, ?_⟩
              intro kv hkv
              obtain rfl := List.mem_singleton.mp hkv
              dsimp only
              omega
          · cases h
      · cases h
  · cases h

private theorem takes (number : String → Option String) (fuel : Nat) : Takes number fuel := by
  induction fuel with
  | zero =>
      constructor
      · intro _ _ _ _ h
        simp [readValue] at h
      · intro _ _ _ _ h
        simp [readElements] at h
      · intro _ _ _ _ h
        simp [readMembers] at h
  | succ fuel ih => exact ⟨takes_value ih, takes_elements ih, takes_members ih⟩

end Takes

/-- **A text that is an object with a string member is at least as long as that object alone.** -/
theorem escapedSize_le_of_parse {number : String → Option String} {text key s : String} {v : Value}
    (h : parse number text = some v) (hget : v.get key = some (.str s)) :
    escapedSize key + escapedSize s + 7 ≤ text.utf8ByteSize := by
  simp only [parse, Option.bind_eq_bind, Option.bind_eq_some_iff] at h
  obtain ⟨⟨v', rest⟩, hv, h⟩ := h
  obtain ⟨n, hfits, hn⟩ := (takes number _).value hv
  rw [size_toList] at hn
  dsimp only at h
  split at h
  · cases h
    cases v with
    | obj m =>
        obtain ⟨l₁, l₂, hm, -⟩ := List.lookup_eq_some_iff.mp hget
        have hmem : (key, Value.str s) ∈ m := hm ▸ List.mem_append_right _ List.mem_cons_self
        have := hfits (key, .str s) hmem
        simp only [strSize] at this
        omega
    | _ => cases hget
  · cases h

/-- A part of a string takes no more than the whole. -/
theorem escapedSize_le_of_sublist {s t : String} (h : s.toList.Sublist t.toList) :
    escapedSize s ≤ escapedSize t := by
  unfold escapedSize
  generalize s.toList = a at h ⊢
  generalize t.toList = b at h ⊢
  induction h with
  | slnil => exact Nat.le_refl _
  | cons c _ ih =>
      rw [size_escape_cons]
      omega
  | cons_cons c _ ih =>
      rw [size_escape_cons, size_escape_cons]
      omega

/-- The text of a one-member object is exactly as long as the bound says. -/
theorem size_singleton (key value : String) :
    (singleton key value).utf8ByteSize = escapedSize key + escapedSize value + 7 := by
  have h1 : '"'.utf8Size = 1 ∧ '{'.utf8Size = 1 ∧ ':'.utf8Size = 1 ∧ '}'.utf8Size = 1 := by decide
  rw [← size_toList]
  simp only [singleton, quote, String.toList_ofList, size_cons, size_append, size_nil, h1, escapedSize]
  omega

end Json
