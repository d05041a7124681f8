import Outlayer.Lib.Json

/-!
# `Lib.JsonText` — the compact JSON writer, and what can be read off its output

`write d rest` is the compact text of the document `d` followed by `rest`. Two facts make such a text safe inside
a longer one: the text of a document can be split off the front of whatever it opens (`write_inj`), and a colon
that introduces a named value is preceded by a quote (`colonsOk_write`), so a document is never mistaken for the
end of another one.
-/

namespace Json

/-- A document of strings, arrays and objects. -/
inductive Doc
  | null
  | str (s : String)
  | arr (items : List Doc)
  | obj (members : List (String × Doc))

/-- A string in quotes, followed by `rest`. -/
def writeString (s : String) (rest : List Char) : List Char := '"' :: (escape s.toList ++ '"' :: rest)

mutual

/-- The compact text of a document, followed by `rest`. -/
def write : Doc → List Char → List Char
  | .null, rest        => 'n' :: 'u' :: 'l' :: 'l' :: rest
  | .str s, rest       => writeString s rest
  | .arr items, rest   => '[' :: writeItems items (']' :: rest)
  | .obj members, rest => '{' :: writeMembers members ('}' :: rest)

/-- Writes the elements of an array, a comma between any two. -/
def writeItems : List Doc → List Char → List Char
  | [], rest           => rest
  | [d], rest          => write d rest
  | d :: e :: ds, rest => write d (',' :: writeItems (e :: ds) rest)

/-- Writes the members of an object, a comma between any two. -/
def writeMembers : List (String × Doc) → List Char → List Char
  | [], rest                => rest
  | [(k, d)], rest          => writeString k (':' :: write d rest)
  | (k, d) :: m :: ms, rest => writeString k (':' :: write d (',' :: writeMembers (m :: ms) rest))

end

theorem quote_toList_append (s : String) (rest : List Char) : (quote s).toList ++ rest = writeString s rest := by
  simp [quote, writeString]

/-! ## Splitting a document off -/

/-- A quoted string ends at its own closing quote. -/
theorem writeString_inj {s t : String} {rest rest' : List Char} (h : writeString s rest = writeString t rest') :
    s = t ∧ rest = rest' := by
  have hbody := (List.cons.inj h).2
  -- fuel for the longer of the two reads both
  have hsFuel : s.toList.length < max s.toList.length t.toList.length + 1 := by omega
  have htFuel : t.toList.length < max s.toList.length t.toList.length + 1 := by omega
  have hs := readString_escape hsFuel rest
  have ht := readString_escape htFuel rest'
  rw [hbody, ht] at hs
  obtain ⟨hst, hrest⟩ := Prod.mk.inj (Option.some.inj hs)
  exact ⟨(String.toList_inj.mp hst).symm, hrest.symm⟩

/-- The first character of a document. -/
def Doc.head : Doc → Char
  | .null  => 'n'
  | .str _ => '"'
  | .arr _ => '['
  | .obj _ => '{'

theorem head_write (d : Doc) (rest : List Char) : (write d rest).head? = some d.head := by
  cases d <;> rfl

/-- No document starts with a closing bracket. -/
theorem write_ne_close {d : Doc} {rest rest' : List Char} : write d rest ≠ ']' :: rest' := by
  intro h
  have hhead := head_write d rest
  rw [h] at hhead
  cases d <;> cases hhead

mutual

/-- **The text of a document can be split off.** -/
theorem write_inj : ∀ {d d' : Doc} {rest rest' : List Char}, write d rest = write d' rest' → d = d' ∧ rest = rest'
  | .null, d', rest, rest', h => by
      cases d' with
      | null =>
          simp only [write, List.cons.injEq, true_and] at h
          exact ⟨rfl, h⟩
      | _ => cases h
  | .str s, d', rest, rest', h => by
      cases d' with
      | str s' =>
          obtain ⟨rfl, hrest⟩ := writeString_inj h
          exact ⟨rfl, hrest⟩
      | _ => cases h
  | .arr items, d', rest, rest', h => by
      cases d' with
      | arr items' =>
          obtain ⟨rfl, hrest⟩ := writeItems_inj (List.cons.inj h).2
          exact ⟨rfl, hrest⟩
      | _ => cases h
  | .obj members, d', rest, rest', h => by
      cases d' with
      | obj members' =>
          obtain ⟨rfl, hrest⟩ := writeMembers_inj (List.cons.inj h).2
          exact ⟨rfl, hrest⟩
      | _ => cases h

theorem writeItems_inj : ∀ {ds ds' : List Doc} {rest rest' : List Char},
    writeItems ds (']' :: rest) = writeItems ds' (']' :: rest') → ds = ds' ∧ rest = rest'
  | [], ds', rest, rest', h => by
      match ds' with
      | []          => exact ⟨rfl, (List.cons.inj h).2⟩
      | [_]         => exact absurd h.symm write_ne_close
      | _ :: _ :: _ => exact absurd h.symm write_ne_close
  | [d], ds', rest, rest', h => by
      match ds' with
      | []          => exact absurd h write_ne_close
      | [_]         =>
          obtain ⟨rfl, hrest⟩ := write_inj h
          exact ⟨rfl, (List.cons.inj hrest).2⟩
      | _ :: _ :: _ =>
          obtain ⟨-, hrest⟩ := write_inj h
          cases hrest
  | d :: e :: ds, ds', rest, rest', h => by
      match ds' with
      | []          => exact absurd h write_ne_close
      | [_]         =>
          obtain ⟨-, hrest⟩ := write_inj h
          cases hrest
      | _ :: _ :: _ =>
          obtain ⟨rfl, hrest⟩ := write_inj h
          obtain ⟨hds, hrest⟩ := writeItems_inj (List.cons.inj hrest).2
          exact ⟨by rw [hds], hrest⟩

theorem writeMembers_inj : ∀ {ms ms' : List (String × Doc)} {rest rest' : List Char},
    writeMembers ms ('}' :: rest) = writeMembers ms' ('}' :: rest') → ms = ms' ∧ rest = rest'
  | [], ms', rest, rest', h => by
      match ms' with
      | []               => exact ⟨rfl, (List.cons.inj h).2⟩
      | [(_, _)]         => cases h
      | (_, _) :: _ :: _ => cases h
  | [(k, d)], ms', rest, rest', h => by
      match ms' with
      | []               => cases h
      | [(_, _)]         =>
          obtain ⟨rfl, hd⟩ := writeString_inj h
          obtain ⟨rfl, hrest⟩ := write_inj (List.cons.inj hd).2
          exact ⟨rfl, (List.cons.inj hrest).2⟩
      | (_, _) :: _ :: _ =>
          obtain ⟨-, hd⟩ := writeString_inj h
          obtain ⟨-, hrest⟩ := write_inj (List.cons.inj hd).2
          cases hrest
  | (k, d) :: m :: ms, ms', rest, rest', h => by
      match ms' with
      | []               => cases h
      | [(_, _)]         =>
          obtain ⟨-, hd⟩ := writeString_inj h
          obtain ⟨-, hrest⟩ := write_inj (List.cons.inj hd).2
          cases hrest
      | (_, _) :: _ :: _ =>
          obtain ⟨rfl, hd⟩ := writeString_inj h
          obtain ⟨rfl, hrest⟩ := write_inj (List.cons.inj hd).2
          obtain ⟨hms, hrest⟩ := writeMembers_inj (List.cons.inj hrest).2
          exact ⟨by rw [hms], hrest⟩

end

/-! ## Colons -/

/-- A text that opens like a name: `"` and a letter. -/
def OpensName : List Char → Prop
  | '"' :: c :: _ => c.isAlpha = true
  | _             => False

/-- A text that opens like a named value: a name, or an object whose first member is named. -/
def OpensNamed : List Char → Prop
  | '{' :: cs => OpensName cs
  | cs        => OpensName cs

/-- Every colon before a named value is preceded by a quote, `prev` standing before the text. -/
def ColonsOk (prev : Char) : List Char → Prop
  | []      => True
  | c :: cs => (c = ':' → OpensNamed cs → prev = '"') ∧ ColonsOk c cs

/-- What can follow a document: no letter, and its colons in order whatever stands before it. -/
structure Calm (cs : List Char) : Prop where
  no_letter : ∀ c, cs.head? = some c → c.isAlpha = false
  colons : ∀ prev, ColonsOk prev cs

theorem calm_nil : Calm [] := ⟨nofun, fun _ => trivial⟩

/-- A separator keeps a text calm. -/
theorem Calm.cons {cs : List Char} {c : Char} (h : ColonsOk c cs) (letter : c.isAlpha = false) (colon : c ≠ ':') :
    Calm (c :: cs) where
  no_letter := by
    intro d hd
    obtain rfl := Option.some.inj hd
    exact letter
  colons _ := ⟨fun hc => absurd hc colon, h⟩

theorem colonsOk_append_of_not_mem {l cs : List Char} (hl : ':' ∉ l) (h : ∀ prev, ColonsOk prev cs) (prev : Char) :
    ColonsOk prev (l ++ cs) := by
  induction l generalizing prev with
  | nil => exact h prev
  | cons c l ih =>
      refine ⟨fun hc => ?_, ih (fun hm => hl (List.mem_cons_of_mem c hm)) c⟩
      exact absurd (hc ▸ List.mem_cons_self) hl

/-- An escaped character stands for itself, or holds no colon. -/
theorem escapeChar_colon (c : Char) :
    escapeChar c = [c] ∧ c ≠ '"' ∨ ':' ∉ escapeChar c ∧ (escapeChar c).head? = some '\\' := by
  have hdigit : ∀ d, d < 16 → Nat.digitChar d ≠ ':' := by decide
  rcases escapeChar_cases c with ⟨e, hc, he⟩ | ⟨hc, hlt⟩ | ⟨hc, -, hraw⟩
  · have hcolon : e ≠ ':' := by
      rintro rfl
      cases he
    rw [hc]
    exact Or.inr ⟨by simp [hcolon.symm], rfl⟩
  · have hhi := hdigit (c.toNat / 16) (by omega)
    have hlo := hdigit (c.toNat % 16) (by omega)
    rw [hc]
    exact Or.inr ⟨by simp [hhi.symm, hlo.symm], rfl⟩
  · exact Or.inl ⟨hc, (not_or.mp hraw).1⟩

/-- The rest of a quoted string opens no name: only its closing quote is a bare quote, and no letter follows. -/
theorem not_opensName_escape {rest : List Char} (h : ∀ c, rest.head? = some c → c.isAlpha = false)
    (cs : List Char) : ¬ OpensName (escape cs ++ '"' :: rest) := by
  cases cs with
  | nil =>
      intro hopens
      cases rest with
      | nil => exact hopens
      | cons c rest =>
          have hletter : c.isAlpha = true := hopens
          rw [h c rfl] at hletter
          cases hletter
  | cons c cs =>
      rw [escape_cons_append]
      rcases escapeChar_colon c with ⟨hraw, hne⟩ | ⟨-, hhead⟩
      · rw [hraw]
        intro hopens
        unfold OpensName at hopens
        split at hopens
        · next heq => exact hne (List.cons.inj heq).1
        · exact hopens
      · obtain ⟨tail, htail⟩ := List.head?_eq_some_iff.mp hhead
        rw [htail]
        exact id

theorem not_opensNamed_escape {rest : List Char} (h : ∀ c, rest.head? = some c → c.isAlpha = false)
    (cs : List Char) : ¬ OpensNamed (escape cs ++ '"' :: rest) := by
  intro hopens
  unfold OpensNamed at hopens
  split at hopens
  · next tail heq =>
      -- the brace is the first character of the string, and the name would start inside the string
      cases cs with
      | nil => cases heq
      | cons c cs =>
          rw [escape_cons_append] at heq
          rcases escapeChar_colon c with ⟨hraw, -⟩ | ⟨-, hhead⟩
          · rw [hraw] at heq
            obtain ⟨-, rfl⟩ := List.cons.inj heq
            exact not_opensName_escape h cs hopens
          · obtain ⟨tail', htail⟩ := List.head?_eq_some_iff.mp hhead
            rw [htail] at heq
            exact absurd (List.cons.inj heq).1 (by decide)
  · exact not_opensName_escape h cs hopens

/-- **A quoted string.** Its own colons stand before no named value. -/
theorem colonsOk_writeString (s : String) {rest : List Char}
    (letter : ∀ c, rest.head? = some c → c.isAlpha = false) (h : ColonsOk '"' rest) (prev : Char) :
    ColonsOk prev (writeString s rest) := by
  have hbody : ∀ (cs : List Char) (prev : Char), ColonsOk prev (escape cs ++ '"' :: rest) := by
    intro cs
    induction cs with
    | nil => exact fun prev => ⟨fun hc => absurd hc (by decide), h⟩
    | cons c cs ih =>
        intro prev
        rw [escape_cons_append]
        rcases escapeChar_colon c with ⟨hraw, -⟩ | ⟨hcolon, -⟩
        · rw [hraw]
          exact ⟨fun _ hopens => absurd hopens (not_opensNamed_escape letter cs), ih c⟩
        · exact colonsOk_append_of_not_mem hcolon ih prev
  exact ⟨fun hc => absurd hc (by decide), hbody s.toList '"'⟩

/-- The name of a member, and the colon after it. -/
theorem colonsOk_name (k : String) {rest : List Char} (h : ColonsOk ':' rest) (prev : Char) :
    ColonsOk prev (writeString k (':' :: rest)) := by
  have hcolon : ColonsOk '"' (':' :: rest) := ⟨fun _ _ => rfl, h⟩
  refine colonsOk_writeString k ?_ hcolon prev
  intro c hc
  obtain rfl := Option.some.inj hc
  decide

mutual

/-- **In a document, a colon before a named value is preceded by a quote.** -/
theorem colonsOk_write : ∀ (d : Doc) {rest : List Char}, Calm rest → ∀ prev, ColonsOk prev (write d rest)
  | .null, _, h, prev => colonsOk_append_of_not_mem (l := ['n', 'u', 'l', 'l']) (by decide) h.colons prev
  | .str s, _, h, prev => colonsOk_writeString s h.no_letter (h.colons '"') prev
  | .arr items, _, h, _ =>
      ⟨fun hc => absurd hc (by decide),
        colonsOk_writeItems items (Calm.cons (h.colons ']') (by decide) (by decide)) '['⟩
  | .obj members, _, h, _ =>
      ⟨fun hc => absurd hc (by decide),
        colonsOk_writeMembers members (Calm.cons (h.colons '}') (by decide) (by decide)) '{'⟩

theorem colonsOk_writeItems : ∀ (ds : List Doc) {rest : List Char}, Calm rest →
    ∀ prev, ColonsOk prev (writeItems ds rest)
  | [], _, h, prev => h.colons prev
  | [d], _, h, prev => colonsOk_write d h prev
  | d :: e :: ds, _, h, prev =>
      colonsOk_write d (Calm.cons (colonsOk_writeItems (e :: ds) h ',') (by decide) (by decide)) prev

theorem colonsOk_writeMembers : ∀ (ms : List (String × Doc)) {rest : List Char}, Calm rest →
    ∀ prev, ColonsOk prev (writeMembers ms rest)
  | [], _, h, prev => h.colons prev
  | [(k, d)], _, h, prev =>
      colonsOk_name k (colonsOk_write d h ':') prev
  | (k, d) :: m :: ms, _, h, prev =>
      colonsOk_name k (colonsOk_write d
        (Calm.cons (colonsOk_writeMembers (m :: ms) h ',') (by decide) (by decide)) ':') prev

end

/-- What the order of colons says about one of them. -/
theorem ColonsOk.at_split {prev c : Char} {l cs : List Char} (h : ColonsOk prev (l ++ c :: ':' :: cs))
    (hopens : OpensNamed cs) : c = '"' := by
  induction l generalizing prev with
  | nil => exact h.2.1 rfl hopens
  | cons d l ih => exact ih h.2

end Json
