import Outlayer.Lib.Text
import Mathlib.Data.List.Basic
import Mathlib.Data.List.Induction

/-!
# `Lib.TextParts` — texts in parts, texts as bytes, and numbers as texts

Cutting a text at a character or at its end, and going between a text and its UTF-8 bytes. Not every list of bytes is
a text; one that is is the text of one string only. The digits of a number never begin with a superfluous zero.
-/

namespace Text

/-! ## Ends -/

/-- The text ends in another. -/
def endsWith (s suf : String) : Bool := decide (suf.toList <:+ s.toList)

/-- Drop what `p` holds of at the end. -/
def trimEndWhile (p : Char → Bool) (s : String) : String := String.ofList (s.toList.reverse.dropWhile p).reverse

/-- The text without the white space it ends in. -/
def trimEnd (s : String) : String := trimEndWhile isWhitespace s

/-- The first `n` characters. -/
def takeChars (n : Nat) (s : String) : String := String.ofList (s.toList.take n)

/-- The longest beginning of at most `n` bytes that ends between two characters. -/
def floorChars : Nat → List Char → List Char
  | _, []      => []
  | n, c :: cs => if c.utf8Size ≤ n then c :: floorChars (n - c.utf8Size) cs else []

/-! ## Cuts -/

/-- The pieces between the occurrences of `c`: one more than there are. -/
def split (c : Char) (s : String) : List String := (s.toList.splitOn c).map String.ofList

/-- What stands before and after the first occurrence of `c`. -/
def splitOnce (c : Char) (s : String) : Option (String × String) :=
  match s.toList.dropWhile (· ≠ c) with
  | []        => none
  | _ :: rest => some (String.ofList (s.toList.takeWhile (· ≠ c)), String.ofList rest)

/-- `\r\n` becomes `\n`. -/
def joinLineEnds : List Char → List Char
  | []                => []
  | '\r' :: '\n' :: cs => '\n' :: joinLineEnds cs
  | c :: cs           => c :: joinLineEnds cs

/-- The text with its ASCII capitals lowered, every other character kept. -/
def toAsciiLowercase (s : String) : String := String.ofList (s.toList.map Char.toLower)

/-! ## Bytes -/

/-- The bytes of a text. -/
def utf8 (s : String) : List UInt8 := s.toUTF8.data.toList

/-- The text with these bytes, if there is one. -/
def fromUtf8 (bs : List UInt8) : Option String := String.fromUTF8? ⟨bs.toArray⟩

theorem fromUtf8_utf8 (s : String) : fromUtf8 (utf8 s) = some s := by
  have hs : (⟨(utf8 s).toArray⟩ : ByteArray) = s.toByteArray := by simp [utf8]
  rw [fromUtf8, hs, String.fromUTF8?, dif_pos s.isValidUTF8]
  rfl

theorem utf8_inj {s t : String} (h : utf8 s = utf8 t) : s = t := by
  have hread := fromUtf8_utf8 s
  rw [h, fromUtf8_utf8] at hread
  exact (Option.some.inj hread).symm

theorem utf8_of_fromUtf8 {bs : List UInt8} {s : String} (h : fromUtf8 bs = some s) : utf8 s = bs := by
  simp only [fromUtf8, String.fromUTF8?] at h
  split at h
  · obtain rfl := Option.some.inj h
    rfl
  · cases h

/-- Four bytes, the lowest first. -/
def leBytes (n : Nat) : List UInt8 :=
  [UInt8.ofNat n, UInt8.ofNat (n / 2 ^ 8), UInt8.ofNat (n / 2 ^ 16), UInt8.ofNat (n / 2 ^ 24)]

/-- A text with its length in front, as Borsh writes it. -/
def borshText (s : String) : List UInt8 := leBytes s.utf8ByteSize ++ utf8 s

end Text

namespace Decimal

/-- No number but zero begins with a zero. -/
theorem toDigits_head : ∀ n, 0 < n → (Nat.toDigits 10 n).head? ≠ some '0' := by
  intro n
  induction n using Nat.strongRecOn with
  | ind n ih =>
      intro hn
      rcases Nat.lt_or_ge n 10 with hlt | hge
      · have hall : ∀ m, m < 10 → 0 < m → [Nat.digitChar m].head? ≠ some '0' := by decide
        rw [Nat.toDigits_of_lt_base hlt]
        exact hall n hlt hn
      · rw [Nat.toDigits_of_base_le (by decide) hge]
        have hne : Nat.toDigits 10 (n / 10) ≠ [] := Nat.toDigits_ne_nil
        rw [List.head?_append_of_ne_nil _ hne]
        exact ih (n / 10) (by omega) (by omega)

end Decimal
