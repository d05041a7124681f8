import Mathlib.Data.Nat.Digits.Defs
import Mathlib.Algebra.GroupWithZero.Nat
import Mathlib.Data.List.DropRight
import Mathlib.Data.List.Infix

/-!
# `Lib.Text` — the string operations of a systems language

Lengths are byte lengths of the UTF-8 encoding (`String.utf8ByteSize`); classes of characters are decided on
the code point. What depends on the Unicode tables beyond the White_Space property (which is a short closed
list) is kept as a parameter, `Unicode`, with the one documented fact about it that anything here rests on.
-/

namespace Text

/-! ## Character classes -/

/-- The Unicode White_Space property. -/
def isWhitespace (c : Char) : Bool :=
  let n := c.toNat
  (0x09 ≤ n && n ≤ 0x0d) || n == 0x20 || n == 0x85 || n == 0xa0 || n == 0x1680
    || (0x2000 ≤ n && n ≤ 0x200a) || n == 0x2028 || n == 0x2029 || n == 0x202f || n == 0x205f
    || n == 0x3000

/-- The Cc general category. -/
def isControl (c : Char) : Bool := c.toNat < 0x20 || (0x7f ≤ c.toNat && c.toNat ≤ 0x9f)

/-- `lo ≤ c ≤ hi` on code points. -/
def inRange (lo hi c : Char) : Bool := decide (lo.toNat ≤ c.toNat) && decide (c.toNat ≤ hi.toNat)

/-- An ASCII capital. -/
def isAsciiUppercase (c : Char) : Bool := inRange 'A' 'Z' c

/-- An ASCII letter or digit. -/
def isAsciiAlphanumeric (c : Char) : Bool :=
  inRange 'a' 'z' c || inRange 'A' 'Z' c || inRange '0' '9' c

/-- A hexadecimal digit, in either case. -/
def isAsciiHexdigit (c : Char) : Bool :=
  inRange '0' '9' c || inRange 'a' 'f' c || inRange 'A' 'F' c

/-- Hexadecimal digits in the lower-case spelling only. -/
def isLowerHexdigit (c : Char) : Bool := inRange '0' '9' c || inRange 'a' 'f' c

/-- The Unicode tables a standard library carries: the alphanumeric property of a character outside ASCII, how
    a character is printed in a diagnostic, and the lower-case mapping of a character outside ASCII, given what
    stands before it (nearest first) and after it, since the Greek sigma is written differently at the end of
    a word. No lower-case mapping produces an ASCII capital. -/
structure Unicode where
  isAlphanumeric : Char → Bool
  debug : Char → String
  lower : List Char → Char → List Char → List Char
  lower_not_upper : ∀ before c after, ∀ d ∈ lower before c after, isAsciiUppercase d = false

/-- Letters and numbers: ASCII by arithmetic, the rest by the tables. -/
def isAlphanumeric (U : Unicode) (c : Char) : Bool :=
  if c.toNat < 128 then isAsciiAlphanumeric c else U.isAlphanumeric c

/-- Lower-case a character: ASCII by arithmetic, the rest by the tables. -/
def lowerChar (U : Unicode) (before : List Char) (c : Char) (after : List Char) : List Char :=
  if isAsciiUppercase c then [Char.ofNat (c.toNat + 32)]
  else if c.toNat < 128 then [c]
  else U.lower before c after

/-- Lower-case a text of which `before` has been read. -/
def lowerFrom (U : Unicode) (before : List Char) : List Char → List Char
  | []      => []
  | c :: cs => lowerChar U before c cs ++ lowerFrom U (c :: before) cs

/-- The text in lower case, as Unicode lowers it. -/
def toLowercase (U : Unicode) (s : String) : String := String.ofList (lowerFrom U [] s.toList)

/-! ## Trimming -/

/-- Drop the white space on both sides. -/
def trim (s : String) : String :=
  String.ofList (((s.toList.dropWhile isWhitespace).reverse.dropWhile isWhitespace).reverse)

/-! ## Searching -/

/-- The text has another in it. -/
def contains (s pattern : String) : Bool := decide (pattern.toList <:+: s.toList)

/-- The text begins with another. -/
def startsWith (s pre : String) : Bool := decide (pre.toList <+: s.toList)

/-- Equality up to the case of ASCII letters. -/
def eqIgnoreAsciiCase (s t : String) : Bool := decide (s.toList.map Char.toLower = t.toList.map Char.toLower)

/-- What comes after the first occurrence of `pattern`. -/
def afterFirst (pattern : List Char) : List Char → Option (List Char)
  | []      => if pattern = [] then some [] else none
  | c :: cs => if pattern <+: c :: cs then some ((c :: cs).drop pattern.length) else afterFirst pattern cs

/-! ## Cutting and replacing -/

/-- What is left of a text after a prefix, if it has it. -/
def stripPrefix (s pre : String) : Option String :=
  if pre.toList <+: s.toList then some (String.ofList (s.toList.drop pre.toList.length)) else none

/-- What is left of a text before a suffix, if it has it. -/
def stripSuffix (s suf : String) : Option String :=
  if suf.toList <:+ s.toList then some (String.ofList (s.toList.take (s.toList.length - suf.toList.length))) else none

/-- Every occurrence of a character, replaced. -/
def replaceChar (s : String) (c d : Char) : String := String.ofList (s.toList.map fun x => if x = c then d else x)

/-! ## Numbers -/

/-- Parse a decimal number of `w` bits: an optional `+`, then at least one ASCII digit, and no overflow. -/
def parseUnsigned (w : Nat) (s : String) : Option Nat :=
  let digits := match s.toList with
    | '+' :: ds => ds
    | ds        => ds
  if digits ≠ [] ∧ digits.all Char.isDigit ∧ Nat.ofDigitChars 10 digits 0 < 2 ^ w then
    some (Nat.ofDigitChars 10 digits 0)
  else none

/-- Lower-case hexadecimal, padded with zeros to `width`. -/
def formatHex (width n : Nat) : String :=
  String.ofList ((Nat.toDigits 16 n).leftpad width '0')

/-! ## Bytes in hexadecimal -/

/-- The value of a hexadecimal digit. -/
def hexDigitVal (c : Char) : Option Nat :=
  if inRange '0' '9' c then some (c.toNat - '0'.toNat)
  else if inRange 'a' 'f' c then some (c.toNat - 'a'.toNat + 10)
  else if inRange 'A' 'F' c then some (c.toNat - 'A'.toNat + 10)
  else none

/-- Decode pairs of hexadecimal digits, either case; an odd length or any other character is refused. -/
def hexDecodeList : List Char → Option (List UInt8)
  | []           => some []
  | [_]          => none
  | a :: b :: cs => do
      let hi ← hexDigitVal a
      let lo ← hexDigitVal b
      let rest ← hexDecodeList cs
      pure (UInt8.ofNat (hi * 16 + lo) :: rest)

/-- The bytes of a hexadecimal text, two digits a byte. -/
def hexDecode (s : String) : Option (List UInt8) := hexDecodeList s.toList

/-- The two digits of a byte. -/
def hexEncodeByte (b : UInt8) : List Char :=
  [Nat.digitChar (b.toNat / 16), Nat.digitChar (b.toNat % 16)]

/-- The hexadecimal text of some bytes, in lower case. -/
def hexEncode (bs : List UInt8) : String := String.ofList (bs.flatMap hexEncodeByte)

/-! ## Bytes in base 64 -/

/-- The standard alphabet. -/
def base64Digit (n : Nat) : Char :=
  if n < 26 then Char.ofNat ('A'.toNat + n)
  else if n < 52 then Char.ofNat ('a'.toNat + (n - 26))
  else if n < 62 then Char.ofNat ('0'.toNat + (n - 52))
  else if n = 62 then '+' else '/'

/-- Three bytes become four digits; a shorter tail is padded. -/
def base64EncodeList : List UInt8 → List Char
  | []             => []
  | [a]            =>
      [base64Digit (a.toNat / 4), base64Digit (a.toNat % 4 * 16), '=', '=']
  | [a, b]         =>
      [base64Digit (a.toNat / 4), base64Digit (a.toNat % 4 * 16 + b.toNat / 16),
       base64Digit (b.toNat % 16 * 4), '=']
  | a :: b :: c :: bs =>
      base64Digit (a.toNat / 4) :: base64Digit (a.toNat % 4 * 16 + b.toNat / 16)
        :: base64Digit (b.toNat % 16 * 4 + c.toNat / 64) :: base64Digit (c.toNat % 64)
        :: base64EncodeList bs

/-- The padded base64 text of some bytes. -/
def base64Encode (bs : List UInt8) : String := String.ofList (base64EncodeList bs)

/-! ## Bytes in base 58 -/

/-- A digit of the base-58 alphabet. -/
def base58Digit (n : Nat) : Char :=
  "123456789ABCDEFGHJKLMNPQRSTUVWXYZabcdefghijkmnopqrstuvwxyz".toList.getD n '1'

/-- The bytes as one number, with a `1` for every zero byte in front. -/
def base58Encode (bs : List UInt8) : String :=
  let n := bs.foldl (fun n b => 256 * n + b.toNat) 0
  String.ofList ((bs.takeWhile fun b => decide (b = 0)).map (fun _ => '1') ++
    (Nat.digits 58 n).reverse.map base58Digit)

/-! ## Facts -/

private theorem trim_toList (s : String) :
    (trim s).toList = (s.toList.dropWhile isWhitespace).rdropWhile isWhitespace := by
  rw [trim, String.toList_ofList]
  rfl

theorem trim_toList_sublist (s : String) : (trim s).toList.Sublist s.toList := by
  rw [trim_toList]
  exact (List.rdropWhile_prefix isWhitespace _).sublist.trans (List.dropWhile_sublist isWhitespace)

/-- Trimming a trimmed text changes nothing. -/
theorem trim_trim (s : String) : trim (trim s) = trim s := by
  have hlist := trim_toList s
  have hfront : (trim s).toList.dropWhile isWhitespace = (trim s).toList := by
    rw [hlist]
    -- what is left after cutting the end starts as before, with no white space
    obtain ⟨cut, hcut⟩ := List.rdropWhile_prefix isWhitespace (s.toList.dropWhile isWhitespace)
    cases hr : (s.toList.dropWhile isWhitespace).rdropWhile isWhitespace with
    | nil => rfl
    | cons c cs =>
        rw [hr] at hcut
        have hhead := List.head?_dropWhile_not isWhitespace s.toList
        rw [← hcut] at hhead
        simp only [List.cons_append, List.head?_cons] at hhead
        simp [List.dropWhile, hhead]
  have hback : ((trim s).toList.reverse.dropWhile isWhitespace).reverse = (trim s).toList := by
    have h := List.rdropWhile_idempotent isWhitespace (s.toList.dropWhile isWhitespace)
    rw [← hlist] at h
    exact h
  conv_lhs => rw [trim, hfront, hback, String.ofList_toList]

/-- The printed form of a number that fits parses back to it. -/
theorem parseUnsigned_toString {w n : Nat} (h : n < 2 ^ w) :
    parseUnsigned w (toString n) = some n := by
  have hl : (toString n).toList = Nat.toDigits 10 n := Nat.toList_repr
  have hd : ∀ c ∈ Nat.toDigits 10 n, c.isDigit := fun c hc =>
    Nat.isDigit_of_mem_toDigits (by decide) (by decide) hc
  have hplus : (match Nat.toDigits 10 n with | '+' :: ds => ds | ds => ds) = Nat.toDigits 10 n := by
    split
    · next ds he =>
        have := hd '+' (by rw [he]; exact List.mem_cons_self)
        exact absurd this (by decide)
    · rfl
  unfold parseUnsigned
  simp only [hl, hplus, Nat.ofDigitChars_ten_toDigits]
  rw [if_pos]
  exact ⟨Nat.toDigits_ne_nil, List.all_eq_true.mpr hd, h⟩

/-- A parsed number fits its width. -/
theorem parseUnsigned_lt {w n : Nat} {s : String} (h : parseUnsigned w s = some n) : n < 2 ^ w := by
  simp only [parseUnsigned, Option.ite_none_right_eq_some, Option.some.injEq] at h
  obtain ⟨⟨-, -, hlt⟩, rfl⟩ := h
  exact hlt

/-- The width decides whether a text is a number, not which one. -/
theorem parseUnsigned_unique {w w' m n : Nat} {s : String} (h : parseUnsigned w s = some m)
    (h' : parseUnsigned w' s = some n) : m = n := by
  simp only [parseUnsigned, Option.ite_none_right_eq_some, Option.some.injEq] at h h'
  exact h.2.symm.trans h'.2

/-- A printed number parses to itself or not at all. -/
theorem eq_of_parseUnsigned_toString {w m n : Nat} (h : parseUnsigned w (toString n) = some m) : m = n :=
  parseUnsigned_unique h (parseUnsigned_toString Nat.lt_two_pow_self)

/-- A printed number that does not fit the width is not read. -/
theorem parseUnsigned_toString_of_le {w n : Nat} (h : 2 ^ w ≤ n) : parseUnsigned w (toString n) = none := by
  rw [Option.eq_none_iff_forall_ne_some]
  intro m hm
  have hlt := parseUnsigned_lt hm
  rw [eq_of_parseUnsigned_toString hm] at hlt
  omega

theorem toString_nat_inj {m n : Nat} (h : toString m = toString n) : m = n := by
  have hl := congrArg (fun s : String => Nat.ofDigitChars 10 s.toList 0) h
  simpa [Nat.toString_eq_ofList_toDigits] using hl

/-- The number a text of hexadecimal digits spells. -/
def hexValue (l : List Char) : Nat := l.foldl (fun n c => 16 * n + (hexDigitVal c).getD 0) 0

/-- Hexadecimal digits spell the number they were written from. -/
theorem hexValue_toDigits (n : Nat) : hexValue (Nat.toDigits 16 n) = n := by
  have hdigit : ∀ d, d < 16 → (hexDigitVal d.digitChar).getD 0 = d := by decide
  induction n using Nat.base_induction 16 (by decide) with
  | single m hm => simp [hexValue, Nat.toDigits_of_lt_base hm, hdigit m hm]
  | digit m k hk hm ih =>
      rw [← Nat.toDigits_append_toDigits (by decide) hm hk, Nat.toDigits_of_lt_base hk, hexValue,
        List.foldl_append, ← hexValue, ih]
      simp [hdigit k hk]

/-- A number is determined by its hexadecimal form, at any width. -/
theorem formatHex_inj {width m n : Nat} (h : formatHex width m = formatHex width n) : m = n := by
  have hpad : ∀ n, hexValue (formatHex width n).toList = n := by
    intro n
    have hzeros : ∀ k, hexValue (List.replicate k '0') = 0 := by
      intro k
      induction k with
      | zero => rfl
      | succ k ih => exact ih
    rw [formatHex, String.toList_ofList, List.leftpad, hexValue, List.foldl_append, ← hexValue, hzeros,
      ← hexValue, hexValue_toDigits]
  rw [← hpad m, h, hpad n]

/-- A one-character pattern is found exactly where the character is. -/
theorem contains_char {s pattern : String} {c : Char} (hc : pattern.toList = [c]) :
    contains s pattern = true ↔ c ∈ s.toList := by
  rw [contains, hc, decide_eq_true_iff, List.singleton_infix_iff]

/-- Bytes written in hexadecimal read back. -/
theorem hexDecode_hexEncode (bs : List UInt8) : hexDecode (hexEncode bs) = some bs := by
  have hdigit : ∀ d, d < 16 → hexDigitVal d.digitChar = some d := by decide
  have hlist : ∀ bs : List UInt8, hexDecodeList (bs.flatMap hexEncodeByte) = some bs := by
    intro bs
    induction bs with
    | nil => rfl
    | cons b bs ih =>
        have hb := b.toNat_lt
        rw [List.flatMap_cons, hexEncodeByte, List.cons_append, List.cons_append, List.nil_append,
          hexDecodeList, hdigit (b.toNat / 16) (by omega), hdigit (b.toNat % 16) (by omega), ih]
        have hbyte : UInt8.ofNat (b.toNat / 16 * 16 + b.toNat % 16) = b := by
          rw [show b.toNat / 16 * 16 + b.toNat % 16 = b.toNat by omega, UInt8.ofNat_toNat]
        simp only [Option.bind_eq_bind, Option.bind_some, hbyte]
        rfl
  rw [hexDecode, hexEncode, String.toList_ofList, hlist]

theorem hexEncode_inj {a b : List UInt8} (h : hexEncode a = hexEncode b) : a = b := by
  have hdecode := hexDecode_hexEncode a
  rw [h, hexDecode_hexEncode] at hdecode
  exact (Option.some.inj hdecode).symm

theorem toNat_ofNat_of_lt {n : Nat} (h : n < 0xd800) : (Char.ofNat n).toNat = n := by
  have hv : n.isValidChar := Or.inl h
  rw [Char.ofNat, dif_pos hv]
  rfl

/-- Lower-casing a character leaves no ASCII capital. -/
private theorem not_upper_of_mem_lowerChar {U : Unicode} {before after : List Char} {a c : Char}
    (hc : c ∈ lowerChar U before a after) : isAsciiUppercase c = false := by
  unfold lowerChar at hc
  split at hc
  · next hup =>
      rw [List.mem_singleton] at hc
      simp only [isAsciiUppercase, inRange, Char.reduceToNat, Bool.and_eq_true, decide_eq_true_eq] at hup
      have hn : (Char.ofNat (a.toNat + 32)).toNat = a.toNat + 32 := toNat_ofNat_of_lt (by omega)
      rw [hc]
      simp only [isAsciiUppercase, inRange, Char.reduceToNat, hn, Bool.and_eq_false_iff,
        decide_eq_false_iff_not]
      omega
  · next hup =>
      split at hc
      · rw [List.mem_singleton] at hc
        rw [hc]
        simpa using hup
      · exact U.lower_not_upper before a after c hc

private theorem not_upper_of_mem_lowerFrom {U : Unicode} {c : Char} :
    ∀ {before cs : List Char}, c ∈ lowerFrom U before cs → isAsciiUppercase c = false := by
  intro before cs
  induction cs generalizing before with
  | nil => simp [lowerFrom]
  | cons a as ih =>
      intro h
      rcases List.mem_append.mp h with h | h
      · exact not_upper_of_mem_lowerChar h
      · exact ih h

/-- Lower-casing leaves no ASCII capital. -/
theorem not_upper_of_mem_toLowercase {U : Unicode} {s : String} {c : Char}
    (h : c ∈ (toLowercase U s).toList) : isAsciiUppercase c = false := by
  rw [toLowercase, String.toList_ofList] at h
  exact not_upper_of_mem_lowerFrom h

/-- A text of ASCII characters without a capital is its own lower-case form. -/
theorem toLowercase_eq_self {U : Unicode} {s : String}
    (h : ∀ c ∈ s.toList, isAsciiUppercase c = false ∧ c.toNat < 128) : toLowercase U s = s := by
  have hfrom : ∀ (cs before : List Char), (∀ c ∈ cs, isAsciiUppercase c = false ∧ c.toNat < 128) →
      lowerFrom U before cs = cs := by
    intro cs
    induction cs with
    | nil => intros; rfl
    | cons a as ih =>
        intro before hcs
        obtain ⟨hup, hlt⟩ := hcs a List.mem_cons_self
        have ha : lowerChar U before a as = [a] := by simp [lowerChar, hup, hlt]
        rw [lowerFrom, ha, ih (a :: before) (fun c hc => hcs c (List.mem_cons_of_mem a hc))]
        rfl
  rw [toLowercase, hfrom s.toList [] h, String.ofList_toList]

/-- An ASCII character that is no capital survives lower-casing. -/
theorem mem_toLowercase {U : Unicode} {s : String} {c : Char} (hup : isAsciiUppercase c = false)
    (hlt : c.toNat < 128) (h : c ∈ s.toList) : c ∈ (toLowercase U s).toList := by
  have hfrom : ∀ (cs before : List Char), c ∈ cs → c ∈ lowerFrom U before cs := by
    intro cs
    induction cs with
    | nil => exact fun _ hc => absurd hc List.not_mem_nil
    | cons a as ih =>
        intro before hc
        rcases List.mem_cons.mp hc with rfl | hc
        · have ha : lowerChar U before c as = [c] := by simp [lowerChar, hup, hlt]
          rw [lowerFrom, ha]
          exact List.mem_cons_self
        · exact List.mem_append_right _ (ih (a :: before) hc)
  rw [toLowercase, String.toList_ofList]
  exact hfrom s.toList [] h

end Text
