import Outlayer.Lib.Text

/-!
# `Lib.Base64` — bytes in base 64, read back

The standard form tells its bytes (`base64Encode_inj`) and holds nothing but its alphabet and the padding. The form for
URLs is read without padding, and only where the bits that are left over are zero.
-/

namespace Text

/-! ## Digits -/

theorem base64Digit_inj : ∀ {m n : Nat}, m < 64 → n < 64 → base64Digit m = base64Digit n → m = n := by
  have hall : ∀ m < 64, ∀ n < 64, base64Digit m = base64Digit n → m = n := by decide +kernel
  intro m n hm hn h
  exact hall m hm n hn h

/-- The characters of the standard form. -/
def isBase64Char (c : Char) : Bool := isAsciiAlphanumeric c || c == '+' || c == '/' || c == '='

theorem isBase64Char_digit {n : Nat} (h : n < 64) : isBase64Char (base64Digit n) = true := by
  have hall : ∀ n < 64, isBase64Char (base64Digit n) = true := by decide +kernel
  exact hall n h

theorem base64Digit_ne_pad {n : Nat} (h : n < 64) : base64Digit n ≠ '=' := by
  have hall : ∀ n < 64, base64Digit n ≠ '=' := by decide +kernel
  exact hall n h

/-! ## The standard form -/

theorem mem_base64EncodeList {bs : List UInt8} {c : Char} (h : c ∈ base64EncodeList bs) : isBase64Char c = true := by
  induction bs using base64EncodeList.induct with
  | case1 => cases h
  | case2 a =>
      have ha := a.toNat_lt
      simp only [base64EncodeList, List.mem_cons, List.not_mem_nil, or_false] at h
      rcases h with rfl | rfl | rfl | rfl
      · exact isBase64Char_digit (by omega)
      · exact isBase64Char_digit (by omega)
      · rfl
      · rfl
  | case3 a b =>
      have ha := a.toNat_lt
      have hb := b.toNat_lt
      simp only [base64EncodeList, List.mem_cons, List.not_mem_nil, or_false] at h
      rcases h with rfl | rfl | rfl | rfl
      · exact isBase64Char_digit (by omega)
      · exact isBase64Char_digit (by omega)
      · exact isBase64Char_digit (by omega)
      · rfl
  | case4 a b c bs ih =>
      have ha := a.toNat_lt
      have hb := b.toNat_lt
      have hc := c.toNat_lt
      simp only [base64EncodeList, List.mem_cons] at h
      rcases h with rfl | rfl | rfl | rfl | h
      · exact isBase64Char_digit (by omega)
      · exact isBase64Char_digit (by omega)
      · exact isBase64Char_digit (by omega)
      · exact isBase64Char_digit (by omega)
      · exact ih h

theorem toNat_inj_of_parts {a b : UInt8} {k : Nat} (hdiv : a.toNat / k = b.toNat / k)
    (hmod : a.toNat % k = b.toNat % k) : a = b := by
  apply UInt8.toNat_inj.mp
  rw [← Nat.div_add_mod a.toNat k, hdiv, hmod, Nat.div_add_mod]

/-- Four digits tell the three bytes they are of. -/
theorem quantum_inj {a b c a' b' c' : UInt8} (h₁ : base64Digit (a.toNat / 4) = base64Digit (a'.toNat / 4))
    (h₂ : base64Digit (a.toNat % 4 * 16 + b.toNat / 16) = base64Digit (a'.toNat % 4 * 16 + b'.toNat / 16))
    (h₃ : base64Digit (b.toNat % 16 * 4 + c.toNat / 64) = base64Digit (b'.toNat % 16 * 4 + c'.toNat / 64))
    (h₄ : base64Digit (c.toNat % 64) = base64Digit (c'.toNat % 64)) : a = a' ∧ b = b' ∧ c = c' := by
  have ha := a.toNat_lt
  have hb := b.toNat_lt
  have hc := c.toNat_lt
  have ha' := a'.toNat_lt
  have hb' := b'.toNat_lt
  have hc' := c'.toNat_lt
  have e₁ := base64Digit_inj (by omega) (by omega) h₁
  have e₂ := base64Digit_inj (by omega) (by omega) h₂
  have e₃ := base64Digit_inj (by omega) (by omega) h₃
  have e₄ := base64Digit_inj (by omega) (by omega) h₄
  exact ⟨toNat_inj_of_parts e₁ (by omega), toNat_inj_of_parts (k := 16) (by omega) (by omega),
    toNat_inj_of_parts (k := 64) (by omega) e₄⟩

/-- The padding at the end is no digit. -/
theorem pad_ne_digit {n : Nat} (h : n < 64) : '=' ≠ base64Digit n := (base64Digit_ne_pad h).symm

theorem base64EncodeList_inj {bs bs' : List UInt8} (h : base64EncodeList bs = base64EncodeList bs') : bs = bs' := by
  induction bs using base64EncodeList.induct generalizing bs' with
  | case1 =>
      rcases bs' with _ | ⟨a', _ | ⟨b', _ | ⟨c', bs'⟩⟩⟩
      · rfl
      · cases h
      · cases h
      · cases h
  | case2 a =>
      have ha := a.toNat_lt
      rcases bs' with _ | ⟨a', _ | ⟨b', _ | ⟨c', bs'⟩⟩⟩
      · cases h
      · have ha' := a'.toNat_lt
        simp only [base64EncodeList, List.cons.injEq, and_true] at h
        have e₁ := base64Digit_inj (by omega) (by omega) h.1
        have e₂ := base64Digit_inj (by omega) (by omega) h.2
        rw [toNat_inj_of_parts e₁ (by omega)]
      · simp only [base64EncodeList, List.cons.injEq] at h
        exact absurd h.2.2.1 (pad_ne_digit (by omega))
      · have hc' := c'.toNat_lt
        simp only [base64EncodeList, List.cons.injEq] at h
        exact absurd h.2.2.1 (pad_ne_digit (by omega))
  | case3 a b =>
      have ha := a.toNat_lt
      have hb := b.toNat_lt
      rcases bs' with _ | ⟨a', _ | ⟨b', _ | ⟨c', bs'⟩⟩⟩
      · cases h
      · simp only [base64EncodeList, List.cons.injEq] at h
        exact absurd h.2.2.1.symm (pad_ne_digit (by omega))
      · have ha' := a'.toNat_lt
        have hb' := b'.toNat_lt
        simp only [base64EncodeList, List.cons.injEq, and_true] at h
        have e₁ := base64Digit_inj (by omega) (by omega) h.1
        have e₂ := base64Digit_inj (by omega) (by omega) h.2.1
        have e₃ := base64Digit_inj (by omega) (by omega) h.2.2
        rw [toNat_inj_of_parts (k := 4) (a := a) (b := a') e₁ (by omega),
          toNat_inj_of_parts (k := 16) (a := b) (b := b') (by omega) (by omega)]
      · simp only [base64EncodeList, List.cons.injEq] at h
        exact absurd h.2.2.2.1 (pad_ne_digit (by omega))
  | case4 a b c bs ih =>
      have hb := b.toNat_lt
      have hc := c.toNat_lt
      rcases bs' with _ | ⟨a', _ | ⟨b', _ | ⟨c', bs'⟩⟩⟩
      · cases h
      · simp only [base64EncodeList, List.cons.injEq] at h
        exact absurd h.2.2.1.symm (pad_ne_digit (by omega))
      · simp only [base64EncodeList, List.cons.injEq] at h
        exact absurd h.2.2.2.1.symm (pad_ne_digit (by omega))
      · simp only [base64EncodeList, List.cons.injEq] at h
        obtain ⟨rfl, rfl, rfl⟩ := quantum_inj h.1 h.2.1 h.2.2.1 h.2.2.2.1
        rw [ih h.2.2.2.2]

theorem base64Encode_inj {bs bs' : List UInt8} (h : base64Encode bs = base64Encode bs') : bs = bs' :=
  base64EncodeList_inj (String.ofList_injective h)

/-! ## The standard form, read -/

/-- The place of a digit in the standard alphabet. -/
def base64Value (c : Char) : Option Nat :=
  if inRange 'A' 'Z' c then some (c.toNat - 'A'.toNat)
  else if inRange 'a' 'z' c then some (c.toNat - 'a'.toNat + 26)
  else if inRange '0' '9' c then some (c.toNat - '0'.toNat + 52)
  else if c = '+' then some 62
  else if c = '/' then some 63
  else none

/-- Four digits are three bytes. At the end two are one and three are two, filled up with padding, and no bit is left
    over. -/
def base64DecodeList : List Char → Option (List UInt8)
  | []               => some []
  | [a, b, '=', '='] => do
      let i ← base64Value a
      let j ← base64Value b
      if j % 16 = 0 then some [UInt8.ofNat (i * 4 + j / 16)] else none
  | [a, b, c, '=']   => do
      let i ← base64Value a
      let j ← base64Value b
      let k ← base64Value c
      if k % 4 = 0 then some [UInt8.ofNat (i * 4 + j / 16), UInt8.ofNat (j % 16 * 16 + k / 4)] else none
  | a :: b :: c :: d :: cs => do
      let i ← base64Value a
      let j ← base64Value b
      let k ← base64Value c
      let l ← base64Value d
      let bs ← base64DecodeList cs
      some (UInt8.ofNat (i * 4 + j / 16) :: UInt8.ofNat (j % 16 * 16 + k / 4) :: UInt8.ofNat (k % 4 * 64 + l) :: bs)
  | _                => none

/-- The bytes of a padded base64 text. -/
def base64Decode (s : String) : Option (List UInt8) := base64DecodeList s.toList

/-! ## The form for URLs -/

/-- Without padding, and with two other digits. -/
def base64UrlEncode (bs : List UInt8) : String :=
  String.ofList (((base64EncodeList bs).filter fun c => decide (c ≠ '=')).map fun c =>
    if c = '+' then '-' else if c = '/' then '_' else c)

/-- The place of a digit in the alphabet for URLs. -/
def base64UrlValue (c : Char) : Option Nat :=
  if inRange 'A' 'Z' c then some (c.toNat - 'A'.toNat)
  else if inRange 'a' 'z' c then some (c.toNat - 'a'.toNat + 26)
  else if inRange '0' '9' c then some (c.toNat - '0'.toNat + 52)
  else if c = '-' then some 62
  else if c = '_' then some 63
  else none

/-- Four digits become three bytes; at the end, two become one and three become two, with no bit left over. -/
def base64DecodeDigits : List Nat → Option (List UInt8)
  | []           => some []
  | [_]          => none
  | [i, j]       => if j % 16 = 0 then some [UInt8.ofNat (i * 4 + j / 16)] else none
  | [i, j, k]    =>
      if k % 4 = 0 then some [UInt8.ofNat (i * 4 + j / 16), UInt8.ofNat (j % 16 * 16 + k / 4)] else none
  | i :: j :: k :: l :: ds => do
      let bs ← base64DecodeDigits ds
      some (UInt8.ofNat (i * 4 + j / 16) :: UInt8.ofNat (j % 16 * 16 + k / 4) :: UInt8.ofNat (k % 4 * 64 + l) :: bs)

/-- The bytes of an unpadded base64 text in the alphabet of URLs. -/
def base64UrlDecode (s : String) : Option (List UInt8) := do
  let digits ← s.toList.mapM base64UrlValue
  base64DecodeDigits digits

/-- The characters of the form for URLs. -/
def isBase64UrlChar (c : Char) : Bool := isAsciiAlphanumeric c || c == '-' || c == '_'

theorem isBase64UrlChar_of_value {c : Char} {n : Nat} (h : base64UrlValue c = some n) : isBase64UrlChar c = true := by
  unfold base64UrlValue at h
  unfold isBase64UrlChar isAsciiAlphanumeric
  split at h
  · next hup => simp [hup]
  · split at h
    · next hlow => simp [hlow]
    · split at h
      · next hdig => simp [hdig]
      · split at h
        · next hdash => simp [hdash]
        · split at h
          · next hline => simp [hline]
          · cases h

/-- Every element of a list that is gone through has an image. -/
theorem exists_of_mapM_some {α β : Type} {f : α → Option β} {l : List α} {bs : List β} (h : l.mapM f = some bs) {a : α}
    (ha : a ∈ l) : ∃ b, f a = some b := by
  induction l generalizing bs with
  | nil => cases ha
  | cons x xs ih =>
      rw [List.mapM_cons] at h
      obtain ⟨b, hb, h⟩ := Option.bind_eq_some_iff.mp h
      obtain ⟨rest, hrest, -⟩ := Option.bind_eq_some_iff.mp h
      rcases List.mem_cons.mp ha with rfl | ha
      · exact ⟨b, hb⟩
      · exact ih hrest ha

/-- A text that is read holds nothing but the alphabet. -/
theorem mem_of_base64UrlDecode {s : String} {bs : List UInt8} (h : base64UrlDecode s = some bs) {c : Char}
    (hc : c ∈ s.toList) : isBase64UrlChar c = true := by
  obtain ⟨digits, hdigits, -⟩ := Option.bind_eq_some_iff.mp h
  obtain ⟨n, hn⟩ := exists_of_mapM_some hdigits hc
  exact isBase64UrlChar_of_value hn

end Text
