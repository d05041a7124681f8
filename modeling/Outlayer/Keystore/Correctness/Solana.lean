import Outlayer.Keystore.Solana

/-!
# `Keystore.Correctness.Solana` — no transaction is signed as a message

What a transaction message is, said without a parser: a header, keys, a blockhash, instructions and, in a versioned
message, lookups, with the rules a node checks. A message has many spellings, since a length may be spelled with more
bytes than it needs; the parser accepts exactly the spellings of the messages that keep the rules, within the size of
a packet.

The argument goes through `Cursors.Reads`: each part of the parser reads the spellings of its part of the message. Two
facts are about sizes. A message that fits a packet has at most 38 static keys, so its first byte, the number of
signers, can never be taken for a version; and every length in it fits the three bytes it may be spelled with.
-/

namespace Outlayer
open Text Cursors

namespace Keystore

/-! ## Transaction messages -/

/-- An address, a blockhash. -/
abbrev Hash32 : Type := { bytes : List UInt8 // bytes.length = 32 }

/-- The byte before a versioned message: its top bit is set. -/
abbrev VersionByte : Type := { b : UInt8 // 128 ≤ b.toNat }

/-- An instruction: the places of its program and its accounts, and its data. -/
structure SolanaInstruction where
  programIdIndex : UInt8
  accounts : List UInt8
  data : List UInt8

/-- A table of addresses, and the places that are taken from it. -/
structure AddressTableLookup where
  accountKey : Hash32
  writableIndexes : List UInt8
  readonlyIndexes : List UInt8

/-- Only a versioned message has lookups. -/
structure SolanaMessage where
  versioned : Option (VersionByte × List AddressTableLookup)
  numRequiredSignatures : UInt8
  numReadonlySigned : UInt8
  numReadonlyUnsigned : UInt8
  accountKeys : List Hash32
  recentBlockhash : Hash32
  instructions : List SolanaInstruction

/-- How many addresses a table gives. -/
def AddressTableLookup.keys (l : AddressTableLookup) : Nat := l.writableIndexes.length + l.readonlyIndexes.length

/-- All places an instruction names. -/
def SolanaInstruction.indexes (i : SolanaInstruction) : List UInt8 := i.programIdIndex :: i.accounts

namespace SolanaMessage

variable (m : SolanaMessage)

/-- The tables of a message; a legacy one has none. -/
def lookups : List AddressTableLookup := (m.versioned.map Prod.snd).getD []

/-- The keys an index may name: static ones and those looked up. -/
def totalKeys : Nat := m.accountKeys.length + (m.lookups.map AddressTableLookup.keys).sum

/-- The rules on the header and on the indexes. -/
structure Sane : Prop where
  signed : 0 < m.numRequiredSignatures.toNat
  signers : m.numRequiredSignatures.toNat ≤ m.accountKeys.length
  payer : m.numReadonlySigned.toNat < m.numRequiredSignatures.toNat
  readonly : m.numReadonlyUnsigned.toNat ≤ m.accountKeys.length - m.numRequiredSignatures.toNat
  indexed : ∀ i ∈ m.instructions, ∀ k ∈ i.indexes, k.toNat < m.totalKeys

end SolanaMessage

/-! ## Spellings of a message -/

/-- The lengths up to 65535 in one, two or three bytes, seven bits in each and the top bit on all but the last. -/
inductive SpellsU16 : Spelling UInt8 Nat
  | one (a : UInt8) (ha : a.toNat < 128) : SpellsU16 a.toNat [a]
  | two (a b : UInt8) (ha : 128 ≤ a.toNat) (hb : b.toNat < 128) :
      SpellsU16 (a.toNat - 128 + 128 * b.toNat) [a, b]
  | three (a b c : UInt8) (ha : 128 ≤ a.toNat) (hb : 128 ≤ b.toNat) (hc : c.toNat < 128)
      (hle : a.toNat - 128 + 128 * (b.toNat - 128) + 16384 * c.toNat ≤ 65535) :
      SpellsU16 (a.toNat - 128 + 128 * (b.toNat - 128) + 16384 * c.toNat) [a, b, c]

/-- An array: its length, then its items. -/
def SpellsArray {ι : Type} (S : Spelling UInt8 ι) : Spelling UInt8 (List ι) := fun xs b =>
  ∃ len items, SpellsU16 xs.length len ∧ Each S xs items ∧ b = len ++ items

/-- An array of single bytes. -/
def SpellsBytes : Spelling UInt8 (List UInt8) := fun xs b => ∃ len, SpellsU16 xs.length len ∧ b = len ++ xs

/-- The bytes of an instruction. -/
def SpellsInstruction : Spelling UInt8 SolanaInstruction := fun i b =>
  ∃ accounts data, SpellsBytes i.accounts accounts ∧ SpellsBytes i.data data ∧ b = i.programIdIndex :: (accounts ++
    data)

/-- The bytes of a table. -/
def SpellsLookup : Spelling UInt8 AddressTableLookup := fun l b =>
  ∃ writable readonly, SpellsBytes l.writableIndexes writable ∧ SpellsBytes l.readonlyIndexes readonly ∧
    b = l.accountKey.1 ++ (writable ++ readonly)

/-- What stands behind the instructions. -/
def SpellsLookups : Spelling UInt8 (Option (VersionByte × List AddressTableLookup))
  | none, b              => b = []
  | some (_, lookups), b => SpellsArray SpellsLookup lookups b

/-- From the header on. -/
def SpellsBody : Spelling UInt8 SolanaMessage := fun m b =>
  ∃ keys instructions lookups, SpellsArray (fun k b => b = k.1) m.accountKeys keys ∧
    SpellsArray SpellsInstruction m.instructions instructions ∧ SpellsLookups m.versioned lookups ∧
    b = [m.numRequiredSignatures, m.numReadonlySigned, m.numReadonlyUnsigned] ++
      (keys ++ (m.recentBlockhash.1 ++ (instructions ++ lookups)))

/-- The byte of the version, where there is one. -/
def SolanaMessage.prefixBytes (m : SolanaMessage) : List UInt8 := (m.versioned.map fun v => v.1.1).toList

/-- A whole message. -/
def SpellsMessage : Spelling UInt8 SolanaMessage := fun m b => ∃ body, SpellsBody m body ∧ b = m.prefixBytes ++ body

/-! ## Bytes -/

theorem toNat_and_127 (b : UInt8) : (b &&& 0x7f).toNat = b.toNat % 128 := by
  rw [UInt8.toNat_and]
  exact Nat.and_two_pow_sub_one_eq_mod b.toNat 7

theorem and_128_eq_zero_iff (b : UInt8) : b &&& 0x80 = 0 ↔ b.toNat < 128 := by
  have h : ∀ x : BitVec 8, x &&& 0x80 = 0 ↔ x.toNat < 128 := by decide
  rw [← UInt8.toBitVec_inj]
  exact h b.toBitVec

theorem or_shiftLeft {v i x : Nat} (hv : v < 2 ^ (7 * i)) : v ||| (x <<< (7 * i)) = v + 2 ^ (7 * i) * x := by
  rw [Nat.or_comm, ← Nat.shiftLeft_add_eq_or_of_lt hv, Nat.shiftLeft_eq, Nat.mul_comm, Nat.add_comm]

/-! ## Lengths -/

/-- What the remaining rounds spell, with `value` read in the rounds before. -/
def SpellsFrom : (rounds i value : Nat) → Spelling UInt8 Nat
  | 0, _, _, _, _              => False
  | rounds + 1, i, value, n, b => ∃ a rest, b = a :: rest ∧
      ((a.toNat < 128 ∧ n = value + 2 ^ (7 * i) * a.toNat ∧ n ≤ 65535 ∧ rest = []) ∨
        (128 ≤ a.toNat ∧ SpellsFrom rounds (i + 1) (value + 2 ^ (7 * i) * (a.toNat - 128)) n rest))

/-- A last byte ends the length. -/
theorem reads_lastByte (v : Nat) :
    Reads (if 65535 < v then refuse else pure v : Reader UInt8 Nat) (fun n b => n = v ∧ n ≤ 65535 ∧ b = []) := by
  refine (Reads.check (65535 < v) (Reads.pure v)).congr fun n b => ⟨?_, ?_⟩
  · rintro ⟨hv, rfl, rfl⟩
    exact ⟨rfl, Nat.le_of_not_lt hv, rfl⟩
  · rintro ⟨rfl, hn, rfl⟩
    exact ⟨Nat.not_lt.mpr hn, rfl, rfl⟩

theorem reads_compactU16From : ∀ (rounds i value : Nat), value < 2 ^ (7 * i) →
    Reads (compactU16From rounds i value) (SpellsFrom rounds i value)
  | 0, i, value, _ => Reads.refuse.congr fun n b => Iff.rfl
  | rounds + 1, i, value, hv => by
      have hround : ∀ a : UInt8, value ||| ((a &&& 0x7f).toNat <<< (7 * i)) = value + 2 ^ (7 * i) * (a.toNat % 128) :=
        by
        intro a
        rw [toNat_and_127, or_shiftLeft hv]
      have hnext : ∀ a : UInt8, value + 2 ^ (7 * i) * (a.toNat % 128) < 2 ^ (7 * (i + 1)) := by
        intro a
        have ha : a.toNat % 128 + 1 ≤ 128 := Nat.mod_lt _ (by decide)
        calc value + 2 ^ (7 * i) * (a.toNat % 128)
            < 2 ^ (7 * i) + 2 ^ (7 * i) * (a.toNat % 128) := Nat.add_lt_add_right hv _
          _ = 2 ^ (7 * i) * (a.toNat % 128 + 1) := by rw [Nat.mul_add, Nat.mul_one, Nat.add_comm]
          _ ≤ 2 ^ (7 * i) * 128 := Nat.mul_le_mul_left _ ha
          _ = 2 ^ (7 * (i + 1)) := by rw [Nat.mul_add, Nat.pow_add]
      have hlow : ∀ a : UInt8, 128 ≤ a.toNat → a.toNat % 128 = a.toNat - 128 := by
        intro a ha
        have := a.toNat_lt
        omega
      refine (Reads.next.bind fun a => Reads.ite (a &&& 0x80 = 0) (reads_lastByte _)
        (reads_compactU16From rounds (i + 1) _ (by rw [hround a]; exact hnext a))).congr fun n b => ⟨?_, ?_⟩
      · rintro ⟨a, b₁, rest, rfl, hrest, rfl⟩
        refine ⟨a, rest, rfl, ?_⟩
        rw [and_128_eq_zero_iff, hround a, Nat.not_lt] at hrest
        rcases hrest with ⟨ha, hn, hle, hnil⟩ | ⟨ha, hmore⟩
        · rw [Nat.mod_eq_of_lt ha] at hn
          exact Or.inl ⟨ha, hn, hle, hnil⟩
        · rw [hlow a ha] at hmore
          exact Or.inr ⟨ha, hmore⟩
      · rintro ⟨a, rest, rfl, hrest⟩
        refine ⟨a, [a], rest, rfl, ?_, rfl⟩
        rw [and_128_eq_zero_iff, hround a, Nat.not_lt]
        rcases hrest with ⟨ha, hn, hle, hnil⟩ | ⟨ha, hmore⟩
        · rw [Nat.mod_eq_of_lt ha]
          exact Or.inl ⟨ha, hn, hle, hnil⟩
        · rw [hlow a ha]
          exact Or.inr ⟨ha, hmore⟩

theorem spellsFrom_iff (n : Nat) (b : List UInt8) : SpellsFrom 3 0 0 n b ↔ SpellsU16 n b := by
  constructor
  · rintro ⟨x, r₁, rfl, ⟨hx, rfl, -, rfl⟩ | ⟨hx, y, r₂, rfl, ⟨hy, rfl, -, rfl⟩ | ⟨hy, z, r₃, rfl, ⟨hz, rfl, hle, rfl⟩
      | ⟨-, hmore⟩⟩⟩⟩
    · have h := SpellsU16.one x hx
      simpa using h
    · have h := SpellsU16.two x y hx hy
      simpa using h
    · have h := SpellsU16.three x y z hx hy hz (by simpa using hle)
      simpa using h
    · exact hmore.elim
  · intro h
    cases h with
    | one a ha => exact ⟨a, [], rfl, Or.inl ⟨ha, by simp, by omega, rfl⟩⟩
    | two a b ha hb =>
        have hlt := a.toNat_lt
        exact ⟨a, [b], rfl, Or.inr ⟨ha, b, [], rfl, Or.inl ⟨hb, by simp, by omega, rfl⟩⟩⟩
    | three a b c ha hb hc hle =>
        exact ⟨a, [b, c], rfl, Or.inr ⟨ha, b, [c], rfl, Or.inr ⟨hb, c, [], rfl, Or.inl ⟨hc, by simp, hle, rfl⟩⟩⟩⟩

/-- `compact_u16` reads the lengths up to 65535 in any spelling. -/
theorem reads_compactU16 : Reads compactU16 SpellsU16 :=
  (reads_compactU16From 3 0 0 (by decide)).congr spellsFrom_iff

/-! ## Parts of a message -/

theorem each_single_iff : ∀ (xs b : List UInt8), Each (fun x b => b = [x]) xs b ↔ b = xs
  | [], b      => Iff.rfl
  | x :: xs, b => by
      constructor
      · rintro ⟨b₁, b₂, rfl, hxs, rfl⟩
        rw [(each_single_iff xs b₂).mp hxs]
        rfl
      · rintro rfl
        exact ⟨[x], xs, rfl, (each_single_iff xs xs).mpr rfl, rfl⟩

/-- The largest of the indexes and of what was seen before. -/
def maxIndex (m : Nat) (indexes : List UInt8) : Nat := indexes.foldl (fun m k => max m k.toNat) m

theorem reads_parseAccount (m : Nat) :
    Reads (parseAccount m) (fun m' b => ∃ k : UInt8, b = [k] ∧ m' = max m k.toNat) := by
  refine (Reads.next.bind fun (k : UInt8) => Reads.pure (max m k.toNat)).congr fun m' b => ⟨?_, ?_⟩
  · rintro ⟨k, _, _, rfl, ⟨rfl, rfl⟩, rfl⟩
    exact ⟨k, rfl, rfl⟩
  · rintro ⟨k, rfl, rfl⟩
    exact ⟨k, [k], [], rfl, ⟨rfl, rfl⟩, rfl⟩

theorem reads_accounts (n m : Nat) :
    Reads (times parseAccount n m) (fun m' b => b.length = n ∧ m' = maxIndex m b) := by
  refine (Reads.times reads_parseAccount n m).congr fun m' b => ⟨?_, ?_⟩
  · rintro ⟨xs, hlen, heach, rfl⟩
    obtain rfl := (each_single_iff xs b).mp heach
    exact ⟨hlen, rfl⟩
  · rintro ⟨hlen, rfl⟩
    exact ⟨b, hlen, (each_single_iff b b).mpr rfl, rfl⟩

theorem reads_parseInstruction (m : Nat) :
    Reads (parseInstruction m) (fun m' b => ∃ i, SpellsInstruction i b ∧ m' = maxIndex m i.indexes) := by
  unfold parseInstruction
  refine (Reads.next.bind fun p => reads_compactU16.bind fun n => (reads_accounts n (max m p.toNat)).bind fun m' =>
    reads_compactU16.bind fun d => (Reads.skip d).bind fun _ => Reads.pure m').congr fun m' b => ⟨?_, ?_⟩
  · rintro ⟨p, _, _, rfl, ⟨n, len, _, hlen, ⟨_, accounts, _, ⟨rfl, rfl⟩, ⟨d, dlen, _, hdlen, ⟨-, data, _, rfl, ⟨rfl,
      rfl⟩,
      rfl⟩, rfl⟩, rfl⟩, rfl⟩, rfl⟩
    refine ⟨⟨p, accounts, data⟩, ⟨len ++ accounts, dlen ++ data, ⟨len, hlen, rfl⟩, ⟨dlen, hdlen, rfl⟩, ?_⟩, rfl⟩
    simp only [List.append_assoc, List.append_nil, List.singleton_append]
  · rintro ⟨⟨p, accounts, data⟩, ⟨_, _, ⟨len, hlen, rfl⟩, ⟨dlen, hdlen, rfl⟩, rfl⟩, rfl⟩
    refine ⟨p, [p], _, rfl, ⟨_, len, _, hlen, ⟨_, accounts, _, ⟨rfl, rfl⟩, ⟨_, dlen, _, hdlen, ⟨(), data, [], rfl,
      ⟨rfl, rfl⟩, rfl⟩, rfl⟩, rfl⟩, rfl⟩, ?_⟩
    simp only [List.append_assoc, List.append_nil, List.singleton_append]

theorem reads_parseLookup (total : Nat) :
    Reads (parseLookup total) (fun total' b => ∃ l, SpellsLookup l b ∧ total' = total + l.keys) := by
  unfold parseLookup
  refine ((Reads.skip 32).bind fun _ => reads_compactU16.bind fun w => (Reads.skip w).bind fun _ =>
    reads_compactU16.bind fun r => (Reads.skip r).bind fun _ => Reads.pure (total + (w + r))).congr fun t b => ⟨?_, ?_⟩
  · rintro ⟨-, key, _, hkey, ⟨w, wlen, _, hw, ⟨-, writable, _, rfl, ⟨r, rlen, _, hr, ⟨-, readonly, _, rfl, ⟨rfl, rfl⟩,
      rfl⟩,
      rfl⟩, rfl⟩, rfl⟩, rfl⟩
    refine ⟨⟨⟨key, hkey⟩, writable, readonly⟩, ⟨wlen ++ writable, rlen ++ readonly, ⟨wlen, hw, rfl⟩, ⟨rlen, hr, rfl⟩,
      ?_⟩,
      rfl⟩
    simp only [List.append_assoc, List.append_nil]
  · rintro ⟨⟨⟨key, hkey⟩, writable, readonly⟩, ⟨_, _, ⟨wlen, hw, rfl⟩, ⟨rlen, hr, rfl⟩, rfl⟩, rfl⟩
    refine ⟨(), key, _, hkey, ⟨_, wlen, _, hw, ⟨(), writable, _, rfl, ⟨_, rlen, _, hr, ⟨(), readonly, [], rfl, ⟨rfl,
      rfl⟩,
      rfl⟩, rfl⟩, rfl⟩, rfl⟩, ?_⟩
    simp only [List.append_assoc, List.append_nil]

theorem foldl_keys (lookups : List AddressTableLookup) (n : Nat) :
    lookups.foldl (fun t l => t + l.keys) n = n + (lookups.map AddressTableLookup.keys).sum := by
  induction lookups generalizing n with
  | nil => rfl
  | cons l ls ih => rw [List.foldl_cons, ih, List.map_cons, List.sum_cons, Nat.add_assoc]

theorem reads_parseLookups (version : Option VersionByte) (n : Nat) :
    Reads (parseLookups version.isSome n) (fun total b => ∃ versioned : Option (VersionByte × List AddressTableLookup),
      versioned.map Prod.fst = version ∧ SpellsLookups versioned b ∧
      total = n + (((versioned.map Prod.snd).getD []).map AddressTableLookup.keys).sum) := by
  cases version with
  | none =>
      refine (Reads.pure n).congr fun total b => ⟨?_, ?_⟩
      · rintro ⟨rfl, rfl⟩
        exact ⟨none, rfl, rfl, rfl⟩
      · rintro ⟨versioned, hv, hb, rfl⟩
        obtain rfl := Option.map_eq_none_iff.mp hv
        exact ⟨rfl, hb⟩
  | some v =>
      refine (reads_compactU16.bind fun k => Reads.times reads_parseLookup k n).congr fun total b => ⟨?_, ?_⟩
      · rintro ⟨_, len, items, hlen, ⟨lookups, rfl, heach, rfl⟩, rfl⟩
        exact ⟨some (v, lookups), rfl, ⟨len, items, hlen, heach, rfl⟩, foldl_keys lookups n⟩
      · rintro ⟨versioned, hv, hb, rfl⟩
        obtain ⟨⟨_, lookups⟩, rfl, rfl⟩ := Option.map_eq_some_iff.mp hv
        obtain ⟨len, items, hlen, heach, rfl⟩ := hb
        exact ⟨_, len, items, hlen, ⟨lookups, rfl, heach, (foldl_keys lookups n).symm⟩, rfl⟩

/-- Static keys: a length, and 32 bytes for each. -/
theorem each_key_iff (n : Nat) (b : List UInt8) :
    (∃ keys : List Hash32, keys.length = n ∧ Each (fun k b => b = k.1) keys b) ↔ b.length = n * 32 := by
  induction n generalizing b with
  | zero =>
      constructor
      · rintro ⟨keys, hlen, heach⟩
        obtain rfl := List.length_eq_zero_iff.mp hlen
        obtain rfl := heach
        rfl
      · intro hb
        obtain rfl := List.length_eq_zero_iff.mp (by omega : b.length = 0)
        exact ⟨[], rfl, rfl⟩
  | succ n ih =>
      constructor
      · rintro ⟨keys, hlen, heach⟩
        obtain ⟨k, ks, rfl⟩ := List.exists_cons_of_length_eq_add_one hlen
        obtain ⟨_, b₂, rfl, hks, rfl⟩ := heach
        have hb₂ := (ih b₂).mp ⟨ks, Nat.succ.inj hlen, hks⟩
        have hk := k.2
        rw [List.length_append]
        omega
      · intro hb
        obtain ⟨ks, hlen, hks⟩ := (ih (b.drop 32)).mpr (by rw [List.length_drop]; omega)
        have htake : (b.take 32).length = 32 := by rw [List.length_take]; omega
        exact ⟨⟨b.take 32, htake⟩ :: ks, by rw [List.length_cons, hlen],
          ⟨b.take 32, b.drop 32, rfl, hks, (List.take_append_drop 32 b).symm⟩⟩

/-! ## The rules -/

theorem maxIndex_lt_iff (indexes : List UInt8) (m total : Nat) :
    maxIndex m indexes < total ↔ m < total ∧ ∀ k ∈ indexes, k.toNat < total := by
  induction indexes generalizing m with
  | nil => exact ⟨fun h => ⟨h, fun k hk => nomatch hk⟩, fun h => h.1⟩
  | cons k ks ih =>
      rw [show maxIndex m (k :: ks) = maxIndex (max m k.toNat) ks from rfl, ih, Nat.max_lt, List.forall_mem_cons,
        and_assoc]

theorem foldl_maxIndex_lt_iff (instructions : List SolanaInstruction) (m total : Nat) :
    instructions.foldl (fun m i => maxIndex m i.indexes) m < total ↔
      m < total ∧ ∀ i ∈ instructions, ∀ k ∈ i.indexes, k.toNat < total := by
  induction instructions generalizing m with
  | nil => exact ⟨fun h => ⟨h, fun i hi => nomatch hi⟩, fun h => h.1⟩
  | cons i is ih => rw [List.foldl_cons, ih, maxIndex_lt_iff, List.forall_mem_cons, and_assoc]

theorem not_headerRefused_iff (required roSigned roUnsigned keys : Nat) :
    ¬ headerRefused required roSigned roUnsigned keys ↔
      0 < required ∧ required ≤ keys ∧ roSigned < required ∧ roUnsigned ≤ keys - required := by
  unfold headerRefused
  omega

/-- The parser reads the spellings of the messages of the version it was told that keep the rules. -/
theorem reads_parseMessageBody (version : Option VersionByte) :
    Reads (parseMessageBody version.isSome)
      (fun _ b => ∃ m : SolanaMessage, m.versioned.map Prod.fst = version ∧ m.Sane ∧ SpellsBody m b) := by
  unfold parseMessageBody
  refine (Reads.next.bind fun req => Reads.next.bind fun ros => Reads.next.bind fun rou => reads_compactU16.bind fun n
    =>
    Reads.check (headerRefused req.toNat ros.toNat rou.toNat n) <| (Reads.skip (n * 32)).bind fun _ =>
    (Reads.skip 32).bind fun _ => reads_compactU16.bind fun k => (Reads.times reads_parseInstruction k 0).bind fun
      used =>
    (reads_parseLookups version n).bind fun total => Reads.check (k > 0 ∧ used ≥ total) (Reads.pure ())).congr
    fun u b => ⟨?_, ?_⟩
  · rintro ⟨req, _, _, rfl, ⟨ros, _, _, rfl, ⟨rou, _, _, rfl, ⟨n, klen, _, hn, ⟨hheader, -, keys, _, hkeys, ⟨-, hash, _,
      hhash, ⟨k, ilen, _, hk, ⟨used, items, _, ⟨instructions, hlen, hitems, rfl⟩, ⟨total, lookups, _, ⟨versioned, hv,
      hlookups, rfl⟩, ⟨hused, -, rfl⟩, rfl⟩, rfl⟩, rfl⟩, rfl⟩, rfl⟩, rfl⟩, rfl⟩, rfl⟩, rfl⟩
    obtain ⟨accountKeys, rfl, hspelled⟩ := (each_key_iff n keys).mpr hkeys
    subst hlen
    obtain ⟨hsigned, hsigners, hpayer, hreadonly⟩ := (not_headerRefused_iff _ _ _ _).mp hheader
    refine ⟨⟨versioned, req, ros, rou, accountKeys, ⟨hash, hhash⟩, instructions⟩, hv,
      ⟨hsigned, hsigners, hpayer, hreadonly, ?_⟩, ⟨_, _, _, ⟨klen, keys, hn, hspelled, rfl⟩,
        ⟨ilen, items, hk, hitems, rfl⟩, hlookups, ?_⟩⟩
    · intro i hi
      have hmax := Nat.not_le.mp fun h => hused ⟨List.length_pos_of_mem hi, h⟩
      exact ((foldl_maxIndex_lt_iff instructions 0 _).mp hmax).2 i hi
    · simp only [List.append_assoc, List.append_nil, List.cons_append, List.nil_append]
  · rintro ⟨m, hv, hsane, ⟨_, _, lookups, ⟨klen, keys, hn, hspelled, rfl⟩, ⟨ilen, items, hk, hitems, rfl⟩, hlookups,
      rfl⟩⟩
    have hheader := (not_headerRefused_iff _ _ _ _).mpr ⟨hsane.signed, hsane.signers, hsane.payer, hsane.readonly⟩
    have hkeys := (each_key_iff m.accountKeys.length keys).mp ⟨m.accountKeys, rfl, hspelled⟩
    refine ⟨m.numRequiredSignatures, [_], _, rfl, ⟨m.numReadonlySigned, [_], _, rfl, ⟨m.numReadonlyUnsigned, [_], _,
      rfl,
      ⟨_, klen, _, hn, ⟨hheader, (), keys, _, hkeys, ⟨(), m.recentBlockhash.1, _, m.recentBlockhash.2, ⟨_, ilen, _, hk,
        ⟨_, items, _, ⟨m.instructions, rfl, hitems, rfl⟩, ⟨_, lookups, [], ⟨m.versioned, hv, hlookups, rfl⟩,
          ⟨?_, rfl, rfl⟩, rfl⟩, rfl⟩, rfl⟩, rfl⟩, rfl⟩, rfl⟩, rfl⟩, rfl⟩, ?_⟩
    · rintro ⟨-, hused⟩
      have hpos : 0 < m.totalKeys := Nat.lt_of_lt_of_le hsane.signed (Nat.le_trans hsane.signers (Nat.le_add_right _ _))
      exact Nat.not_lt.mpr hused ((foldl_maxIndex_lt_iff m.instructions 0 _).mpr ⟨hpos, hsane.indexed⟩)
    · simp only [List.append_assoc, List.append_nil, List.cons_append, List.nil_append]

/-! ## The size -/

/-- Each static key takes 32 bytes. -/
theorem SpellsBody.keys_le {m : SolanaMessage} {b : List UInt8} (h : SpellsBody m b) :
    32 * m.accountKeys.length ≤ b.length := by
  obtain ⟨_, instructions, lookups, ⟨len, keys, -, hkeys, rfl⟩, -, -, rfl⟩ := h
  have hlen := (each_key_iff m.accountKeys.length keys).mp ⟨m.accountKeys, rfl, hkeys⟩
  simp only [List.length_append]
  omega

/-- The number of signers of a message that fits a packet is no version. -/
theorem SpellsBody.signers_lt {m : SolanaMessage} {b : List UInt8} (h : SpellsBody m b) (hsane : m.Sane)
    (hlen : b.length ≤ maxTxMessageLen) : m.numRequiredSignatures.toNat < 128 := by
  have hkeys := h.keys_le
  have hsigners := hsane.signers
  unfold maxTxMessageLen at hlen
  omega

theorem SpellsMessage.of_version {m : SolanaMessage} {version : Option VersionByte} {body : List UInt8}
    (hv : m.versioned.map Prod.fst = version) (h : SpellsBody m body) :
    SpellsMessage m ((version.map Subtype.val).toList ++ body) := by
  subst hv
  exact ⟨body, h, by simp only [SolanaMessage.prefixBytes, Option.map_map]; rfl⟩

/-- The parser under the version that the first byte gives. -/
theorem parses_iff_of_version {first : UInt8} {tail : List UInt8} (version : Option VersionByte)
    (hlen : (first :: tail).length ≤ maxTxMessageLen) (hversion : decide (first &&& 0x80 ≠ 0) = version.isSome) :
    parsesAsTransactionMessage (first :: tail) = true ↔
      ∃ m : SolanaMessage, m.versioned.map Prod.fst = version ∧ m.Sane ∧
        SpellsBody m ((first :: tail).drop (if version.isSome = true then 1 else 0)) := by
  have hfits : (if version.isSome = true then 1 else 0) ≤ (first :: tail).length := by
    rw [List.length_cons]
    split <;> omega
  have hwhole := (reads_parseMessageBody version).whole
    (c := { buf := first :: tail, pos := if version.isSome = true then 1 else 0 }) hfits
  have hrun : parsesAsTransactionMessage (first :: tail) =
      (parseMessageBody version.isSome ⟨first :: tail, if version.isSome = true then 1 else 0⟩).any
        fun r => decide (r.2.pos = (first :: tail).length) := by
    unfold parsesAsTransactionMessage
    rw [← hversion]
    dsimp only
    rw [if_neg (Nat.not_lt.mpr hlen)]
    cases parseMessageBody (decide (first &&& 0x80 ≠ 0))
        ⟨first :: tail, if decide (first &&& 0x80 ≠ 0) = true then 1 else 0⟩ <;> rfl
  rw [hrun]
  refine Iff.trans ?_ (hwhole.trans (exists_const Unit))
  cases parseMessageBody version.isSome ⟨first :: tail, if version.isSome = true then 1 else 0⟩ with
  | none =>
      constructor
      · intro h
        cases h
      · rintro ⟨_, _, h, -⟩
        cases h
  | some r =>
      refine ⟨fun h => ⟨r.1, r.2, rfl, of_decide_eq_true h⟩, ?_⟩
      rintro ⟨_, _, h, hend⟩
      cases h
      exact decide_eq_true hend

/-- A first byte without its top bit begins a legacy message: a version has it. -/
theorem spellsMessage_legacy_iff {first : UInt8} {tail : List UInt8} (hfirst : first.toNat < 128) (m : SolanaMessage) :
    SpellsMessage m (first :: tail) ↔ m.versioned.map Prod.fst = none ∧ SpellsBody m (first :: tail) := by
  constructor
  · rintro ⟨body, hbody, heq⟩
    cases hv : m.versioned with
    | none =>
        rw [SolanaMessage.prefixBytes, hv] at heq
        exact ⟨rfl, heq ▸ hbody⟩
    | some v =>
        rw [SolanaMessage.prefixBytes, hv] at heq
        obtain ⟨rfl, -⟩ := List.cons.inj heq
        exact absurd v.1.2 (Nat.not_le.mpr hfirst)
  · rintro ⟨hv, hbody⟩
    exact SpellsMessage.of_version hv hbody

/-- A first byte with its top bit begins a versioned message: as many signers would not fit. -/
theorem spellsMessage_versioned_iff {first : UInt8} {tail : List UInt8} (hfirst : 128 ≤ first.toNat)
    (hlen : (first :: tail).length ≤ maxTxMessageLen) {m : SolanaMessage} (hsane : m.Sane) :
    SpellsMessage m (first :: tail) ↔ m.versioned.map Prod.fst = some ⟨first, hfirst⟩ ∧ SpellsBody m tail := by
  constructor
  · rintro ⟨body, hbody, heq⟩
    cases hv : m.versioned with
    | none =>
        rw [SolanaMessage.prefixBytes, hv] at heq
        have hbytes : first :: tail = body := heq
        have hsigners := hbody.signers_lt hsane (hbytes ▸ hlen)
        obtain ⟨_, _, _, -, -, -, rfl⟩ := hbody
        obtain ⟨rfl, -⟩ := List.cons.inj hbytes
        exact absurd hfirst (Nat.not_le.mpr hsigners)
    | some v =>
        rw [SolanaMessage.prefixBytes, hv] at heq
        obtain ⟨hversion, rfl⟩ := List.cons.inj heq
        exact ⟨congrArg some (Subtype.ext hversion.symm), hbody⟩
  · rintro ⟨hv, hbody⟩
    exact SpellsMessage.of_version hv hbody

/-- The parser accepts exactly the spellings, within the size, of the messages that keep the rules. -/
theorem parsesAsTransactionMessage_eq_true_iff (bytes : List UInt8) :
    parsesAsTransactionMessage bytes = true ↔
      1 ≤ bytes.length ∧ bytes.length ≤ maxTxMessageLen ∧ ∃ m : SolanaMessage, m.Sane ∧ SpellsMessage m bytes := by
  cases bytes with
  | nil => exact ⟨fun h => (nomatch h), fun h => absurd h.1 (by decide)⟩
  | cons first tail =>
      by_cases hlen : (first :: tail).length ≤ maxTxMessageLen
      · have hpos : 1 ≤ (first :: tail).length := Nat.succ_le_succ (Nat.zero_le _)
        rw [and_iff_right hpos, and_iff_right hlen]
        by_cases hfirst : first.toNat < 128
        · have hlegacy : decide (first &&& 0x80 ≠ 0) = (none : Option VersionByte).isSome :=
            decide_eq_false fun h => h ((and_128_eq_zero_iff first).mpr hfirst)
          rw [parses_iff_of_version none hlen hlegacy]
          refine exists_congr fun m => ?_
          rw [spellsMessage_legacy_iff hfirst]
          exact and_left_comm
        · have hge := Nat.le_of_not_lt hfirst
          have hversioned : decide (first &&& 0x80 ≠ 0) = (some ⟨first, hge⟩ : Option VersionByte).isSome :=
            decide_eq_true fun h => hfirst ((and_128_eq_zero_iff first).mp h)
          rw [parses_iff_of_version (some ⟨first, hge⟩) hlen hversioned]
          refine exists_congr fun m => ?_
          rw [and_left_comm]
          refine and_congr_right fun hsane => ?_
          rw [spellsMessage_versioned_iff hge hlen hsane]
          rfl
      · have hrun : parsesAsTransactionMessage (first :: tail) = false := if_pos (Nat.lt_of_not_le hlen)
        rw [hrun]
        exact ⟨fun h => (nomatch h), fun h => absurd h.2.1 hlen⟩

/-! ## The encoding of a message -/

/-- A length, in as few bytes as it takes. -/
def encodeU16 (n : Nat) : List UInt8 :=
  if n < 128 then [UInt8.ofNat n]
  else if n < 16384 then [UInt8.ofNat (n % 128 + 128), UInt8.ofNat (n / 128)]
  else [UInt8.ofNat (n % 128 + 128), UInt8.ofNat (n / 128 % 128 + 128), UInt8.ofNat (n / 16384)]

/-- An array behind its length. -/
def serializeArray {ι : Type} (encode : ι → List UInt8) (xs : List ι) : List UInt8 :=
  encodeU16 xs.length ++ xs.flatMap encode

/-- Bytes behind their length. -/
def serializeBytes (xs : List UInt8) : List UInt8 := encodeU16 xs.length ++ xs

/-- An instruction, its lengths in their shortest form. -/
def SolanaInstruction.serialize (i : SolanaInstruction) : List UInt8 :=
  i.programIdIndex :: (serializeBytes i.accounts ++ serializeBytes i.data)

/-- A table, likewise. -/
def AddressTableLookup.serialize (l : AddressTableLookup) : List UInt8 :=
  l.accountKey.1 ++ (serializeBytes l.writableIndexes ++ serializeBytes l.readonlyIndexes)

/-- What is signed for a transaction. -/
def SolanaMessage.serialize (m : SolanaMessage) : List UInt8 :=
  m.prefixBytes ++ ([m.numRequiredSignatures, m.numReadonlySigned, m.numReadonlyUnsigned] ++
    (serializeArray Subtype.val m.accountKeys ++ (m.recentBlockhash.1 ++
      (serializeArray SolanaInstruction.serialize m.instructions ++
        ((m.versioned.map fun v => serializeArray AddressTableLookup.serialize v.2).getD [])))))

theorem toNat_ofNat {n : Nat} (h : n < 256) : (UInt8.ofNat n).toNat = n := by
  rw [UInt8.toNat_ofNat', Nat.mod_eq_of_lt h]

theorem spells_encodeU16 {n : Nat} (h : n ≤ 65535) : SpellsU16 n (encodeU16 n) := by
  unfold encodeU16
  split
  · next hn =>
      have hbyte := toNat_ofNat (by omega : n < 256)
      have hone := SpellsU16.one (UInt8.ofNat n) (by omega)
      rwa [hbyte] at hone
  · next hn =>
      have hlow := toNat_ofNat (by omega : n % 128 + 128 < 256)
      split
      · next hn' =>
          have hhigh := toNat_ofNat (by omega : n / 128 < 256)
          have htwo := SpellsU16.two (UInt8.ofNat (n % 128 + 128)) (UInt8.ofNat (n / 128)) (by omega) (by omega)
          rwa [hlow, hhigh, show n % 128 + 128 - 128 + 128 * (n / 128) = n by omega] at htwo
      · next hn' =>
          have hmid := toNat_ofNat (by omega : n / 128 % 128 + 128 < 256)
          have hhigh := toNat_ofNat (by omega : n / 16384 < 256)
          have hthree := SpellsU16.three (UInt8.ofNat (n % 128 + 128)) (UInt8.ofNat (n / 128 % 128 + 128))
            (UInt8.ofNat (n / 16384)) (by omega) (by omega) (by omega) (by omega)
          rwa [hlow, hmid, hhigh,
            show n % 128 + 128 - 128 + 128 * (n / 128 % 128 + 128 - 128) + 16384 * (n / 16384) = n by omega] at hthree

theorem spells_serializeBytes {xs : List UInt8} (h : (serializeBytes xs).length ≤ 65535) :
    SpellsBytes xs (serializeBytes xs) := by
  have hlen : xs.length ≤ 65535 := by
    rw [serializeBytes, List.length_append] at h
    omega
  exact ⟨encodeU16 xs.length, spells_encodeU16 hlen, rfl⟩

theorem each_flatMap {ι : Type} {S : Spelling UInt8 ι} {encode : ι → List UInt8} :
    ∀ {xs : List ι}, (∀ x ∈ xs, S x (encode x)) → Each S xs (xs.flatMap encode)
  | [], _      => rfl
  | x :: xs, h => ⟨encode x, xs.flatMap encode, h x (List.mem_cons_self ..),
      each_flatMap fun y hy => h y (List.mem_cons_of_mem x hy), List.flatMap_cons⟩

theorem length_le_flatMap {ι : Type} (encode : ι → List UInt8) {x : ι} {xs : List ι} (hx : x ∈ xs) :
    (encode x).length ≤ (xs.flatMap encode).length := by
  rw [List.flatMap_def]
  exact (List.sublist_flatten_of_mem (List.mem_map_of_mem hx)).length_le

theorem count_le_flatMap {ι : Type} {encode : ι → List UInt8} (hne : ∀ x, encode x ≠ []) :
    ∀ xs : List ι, xs.length ≤ (xs.flatMap encode).length
  | []      => Nat.le_refl 0
  | x :: xs => by
      have hx := List.length_pos_of_ne_nil (hne x)
      have hxs := count_le_flatMap hne xs
      rw [List.flatMap_cons, List.length_append, List.length_cons]
      omega

/-- An array whose items take bytes: where it is short enough for a length, so is every item. -/
theorem spells_serializeArray {ι : Type} {S : Spelling UInt8 ι} {encode : ι → List UInt8} {xs : List ι}
    (hne : ∀ x, encode x ≠ []) (hitem : ∀ x, (encode x).length ≤ 65535 → S x (encode x))
    (h : (serializeArray encode xs).length ≤ 65535) : SpellsArray S xs (serializeArray encode xs) := by
  rw [serializeArray, List.length_append] at h
  have hcount := count_le_flatMap hne xs
  refine ⟨encodeU16 xs.length, xs.flatMap encode, spells_encodeU16 (by omega), each_flatMap fun x hx => ?_, rfl⟩
  have hx := length_le_flatMap encode hx
  exact hitem x (by omega)

theorem spells_instruction (i : SolanaInstruction) (h : i.serialize.length ≤ 65535) :
    SpellsInstruction i i.serialize := by
  rw [SolanaInstruction.serialize, List.length_cons, List.length_append] at h
  exact ⟨_, _, spells_serializeBytes (by omega), spells_serializeBytes (by omega), rfl⟩

theorem spells_lookup (l : AddressTableLookup) (h : l.serialize.length ≤ 65535) : SpellsLookup l l.serialize := by
  rw [AddressTableLookup.serialize, List.length_append, List.length_append] at h
  exact ⟨_, _, spells_serializeBytes (by omega), spells_serializeBytes (by omega), rfl⟩

theorem hash32_ne_nil (k : Hash32) : k.1 ≠ [] := fun h => absurd k.2 (by rw [h]; decide)

theorem instruction_ne_nil (i : SolanaInstruction) : i.serialize ≠ [] := List.cons_ne_nil _ _

theorem lookup_ne_nil (l : AddressTableLookup) : l.serialize ≠ [] := fun h =>
  hash32_ne_nil l.accountKey (List.append_eq_nil_iff.mp h).1

/-- A message within the size is spelled by its encoding. -/
theorem spells_serialize (m : SolanaMessage) (h : m.serialize.length ≤ maxTxMessageLen) :
    SpellsMessage m m.serialize := by
  unfold maxTxMessageLen at h
  simp only [SolanaMessage.serialize, List.length_append] at h
  refine ⟨_, ⟨_, _, _, spells_serializeArray hash32_ne_nil (fun _ _ => rfl) (by omega),
    spells_serializeArray instruction_ne_nil spells_instruction (by omega), ?_, rfl⟩, rfl⟩
  cases hv : m.versioned with
  | none => exact rfl
  | some v =>
      rw [hv] at h
      simp only [Option.map_some, Option.getD_some] at h
      exact spells_serializeArray lookup_ne_nil spells_lookup (by omega)

/-! ## The guard -/

/-- A signature made as for a message is not over bytes that parse as a transaction message. -/
theorem solanaSignBytes_message_ok {Policy : Type} {K : SolanaSigning Policy} {nowUnix : Nat} {customer : Option
    AccountId}
    {walletId chain signature : String} {bytes : List UInt8}
    (h : solanaSignBytes K nowUnix customer walletId chain bytes false = .ok signature) :
    parsesAsTransactionMessage bytes = false := by
  unfold solanaSignBytes at h
  obtain ⟨-, -, h⟩ := bind_ok h
  obtain ⟨-, -, h⟩ := bind_ok h
  obtain ⟨_, hguard, _⟩ := bind_ok h
  exact Bool.eq_false_iff.mpr fun htrue => demand_ok hguard ⟨rfl, htrue⟩

/-- The parser accepts exactly the transaction messages within the size, in every spelling; so it accepts the
encoding of each of them, and none of their bytes are ever signed as a message. -/
theorem no_transaction_signed_as_message :
    (∀ bytes : List UInt8, parsesAsTransactionMessage bytes = true ↔
      1 ≤ bytes.length ∧ bytes.length ≤ 1232 ∧ ∃ m : SolanaMessage, m.Sane ∧ SpellsMessage m bytes) ∧
    (∀ m : SolanaMessage, m.Sane → m.serialize.length ≤ 1232 → parsesAsTransactionMessage m.serialize = true) ∧
    (∀ (Policy : Type) (K : SolanaSigning Policy) (nowUnix : Nat) (customer : Option AccountId)
      (walletId chain : String) (m : SolanaMessage) (bytes : List UInt8),
      m.Sane → SpellsMessage m bytes → bytes.length ≤ 1232 →
      ∀ signature, solanaSignBytes K nowUnix customer walletId chain bytes false ≠ .ok signature) := by
  have hne : ∀ {m : SolanaMessage} {bytes : List UInt8}, SpellsMessage m bytes → 1 ≤ bytes.length := by
    rintro m _ ⟨_, ⟨_, _, _, -, -, -, rfl⟩, rfl⟩
    rw [List.length_append, List.length_append, List.length_cons]
    omega
  refine ⟨parsesAsTransactionMessage_eq_true_iff, fun m hsane hlen => ?_, ?_⟩
  · have hspells := spells_serialize m hlen
    exact (parsesAsTransactionMessage_eq_true_iff _).mpr ⟨hne hspells, hlen, m, hsane, hspells⟩
  · intro Policy K nowUnix customer walletId chain m bytes hsane hspells hlen signature hok
    have hparses := (parsesAsTransactionMessage_eq_true_iff bytes).mpr ⟨hne hspells, hlen, m, hsane, hspells⟩
    rw [solanaSignBytes_message_ok hok] at hparses
    cases hparses

/-- One signer, one program, one instruction. -/
def smallMessage : SolanaMessage where
  versioned := none
  numRequiredSignatures := 1
  numReadonlySigned := 0
  numReadonlyUnsigned := 1
  accountKeys := [⟨List.replicate 32 0, rfl⟩, ⟨List.replicate 32 1, rfl⟩]
  recentBlockhash := ⟨List.replicate 32 7, rfl⟩
  instructions := [{ programIdIndex := 1, accounts := [0], data := [2, 0, 0, 0] }]

theorem smallMessage_sane : smallMessage.Sane where
  signed := by decide
  signers := by decide
  payer := by decide
  readonly := by decide
  indexed := by decide +kernel

/-- A wallet without a policy, whose key signs anything with its own name. -/
def signsAnything : SolanaSigning Unit where
  chains := { isEvmChain := fun _ => false, isSolanaChain := (· = "solana"), isValidSubPath := fun _ => false }
  loadWalletPolicy := fun _ _ => .ok none
  solanaSignDecision := fun _ _ _ => .allow
  sign := fun _ _ bytes => .ok bytes
  base58 := fun _ => "signature"

theorem small_message_not_signed : parsesAsTransactionMessage smallMessage.serialize = true ∧
    ∀ signature, solanaSignBytes signsAnything 0 none "w1" "solana" smallMessage.serialize false ≠ .ok signature :=
  ⟨no_transaction_signed_as_message.2.1 smallMessage smallMessage_sane (by decide),
    no_transaction_signed_as_message.2.2 Unit signsAnything 0 none "w1" "solana" smallMessage smallMessage.serialize
      smallMessage_sane (spells_serialize smallMessage (by decide)) (by decide)⟩

end Keystore
end Outlayer
