import Mathlib.Data.List.Basic
import Mathlib.Data.Set.Function

/-!
# `Lib.Cryptography` — ciphers and hashes, as a user of them may rely on them

A cipher seals a plaintext under a key, a nonce and associated data. `Lawful` is what every implementation documents:
what was sealed opens, and a seal has a fixed size. `Authentic` is the ideal: nothing opens that nobody sealed under
that key, with that nonce and that data. What has been sealed is a set of `Sealing`s, whoever made them.

No hash function is injective where its values have one length. What an argument needs is that there is no collision
among the inputs that were hashed, on the one side and on the other.
-/

namespace Outlayer

/-- A cipher over keys `Key`; sealing may refuse, opening fails on anything else than a seal. -/
structure Aead (Key : Type) where
  encrypt : Key → (nonce associated plaintext : List UInt8) → Option (List UInt8)
  decrypt : Key → (nonce associated sealed : List UInt8) → Option (List UInt8)

/-- One use of a key. -/
structure Sealing (Key : Type) where
  key : Key
  nonce : List UInt8
  associated : List UInt8
  plaintext : List UInt8

namespace Aead

variable {Key : Type}

/-- What was sealed opens, and a seal is `overhead` bytes longer than what it seals. -/
structure Lawful (A : Aead Key) (overhead : Nat) : Prop where
  decrypt_encrypt : ∀ {k n a p c}, A.encrypt k n a p = some c → A.decrypt k n a c = some p
  length_encrypt : ∀ {k n a p c}, A.encrypt k n a p = some c → c.length = p.length + overhead

/-- Only seals that somebody made open, and to what was sealed. -/
def Authentic (A : Aead Key) (made : Sealing Key → Prop) : Prop :=
  ∀ {k n a c p}, A.decrypt k n a c = some p → made ⟨k, n, a, p⟩ ∧ A.encrypt k n a p = some c

end Aead

/-- A header of a known length stands between the first byte and the rest. -/
theorem header_parts {format : UInt8} {header : List UInt8} {n : Nat} (rest : List UInt8) (h : header.length = n) :
    ((format :: (header ++ rest)).drop 1).take n = header ∧ (format :: (header ++ rest)).drop (1 + n) = rest := by
  rw [← List.drop_drop, List.drop_succ_cons, List.drop_zero]
  exact ⟨List.take_left' h, List.drop_left' h⟩

end Outlayer

namespace Hashing
variable {α β : Type} {hash : α → β} {c d : α} {l l' : List α}

/-- No two of the inputs have one hash. -/
def CollisionFree (hash : α → β) (l l' : List α) : Prop := Set.InjOn hash {a | a ∈ l ∨ a ∈ l'}

/-- Inputs with one hash are one input. -/
theorem CollisionFree.head (h : CollisionFree hash (c :: l) (d :: l')) (heq : hash c = hash d) : c = d :=
  h (Or.inl List.mem_cons_self) (Or.inr List.mem_cons_self) heq

end Hashing
