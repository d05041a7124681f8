import Outlayer.Lib.BigEndian
import Outlayer.Lib.Json
import Outlayer.Lib.TextParts

/-!
# `Keystore.TypedData` — the digest of typed data

The digest of an `eth_signTypedData_v4` object: the hash of the domain and of the message, each the hash of its type and
of its fields in 32 bytes each. What a field is encoded to depends on its type alone: an array is hashed over its
elements, a struct over its fields, text and byte strings over their bytes, and the other values fill the 32 bytes.

An error is its outermost message. `keccak` is a parameter.
-/

namespace Outlayer
open Text Json

namespace Keystore
namespace TypedData

/-! ## Types -/

/-- The fields of a struct, in order: their names and types. -/
abbrev Fields := List (String × String)

/-- The struct types by name, in the order of the names. -/
abbrev Types := List (String × Fields)

/-- A part that has to be there, with the message of its absence. -/
def require {α : Type} (message : String) : Option α → Except String α
  | some a => .ok a
  | none   => .error message

/-- One field of a struct type: its name and its type. -/
def parseField (f : Value) : Except String (String × String) := do
  let fname ← require "field.name" ((f.get "name").bind Value.asStr)
  let ftype ← require "field.type" ((f.get "type").bind Value.asStr)
  pure (fname, ftype)

/-- The members of an object come in the order of their names, each once, as the map keeps them. -/
def parseTypes : Value → Except String Types
  | .obj members => members.mapM fun (name, fields) => do
      let arr ← require ("type '" ++ name ++ "' must be an array of fields") fields.asArray
      let out ← arr.mapM parseField
      pure (name, out)
  | _ => .error "types must be an object"

/-- `Foo[]` and `Foo[3]` are arrays of `Foo`. -/
def baseType (t : String) : String := String.ofList (t.toList.takeWhile (· ≠ '['))

/-- What stands before and after the last opening bracket. -/
def splitLastBracket (t : String) : Option (String × String) :=
  match t.toList.reverse.dropWhile (· ≠ '[') with
  | _ :: front => some (String.ofList front.reverse, String.ofList (t.toList.reverse.takeWhile (· ≠ '[')).reverse)
  | []         => none

/-- The type of the elements of an array; nothing else ends in a bracket. -/
def arrayInner (t : String) : Option String :=
  if endsWith t "]" then (splitLastBracket t).map Prod.fst else none

/-- A number in canonical decimal digits: no sign, no zero in front. -/
def isCanonical (digits : String) : Bool :=
  digits.toList.all Char.isDigit && !(decide (1 < digits.toList.length) && startsWith digits "0")

/-- The length of an array type that has one. -/
def arrayFixedLen (t : String) : Except String (Option Nat) :=
  if endsWith t "]" then
    match splitLastBracket t with
    | none => .error "malformed array type"
    | some (_, after) =>
        let inner := String.ofList after.toList.dropLast
        if inner = "" then .ok none
        else if isCanonical inner = false then .error ("malformed array size in '" ++ t ++ "'")
        else
          match parseUnsigned 64 inner with
          | none => .error ("malformed array size in '" ++ t ++ "'")
          | some n => if n = 0 then .error ("zero-length fixed array '" ++ t ++ "'") else .ok (some n)
  else .ok none

/-- A name in its place in a set of names that ascends. -/
def insertName (name : String) : List String → List String
  | []        => [name]
  | a :: rest => if name = a then a :: rest else if name < a then name :: a :: rest else a :: insertName name rest

/-- The struct types that `primary` refers to, itself included, added to those met before. The calls nest as deep as
    there are types, and one more; there is no result below that. -/
def collectDeps (types : Types) : (depth : Nat) → (primary : String) → (deps : List String) → Option (List String)
  | 0, _, _ => none
  | depth + 1, primary, deps =>
      if primary ∈ deps then some deps
      else
        match types.lookup primary with
        | none => some deps
        | some fields => fields.foldlM (fun deps f =>
            if (types.lookup (baseType f.2)).isSome then collectDeps types depth (baseType f.2) deps else some deps)
            (insertName primary deps)

/-- One struct type: `Name(type name,type name)`. -/
def structText (name : String) (fields : Fields) : String :=
  name ++ "(" ++ String.intercalate "," (fields.map fun f => f.2 ++ " " ++ f.1) ++ ")"

/-- The primary type, and after it the ones it refers to in the order of their names. -/
def encodeType (types : Types) (primary : String) : Except String String := do
  let deps ← require "unreachable: the calls nest no deeper" (collectDeps types (types.length + 1) primary [])
  if primary ∉ deps then .error ("unknown struct type '" ++ primary ++ "'")
  else do
    let parts ← (primary :: deps.erase primary).mapM fun name => do
      let fields ← require ("unknown type '" ++ name ++ "'") (types.lookup name)
      pure (structText name fields)
    pure (String.join parts)

/-! ## Integers -/

/-- What comes after the mark of hexadecimal digits. -/
def stripHexMark (s : String) : Option String :=
  match stripPrefix s "0x" with
  | some body => some body
  | none      => stripPrefix s "0X"

/-- One decimal digit more. -/
def decimalLoop : List Char → List UInt8 → Except String (List UInt8)
  | [], acc       => .ok acc
  | ch :: cs, acc =>
      if ch.isDigit then
        let (acc, carry) := BigEndian.mulAdd 10 acc (ch.toNat - '0'.toNat)
        if carry ≠ 0 then .error "uint256 decimal overflow" else decimalLoop cs acc
      else .error ("invalid decimal digit '" ++ String.singleton ch ++ "'")

/-- The 32 bytes of the number that a text spells, in decimal or in marked hexadecimal digits. -/
def parseUintText (s : String) : Except String (List UInt8) :=
  match stripHexMark s with
  | some hexBody =>
      if hexBody = "" then .error "empty integer hex value"
      else do
        let hexBody := if hexBody.utf8ByteSize % 2 = 1 then "0" ++ hexBody else hexBody
        let bytes ← require "invalid integer hex" (hexDecode hexBody)
        if 32 < bytes.length then .error ("uint256 hex overflow (" ++ toString bytes.length ++ " bytes)")
        else pure (List.replicate (32 - bytes.length) 0 ++ bytes)
  | none =>
      if s = "" then .error "empty integer value" else decimalLoop s.toList (List.replicate 32 0)

/-- An unsigned integer: a string, or a number as it is printed. -/
def parseUint256Be : Value → Except String (List UInt8)
  | .str s    => parseUintText (trim s)
  | .num text => parseUintText text
  | _         => .error "uint must be a string or number"

/-- What the text of a signed integer spells, in two's complement. -/
def parseIntText (s : String) : Except String (List UInt8) :=
  match stripPrefix s "-" with
  | some magnitude => do
      let bytes ← parseUint256Be (.str magnitude)
      -- the loop of the source stops once nothing is carried, where adding changes nothing
      pure (BigEndian.mulAdd 1 (bytes.map fun b => ~~~b) 1).1
  | none => parseUint256Be (.str s)

/-- A signed integer, in two's complement. -/
def parseInt256Be : Value → Except String (List UInt8)
  | .str s    => parseIntText (trim s)
  | .num text => parseIntText text
  | _         => .error "int must be a string or number"

/-- The width of an integer type: 256 where none is written. -/
def parseIntBits (suffix : String) : Except String Nat :=
  if suffix = "" then .ok 256
  else if isCanonical suffix = false then .error ("non-canonical integer width '" ++ suffix ++ "'")
  else
    match parseUnsigned 32 suffix with
    | none => .error ("invalid integer width '" ++ suffix ++ "'")
    | some n =>
        if n = 0 ∨ 256 < n ∨ n % 8 ≠ 0 then
          .error ("invalid integer width " ++ toString n ++ " (must be 8..=256 in steps of 8)")
        else .ok n

/-- The bytes above the width are zero. -/
def checkUintFits (v : List UInt8) (bits : Nat) : Except String Unit :=
  if (v.take (32 - bits / 8)).any (· ≠ 0) then .error ("value does not fit in uint" ++ toString bits) else .ok ()

/-- A bit of the 32 bytes, counted from the end. -/
def bit (v : List UInt8) (i : Nat) : Nat := ((v.getD (31 - i / 8) 0).toNat >>> (i % 8)) &&& 1

/-- Every bit from the width on equals the bit before it, the sign. -/
def checkIntFits (v : List UInt8) (bits : Nat) : Except String Unit :=
  if bits = 256 then .ok ()
  else if (List.range' bits (256 - bits)).any fun i => bit v i ≠ bit v (bits - 1) then
    .error ("value does not fit in int" ++ toString bits)
  else .ok ()

/-! ## Values -/

/-- The bytes of a hexadecimal string; two digits each. -/
def hexBytes (value : Value) : Except String (List UInt8) := do
  let s ← require "expected a 0x-hex string" value.asStr
  let body := (stripHexMark s).getD s
  if body.utf8ByteSize % 2 = 1 then .error ("odd-length hex string '" ++ s ++ "'")
  else require "invalid hex string" (hexDecode body)

/-- A member is smaller than the list of members. -/
theorem sizeOf_lookup_lt {key : String} {members : List (String × Value)} {value : Value}
    (h : members.lookup key = some value) : sizeOf value < sizeOf members := by
  induction members with
  | nil => cases h
  | cons m members ih =>
      rw [List.lookup_cons] at h
      split at h
      · obtain rfl := Option.some.inj h
        obtain ⟨k, v⟩ := m
        simp
        omega
      · have hrest := ih h
        simp
        omega

section Hashes
variable (keccak : List UInt8 → List UInt8)

/-- `bytes1` to `bytes32`: the bytes come first, zeros after them. -/
def encodeFixedBytes (ftype : String) (value : Value) : Except String (List UInt8) :=
  let unsupported := .error ("unsupported EIP-712 type: '" ++ ftype ++ "'")
  match stripPrefix ftype "bytes" with
  | none => unsupported
  | some n =>
      match parseUnsigned 64 n with
      | none => unsupported
      | some nn =>
          if isCanonical n = true ∧ 1 ≤ nn ∧ nn ≤ 32 then do
            let b ← hexBytes value
            if nn < b.length then
              .error ("bytes" ++ toString nn ++ " value is " ++ toString b.length ++ " bytes (too long)")
            else pure (b ++ List.replicate (32 - b.length) 0)
          else unsupported

/-- A value that is no array and no struct. -/
def encodeAtomic (ftype : String) (value : Value) : Except String (List UInt8) :=
  if ftype = "string" then do
    let s ← require "expected string" value.asStr
    pure (keccak (utf8 s))
  else if ftype = "bytes" then do
    let b ← hexBytes value
    pure (keccak b)
  else if ftype = "bool" then
    match value with
    | .bool b => .ok (List.replicate 31 0 ++ [if b then 1 else 0])
    | _       => .error "expected bool"
  else if ftype = "address" then do
    let b ← hexBytes value
    if b.length ≠ 20 then .error ("address must be 20 bytes, got " ++ toString b.length)
    else pure (List.replicate 12 0 ++ b)
  else
    match stripPrefix ftype "uint" with
    | some bits => do
        let n ← parseIntBits bits
        let v ← parseUint256Be value
        checkUintFits v n
        pure v
    | none =>
        match stripPrefix ftype "int" with
        | some bits => do
            let n ← parseIntBits bits
            let v ← parseInt256Be value
            checkIntFits v n
            pure v
        | none => encodeFixedBytes ftype value

/-! ## Structs and arrays -/

/-- The hash of a struct type's encoding. -/
def typeHash (types : Types) (primary : String) : Except String (List UInt8) := do
  let text ← encodeType types primary
  pure (keccak (utf8 text))

mutual

/-- The hash of the type and of the fields. -/
def hashStruct (types : Types) (typeName : String) (data : Value) : Except String (List UInt8) := do
  let th ← typeHash keccak types typeName
  let fields ← require ("unknown struct type '" ++ typeName ++ "'") (types.lookup typeName)
  match data with
  | .obj members =>
      let enc ← fields.mapM fun f =>
        match _h : members.lookup f.1 with
        | none       => .error ("missing field '" ++ f.1 ++ "' in '" ++ typeName ++ "'")
        | some value => encodeField types f.2 value
      pure (keccak (th ++ enc.flatten))
  | _ => .error ("expected an object for struct '" ++ typeName ++ "'")
termination_by (sizeOf data, 0)
decreasing_by
  have hmem := sizeOf_lookup_lt _h
  simp_wf
  omega

/-- The 32 bytes of a field. -/
def encodeField (types : Types) (ftype : String) (value : Value) : Except String (List UInt8) :=
  match arrayInner ftype with
  | some inner =>
      match value with
      | .arr els => do
          match ← arrayFixedLen ftype with
          | some fixed =>
              if els.length ≠ fixed then
                .error ("fixed-size array '" ++ ftype ++ "' expects " ++ toString fixed ++ " elements, got " ++
                  toString els.length)
              else pure ()
          | none => pure ()
          let words ← els.mapM fun el => encodeField types inner el
          pure (keccak words.flatten)
      | _ => .error ("expected an array for type '" ++ ftype ++ "'")
  | none =>
      if (types.lookup ftype).isSome then hashStruct types ftype value else encodeAtomic keccak ftype value
termination_by (sizeOf value, 1)

end

/-! ## The digest -/

/-- The parts of a document. -/
structure Parts where
  domain : Value
  primary : String
  message : Value
  types : Types

/-- The four parts of a typed-data document. -/
def parts (typedData : Value) : Except String Parts := do
  let domain ← require "typed_data.domain missing" (typedData.get "domain")
  let primary ← require "typed_data.primaryType missing" ((typedData.get "primaryType").bind Value.asStr)
  let message ← require "typed_data.message missing" (typedData.get "message")
  let types ← (require "typed_data.types missing" (typedData.get "types")).bind parseTypes
  pure ⟨domain, primary, message, types⟩

/-- The message in the place of a failure's own. -/
def context {α : Type} (message : String) : Except String α → Except String α
  | .ok a    => .ok a
  | .error _ => .error message

/-- The EIP-712 digest of a typed-data document. -/
def eip712Digest (typedData : Value) : Except String (List UInt8) := do
  let p ← parts typedData
  let domainSeparator ← context "computing EIP-712 domain separator" (hashStruct keccak p.types "EIP712Domain" p.domain)
  let messageHash ← context ("computing EIP-712 hashStruct for '" ++ p.primary ++ "'")
    (hashStruct keccak p.types p.primary p.message)
  pure (keccak ([0x19, 0x01] ++ domainSeparator ++ messageHash))

end Hashes

end TypedData
end Keystore
end Outlayer
