import Outlayer.Lib.JsonStrict
import Outlayer.Lib.TextParts

/-!
# `Worker.Tasks.Envelope` — the document of a task

Everything of a task but the component's own state, as one JSON document. Its members are written in alphabetical order
at every level, without white space, and what a notice does not have is not written. The document is what the owner
is shown, and what is hashed.
-/

namespace Outlayer
open Text Json

namespace Worker
namespace Tasks

/-- What a task asks of its owner. -/
inductive Kind
  | confirm
  | input
  /-- tells the owner something and asks nothing -/
  | notice
deriving DecidableEq

/-- Does the owner answer it, and a run of the preparer carry the answer out? -/
def Kind.takesAnAnswer : Kind → Bool
  | confirm | input => true
  | notice          => false

/-- How a field is shown. -/
inductive FieldKind
  | money
  | account
  | address
  | text
  | longText
  | list
deriving DecidableEq

/-- Whose words a field holds. -/
inductive WrittenBy
  | project
  | agent
deriving DecidableEq

/-- What an answer brings with it. -/
inductive Supplies
  | nothing
  | text
  | file
deriving DecidableEq

/-- One field of what the owner is shown. -/
structure Field where
  kind : FieldKind
  label : String
  values : List String
  writtenBy : WrittenBy
deriving DecidableEq

/-- What the owner is shown. -/
structure Display where
  fields : List Field
  title : String
deriving DecidableEq

/-- The operation an answer is carried out by. -/
structure AnswerBy where
  operation : String
  supplies : Supplies
deriving DecidableEq

/-- What the envelope says of a file. -/
structure FileNote where
  contentType : String
  name : String
  sha256 : String
  size : UInt64
deriving DecidableEq

/-- The document of a task. -/
structure Envelope where
  /-- the operation that carries the owner's answer out; absent for a notice -/
  answerBy : Option AnswerBy
  build : String
  createdAt : UInt64
  display : Display
  expiresAt : UInt64
  files : List FileNote
  id : String
  kind : Kind
  owner : String
  policyHash : String
  preparer : String
  profile : String
  project : String
  projectUuid : String
  /-- what the owner's answer is encrypted to; absent for a notice -/
  replyPubkey : Option String
  stateHash : String
  thread : String
  v : UInt32
deriving DecidableEq

/-! ## Writing -/

/-- The names of the variants, as JSON has them. -/
def Kind.name : Kind → String
  | confirm => "confirm"
  | input   => "input"
  | notice  => "notice"

/-- A kind's word in JSON. -/
def FieldKind.name : FieldKind → String
  | money    => "money"
  | account  => "account"
  | address  => "address"
  | text     => "text"
  | longText => "long_text"
  | list     => "list"

/-- A writer's word in JSON. -/
def WrittenBy.name : WrittenBy → String
  | project => "project"
  | agent   => "agent"

/-- The word in JSON for what the owner supplies. -/
def Supplies.name : Supplies → String
  | nothing => "nothing"
  | text    => "text"
  | file    => "file"

/-- The records as JSON, their members in the order of their names. -/
def Field.toJson (f : Field) : Value :=
  .obj [("kind", .str f.kind.name), ("label", .str f.label), ("values", .arr (f.values.map Value.str)),
        ("written_by", .str f.writtenBy.name)]

/-- The JSON of a display. -/
def Display.toJson (d : Display) : Value :=
  .obj [("fields", .arr (d.fields.map Field.toJson)), ("title", .str d.title)]

/-- The JSON of an answer's operation. -/
def AnswerBy.toJson (a : AnswerBy) : Value := .obj [("operation", .str a.operation), ("supplies", .str a.supplies.name)]

/-- The JSON of a file's note. -/
def FileNote.toJson (f : FileNote) : Value :=
  .obj [("content_type", .str f.contentType), ("name", .str f.name), ("sha256", .str f.sha256),
        ("size", .ofNat f.size.toNat)]

/-- A member that is written when it is there. -/
def writtenIfSome {α : Type} (name : String) (write : α → Value) (o : Option α) : List (String × Value) :=
  (o.map fun a => (name, write a)).toList

/-- The document as JSON; what is not there is left out. -/
def Envelope.toJson (e : Envelope) : Value :=
  .obj (writtenIfSome "answer_by" AnswerBy.toJson e.answerBy ++
    [("build", .str e.build), ("created_at", .ofNat e.createdAt.toNat), ("display", e.display.toJson),
     ("expires_at", .ofNat e.expiresAt.toNat), ("files", .arr (e.files.map FileNote.toJson)), ("id", .str e.id),
     ("kind", .str e.kind.name), ("owner", .str e.owner), ("policy_hash", .str e.policyHash),
     ("preparer", .str e.preparer), ("profile", .str e.profile), ("project", .str e.project),
     ("project_uuid", .str e.projectUuid)] ++
    writtenIfSome "reply_pubkey" .str e.replyPubkey ++
    [("state_hash", .str e.stateHash), ("thread", .str e.thread), ("v", .ofNat e.v.toNat)])

/-- The document: the bytes that are stored, shown and hashed. Writing it never fails. -/
def Envelope.toBytes (e : Envelope) : Except String (List UInt8) := .ok (utf8 e.toJson.compact)

/-! ## Reading -/

/-- The variants by their names. -/
def Kind.ofJson : Value → Option Kind := Value.unitVariant [("confirm", confirm), ("input", input), ("notice", notice)]

/-- Reads a kind. -/
def FieldKind.ofJson : Value → Option FieldKind :=
  Value.unitVariant
    [("money", money), ("account", account), ("address", address), ("text", text), ("long_text", longText),
     ("list", list)]

/-- Reads a writer. -/
def WrittenBy.ofJson : Value → Option WrittenBy := Value.unitVariant [("project", project), ("agent", agent)]

/-- Reads what the owner supplies. -/
def Supplies.ofJson : Value → Option Supplies :=
  Value.unitVariant [("nothing", nothing), ("text", text), ("file", file)]

/-- A record that refuses unknown fields is read by `read`. -/
def strictly {α : Type} (fields : List String) (read : Value → Option α) (v : Value) : Option α :=
  if v.knows fields = true then read v else none

/-- The members of each record; one that is not among them is refused. -/
def fieldFields : List String := ["kind", "label", "values", "written_by"]

/-- The records read back, every member but the nullable ones required. -/
def Field.ofJson : Value → Option Field := strictly fieldFields fun v => do
  let kind ← v.required fieldFields "kind" FieldKind.ofJson
  let label ← v.required fieldFields "label" Value.asStr
  let values ← v.required fieldFields "values" (Value.asList Value.asStr)
  let writtenBy ← v.required fieldFields "written_by" WrittenBy.ofJson
  pure { kind, label, values, writtenBy }

/-- The members of a display. -/
def displayFields : List String := ["fields", "title"]

/-- Reads a display with no member beyond its own. -/
def Display.ofJson : Value → Option Display := strictly displayFields fun v => do
  let fields ← v.required displayFields "fields" (Value.asList Field.ofJson)
  let title ← v.required displayFields "title" Value.asStr
  pure { fields, title }

/-- The members of an answer's operation. -/
def answerFields : List String := ["operation", "supplies"]

/-- Reads an answer's operation with no member beyond its own. -/
def AnswerBy.ofJson : Value → Option AnswerBy := strictly answerFields fun v => do
  let operation ← v.required answerFields "operation" Value.asStr
  let supplies ← v.required answerFields "supplies" Supplies.ofJson
  pure { operation, supplies }

/-- The members of a file's note. -/
def fileFields : List String := ["content_type", "name", "sha256", "size"]

/-- Reads a file's note with no member beyond its own. -/
def FileNote.ofJson : Value → Option FileNote := strictly fileFields fun v => do
  let contentType ← v.required fileFields "content_type" Value.asStr
  let name ← v.required fileFields "name" Value.asStr
  let sha256 ← v.required fileFields "sha256" Value.asStr
  let size ← v.required fileFields "size" (Value.asUnsigned 64)
  pure { contentType, name, sha256, size := UInt64.ofNat size }

/-- The members of a document. -/
def envelopeFields : List String :=
  ["answer_by", "build", "created_at", "display", "expires_at", "files", "id", "kind", "owner", "policy_hash",
   "preparer", "profile", "project", "project_uuid", "reply_pubkey", "state_hash", "thread", "v"]

/-- A document, once it is a value. -/
def Envelope.ofJson : Value → Option Envelope := strictly envelopeFields fun w => do
  let answerBy ← w.nullable envelopeFields "answer_by" AnswerBy.ofJson
  let build ← w.required envelopeFields "build" Value.asStr
  let createdAt ← w.required envelopeFields "created_at" (Value.asUnsigned 64)
  let display ← w.required envelopeFields "display" Display.ofJson
  let expiresAt ← w.required envelopeFields "expires_at" (Value.asUnsigned 64)
  let files ← w.required envelopeFields "files" (Value.asList FileNote.ofJson)
  let id ← w.required envelopeFields "id" Value.asStr
  let kind ← w.required envelopeFields "kind" Kind.ofJson
  let owner ← w.required envelopeFields "owner" Value.asStr
  let policyHash ← w.required envelopeFields "policy_hash" Value.asStr
  let preparer ← w.required envelopeFields "preparer" Value.asStr
  let profile ← w.required envelopeFields "profile" Value.asStr
  let project ← w.required envelopeFields "project" Value.asStr
  let projectUuid ← w.required envelopeFields "project_uuid" Value.asStr
  let replyPubkey ← w.nullable envelopeFields "reply_pubkey" Value.asStr
  let stateHash ← w.required envelopeFields "state_hash" Value.asStr
  let thread ← w.required envelopeFields "thread" Value.asStr
  let v ← w.required envelopeFields "v" (Value.asUnsigned 32)
  pure { answerBy, build, createdAt := UInt64.ofNat createdAt, display, expiresAt := UInt64.ofNat expiresAt, files, id,
         kind, owner, policyHash, preparer, profile, project, projectUuid, replyPubkey, stateHash, thread,
         v := UInt32.ofNat v }

/-- A task that takes an answer names the operation that carries it out and the key the answer is sealed to; a notice
    names neither. -/
def Envelope.checkKind (e : Envelope) : Except String Unit :=
  match e.kind.takesAnAnswer, e.answerBy.isSome, e.replyPubkey.isSome with
  | true, true, true    => .ok ()
  | false, false, false => .ok ()
  | true, _, _          => .error "a task that takes an answer names its operation and its reply key"
  | false, _, _         => .error "a notice takes no answer: it names no operation and no reply key"

/-- The tree of a document, as the reader of records takes it. -/
def documentTree (number : String → Option String) (bytes : List UInt8) : Option Value :=
  (fromUtf8 bytes).bind (parseTree number)

/-- Read a document. One with a member missing, unknown or of another type, or whose kind disagrees with what it holds,
    is not an envelope. -/
def Envelope.fromBytes (number : String → Option String) (bytes : List UInt8) : Except String Envelope :=
  match (documentTree number bytes).bind ofJson with
  | none => .error "the envelope cannot be read"
  | some envelope => do
      envelope.checkKind
      .ok envelope

/-- SHA-256 of a document, as it is written. -/
def documentHash (sha256 : List UInt8 → List UInt8) (bytes : List UInt8) : String := hexEncode (sha256 bytes)

end Tasks
end Worker
end Outlayer
