import Outlayer.Github.Policy
import Outlayer.Lib.Checked

/-!
# `Github.Action` — a write as one value

A write is read from the call into an `Action`, judged by the owner's rules as the action holds its values, and carried
out at once or, when the owner is to confirm it, sealed in a task first. What is carried out is the action, whichever
way it went.
-/

namespace Outlayer.Github
open Text Json Exchange Checked

/-- The largest file a run reads. -/
def maxFileBytes : Nat := 256 * 1024
/-- The longest text taken from an agent for a body, a comment or a description. -/
def maxTextBytes : Nat := 60 * 1024
/-- The largest file `file_put` writes. -/
def maxPutBytes : Nat := maxFileBytes * 4
/-- The most line comments of one review. -/
def maxReviewComments : Nat := 50
/-- The most files of one commit. -/
def maxFilesPerCommit : Nat := 50

/-! ## The call -/

/-- One file of a commit, as the input gives it. -/
structure FileChange where
  path : String
  content : Option String := none
  encoding : Option String := none
  delete : Bool := false

/-- One comment on a line, as the input gives it. -/
structure ReviewComment where
  path : String
  line : Nat
  side : Option String := none
  body : String

/-- Every field an operation reads. -/
structure Input where
  operation : String := ""
  repo : Option String := none
  number : Option Nat := none
  path : Option String := none
  gitRef : Option String := none
  branch : Option String := none
  fromBranch : Option String := none
  title : Option String := none
  body : Option String := none
  state : Option String := none
  labels : Option (List String) := none
  assignees : Option (List String) := none
  content : Option String := none
  encoding : Option String := none
  message : Option String := none
  sha : Option String := none
  files : List FileChange := []
  head : Option String := none
  base : Option String := none
  draft : Option Bool := none
  event : Option String := none
  comments : List ReviewComment := []
  mergeMethod : Option String := none
  gistId : Option String := none
  description : Option String := none
  isPublic : Option Bool := none
  page : Option Nat := none
  perPage : Option Nat := none
  taskId : Option String := none
  taskHash : Option String := none
  approval : Option Value := none
  note : Option String := none

/-! ## Reading the call's fields -/

/-- A field, trimmed, if it holds anything. -/
def given (value : Option String) : Option String := (value.map trim).filter (· ≠ "")

/-- A field of the input that has to be there. -/
def need (value : Option String) (name : String) : Except String String :=
  expect (given value) ("invalid: `" ++ name ++ "` is required")

/-- The repository of the input, in its own shape. -/
def repoOf (input : Input) : Except String String := do
  let repo ← need input.repo "repo"
  cleanRepo repo
  pure repo

/-- The number of an issue or a pull request. -/
def numberOf (input : Input) : Except String Nat :=
  expect (input.number.filter (0 < ·)) "invalid: `number` is required"

/-- A field that may be left out, and else is one of a few words. -/
def oneOf (value : Option String) (name : String) (allowed : List String) : Except String (Option String) :=
  match given value with
  | none   => .ok none
  | some v =>
      if v ∈ allowed then .ok (some v)
      else .error ("invalid: `" ++ name ++ "` must be one of " ++ ", ".intercalate allowed ++ ", got `" ++ v ++ "`")

/-- The id of a gist. -/
def gistIdOf (input : Input) : Except String String := do
  let id ← need input.gistId "gist_id"
  require (id.utf8ByteSize ≤ 64 ∧ id.toList.all isAsciiHexdigit)
    ("invalid: `gist_id` is the hexadecimal id from a gist's URL, got `" ++ id ++ "`")
  pure id

/-- A text the agent posts, within its bound; absent, it is empty. -/
def textOf (value : Option String) (name : String) : Except String String :=
  let text := value.getD ""
  if maxTextBytes < text.utf8ByteSize then
    .error ("invalid: `" ++ name ++ "` is " ++ toString text.utf8ByteSize ++ " bytes; the most taken is " ++
      toString maxTextBytes)
  else .ok text

/-- Text as it is, or bytes as base64. -/
def contentBytes (env : Env) (content encoding : Option String) (what : String) : Except String (List UInt8) := do
  let content ← expect content ("invalid: " ++ what ++ " needs `content`")
  let encoding := (encoding.map trim).getD "utf-8"
  if encoding = "utf-8" ∨ encoding = "" then pure (utf8 content)
  else if encoding = "base64" then
    (env.decode64 (utf8 (String.ofList (content.toList.filter fun c => !isWhitespace c)))).mapError
      fun e => "invalid: " ++ what ++ " says base64 and is not: " ++ e
  else throw ("invalid: `encoding` is `utf-8` or `base64`, got `" ++ encoding ++ "`")

/-! ## What is written -/

/-- What a file will hold. -/
inductive Content
  | text (text : String)
  | bytes (bytes : List UInt8)
  /-- Held as a file of the task; only the bytes of that size and hash are written. -/
  | file (name : String) (bytes : Nat) (sha256 : String)
deriving DecidableEq

namespace Content

/-- A text where the bytes are one, and bytes where not. -/
def fromBytes (bs : List UInt8) : Content :=
  match fromUtf8 bs with
  | some t => .text t
  | none   => .bytes bs

/-- The bytes to write. A file of a task that was not taken back is not content. -/
def toBytes : Content → Except String (List UInt8)
  | .text t     => .ok (utf8 t)
  | .bytes bs   => .ok bs
  | .file _ _ _ => .error "task_unreadable: a file of the task was not taken back"

/-- The length in bytes. -/
def len : Content → Nat
  | .text t     => t.utf8ByteSize
  | .bytes bs   => bs.length
  | .file _ n _ => n

end Content

/-- The branch a new branch starts from, and its commit. -/
structure Start where
  branch : String
  sha : String
deriving DecidableEq

/-- A change of one path in a commit. -/
inductive Change
  | write (path : String) (content : Content)
  | delete (path : String)
deriving DecidableEq

/-- The path that is changed. -/
def Change.path : Change → String
  | .write path _ => path
  | .delete path  => path

/-- A pull request as GitHub described it when the owner was to be asked about it. -/
structure Pull where
  title : String
  head : String
  base : String
  sha : String
deriving DecidableEq

/-- A comment on one line of a pull request. -/
structure LineComment where
  path : String
  line : Nat
  side : String
  body : String
deriving DecidableEq

/-- A change of one file of a gist. -/
inductive GistFile
  | write (name : String) (content : Content)
  | delete (name : String)
deriving DecidableEq

/-- A branch to be created. -/
structure BranchCreate where
  repo : String
  branch : String
  fromBranch : Option String
  start : Option Start
deriving DecidableEq

/-- A file to be written in a commit of its own. -/
structure FilePut where
  repo : String
  branch : String
  path : String
  message : String
  content : Content
  sha : Option String
deriving DecidableEq

/-- A commit of several changes. -/
structure Commit where
  repo : String
  branch : String
  message : String
  changes : List Change
deriving DecidableEq

/-- An issue to be opened. -/
structure IssueCreate where
  repo : String
  title : String
  body : String
  labels : Option (List String)
  assignees : Option (List String)
deriving DecidableEq

/-- A comment on an issue. -/
structure IssueComment where
  repo : String
  number : Nat
  body : String
deriving DecidableEq

/-- What is to change in an issue. -/
structure IssueUpdate where
  repo : String
  number : Nat
  state : Option String
  title : Option String
  body : Option String
  labels : Option (List String)
  assignees : Option (List String)
deriving DecidableEq

/-- A pull request to be opened. -/
structure PrCreate where
  repo : String
  title : String
  head : String
  base : String
  body : String
  draft : Bool
deriving DecidableEq

/-- A review of a pull request. -/
structure PrReview where
  repo : String
  number : Nat
  event : String
  body : String
  comments : List LineComment
  pull : Option Pull
deriving DecidableEq

/-- A merge of a pull request, with the pull request the owner was shown. -/
structure PrMerge where
  repo : String
  number : Nat
  mergeMethod : String
  sha : Option String
  pull : Option Pull
deriving DecidableEq

/-- A gist to be created. -/
structure GistCreate where
  description : String
  isPublic : Bool
  files : List GistFile
deriving DecidableEq

/-- What is to change in a gist. -/
structure GistUpdate where
  gistId : String
  description : Option String
  files : List GistFile
deriving DecidableEq

/-- One write, by operation. -/
inductive Action
  | branchCreate (a : BranchCreate)
  | filePut (a : FilePut)
  | commit (a : Commit)
  | issueCreate (a : IssueCreate)
  | issueComment (a : IssueComment)
  | issueUpdate (a : IssueUpdate)
  | prCreate (a : PrCreate)
  | prReview (a : PrReview)
  | prMerge (a : PrMerge)
  | gistCreate (a : GistCreate)
  | gistUpdate (a : GistUpdate)
  | repoStar (repo : String)
  | repoUnstar (repo : String)
deriving DecidableEq

namespace Action

/-- The operation an action is of. -/
def confirmable : Action → Confirmable
  | .branchCreate _ => .branchCreate
  | .filePut _      => .filePut
  | .commit _       => .commit
  | .issueCreate _  => .issueCreate
  | .issueComment _ => .issueComment
  | .issueUpdate _  => .issueUpdate
  | .prCreate _     => .prCreate
  | .prReview _     => .prReview
  | .prMerge _      => .prMerge
  | .gistCreate _   => .gistCreate
  | .gistUpdate _   => .gistUpdate
  | .repoStar _     => .repoStar
  | .repoUnstar _   => .repoUnstar

/-- The repository it writes to; a gist is in none. -/
def repo : Action → Option String
  | .branchCreate a => some a.repo
  | .filePut a      => some a.repo
  | .commit a       => some a.repo
  | .issueCreate a  => some a.repo
  | .issueComment a => some a.repo
  | .issueUpdate a  => some a.repo
  | .prCreate a     => some a.repo
  | .prReview a     => some a.repo
  | .prMerge a      => some a.repo
  | .repoStar r     => some r
  | .repoUnstar r   => some r
  | .gistCreate _   => none
  | .gistUpdate _   => none

/-- The branch it writes to, and so must be one the policy lets it write. -/
def writtenBranch : Action → Option String
  | .branchCreate a => some a.branch
  | .filePut a      => some a.branch
  | .commit a       => some a.branch
  | .prCreate a     => some a.head
  | _               => none

end Action

/-! ## Reading the call -/

/-- The refusal of a commit of more files than a run has time for. -/
def tooManyFiles (n : Nat) : String :=
  "too_large: " ++ toString n ++ " files in one commit; a run has time for " ++ toString maxFilesPerCommit ++
    ". Split it into several commits"

/-- The refusal of a review of more comments than are taken. -/
def tooManyComments (n : Nat) : String :=
  "invalid: " ++ toString n ++ " comments in one review; the most taken is " ++ toString maxReviewComments

/-- The changes of a commit. -/
def readChanges (env : Env) (files : List FileChange) : Except String (List Change) :=
  files.mapM fun file =>
    if file.delete then pure (.delete file.path)
    else do
      let bytes ← contentBytes env file.content file.encoding ("`" ++ file.path ++ "`")
      pure (.write file.path (.fromBytes bytes))

/-- `files` as a gist's: a plain name to text, or to nothing to remove it. -/
def gistFiles (env : Env) (files : List FileChange) (removingAllowed : Bool) : Except String (List GistFile) := do
  require (files ≠ []) "invalid: `files` is required: [\x7b\"path\": \"notes.md\", \"content\": \"…\"\x7d]"
  files.mapM fun file => do
    let name := trim file.path
    require (name ≠ "" ∧ '/' ∉ name.toList ∧ name.utf8ByteSize ≤ 255)
      ("invalid: a gist file's `path` is a plain file name, got `" ++ file.path ++ "`")
    if file.delete then do
      require removingAllowed "invalid: a new gist has no file to delete"
      pure (.delete name)
    else do
      let bytes ← contentBytes env file.content file.encoding ("`" ++ name ++ "`")
      let content ← expect (fromUtf8 bytes) ("invalid: `" ++ name ++ "` is not text; a gist holds text")
      require (trim content ≠ "") ("invalid: `" ++ name ++ "` is empty; GitHub does not keep an empty gist file")
      pure (.write name (.text content))

/-- The line comments of a review. -/
def readComments (comments : List ReviewComment) : Except String (List LineComment) :=
  comments.mapM fun c => do
    require (trim c.path ≠ "" ∧ c.line ≠ 0 ∧ trim c.body ≠ "")
      "invalid: each review comment needs `path`, `line` and `body`"
    let side ← oneOf c.side "side" ["LEFT", "RIGHT"]
    pure ⟨c.path, c.line, side.getD "RIGHT", c.body⟩

/-- The call as an action: every value it will use, the marker on the texts the agent posts. -/
def Action.read (env : Env) (operation : Confirmable) (input : Input) (rules : Policy) : Except String Action :=
  match operation with
  | .branchCreate => do
      let repo ← repoOf input
      let branch ← need input.branch "branch"
      pure (.branchCreate ⟨repo, branch, given input.fromBranch, none⟩)
  | .filePut => do
      let repo ← repoOf input
      let branch ← need input.branch "branch"
      let path ← need input.path "path"
      let message ← need input.message "message"
      let bytes ← contentBytes env input.content input.encoding "`file_put`"
      pure (.filePut ⟨repo, branch, path, message, .fromBytes bytes, given input.sha⟩)
  | .commit => do
      let repo ← repoOf input
      let branch ← need input.branch "branch"
      let message ← need input.message "message"
      require (input.files ≠ []) ("invalid: `files` is required: [\x7b\"path\", \"content\"\x7d] or " ++
        "[\x7b\"path\", \"delete\": true\x7d]")
      require (input.files.length ≤ maxFilesPerCommit) (tooManyFiles input.files.length)
      let changes ← readChanges env input.files
      pure (.commit ⟨repo, branch, message, changes⟩)
  | .issueCreate => do
      let repo ← repoOf input
      let title ← need input.title "title"
      let body ← textOf input.body "body"
      pure (.issueCreate ⟨repo, title, rules.mark body, input.labels, input.assignees⟩)
  | .issueComment => do
      let repo ← repoOf input
      let number ← numberOf input
      let said ← textOf input.body "body"
      require (trim said ≠ "") "invalid: `body` is required"
      pure (.issueComment ⟨repo, number, rules.mark said⟩)
  | .issueUpdate => do
      let repo ← repoOf input
      let number ← numberOf input
      let state ← oneOf input.state "state" ["open", "closed"]
      let title := given input.title
      let text ← textOf input.body "body"
      let body := input.body.map fun _ => rules.mark text
      require (¬ (state = none ∧ title = none ∧ body = none ∧ input.labels = none ∧ input.assignees = none))
        "invalid: nothing to change — give `state`, `title`, `body`, `labels` or `assignees`"
      pure (.issueUpdate ⟨repo, number, state, title, body, input.labels, input.assignees⟩)
  | .prCreate => do
      let repo ← repoOf input
      let title ← need input.title "title"
      let head ← need input.head "head"
      let base ← need input.base "base"
      let body ← textOf input.body "body"
      pure (.prCreate ⟨repo, title, head, base, rules.mark body, input.draft.getD false⟩)
  | .prReview => do
      let repo ← repoOf input
      let number ← numberOf input
      let event ← oneOf input.event "event" ["COMMENT", "REQUEST_CHANGES", "APPROVE"]
      let event := event.getD "COMMENT"
      rules.checkVerdict event
      let summary ← textOf input.body "body"
      require (¬ (trim summary = "" ∧ input.comments = [])) "invalid: a review needs a `body`, `comments`, or both"
      require (input.comments.length ≤ maxReviewComments) (tooManyComments input.comments.length)
      let comments ← readComments input.comments
      pure (.prReview ⟨repo, number, event, rules.mark summary, comments, none⟩)
  | .prMerge => do
      rules.checkMerge
      let repo ← repoOf input
      let number ← numberOf input
      let mergeMethod ← oneOf input.mergeMethod "merge_method" ["merge", "squash", "rebase"]
      pure (.prMerge ⟨repo, number, mergeMethod.getD "squash", given input.sha, none⟩)
  | .gistCreate => do
      let isPublic := input.isPublic.getD false
      rules.checkPublicGist isPublic
      let description ← textOf input.description "description"
      let files ← gistFiles env input.files false
      pure (.gistCreate ⟨description, isPublic, files⟩)
  | .gistUpdate => do
      let gistId ← gistIdOf input
      let files ← (if input.files = [] then .ok [] else gistFiles env input.files true)
      let text ← textOf input.description "description"
      let description := input.description.map fun _ => text
      require (¬ (files = [] ∧ description = none))
        "invalid: nothing to change — give `files`, `description` or both"
      pure (.gistUpdate ⟨gistId, description, files⟩)
  | .repoStar => do
      let repo ← repoOf input
      pure (.repoStar repo)
  | .repoUnstar => do
      let repo ← repoOf input
      pure (.repoUnstar repo)

/-! ## The owner's rules -/

/-- A branch the policy lets the agent write, by name or by pattern. -/
def writable (rules : Policy) (branch : String) : Except String BranchMatch := do
  cleanBranch branch
  rules.checkBranch branch

/-- The rules about repositories; a gist is in none. -/
def Action.checkRepo (rules : Policy) (action : Action) : Except String Unit :=
  match action.repo with
  | some repo => do
      cleanRepo repo
      rules.checkRepo repo
  | none => pure ()

/-- What the rules say of the values only this kind of write has. -/
def Action.checkOwn (rules : Policy) : Action → Except String Unit
  | .branchCreate a => do
      let _ ← writable rules a.branch
      match a.fromBranch with
      | some b => cleanBranch b
      | none   => pure ()
  | .filePut a => do
      rules.checkPath a.path
      let _ ← writable rules a.branch
      require (a.content.len ≤ maxPutBytes) ("too_large: the file is " ++ toString a.content.len ++
        " bytes; the most written is " ++ toString maxPutBytes)
  | .commit a => do
      require (a.changes ≠ []) "invalid: a commit changes at least one file"
      require (a.changes.length ≤ maxFilesPerCommit) (tooManyFiles a.changes.length)
      forEach (fun c => rules.checkPath c.path) a.changes
      let _ ← writable rules a.branch
  | .prCreate a => do
      let _ ← writable rules a.head
      cleanBranch a.base
  | .prReview a => do
      rules.checkVerdict a.event
      require (a.comments.length ≤ maxReviewComments) (tooManyComments a.comments.length)
  | .prMerge _ => rules.checkMerge
  | .gistCreate a => rules.checkPublicGist a.isPublic
  | .issueCreate _ | .issueComment _ | .issueUpdate _ | .gistUpdate _ | .repoStar _ | .repoUnstar _ => pure ()

/-- The owner's rules, as the action holds its values. -/
def Action.check (rules : Policy) (action : Action) : Except String Unit := do
  rules.checkAction action.confirmable.name
  action.checkRepo rules
  action.checkOwn rules
  let _ ← rules.writeCap

end Outlayer.Github
