import Outlayer.Github.Action

/-!
# `Github.Shown` — what the owner is shown of a write

A write the owner confirms is shown whole: its values in fields, its contents in fields or in files of the task. What
is sealed beside them is the write itself, where each content that became a file is named by its name, size and hash.
-/

namespace Outlayer.Github
open Text Json Checked

/-- The limits of what one task shows: its title, its fields, its lists and its files. -/
def mostTitleChars : Nat := 80
def mostFields : Nat := 12
def mostLabelChars : Nat := 40
def mostLongTextChars : Nat := 50000
def mostTextChars : Nat := 500
def mostShortChars : Nat := 200
def mostListValues : Nat := 20
def mostFiles : Nat := 10
def mostFileBytes : Nat := 6 * 1024 * 1024
/-- What the contents shown in fields hold together, at most. -/
def mostShownContentBytes : Nat := 128 * 1024
/-- The file of a review's line comments when they do not fit a field each. -/
def reviewCommentsFile : String := "review-comments.json"

/-- How the connector writes and reads what it keeps: a write as JSON, and line comments as indented JSON. -/
structure Codec where
  write : Action → List UInt8
  read : List UInt8 → Option Action
  pretty : List LineComment → List UInt8

/-- What the owner is shown of a write, and the write that is carried out. -/
structure Shown where
  title : String
  fields : List Field
  files : List TaskFile
  sealed : Action

/-! ## Fields -/

/-- A field of one text. -/
def textField (label value : String) (writer : WrittenBy) : Field := ⟨label, .text, [value], writer⟩

/-- A text the agent wrote, or, when it is blank, `blank` in the project's words. -/
def longOr (label value blank : String) : Field :=
  if trim value = "" then textField label blank .project else ⟨label, .longText, [value], .agent⟩

/-- A list the agent gave, or, when it is empty, `empty` in the project's words. -/
def listOr (label : String) (values : Option (List String)) (empty : String) : List Field :=
  match values with
  | none    => []
  | some [] => [textField label empty .project]
  | some vs => [⟨label, .list, vs, .agent⟩]

/-! ## What a field draws -/

/-- Drawn as nothing, or changing how text around it is drawn. -/
def misleads (c : Char) : Bool :=
  isControl c ||
    [(0xAD, 0xAD), (0x34F, 0x34F), (0x61C, 0x61C), (0x115F, 0x1160), (0x17B4, 0x17B5), (0x180B, 0x180F),
      (0x200B, 0x200F), (0x2028, 0x202E), (0x2060, 0x206F), (0x2800, 0x2800), (0x3164, 0x3164), (0xFE00, 0xFE0F),
      (0xFEFF, 0xFEFF), (0xFFA0, 0xFFA0), (0xFFF9, 0xFFFC), (0x1BCA0, 0x1BCA3), (0x1D173, 0x1D17A),
      (0xE0000, 0xE0FFF)].any fun r => decide (r.1 ≤ c.toNat) && decide (c.toNat ≤ r.2)

/-- A mark drawn over, under or through the character before it. -/
def combines (c : Char) : Bool :=
  [(0x300, 0x36F), (0x1AB0, 0x1AFF), (0x1DC0, 0x1DFF), (0x20D0, 0x20FF), (0xFE20, 0xFE2F)].any
    fun r => decide (r.1 ≤ c.toNat) && decide (c.toNat ≤ r.2)

/-- Is `text` a content a field shows exactly as it is written? -/
def shownWhole (text : String) : Bool :=
  !text.toList.all isWhitespace && decide (text.toList.length ≤ mostLongTextChars) &&
    text.toList.all fun c => c = '\n' || c = '\t' || !(misleads c || combines c)

/-! ## Where contents go -/

/-- The name a file of the task goes by: its place in the write, and the last part of its path in characters any file
    system keeps. -/
def fileName (number : Nat) (path : String) : String :=
  let last := (split '/' path).getLast?.getD ""
  let kept := last.toList.map fun c => if isAsciiAlphanumeric c || c = '.' || c = '-' || c = '_' then c else '_'
  let kept := trimEndWhile (· = '.') (String.ofList (kept.take 120))
  if kept = "" then toString number else toString number ++ "-" ++ kept

/-- Where a text is shown: in a field, in a file, or nowhere when it is empty. -/
inductive Placed
  | shown (label : String)
  | inFile (name : String)
  | empty

/-- Contents are shown in fields while there is room and they are text a field draws, and go into files otherwise. -/
structure Placing where
  slots : Nat
  shownBytes : Nat := 0
  fields : List Field := []
  files : List TaskFile := []

/-- The text of a content there is room to show. -/
def Placing.room (p : Placing) : Content → Option String
  | .text t =>
      if 0 < p.slots ∧ p.shownBytes + t.utf8ByteSize ≤ mostShownContentBytes ∧ shownWhole t then some t else none
  | _ => none

/-- The type a file is given to the owner as. -/
def contentType (data : List UInt8) : String :=
  match fromUtf8 data with
  | some _ => "text/plain"
  | none   => "application/octet-stream"

/-- Place one content: where it went, what is sealed for it, and what is left to place in. -/
def Placing.place (env : Env) (p : Placing) (number : Nat) (path label : String) (content : Content) :
    Except String (Placed × Content × Placing) :=
  if content.len = 0 then .ok (.empty, content, p)
  else match p.room content with
    | some t => .ok (.shown label, content, { p with
        slots := p.slots - 1
        shownBytes := p.shownBytes + t.utf8ByteSize
        fields := p.fields ++ [⟨label, .longText, [t], .agent⟩] })
    | none => do
        let data ← content.toBytes
        let name := fileName number path
        pure (.inFile name, .file name data.length (hexEncode (env.sha256 data)), { p with
          files := p.files ++ [⟨name, contentType data, data⟩] })

/-- One entry of a list of files: the number, the path, and where its content is. -/
def entryText (number : Nat) (path : String) (size : Nat) : Placed → String
  | .shown label => toString number ++ ". " ++ path ++ ": " ++ toString size ++ " bytes, shown as " ++ label
  | .inFile name => toString number ++ ". " ++ path ++ ": " ++ toString size ++ " bytes, in the file " ++ name
  | .empty       => toString number ++ ". " ++ path ++ ": empty, 0 bytes"

/-- A file of a list, by its path or name, and what it will hold; nothing for one that is deleted. -/
abbrev Part : Type := String × Option Content

/-- The entries of a list of files from number `n` on, what is sealed for each, and where their contents went. -/
def Placing.entries (env : Env) (shownAs : String) : (n : Nat) → List Part → Placing →
    Except String (List String × List Part × Placing)
  | _, [], p => .ok ([], [], p)
  | n, (path, none) :: parts, p => do
      let (rest, kept, p) ← entries env shownAs (n + 1) parts p
      pure ((toString n ++ ". " ++ path ++ ": deleted") :: rest, (path, none) :: kept, p)
  | n, (path, some content) :: parts, p => do
      let (placed, sealed, p) ← p.place env n path (shownAs ++ " " ++ toString n) content
      let (rest, kept, p) ← entries env shownAs (n + 1) parts p
      pure (entryText n path content.len placed :: rest, (path, some sealed) :: kept, p)

/-- A change as a path and what is written there. -/
def Change.part : Change → Part
  | .write path content => (path, some content)
  | .delete path        => (path, none)

/-- The change again. -/
def Change.ofPart : Part → Change
  | (path, some content) => .write path content
  | (path, none)         => .delete path

/-- A change of a gist's file, likewise. -/
def GistFile.part : GistFile → Part
  | .write name content => (name, some content)
  | .delete name        => (name, none)

/-- The change again. -/
def GistFile.ofPart : Part → GistFile
  | (name, some content) => .write name content
  | (name, none)         => .delete name

/-! ## Line ends -/

/-- Line ends as the owner reads them and as the text is posted. -/
def asRead (text : String) : String := String.ofList (joinLineEnds text.toList)

/-- A comment as its reader sees it. -/
def LineComment.asRead (c : LineComment) : LineComment := { c with body := Github.asRead c.body }

/-- An action with its long texts as their readers see them. -/
def Action.asReadAll : Action → Action
  | .filePut a      => .filePut { a with message := asRead a.message }
  | .commit a       => .commit { a with message := asRead a.message }
  | .issueCreate a  => .issueCreate { a with body := asRead a.body }
  | .issueComment a => .issueComment { a with body := asRead a.body }
  | .issueUpdate a  => .issueUpdate { a with body := a.body.map asRead }
  | .prCreate a     => .prCreate { a with body := asRead a.body }
  | .prReview a     => .prReview { a with body := asRead a.body, comments := a.comments.map LineComment.asRead }
  | .gistCreate a   => .gistCreate { a with description := asRead a.description }
  | .gistUpdate a   => .gistUpdate { a with description := a.description.map asRead }
  | .branchCreate a => .branchCreate a
  | .prMerge a      => .prMerge a
  | .repoStar r     => .repoStar r
  | .repoUnstar r   => .repoUnstar r

/-! ## The task -/

/-- The refusal of a write with more parts than a task shows. -/
def tooMany (what : String) (n : Nat) : String :=
  "display_invalid: the owner confirms this write, and a write to be confirmed shows each of its " ++ what ++
    " on the task: at most " ++ toString mostListValues ++ ", and this one has " ++ toString n ++ ". Split it"

/-- A comment with its place, as a field shows it. -/
def lineComment (c : LineComment) : String :=
  c.path ++ ", line " ++ toString c.line ++ ", " ++ c.side ++ " side:\n\n" ++ c.body

/-- The fields of a review's line comments, numbered from `n`. -/
def commentFields : (n : Nat) → List String → List Field
  | _, []      => []
  | n, c :: cs => ⟨"Line comment " ++ toString n, .longText, [c], .agent⟩ :: commentFields (n + 1) cs

/-- A pull request's title, when it has one. -/
def pullTitle (pull : Pull) : List Field :=
  if trim pull.title = "" then [] else [textField "Its title" pull.title .project]

/-- The files of a list in a task: the fields before them, the label of the list, and what one is shown as. -/
def shownParts (env : Env) (fields : List Field) (label shownAs : String) (parts : List Part) :
    Except String (List Part × List Field × List TaskFile) := do
  let (entries, kept, p) ← Placing.entries env shownAs 1 parts { slots := mostFields - (fields.length + 1) }
  pure (kept, fields ++ [⟨label, .list, entries, .agent⟩] ++ p.fields, p.files)

/-- The fields and the file of a review's line comments. -/
def shownComments (codec : Codec) (fields : List Field) (comments : List LineComment) : List Field × List TaskFile :=
  let rendered := comments.map lineComment
  if rendered.length ≤ mostFields - fields.length ∧ rendered.all shownWhole then
    (fields ++ commentFields 1 rendered, [])
  else
    (fields ++ [textField "Line comments" (toString comments.length ++ ", in the file " ++ reviewCommentsFile)
      .project], [⟨reviewCommentsFile, "application/json", codec.pretty comments⟩])

/-- A write as the texts of it are read, as it goes into a task. -/
def shownOf (env : Env) (codec : Codec) : Action → Except String Shown
  | .branchCreate a => do
      let start ← expect a.start "task_unreadable: the branch has no commit to start from"
      pure ⟨"Create a branch",
        [textField "Repository" a.repo .agent, textField "Branch" a.branch .agent,
          textField "From" start.branch (if a.fromBranch.isSome then .agent else .project),
          textField "Starts at commit" start.sha .project], [], .branchCreate a⟩
  | .filePut a => do
      let fields := [textField "Repository" a.repo .agent, textField "Branch" a.branch .agent,
        textField "Path" a.path .agent, longOr "Commit message" a.message "empty"] ++
        (a.sha.map (textField "Replaces the file at blob" · .agent)).toList
      let (placed, sealed, p) ← Placing.place env { slots := 1 } 1 a.path "Content" a.content
      let content := match placed with
        | .shown _     => []
        | .inFile name =>
            [textField "Content" (toString a.content.len ++ " bytes, in the file " ++ name) .project]
        | .empty       => [textField "Content" "empty, 0 bytes" .project]
      pure ⟨"Write a file", fields ++ content ++ p.fields, p.files, .filePut { a with content := sealed }⟩
  | .commit a => do
      require (a.changes.length ≤ mostListValues) (tooMany "changed files" a.changes.length)
      let fields := [textField "Repository" a.repo .agent, textField "Branch" a.branch .agent,
        longOr "Commit message" a.message "empty"]
      let (kept, fields, files) ← shownParts env fields "Changes" "Change" (a.changes.map Change.part)
      pure ⟨"Commit files", fields, files, .commit { a with changes := kept.map Change.ofPart }⟩
  | .issueCreate a =>
      pure ⟨"Open an issue",
        [textField "Repository" a.repo .agent, textField "Title" a.title .agent, longOr "Body" a.body "empty"] ++
          listOr "Labels" a.labels "none" ++ listOr "Assignees" a.assignees "none", [], .issueCreate a⟩
  | .issueComment a =>
      pure ⟨"Comment on an issue or pull request",
        [textField "Repository" a.repo .agent,
          textField "Issue or pull request" ("#" ++ toString a.number) .agent, longOr "Comment" a.body "empty"], [],
        .issueComment a⟩
  | .issueUpdate a =>
      pure ⟨"Change an issue",
        [textField "Repository" a.repo .agent, textField "Issue" ("#" ++ toString a.number) .agent] ++
          (a.state.map (textField "State" · .agent)).toList ++ (a.title.map (textField "Title" · .agent)).toList ++
          (a.body.map (longOr "Body" · "empty")).toList ++
          listOr "Labels" a.labels "none: every label is removed" ++
          listOr "Assignees" a.assignees "none: every assignee is removed", [], .issueUpdate a⟩
  | .prCreate a =>
      pure ⟨"Open a pull request",
        [textField "Repository" a.repo .agent, textField "From branch" a.head .agent,
          textField "Into branch" a.base .agent, textField "Title" a.title .agent, longOr "Body" a.body "empty",
          textField "Draft" (if a.draft then "yes" else "no") .agent], [], .prCreate a⟩
  | .prReview a =>
      let pull := match a.pull with
        | some p => pullTitle p ++ [textField "Reviewed commit" p.sha .project]
        | none   => []
      let fields := [textField "Repository" a.repo .agent, textField "Pull request" ("#" ++ toString a.number) .agent]
        ++ pull ++ [textField "Verdict" a.event .agent, longOr "Summary" a.body "empty"]
      let (fields, files) := shownComments codec fields a.comments
      pure ⟨"Review a pull request", fields, files, .prReview a⟩
  | .prMerge a =>
      let pull := match a.pull with
        | some p => pullTitle p ++ [textField "Branches" (p.head ++ " into " ++ p.base) .project]
        | none   => []
      let head := match a.sha, a.pull with
        | some sha, _    => [textField "Head commit" sha .agent]
        | none, some p   => [textField "Head commit" p.sha .project]
        | none, none     => []
      pure ⟨"Merge a pull request",
        [textField "Repository" a.repo .agent, textField "Pull request" ("#" ++ toString a.number) .agent] ++
          pull ++ head ++ [textField "Method" a.mergeMethod .agent], [], .prMerge a⟩
  | .gistCreate a => do
      require (a.files.length ≤ mostListValues) (tooMany "files" a.files.length)
      let fields := textField "Visibility" (if a.isPublic then "public" else "secret") .agent ::
        if trim a.description = "" then [] else [longOr "Description" a.description "empty"]
      let (kept, fields, files) ← shownParts env fields "Files" "File" (a.files.map GistFile.part)
      pure ⟨"Create a gist", fields, files, .gistCreate { a with files := kept.map GistFile.ofPart }⟩
  | .gistUpdate a => do
      require (a.files.length ≤ mostListValues) (tooMany "files" a.files.length)
      let fields := textField "Gist" a.gistId .agent ::
        (a.description.map (longOr "Description" · "empty: the description is removed")).toList
      if a.files = [] then pure ⟨"Change a gist", fields, [], .gistUpdate a⟩
      else do
        let (kept, fields, files) ← shownParts env fields "Files" "File" (a.files.map GistFile.part)
        pure ⟨"Change a gist", fields, files, .gistUpdate { a with files := kept.map GistFile.ofPart }⟩
  | .repoStar repo =>
      pure ⟨"Star a repository", [textField "Repository" repo .agent], [], .repoStar repo⟩
  | .repoUnstar repo =>
      pure ⟨"Unstar a repository", [textField "Repository" repo .agent], [], .repoUnstar repo⟩

/-- `action`, which passed the owner's rules, as it goes into a task. -/
def shown (env : Env) (codec : Codec) (action : Action) : Except String Shown := shownOf env codec action.asReadAll

/-! ## What a task holds -/

/-- The refusal of a write that cannot be shown whole. -/
def refuseShown (what : String) : String :=
  "display_invalid: the owner confirms this write, and what is confirmed is shown whole: " ++ what

/-- The most characters a value of a field holds. -/
def mostChars : FieldKind → Nat
  | .longText => mostLongTextChars
  | .text     => mostTextChars
  | _         => mostShortChars

/-- A field within the limits. -/
def checkField (field : Field) : Except String Unit := do
  require (field.label.toList.length ≤ mostLabelChars) (refuseShown ("the label `" ++ field.label ++
    "` is longer than " ++ toString mostLabelChars ++ " characters"))
  require (field.kind = .list → 1 ≤ field.values.length ∧ field.values.length ≤ mostListValues)
    (refuseShown ("`" ++ field.label ++ "` lists " ++ toString field.values.length ++
      " values, and a list shows 1 to " ++ toString mostListValues))
  forEach (fun value => require (value.toList.length ≤ mostChars field.kind) (refuseShown ("`" ++ field.label ++
    "` holds " ++ toString value.toList.length ++ " characters, and a field shows at most " ++
    toString (mostChars field.kind)))) field.values

/-- What a task must be to be shown whole, or the refusal. -/
def checkShown (shown : Shown) : Except String Unit := do
  require (shown.title.toList.length ≤ mostTitleChars)
    (refuseShown ("its title is longer than " ++ toString mostTitleChars ++ " characters"))
  require (shown.fields.length ≤ mostFields) (refuseShown ("it needs " ++ toString shown.fields.length ++
    " fields, and a task shows " ++ toString mostFields))
  forEach checkField shown.fields
  require (shown.files.length ≤ mostFiles)
    ("task_too_large: the owner confirms this write, and it gives the owner " ++ toString shown.files.length ++
      " files to open; a task holds at most " ++ toString mostFiles ++ ". Split it")
  let bytes := (shown.files.map fun f => f.data.length).sum
  require (bytes ≤ mostFileBytes)
    ("task_too_large: the owner confirms this write, and the files it gives the owner to open are " ++
      toString bytes ++ " bytes; a task holds at most " ++ toString mostFileBytes ++ ". Split it")

end Outlayer.Github
