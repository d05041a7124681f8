import Outlayer.Github.Action

/-!
# `Github.Execute` — carrying a write out

The steps of a write that ask GitHub: the rule about the default branch, what the action names there, and the calls
that make the write. A place in the day's budget is taken before the first call that writes and kept when GitHub
accepted.
-/

namespace Outlayer.Github
open Text Json Exchange Checked

/-- A JSON object from its members. -/
def object (members : List (String × Value)) : Value := .obj (collect members)

/-- A member of an answer; `null` where there is none. -/
def s (value : Value) (key : String) : Value := (value.get key).getD .null

/-- A JSON array of texts. -/
def strings (l : List String) : Value := .arr (l.map .str)

/-! ## What GitHub names -/

/-- The text two members down. -/
def named (value : Value) (side key : String) : Option String :=
  ((value.get side).bind (Value.get · key)).bind Value.asStr

/-- The branch GitHub names as the repository's own. -/
def defaultBranch (env : Env) (repo : String) : Connector String := do
  let described ← get env (.repository repo)
  expect ((described.get "default_branch").bind Value.asStr)
    "github_refused: the repository did not name its default branch"

/-- A pull request's title, its two branches and the commit at its head. -/
def pull (env : Env) (repo : String) (number : Nat) : Connector Pull := do
  let pr ← get env (.pull repo number)
  match named pr "head" "ref", named pr "base" "ref", named pr "head" "sha" with
  | some head, some base, some sha =>
      pure ⟨((pr.get "title").bind Value.asStr).getD "", head, base, sha⟩
  | _, _, _ => .fail "github_refused: the pull request did not name its head and base"

/-- The commit at a pull request's head. -/
def headOf (env : Env) (repo : String) (number : Nat) : Connector String := do
  let pr ← pull env repo number
  pure pr.sha

/-- The rule GitHub has to be asked about: a branch the policy allows only through a pattern must not be the
    repository's default branch. -/
def Action.checkOnGithub (env : Env) (rules : Policy) (action : Action) : Connector Unit :=
  match action.repo, action.writtenBranch with
  | some repo, some branch => do
      let matched ← rules.checkBranch branch
      if matched = .pattern then
        let default ← defaultBranch env repo
        Policy.checkNotDefault matched branch default
  | _, _ => pure ()

/-- What the action names on GitHub, read once, when it is prepared. -/
def Action.resolve (env : Env) (forOwner : Bool) : Action → Connector Action
  | .branchCreate a => do
      let branch ← startBranch env a
      let head ← get env (.branchHead a.repo branch)
      let sha ← expect (named head "object" "sha")
        ("not_found: the branch `" ++ branch ++ "` has no commit to start from")
      pure (.branchCreate { a with start := some ⟨branch, sha⟩ })
  | .prReview a =>
      if forOwner then do
        let pr ← pull env a.repo a.number
        pure (.prReview { a with pull := some pr })
      else pure (.prReview a)
  | .prMerge a =>
      if forOwner then do
        let pr ← pull env a.repo a.number
        pure (.prMerge { a with pull := some pr })
      else pure (.prMerge a)
  | action => pure action
where
  startBranch (env : Env) (a : BranchCreate) : Connector String :=
    match a.fromBranch with
    | some b => pure b
    | none   => defaultBranch env a.repo

/-- Read the call, check it, and resolve what it names on GitHub. -/
def Action.prepare (env : Env) (operation : Confirmable) (input : Input) (rules : Policy) (forOwner : Bool) :
    Connector Action := do
  rules.checkAction operation.name
  let action ← Action.read env operation input rules
  action.check rules
  action.checkOnGithub env rules
  action.resolve env forOwner

/-! ## Bodies -/

/-- A gist's `files` as GitHub takes them: a name to its content, or to `null` to remove it. -/
def gistBody : List GistFile → List (String × Value) → Except String Value
  | [], out => .ok (.obj out)
  | .delete name :: files, out => gistBody files (insertMember name .null out)
  | .write name content :: files, out => do
      let bytes ← content.toBytes
      let text ← expect (fromUtf8 bytes) ("invalid: `" ++ name ++ "` is not text; a gist holds text")
      gistBody files (insertMember name (object [("content", .str text)]) out)

/-- A member that is there only when it has a value. -/
def withMember (key : String) (held : Option Value) (v : Value) : Value :=
  match held with
  | some w => v.set key w
  | none   => v

/-! ## A commit -/

/-- The entry of a tree for a file. -/
def treeEntry (path : String) (key : String) (held : Value) : Value :=
  object [("path", .str path), ("mode", .str "100644"), ("type", .str "blob"), (key, held)]

/-- The entry of a file that is written. Text rides in the tree itself; bytes that are not text are a blob of their
    own. -/
def writtenEntry (env : Env) (repo path : String) (bytes : List UInt8) : Connector Value :=
  match fromUtf8 bytes with
  | some text => pure (treeEntry path "content" (.str text))
  | none => do
      let blob ← post env (.blobs repo)
        (object [("content", .str (base64Encode bytes)), ("encoding", .str "base64")])
      pure (treeEntry path "sha" (s blob "sha"))

/-- The tree of the changes. -/
def treeOf (env : Env) (repo : String) : List Change → Connector (List Value)
  | [] => pure []
  | .delete path :: changes => do
      let rest ← treeOf env repo changes
      pure (treeEntry path "sha" .null :: rest)
  | .write path content :: changes => do
      let bytes ← content.toBytes
      let entry ← writtenEntry env repo path bytes
      let rest ← treeOf env repo changes
      pure (entry :: rest)

/-- Several files in one commit: the tree is built on the branch's own tree, the commit on its head, and the branch is
    moved without force. -/
def commitFiles (env : Env) (rules : Policy) (counted : Counted) (a : Commit) : Connector Value :=
  reserveWrite env rules counted fun used => do
    let ref ← get env (.branchHead a.repo a.branch)
    let head ← expect (named ref "object" "sha")
      ("not_found: the branch `" ++ a.branch ++ "` does not exist; create it with `branch_create`")
    let commit ← get env (.commitObject a.repo head)
    let baseTree ← expect (named commit "tree" "sha") "github_refused: the branch's head has no tree"
    let tree ← treeOf env a.repo a.changes
    let newTree ← post env (.trees a.repo) (object [("base_tree", .str baseTree), ("tree", .arr tree)])
    let newCommit ← post env (.commits a.repo)
      (object [("message", .str a.message), ("tree", s newTree "sha"), ("parents", .arr [.str head])])
    let sha := s newCommit "sha"
    let _ ← patch env (.refHead a.repo a.branch) (object [("sha", sha), ("force", .bool false)])
    pure (object [("repo", .str a.repo), ("branch", .str a.branch), ("commit", sha), ("parent", .str head),
      ("files", .ofNat a.changes.length), ("url", s newCommit "html_url"), ("writes_today", .ofNat used)])

/-! ## Every write -/

/-- Stars a repository, or takes the star back: one counted write. -/
def star (env : Env) (rules : Policy) (counted : Counted) (repo : String) (on : Bool) : Connector Value :=
  reserveWrite env rules counted fun used => do
    let _ ← (if on then put env (.starred repo) none else delete env (.starred repo))
    pure (object [("repo", .str repo), ("starred", .bool on), ("writes_today", .ofNat used)])

/-- What `file_put` adds to a refusal that says the file is there already. -/
def fileExists (e : String) : String :=
  if startsWith e "invalid:" ∧ contains e "sha" then
    e ++ ". The file exists: read it with `file_get` and pass its `sha` to replace it"
  else e

/-- An approval the owner confirmed is of the head they were shown: one that moved since is code nobody approved. -/
def checkHead (env : Env) (a : PrReview) : Connector Unit :=
  match a.pull with
  | some shown =>
      if a.event = "APPROVE" then do
        let now ← headOf env a.repo a.number
        require (now = shown.sha) ("conflict: the pull request's head moved from " ++ shown.sha ++ " to " ++ now ++
          " since the owner was shown it, and an approval is of the head the owner saw; nothing was approved")
      else pure ()
  | none => pure ()

/-- Take a place in `counted`'s budget, make the calls, and keep the place only when GitHub accepted. -/
def Action.execute (env : Env) (rules : Policy) (counted : Counted) : Action → Connector Value
  | .branchCreate a => do
      let start ← expect a.start "task_unreadable: the branch has no commit to start from"
      reserveWrite env rules counted fun used => do
        let _ ← post env (.refs a.repo)
          (object [("ref", .str ("refs/heads/" ++ a.branch)), ("sha", .str start.sha)])
        pure (object [("repo", .str a.repo), ("branch", .str a.branch), ("from", .str start.branch),
          ("sha", .str start.sha), ("writes_today", .ofNat used)])
  | .filePut a => do
      let bytes ← a.content.toBytes
      let body := object [("message", .str a.message), ("content", .str (base64Encode bytes)),
        ("branch", .str a.branch)] |> withMember "sha" (a.sha.map .str)
      reserveWrite env rules counted fun used => do
        let answer ← recover (put env (.contents a.repo (filePath a.path)) (some body)) fun e => .fail (fileExists e)
        pure (object [("repo", .str a.repo), ("branch", .str a.branch), ("path", .str a.path),
          ("created", .bool (decide (answer.status = 201))),
          ("sha", ((answer.body.get "content").map (s · "sha")).getD .null),
          ("commit", ((answer.body.get "commit").map (s · "sha")).getD .null),
          ("url", ((answer.body.get "content").map (s · "html_url")).getD .null), ("writes_today", .ofNat used)])
  | .commit a => commitFiles env rules counted a
  | .issueCreate a => do
      let body := object [("title", .str a.title), ("body", .str a.body)]
        |> withMember "labels" (a.labels.map strings) |> withMember "assignees" (a.assignees.map strings)
      reserveWrite env rules counted fun used => do
        let issue ← post env (.issues a.repo) body
        pure (object [("repo", .str a.repo), ("number", s issue "number"), ("url", s issue "html_url"),
          ("writes_today", .ofNat used)])
  | .issueComment a =>
      reserveWrite env rules counted fun used => do
        let comment ← post env (.comments a.repo a.number) (object [("body", .str a.body)])
        pure (object [("repo", .str a.repo), ("number", .ofNat a.number), ("comment_id", s comment "id"),
          ("url", s comment "html_url"), ("writes_today", .ofNat used)])
  | .issueUpdate a => do
      let body := object [] |> withMember "state" (a.state.map .str) |> withMember "title" (a.title.map .str)
        |> withMember "body" (a.body.map .str) |> withMember "labels" (a.labels.map strings)
        |> withMember "assignees" (a.assignees.map strings)
      reserveWrite env rules counted fun used => do
        let issue ← patch env (.issue a.repo a.number) body
        pure (object [("repo", .str a.repo), ("number", .ofNat a.number), ("state", s issue "state"),
          ("url", s issue "html_url"), ("writes_today", .ofNat used)])
  | .prCreate a => do
      let body := object [("title", .str a.title), ("head", .str a.head), ("base", .str a.base),
        ("body", .str a.body), ("draft", .bool a.draft)]
      reserveWrite env rules counted fun used => do
        let pr ← post env (.pulls a.repo) body
        pure (object [("repo", .str a.repo), ("number", s pr "number"), ("url", s pr "html_url"),
          ("writes_today", .ofNat used)])
  | .prReview a => do
      let comments := a.comments.map fun c => object [("path", .str c.path), ("line", .ofNat c.line),
        ("side", .str c.side), ("body", .str c.body)]
      let body := object [("event", .str a.event), ("body", .str a.body), ("comments", .arr comments)]
        |> withMember "commit_id" (a.pull.map fun p => .str p.sha)
      reserveWrite env rules counted fun used => do
        checkHead env a
        let review ← post env (.reviews a.repo a.number) body
        pure (object [("repo", .str a.repo), ("number", .ofNat a.number), ("review_id", s review "id"),
          ("state", s review "state"), ("url", s review "html_url"), ("writes_today", .ofNat used)])
  | .prMerge a => do
      let body := object [("merge_method", .str a.mergeMethod)]
        |> withMember "sha" ((a.sha.or (a.pull.map Pull.sha)).map .str)
      reserveWrite env rules counted fun used => do
        let answer ← put env (.merge a.repo a.number) (some body)
        pure (object [("repo", .str a.repo), ("number", .ofNat a.number), ("merged", s answer.body "merged"),
          ("commit", s answer.body "sha"), ("writes_today", .ofNat used)])
  | .gistCreate a => do
      let files ← gistBody a.files []
      let body := object [("description", .str a.description), ("public", .bool a.isPublic), ("files", files)]
      reserveWrite env rules counted fun used => do
        let gist ← post env .gists body
        pure (object [("gist_id", s gist "id"), ("public", s gist "public"), ("url", s gist "html_url"),
          ("writes_today", .ofNat used)])
  | .gistUpdate a => do
      let files ← (if a.files = [] then .ok none else (gistBody a.files []).map some : Except String (Option Value))
      let body := object [] |> withMember "files" files |> withMember "description" (a.description.map .str)
      reserveWrite env rules counted fun used => do
        let gist ← patch env (.gist (segment a.gistId)) body
        pure (object [("gist_id", s gist "id"), ("public", s gist "public"), ("url", s gist "html_url"),
          ("writes_today", .ofNat used)])
  | .repoStar repo => star env rules counted repo true
  | .repoUnstar repo => star env rules counted repo false

end Outlayer.Github
