import Outlayer.Github.Call

/-!
# `Github.Policy` — the owner's rules

The owner says which operations the agent may run, in which repositories, on which branches and paths, and how many
writes a day. Nothing is allowed that is not listed; a policy that is missing or cannot be read allows nothing.
-/

namespace Outlayer.Github
open Text Json Exchange

/-! ## The policy -/

/-- The writes, by operation. -/
inductive Confirmable
  | branchCreate | filePut | commit | issueCreate | issueComment | issueUpdate | prCreate | prReview | prMerge
  | gistCreate | gistUpdate | repoStar | repoUnstar
deriving DecidableEq

/-- The operation's name: what the policy's lists say. -/
def Confirmable.name : Confirmable → String
  | .branchCreate => "branch_create"
  | .filePut      => "file_put"
  | .commit       => "commit"
  | .issueCreate  => "issue_create"
  | .issueComment => "issue_comment"
  | .issueUpdate  => "issue_update"
  | .prCreate     => "pr_create"
  | .prReview     => "pr_review"
  | .prMerge      => "pr_merge"
  | .gistCreate   => "gist_create"
  | .gistUpdate   => "gist_update"
  | .repoStar     => "repo_star"
  | .repoUnstar   => "repo_unstar"

/-- The owner's rules for an agent; what is left out allows nothing, or has no limit. -/
structure Policy where
  actions : Option (List String) := none
  repos : Option (List String) := none
  branches : Option (List String) := none
  paths : Option (List String) := none
  maxWritesPerDay : Option Nat := none
  allowMerge : Option Bool := none
  allowApprove : Option Bool := none
  allowPublicGists : Option Bool := none
  marker : Option String := none
  confirm : Option (List Confirmable) := none

/-- What the stored rules come to: none, unreadable ones, or rules. -/
inductive Loaded
  | none
  | unreadable (why : String)
  | some (rules : Policy)

/-- The policy, or the refusal of everything. -/
def required : Loaded → Except String Policy
  | .some p => .ok p
  | .none => .error
      ("policy_missing: the owner has stored no policy, and without one only `status` runs. " ++
        "The owner sets it at " ++ ownerPage)
  | .unreadable e => .error
      ("policy_unreadable: the stored policy is not one this connector understands (" ++ e ++ "), so " ++
        "nothing is allowed. The owner fixes it at " ++ ownerPage)

/-! ## Patterns -/

/-- One turn of the matcher's loop at the character `c`: the rest of the pattern, the rest of the text, and, once a `*`
    was met, the pattern after the last one and the text from where it stands for something. -/
def globStep (pattern : List Char) (c : Char) (t : List Char) (star : Option (List Char × List Char)) :
    Option (List Char × List Char × Option (List Char × List Char)) :=
  match pattern with
  | '*' :: p => some (p, c :: t, some (p, c :: t))
  | a :: p   => if a = c then some (p, t, star) else lengthened
  | []       => lengthened
where
  /-- The last `*` stands for one character more. -/
  lengthened : Option (List Char × List Char × Option (List Char × List Char)) :=
    match star with
    | some (p, _ :: mark) => some (p, mark, some (p, mark))
    | _                   => none

/-- The pattern against the text, from the star it last went back to. -/
def globLoop : (fuel : Nat) → (pattern text : List Char) → (star : Option (List Char × List Char)) → Bool
  | 0, _, _, _ => false
  | _ + 1, p, [], _ => p.all (· = '*')
  | fuel + 1, p, c :: t, star =>
      match globStep p c t star with
      | some (p, t, star) => globLoop fuel p t star
      | none              => false

/-- `*` matches any run of characters, `/` included; there is no other wildcard. -/
def glob (pattern text : String) : Bool :=
  globLoop ((pattern.toList.length + 2) * (text.toList.length + 2)) pattern.toList text.toList none

/-- The list names everything. -/
def isAny (list : List String) : Bool := list.any fun e => eqIgnoreAsciiCase (trim e) "any"

/-! ## Names -/

/-- `owner/name`, in the characters GitHub allows. -/
def cleanRepo (repo : String) : Except String Unit :=
  match splitOnce '/' repo with
  | some (owner, name) =>
      if okName owner ∧ okName name ∧ ¬ '/' ∈ name.toList then .ok () else .error refusal
  | none => .error refusal
where
  okName (s : String) : Bool :=
    decide (s ≠ "") && decide (s.utf8ByteSize ≤ 100) && decide (s ≠ ".") && decide (s ≠ "..") &&
      s.toList.all fun c => isAsciiAlphanumeric c || c = '-' || c = '_' || c = '.'
  refusal : String := "invalid: `repo` must be `owner/name`, got `" ++ repo ++ "`"

/-- A branch name that can sit in a URL unescaped. -/
def cleanBranch (branch : String) : Except String Unit :=
  if branch ≠ "" ∧ branch.utf8ByteSize ≤ 200 ∧ ¬ startsWith branch "/" ∧ ¬ endsWith branch "/" ∧
      ¬ startsWith branch "-" ∧ ¬ contains branch ".." ∧ ¬ contains branch "//" ∧ ¬ endsWith branch ".lock" ∧
      branch.toList.all (fun c => isAsciiAlphanumeric c || c = '-' || c = '_' || c = '.' || c = '/') then .ok ()
  else .error ("invalid: the branch `" ++ branch ++
    "` must be letters, digits, `-`, `_`, `.` and `/`, with no `..`")

/-- A path the Contents and Git Data APIs will read the way it is written, and not one under `.github/`. -/
def cleanPath (path : String) : Except String Unit :=
  if path = "" ∨ 1024 < path.utf8ByteSize then bad "is empty or too long"
  else if startsWith path "/" ∨ endsWith path "/" ∨ contains path "\\" ∨ contains path "//" then
    bad "must be relative, with `/` between segments and nothing else"
  else if path.toList.any isControl then bad "holds a control character"
  else if (split '/' path).any (fun s => s = "." || s = ".." || eqIgnoreAsciiCase s ".git") then
    bad "holds a `.`, `..` or `.git` segment"
  else if ((split '/' path).head?.map (eqIgnoreAsciiCase · ".github")).getD false then
    .error ("policy_denied: `" ++ path ++ "` is under `.github/`, which this connector never writes — it decides " ++
      "who reviews and what runs. The owner changes it themselves")
  else .ok ()
where
  bad (why : String) : Except String Unit := .error ("invalid: the path `" ++ path ++ "` " ++ why)

/-! ## The rules -/

/-- Whether a branch is allowed by its name, or only by a pattern. -/
inductive BranchMatch
  | literal | pattern
deriving DecidableEq

namespace Policy
variable (rules : Policy)

/-- Does `operation` need the owner? -/
def confirms (operation : Confirmable) : Bool := decide (operation ∈ rules.confirm.getD [])

/-- The operation is allowed. -/
def checkAction (operation : String) : Except String Unit :=
  let allowed := rules.actions.getD []
  if isAny allowed ∨ allowed.any (trim · = operation) then .ok ()
  else .error ("policy_denied: the owner's policy does not allow `" ++ operation ++ "`. Allowed: " ++
    if allowed = [] then "nothing" else ", ".intercalate allowed)

/-- GitHub compares names without regard to case, so this does too. -/
def checkRepo (repo : String) : Except String Unit :=
  let allowed := rules.repos.getD []
  if isAny allowed ∨ allowed.any (fun r => glob (toAsciiLowercase (trim r)) (toAsciiLowercase repo)) then .ok ()
  else .error ("policy_denied: the owner's policy does not cover the repository `" ++ repo ++ "`")

/-- The repository is allowed. -/
def allowsRepo (repo : String) : Bool := (rules.checkRepo repo).toOption.isSome

/-- The branch may be written to, by its name or by a pattern. -/
def checkBranch (branch : String) : Except String BranchMatch :=
  let allowed := rules.branches.getD []
  if allowed.any (trim · = branch) then .ok .literal
  else if allowed.any fun b => contains b "*" && glob (trim b) branch then .ok .pattern
  else .error ("policy_denied: the owner's policy does not allow writing to the branch `" ++ branch ++
    "`. Writable: " ++ if allowed = [] then "none" else ", ".intercalate allowed)

/-- A pattern does not reach the default branch. -/
def checkNotDefault (matched : BranchMatch) (branch defaultBranch : String) : Except String Unit :=
  if matched = .pattern ∧ branch = defaultBranch then
    .error ("policy_denied: `" ++ branch ++ "` is this repository's default branch, and a pattern never " ++
      "reaches it — the owner has to name it literally in `branches`")
  else .ok ()

/-- The path may be written to. -/
def checkPath (path : String) : Except String Unit := do
  cleanPath path
  match rules.paths with
  | none => pure ()
  | some allowed =>
      if isAny allowed ∨ allowed.any (fun p => glob (trim p) path) then pure ()
      else throw ("policy_denied: the owner's policy does not allow writing `" ++ path ++ "`. Writable: " ++
        ", ".intercalate allowed)

/-- Merging is allowed. -/
def checkMerge : Except String Unit :=
  if rules.allowMerge = some true then .ok ()
  else .error "policy_denied: the owner's policy does not allow merging (`allow_merge`)"

/-- Approving in the owner's name is allowed. -/
def checkApprove : Except String Unit :=
  if rules.allowApprove = some true then .ok ()
  else .error ("policy_denied: the owner's policy does not allow approving in their name " ++
    "(`allow_approve`); a review may COMMENT or REQUEST_CHANGES")

/-- A review that approves needs the owner's leave. -/
def checkVerdict (event : String) : Except String Unit := if event = "APPROVE" then rules.checkApprove else .ok ()

/-- A gist that is public is allowed. -/
def checkPublicGist (isPublic : Bool) : Except String Unit :=
  if ¬ isPublic ∨ rules.allowPublicGists = some true then .ok ()
  else .error "policy_denied: the owner's policy allows secret gists only (`allow_public_gists`)"

/-- `text` with the marker on the end, once. -/
def mark (text : String) : String :=
  let marker := rules.marker.getD "\n\n— posted by an AI agent via OutLayer"
  if trim marker = "" ∨ endsWith (trimEnd text) (trim marker) then text else trimEnd text ++ marker

/-- The owner's daily cap on writes. -/
def writeCap : Except String Nat :=
  match rules.maxWritesPerDay with
  | some cap => .ok cap
  | none => .error ("policy_denied: the owner's policy sets no `max_writes_per_day`, and without it " ++
      "nothing is written. The owner sets it at " ++ ownerPage)

end Policy

/-! ## The day's count -/

/-- `YYYY-MM-DD` in UTC for a millisecond timestamp. -/
def dayKey (ms : Nat) : String :=
  let z := ms / 86400000 + 719468
  let era := z / 146097
  let doe := z % 146097
  let yoe := (doe - doe / 1460 + doe / 36524 - doe / 146096) / 365
  let doy := doe - (365 * yoe + yoe / 4 - yoe / 100)
  let mp := (5 * doy + 2) / 153
  let d := doy - (153 * mp + 2) / 5 + 1
  let m := if mp < 10 then mp + 3 else mp - 9
  let y := yoe + era * 400 + if m ≤ 2 then 1 else 0
  pad 4 y ++ "-" ++ pad 2 m ++ "-" ++ pad 2 d
where
  pad (width n : Nat) : String := String.ofList ((Nat.toDigits 10 n).leftpad width '0')

/-- Which count a write is taken from. -/
inductive Counted
  | own | confirmed
deriving DecidableEq

/-- The name a day's writes are counted under. -/
def countKey (day : String) : Counted → String
  | .own       => "gh:writes:" ++ day
  | .confirmed => "gh:writes:" ++ day ++ ":confirmed"

/-- Make a write in a place of the day's budget: the place is taken before, and given back if the write refuses. `act`
    is told how many writes the day then counts. -/
def reserveWrite {α : Type} (env : Env) (rules : Policy) (counted : Counted) (act : Nat → Connector α) :
    Connector α := do
  let cap ← rules.writeCap
  let key := countKey (dayKey env.nowMs) counted
  let bumped : Except String Int ← asking (.increment key 1)
  let after ← bumped.mapError ("the day's write count could not be updated: " ++ ·)
  if (cap : Int) < after then
    let _ ← asking (.increment key (-1))
    throwRefusal ("policy_denied: " ++ toString (after - 1) ++ " of the owner's " ++ toString cap ++
      " writes a day are used; this one would pass it")
  else
    -- the count as the answer has it, in 32 bits
    recover (act (after % 2 ^ 32).toNat) fun e => do
      let _ ← asking (.increment key (-1))
      throwRefusal e
where
  throwRefusal {α : Type} (e : String) : Connector α := .fail e

end Outlayer.Github
