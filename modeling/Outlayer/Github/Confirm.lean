import Outlayer.Github.Execute
import Outlayer.Github.Shown

/-!
# `Github.Confirm` — the owner's answer

A write the owner is to confirm is left as a task; the run of `confirm` the platform starts on the owner's approval
takes it back, judges it by the rules again, and makes it. What that run says of the write is one of four things: it was
made; it was refused, and nothing was written; it was made and could not be reported; or its outcome is not known.
-/

namespace Outlayer.Github
open Text Json Exchange Checked

/-! ## Leaving a task -/

/-- The operation a task names for its answer to be run by. -/
def answeredBy : String := "confirm"

/-- What a project answers when it opened a task. -/
def awaitingOwner (opened : Opened) : Value :=
  object [("status", .str "awaiting_owner"), ("task_id", .str opened.id), ("task_hash", .str opened.hash),
    ("thread", .str opened.thread), ("expires_at", .ofNat opened.expiresAt),
    ("link", .str ("https://app.outlayer.ai/inbox/" ++ opened.id))]

/-- Leave `action`, which passed the owner's rules, as a task for the owner. -/
def ask (env : Env) (codec : Codec) (action : Action) : Connector Value := do
  let shown ← shown env codec action
  checkShown shown
  let opened : Except String Opened ← asking
    (.openTask ⟨shown.title, shown.fields, answeredBy, codec.write shown.sealed, env.storedPolicy, shown.files⟩)
  let opened ← opened
  pure (awaitingOwner opened)

/-! ## What the owner's agent is told -/

/-- A refusal without its closing full stop, so that a sentence may go on after it. -/
def trimDots (refusal : String) : String := trimEndWhile (· = '.') (trimEnd refusal)

/-- A refusal after the answer was taken. -/
def closed (refusal : String) : String :=
  trimDots refusal ++ ". The task is closed: to make this write, prepare it again"

/-- The members of a write's result that name what was made and nothing else. -/
def onChainMembers : List String :=
  ["number", "comment_id", "review_id", "commit", "sha", "created", "merged", "starred", "state", "writes_today"]

/-- What was made, as a refusal names it. -/
def made (done : Value) (onChain : Bool) : String :=
  let names := ["number", "comment_id", "review_id", "commit", "sha"] ++ if onChain then [] else ["gist_id", "url"]
  let parts := names.filterMap fun name =>
    match done.get name with
    | none          => none
    | some .null    => none
    | some (.str v) => some (name ++ " " ++ v)
    | some v        => some (name ++ " " ++ v.compact)
  if parts = [] then "it has no id to name" else ", ".intercalate parts

/-- The refusal of a write that was made while its task is closed without a result. -/
def madeUnreported (refusal : String) (done : Value) (onChain : Bool) : String :=
  trimDots refusal ++ ". The write WAS made on GitHub (" ++ made done onChain ++
    ") and the task is closed without its result: do not prepare it again"

/-- The codes the host itself answers a refused call with. -/
def hostCodes : List String :=
  ["tasks_not_declared", "no_owner", "relayed", "not_granted_by_name", "muted", "inbox_full", "task_run_limit",
    "display_invalid", "task_too_large", "task_life_too_long", "task_not_found", "not_the_owner", "not_the_preparer",
    "task_approval_invalid", "task_no_payment_key", "task_hash_mismatch", "task_answer_invalid", "task_closed",
    "task_expired", "task_void", "task_unreadable", "task_store_unavailable", "task_internal_error"]

/-- The word a refusal opens with. -/
def codeOf (refusal : String) : String :=
  match splitOnce ':' refusal with
  | some (code, _) =>
      if code ≠ "" ∧ code.toList.all (fun c => inRange 'a' 'z' c || c = '_') then code else "refused"
  | none => "refused"

/-- What a refusal says of each of the connector's own codes where everybody can read it. -/
def publicSentences : List (String × String) :=
  [("policy_missing", "the owner has stored no policy"),
    ("policy_unreadable", "the stored policy is not one this connector understands"),
    ("policy_denied", "the owner's policy does not allow this write as it stands now"),
    ("invalid", "the write was not accepted as it was made"),
    ("not_permitted", "the OutLayer app may not make this write there"),
    ("not_found", "GitHub has nothing where this write goes, or the app does not reach it"),
    ("forbidden", "GitHub refused the owner's own account"),
    ("conflict", "what this write names moved since the task was made"),
    ("rate_limited", "GitHub is throttling this account"),
    ("token_rejected", "GitHub refused the owner's token; the owner connects the account again"),
    ("credential_missing", "no GitHub token reached this run"),
    ("github_unavailable", "GitHub did not answer"), ("github_unreachable", "GitHub did not answer"),
    ("github_refused", "GitHub refused the write"),
    ("too_large", "the write is larger than this connector makes")]

/-- A refusal as `confirm` answers it where it runs: on chain the code stays and nothing is named. -/
def asAnswered (refusal : String) (onChain : Bool) : String :=
  let code := codeOf refusal
  if ¬ onChain ∨ code ∈ hostCodes then refusal
  else code ++ ": " ++ (publicSentences.lookup code).getD "the write was refused"

/-- The refusal of a write of which nothing is known but that a request reached GitHub. -/
def outcomeUnknown (refusal : String) : String :=
  trimDots refusal ++ ". A write reached GitHub and its outcome is not known — an earlier step was made, or GitHub's "
    ++ "answer was lost — so it MAY have been made: check the repository before preparing it again"

/-! ## The result -/

/-- The longest report the host takes. -/
def maxReportBytes : Nat := 16 * 1024

/-- The note, cut until the report is within its bound. -/
def cutNote (result : Value) (note : String) (keep : Nat) : Value :=
  let kept := String.ofList (floorChars keep note.toList)
  let result := result.set "note" (.str kept)
  if keep = 0 ∨ result.compact.utf8ByteSize ≤ maxReportBytes then result
  -- `kept` holds at most `keep` bytes: the bound `keep - 1` is there for the recursion only
  else cutNote result note (min (keep - 1) (kept.utf8ByteSize - 256))
termination_by keep
decreasing_by omega

/-- Put the owner's note on the result, whole when the report stays within its bound. -/
def withNote (result : Value) (note : String) : Value :=
  let whole := result.set "note" (.str note)
  if whole.compact.utf8ByteSize ≤ maxReportBytes then whole
  else cutNote (whole.set "note_truncated" (.bool true)) note note.utf8ByteSize

/-- What the owner wrote beside their yes goes to the agent with the result. -/
def noted (note : Option (List UInt8)) (done : Value) : Value :=
  match note.bind fromUtf8 with
  | some n => withNote done n
  | none   => done

/-- What `confirm` answers the owner: on chain, the members listed for it. -/
def answeredWith (action : Action) (done : Value) (taskId : String) (onChain : Bool) : Value :=
  let out := if onChain then object (onChainMembers.filterMap fun name => (done.get name).map fun v => (name, v))
    else done
  ((out.set "status" (.str "done")).set "task_id" (.str taskId)).set "action" (.str action.confirmable.name)

/-! ## The write a task held -/

/-- A content that waited as a file of the task, taken back from that file. -/
def takeBack (env : Env) (files : List TaskFile) : Content → Except String Content
  | .file name bytes sha256 => do
      let file ← expect (files.find? fun f => f.name = name)
        "task_unreadable: a file the task's write names is not among the task's files"
      require (file.data.length = bytes ∧ hexEncode (env.sha256 file.data) = sha256)
        "task_unreadable: a file of the task is not the one the write was made with"
      pure (.fromBytes file.data)
  | content => .ok content

/-- Take back the content of one file of a list. -/
def takeBackPart (env : Env) (files : List TaskFile) : Part → Except String Part
  | (path, some content) => do
      let content ← takeBack env files content
      pure (path, some content)
  | (path, none) => .ok (path, none)

/-- Take back every content of the write. -/
def Action.takeBack (env : Env) (files : List TaskFile) : Action → Except String Action
  | .filePut a => do
      let content ← Github.takeBack env files a.content
      pure (.filePut { a with content := content })
  | .commit a => do
      let parts ← (a.changes.map Change.part).mapM (takeBackPart env files)
      pure (.commit { a with changes := parts.map Change.ofPart })
  | .gistCreate a => do
      let parts ← (a.files.map GistFile.part).mapM (takeBackPart env files)
      pure (.gistCreate { a with files := parts.map GistFile.ofPart })
  | .gistUpdate a => do
      let parts ← (a.files.map GistFile.part).mapM (takeBackPart env files)
      pure (.gistUpdate { a with files := parts.map GistFile.ofPart })
  | action => .ok action

/-- The write a task held. -/
def held (env : Env) (codec : Codec) (state : List UInt8) (files : List TaskFile) : Except String Action := do
  let action ← expect (codec.read state) "task_unreadable: the task does not hold a write of this connector"
  action.takeBack env files

/-! ## After the answer -/

/-- Why a write the task held was not answered with a result. -/
inductive Unmade
  /-- Nothing was changed on GitHub. -/
  | refused (e : String)
  /-- A write may have changed something and its outcome is not known. -/
  | unknown (e : String)

/-- A refusal of the run, and the notice that told the owner why. -/
structure Refused where
  refusal : String
  notice : Option Value := none

/-- Make the write: the rule GitHub is asked about, then, counting writes afresh, the calls. -/
def act (env : Env) (rules : Policy) (action : Action) (counted : Counted) : Exchange Ask Reply Unmade Value := do
  recover (action.checkOnGithub env rules) fun e => .fail (.refused e)
  let (made, mayHaveWritten) ← watchWrites (action.execute env rules counted)
  lift (made.mapError fun e => if mayHaveWritten then .unknown e else .refused e)

/-- Nothing was written: the task is reported as not carried out. -/
def refuse (env : Env) (answer : TaskAnswer) (e : String) : Exchange Ask Reply Refused Value := do
  let refusal := closed (asAnswered e env.onChain)
  let told : Option Value × Except String Unit ← asking (.reportFailure answer.id refusal env.storedPolicy)
  .fail ⟨refusal, told.1⟩

/-- The write was made: its result is left for the agent. -/
def reportDone (env : Env) (answer : TaskAnswer) (action : Action) (result : Value) :
    Exchange Ask Reply Refused Value := do
  let done := noted answer.note result
  let reported : Except String Unit ← asking (.report answer.id done.compact)
  lift (reported.mapError fun e => ⟨madeUnreported (asAnswered e env.onChain) done env.onChain, none⟩)
  pure (answeredWith action done answer.id env.onChain)

/-- The write a task held, as far as the rules let it be made. -/
def judged (env : Env) (codec : Codec) (rules : Policy) (answer : TaskAnswer) : Except String Action := do
  let action ← held env codec answer.state answer.files
  action.check rules
  pure action

/-- What the run ends with, by what became of the write. A write whose outcome is not known is not reported. -/
def finish (env : Env) (answer : TaskAnswer) (action : Action) : Except Unmade Value → Exchange Ask Reply Refused Value
  | .ok result          => reportDone env answer action result
  | .error (.refused e) => refuse env answer e
  | .error (.unknown e) => .fail ⟨outcomeUnknown (asAnswered e env.onChain), none⟩

/-- Everything that follows the answer: any refusal from here ends the task. -/
def afterAnswer (env : Env) (codec : Codec) (rules : Policy) (answer : TaskAnswer) :
    Exchange Ask Reply Refused Value :=
  match judged env codec rules answer with
  | .error e   => refuse env answer e
  | .ok action => do
      let outcome ← attempt (act env rules action .confirmed)
      finish env answer action outcome

/-! ## The run -/

/-- A member the call has to name. -/
def namedBy (value : Option String) (name : String) : Except String String :=
  expect (given value) ("task_answer_invalid: the call names no `" ++ name ++ "`")

/-- What is checked before the owner's answer is taken. -/
def beforeAnswer (input : Input) (loaded : Loaded) : Except String (Value × Policy) := do
  let id ← namedBy input.taskId "task_id"
  let hash ← namedBy input.taskHash "task_hash"
  let approval ← expect input.approval "task_answer_invalid: the call carries no `approval`"
  let rules ← required loaded
  pure (object [("task_id", .str id), ("task_hash", .str hash), ("approval", approval),
    ("note", .ofOption .str input.note)], rules)

/-- The run the platform starts on the owner's approval. -/
def confirm (env : Env) (codec : Codec) (loaded : Loaded) (input : Input) : Exchange Ask Reply Refused Value := do
  let (call, rules) ← lift ((beforeAnswer input loaded).mapError fun e => ⟨asAnswered e env.onChain, none⟩)
  let answer : Except String TaskAnswer ← asking (.takeAnswer answeredBy call env.storedPolicy)
  let answer ← lift (answer.mapError fun e => ⟨e, none⟩)
  afterAnswer env codec rules answer

/-- A write: read and checked, then carried out, or left as a task for the owner. -/
def write (env : Env) (codec : Codec) (loaded : Loaded) (input : Input) (operation : Confirmable) :
    Connector Value := do
  let rules ← required loaded
  let forOwner := rules.confirms operation
  let action ← Action.prepare env operation input rules forOwner
  if forOwner then ask env codec action else action.execute env rules .own

end Outlayer.Github
