import Outlayer.Lib.Exchange
import Outlayer.Lib.TextParts
import Outlayer.Lib.JsonFields

/-!
# `Github.Host` — what a run of the connector is given, and what it asks

A run has an environment that does not change under it, and three parties to ask: GitHub, the store that keeps the
day's counts, and the platform that keeps the owner's tasks. Whatever they answer, a run is a path through an
`Exchange` over these questions.

Where a request goes is an `Endpoint`; its path is the text of the request line. What GitHub did with a request is not
always what it said: `Outcome.applied` is the first, `Outcome.response` the second.
-/

namespace Outlayer.Github
open Text Json

/-! ## The environment -/

/-- What a run finds in its environment, and the libraries it calls. -/
structure Env where
  /-- `GITHUB_TOKEN`, if it is set. -/
  token : Option String
  /-- The bytes of `GITHUB_POLICY` as they are stored. -/
  storedPolicy : List UInt8
  nowMs : Nat
  onChain : Bool
  /-- Which numbers the JSON reader takes, and how it keeps them. -/
  jsonNumber : String → Option String
  decode64 : List UInt8 → Except String (List UInt8)
  sha256 : List UInt8 → List UInt8

/-- A JSON value read from bytes; what is not one is `null`. -/
def Env.readJson (env : Env) (bytes : List UInt8) : Value :=
  ((fromUtf8 bytes).bind (parse env.jsonNumber)).getD .null

/-! ## Requests to GitHub -/

/-- The methods the connector sends. -/
inductive Method
  | get | post | patch | put | delete
deriving DecidableEq

/-- Where a request goes. A read may go to any path; a write goes to one of the rest. -/
inductive Endpoint
  | read (path : String)
  | repository (repo : String)
  | branchHead (repo branch : String)
  | commitObject (repo sha : String)
  | pull (repo : String) (number : Nat)
  | refs (repo : String)
  | refHead (repo branch : String)
  | contents (repo filePath : String)
  | blobs (repo : String)
  | trees (repo : String)
  | commits (repo : String)
  | issues (repo : String)
  | issue (repo : String) (number : Nat)
  | comments (repo : String) (number : Nat)
  | pulls (repo : String)
  | reviews (repo : String) (number : Nat)
  | merge (repo : String) (number : Nat)
  | gists
  | gist (id : String)
  | starred (repo : String)
deriving DecidableEq

/-- The path of the request line; names in it are escaped already. -/
def Endpoint.path : Endpoint → String
  | .read path              => path
  | .repository repo        => "/repos/" ++ repo
  | .branchHead repo branch => "/repos/" ++ repo ++ "/git/ref/heads/" ++ branch
  | .commitObject repo sha  => "/repos/" ++ repo ++ "/git/commits/" ++ sha
  | .pull repo number       => "/repos/" ++ repo ++ "/pulls/" ++ toString number
  | .refs repo              => "/repos/" ++ repo ++ "/git/refs"
  | .refHead repo branch    => "/repos/" ++ repo ++ "/git/refs/heads/" ++ branch
  | .contents repo filePath => "/repos/" ++ repo ++ "/contents/" ++ filePath
  | .blobs repo             => "/repos/" ++ repo ++ "/git/blobs"
  | .trees repo             => "/repos/" ++ repo ++ "/git/trees"
  | .commits repo           => "/repos/" ++ repo ++ "/git/commits"
  | .issues repo            => "/repos/" ++ repo ++ "/issues"
  | .issue repo number      => "/repos/" ++ repo ++ "/issues/" ++ toString number
  | .comments repo number   => "/repos/" ++ repo ++ "/issues/" ++ toString number ++ "/comments"
  | .pulls repo             => "/repos/" ++ repo ++ "/pulls"
  | .reviews repo number    => "/repos/" ++ repo ++ "/pulls/" ++ toString number ++ "/reviews"
  | .merge repo number      => "/repos/" ++ repo ++ "/pulls/" ++ toString number ++ "/merge"
  | .gists                  => "/gists"
  | .gist id                => "/gists/" ++ id
  | .starred repo           => "/user/starred/" ++ repo

/-- One request to GitHub, before it is put on the wire. -/
structure Request where
  method : Method
  endpoint : Endpoint
  body : Option Value

/-- What came back of a request, if anything did. The body may be lost while it is read. -/
structure Response where
  status : Nat
  headers : List (String × String)
  body : Except String (List UInt8)

/-- GitHub refused the request: it did nothing. -/
def Response.refused (r : Response) : Bool := decide (400 ≤ r.status) && decide (r.status < 500)

/-- What became of a request. GitHub may have applied one whose answer is lost, or failed after it did; one it answered
    4xx it did not apply. -/
structure Outcome where
  response : Except String Response
  applied : Bool
  refused_unapplied : ∀ r, response = .ok r → r.refused = true → applied = false

/-- **What a request does to what GitHub shows**, if it is applied: a read does nothing, and a git object shows nowhere
    until a ref points at it. -/
def Request.changes (q : Request) : Bool :=
  match q.method, q.endpoint with
  | .get, _          => false
  | .post, .blobs _  => false
  | .post, .trees _  => false
  | .post, .commits _ => false
  | _, _             => true

/-! ## Tasks -/

/-- How a task's reader is shown a field. -/
inductive FieldKind
  | money | account | address | text | longText | list
deriving DecidableEq

/-- Whose words a value is. -/
inductive WrittenBy
  | project | agent
deriving DecidableEq

/-- One field of what the owner is shown. -/
structure Field where
  label : String
  kind : FieldKind
  values : List String
  writtenBy : WrittenBy
deriving DecidableEq

/-- A file of a task. -/
structure TaskFile where
  name : String
  contentType : String
  data : List UInt8
deriving DecidableEq

/-- A task as the connector opens it. -/
structure NewTask where
  title : String
  fields : List Field
  operation : String
  state : List UInt8
  policy : List UInt8
  files : List TaskFile

/-- A task the host has opened. -/
structure Opened where
  id : String
  hash : String
  thread : String
  expiresAt : Nat

/-- The task an approved run is handed. -/
structure TaskAnswer where
  id : String
  state : List UInt8
  files : List TaskFile
  note : Option (List UInt8)

/-! ## Questions -/

/-- What a run asks. -/
inductive Ask
  | github (q : Request)
  /-- Add to a counter of the store; the answer is what it then holds. -/
  | increment (key : String) (delta : Int)
  | openTask (task : NewTask)
  /-- Take the task the call names, as approved. -/
  | takeAnswer (operation : String) (call : Value) (policy : List UInt8)
  /-- Leave the result of a task that was carried out. -/
  | report (id : String) (result : String)
  /-- Report a task as not carried out, and tell the owner why; the answer names the notice that did. -/
  | reportFailure (id refusal : String) (policy : List UInt8)

/-- What the host answers to each of the connector's calls. -/
def Reply : Ask → Type
  | .github _          => Outcome
  | .increment _ _     => Except String Int
  | .openTask _        => Except String Opened
  | .takeAnswer _ _ _  => Except String TaskAnswer
  | .report _ _        => Except String Unit
  | .reportFailure _ _ _ => Option Value × Except String Unit

/-- A part of a run: it returns, or refuses with a sentence. -/
abbrev Connector (α : Type) : Type := Exchange Ask Reply String α

/-- Ask the outside. -/
def asking {ε : Type} (q : Ask) : Exchange Ask Reply ε (Reply q) := .query q

/-- What a run exchanged. -/
abbrev Trace : Type := List (Exchange.Event Reply)

end Outlayer.Github
