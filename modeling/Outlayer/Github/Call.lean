import Outlayer.Github.Host

/-!
# `Github.Call` — the GitHub client

Every request carries the owner's token, and every refusal of GitHub's becomes one sentence whose first word an agent
branches on. A write may have happened although its answer says otherwise; `mayHaveWritten` is the part of `call` that
keeps count of that.
-/

namespace Outlayer.Github
open Text Json Exchange

/-- The page on which an owner connects GitHub. -/
def ownerPage : String := "https://app.outlayer.ai/connect/github"
/-- The page on which the app is installed on a repository. -/
def installUrl : String := "https://github.com/apps/outlayer-auth/installations/new"

/-- The owner's token, if the run has one. -/
def token (env : Env) : Except String String :=
  match env.token with
  | some t =>
      if trim t ≠ "" then .ok (trim t) else missing
  | none => missing
where
  missing : Except String String := .error
    ("credential_missing: no `GITHUB_TOKEN` reached this run. Name the owner's row in `secrets_ref` " ++
      "(`\x7b\"account_id\": \"<owner>\", \"profile\": \"github\"\x7d`); the owner connects at " ++ ownerPage)

/-- What an accepted request answered. -/
structure Answer where
  status : Nat
  body : Value

/-! ## Which requests count as writes -/

/-- Whether a request of `method` to `path` can change what GitHub shows. -/
def changesSomething (method : Method) (path : String) : Bool :=
  let createsGitObject := ["/git/blobs", "/git/trees", "/git/commits"].any fun object => endsWith path object
  decide (method ≠ .get) && !createsGitObject

/-- Whether a request sets the flag that a write may have been made: it can change something, and its answer is not
    a refusal. -/
def mayHaveWritten : (q : Ask) → Reply q → Bool
  | .github q, outcome =>
      changesSomething q.method q.endpoint.path &&
        match outcome.response with
        | .ok r    => !r.refused
        | .error _ => true
  | _, _ => false

/-- Run `x` with the flag put down before it: what it ends with, and the flag after it. -/
def watchWrites {α ε : Type} (x : Connector α) : Exchange Ask Reply ε (Except String α × Bool) :=
  watch mayHaveWritten false x

/-! ## Refusals -/

/-- A header of an answer, its name read without regard to case. -/
def header (headers : List (String × String)) (name : String) : Option String :=
  (headers.find? fun h => eqIgnoreAsciiCase h.1 name).map Prod.snd

/-- The `errors` of a refusal, in one text. -/
def errorDetails (value : Value) : String :=
  let one : Value → String
    | .str s => s
    | other  => " ".intercalate (["field", "code", "message"].filterMap fun k => (other.get k).bind Value.asStr)
  match ((value.get "errors").bind Value.asArray).map fun errors => "; ".intercalate (errors.map one) with
  | some d => if d ≠ "" then " [" ++ takeChars 300 d ++ "]" else ""
  | none   => ""

/-- GitHub's refusal as a word and a sentence. -/
def describe (env : Env) (status : Nat) (bytes : List UInt8) (headers : List (String × String)) (path : String) :
    String :=
  let value := env.readJson bytes
  let message := takeChars 300 (((value.get "message").bind Value.asStr).getD (trim ((fromUtf8 bytes).getD "")))
  let details := errorDetails value
  let lower := toAsciiLowercase message
  let outOfRequests := header headers "x-ratelimit-remaining" = some "0"
  if status = 401 then
    "token_rejected: GitHub refused the owner's token (" ++ message ++ "). It was revoked or replaced; " ++
      "the owner authorizes again at " ++ ownerPage
  else if (status = 403 ∨ status = 429) ∧
      (outOfRequests ∨ contains lower "rate limit" = true ∨ contains lower "abuse" = true) then
    let wait := ((header headers "retry-after").map (· ++ " seconds")).getD
      (((header headers "x-ratelimit-reset").map ("until unix time " ++ ·)).getD "a few minutes")
    "rate_limited: GitHub is throttling this account (" ++ message ++ "). Wait " ++ wait ++
      ", then repeat the call once"
  else if status = 403 ∧ contains lower "not accessible by integration" = true then
    "not_permitted: GitHub refused " ++ path ++ ". Either the OutLayer app is not installed on this " ++
      "repository — the owner adds it at " ++ installUrl ++ " — or the action needs a permission the app " ++
      "was not given (workflow files, settings and administration never are)"
  else if status = 403 then
    "forbidden: GitHub refused " ++ path ++ " (" ++ message ++ "). The owner's own account may not do this here"
  else if status = 404 then
    "not_found: GitHub has nothing at " ++ path ++ ". It does not exist, or it is a private repository " ++
      "the OutLayer app was not installed on — the owner adds it at " ++ installUrl
  else if status = 409 then
    "conflict: " ++ message ++ details ++
      ". The branch or file moved since it was read; read it again and repeat"
  else if status = 422 then
    "invalid: GitHub did not accept the request for " ++ path ++ ": " ++ message ++ details
  else if 500 ≤ status ∧ status ≤ 599 then
    "github_unavailable: GitHub answered " ++ toString status ++ " for " ++ path ++ ". Repeat the call later"
  else
    "github_refused: GitHub answered " ++ toString status ++ " for " ++ path ++ ": " ++ message ++ details

/-! ## Calls -/

/-- What a caller makes of what came back. -/
def answered (env : Env) (path : String) (outcome : Outcome) : Except String Answer :=
  match outcome.response with
  | .error e => .error ("github_unreachable: GitHub could not be reached for " ++ path ++ ": " ++ e)
  | .ok r =>
      match r.body with
      | .error e => .error ("github_unreachable: reading GitHub's answer for " ++ path ++ ": " ++ e)
      | .ok bytes =>
          if 200 ≤ r.status ∧ r.status < 300 then .ok ⟨r.status, if bytes = [] then .null else env.readJson bytes⟩
          else .error (describe env r.status bytes r.headers path)

/-- One request. -/
def call (env : Env) (method : Method) (endpoint : Endpoint) (body : Option Value) : Connector Answer := do
  let _ ← token env
  let outcome : Outcome ← asking (.github ⟨method, endpoint, body⟩)
  answered env endpoint.path outcome

/-- A read, for its body. -/
def get (env : Env) (endpoint : Endpoint) : Connector Value := do
  let answer ← call env .get endpoint none
  pure answer.body

/-- A write that makes something, for its body. -/
def post (env : Env) (endpoint : Endpoint) (body : Value) : Connector Value := do
  let answer ← call env .post endpoint (some body)
  pure answer.body

/-- A write that changes something, for its body. -/
def patch (env : Env) (endpoint : Endpoint) (body : Value) : Connector Value := do
  let answer ← call env .patch endpoint (some body)
  pure answer.body

/-- A write that sets something, for the whole answer. -/
def put (env : Env) (endpoint : Endpoint) (body : Option Value) : Connector Answer := call env .put endpoint body

/-- A write that takes something away. -/
def delete (env : Env) (endpoint : Endpoint) : Connector Answer := call env .delete endpoint none

/-! ## Names in a path -/

/-- A byte of a path segment: as it is, or escaped. -/
def escapeByte (b : UInt8) : List Char :=
  let c := Char.ofNat b.toNat
  if isAsciiAlphanumeric c || c = '-' || c = '_' || c = '.' || c = '~' then [c]
  else ['%', (Nat.digitChar (b.toNat / 16)).toUpper, (Nat.digitChar (b.toNat % 16)).toUpper]

/-- One URL path segment. -/
def segment (value : String) : String := String.ofList ((utf8 value).flatMap escapeByte)

/-- A file path: every segment escaped, the slashes kept. -/
def filePath (path : String) : String := "/".intercalate ((split '/' path).map segment)

/-- `?a=1&b=2` from the pairs that have a value. -/
def queryString (pairs : List (String × Option String)) : String :=
  let parts := pairs.filterMap fun p => p.2.map fun v => p.1 ++ "=" ++ segment v
  if parts = [] then "" else "?" ++ "&".intercalate parts

end Outlayer.Github
