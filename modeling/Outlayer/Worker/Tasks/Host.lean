import Outlayer.Worker.Environment
import Outlayer.Worker.Tasks.Client
import Outlayer.Worker.Tasks.Crypto
import Outlayer.Worker.Tasks.Display
import Outlayer.Worker.Tasks.Statement

/-!
# `Worker.Tasks.Host` — what a run asks of its tasks

A run holds the rows it named: the first as its own, and the others with a task key each. A row is made the run's for
the length of one function and put back after. The list of the caller's tasks is read under every row; one task is
looked for under the first row and then under the others, until one answers anything but that there is none.
-/

namespace Outlayer
open Text

namespace Worker
namespace Tasks

/-- Most bytes of the reason of a rejection, sealed or opened. -/
def maxRejectionBytes : Nat := 8 * 1024

/-- Calls of the interface one run may make. -/
def maxCallsPerRun : Nat := 100

/-! ## The interface -/

namespace Wit

/-- A task's kind, as the guest is told. -/
inductive TaskKind
  | confirm
  | input
  | notice
deriving DecidableEq

/-- A task's state, as the guest is told. -/
inductive TaskState
  | «open»
  | approved
  | answering
  | done
  | failed
  | rejected
  | cancelled
  | expired
  | void
deriving DecidableEq

/-- Why the guest is refused. -/
inductive Reason
  | notDeclared
  | noOwner
  | relayed
  | notGrantedByName
  | muted
  | inboxFull
  | runLimit
  | displayInvalid
  | tooLarge
  | lifeTooLong
  | notFound
  | notTheOwner
  | notThePreparer
  | approvalInvalid
  | noPaymentKey
  | hashMismatch
  | answerInvalid
  | closed
  | expired
  | void
  | unreadable
  | unavailable
  | internal
deriving DecidableEq

/-- A refusal and its message. -/
structure TaskError where
  reason : Reason
  message : String
deriving DecidableEq

/-- A task as its preparer is handed it. -/
structure Outcome where
  id : String
  kind : TaskKind
  state : TaskState
  createdAt : Nat
  expiresAt : Nat
  run : Option String
  result : Option (List UInt8)
  rejection : Option String
  failureReason : Option String
deriving DecidableEq

end Wit
open Wit

/-- How a call ends that gives no answer: it is refused, or the program stops. -/
inductive Stop
  | refused (error : TaskError)
  | panicked (message : String)
deriving DecidableEq

/-- Refuse. -/
def refused {α : Type} (reason : Reason) (message : String) : Except Stop α := .error (.refused ⟨reason, message⟩)

/-- What does not open. -/
def unreadable : TaskError := ⟨.unreadable, decryptionFailed⟩

/-- The kind that the client has. -/
def kindOut : Client.Kind → TaskKind
  | .confirm => .confirm
  | .input   => .input
  | .notice  => .notice

/-- The state that the client has. -/
def stateOut : Client.State → TaskState
  | .open      => .open
  | .approved  => .approved
  | .answering => .answering
  | .done      => .done
  | .failed    => .failed
  | .rejected  => .rejected
  | .cancelled => .cancelled
  | .expired   => .expired
  | .void      => .void

/-- The state as messages name it. -/
def stateName : Client.State → String
  | .open      => "open"
  | .approved  => "approved"
  | .answering => "answering"
  | .done      => "done"
  | .failed    => "failed"
  | .rejected  => "rejected"
  | .cancelled => "cancelled"
  | .expired   => "expired"
  | .void      => "void"

/-- Why a task that is not approved for this run takes no answer. -/
def notOpen : Client.State → TaskError
  | .open => ⟨.approvalInvalid,
      "the task is open and the owner has not approved it; a run carries a task out on the owner's approval only"⟩
  | .approved => ⟨.closed,
      "the task is approved: the owner said yes, and the run the platform started for it is the one that acts"⟩
  | .expired => ⟨.expired, "the task is past its life"⟩
  | .void    => ⟨.void, "the policy changed since the task was made"⟩
  | other    => ⟨.closed, "the task is " ++ stateName other ++ " and takes no answer"⟩

/-- The store's failure, as the component is told it. -/
def storeFailed : Client.StoreError → TaskError
  | .unavailable why           => ⟨.unavailable, why⟩
  | .refused .notFound _       => ⟨.notFound, "no such task"⟩
  | .refused .muted _          => ⟨.muted, "the owner muted this agent or this project"⟩
  | .refused .inboxFull _      => ⟨.inboxFull, "the owner has as many open tasks as an inbox holds"⟩
  | .refused .preparerFull _   => ⟨.inboxFull,
      "this agent holds as many tasks waiting on this owner as one agent may; one must close before another opens"⟩
  | .refused .storageFull _    => ⟨.inboxFull,
      "the owner's waiting tasks hold as much as an inbox stores; it has room when the owner answers some"⟩
  | .refused .lifeTooLong _    => ⟨.lifeTooLong, "the task's life is longer than a task may wait"⟩
  | .refused .closed (some s)  => notOpen s
  | .refused .expired (some s) => notOpen s
  | .refused .expired none     => notOpen .expired
  | .refused .closed none      => ⟨.closed, "the task takes no answer"⟩
  | .refused .exists_ _        => ⟨.internal,
      "a task of this id exists already: an earlier run of this call made it, and it is among the caller's tasks"⟩
  | .refused .invalidRequest _ => ⟨.internal, "the task store refused the request as malformed"⟩

/-- A text that can be a task's id. -/
def anId (id : String) : Except Stop Unit :=
  if isId id = true then .ok () else refused .notFound "no such task"

/-! ## What a run holds -/

variable {Key Secret Point Shared : Type}

/-- The task key of one row, and how the row admitted the caller. -/
structure TaskGrant (Key : Type) where
  key : Key
  admittedByName : Bool
  vault : Option String
deriving DecidableEq

/-- A row the run named beyond its first. -/
structure RowGrant (Key : Type) where
  owner : String
  profile : String
  grant : TaskGrant Key
deriving DecidableEq

/-- What the job path established of a run. The store and the chain are given with what a client made for them is, when
    one can be made. -/
structure TasksRun (Key : Type) where
  declared : Bool
  grant : Option (TaskGrant Key)
  projectId : Option String
  projectUuid : Option String
  build : Option String
  owner : Option String
  profile : Option String
  otherRows : List (RowGrant Key)
  caller : Option String
  predecessor : Option String
  store : Option (Option Client.Store)
  chain : Option (Option Chain)

/-- What a run that may use tasks holds. -/
structure Ready (Key : Type) where
  grant : TaskGrant Key
  scope : Client.Scope
  profile : String
  others : List (RowGrant Key)
  caller : String
  store : Client.Store
  chain : Chain

/-- What a run may do with tasks: everything, or nothing for a reason. -/
inductive Access (Key : Type)
  | ready (ready : Ready Key)
  | refused (reason : Reason) (message : String)

/-- The host's state for one run. -/
structure HostState (Key Point : Type) where
  access : Access Key
  calls : Nat := 0
  /-- the owner's devices in force, once they are read -/
  devices : Option (List (Device Point)) := none

/-- The hash of a build: 64 hexadecimal digits. -/
def isBuildHash (hash : String) : Bool := decide (hash.utf8ByteSize = 64) && hash.toList.all isAsciiHexdigit

/-- The access of a run, by what it names. -/
def accessOf (run : TasksRun Key) : Access Key :=
  let noOwner : String → Access Key := fun why => .refused .noOwner why
  match run.projectId, run.projectUuid with
  | some _, some projectUuid =>
      match run.build.filter isBuildHash with
      | none => .refused .internal
          "this run does not name the build it is of, and a task names the build that made it"
      | some _ =>
          match run.owner, run.profile with
          | some owner, some profile =>
              match run.grant with
              | none => noOwner
                  "the secret row this run names was not opened, so it has no owner to address a task to"
              | some grant =>
                  match run.caller with
                  | none => noOwner "this run has no caller, and a task is made and answered by an account"
                  | some caller =>
                      match run.predecessor with
                      | none => .refused .relayed
                          "this run does not say which account called OutLayer, so it cannot be told from a relayed one"
                      | some called =>
                          if called ≠ caller then
                            .refused .relayed ("this run was signed by " ++ caller ++ " and called by " ++ called ++
                              ": tasks are used by the account that calls OutLayer itself — directly or through a " ++
                              "meta-transaction it signed — not through a contract")
                          else
                            match run.store, run.chain with
                            | some none, some _ => .refused .unavailable "the task store cannot be reached"
                            | some _, some none => .refused .unavailable "the chain cannot be reached"
                            | some (some store), some (some chain) =>
                                .ready { grant, scope := ⟨projectUuid, owner⟩, profile, others := run.otherRows, caller,
                                         store, chain }
                            | _, _ => .refused .unavailable "this worker has no task store configured"
          | _, _ => noOwner "this run names no secret row, so it has no owner to address a task to"
  | _, _ => noOwner "this run does not go through a project, and a task belongs to one"

/-- A run with no context is one whose manifest declares no tasks. -/
def HostState.new (run : Option (TasksRun Key)) : HostState Key Point where
  access := match run with
    | some run => if run.declared then accessOf run else notDeclared
    | none     => notDeclared
where
  notDeclared : Access Key :=
    .refused .notDeclared "this component's manifest does not declare tasks: add \"tasks\": true"

/-! ## The job path -/

/-- The rows named beyond the first: those of the list that are not it. -/
def extraRows (secretsRef : Option Monitor.SecretsReference) (secretsRefs : Option (List Monitor.SecretsReference)) :
    List Monitor.SecretsReference :=
  (secretsRefs.getD []).filter fun row =>
    secretsRef.all fun first => decide (first.profile ≠ row.profile) || decide (first.accountId ≠ row.accountId)

/-- The rows beyond the first that opened, each with the grant the keystore answered beside it, if it did. -/
def otherRows (opened : List (Monitor.SecretsReference × Option (TaskGrant Key))) : List (RowGrant Key) :=
  opened.filterMap fun (row, grant) => grant.map fun grant => ⟨row.accountId, row.profile, grant⟩

/-! ## Calls -/

/-- What a call does to the host: an answer, or how it stopped, and the state after. -/
abbrev Call (Key Point α : Type) : Type := HostState Key Point → Except Stop α × HostState Key Point

namespace HostState

/-- One call of the interface, counted. -/
def count : Call Key Point Unit := fun s =>
  let s := { s with calls := min (s.calls + 1) (2 ^ 32 - 1) }
  if s.calls > maxCallsPerRun then
    (refused .runLimit ("this run made more than " ++ toString maxCallsPerRun ++ " calls of the task interface"), s)
  else (.ok (), s)

end HostState

/-- The run's facts, when it may use tasks. -/
def Access.facts : Access Key → Except Stop (Ready Key)
  | .ready facts            => .ok facts
  | .refused reason message => Tasks.refused reason message

namespace HostState

/-- One call, counted; and the run's facts. -/
def enter : Call Key Point (Ready Key) := fun s =>
  match count s with
  | (.error stop, s) => (.error stop, s)
  | (.ok (), s)      => (s.access.facts, s)

end HostState

/-! ## Outcomes -/

/-- Is a task asked for itself, or in the list? -/
inductive Asked
  | thisTask
  | theList
deriving DecidableEq

namespace Ready
variable (C : Crates Key Secret Point Shared) (ready : Ready Key)

/-- The keys of the project, for one task. -/
def keys (task : String) : Except Stop (TaskKeys Key Secret) :=
  match C.deriveKeys ready.grant.key task with
  | some keys => .ok keys
  | none      => .error (.panicked "a scalar within the order is found")

/-- The reason of a rejection, held to what an owner's page writes; outside it, it is no reason. -/
def reasonGiven (id : String) (sealed_ : List UInt8) : Except Stop (Option String) :=
  if sealed_.length > maxRejectionBytes then .ok none
  else do
    let keys ← ready.keys C id
    match C.openReply keys .rejection id sealed_ with
    | .error _ => .error (.refused unreadable)
    | .ok opened =>
        match fromUtf8 opened with
        | none => .error (.refused unreadable)
        | some reason =>
            if reason.utf8ByteSize ≤ maxRejectionBytes ∧ checkLongText "the reason" reason = .ok () then
              .ok (some reason)
            else .ok none

/-- The result the project reported, opened. -/
def resultGiven (keys : TaskKeys Key Secret) (task : Client.Prepared) : Except Stop (Option (List UInt8)) :=
  match task.outcome with
  | none => .ok none
  | some sealed_ =>
      match C.openBlob keys .outcome task.id sealed_ with
      | .error _   => .error (.refused unreadable)
      | .ok result => .ok (some result)

/-- What is sealed beside a task's outcome: the result the project reported, and the reason the owner gave. -/
def openedOutcome (task : Client.Prepared) : Except Stop (Option (List UInt8) × Option String) := do
  let keys ← ready.keys C task.id
  let result ← resultGiven C keys task
  match task.rejection with
  | some sealed_ => do
      let rejection ← ready.reasonGiven C task.id sealed_
      .ok (result, rejection)
  | none => .ok (result, none)

/-- A task as its preparer reads it, with what was opened beside it. -/
def outcomeWith (task : Client.Prepared) (opened : Option (List UInt8) × Option String) : Wit.Outcome where
  id := task.id
  kind := kindOut task.kind
  state := stateOut task.state
  createdAt := task.createdAt.toNat
  expiresAt := task.expiresAt.toNat
  run := task.run
  result := opened.1
  rejection := opened.2
  failureReason := task.failureReason

/-- One that does not open is refused to the caller that asked for it; in the list it stands without result and
    reason. -/
def outcome (task : Client.Prepared) (asked : Asked) : Except Stop Wit.Outcome :=
  match ready.openedOutcome C task, asked with
  | .ok opened, _                      => .ok (outcomeWith task opened)
  | .error (.panicked message), _      => .error (.panicked message)
  | .error (.refused error), .thisTask => .error (.refused error)
  | .error (.refused _), .theList      => .ok (outcomeWith task (none, none))

end Ready

/-! ## Rows -/

/-- The run's row and another one, exchanged. -/
def Ready.swapRow (ready : Ready Key) (at_ : Nat) : Ready Key :=
  match ready.others[at_]? with
  | none => ready
  | some row =>
      { ready with
        scope := { ready.scope with owner := row.owner }
        profile := row.profile
        grant := row.grant
        others := ready.others.set at_ ⟨ready.scope.owner, ready.profile, ready.grant⟩ }

namespace HostState

/-- Another of the run's rows takes the place of its own. -/
def swapRow (at_ : Nat) (s : HostState Key Point) : HostState Key Point :=
  match s.access with
  | .ready ready => { s with access := .ready (ready.swapRow at_) }
  | _            => s

/-- Make a row the run's for the length of `f`, with the devices read afresh, and put the first one back after. -/
def withRow {α : Type} (at_ : Option Nat) (f : Call Key Point α) : Call Key Point α := fun s =>
  match at_ with
  | none => f s
  | some at_ =>
      let s := s.swapRow at_
      let devices := s.devices
      let (answer, s) := f { s with devices := none }
      (answer, { s with devices }.swapRow at_)

/-- How many rows there are beyond the first. -/
def otherCount (s : HostState Key Point) : Nat :=
  match s.access with
  | .ready ready => ready.others.length
  | _            => 0

/-- The loop of `underAnyRow`: the rows still to ask, and the answer so far. -/
def underRows {α : Type} (f : Call Key Point α) : List Nat → Except Stop α → Call Key Point α
  | [], answer, s => (answer, s)
  | at_ :: rest, answer, s =>
      match answer with
      | .error (.refused ⟨.notFound, _⟩) =>
          let (answer, s) := withRow (some at_) f s
          underRows f rest answer s
      | answer => (answer, s)

/-- `f` under the first row, then under each other until one answers anything but that there is none. -/
def underAnyRow {α : Type} (f : Call Key Point α) : Call Key Point α := fun s =>
  let others := List.range s.otherCount
  let (answer, s) := withRow none f s
  underRows f others answer s

/-- A call that reads and moves nothing. -/
def read {α : Type} (f : Ready Key → Except Stop α) : Call Key Point α := fun s => (s.access.facts.bind f, s)

variable (C : Crates Key Secret Point Shared)

/-- What the caller prepared, under the run's row. -/
def listed (ready : Ready Key) : Except Stop (List Wit.Outcome) :=
  match ready.store.mine ready.scope ready.caller none with
  | .error failure => .error (.refused (storeFailed failure))
  | .ok tasks      => tasks.mapM fun task => ready.outcome C task .theList

/-- The loop of `mine`. -/
def mineUnder : List (Option Nat) → List Wit.Outcome → Call Key Point (List Wit.Outcome)
  | [], all, s => (.ok all, s)
  | at_ :: rest, all, s =>
      match withRow at_ (read (listed C)) s with
      | (.error stop, s)  => (.error stop, s)
      | (.ok outcomes, s) => mineUnder rest (all ++ outcomes) s

/-- The caller's tasks, under every row the run named. -/
def mine : Call Key Point (List Wit.Outcome) := fun s =>
  match enter s with
  | (.error stop, s) => (.error stop, s)
  | (.ok _, s)       => mineUnder C (none :: (List.range s.otherCount).map some) [] s

/-- One task, under the run's row. -/
def found (id : String) (ready : Ready Key) : Except Stop Wit.Outcome :=
  match ready.store.mine ready.scope ready.caller (some id) with
  | .error failure => .error (.refused (storeFailed failure))
  | .ok []         => refused .notFound "no such task"
  | .ok [task]     =>
      if task.id = id then ready.outcome C task .thisTask
      else refused .internal "the task store answered with other tasks than the one asked"
  | .ok _          => refused .internal "the task store answered with other tasks than the one asked"

/-- One of the caller's tasks. -/
def status (id : String) : Call Key Point Wit.Outcome := fun s =>
  match enter s with
  | (.error stop, s) => (.error stop, s)
  | (.ok _, s) =>
      match anId id with
      | .error stop => (.error stop, s)
      | .ok ()      => underAnyRow (read (found C id)) s

end HostState
end Tasks
end Worker
end Outlayer
