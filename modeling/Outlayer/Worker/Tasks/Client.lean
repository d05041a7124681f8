import Outlayer.Lib.Text

/-!
# `Worker.Tasks.Client` — the store of tasks, as a run asks it

A run is named by its call or by its request, a task by its run and its number. Names are short and of few letters, so
that they can stand in other texts. Where a task stands is the store's word. It is asked by project and owner, and lists
what one account prepared.
-/

namespace Outlayer
open Text

namespace Worker
namespace Tasks

/-! ## Names -/

/-- A character of a task's id. -/
def isIdChar (c : Char) : Bool := inRange 'a' 'z' c || inRange '0' '9' c || c == '-'

/-- Is this the id of a task or of a run: 1 to 80 of `a-z`, `0-9` and `-`? -/
def isId (raw : String) : Bool :=
  decide (raw ≠ "") && decide (raw.utf8ByteSize ≤ 80) && raw.toList.all isIdChar

/-- The id of a run, as tasks name it. -/
def runId (callId : Option String) (requestId : Nat) : String :=
  match callId with
  | some call => if isId call then call else "req-" ++ toString requestId
  | none      => "req-" ++ toString requestId

/-- The id of the task that a run opens after `opened` others. -/
def taskId (run : String) (opened : Nat) : String := run ++ "-" ++ toString opened

theorem isIdChar_of_mem {id : String} (h : isId id = true) {c : Char} (hc : c ∈ id.toList) : isIdChar c = true := by
  simp only [isId, Bool.and_eq_true] at h
  exact List.all_eq_true.mp h.2 c hc

/-- A character that stands in no id. -/
theorem not_mem_id {id : String} (h : isId id = true) {c : Char} (hc : isIdChar c = false) : c ∉ id.toList := by
  intro hmem
  rw [isIdChar_of_mem h hmem] at hc
  cases hc

theorem id_ne_empty {id : String} (h : isId id = true) : id ≠ "" := by
  simp only [isId, Bool.and_eq_true] at h
  exact of_decide_eq_true h.1.1

namespace Client

/-- What has become of a task. -/
inductive State
  | «open»
  | approved
  | answering
  | done
  | failed
  | rejected
  | cancelled
  | expired
  | void
deriving DecidableEq

/-- What a task asks of its owner. -/
inductive Kind
  | confirm
  | input
  | notice
deriving DecidableEq

/-- Why the store refused. -/
inductive Refusal
  | notFound
  | muted
  /-- the owner's limit of open tasks -/
  | inboxFull
  /-- this preparer's share of it -/
  | preparerFull
  /-- the owner's waiting tasks hold as much as they may together -/
  | storageFull
  | exists_
  | closed
  | expired
  | lifeTooLong
  | invalidRequest
deriving DecidableEq

/-- Why the store did not do as it was asked. -/
inductive StoreError
  /-- with the state the task was found in, when that is why -/
  | refused (refusal : Refusal) (found : Option State)
  | unavailable (why : String)
deriving DecidableEq

/-- The project and the owner a run was admitted for. -/
structure Scope where
  projectUuid : String
  owner : String
deriving DecidableEq

/-- A task as its preparer's run reads it. -/
structure Prepared where
  id : String
  kind : Kind
  state : State
  createdAt : Int
  expiresAt : Int
  run : Option String
  outcome : Option (List UInt8)
  rejection : Option (List UInt8)
  failureReason : Option String
deriving DecidableEq

/-- The store, by what it answers. -/
structure Store where
  /-- the preparer's tasks; with `id`, that one or `notFound` -/
  mine : Scope → (preparer : String) → (id : Option String) → Except StoreError (List Prepared)

/-! ## What the store keeps -/

/-- A task in the store, and whose it is. -/
structure Kept where
  scope : Scope
  preparer : String
  task : Prepared

/-- The task is of this scope and was prepared by this account. -/
def Kept.isOf (k : Kept) (scope : Scope) (preparer : String) : Bool :=
  decide (k.scope = scope) && decide (k.preparer = preparer)

/-- A store that says what it keeps: the tasks of one preparer in one scope, in some order; or the one of them with an
    id. No two tasks have one id. -/
structure Honest (store : Store) (content : List Kept) : Prop where
  ids : (content.map fun k => k.task.id).Nodup
  is_id : ∀ k ∈ content, isId k.task.id = true
  list : ∀ scope preparer, ∃ tasks, store.mine scope preparer none = .ok tasks ∧
    tasks.Perm ((content.filter fun k => k.isOf scope preparer).map Kept.task)
  one : ∀ k ∈ content, store.mine k.scope k.preparer (some k.task.id) = .ok [k.task]
  absent : ∀ scope preparer id, (∀ k ∈ content, k.isOf scope preparer = true → k.task.id ≠ id) →
    ∃ found, store.mine scope preparer (some id) = .error (.refused .notFound found)

end Client
end Tasks
end Worker
end Outlayer
