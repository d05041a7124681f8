import Outlayer.Github.Asked
import Outlayer.Lib.Interleave
import Outlayer.Github.Confirm

/-!
# `Github.Places` — the runs of one caller on one day, and their places in its budget

Runs of one caller go on side by side. Each asks its questions in its own order; the store that keeps the day's counts
is one for all of them, and adds to a count in one go. GitHub may apply a write and not say so. A day is a `Pool` of
runs. What it remembers of GitHub, for each count, is how many writes were applied and how many were accepted.

A run of a write goes through *places*: it has none, it takes one, and it keeps the one it took or gives it back
(`Place.next`). That every run keeps to this is shown once for each way a write is made (`keeps_execute`), and from
there for whole runs (`keeps_write`, `keeps_confirm`); what several runs do to the day's count follows from their
places alone.
-/

namespace Outlayer.Github
open Text Json Exchange Checked

/-! ## What became of a write -/

/-- GitHub answered that it made the write. -/
def Outcome.accepted (o : Outcome) : Bool :=
  match o.response with
  | .ok r    => decide (200 ≤ r.status) && decide (r.status < 300)
  | .error _ => false

/-- The answer came back, body and all. -/
def Outcome.answered (o : Outcome) : Bool :=
  match o.response with
  | .ok r    => r.body.toOption.isSome
  | .error _ => false

/-- The run that sent the request knows that it was made. -/
def Outcome.toldAccepted (o : Outcome) : Bool := o.answered && o.accepted

/-! ## The store of a day -/

/-- One day of the counters, with the writes GitHub has applied and those it has accepted. -/
structure Day where
  /-- what the counters hold; one that is missing is zero -/
  count : String → Int
  applied : Counted → Nat
  accepted : Counted → Nat

/-- No run of the day has started. -/
def Day.fresh : Day := ⟨fun _ => 0, fun _ => 0, fun _ => 0⟩

/-- One more of a count, if `b`. -/
def bump (b : Bool) (counted : Counted) (n : Counted → Nat) : Counted → Nat :=
  fun c => if c = counted ∧ b = true then n c + 1 else n c

/-- What GitHub did with a request of a run that is counted as `counted`. -/
def Day.sent (day : Day) (counted : Counted) (q : Request) (o : Outcome) : Day where
  count := day.count
  applied := bump (q.changes && o.applied) counted day.applied
  accepted := bump (q.changes && o.accepted) counted day.accepted

/-- A counter after `increment`: read and written back in one go. -/
def Day.add (day : Day) (key : String) (delta : Int) : Day :=
  { day with count := fun k => if k = key then day.count k + delta else day.count k }

/-- What becomes of a question. -/
inductive Happening
  | github (o : Outcome)
  | stored
  /-- the store could not be reached, or the counter kept changing: it is as it was -/
  | notStored (why : String)
  | opened (r : Except String Opened)
  | taken (r : Except String TaskAnswer)
  | reported (r : Except String Unit)
  | told (notice : Option Value) (r : Except String Unit)

/-- What the day answers to a call and how it moves, for each thing that may happen to it. -/
def Day.serve (day : Day) (counted : Counted) : (q : Ask) → Happening → Option (Reply q × Day)
  | .github q, .github o               => some (o, day.sent counted q o)
  | .increment key delta, .stored      => some (.ok (day.count key + delta), day.add key delta)
  | .increment _ _, .notStored why     => some (.error why, day)
  | .openTask _, .opened r             => some (r, day)
  | .takeAnswer _ _ _, .taken r        => some (r, day)
  | .report _ _, .reported r           => some (r, day)
  | .reportFailure _ _ _, .told n r    => some ((n, r), day)
  | _, _                               => none

/-! ## The runs -/

/-- A run that may write, with what it is started with. -/
inductive Started
  | direct (env : Env) (input : Input) (operation : Confirmable)
  | confirmed (env : Env) (input : Input)

/-- The environment a run was started in. -/
def Started.env : Started → Env
  | .direct env _ _  => env
  | .confirmed env _ => env

/-- Which count its writes are taken from. -/
def Started.counted : Started → Counted
  | .direct _ _ _  => .own
  | .confirmed _ _ => .confirmed

/-- The program a run was started with, its result left out. -/
def Started.program (codec : Codec) (loaded : Loaded) : Started → Exchange Ask Reply Unit Unit
  | .direct env input operation => (write env codec loaded input operation).forget
  | .confirmed env input        => (confirm env codec loaded input).forget

/-- The runs of a day before it begins. -/
def opening (codec : Codec) (loaded : Loaded) (runs : List Started) : Pool Ask Reply Counted Day :=
  ⟨Day.fresh, runs.map fun run => (run.counted, run.program codec loaded)⟩

/-- The owner's cap on writes a day; without one nothing is written. -/
def Loaded.cap : Loaded → Nat
  | .some rules => rules.maxWritesPerDay.getD 0
  | _           => 0

/-- One event of a day: a run of the pool makes its next call and is answered. -/
abbrev dayStep : Pool Ask Reply Counted Day → Nat × Happening →
    Option (Pool Ask Reply Counted Day × Counted × Exchange.Event Reply) := Pool.step Day.serve

/-! ## The places of a run -/

/-- Where a run stands with its place in the day's budget. -/
inductive Place
  | outside
  /-- taken past the cap: to be given back -/
  | beyond
  | held
  | kept
  /-- the write was sent and not heard to be accepted: to be given back -/
  | lost
  | returned
  /-- it could not be given back -/
  | stranded
deriving DecidableEq

/-- The place after the count was told to change. -/
def Place.counted (cap : Nat) (place : Place) (delta : Int) (r : Except String Int) : Option Place :=
  match place, r with
  | .outside, .ok after => if delta = 1 then some (if after ≤ cap then .held else .beyond) else none
  | .outside, .error _  => if delta = 1 then some .outside else none
  | .beyond, .ok _        => if delta = -1 then some .returned else none
  | .beyond, .error _     => if delta = -1 then some .stranded else none
  | .held, .ok _        => if delta = -1 then some .returned else none
  | .held, .error _     => if delta = -1 then some .stranded else none
  | .lost, .ok _        => if delta = -1 then some .returned else none
  | .lost, .error _     => if delta = -1 then some .stranded else none
  | _, _                => none

/-- The place after an exchange: a write is sent from a place that is held, and once. -/
def Place.next (key : String) (cap : Nat) (place : Place) : (q : Ask) → Reply q → Option Place
  | .github q, o =>
      if q.changes = false then some place
      else if place = .held then some (if Outcome.toldAccepted o then .kept else .lost)
      else none
  | .increment k delta, r => if k = key then place.counted cap delta r else none
  | _, _ => some place

/-- Nothing is left to do about the place. -/
def Place.Settled : Place → Prop
  | .beyond | .held | .lost => False
  | _ => True

/-- A question that is neither a write nor about the count. -/
def Neutral : Ask → Prop
  | .github q      => q.changes = false
  | .increment _ _ => False
  | _              => True

/-- How the calls of a write end: the place is kept exactly when they return. -/
def Wrote {α : Type} : Except String α → Place → Prop
  | .ok _, place    => place = .kept
  | .error _, place => place = .held ∨ place = .lost

theorem next_github {key : String} {cap : Nat} {place : Place} {q : Request} (o : Outcome) :
    Place.next key cap place (.github q) o = if q.changes = false then some place
      else if place = .held then some (if o.toldAccepted then .kept else .lost) else none := rfl

theorem next_increment {key k : String} {cap : Nat} {place : Place} {delta : Int} (r : Except String Int) :
    Place.next key cap place (.increment k delta) r = if k = key then place.counted cap delta r else none := rfl

theorem next_of_neutral {key : String} {cap : Nat} {place : Place} {q : Ask} (hq : Neutral q) (a : Reply q) :
    Place.next key cap place q a = some place := by
  cases q with
  | github q => exact if_pos hq
  | increment k d => exact hq.elim
  | _ => rfl

theorem neutral_of_read {env : Env} {q : Ask} (hq : IsRead env q) : Neutral q := by
  cases q with
  | github q =>
      obtain ⟨m, e, b⟩ := q
      obtain ⟨-, rfl⟩ : HasToken env ∧ m = .get := hq
      rfl
  | _ => exact hq.elim

/-- **A run knows that its write was accepted** when its call returns. -/
theorem answered_cases {env : Env} {path : String} {o : Outcome} :
    (o.toldAccepted = true ∧ ∃ a, answered env path o = .ok a) ∨
      (o.toldAccepted = false ∧ ∃ e, answered env path o = .error e) := by
  unfold answered Outcome.toldAccepted Outcome.answered Outcome.accepted
  cases o.response with
  | error e => exact Or.inr ⟨rfl, _, rfl⟩
  | ok r =>
      dsimp only
      cases hbody : r.body with
      | error e => exact Or.inr ⟨rfl, _, rfl⟩
      | ok bytes =>
          by_cases hstatus : 200 ≤ r.status ∧ r.status < 300
          · exact Or.inl ⟨by simp [Except.toOption, hstatus], _, if_pos hstatus⟩
          · refine Or.inr ⟨?_, _, if_neg hstatus⟩
            simpa [Except.toOption] using hstatus

/-! ## One run -/

section Keeping
variable {α β : Type} {env : Env} {rules : Policy} {counted : Counted} {key : String} {cap : Nat} {place : Place}

/-- What is neutral leaves the place as it is. -/
theorem keeps_neutral {ε : Type} {x : Exchange Ask Reply ε α} (hx : x.Asks Neutral) :
    x.Keeps (Place.next key cap) (fun _ place' => place' = place) place :=
  hx.keeps fun _ hq a => next_of_neutral hq a

/-- Neutral questions before the write. -/
theorem wrote_after {x : Connector α} {f : α → Connector β} (hx : x.Asks Neutral)
    (hf : ∀ a, (f a).Keeps (Place.next key cap) Wrote .held) :
    (x >>= f).Keeps (Place.next key cap) Wrote .held := by
  refine (keeps_neutral hx).bind ?_ ?_
  · rintro a place rfl
    exact hf a
  · rintro e place rfl
    exact Or.inl rfl

/-- An answer made of the write's. -/
theorem wrote_then {x : Connector α} {g : α → β} (hx : x.Keeps (Place.next key cap) Wrote place) :
    (x >>= fun a => pure (g a)).Keeps (Place.next key cap) Wrote place :=
  hx.bind (fun _ _ h => h) fun _ _ h => h

/-- **The write's own request.** -/
theorem wrote_call {m : Method} {e : Endpoint} {b : Option Value} (hchanges : Request.changes ⟨m, e, b⟩ = true) :
    (call env m e b).Keeps (Place.next key cap) Wrote .held := by
  unfold call
  cases htok : token env with
  | error why => exact Or.inl rfl
  | ok tok =>
      intro (o : Outcome)
      refine ⟨if o.toldAccepted then .kept else .lost, ?_, ?_⟩
      · rw [next_github, if_neg (by simp [hchanges]), if_pos rfl]
      · refine keeps_lift.mpr ?_
        rcases @answered_cases env e.path o with ⟨htold, a, ha⟩ | ⟨htold, why, ha⟩
        · rw [ha, htold]
          rfl
        · rw [ha, htold]
          exact Or.inr rfl

theorem wrote_post {e : Endpoint} {b : Value} (hchanges : Request.changes ⟨.post, e, some b⟩ = true) :
    (post env e b).Keeps (Place.next key cap) Wrote .held := wrote_then (wrote_call hchanges)

theorem wrote_patch {e : Endpoint} {b : Value} (hchanges : Request.changes ⟨.patch, e, some b⟩ = true) :
    (patch env e b).Keeps (Place.next key cap) Wrote .held := wrote_then (wrote_call hchanges)

/-- Give the place back. -/
theorem keeps_giveBack {e : String} (hplace : place = .beyond ∨ place = .held ∨ place = .lost) :
    (asking (.increment key (-1)) >>= fun _ => (.fail e : Connector α)).Keeps (Place.next key cap)
      (fun _ => Place.Settled) place := by
  intro (r : Except String Int)
  rw [next_increment, if_pos rfl]
  rcases hplace with rfl | rfl | rfl <;>
  · cases r with
    | ok n => exact ⟨.returned, rfl, trivial⟩
    | error why => exact ⟨.stranded, rfl, trivial⟩

/-- **A place is taken, and kept or given back.** -/
theorem keeps_reserveWrite {act : Nat → Connector α} (hact : ∀ n, (act n).Keeps (Place.next
      (countKey (dayKey env.nowMs) counted) (rules.maxWritesPerDay.getD 0)) Wrote .held) :
    (reserveWrite env rules counted act).Keeps (Place.next (countKey (dayKey env.nowMs) counted)
      (rules.maxWritesPerDay.getD 0)) (fun _ => Place.Settled) .outside := by
  cases hcap : rules.maxWritesPerDay with
  | none =>
      unfold reserveWrite Policy.writeCap
      rw [hcap]
      exact trivial
  | some cap =>
      rw [hcap] at hact
      unfold reserveWrite Policy.writeCap
      rw [hcap]
      intro (bumped : Except String Int)
      cases bumped with
      | error why => exact ⟨.outside, by rw [next_increment, if_pos rfl]; rfl, trivial⟩
      | ok after =>
          by_cases hover : (cap : Int) < after
          · refine ⟨.beyond, by rw [next_increment, if_pos rfl]; simp [Place.counted, hover], ?_⟩
            show Keeps _ _ (ite _ _ _) _
            rw [if_pos hover]
            exact keeps_giveBack (Or.inl rfl)
          · refine ⟨.held, by rw [next_increment, if_pos rfl]; simp [Place.counted, not_lt.mp hover], ?_⟩
            show Keeps _ _ (ite _ _ _) _
            rw [if_neg hover]
            refine (hact _).recover ?_ fun e place hplace => keeps_giveBack (Or.inr hplace)
            rintro a place rfl
            trivial

/-! ## The calls of each write -/

theorem neutral_get {e : Endpoint} : (get env e).Asks Neutral := asks_get fun _ => rfl

/-- The tree of a commit is made of git objects. -/
theorem neutral_treeOf {repo : String} {changes : List Change} : (treeOf env repo changes).Asks Neutral := by
  induction changes with
  | nil => trivial
  | cons c changes ih =>
      cases c with
      | delete path => exact Asks.bind ih fun _ => trivial
      | write path content =>
          refine Asks.bind asks_lift fun bytes => Asks.bind ?_ fun entry => Asks.bind ih fun _ => trivial
          unfold writtenEntry
          split
          · trivial
          · exact Asks.bind (asks_post fun _ => rfl) fun _ => trivial

theorem neutral_checkHead {a : PrReview} : (checkHead env a).Asks Neutral := by
  unfold checkHead
  split
  · split
    · exact Asks.bind (Asks.bind (reads_pull.mono fun _ => neutral_of_read) fun _ => trivial) fun _ => asks_lift
    · trivial
  · trivial

/-- What is computed before the place is taken can only end the run. -/
theorem settled_after {y : Except String α} {f : α → Connector β}
    (hf : ∀ a, (f a).Keeps (Place.next key cap) (fun _ => Place.Settled) .outside) :
    (lift y >>= f).Keeps (Place.next key cap) (fun _ => Place.Settled) .outside := by
  cases y with
  | ok a => exact hf a
  | error e => trivial

theorem keeps_commitFiles {c : Commit} : (commitFiles env rules counted c).Keeps (Place.next
    (countKey (dayKey env.nowMs) counted) (rules.maxWritesPerDay.getD 0)) (fun _ => Place.Settled) .outside := by
  refine keeps_reserveWrite fun used => ?_
  refine wrote_after neutral_get fun ref => wrote_after asks_lift fun head => ?_
  refine wrote_after neutral_get fun commit => wrote_after asks_lift fun baseTree => ?_
  refine wrote_after neutral_treeOf fun tree => wrote_after (asks_post fun _ => rfl) fun newTree => ?_
  refine wrote_after (asks_post fun _ => rfl) fun newCommit => ?_
  exact wrote_then (wrote_patch rfl)

/-- **Carrying a write out** takes one place, and keeps it or gives it back. -/
theorem keeps_execute {a : Action} : (a.execute env rules counted).Keeps (Place.next
    (countKey (dayKey env.nowMs) counted) (rules.maxWritesPerDay.getD 0)) (fun _ => Place.Settled) .outside := by
  cases a with
  | branchCreate a =>
      simp only [Action.execute]
      exact settled_after fun start => keeps_reserveWrite fun used => wrote_then (wrote_post rfl)
  | filePut a =>
      simp only [Action.execute]
      refine settled_after fun bytes => keeps_reserveWrite fun used => wrote_then ?_
      refine (wrote_call rfl).recover (fun _ _ h => h) fun e place h => ?_
      exact h
  | commit a => exact keeps_commitFiles
  | issueCreate a =>
      simp only [Action.execute]
      exact keeps_reserveWrite fun used => wrote_then (wrote_post rfl)
  | issueComment a =>
      simp only [Action.execute]
      exact keeps_reserveWrite fun used => wrote_then (wrote_post rfl)
  | issueUpdate a =>
      simp only [Action.execute]
      exact keeps_reserveWrite fun used => wrote_then (wrote_patch rfl)
  | prCreate a =>
      simp only [Action.execute]
      exact keeps_reserveWrite fun used => wrote_then (wrote_post rfl)
  | prReview a =>
      simp only [Action.execute]
      refine keeps_reserveWrite fun used => wrote_after neutral_checkHead fun _ => ?_
      exact wrote_then (wrote_post rfl)
  | prMerge a =>
      simp only [Action.execute]
      exact keeps_reserveWrite fun used => wrote_then (wrote_call rfl)
  | gistCreate a =>
      simp only [Action.execute]
      exact settled_after fun files => keeps_reserveWrite fun used => wrote_then (wrote_post rfl)
  | gistUpdate a =>
      simp only [Action.execute]
      exact settled_after fun files => keeps_reserveWrite fun used => wrote_then (wrote_patch rfl)
  | repoStar repo =>
      simp only [Action.execute, star]
      exact keeps_reserveWrite fun used => wrote_then (wrote_call rfl)
  | repoUnstar repo =>
      simp only [Action.execute, star]
      exact keeps_reserveWrite fun used => wrote_then (wrote_call rfl)

/-! ## Whole runs -/

/-- Neutral questions before something that takes a place. -/
theorem settled_before {ε : Type} {x : Exchange Ask Reply ε α} {f : α → Exchange Ask Reply ε β} (hx : x.Asks Neutral)
    (hf : ∀ a, (f a).Keeps (Place.next key cap) (fun _ => Place.Settled) .outside) :
    (x >>= f).Keeps (Place.next key cap) (fun _ => Place.Settled) .outside := by
  refine (keeps_neutral hx).bind ?_ ?_
  · rintro a place rfl
    exact hf a
  · rintro e place rfl
    trivial

/-- Neutral questions when the place is settled. -/
theorem settled_of_neutral {ε : Type} {x : Exchange Ask Reply ε α} (hx : x.Asks Neutral) (hplace : place.Settled) :
    x.Keeps (Place.next key cap) (fun _ => Place.Settled) place :=
  (keeps_neutral hx).mono fun _ _ h => h ▸ hplace

theorem neutral_ask {codec : Codec} {a : Action} : (ask env codec a).Asks Neutral :=
  Asks.bind asks_lift fun _ => Asks.bind asks_lift fun _ => Asks.bind (asks_query trivial) fun _ =>
    Asks.bind asks_lift fun _ => trivial

theorem neutral_refuse {answer : TaskAnswer} {e : String} : (refuse env answer e).Asks Neutral :=
  Asks.bind (asks_query trivial) fun _ => trivial

theorem neutral_finish {answer : TaskAnswer} {a : Action} {outcome : Except Unmade Value} :
    (finish env answer a outcome).Asks Neutral := by
  unfold finish
  split
  · exact Asks.bind (asks_query trivial) fun _ => Asks.bind asks_lift fun _ => trivial
  · exact neutral_refuse
  · trivial

/-- **A direct run** takes its place from the caller's own count. -/
theorem keeps_write {codec : Codec} {loaded : Loaded} {input : Input} {operation : Confirmable} :
    (write env codec loaded input operation).Keeps (Place.next (countKey (dayKey env.nowMs) .own) loaded.cap)
      (fun _ => Place.Settled) .outside := by
  cases loaded with
  | none => trivial
  | unreadable why => trivial
  | some rules =>
      show Keeps _ _ (Action.prepare env operation input rules (rules.confirms operation) >>= fun action =>
        if rules.confirms operation = true then ask env codec action else action.execute env rules .own) _
      refine settled_before (reads_prepare.mono fun _ => neutral_of_read) fun action => ?_
      split
      · exact settled_of_neutral neutral_ask trivial
      · exact keeps_execute

/-- What follows the owner's answer. -/
theorem keeps_afterAnswer {codec : Codec} {answer : TaskAnswer} :
    (afterAnswer env codec rules answer).Keeps (Place.next (countKey (dayKey env.nowMs) .confirmed)
      (rules.maxWritesPerDay.getD 0)) (fun _ => Place.Settled) .outside := by
  unfold afterAnswer
  split
  · exact settled_of_neutral neutral_refuse trivial
  · next action _ =>
      have hact : (act env rules action .confirmed).Keeps (Place.next (countKey (dayKey env.nowMs) .confirmed)
          (rules.maxWritesPerDay.getD 0)) (fun _ => Place.Settled) .outside := by
        refine settled_before ?_ fun _ => ?_
        · exact Asks.recover (reads_checkOnGithub.mono fun _ => neutral_of_read) fun _ => trivial
        · refine keeps_execute.watch.bind ?_ ?_
          · rintro made place ⟨-, hplace⟩
            exact keeps_lift.mpr hplace
          · rintro e place ⟨-, hplace⟩
            exact hplace
      refine hact.attempt.bind ?_ ?_
      · rintro outcome place ⟨-, hplace⟩
        exact settled_of_neutral neutral_finish hplace
      · rintro e place ⟨-, hplace⟩
        exact hplace

/-- **A confirm run** takes its place from the count of confirmed writes. -/
theorem keeps_confirm {codec : Codec} {loaded : Loaded} {input : Input} :
    (confirm env codec loaded input).Keeps (Place.next (countKey (dayKey env.nowMs) .confirmed) loaded.cap)
      (fun _ => Place.Settled) .outside := by
  unfold confirm
  cases hbefore : beforeAnswer input loaded with
  | error e => trivial
  | ok checked =>
      obtain ⟨call, rules⟩ := checked
      obtain rfl : loaded = .some rules := by
        simp only [beforeAnswer, bind_eq_ok, pure_eq_ok, Prod.mk.injEq] at hbefore
        obtain ⟨_, -, _, -, _, -, loaded', hrequired, -, rfl⟩ := hbefore
        unfold required at hrequired
        split at hrequired <;> cases hrequired
        rfl
      show Keeps _ _ (asking (.takeAnswer answeredBy call env.storedPolicy) >>= fun answer => _) _
      refine settled_before (asks_query trivial) fun answer => settled_before asks_lift fun answer => ?_
      exact keeps_afterAnswer

/-- Every run of a write keeps to its count's places. -/
theorem keeps_program {codec : Codec} {loaded : Loaded} (run : Started) :
    (run.program codec loaded).Keeps (Place.next (countKey (dayKey run.env.nowMs) run.counted) loaded.cap)
      (fun _ => Place.Settled) .outside := by
  cases run with
  | direct env input operation => exact keeps_write.forget
  | confirmed env input => exact keeps_confirm.forget

end Keeping

end Outlayer.Github
