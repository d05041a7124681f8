import Outlayer.Github.Execute

/-!
# `Github.Asked` — what the programs of a write ask

Preparing a write only reads. Carrying it out sends the request the write is made of, reads, and creates git objects,
and nothing else (`asks_execute`); it also counts the write in the day's budget.
-/

namespace Outlayer.Github
open Text Json Exchange Checked

section Calls
variable {α β : Type} {P : Ask → Prop} {env : Env}

/-- A token reached the run. -/
def HasToken (env : Env) : Prop := ∃ tok, token env = .ok tok

/-- A request is sent with a token only. -/
theorem asks_call {m : Method} {e : Endpoint} {b : Option Value} (hq : HasToken env → P (.github ⟨m, e, b⟩)) :
    (call env m e b).Asks P := by
  unfold call
  cases htok : token env with
  | error why => trivial
  | ok tok => exact Asks.bind asks_lift fun _ => Asks.bind (asks_query (hq ⟨tok, htok⟩)) fun _ => asks_lift

theorem asks_get {e : Endpoint} (hq : HasToken env → P (.github ⟨.get, e, none⟩)) : (get env e).Asks P :=
  Asks.bind (asks_call hq) fun _ => trivial

theorem asks_post {e : Endpoint} {b : Value} (hq : HasToken env → P (.github ⟨.post, e, some b⟩)) :
    (post env e b).Asks P := Asks.bind (asks_call hq) fun _ => trivial

theorem asks_patch {e : Endpoint} {b : Value} (hq : HasToken env → P (.github ⟨.patch, e, some b⟩)) :
    (patch env e b).Asks P := Asks.bind (asks_call hq) fun _ => trivial

/-- A place in the day's budget. -/
theorem asks_reserveWrite {rules : Policy} {counted : Counted} {act : Nat → Connector α}
    (hcount : ∀ k d, P (.increment k d)) (hact : ∀ n, (act n).Asks P) :
    (reserveWrite env rules counted act).Asks P := by
  refine Asks.bind asks_lift fun cap => Asks.bind (asks_query (hcount _ _)) fun bumped => ?_
  refine Asks.bind asks_lift fun after => ?_
  split
  · exact Asks.bind (asks_query (hcount _ _)) fun _ => trivial
  · exact Asks.recover (hact _) fun e => Asks.bind (asks_query (hcount _ _)) fun _ => trivial

end Calls

/-! ## Reads -/

/-- A read of GitHub. -/
def IsRead (env : Env) : Ask → Prop
  | .github q => HasToken env ∧ q.method = .get
  | _         => False

section Reads
variable {env : Env} {rules : Policy}

theorem reads_defaultBranch {repo : String} : (defaultBranch env repo).Asks (IsRead env) :=
  Asks.bind (asks_get fun htok => ⟨htok, rfl⟩) fun _ => asks_lift

theorem reads_pull {repo : String} {n : Nat} : (pull env repo n).Asks (IsRead env) := by
  refine Asks.bind (asks_get fun htok => ⟨htok, rfl⟩) fun pr => ?_
  split <;> trivial

theorem reads_checkOnGithub {a : Action} : (a.checkOnGithub env rules).Asks (IsRead env) := by
  unfold Action.checkOnGithub
  split
  · refine Asks.bind asks_lift fun matched => ?_
    split
    · exact Asks.bind reads_defaultBranch fun _ => asks_lift
    · trivial
  · trivial

theorem reads_resolve {forOwner : Bool} {a : Action} : (a.resolve env forOwner).Asks (IsRead env) := by
  unfold Action.resolve
  split
  · refine Asks.bind ?_ fun branch => Asks.bind (asks_get fun htok => ⟨htok, rfl⟩) fun head =>
      Asks.bind asks_lift fun _ => trivial
    unfold Action.resolve.startBranch
    split
    · trivial
    · exact reads_defaultBranch
  · split
    · exact Asks.bind reads_pull fun _ => trivial
    · trivial
  · split
    · exact Asks.bind reads_pull fun _ => trivial
    · trivial
  · trivial

/-- **Preparing a write only reads.** -/
theorem reads_prepare {operation : Confirmable} {input : Input} {forOwner : Bool} :
    (Action.prepare env operation input rules forOwner).Asks (IsRead env) :=
  Asks.bind asks_lift fun _ => Asks.bind asks_lift fun _ => Asks.bind asks_lift fun _ =>
    Asks.bind reads_checkOnGithub fun _ => reads_resolve

end Reads

/-! ## The request a write is made of -/

/-- The method and the address of the request that makes a write. -/
def Action.written : Action → Method × Endpoint
  | .branchCreate a => (.post, .refs a.repo)
  | .filePut a      => (.put, .contents a.repo (filePath a.path))
  | .commit a       => (.patch, .refHead a.repo a.branch)
  | .issueCreate a  => (.post, .issues a.repo)
  | .issueComment a => (.post, .comments a.repo a.number)
  | .issueUpdate a  => (.patch, .issue a.repo a.number)
  | .prCreate a     => (.post, .pulls a.repo)
  | .prReview a     => (.post, .reviews a.repo a.number)
  | .prMerge a      => (.put, .merge a.repo a.number)
  | .gistCreate _   => (.post, .gists)
  | .gistUpdate a   => (.patch, .gist (segment a.gistId))
  | .repoStar repo  => (.put, .starred repo)
  | .repoUnstar repo => (.delete, .starred repo)

/-- A question of the day's count, or a request that changes nothing on GitHub or is the one the write is made of. -/
def Expected (env : Env) (a : Action) : Ask → Prop
  | .github q      => HasToken env ∧ (q.changes = false ∨ (q.method, q.endpoint) = a.written)
  | .increment _ _ => True
  | _              => False

theorem expected_of_read {env : Env} {a : Action} {q : Ask} (h : IsRead env q) : Expected env a q := by
  cases q with
  | github q =>
      obtain ⟨m, e, b⟩ := q
      obtain ⟨htok, rfl⟩ : HasToken env ∧ m = .get := h
      exact ⟨htok, Or.inl rfl⟩
  | _ => exact h.elim

section Execute
variable {a : Action} {env : Env} {rules : Policy} {counted : Counted}

/-- The write's own request. -/
theorem expects_written {m : Method} {e : Endpoint} {b : Option Value} (hw : (m, e) = a.written) :
    (call env m e b).Asks (Expected env a) := asks_call fun htok => ⟨htok, Or.inr hw⟩

theorem expects_posted {e : Endpoint} {b : Value} (hw : (Method.post, e) = a.written) :
    (post env e b).Asks (Expected env a) := asks_post fun htok => ⟨htok, Or.inr hw⟩

theorem expects_patched {e : Endpoint} {b : Value} (hw : (Method.patch, e) = a.written) :
    (patch env e b).Asks (Expected env a) := asks_patch fun htok => ⟨htok, Or.inr hw⟩

/-- The tree of a commit is made of git objects. -/
theorem expects_treeOf {repo : String} {changes : List Change} : (treeOf env repo changes).Asks (Expected env a) := by
  induction changes with
  | nil => trivial
  | cons c changes ih =>
      cases c with
      | delete path => exact Asks.bind ih fun _ => trivial
      | write path content =>
          refine Asks.bind asks_lift fun bytes => Asks.bind ?_ fun entry => Asks.bind ih fun _ => trivial
          unfold writtenEntry
          split
          · trivial
          · exact Asks.bind (asks_post fun htok => ⟨htok, Or.inl rfl⟩) fun _ => trivial

theorem expects_reserveWrite {α : Type} {act : Nat → Connector α} (hact : ∀ n, (act n).Asks (Expected env a)) :
    (reserveWrite env rules counted act).Asks (Expected env a) := asks_reserveWrite (fun _ _ => trivial) hact

theorem expects_commitFiles {c : Commit} : (commitFiles env rules counted c).Asks (Expected env (.commit c)) := by
  refine expects_reserveWrite fun used => ?_
  refine Asks.bind (asks_get fun htok => ⟨htok, Or.inl rfl⟩) fun ref => Asks.bind asks_lift fun head => ?_
  refine Asks.bind (asks_get fun htok => ⟨htok, Or.inl rfl⟩) fun commit => Asks.bind asks_lift fun baseTree => ?_
  refine Asks.bind expects_treeOf fun tree => Asks.bind (asks_post fun htok => ⟨htok, Or.inl rfl⟩) fun newTree => ?_
  refine Asks.bind (asks_post fun htok => ⟨htok, Or.inl rfl⟩) fun newCommit => ?_
  exact Asks.bind (expects_patched rfl) fun _ => trivial

theorem expects_checkHead {b : PrReview} : (checkHead env b).Asks (Expected env a) := by
  unfold checkHead
  split
  · split
    · refine Asks.bind (Asks.bind (reads_pull.mono fun _ => expected_of_read) fun _ => trivial) fun _ => asks_lift
    · trivial
  · trivial

/-- **What carrying a write out asks of GitHub**: its own request, and what changes nothing. -/
theorem asks_execute : (a.execute env rules counted).Asks (Expected env a) := by
  cases a with
  | branchCreate a =>
      simp only [Action.execute]
      refine Asks.bind asks_lift fun start => expects_reserveWrite fun used => ?_
      exact Asks.bind (expects_posted rfl) fun _ => trivial
  | filePut a =>
      simp only [Action.execute]
      refine Asks.bind asks_lift fun bytes => expects_reserveWrite fun used => ?_
      exact Asks.bind (Asks.recover (expects_written rfl) fun _ => trivial) fun _ => trivial
  | commit a => exact expects_commitFiles
  | issueCreate a =>
      simp only [Action.execute]
      exact expects_reserveWrite fun used => Asks.bind (expects_posted rfl) fun _ => trivial
  | issueComment a =>
      simp only [Action.execute]
      exact expects_reserveWrite fun used => Asks.bind (expects_posted rfl) fun _ => trivial
  | issueUpdate a =>
      simp only [Action.execute]
      exact expects_reserveWrite fun used => Asks.bind (expects_patched rfl) fun _ => trivial
  | prCreate a =>
      simp only [Action.execute]
      exact expects_reserveWrite fun used => Asks.bind (expects_posted rfl) fun _ => trivial
  | prReview a =>
      simp only [Action.execute]
      refine expects_reserveWrite fun used => Asks.bind expects_checkHead fun _ => ?_
      exact Asks.bind (expects_posted rfl) fun _ => trivial
  | prMerge a =>
      simp only [Action.execute]
      exact expects_reserveWrite fun used => Asks.bind (expects_written rfl) fun _ => trivial
  | gistCreate a =>
      simp only [Action.execute]
      refine Asks.bind asks_lift fun files => expects_reserveWrite fun used => ?_
      exact Asks.bind (expects_posted rfl) fun _ => trivial
  | gistUpdate a =>
      simp only [Action.execute]
      refine Asks.bind asks_lift fun files => expects_reserveWrite fun used => ?_
      exact Asks.bind (expects_patched rfl) fun _ => trivial
  | repoStar repo =>
      simp only [Action.execute, star]
      exact expects_reserveWrite fun used => Asks.bind (expects_written rfl) fun _ => trivial
  | repoUnstar repo =>
      simp only [Action.execute, star]
      exact expects_reserveWrite fun used => Asks.bind (expects_written rfl) fun _ => trivial

end Execute
end Outlayer.Github
