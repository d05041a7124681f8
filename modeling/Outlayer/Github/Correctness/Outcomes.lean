import Outlayer.Github.Correctness.Rules
import Outlayer.Lib.JsonReread
import Outlayer.Lib.Fields

/-!
# `Github.Correctness.Outcomes` — what a run of `confirm` says was not made

A run that ends without a result reports the task as not carried out when it is certain that nothing was written. The
certainty is a flag: every request that can change something puts it up, unless GitHub refused the request. Whether a
request can change something is judged by how its path ends, and the end of a path may be a name the agent chose.
`Hidden` names the writes the flag does not see by that test; of all others, a report says the truth.
-/

namespace Outlayer.Github
open Text Json Exchange Checked

/-! ## What a run reports, and what it changed -/

/-- The run reported its task as not carried out. -/
def ReportsFailure (t : Trace) : Prop := ∃ e ∈ t, ∃ id refusal policy, e.1 = .reportFailure id refusal policy

/-- GitHub applied a request that changes what it shows. -/
def Applied : Exchange.Event Reply → Prop
  | ⟨.github q, outcome⟩ => q.changes = true ∧ outcome.applied = true
  | _                    => False

/-- Something was changed on GitHub. -/
def ChangedGithub (t : Trace) : Prop := ∃ e ∈ t, Applied e

/-- The write's own request does not count as one that can change something. -/
def Action.Hidden (a : Action) : Prop := changesSomething a.written.1 a.written.2.path = false

/-! ## Which writes are hidden -/

theorem endsWith_append (head suf : String) : endsWith (head ++ suf) suf = true := by
  rw [endsWith, decide_eq_true_iff, String.toList_append]
  exact List.suffix_append _ _

/-- The path ends as that of a git object does. -/
def EndsAsObject (path : String) : Prop :=
  endsWith path "/git/blobs" ∨ endsWith path "/git/trees" ∨ endsWith path "/git/commits"

theorem changesSomething_eq_false {m : Method} {path : String} :
    changesSomething m path = false ↔ m = .get ∨ EndsAsObject path := by
  have hany : (["/git/blobs", "/git/trees", "/git/commits"].any fun object => endsWith path object) = true ↔
      EndsAsObject path := by simp only [List.any_cons, List.any_nil, Bool.or_eq_true, Bool.or_false, EndsAsObject]
  rw [changesSomething, Bool.and_eq_false_iff, decide_eq_false_iff_not, not_not, Bool.not_eq_false', hany]

/-- A request that changes nothing counts as one that cannot. -/
theorem changesSomething_of_unchanging {q : Request} (h : q.changes = false) :
    changesSomething q.method q.endpoint.path = false := by
  rw [changesSomething_eq_false]
  obtain ⟨m, e, b⟩ := q
  unfold Request.changes at h
  split at h
  · next hm => exact Or.inl hm
  · next repo hm he =>
      right
      left
      obtain rfl : e = .blobs repo := he
      exact endsWith_append ("/repos/" ++ repo) "/git/blobs"
  · next repo hm he =>
      right
      right
      left
      obtain rfl : e = .trees repo := he
      exact endsWith_append ("/repos/" ++ repo) "/git/trees"
  · next repo hm he =>
      right
      right
      right
      obtain rfl : e = .commits repo := he
      exact endsWith_append ("/repos/" ++ repo) "/git/commits"
  · cases h

/-- A text that ends differently from a suffix, within the last `k` characters, does not end with it. -/
theorem not_endsWith_of_tail (k : Nat) {head tail suf : String} (hk : k ≤ tail.toList.length)
    (hlen : k ≤ suf.toList.length) (hne : tail.toList.reverse.take k ≠ suf.toList.reverse.take k) :
    endsWith (head ++ tail) suf = false := by
  simp only [endsWith, decide_eq_false_iff_not]
  intro hsuf
  rw [String.toList_append, ← List.reverse_prefix, List.reverse_append] at hsuf
  obtain ⟨rest, hrest⟩ := hsuf
  have htake := congrArg (List.take k) hrest
  rw [List.take_append_of_le_length (by simpa using hlen), List.take_append_of_le_length (by simpa using hk)] at htake
  exact hne htake.symm

/-- A path that ends in a fixed name of a request other than that for a git object. -/
theorem not_endsAsObject {head tail : String} (hk : 3 ≤ tail.toList.length)
    (hne : ∀ suf ∈ ["/git/blobs", "/git/trees", "/git/commits"],
      tail.toList.reverse.take 3 ≠ suf.toList.reverse.take 3) : ¬ EndsAsObject (head ++ tail) := by
  have hno : ∀ suf ∈ ["/git/blobs", "/git/trees", "/git/commits"], endsWith (head ++ tail) suf = false := by
    intro suf hsuf
    refine not_endsWith_of_tail 3 hk ?_ (hne suf hsuf)
    revert suf
    decide
  simp only [List.forall_mem_cons, List.not_mem_nil, false_imp_iff, implies_true, and_true] at hno
  simp [EndsAsObject, hno]

/-- A path that ends in a number. -/
theorem not_endsAsObject_number {head : String} (n : Nat) : ¬ EndsAsObject (head ++ toString n) := by
  have hno : ∀ suf : String, (∃ init, suf.toList = init ++ ['s']) → endsWith (head ++ toString n) suf = false := by
    rintro suf ⟨init, hsuf⟩
    simp only [endsWith, decide_eq_false_iff_not]
    rintro ⟨w, hw⟩
    have hlast := congrArg List.getLast? hw
    have hdigits : (toString n).toList ≠ [] := by
      rw [show (toString n).toList = Nat.toDigits 10 n from Nat.toList_repr]
      exact Nat.toDigits_ne_nil
    rw [hsuf, String.toList_append, ← List.append_assoc, List.getLast?_concat, List.getLast?_append_of_ne_nil _ hdigits]
      at hlast
    exact Fields.not_mem_toString (by decide) n (List.mem_of_getLast? hlast.symm)
  rw [EndsAsObject, hno "/git/blobs" ⟨"/git/blob".toList, by decide⟩, hno "/git/trees" ⟨"/git/tree".toList, by decide⟩,
    hno "/git/commits" ⟨"/git/commit".toList, by decide⟩]
  decide

theorem slash_not_mem_escapeByte (b : UInt8) : '/' ∉ escapeByte b := by
  have hall : ∀ n < 256, '/' ∉ escapeByte (UInt8.ofNat n) := by decide +kernel
  simpa using hall b.toNat b.toNat_lt

theorem slash_not_mem_segment (name : String) : '/' ∉ (segment name).toList := by
  rw [segment, String.toList_ofList, List.mem_flatMap]
  rintro ⟨b, -, hb⟩
  exact slash_not_mem_escapeByte b hb

/-- A path that ends in an escaped name, after a segment that is not `git`. -/
theorem not_endsAsObject_segment (name : String) : ¬ EndsAsObject ("/gists/" ++ segment name) := by
  have hno : ∀ suf object : String, suf.toList = "/git".toList ++ '/' :: object.toList → '/' ∉ object.toList →
      endsWith ("/gists/" ++ segment name) suf = false := by
    intro suf object hsuf hobject
    simp only [endsWith, decide_eq_false_iff_not]
    rintro ⟨w, hw⟩
    have hcut : (w ++ "/git".toList) ++ '/' :: object.toList = "/gists".toList ++ '/' :: (segment name).toList := by
      rw [List.append_assoc, ← hsuf, hw, String.toList_append]
      rfl
    -- the segment before the last slash is `gists` on one side and ends in `git` on the other
    have hseg := (Fields.cut_last hobject (slash_not_mem_segment name) hcut).1
    have hlast := congrArg List.getLast? hseg
    rw [List.getLast?_append_of_ne_nil _ (by decide)] at hlast
    revert hlast
    decide
  rw [EndsAsObject, hno "/git/blobs" "blobs" (by decide) (by decide), hno "/git/trees" "trees" (by decide) (by decide),
    hno "/git/commits" "commits" (by decide) (by decide)]
  decide

/-- **The hidden writes**: a commit to a branch, a file put to a path, and a star set or taken from a repository, where
    the name the agent gave ends the path as that of a git object. -/
theorem hidden_iff (a : Action) : a.Hidden ↔
    (∃ c, a = .commit c ∧ EndsAsObject (Endpoint.refHead c.repo c.branch).path) ∨
      (∃ f, a = .filePut f ∧ EndsAsObject (Endpoint.contents f.repo (filePath f.path)).path) ∨
      ∃ repo, (a = .repoStar repo ∨ a = .repoUnstar repo) ∧ EndsAsObject (Endpoint.starred repo).path := by
  rw [Action.Hidden, changesSomething_eq_false]
  cases a with
  | branchCreate a =>
      simp only [Action.written, reduceCtorEq, false_or, false_and, exists_false, or_false, iff_false]
      exact not_endsAsObject (by decide) (by decide)
  | filePut a => simp [Action.written]
  | commit a => simp [Action.written]
  | issueCreate a =>
      simp only [Action.written, reduceCtorEq, false_or, false_and, exists_false, or_false, iff_false]
      exact not_endsAsObject (by decide) (by decide)
  | issueComment a =>
      simp only [Action.written, reduceCtorEq, false_or, false_and, exists_false, or_false, iff_false]
      exact not_endsAsObject (by decide) (by decide)
  | issueUpdate a =>
      simp only [Action.written, reduceCtorEq, false_or, false_and, exists_false, or_false, iff_false]
      exact not_endsAsObject_number a.number
  | prCreate a =>
      simp only [Action.written, reduceCtorEq, false_or, false_and, exists_false, or_false, iff_false]
      exact not_endsAsObject (by decide) (by decide)
  | prReview a =>
      simp only [Action.written, reduceCtorEq, false_or, false_and, exists_false, or_false, iff_false]
      exact not_endsAsObject (by decide) (by decide)
  | prMerge a =>
      simp only [Action.written, reduceCtorEq, false_or, false_and, exists_false, or_false, iff_false]
      exact not_endsAsObject (by decide) (by decide)
  | gistCreate a =>
      simp only [Action.written, reduceCtorEq, false_or, false_and, exists_false, or_false, iff_false]
      show ¬ EndsAsObject ("" ++ "/gists")
      exact not_endsAsObject (by decide) (by decide)
  | gistUpdate a =>
      simp only [Action.written, reduceCtorEq, false_or, false_and, exists_false, or_false, iff_false]
      exact not_endsAsObject_segment a.gistId
  | repoStar repo => simp [Action.written]
  | repoUnstar repo => simp [Action.written]

/-! ## What the flag tells -/

section Flag
variable {env : Env} {rules : Policy} {a : Action} {counted : Counted} {t : Trace}

/-- A read changes nothing. -/
theorem not_applied_of_read {e : Exchange.Event Reply} (h : IsRead env e.1) : ¬ Applied e := by
  obtain ⟨q, r⟩ := e
  cases q with
  | github q =>
      obtain ⟨m, e, b⟩ := q
      obtain ⟨-, rfl⟩ : HasToken env ∧ m = .get := h
      rintro ⟨hchanges, -⟩
      cases hchanges
  | _ => exact h.elim

theorem unchanged_of_reads (h : ∀ e ∈ t, IsRead env e.1) : ¬ ChangedGithub t := by
  rintro ⟨e, he, happlied⟩
  exact not_applied_of_read (h e he) happlied

/-- **The flag is down only if nothing was written**, unless the write is hidden. -/
theorem unchanged_of_unmarked (hasked : ∀ e ∈ t, Expected env a e.1)
    (hflag : (t.any fun e => mayHaveWritten e.1 e.2) = false) (hseen : ¬ a.Hidden) : ¬ ChangedGithub t := by
  rintro ⟨⟨q, r⟩, he, happlied⟩
  cases q with
  | github q =>
      obtain ⟨hchanges, hdone⟩ := happlied
      have hwritten : (q.method, q.endpoint) = a.written := by
        rcases (hasked _ he).2 with h | h
        · rw [h] at hchanges
          cases hchanges
        · exact h
      have hcounts : changesSomething q.method q.endpoint.path = true := by
        rw [Action.Hidden, ← hwritten] at hseen
        exact Bool.of_not_eq_false hseen
      have hmark := List.any_eq_false.mp hflag _ he
      simp only [mayHaveWritten, hcounts, Bool.true_and] at hmark
      -- the answer is a refusal, and what is refused is not applied
      cases hresp : r.response with
      | error e => simp [hresp] at hmark
      | ok response =>
          rw [hresp] at hmark
          have hun := r.refused_unapplied response hresp (by simpa using hmark)
          rw [hun] at hdone
          cases hdone
  | _ => exact happlied

/-- A write is refused before it is begun, or with the flag down. -/
theorem act_refused {e : String} (h : Runs (act env rules a counted) t (.error (.refused e))) :
    (∀ e ∈ t, IsRead env e.1) ∨
      ∃ t₁ t₂ e', t = t₁ ++ t₂ ∧ (∀ e ∈ t₁, IsRead env e.1) ∧ Runs (a.execute env rules counted) t₂ (.error e') ∧
        (t₂.any fun e => mayHaveWritten e.1 e.2) = false := by
  rcases runs_bind.mp h with ⟨e', hcheck, -⟩ | ⟨u, t₁, t₂, rfl, hcheck, hmade⟩
  · rcases runs_recover.mp hcheck with ⟨u, -, hres⟩ | ⟨e'', t₁, t₂, rfl, hrun, hfail⟩
    · cases hres
    · obtain ⟨rfl, -⟩ := runs_fail.mp hfail
      rw [List.append_nil]
      exact Or.inl (reads_checkOnGithub.mem hrun)
  · rcases runs_recover.mp hcheck with ⟨u', hrun, -⟩ | ⟨e'', s₁, s₂, rfl, -, hfail⟩
    · have hreads := reads_checkOnGithub.mem hrun
      rcases runs_bind.mp hmade with ⟨e', hwatch, -⟩ | ⟨made, s₁, s₂, rfl, hwatch, hend⟩
      · obtain ⟨r', -, hres⟩ := runs_watch.mp hwatch
        cases hres
      · obtain ⟨r', hexec, hres⟩ := runs_watch.mp hwatch
        obtain rfl := Except.ok.inj hres
        obtain ⟨rfl, hend⟩ := runs_lift.mp hend
        cases r' with
        | ok v => cases hend
        | error e' =>
            refine Or.inr ⟨t₁, s₁, e', by rw [List.append_nil], hreads, hexec, ?_⟩
            simp only [Bool.false_or] at hend
            cases hflag : s₁.any fun e => mayHaveWritten e.1 e.2 with
            | false => rfl
            | true =>
                rw [hflag] at hend
                cases hend
    · obtain ⟨-, hres⟩ := runs_fail.mp hfail
      cases hres

theorem asks_act : (act env rules a counted).Asks (Expected env a) :=
  Asks.bind (Asks.recover (reads_checkOnGithub.mono fun _ => expected_of_read) fun _ => trivial) fun _ =>
    Asks.bind (Asks.watch asks_execute) fun _ => asks_lift

/-- Without a token nothing is sent. -/
theorem unchanged_of_no_token {env : Env} {a : Action} {t : Trace} (hasked : ∀ e ∈ t, Expected env a e.1)
    (htok : ¬ HasToken env) : ¬ ChangedGithub t := by
  rintro ⟨⟨q, r⟩, he, happlied⟩
  cases q with
  | github q => exact htok (hasked _ he).1
  | _ => exact happlied

/-- **A refused write was not made**, unless it is hidden. -/
theorem act_refused_unchanged {e : String} (h : Runs (act env rules a counted) t (.error (.refused e)))
    (hseen : a.Hidden → ¬ HasToken env) : ¬ ChangedGithub t := by
  by_cases hhidden : a.Hidden
  · exact unchanged_of_no_token (asks_act.mem h) (hseen hhidden)
  · rcases act_refused h with hreads | ⟨t₁, t₂, e', rfl, hreads, hexec, hflag⟩
    · exact unchanged_of_reads hreads
    · rintro ⟨e, he, happlied⟩
      rcases List.mem_append.mp he with he | he
      · exact not_applied_of_read (hreads e he) happlied
      · exact unchanged_of_unmarked (asks_execute.mem hexec) hflag hhidden ⟨e, he, happlied⟩

end Flag

/-! ## The run of `confirm` -/

section After
variable {env : Env} {codec : Codec} {rules : Policy} {answer : TaskAnswer} {t : Trace}

/-- Telling the platform asks nothing of GitHub. -/
def IsTold : Ask → Prop
  | .report _ _          => True
  | .reportFailure _ _ _ => True
  | _                    => False

theorem tells_refuse {e : String} : (refuse env answer e).Asks IsTold :=
  Asks.bind (asks_query trivial) fun _ => trivial

theorem unchanged_of_told (h : ∀ e ∈ t, IsTold e.1) : ¬ ChangedGithub t := by
  rintro ⟨⟨q, r⟩, he, happlied⟩
  have htold := h _ he
  cases q with
  | github q => exact htold
  | _ => exact happlied

/-- Leaving a result reports no failure. -/
theorem reports_reportDone {a : Action} {result : Value} :
    (reportDone env answer a result).Asks fun q => ∃ id result, q = .report id result :=
  Asks.bind (asks_query ⟨_, _, rfl⟩) fun _ => Asks.bind asks_lift fun _ => trivial

/-- **A reported failure is the truth**, for every write that is not hidden, or not sent. -/
theorem unchanged_of_reportsFailure {r : Except Refused Value} (h : Runs (afterAnswer env codec rules answer) t r)
    (hseen : ∀ a, judged env codec rules answer = .ok a → a.Hidden → ¬ HasToken env) (hreported : ReportsFailure t) :
    ¬ ChangedGithub t := by
  unfold afterAnswer at h
  split at h
  · exact unchanged_of_told (tells_refuse.mem h)
  · next a hjudged =>
      rcases runs_bind.mp h with ⟨e, hact, -⟩ | ⟨outcome, t₁, t₂, rfl, hact, hfinish⟩
      · obtain ⟨r', -, hres⟩ := runs_attempt.mp hact
        cases hres
      · obtain ⟨r', hact, hres⟩ := runs_attempt.mp hact
        obtain rfl := Except.ok.inj hres
        -- the write itself reports nothing: what was reported, was reported after it
        have hafter : ReportsFailure t₂ := by
          obtain ⟨⟨q, reply⟩, he, id, refusal, policy, hq⟩ := hreported
          obtain rfl : q = .reportFailure id refusal policy := hq
          rcases List.mem_append.mp he with he | he
          · exact (asks_act.mem hact _ he).elim
          · exact ⟨_, he, id, refusal, policy, rfl⟩
        obtain ⟨e, he, id, refusal, policy, hq⟩ := hafter
        cases outcome with
        | ok result =>
            obtain ⟨id', result', hq'⟩ := reports_reportDone.mem hfinish e he
            rw [hq] at hq'
            cases hq'
        | error unmade =>
            cases unmade with
            | refused e' =>
                have hwrite := act_refused_unchanged hact (hseen a hjudged)
                have htold := unchanged_of_told (tells_refuse.mem hfinish)
                rintro ⟨e, he, happlied⟩
                rcases List.mem_append.mp he with he | he
                · exact hwrite ⟨e, he, happlied⟩
                · exact htold ⟨e, he, happlied⟩
            | unknown e' =>
                obtain ⟨rfl, -⟩ := runs_fail.mp hfinish
                exact absurd he List.not_mem_nil

end After

/-! ## A hidden write is made and denied -/

/-- What an obliging GitHub answers to every question: a default branch no branch is called, and a commit. -/
def obligingBody : Value :=
  .obj [("default_branch", .str ""), ("object", .obj [("sha", .str "0")]), ("tree", .obj [("sha", .str "0")])]

/-- An answer that refuses nothing and applies nothing. -/
def obliging : Outcome where
  response := .ok ⟨200, [], .ok (utf8 obligingBody.compact)⟩
  applied := false
  refused_unapplied _ _ _ := rfl

/-- GitHub applied the request, and its answer was lost. -/
def lostAnswer : Outcome where
  response := .error "connection reset"
  applied := true
  refused_unapplied _ h := by cases h

section Lost
variable {α β : Type} {env : Env} {rules : Policy} {counted : Counted}

theorem answered_obliging (path : String) : answered env path obliging = .ok ⟨200, obligingBody⟩ := by
  have hgood : obligingBody.Good env.jsonNumber recursionLimit := by
    simp [obligingBody, Value.Good, GoodMembers, recursionLimit]
  have hread : env.readJson (utf8 obligingBody.compact) = obligingBody := by
    rw [Env.readJson, fromUtf8_utf8, Option.bind_some, parse_compact hgood]
    have horder : ¬ "object" < "default_branch" ∧ ¬ "tree" < "default_branch" ∧ ¬ "tree" < "object" := by decide
    simp [obligingBody, Value.reread, rereadMembers, collect, insertMember, horder]
  have hbytes : utf8 obligingBody.compact ≠ [] := by decide +kernel
  simp [answered, obliging, hread, hbytes]

/-- A run that returns. -/
def Returns (x : Connector α) (a : α) : Prop := ∃ t, Runs x t (.ok a)

/-- A run that changes GitHub, and fails. -/
def Loses (x : Connector α) : Prop := ∃ t e, Runs x t (.error e) ∧ ChangedGithub t

theorem Returns.bind {x : Connector α} {f : α → Connector β} {a : α} {b : β} (hx : Returns x a) (hf : Returns (f a) b) :
    Returns (x >>= f) b := by
  obtain ⟨t, hx⟩ := hx
  obtain ⟨t', hf⟩ := hf
  exact ⟨t ++ t', hx.bind hf⟩

theorem returns_lift {y : Except String α} {a : α} (h : y = .ok a) : Returns (lift y) a :=
  ⟨[], runs_lift.mpr ⟨rfl, h.symm⟩⟩

theorem returns_asking (q : Ask) (a : Reply q) : Returns (asking q) a := ⟨[⟨q, a⟩], runs_query.mpr ⟨a, rfl, rfl⟩⟩

theorem Loses.bind {x : Connector α} {f : α → Connector β} (hx : Loses x) : Loses (x >>= f) := by
  obtain ⟨t, e, hx, hchanged⟩ := hx
  exact ⟨t, e, hx.bind_fail, hchanged⟩

theorem Returns.loses {x : Connector α} {f : α → Connector β} {a : α} (hx : Returns x a) (hf : Loses (f a)) :
    Loses (x >>= f) := by
  obtain ⟨t, hx⟩ := hx
  obtain ⟨t', e, hf, e', he', happlied⟩ := hf
  exact ⟨t ++ t', e, hx.bind hf, e', List.mem_append_right t he', happlied⟩

theorem Loses.recover {x : Connector α} {f : String → Connector α} (hx : Loses x)
    (hf : ∀ e, ∃ t e', Runs (f e) t (.error e')) : Loses (x.recover f) := by
  obtain ⟨t, e, hx, e', he', happlied⟩ := hx
  obtain ⟨t', e'', hf⟩ := hf e
  exact ⟨t ++ t', e'', runs_recover.mpr (Or.inr ⟨e, t, t', rfl, hx, hf⟩), e', List.mem_append_left t' he', happlied⟩

section Token
variable {tok : String} (htok : token env = .ok tok)
include htok

theorem returns_call {m : Method} {e : Endpoint} {b : Option Value} :
    Returns (call env m e b) ⟨200, obligingBody⟩ :=
  (returns_lift htok).bind ((returns_asking (.github ⟨m, e, b⟩) obliging).bind (returns_lift (answered_obliging _)))

theorem returns_get {e : Endpoint} : Returns (get env e) obligingBody := (returns_call htok).bind ⟨[], .done _⟩

theorem returns_post {e : Endpoint} {b : Value} : Returns (post env e b) obligingBody :=
  (returns_call htok).bind ⟨[], .done _⟩

/-- The answer to a write is lost after GitHub applied it. -/
theorem loses_call {m : Method} {e : Endpoint} {b : Option Value} (hchanges : (⟨m, e, b⟩ : Request).changes = true) :
    Loses (call env m e b) := by
  have hrun : Runs (asking (.github ⟨m, e, b⟩) : Connector Outcome) [⟨.github ⟨m, e, b⟩, lostAnswer⟩]
      (.ok lostAnswer) :=
    runs_query.mpr ⟨_, rfl, rfl⟩
  have happlied : Applied ⟨.github ⟨m, e, b⟩, lostAnswer⟩ := ⟨hchanges, rfl⟩
  refine (returns_lift htok).loses ⟨_, _, hrun.bind (runs_lift.mpr ⟨rfl, rfl⟩), _, ?_, happlied⟩
  exact List.mem_append_left _ (List.mem_singleton_self _)

theorem returns_checkOnGithub {a : Action}
    (hbranch : ∀ b, a.writtenBranch = some b → b ≠ "" ∧ ∃ m, rules.checkBranch b = .ok m) :
    Returns (a.checkOnGithub env rules) () := by
  unfold Action.checkOnGithub
  split
  · next repo branch hrepo hwritten =>
      obtain ⟨hne, m, hm⟩ := hbranch branch hwritten
      refine (returns_lift hm).bind ?_
      split
      · refine Returns.bind ((returns_get htok).bind (returns_lift (a := "") rfl)) (returns_lift ?_)
        rw [Policy.checkNotDefault, if_neg (fun h => hne h.2)]
        rfl
      · exact ⟨[], .done ()⟩
  · exact ⟨[], .done ()⟩

theorem returns_treeOf {repo : String} {changes : List Change}
    (hbytes : ∀ path content, .write path content ∈ changes → ∃ bs, content.toBytes = .ok bs) :
    ∃ tree, Returns (treeOf env repo changes) tree := by
  induction changes with
  | nil => exact ⟨[], [], .done []⟩
  | cons c changes ih =>
      obtain ⟨tree, htree⟩ := ih fun path content h => hbytes path content (List.mem_cons_of_mem c h)
      cases c with
      | delete path => exact ⟨_, htree.bind ⟨[], .done _⟩⟩
      | write path content =>
          obtain ⟨bs, hbs⟩ := hbytes path content List.mem_cons_self
          obtain ⟨entry, hentry⟩ : ∃ entry, Returns (writtenEntry env repo path bs) entry := by
            unfold writtenEntry
            split
            · exact ⟨_, [], .done _⟩
            · exact ⟨_, (returns_post htok).bind ⟨[], .done _⟩⟩
          exact ⟨_, (returns_lift hbs).bind (hentry.bind (htree.bind ⟨[], .done _⟩))⟩

end Token

theorem loses_reserveWrite {cap : Nat} {act : Nat → Connector α} (hcap : rules.writeCap = .ok cap)
    (hact : Loses (act 0)) :
    Loses (reserveWrite env rules counted act) := by
  refine (returns_lift hcap).loses ?_
  refine (returns_asking (.increment _ 1) (.ok 0)).loses ?_
  refine (returns_lift (a := (0 : Int)) rfl).loses ?_
  rw [if_neg (by omega)]
  refine hact.recover fun e => ?_
  obtain ⟨t, hback⟩ := returns_asking (.increment (countKey (dayKey env.nowMs) counted) (-1)) (.ok 0)
  exact ⟨t ++ [], e, hback.bind (.fail e)⟩

/-- A write whose contents are there can be lost on its own request. -/
theorem loses_execute {a : Action} {tok : String} (htok : token env = .ok tok) (hhidden : a.Hidden)
    (hcap : ∃ cap, rules.writeCap = .ok cap)
    (hbytes : ∀ c, a.Holds c → ∃ bs, c.toBytes = .ok bs) : Loses (a.execute env rules counted) := by
  obtain ⟨cap, hcap⟩ := hcap
  rcases (hidden_iff a).mp hhidden with ⟨c, rfl, -⟩ | ⟨f, rfl, -⟩ | ⟨repo, rfl | rfl, -⟩
  · obtain ⟨tree, htree⟩ := returns_treeOf htok fun path content h => hbytes content ⟨path, h⟩
    simp only [Action.execute, commitFiles]
    refine loses_reserveWrite hcap ?_
    refine (returns_get htok).loses ((returns_lift rfl).loses ?_)
    refine (returns_get htok).loses ((returns_lift rfl).loses ?_)
    refine htree.loses ((returns_post htok).loses ((returns_post htok).loses ?_))
    exact Loses.bind (Loses.bind (loses_call htok rfl))
  · obtain ⟨bs, hbs⟩ := hbytes f.content rfl
    simp only [Action.execute]
    refine (returns_lift hbs).loses (loses_reserveWrite hcap ?_)
    exact Loses.bind (Loses.recover (loses_call htok rfl) fun e => ⟨[], _, .fail _⟩)
  · simp only [Action.execute, star]
    refine loses_reserveWrite hcap ?_
    exact Loses.bind (loses_call htok rfl)
  · simp only [Action.execute, star]
    refine loses_reserveWrite hcap ?_
    exact Loses.bind (loses_call htok rfl)

/-- The flag never sees a hidden write. -/
theorem unmarked_of_hidden {a : Action} {t : Trace} (hhidden : a.Hidden) (hasked : ∀ e ∈ t, Expected env a e.1) :
    (t.any fun e => mayHaveWritten e.1 e.2) = false := by
  rw [List.any_eq_false]
  rintro ⟨q, r⟩ he
  cases q with
  | github q =>
      have hsilent : changesSomething q.method q.endpoint.path = false := by
        rcases (hasked _ he).2 with h | h
        · exact changesSomething_of_unchanging h
        · rw [Action.Hidden, ← h] at hhidden
          exact hhidden
      simp [mayHaveWritten, hsilent]
  | _ => simp [mayHaveWritten]

/-- A hidden write that GitHub applied is refused when its answer is lost. -/
theorem exists_act_refused {a : Action} {tok : String} (htok : token env = .ok tok) (hhidden : a.Hidden)
    (hcheck : a.check rules = .ok ()) (hbytes : ∀ c, a.Holds c → ∃ bs, c.toBytes = .ok bs) :
    ∃ t e, Runs (act env rules a counted) t (.error (.refused e)) ∧ ChangedGithub t := by
  obtain ⟨-, -, hown, hcap⟩ := check_eq_ok_iff.mp hcheck
  obtain ⟨t₁, hgithub⟩ : Returns (a.checkOnGithub env rules) () := returns_checkOnGithub htok fun b hb => by
    obtain ⟨m, hm⟩ := writable_of_checkOwn hown hb
    obtain ⟨hclean, hbranch⟩ := writable_eq_ok_iff.mp hm
    exact ⟨ne_empty_of_cleanBranch hclean, m, hbranch⟩
  obtain ⟨t₂, e, hexec, e', he', happlied⟩ : Loses (a.execute env rules counted) :=
    loses_execute htok hhidden hcap hbytes
  have hflag := unmarked_of_hidden hhidden (asks_execute.mem hexec)
  refine ⟨t₁ ++ (t₂ ++ []), e, ?_, e', by simp [he'], happlied⟩
  refine Runs.bind (runs_recover.mpr (Or.inl ⟨(), hgithub, rfl⟩)) ?_
  refine Runs.bind (runs_watch.mpr ⟨_, hexec, rfl⟩) (runs_lift.mpr ⟨rfl, ?_⟩)
  rw [hflag]
  rfl

/-- **A hidden write is made and denied**: GitHub applies it, its answer is lost, and the task is reported as not
    carried out. -/
theorem exists_denied_write {codec : Codec} {answer : TaskAnswer} {a : Action} {tok : String}
    (htok : token env = .ok tok) (hjudged : judged env codec rules answer = .ok a) (hhidden : a.Hidden) :
    ∃ t r, Runs (afterAnswer env codec rules answer) t r ∧ ReportsFailure t ∧ ChangedGithub t := by
  obtain ⟨hheld, hcheck⟩ := judged_eq_ok_iff.mp hjudged
  obtain ⟨t, e, hact, e', he', happlied⟩ :
      ∃ t e, Runs (act env rules a .confirmed) t (.error (.refused e)) ∧ ChangedGithub t :=
    exists_act_refused htok hhidden hcheck fun c hc => toBytes_of_held hheld hc
  let refusal := closed (asAnswered e env.onChain)
  let told : Exchange.Event Reply := ⟨.reportFailure answer.id refusal env.storedPolicy, (none, .ok ())⟩
  have hrefuse : Runs (refuse env answer e) ([told] ++ []) (.error ⟨refusal, none⟩) :=
    Runs.bind (runs_query.mpr ⟨_, rfl, rfl⟩) (.fail _)
  refine ⟨t ++ ([told] ++ []), .error ⟨refusal, none⟩, ?_, ⟨told, by simp, answer.id, refusal, env.storedPolicy, rfl⟩,
    e', by simp [he'], happlied⟩
  unfold afterAnswer
  rw [hjudged]
  exact Runs.bind (runs_attempt.mpr ⟨_, hact, rfl⟩) hrefuse

end Lost

/-- **When a reported failure is the truth.** Whatever GitHub makes of the requests, and whatever it says of them, a run
    that reports its task as not carried out has changed nothing on GitHub: exactly when the write the task holds is
    not one whose own request counts as none, or no token reached the run. -/
theorem reported_failure_true_iff (env : Env) (codec : Codec) (rules : Policy) (answer : TaskAnswer) :
    (∀ t r, Runs (afterAnswer env codec rules answer) t r → ReportsFailure t → ¬ ChangedGithub t) ↔
      ¬ ∃ a, judged env codec rules answer = .ok a ∧ a.Hidden ∧ HasToken env := by
  constructor
  · rintro hall ⟨a, hjudged, hhidden, tok, htok⟩
    obtain ⟨t, r, hrun, hreported, hchanged⟩ := exists_denied_write htok hjudged hhidden
    exact hall t r hrun hreported hchanged
  · intro hnone t r hrun hreported
    exact unchanged_of_reportsFailure hrun (fun a hjudged hhidden htok => hnone ⟨a, hjudged, hhidden, htok⟩) hreported

/-! ## A commit to a branch named like a git object -/

/-- A run with a token. -/
def agentRun : Env where
  token := some "ghu_agent"
  storedPolicy := []
  nowMs := 1790000000000
  onChain := false
  jsonNumber := some
  decode64 _ := .error "Invalid symbol"
  sha256 _ := []

/-- The owner lets the agent commit to branches of its own, and is asked each time. -/
def commitPolicy : Policy where
  actions := some ["commit"]
  repos := some ["alice/*"]
  branches := some ["agent/*"]
  maxWritesPerDay := some 5
  confirm := some [.commit]

/-- A commit of one text to `agent/git/trees`. -/
def treesCommit : Commit where
  repo := "alice/site"
  branch := "agent/git/trees"
  message := "Grow"
  changes := [.write "notes.md" (.text "oak")]

/-- The state of a task whose commit goes to a branch that ends in `git/trees`. -/
def treesState : List UInt8 := utf8
  ("\x7b\"commit\":\x7b\"repo\":\"alice/site\",\"branch\":\"agent/git/trees\",\"message\":\"Grow\"," ++
    "\"changes\":[\x7b\"write\":\x7b\"path\":\"notes.md\",\"content\":\x7b\"text\":\"oak\"\x7d\x7d\x7d]\x7d\x7d")

/-- The JSON of that commit, and no other. -/
def treesCodec : Codec where
  write a := if a = .commit treesCommit then treesState else []
  read state := if state = treesState then some (.commit treesCommit) else none
  pretty _ := []

/-- The owner's answer to that task. -/
def treesAnswer : TaskAnswer := ⟨"run-0", treesState, [], none⟩

/-- The commit is made, GitHub's answer is lost, and the task is reported as not carried out. -/
theorem denied_commit : ¬ ∀ (env : Env) (codec : Codec) (rules : Policy) (answer : TaskAnswer) (t : Trace)
    (r : Except Refused Value),
    Runs (afterAnswer env codec rules answer) t r → ReportsFailure t → ¬ ChangedGithub t := by
  intro hall
  have hjudged : judged agentRun treesCodec commitPolicy treesAnswer = .ok (.commit treesCommit) := by
    rw [judged_eq_ok_iff]
    exact ⟨by decide +kernel, by decide +kernel⟩
  have hhidden : (Action.commit treesCommit).Hidden := by
    show _ = false
    decide +kernel
  have htok : token agentRun = .ok "ghu_agent" := by decide +kernel
  obtain ⟨t, r, hrun, hreported, hchanged⟩ := exists_denied_write htok hjudged hhidden
  exact hall _ _ _ _ t r hrun hreported hchanged

end Outlayer.Github
