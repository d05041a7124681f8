import Outlayer.Worker.Environment

/-!
# `Worker.Correctness.Environment` — secrets say nothing of the run, and do not shadow one another

Every name that is written is one that was taken away before (`systemVars_names`), so what the guest reads under a
system name is the worker's, and what it reads under any other is the secret's. The rows are one join of all their
entries, which knows no order; the author's secrets come in only where they share no name with it.
-/

namespace Outlayer
open Text Collections
open Collections.LookupMap (insertAll joinEntries Told Consistent)

namespace Worker

/-! ## The environment -/

theorem mem_whenSome {name : String} {value : Option String} {p : String × String} (h : p ∈ whenSome name value) :
    p.1 = name := by
  cases value with
  | none => cases h
  | some v =>
      rw [List.mem_singleton.mp h]

/-- A variable of the worker's, written when its value is there. -/
theorem whenSome_names {name : String} {value : Option String} (hname : name ∈ systemEnvVars) :
    ∀ p ∈ whenSome name value, p.1 ∈ systemEnvVars := by
  intro p hp
  rw [mem_whenSome hp]
  exact hname

section Vars
variable (f : RunFacts)

theorem httpsVars_names : ∀ p ∈ f.httpsVars, p.1 ∈ systemEnvVars := by
  unfold RunFacts.httpsVars
  simp only [List.forall_mem_append]
  refine ⟨⟨whenSome_names (by decide), whenSome_names (by decide)⟩, ?_⟩
  simp only [List.forall_mem_cons, List.not_mem_nil, false_imp_iff, implies_true, and_true]
  decide

theorem nearVars_names : ∀ p ∈ f.nearVars, p.1 ∈ systemEnvVars := by
  unfold RunFacts.nearVars
  simp only [List.forall_mem_append, List.forall_mem_cons, List.not_mem_nil, false_imp_iff, implies_true, and_true]
  and_intros
  all_goals first | exact whenSome_names (by decide) | decide

theorem limitVars_names : ∀ p ∈ f.limitVars, p.1 ∈ systemEnvVars := by
  unfold RunFacts.limitVars
  simp only [List.forall_mem_cons, List.not_mem_nil, false_imp_iff, implies_true, and_true]
  decide

theorem projectVars_names : ∀ p ∈ f.projectVars, p.1 ∈ systemEnvVars := by
  unfold RunFacts.projectVars
  simp only [List.forall_mem_append]
  exact ⟨⟨⟨whenSome_names (by decide), whenSome_names (by decide)⟩, whenSome_names (by decide)⟩,
    whenSome_names (by decide)⟩

theorem rowVars_names : ∀ p ∈ f.rowVars, p.1 ∈ systemEnvVars := by
  unfold RunFacts.rowVars
  simp only [List.forall_mem_append]
  exact ⟨⟨whenSome_names (by decide), whenSome_names (by decide)⟩, whenSome_names (by decide)⟩

/-- **Every name that is written is a system name**, in either mode and whatever is there to write. -/
theorem systemVars_names : ∀ p ∈ f.systemVars, p.1 ∈ systemEnvVars := by
  unfold RunFacts.systemVars
  simp only [List.forall_mem_append]
  refine ⟨⟨⟨⟨?_, ?_⟩, limitVars_names f⟩, projectVars_names f⟩, rowVars_names f⟩
  · simp only [List.forall_mem_cons, List.not_mem_nil, false_imp_iff, implies_true, and_true]
    decide
  · split
    · exact httpsVars_names f
    · exact nearVars_names f

end Vars

/-- What is left when names are taken away. -/
theorem lookup_eraseAll (names : List String) (env : EnvVars) (name : String) :
    (names.foldl (fun env key => env.erase key) env).lookup name = if name ∈ names then none else env.lookup name := by
  induction names generalizing env with
  | nil => rfl
  | cons key names ih =>
      rw [List.foldl_cons, ih, LookupMap.lookup_erase_iff]
      by_cases hkey : name = key
      · simp [hkey]
      · simp [hkey]

/-- **Secrets cannot forge system facts.** What a run reads under a system name does not depend on the secrets; under
    any other name it reads the secret of that name, or nothing. -/
theorem secrets_cannot_forge (secrets secrets' : Option EnvVars) (f : RunFacts) :
    (∀ name ∈ systemEnvVars, (mergeEnvVars secrets f).lookup name = (mergeEnvVars secrets' f).lookup name) ∧
    (∀ name, name ∉ systemEnvVars → (mergeEnvVars secrets f).lookup name = (secrets.getD ∅).lookup name) := by
  constructor
  · intro name hname
    refine LookupMap.lookup_insertAll_congr (.inr ?_)
    rw [stripSystem, stripSystem, lookup_eraseAll, lookup_eraseAll, if_pos hname, if_pos hname]
  · intro name hname
    have hunwritten : name ∉ f.systemVars.map Prod.fst := by
      intro hmem
      obtain ⟨p, hp, rfl⟩ := List.mem_map.mp hmem
      exact hname (systemVars_names f p hp)
    rw [mergeEnvVars, LookupMap.lookup_insertAll_of_notMem hunwritten, stripSystem, lookup_eraseAll, if_neg hname]

/-! ## The rows -/

section Rows
variable {first merged : EnvVars} {rows rows' : List (Monitor.SecretsReference × EnvVars)} {name value : String}

/-- The keystore's answers, when every row opened. -/
def answered (rows : List (Monitor.SecretsReference × EnvVars)) : List RowAnswer := rows.map fun r => .opened (some r.2)

/-- A call whose rows all opened. -/
def allOpened (row : Monitor.SecretsReference) (first : EnvVars) (rows : List (Monitor.SecretsReference × EnvVars)) :
    OpenedRows where
  secretsRef := some row
  userSecrets := some first
  firstRowOpened := true
  extraRows := rows.map Prod.fst
  extrasOpened := answered rows

/-- The entries of the rows beyond the first, one row after another. -/
def entriesOf (rows : List (Monitor.SecretsReference × EnvVars)) : List (String × String) :=
  rows.flatMap fun r => r.2.pairs

/-- The rows give `name` the value: the first row any name, the others those that are not the worker's. -/
def RowsSay (first : EnvVars) (rows : List (Monitor.SecretsReference × EnvVars)) (name value : String) : Prop :=
  first.lookup name = some value ∨ name ∉ systemEnvVars ∧ ∃ r ∈ rows, r.2.lookup name = some value

theorem told_iff_rowsSay :
    Told (fun name => decide (name ∈ systemEnvVars)) first (entriesOf rows) name value
      ↔ RowsSay first rows name value := by
  unfold Told RowsSay entriesOf
  simp only [decide_eq_false_iff_not, List.mem_flatMap, LookupMap.mem_pairs]

/-- The join of all the rows at once. -/
def joinedRows (first : EnvVars) (rows : List (Monitor.SecretsReference × EnvVars)) : Except Refusal EnvVars :=
  joinEntries (fun name => decide (name ∈ systemEnvVars)) rowsClash first (entriesOf rows)

/-- The loop over the rows is one join of their entries. -/
theorem joinExtraRows_eq (secretsRows : List SecretsRow) :
    (joinExtraRows first secretsRows ((rows.map Prod.fst).zip (answered rows))).map Prod.fst
      = joinedRows first rows := by
  induction rows generalizing first secretsRows with
  | nil => rfl
  | cons r rows ih =>
      have hsplit : joinedRows first (r :: rows) = joinRow first r.2 >>= fun merged => joinedRows merged rows :=
        LookupMap.joinEntries_append
      rw [hsplit]
      show (joinRow first r.2 >>= fun merged => joinExtraRows merged _ _).map Prod.fst = _
      cases joinRow first r.2 with
      | error why => rfl
      | ok merged => exact ih _

theorem joinRows_eq (row : Monitor.SecretsReference) :
    (joinRows (allOpened row first rows)).map Prod.fst = (joinedRows first rows).map some := by
  have hlength : (answered rows).length = rows.length := by simp [answered]
  rw [← joinExtraRows_eq [SecretsRow.new row.accountId row.profile (first.pairs.map Prod.fst)]]
  cases rows with
  | nil => rfl
  | cons r rows =>
      simp only [joinRows, allOpened, List.map_cons, reduceCtorEq, if_false, Option.filter_some, if_true,
        List.length_cons, List.length_map, hlength, ne_eq, not_true_eq_false]
      cases joinExtraRows first [SecretsRow.new row.accountId row.profile (first.pairs.map Prod.fst)]
          ((r.1 :: rows.map Prod.fst).zip (answered (r :: rows))) with
      | error why => rfl
      | ok joined => rfl

/-- **The rows join** exactly when they give no name two values. -/
theorem exists_joinedRows_iff :
    (∃ merged, joinedRows first rows = .ok merged) ↔
      ∀ name v v', RowsSay first rows name v → RowsSay first rows name v' → v = v' := by
  refine LookupMap.exists_joinEntries_iff.trans ?_
  unfold Consistent
  simp only [told_iff_rowsSay]

theorem lookup_joinedRows (h : joinedRows first rows = .ok merged) :
    merged.lookup name = some value ↔ RowsSay first rows name value :=
  (LookupMap.lookup_joinEntries h name value).trans told_iff_rowsSay

theorem RowsSay.perm (hperm : rows.Perm rows') : RowsSay first rows name value ↔ RowsSay first rows' name value := by
  unfold RowsSay
  simp only [hperm.mem_iff]

/-- What the rows are refused for is a name of theirs, and not the worker's. -/
theorem not_consistent_iff :
    (¬ ∀ name v v', RowsSay first rows name v → RowsSay first rows name v' → v = v') ↔
      ∃ name, name ∉ systemEnvVars ∧ ∃ s ∈ first :: rows.map Prod.snd, ∃ s' ∈ first :: rows.map Prod.snd,
        ∃ v v', s.lookup name = some v ∧ s'.lookup name = some v' ∧ v ≠ v' := by
  have hrow : ∀ {name v}, name ∉ systemEnvVars →
      (RowsSay first rows name v ↔ ∃ s ∈ first :: rows.map Prod.snd, s.lookup name = some v) := by
    intro name v hname
    unfold RowsSay
    simp only [hname, not_false_eq_true, true_and, List.mem_cons, List.mem_map]
    constructor
    · rintro (hfirst | ⟨r, hr, hv⟩)
      · exact ⟨first, .inl rfl, hfirst⟩
      · exact ⟨r.2, .inr ⟨r, hr, rfl⟩, hv⟩
    · rintro ⟨s, rfl | ⟨r, hr, rfl⟩, hv⟩
      · exact .inl hv
      · exact .inr ⟨r, hr, hv⟩
  constructor
  · intro h
    push Not at h
    obtain ⟨name, v, v', hv, hv', hne⟩ := h
    have hname : name ∉ systemEnvVars := by
      intro hsystem
      -- under a name of the worker's only the first row is heard
      have hfirst := hv.resolve_right fun h => h.1 hsystem
      have hfirst' := hv'.resolve_right fun h => h.1 hsystem
      exact hne (Option.some.inj (hfirst.symm.trans hfirst'))
    obtain ⟨s, hs, hlookup⟩ := (hrow hname).mp hv
    obtain ⟨s', hs', hlookup'⟩ := (hrow hname).mp hv'
    exact ⟨name, hname, s, hs, s', hs', v, v', hlookup, hlookup', hne⟩
  · rintro ⟨name, hname, s, hs, s', hs', v, v', hlookup, hlookup', hne⟩ hall
    exact hne (hall name v v' ((hrow hname).mpr ⟨s, hs, hlookup⟩) ((hrow hname).mpr ⟨s', hs', hlookup'⟩))

end Rows

/-! ## The author's secrets -/

section Author
variable {author agent merged : EnvVars}

/-- The author's secrets come in exactly when no name is in both. -/
theorem exists_mergeSecretMaps_iff :
    (∃ merged, mergeSecretMaps author agent = .ok merged) ↔ ∀ name, name ∈ agent → name ∉ author := by
  have hclash : (agent.pairs.map Prod.fst).filter (fun k => k ∈ author) = [] ↔
      ∀ name, name ∈ agent → name ∉ author := by
    rw [List.filter_eq_nil_iff]
    constructor
    · intro h name hagent hauthor
      obtain ⟨v, hv⟩ := LookupMap.mem_iff_lookup.mp hagent
      exact h name (List.mem_map.mpr ⟨(name, v), LookupMap.mem_pairs.mpr hv, rfl⟩) (by simpa using hauthor)
    · intro h name hname
      obtain ⟨⟨k, v⟩, hkv, rfl⟩ := List.mem_map.mp hname
      have hagent : k ∈ agent := LookupMap.mem_iff_lookup.mpr ⟨v, LookupMap.mem_pairs.mp hkv⟩
      simpa using h k hagent
  rw [← hclash]
  unfold mergeSecretMaps
  constructor
  · rintro ⟨merged, h⟩
    by_contra hne
    rw [if_pos hne] at h
    cases h
  · intro h
    rw [if_neg (not_not_intro h)]
    exact ⟨_, rfl⟩

theorem lookup_mergeSecretMaps (h : mergeSecretMaps author agent = .ok merged) (name : String) :
    merged.lookup name = (agent.lookup name).or (author.lookup name) := by
  unfold mergeSecretMaps at h
  dsimp only at h
  split at h
  · cases h
  · cases h
    exact LookupMap.lookup_insertAll_pairs author agent name

end Author

/-- The manifest asks for secrets of an author, and the keystore opens them for the caller. -/
structure AuthorOpens (sources : AuthorSources) (manifest : Option ProjectManifest) (projectId caller : Option String)
    (author : EnvVars) : Prop where
  declared : (manifest.bind ProjectManifest.authorSecrets).isSome = true
  opens : ∃ id ref sender, projectId = some id ∧ authorSecretsRef id manifest = .ok (some ref) ∧
    sources.wellFormedSecretsRef ref.profile ref.owner = .ok () ∧ caller = some sender ∧
    sources.decryptSecretsByProject id ref.profile ref.owner sender = .ok author

/-- The author's secrets of a run: what the keystore opens, or nothing where the manifest asks for none. -/
def AuthorSays (sources : AuthorSources) (manifest : Option ProjectManifest) (projectId caller : Option String)
    (author : EnvVars) : Prop :=
  AuthorOpens sources manifest projectId caller author ∨
    manifest.bind ProjectManifest.authorSecrets = none ∧ author = ∅

section Run
variable {sources : AuthorSources} {manifest : Option ProjectManifest} {projectId caller : Option String}
  {author : EnvVars}

/-- An author's map that shares a name is a matter for the author or the caller. -/
def authorsClash (message : String) : Refusal := ⟨message, .custom⟩

/-- Without author's secrets the caller's stay what they are. -/
theorem authorSecretsForRun_none (h : manifest.bind ProjectManifest.authorSecrets = none) (agent : EnvVars) :
    authorSecretsForRun sources manifest projectId true caller (some agent) = .ok (some agent) := by
  unfold authorSecretsForRun
  rw [h]
  rfl

theorem authorSecretsForRun_eq (h : AuthorOpens sources manifest projectId caller author) (agent : EnvVars) :
    authorSecretsForRun sources manifest projectId true caller (some agent)
      = ((mergeSecretMaps author agent).mapError authorsClash).map some := by
  obtain ⟨id, ref, sender, rfl, href, hshape, rfl, hopened⟩ := h.opens
  have hdeclared : (manifest.bind ProjectManifest.authorSecrets).isNone = false := by
    cases hm : manifest.bind ProjectManifest.authorSecrets with
    | none =>
        have := h.declared
        rw [hm] at this
        cases this
    | some declared => rfl
  simp only [authorSecretsForRun, hdeclared, href, hshape, provenSender, hopened, Option.getD_some]
  cases mergeSecretMaps author agent with
  | ok merged => rfl
  | error m => rfl

/-- The author's secrets join the caller's exactly when no name is in both. -/
theorem exists_authorSecretsForRun_iff (h : AuthorSays sources manifest projectId caller author) (agent : EnvVars) :
    (∃ env, authorSecretsForRun sources manifest projectId true caller (some agent) = .ok env) ↔
      ∀ name, name ∈ agent → name ∉ author := by
  rcases h with hopens | ⟨hnone, rfl⟩
  · rw [authorSecretsForRun_eq hopens, ← exists_mergeSecretMaps_iff]
    cases mergeSecretMaps author agent with
    | error m =>
        refine iff_of_false ?_ ?_
        · rintro ⟨env, henv⟩
          cases henv
        · rintro ⟨merged, hm⟩
          cases hm
    | ok merged => exact iff_of_true ⟨some merged, rfl⟩ ⟨merged, rfl⟩
  · rw [authorSecretsForRun_none hnone]
    exact iff_of_true ⟨some agent, rfl⟩ fun name _ => AList.notMem_empty name

theorem lookup_authorSecretsForRun (h : AuthorSays sources manifest projectId caller author) {agent : EnvVars}
    {env : Option EnvVars}
    (hrun : authorSecretsForRun sources manifest projectId true caller (some agent) = .ok env) :
    ∃ m, env = some m ∧ ∀ name, m.lookup name = (agent.lookup name).or (author.lookup name) := by
  rcases h with hopens | ⟨hnone, rfl⟩
  · rw [authorSecretsForRun_eq hopens] at hrun
    cases hmerged : mergeSecretMaps author agent with
    | error m =>
        rw [hmerged] at hrun
        cases hrun
    | ok merged =>
        rw [hmerged] at hrun
        cases hrun
        exact ⟨merged, rfl, lookup_mergeSecretMaps hmerged⟩
  · rw [authorSecretsForRun_none hnone] at hrun
    cases hrun
    exact ⟨agent, rfl, fun name => by rw [AList.lookup_empty, Option.or_none]⟩

/-- The secrets of a run whose rows all opened. -/
theorem secretsForRun_eq (row : Monitor.SecretsReference) (first : EnvVars)
    (rows : List (Monitor.SecretsReference × EnvVars)) :
    secretsForRun sources manifest projectId true caller (allOpened row first rows)
      = (joinedRows first rows >>= fun joined =>
          authorSecretsForRun sources manifest projectId true caller (some joined)) := by
  have hrows := @joinRows_eq first rows row
  unfold secretsForRun
  cases hjoin : joinRows (allOpened row first rows) with
  | error why =>
      rw [hjoin] at hrows
      cases hjoined : joinedRows first rows with
      | error why' =>
          rw [hjoined] at hrows
          cases hrows
          rfl
      | ok joined =>
          rw [hjoined] at hrows
          cases hrows
  | ok result =>
      obtain ⟨secrets, told⟩ := result
      rw [hjoin] at hrows
      cases hjoined : joinedRows first rows with
      | error why' =>
          rw [hjoined] at hrows
          cases hrows
      | ok joined =>
          rw [hjoined] at hrows
          obtain rfl : secrets = some joined := Except.ok.inj hrows
          rfl

/-- Two runs are refused alike, or read alike under every name. -/
def SameOutcome (x y : Except Refusal (Option EnvVars)) : Prop :=
  (∃ why why', x = .error why ∧ y = .error why') ∨
    ∃ m m', x = .ok (some m) ∧ y = .ok (some m') ∧ ∀ name, m.lookup name = m'.lookup name

/-- What a run that is not refused reads: the rows' values, and the author's. -/
theorem exists_secretsForRun_iff (h : AuthorSays sources manifest projectId caller author)
    (row : Monitor.SecretsReference) (first : EnvVars) (rows : List (Monitor.SecretsReference × EnvVars)) :
    (∃ env, secretsForRun sources manifest projectId true caller (allOpened row first rows) = .ok env) ↔
      (∀ name v v', RowsSay first rows name v → RowsSay first rows name v' → v = v') ∧
      ∀ name v, RowsSay first rows name v → name ∉ author := by
  rw [secretsForRun_eq, ← exists_joinedRows_iff]
  cases hjoined : joinedRows first rows with
  | error why =>
      refine iff_of_false ?_ ?_
      · rintro ⟨env, henv⟩
        cases henv
      · rintro ⟨⟨joined, hj⟩, -⟩
        cases hj
  | ok joined =>
      have hshared : (∀ name, name ∈ joined → name ∉ author) ↔
          ∀ name v, RowsSay first rows name v → name ∉ author := by
        simp only [LookupMap.mem_iff_lookup, lookup_joinedRows hjoined, forall_exists_index]
      rw [← hshared]
      refine (exists_authorSecretsForRun_iff h joined).trans ?_
      exact ⟨fun happart => ⟨⟨joined, rfl⟩, happart⟩, And.right⟩

theorem lookup_secretsForRun (h : AuthorSays sources manifest projectId caller author)
    {row : Monitor.SecretsReference} {first : EnvVars} {rows : List (Monitor.SecretsReference × EnvVars)}
    {env : Option EnvVars}
    (hrun : secretsForRun sources manifest projectId true caller (allOpened row first rows) = .ok env) :
    ∃ m, env = some m ∧ ∀ name v, m.lookup name = some v ↔ RowsSay first rows name v ∨ author.lookup name = some v := by
  rw [secretsForRun_eq] at hrun
  cases hjoined : joinedRows first rows with
  | error why =>
      rw [hjoined] at hrun
      cases hrun
  | ok joined =>
      rw [hjoined] at hrun
      obtain ⟨m, rfl, hm⟩ := lookup_authorSecretsForRun h hrun
      refine ⟨m, rfl, fun name v => ?_⟩
      rw [hm, ← lookup_joinedRows hjoined]
      have hapart := (exists_authorSecretsForRun_iff h joined).mp ⟨_, hrun⟩ name
      cases hlookup : joined.lookup name with
      | none => simp
      | some v' =>
          have hauthor : author.lookup name = none :=
            AList.lookup_eq_none.mpr (hapart (LookupMap.mem_iff_lookup.mpr ⟨v', hlookup⟩))
          simp [hauthor]

/-- The names the author may not use are those the rows join to. -/
theorem shared_iff {first : EnvVars} {rows : List (Monitor.SecretsReference × EnvVars)} :
    (¬ ∀ name v, RowsSay first rows name v → name ∉ author) ↔
      ∃ name, name ∈ author ∧ (name ∈ first ∨ name ∉ systemEnvVars ∧ ∃ r ∈ rows, name ∈ r.2) := by
  have hsaid : ∀ name, (∃ v, RowsSay first rows name v) ↔
      (name ∈ first ∨ name ∉ systemEnvVars ∧ ∃ r ∈ rows, name ∈ r.2) := by
    intro name
    unfold RowsSay
    simp only [LookupMap.mem_iff_lookup, exists_or]
    refine or_congr Iff.rfl ?_
    constructor
    · rintro ⟨v, hname, r, hr, hv⟩
      exact ⟨hname, r, hr, v, hv⟩
    · rintro ⟨hname, r, hr, v, hv⟩
      exact ⟨v, hname, r, hr, hv⟩
  push Not
  constructor
  · rintro ⟨name, v, hv, hauthor⟩
    exact ⟨name, hauthor, (hsaid name).mp ⟨v, hv⟩⟩
  · rintro ⟨name, hauthor, hname⟩
    obtain ⟨v, hv⟩ := (hsaid name).mpr hname
    exact ⟨name, v, hv, hauthor⟩

theorem exists_error_iff {α ε : Type} {x : Except ε α} : (∃ why, x = .error why) ↔ ¬ ∃ a, x = .ok a := by
  cases x with
  | error why => simp
  | ok a => simp

/-- **Rows join without shadowing.** For a run whose rows and whose author's secrets, if any, all open: the order of
    the rows beyond the first makes no difference; every name of a row that is not the worker's reads what that row
    holds; and the run is refused exactly where two rows give such a name different values, or the author's secrets
    share a name with what the rows join to. -/
theorem rows_join_without_shadowing (h : AuthorSays sources manifest projectId caller author)
    (row : Monitor.SecretsReference) (first : EnvVars) (rows : List (Monitor.SecretsReference × EnvVars)) :
    (∀ rows', rows.Perm rows' →
      SameOutcome (secretsForRun sources manifest projectId true caller (allOpened row first rows))
        (secretsForRun sources manifest projectId true caller (allOpened row first rows'))) ∧
    (∀ env, secretsForRun sources manifest projectId true caller (allOpened row first rows) = .ok env →
      ∃ m, env = some m ∧ ∀ s ∈ first :: rows.map Prod.snd, ∀ name, name ∉ systemEnvVars →
        ∀ v, s.lookup name = some v → m.lookup name = some v) ∧
    ((∃ why, secretsForRun sources manifest projectId true caller (allOpened row first rows) = .error why) ↔
      (∃ name, name ∉ systemEnvVars ∧ ∃ s ∈ first :: rows.map Prod.snd, ∃ s' ∈ first :: rows.map Prod.snd,
        ∃ v v', s.lookup name = some v ∧ s'.lookup name = some v' ∧ v ≠ v') ∨
      ∃ name, name ∈ author ∧ (name ∈ first ∨ name ∉ systemEnvVars ∧ ∃ r ∈ rows, name ∈ r.2)) := by
  refine ⟨?_, ?_, ?_⟩
  · intro rows' hperm
    have hgoes := exists_secretsForRun_iff h row first rows
    have hgoes' := exists_secretsForRun_iff h row first rows'
    simp only [← RowsSay.perm hperm] at hgoes'
    by_cases hok : ∃ env, secretsForRun sources manifest projectId true caller (allOpened row first rows) = .ok env
    · obtain ⟨env', henv'⟩ := hgoes'.mpr (hgoes.mp hok)
      obtain ⟨env, henv⟩ := hok
      obtain ⟨m, rfl, hm⟩ := lookup_secretsForRun h henv
      obtain ⟨m', rfl, hm'⟩ := lookup_secretsForRun h henv'
      refine .inr ⟨m, m', henv, henv', fun name => ?_⟩
      ext v
      rw [hm, hm', RowsSay.perm hperm]
    · obtain ⟨why, hwhy⟩ := exists_error_iff.mpr hok
      obtain ⟨why', hwhy'⟩ := exists_error_iff.mpr fun hok' => hok (hgoes.mpr (hgoes'.mp hok'))
      exact .inl ⟨why, why', hwhy, hwhy'⟩
  · intro env henv
    obtain ⟨m, rfl, hm⟩ := lookup_secretsForRun h henv
    refine ⟨m, rfl, fun s hs name hname v hv => (hm name v).mpr (.inl ?_)⟩
    rcases List.mem_cons.mp hs with rfl | hs
    · exact .inl hv
    · obtain ⟨r, hr, rfl⟩ := List.mem_map.mp hs
      exact .inr ⟨hname, r, hr, hv⟩
  · rw [exists_error_iff, exists_secretsForRun_iff h, not_and_or, not_consistent_iff, shared_iff]

end Run

/-- A keystore that holds one author's row. -/
def oneAuthor : AuthorSources where
  wellFormedSecretsRef := fun _ _ => .ok ()
  decryptSecretsByProject := fun _ _ _ _ => .ok (insertAll ∅ [("API_KEY", "k")])

/-- A manifest that names the author's default row. -/
def defaultAuthorManifest : ProjectManifest := { authorSecrets := some { profile := some "default" } }

theorem oneAuthor_opens :
    AuthorOpens oneAuthor (some defaultAuthorManifest) (some "alice.near/app") (some "bob.near")
      (insertAll ∅ [("API_KEY", "k")]) where
  declared := rfl
  opens := ⟨"alice.near/app", ⟨"alice.near", "default"⟩, "bob.near", rfl, by decide +kernel, rfl, rfl, rfl⟩

/-- Two rows that set `REGION` apart do not run. -/
theorem clashing_rows_refused :
    ∃ why, secretsForRun oneAuthor (some defaultAuthorManifest) (some "alice.near/app") true (some "bob.near")
      (allOpened ⟨"default", "bob.near"⟩ (insertAll ∅ [("REGION", "eu")])
        [(⟨"team", "bob.near"⟩, insertAll ∅ [("REGION", "us")])]) = .error why :=
  (rows_join_without_shadowing (.inl oneAuthor_opens) ⟨"default", "bob.near"⟩ (insertAll ∅ [("REGION", "eu")])
    [(⟨"team", "bob.near"⟩, insertAll ∅ [("REGION", "us")])]).2.2.mpr
      (.inl ⟨"REGION", by decide +kernel, _, List.mem_cons_self, _, List.mem_cons_of_mem _ List.mem_cons_self,
        "eu", "us", by decide +kernel, by decide +kernel, by decide⟩)

end Worker
end Outlayer
