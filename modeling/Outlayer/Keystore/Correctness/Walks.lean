import Outlayer.Keystore.Access
import Outlayer.Keystore.Correctness.Verdicts

/-!
# `Keystore.Correctness.Walks` — what is said of a verdict is so

What a condition says without the chain is its value when every leaf that asks the chain is unknown
(`ofOption_holdsWithoutTheChain`), so it stands whatever the chain answers. An admission is a derivation: every branch
of an `And`, one branch of an `Or`, down to the leaves (`Admits`); an admission by name has one with a list that names
the caller among its leaves. A refusal for which a build is blamed stands whoever calls, whenever, through whomever, and
whatever the chain answers.
-/

namespace Outlayer
open Collections Kleene

namespace Keystore

/-! ## Without the chain -/

section Walks
variable {caller : String} {now : Nat} {patterns : CompiledPatterns} {facts : RunFacts} {w : World}

/-- What the leaves answer that do not ask the chain. -/
def offChain (now : Nat) (patterns : CompiledPatterns) (facts : RunFacts) : Query → Truth
  | .accountPattern pattern account => .ofOption ((patterns.lookup pattern).map fun re => re.isMatch account)
  | .validUntil untilNs => .ofOption ((Text.parseUnsigned 64 untilNs).map fun limit => decide (now < limit))
  | .wasmHash hash => .ofOption (facts.executedWasmSha256.map fun executed => Text.eqIgnoreAsciiCase executed hash)
  | _ => .unknown

/-- The three-valued conjunction of verdicts, by what is among them. -/
theorem all_map_ofOption (verdicts : List (Option Bool)) :
    Truth.all (verdicts.map .ofOption) = .ofOption
      (if some false ∈ verdicts then some false else if none ∈ verdicts then none else some true) := by
  induction verdicts with
  | nil => rfl
  | cons v verdicts ih =>
      rw [List.map_cons, Truth.all_cons, ih]
      by_cases hno : some false ∈ verdicts
      · rcases v with _ | _ | _ <;> simp [hno, Truth.ofOption, Truth.ofBool, Truth.and]
      · by_cases hnone : none ∈ verdicts
        · rcases v with _ | _ | _ <;> simp [hno, hnone, Truth.ofOption, Truth.ofBool, Truth.and]
        · rcases v with _ | _ | _ <;> simp [hno, hnone, Truth.ofOption, Truth.ofBool, Truth.and]

theorem any_map_ofOption (verdicts : List (Option Bool)) :
    Truth.any (verdicts.map .ofOption) = .ofOption
      (if some true ∈ verdicts then some true else if none ∈ verdicts then none else some false) := by
  induction verdicts with
  | nil => rfl
  | cons v verdicts ih =>
      rw [List.map_cons, Truth.any_cons, ih]
      by_cases hyes : some true ∈ verdicts
      · rcases v with _ | _ | _ <;> simp [hyes, Truth.ofOption, Truth.ofBool, Truth.or]
      · by_cases hnone : none ∈ verdicts
        · rcases v with _ | _ | _ <;> simp [hyes, hnone, Truth.ofOption, Truth.ofBool, Truth.or]
        · rcases v with _ | _ | _ <;> simp [hyes, hnone, Truth.ofOption, Truth.ofBool, Truth.or]

mutual

/-- **The verdict without the chain** is the condition's value with the chain unknown. -/
theorem ofOption_holdsWithoutTheChain : ∀ c : AccessCondition,
    Truth.ofOption (c.holdsWithoutTheChain caller now patterns facts)
      = c.kleene (offChain now patterns facts) none caller
  | .allowAll => rfl
  | .whitelist accounts => by
      have hany : (accounts.any fun account => account == caller) = decide (caller ∈ accounts) := by
        rw [Bool.eq_iff_iff]
        simp
      unfold AccessCondition.holdsWithoutTheChain AccessCondition.kleene
      rw [hany]
      rfl
  | .accountPattern pattern => rfl
  | .logic .and conditions => by
      have heach := ofOption_eachWithoutTheChain conditions
      rw [AccessCondition.kleene, ← heach, all_map_ofOption]
      rfl
  | .logic .or conditions => by
      have heach := ofOption_eachWithoutTheChain conditions
      rw [AccessCondition.kleene, ← heach, any_map_ofOption]
      rfl
  | .not condition => by
      have hinner := ofOption_holdsWithoutTheChain condition
      rw [AccessCondition.kleene, ← hinner, AccessCondition.holdsWithoutTheChain]
      rcases condition.holdsWithoutTheChain caller now patterns facts with _ | _ | _ <;> rfl
  | .nearBalance _ _ => rfl
  | .ftBalance _ _ _ => rfl
  | .nftOwned _ _ => rfl
  | .daoMember _ _ => rfl
  | .validUntil _ => rfl
  | .wasmHash _ => rfl
  | .predecessor _ => rfl

theorem ofOption_eachWithoutTheChain : ∀ cs : List AccessCondition,
    (eachWithoutTheChain caller now patterns facts cs).map Truth.ofOption
      = kleeneEach (offChain now patterns facts) none cs caller
  | [] => rfl
  | c :: cs => by
      rw [eachWithoutTheChain, List.map_cons, kleeneEach, ofOption_holdsWithoutTheChain c,
        ofOption_eachWithoutTheChain cs]

end

/-- A world answers at least what its patterns, its facts and its clock answer. -/
theorem offChain_le (hnow : nowNs w = .ok now) (q : Query) : offChain now w.patterns w.facts q ≤ w.oracle q := by
  cases q with
  | accountPattern pattern account => exact le_refl _
  | wasmHash hash => exact le_refl _
  | validUntil untilNs =>
      unfold nowNs at hnow
      cases hclock : w.clock with
      | none =>
          rw [hclock] at hnow
          cases hnow
      | some sinceEpoch =>
          rw [hclock] at hnow
          obtain rfl : min sinceEpoch (2 ^ 64 - 1) = now := by cases hnow; rfl
          have halike : offChain (min sinceEpoch (2 ^ 64 - 1)) w.patterns w.facts (.validUntil untilNs)
              = w.oracle (.validUntil untilNs) := by
            simp only [offChain, World.oracle, hclock]
            cases Text.parseUnsigned 64 untilNs with
            | none => rfl
            | some limit => rfl
          exact le_of_eq halike
  | _ => exact Truth.unknown_le _

/-- **What holds without the chain holds**, whatever the chain answers. -/
theorem evaluate_of_holdsWithoutTheChain (hnow : nowNs w = .ok now) {c : AccessCondition} {b : Bool}
    (h : c.holdsWithoutTheChain caller now w.patterns w.facts = some b) : c.evaluate w caller = .ok b := by
  have hmono : c.kleene (offChain now w.patterns w.facts) none caller
      ≤ c.kleene w.oracle w.facts.predecessorId caller :=
    kleene_le (offChain_le hnow) (by intro a ha; cases ha) c caller
  have hle : Truth.ofBool b ≤ verdict (c.evaluate w caller) := by
    rw [verdict_evaluate]
    rw [← ofOption_holdsWithoutTheChain, h] at hmono
    exact hmono
  have hdecided := Truth.eq_of_le hle (by cases b <;> decide)
  exact verdict_eq_ofBool.mp hdecided

end Walks

/-! ## Connectives -/

section Connectives
variable {w : World} {caller : String}

theorem evaluateAnd_eq_true {cs : List AccessCondition} {unknown : Option Failure} :
    evaluateAnd w cs caller unknown = .ok true ↔ unknown = none ∧ ∀ c ∈ cs, c.evaluate w caller = .ok true := by
  induction cs generalizing unknown with
  | nil => cases unknown <;> simp [evaluateAnd]
  | cons c cs ih =>
      rw [evaluateAnd]
      cases hc : c.evaluate w caller with
      | ok b => cases b <;> simp [ih, hc]
      | error e => cases unknown <;> simp [ih, hc, firstOf]

theorem evaluateOr_eq_true {cs : List AccessCondition} {unknown : Option Failure} :
    evaluateOr w cs caller unknown = .ok true ↔ ∃ c ∈ cs, c.evaluate w caller = .ok true := by
  induction cs generalizing unknown with
  | nil => cases unknown <;> simp [evaluateOr]
  | cons c cs ih =>
      rw [evaluateOr]
      cases hc : c.evaluate w caller with
      | ok b => cases b <;> simp [ih, hc]
      | error e => simp [ih, hc]

/-- One branch that refuses is enough for an `And`, whatever is unknown beside it. -/
theorem evaluateAnd_eq_false {cs : List AccessCondition} {unknown : Option Failure}
    (h : ∃ c ∈ cs, c.evaluate w caller = .ok false) : evaluateAnd w cs caller unknown = .ok false := by
  induction cs generalizing unknown with
  | nil =>
      obtain ⟨c, hc, _⟩ := h
      cases hc
  | cons c cs ih =>
      rw [evaluateAnd]
      cases hc : c.evaluate w caller with
      | ok b =>
          cases b with
          | false => rfl
          | true => exact ih (by simpa [hc] using h)
      | error e => exact ih (by simpa [hc] using h)

theorem evaluateOr_eq_false {cs : List AccessCondition} (h : ∀ c ∈ cs, c.evaluate w caller = .ok false) :
    evaluateOr w cs caller none = .ok false := by
  induction cs with
  | nil => rfl
  | cons c cs ih =>
      rw [List.forall_mem_cons] at h
      rw [evaluateOr, h.1]
      exact ih h.2

end Connectives

/-! ## Derivations -/

/-- A condition that joins others. -/
def AccessCondition.isLogic : AccessCondition → Bool
  | .logic _ _ => true
  | _          => false

mutual

/-- Induction on the branches of the connectives: what is under a `Not` or a `Predecessor` is no branch. -/
theorem AccessCondition.branchInduction {motive : AccessCondition → Prop}
    (leaf : ∀ c, c.isLogic = false → motive c)
    (logic : ∀ operator cs, (∀ c ∈ cs, motive c) → motive (.logic operator cs)) : ∀ c, motive c
  | .logic operator conditions => logic operator conditions (branchInduction_each leaf logic conditions)
  | .not _ => leaf _ rfl
  | .allowAll => leaf _ rfl
  | .whitelist _ => leaf _ rfl
  | .accountPattern _ => leaf _ rfl
  | .nearBalance _ _ => leaf _ rfl
  | .ftBalance _ _ _ => leaf _ rfl
  | .nftOwned _ _ => leaf _ rfl
  | .daoMember _ _ => leaf _ rfl
  | .validUntil _ => leaf _ rfl
  | .wasmHash _ => leaf _ rfl
  | .predecessor _ => leaf _ rfl

theorem branchInduction_each {motive : AccessCondition → Prop} (leaf : ∀ c, c.isLogic = false → motive c)
    (logic : ∀ operator cs, (∀ c ∈ cs, motive c) → motive (.logic operator cs)) :
    ∀ cs : List AccessCondition, ∀ c ∈ cs, motive c
  | [] => by simp
  | c :: cs => List.forall_mem_cons.mpr ⟨c.branchInduction leaf logic, branchInduction_each leaf logic cs⟩

end

mutual

/-- How a condition let `caller` in, with the leaves it was by: every branch of an `And`, one of an `Or`, and, for the
    rest, that it holds. A `Not` and a `Predecessor` are leaves: what is inside is not said of the caller. -/
inductive Admits (w : World) (caller : String) : AccessCondition → (leaves : List AccessCondition) → Prop
  | leaf {c : AccessCondition} (isLeaf : c.isLogic = false) (holds : c.evaluate w caller = .ok true) :
      Admits w caller c [c]
  | and {cs leaves : List AccessCondition} (every : AdmitsEach w caller cs leaves) :
      Admits w caller (.logic .and cs) leaves
  | or {cs leaves : List AccessCondition} {c : AccessCondition} (branch : c ∈ cs) (one : Admits w caller c leaves) :
      Admits w caller (.logic .or cs) leaves

/-- Every condition of a list admits the caller, by these leaves in turn. -/
inductive AdmitsEach (w : World) (caller : String) : List AccessCondition → (leaves : List AccessCondition) → Prop
  | nil : AdmitsEach w caller [] []
  | cons {c : AccessCondition} {cs leaves rest : List AccessCondition} (first : Admits w caller c leaves)
      (others : AdmitsEach w caller cs rest) : AdmitsEach w caller (c :: cs) (leaves ++ rest)

end

/-- A derivation among whose leaves is a list that names the caller. -/
def AdmitsNaming (w : World) (caller : String) (c : AccessCondition) : Prop :=
  ∃ leaves, Admits w caller c leaves ∧ ∃ accounts, .whitelist accounts ∈ leaves ∧ caller ∈ accounts

section Derivations
variable {w : World} {caller : String} {now : Nat}

mutual

/-- A derivation is one of an admission. -/
theorem Admits.evaluate {c : AccessCondition} {leaves : List AccessCondition} :
    Admits w caller c leaves → c.evaluate w caller = .ok true
  | .leaf _ holds => holds
  | .and every => evaluateAnd_eq_true.mpr ⟨rfl, every.evaluate⟩
  | .or branch one => evaluateOr_eq_true.mpr ⟨_, branch, one.evaluate⟩

theorem AdmitsEach.evaluate {cs leaves : List AccessCondition} :
    AdmitsEach w caller cs leaves → ∀ c ∈ cs, c.evaluate w caller = .ok true
  | .nil => by simp
  | .cons first others => List.forall_mem_cons.mpr ⟨first.evaluate, others.evaluate⟩

end

theorem exists_admitsEach {cs : List AccessCondition} (h : ∀ c ∈ cs, ∃ leaves, Admits w caller c leaves) :
    ∃ leaves, AdmitsEach w caller cs leaves := by
  induction cs with
  | nil => exact ⟨[], .nil⟩
  | cons c cs ih =>
      rw [List.forall_mem_cons] at h
      obtain ⟨leaves, first⟩ := h.1
      obtain ⟨rest, others⟩ := ih h.2
      exact ⟨leaves ++ rest, .cons first others⟩

/-- An admission has a derivation. -/
theorem exists_admits (c : AccessCondition) (h : c.evaluate w caller = .ok true) :
    ∃ leaves, Admits w caller c leaves := by
  induction c using AccessCondition.branchInduction with
  | leaf c isLeaf => exact ⟨[c], .leaf isLeaf h⟩
  | logic operator cs ih =>
      cases operator with
      | and =>
          have hbranches := (evaluateAnd_eq_true.mp h).2
          obtain ⟨leaves, every⟩ := exists_admitsEach fun c hc => ih c hc (hbranches c hc)
          exact ⟨leaves, .and every⟩
      | or =>
          obtain ⟨c, branch, holds⟩ := evaluateOr_eq_true.mp h
          obtain ⟨leaves, one⟩ := ih c branch holds
          exact ⟨leaves, .or branch one⟩

/-- An `And` that holds is derived by way of a derivation of any of its branches. -/
theorem AdmitsNaming.and {before after : List AccessCondition} {named : AccessCondition}
    (hbefore : ∀ c ∈ before, c.evaluate w caller = .ok true) (hnamed : AdmitsNaming w caller named)
    (hafter : ∀ c ∈ after, c.evaluate w caller = .ok true) :
    AdmitsNaming w caller (.logic .and (before ++ named :: after)) := by
  obtain ⟨leaves, derivation, accounts, hmem, hcaller⟩ := hnamed
  obtain ⟨rest, others⟩ := exists_admitsEach fun c hc => exists_admits c (hafter c hc)
  suffices h : ∃ all, AdmitsEach w caller (before ++ named :: after) all ∧ .whitelist accounts ∈ all by
    obtain ⟨all, every, hall⟩ := h
    exact ⟨all, .and every, accounts, hall, hcaller⟩
  induction before with
  | nil => exact ⟨leaves ++ rest, .cons derivation others, List.mem_append_left _ hmem⟩
  | cons c before ih =>
      rw [List.forall_mem_cons] at hbefore
      obtain ⟨first, hfirst⟩ := exists_admits c hbefore.1
      obtain ⟨all, every, hall⟩ := ih hbefore.2
      exact ⟨first ++ all, .cons hfirst every, List.mem_append_right _ hall⟩

/-! ## Admission by name -/

section Names
variable {patterns : CompiledPatterns} {facts : RunFacts} {knownToHold : Bool}

/-- The branch an `And` is named by, and what is known of the others. -/
theorem namedAmong_eq_true {before cs : List AccessCondition}
    (h : namedAmong caller now patterns facts knownToHold before cs = true) :
    ∃ passed named after, cs = passed ++ named :: after ∧
      named.namesOnAnAdmittingPath caller now patterns facts knownToHold = true ∧
      (knownToHold = true ∨ ∀ c ∈ before ++ (passed ++ after),
        c.holdsWithoutTheChain caller now patterns facts = some true) := by
  induction cs generalizing before with
  | nil => cases h
  | cons c cs ih =>
      rw [namedAmong, Bool.or_eq_true, Bool.and_eq_true] at h
      rcases h with ⟨hnames, hothers⟩ | hlater
      · rw [Bool.or_eq_true, List.all_eq_true] at hothers
        exact ⟨[], c, cs, rfl, hnames, hothers.imp_right fun h c hc => eq_of_beq (h c hc)⟩
      · obtain ⟨passed, named, after, rfl, hnames, hothers⟩ := ih hlater
        exact ⟨c :: passed, named, after, rfl, hnames, by simpa using hothers⟩

theorem namedInOneOf_eq_true {cs : List AccessCondition} (h : namedInOneOf caller now patterns facts cs = true) :
    ∃ c ∈ cs, c.namesOnAnAdmittingPath caller now patterns facts false = true := by
  induction cs with
  | nil => cases h
  | cons c cs ih =>
      rw [namedInOneOf, Bool.or_eq_true] at h
      rcases h with hc | hcs
      · exact ⟨c, List.mem_cons_self, hc⟩
      · obtain ⟨c', hmem, hc'⟩ := ih hcs
        exact ⟨c', List.mem_cons_of_mem _ hmem, hc'⟩

end Names

/-- What a leaf is named by: the list it is. -/
theorem mem_of_leaf_names {patterns : CompiledPatterns} {facts : RunFacts} {knownToHold : Bool} {c : AccessCondition}
    (isLeaf : c.isLogic = false) (h : c.namesOnAnAdmittingPath caller now patterns facts knownToHold = true) :
    ∃ accounts, c = .whitelist accounts ∧ caller ∈ accounts := by
  cases c with
  | whitelist accounts => exact ⟨accounts, rfl, by simpa [AccessCondition.namesOnAnAdmittingPath] using h⟩
  | logic operator cs => cases isLeaf
  | _ => cases h

/-- A path that names the caller is one of a derivation; where nothing is known of the condition, the walk has seen for
    itself that it holds. -/
theorem admitsNaming_of_names (hnow : nowNs w = .ok now) (c : AccessCondition) {knownToHold : Bool}
    (hnames : c.namesOnAnAdmittingPath caller now w.patterns w.facts knownToHold = true)
    (hknown : knownToHold = true → c.evaluate w caller = .ok true) : AdmitsNaming w caller c := by
  induction c using AccessCondition.branchInduction generalizing knownToHold with
  | leaf c isLeaf =>
      obtain ⟨accounts, rfl, hcaller⟩ := mem_of_leaf_names isLeaf hnames
      have holds : (AccessCondition.whitelist accounts).evaluate w caller = .ok true := by
        simpa [AccessCondition.evaluate] using hcaller
      exact ⟨[.whitelist accounts], .leaf rfl holds, accounts, List.mem_singleton_self _, hcaller⟩
  | logic operator cs ih =>
      cases operator with
      | and =>
          obtain ⟨passed, named, after, rfl, hnamed, hothers⟩ := namedAmong_eq_true hnames
          have hbranches : knownToHold = true → ∀ c ∈ passed ++ named :: after, c.evaluate w caller = .ok true :=
            fun h => (evaluateAnd_eq_true.mp (hknown h)).2
          have hmem : named ∈ passed ++ named :: after := by simp
          -- the branches beside the named one hold, as the whole does or as far as the walk reads them
          have hbeside : ∀ c ∈ passed ++ after, c.evaluate w caller = .ok true := by
            intro c hc
            rcases hothers with hall | hread
            · exact hbranches hall c
                (List.mem_append.mpr ((List.mem_append.mp hc).imp_right (List.mem_cons_of_mem _)))
            · exact evaluate_of_holdsWithoutTheChain hnow (hread c hc)
          rw [List.forall_mem_append] at hbeside
          have hone := ih named hmem hnamed fun h => hbranches h named hmem
          exact hone.and hbeside.1 hbeside.2
      | or =>
          obtain ⟨c, branch, hnamed⟩ := namedInOneOf_eq_true hnames
          obtain ⟨leaves, one, hnaming⟩ := ih c branch hnamed (by intro h; cases h)
          exact ⟨leaves, .or branch one, hnaming⟩

/-- **Admission by name.** What is said of a condition without the chain is what the evaluator says, whatever the chain
    answers; and a caller said to be admitted by name was admitted by a list that names them. -/
theorem admitted_by_name (hnow : nowNs w = .ok now) (c : AccessCondition) :
    (∀ b, c.holdsWithoutTheChain caller now w.patterns w.facts = some b →
      ∀ nearClient, c.evaluate { w with nearClient := nearClient } caller = .ok b) ∧
    (c.evaluate w caller = .ok true → c.admitsByName caller now w.patterns w.facts = true →
      ∃ leaves, Admits w caller c leaves ∧ ∃ accounts, .whitelist accounts ∈ leaves ∧ caller ∈ accounts) := by
  constructor
  · intro b h nearClient
    exact @evaluate_of_holdsWithoutTheChain caller now { w with nearClient := nearClient } hnow c b h
  · intro holds hnames
    exact admitsNaming_of_names hnow c hnames fun _ => holds

end Derivations

/-- Named on a list, for one build, and running it. -/
theorem alice_admitted_by_name :
    ∃ leaves, Admits (reported emptyAccounts) "alice.near"
        (.logic .or [.nearBalance .gte "1", .logic .and [.whitelist ["alice.near"], .wasmHash "00"]]) leaves ∧
      ∃ accounts, .whitelist accounts ∈ leaves ∧ "alice.near" ∈ accounts :=
  (@admitted_by_name (reported emptyAccounts) "alice.near" 0 rfl _).2 rfl rfl

/-! ## A build that refuses -/

/-- `leaf` stands somewhere in a condition. -/
inductive AccessCondition.Has (leaf : AccessCondition) : AccessCondition → Prop
  | here : Has leaf leaf
  | branch {operator : LogicOperator} {cs : List AccessCondition} {c : AccessCondition} (mem : c ∈ cs)
      (has : Has leaf c) : Has leaf (.logic operator cs)
  | not {c : AccessCondition} (has : Has leaf c) : Has leaf (.not c)
  | predecessor {c : AccessCondition} (has : Has leaf c) : Has leaf (.predecessor c)

section Refusals
variable {executed : String}

theorem firstRefusal_eq_some {cs : List AccessCondition} {refusal : BuildRefusal}
    (h : firstRefusal (some executed) cs = some refusal) :
    ∃ c ∈ cs, c.buildRefusal (some executed) = some refusal := by
  induction cs with
  | nil => cases h
  | cons c cs ih =>
      rw [firstRefusal, Option.or_eq_some_iff] at h
      rcases h with hc | ⟨_, hcs⟩
      · exact ⟨c, List.mem_cons_self, hc⟩
      · obtain ⟨c', hmem, hc'⟩ := ih hcs
        exact ⟨c', List.mem_cons_of_mem _ hmem, hc'⟩

/-- The loop of an `Or` has a reason for every branch, and reports one it was given or met. -/
theorem everyRefusal_eq_some {cs : List AccessCondition} {first : Option BuildRefusal} {refusal : BuildRefusal}
    (h : everyRefusal (some executed) first cs = some refusal) :
    (∀ c ∈ cs, ∃ r, c.buildRefusal (some executed) = some r) ∧
      (first = some refusal ∨ ∃ c ∈ cs, c.buildRefusal (some executed) = some refusal) := by
  induction cs generalizing first with
  | nil => exact ⟨by simp, .inl h⟩
  | cons c cs ih =>
      rw [everyRefusal] at h
      cases hc : c.buildRefusal (some executed) with
      | none =>
          rw [hc] at h
          cases h
      | some r =>
          rw [hc] at h
          obtain ⟨hall, hreported⟩ := ih h
          refine ⟨List.forall_mem_cons.mpr ⟨⟨r, hc⟩, hall⟩, ?_⟩
          rcases hreported with hfirst | ⟨c', hmem, hc'⟩
          · rcases Option.or_eq_some_iff.mp hfirst with hgiven | ⟨_, hmet⟩
            · exact .inl hgiven
            · exact .inr ⟨c, List.mem_cons_self, hc.trans hmet⟩
          · exact .inr ⟨c', List.mem_cons_of_mem _ hmem, hc'⟩

/-- What a leaf, or a `Not`, is refused for. -/
theorem leaf_buildRefusal {c : AccessCondition} (isLeaf : c.isLogic = false) {refusal : BuildRefusal}
    (h : c.buildRefusal (some executed) = some refusal) : ∃ hash,
      (c = .wasmHash hash ∧ refusal = .lockedTo hash ∧ Text.eqIgnoreAsciiCase executed hash = false) ∨
      (c = .not (.wasmHash hash) ∧ refusal = .refuses ∧ Text.eqIgnoreAsciiCase executed hash = true) := by
  cases c with
  | wasmHash hash =>
      rw [AccessCondition.buildRefusal] at h
      split at h
      · cases h
      · next hdiffers =>
          cases h
          exact ⟨hash, .inl ⟨rfl, rfl, by simpa using hdiffers⟩⟩
  | not condition =>
      cases condition with
      | wasmHash hash =>
          rw [AccessCondition.buildRefusal] at h
          split at h
          · next hnames =>
              cases h
              exact ⟨hash, .inr ⟨rfl, rfl, hnames⟩⟩
          · cases h
      | _ => cases h
  | logic operator cs => cases isLeaf
  | _ => cases h

/-- A condition a build is blamed for refuses every run of that build. -/
theorem evaluate_of_buildRefusal {c : AccessCondition} {refusal : BuildRefusal}
    (h : c.buildRefusal (some executed) = some refusal) {w : World} (hrun : w.facts.executedWasmSha256 = some executed)
    (caller : String) : c.evaluate w caller = .ok false := by
  induction c using AccessCondition.branchInduction generalizing refusal with
  | leaf c isLeaf =>
      obtain ⟨hash, ⟨rfl, _, hdiffers⟩ | ⟨rfl, _, hnames⟩⟩ := leaf_buildRefusal isLeaf h
      · rw [AccessCondition.evaluate, hrun]
        exact congrArg _ hdiffers
      · rw [AccessCondition.evaluate, AccessCondition.evaluate, hrun]
        exact congrArg (fun named => Except.ok (!named)) hnames
  | logic operator cs ih =>
      cases operator with
      | and =>
          obtain ⟨c, hc, hrefusal⟩ := firstRefusal_eq_some h
          exact evaluateAnd_eq_false ⟨c, hc, ih c hc hrefusal⟩
      | or =>
          refine evaluateOr_eq_false fun c hc => ?_
          obtain ⟨r, hrefusal⟩ := (everyRefusal_eq_some h).1 c hc
          exact ih c hc hrefusal

/-- The build a condition is said to be locked to is one it names, and not the one that ran. -/
theorem has_of_lockedTo {c : AccessCondition} {hash : String}
    (h : c.buildRefusal (some executed) = some (.lockedTo hash)) :
    AccessCondition.Has (.wasmHash hash) c ∧ Text.eqIgnoreAsciiCase executed hash = false := by
  induction c using AccessCondition.branchInduction with
  | leaf c isLeaf =>
      obtain ⟨hash', ⟨rfl, hsame, hdiffers⟩ | ⟨rfl, hother, _⟩⟩ := leaf_buildRefusal isLeaf h
      · cases hsame
        exact ⟨.here, hdiffers⟩
      · cases hother
  | logic operator cs ih =>
      cases operator with
      | and =>
          obtain ⟨c, hc, hrefusal⟩ := firstRefusal_eq_some h
          exact (ih c hc hrefusal).imp_left (.branch hc)
      | or =>
          rcases (everyRefusal_eq_some h).2 with hnone | ⟨c, hc, hrefusal⟩
          · cases hnone
          · exact (ih c hc hrefusal).imp_left (.branch hc)

end Refusals

/-- **The build is blamed only when it refuses.** A reason given for a build stands for every run of that build, whoever
    called, when, through whom, and whatever the chain answers; and the build it names as the one admitted is a leaf of
    the condition and not the one presented. -/
theorem blamed_build_refuses {executedWasmSha256 : Option String} {c : AccessCondition} {refusal : BuildRefusal}
    (h : c.buildRefusal executedWasmSha256 = some refusal) :
    (∀ (w : World) (caller : String), w.facts.executedWasmSha256 = executedWasmSha256 →
      c.evaluate w caller = .ok false) ∧
    ∀ hash, refusal = .lockedTo hash → AccessCondition.Has (.wasmHash hash) c ∧
      ∃ executed, executedWasmSha256 = some executed ∧ Text.eqIgnoreAsciiCase executed hash = false := by
  cases executedWasmSha256 with
  | none =>
      rw [AccessCondition.buildRefusal] at h
      cases h
  | some executed =>
      refine ⟨fun w caller hrun => evaluate_of_buildRefusal h hrun caller, ?_⟩
      rintro hash rfl
      obtain ⟨has, hdiffers⟩ := has_of_lockedTo h
      exact ⟨has, executed, rfl, hdiffers⟩

/-- Locked to one build in every branch, and blamed with another running. -/
theorem other_build_blamed :
    (AccessCondition.logic .or [.wasmHash "aa", .logic .and [.allowAll, .wasmHash "bb"]]).buildRefusal (some "CC")
      = some (.lockedTo "aa") ∧
    (∀ (w : World) (caller : String), w.facts.executedWasmSha256 = some "CC" →
      (AccessCondition.logic .or [.wasmHash "aa", .logic .and [.allowAll, .wasmHash "bb"]]).evaluate w caller
        = .ok false) :=
  ⟨rfl, (blamed_build_refuses rfl).1⟩

end Keystore
end Outlayer
