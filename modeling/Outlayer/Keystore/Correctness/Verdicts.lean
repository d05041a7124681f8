import Outlayer.Keystore.Access
import Outlayer.Lib.Kleene

/-!
# `Keystore.Correctness.Verdicts` — what the evaluator says

A condition means a value of strong Kleene logic, given what each leaf answers: `kleene` says which. The evaluator stops
early, goes on past failures and reports the first of them, and still says just that (`evaluate_kleene`); so the order
the branches of a condition are written in makes no difference to what it says, at any depth.

Completing a world means answering what it left open: a read that failed, a fact that was not reported. Every connective
is monotone in what is known, so a verdict given before stands after (`verdict_stands`). No failure admits anybody.
-/

namespace Outlayer
open Collections Kleene

namespace Keystore

/-! ## What a condition means -/

/-- What a leaf asks, of the account it is judged on. -/
inductive Query
  | accountPattern (pattern account : String)
  | nearBalance (account : String) (operator : ComparisonOperator) (value : String)
  | ftBalance (contract account : String) (operator : ComparisonOperator) (value : String)
  | nftOwned (contract account : String) (tokenId : Option String)
  | daoMember (daoContract account role : String)
  | validUntil (untilNs : String)
  | wasmHash (hash : String)

mutual

/-- The value of a condition, when `ask` answers its leaves and `predecessor` is who called, if that is known. -/
def AccessCondition.kleene (ask : Query → Truth) (predecessor : Option String) :
    AccessCondition → (caller : String) → Truth
  | .allowAll, _ => .yes
  | .whitelist accounts, caller => .ofBool (decide (caller ∈ accounts))
  | .accountPattern pattern, caller => ask (.accountPattern pattern caller)
  | .logic .and conditions, caller => .all (kleeneEach ask predecessor conditions caller)
  | .logic .or conditions, caller => .any (kleeneEach ask predecessor conditions caller)
  | .not condition, caller => (condition.kleene ask predecessor caller).not
  | .nearBalance operator value, caller => ask (.nearBalance caller operator value)
  | .ftBalance contract operator value, caller => ask (.ftBalance contract caller operator value)
  | .nftOwned contract tokenId, caller => ask (.nftOwned contract caller tokenId)
  | .daoMember daoContract role, caller => ask (.daoMember daoContract caller role)
  | .validUntil untilNs, _ => ask (.validUntil untilNs)
  | .wasmHash hash, _ => ask (.wasmHash hash)
  | .predecessor condition, _ =>
      match predecessor with
      | some account => condition.kleene ask predecessor account
      | none         => .unknown

/-- The value of each condition of a list. -/
def kleeneEach (ask : Query → Truth) (predecessor : Option String) :
    List AccessCondition → (caller : String) → List Truth
  | [], _ => []
  | condition :: conditions, caller =>
      condition.kleene ask predecessor caller :: kleeneEach ask predecessor conditions caller

end

/-- What a world answers: nothing, where a read fails, a fact is missing or a number cannot be read. -/
def World.oracle (w : World) : Query → Truth
  | .accountPattern pattern account => .ofOption ((w.patterns.lookup pattern).map fun re => re.isMatch account)
  | .nearBalance account operator value => .ofOption do
      let reads ← w.nearClient
      let required ← Text.parseUnsigned 128 value
      let actual ← (reads.getAccountBalance account).toOption
      some (compareValues actual operator required)
  | .ftBalance contract account operator value => .ofOption do
      let reads ← w.nearClient
      let required ← Text.parseUnsigned 128 value
      let actual ← (reads.getFtBalance contract account).toOption
      some (compareValues actual operator required)
  | .nftOwned contract account tokenId => .ofOption do
      let reads ← w.nearClient
      (reads.checkNftOwnership contract account tokenId).toOption
  | .daoMember daoContract account role => .ofOption do
      let reads ← w.nearClient
      (reads.checkDaoMembership daoContract account role).toOption
  | .validUntil untilNs => .ofOption do
      let now ← w.clock
      let limit ← Text.parseUnsigned 64 untilNs
      some (decide (min now (2 ^ 64 - 1) < limit))
  | .wasmHash hash => .ofOption (w.facts.executedWasmSha256.map fun executed => Text.eqIgnoreAsciiCase executed hash)

/-! ## The evaluator -/

/-- What a computation says, and what is left of it when the failure is forgotten. -/
theorem verdict_eq_ofOption (x : Fallible Bool) : verdict x = .ofOption x.toOption := by
  cases x with
  | ok b => rfl
  | error e => rfl

theorem toOption_bind {α β : Type} (x : Fallible α) (f : α → Fallible β) :
    (x >>= f).toOption = x.toOption.bind fun a => (f a).toOption := by
  cases x with
  | ok a => rfl
  | error e => rfl

theorem toOption_context {α : Type} (o : Option α) (text : String) : (context o text).toOption = o := by
  cases o with
  | none => rfl
  | some a => rfl

theorem toOption_orFail {α : Type} (o : Option α) (f : Failure) : (orFail o f).toOption = o := by
  cases o with
  | none => rfl
  | some a => rfl

theorem toOption_ok {α : Type} (a : α) : (Except.ok a : Fallible α).toOption = some a := rfl

/-- The failures carried by a loop, as a value: something is unknown, or nothing so far. -/
def carried : Option Failure → Truth
  | some _ => .unknown
  | none   => .yes

/-- For a disjunction, the same with "no" for nothing so far. -/
def carriedOr : Option Failure → Truth
  | some _ => .unknown
  | none   => .no

theorem carried_firstOf (unknown : Option Failure) (e : Failure) : carried (firstOf unknown e) = .unknown := by
  cases unknown with
  | none => rfl
  | some e' => rfl

theorem carriedOr_firstOf (unknown : Option Failure) (e : Failure) : carriedOr (firstOf unknown e) = .unknown := by
  cases unknown with
  | none => rfl
  | some e' => rfl

/-- A leaf says what is left of it when the failure is forgotten. -/
theorem verdict_leaf {x : Fallible Bool} {o : Option Bool} (h : x.toOption = o) : verdict x = .ofOption o := by
  rw [← h, verdict_eq_ofOption]

mutual

/-- **The evaluator says what the condition means.** -/
theorem verdict_evaluate (w : World) : ∀ (c : AccessCondition) (caller : String),
    verdict (c.evaluate w caller) = c.kleene w.oracle w.facts.predecessorId caller
  | .allowAll, caller => rfl
  | .whitelist accounts, caller => by
      have hany : (accounts.any fun account => account == caller) = decide (caller ∈ accounts) := by
        rw [Bool.eq_iff_iff]
        simp
      unfold AccessCondition.evaluate AccessCondition.kleene
      rw [hany, verdict_ok]
  | .accountPattern pattern, caller => by
      refine verdict_leaf ?_
      rw [AccessCondition.evaluate, toOption_bind, toOption_context]
      cases w.patterns.lookup pattern with
      | none => rfl
      | some re => rfl
  | .logic .and conditions, caller => by
      have hloop := verdict_evaluateAnd w conditions caller none
      rw [carried, Truth.yes_and] at hloop
      exact hloop
  | .logic .or conditions, caller => by
      have hloop := verdict_evaluateOr w conditions caller none
      rw [carriedOr, Truth.no_or] at hloop
      exact hloop
  | .not condition, caller => by
      have hinner := verdict_evaluate w condition caller
      rw [AccessCondition.evaluate, AccessCondition.kleene, ← hinner]
      cases condition.evaluate w caller with
      | ok b => cases b <;> rfl
      | error e => rfl
  | .nearBalance operator value, caller => by
      refine verdict_leaf ?_
      simp only [AccessCondition.evaluate, clientFor, toOption_bind, toOption_context, toOption_orFail, toOption_ok]
      rfl
  | .ftBalance contract operator value, caller => by
      refine verdict_leaf ?_
      simp only [AccessCondition.evaluate, clientFor, toOption_bind, toOption_context, toOption_orFail, toOption_ok]
      rfl
  | .nftOwned contract tokenId, caller => by
      refine verdict_leaf ?_
      simp only [AccessCondition.evaluate, clientFor, toOption_bind, toOption_context]
      rfl
  | .daoMember daoContract role, caller => by
      refine verdict_leaf ?_
      simp only [AccessCondition.evaluate, clientFor, toOption_bind, toOption_context]
      rfl
  | .validUntil untilNs, caller => by
      refine verdict_leaf ?_
      simp only [AccessCondition.evaluate, nowNs, validUntilAt, toOption_bind, toOption_context, toOption_orFail,
        toOption_ok]
      cases w.clock with
      | none => rfl
      | some now => rfl
  | .wasmHash hash, caller => by
      refine verdict_leaf ?_
      rw [AccessCondition.evaluate]
      cases w.facts.executedWasmSha256 with
      | none => rfl
      | some executed => rfl
  | .predecessor condition, caller => by
      rw [AccessCondition.evaluate]
      cases hp : w.facts.predecessorId with
      | none => rfl
      | some account =>
          have hinner := verdict_evaluate w condition account
          rw [hp] at hinner
          exact hinner

/-- The loop of an `And`: what was carried into it, and the branches that are left. -/
theorem verdict_evaluateAnd (w : World) : ∀ (cs : List AccessCondition) (caller : String) (unknown : Option Failure),
    verdict (evaluateAnd w cs caller unknown) =
      (carried unknown).and (.all (kleeneEach w.oracle w.facts.predecessorId cs caller))
  | [], caller, unknown => by
      cases unknown with
      | none => rfl
      | some e => rfl
  | c :: cs, caller, unknown => by
      have hfirst := verdict_evaluate w c caller
      rw [kleeneEach, Truth.all_cons, ← hfirst, evaluateAnd]
      cases c.evaluate w caller with
      | ok b =>
          cases b with
          | true =>
              rw [verdict_ok, Truth.ofBool, Truth.yes_and]
              exact verdict_evaluateAnd w cs caller unknown
          | false => rw [verdict_ok, Truth.ofBool, Truth.no_and, Truth.and_no]
      | error e =>
          -- carried or met now, something is unknown
          dsimp only
          rw [verdict_evaluateAnd w cs caller (firstOf unknown e), carried_firstOf, verdict_error]
          cases unknown with
          | none => rw [carried, Truth.yes_and]
          | some e' => rw [carried, ← Truth.and_assoc]; rfl

theorem verdict_evaluateOr (w : World) : ∀ (cs : List AccessCondition) (caller : String) (unknown : Option Failure),
    verdict (evaluateOr w cs caller unknown) =
      (carriedOr unknown).or (.any (kleeneEach w.oracle w.facts.predecessorId cs caller))
  | [], caller, unknown => by
      cases unknown with
      | none => rfl
      | some e => rfl
  | c :: cs, caller, unknown => by
      have hfirst := verdict_evaluate w c caller
      rw [kleeneEach, Truth.any_cons, ← hfirst, evaluateOr]
      cases c.evaluate w caller with
      | ok b =>
          cases b with
          | true => rw [verdict_ok, Truth.ofBool, Truth.yes_or, Truth.or_yes]
          | false =>
              rw [verdict_ok, Truth.ofBool, Truth.no_or]
              exact verdict_evaluateOr w cs caller unknown
      | error e =>
          dsimp only
          rw [verdict_evaluateOr w cs caller (firstOf unknown e), carriedOr_firstOf, verdict_error]
          cases unknown with
          | none => rw [carriedOr, Truth.no_or]
          | some e' => rw [carriedOr, ← Truth.or_assoc]; rfl

end

/-! ## The order of the branches -/

/-- The same condition, with the branches of some `And`s and `Or`s, at any depth, in another order. -/
inductive Rearranged : AccessCondition → AccessCondition → Prop
  | refl (c : AccessCondition) : Rearranged c c
  | trans {a b c : AccessCondition} : Rearranged a b → Rearranged b c → Rearranged a c
  | perm (operator : LogicOperator) {cs cs' : List AccessCondition} :
      cs.Perm cs' → Rearranged (.logic operator cs) (.logic operator cs')
  | branch (operator : LogicOperator) (before after : List AccessCondition) {c c' : AccessCondition} :
      Rearranged c c' → Rearranged (.logic operator (before ++ c :: after)) (.logic operator (before ++ c' :: after))
  | not {c c' : AccessCondition} : Rearranged c c' → Rearranged (.not c) (.not c')
  | predecessor {c c' : AccessCondition} : Rearranged c c' → Rearranged (.predecessor c) (.predecessor c')

section Meaning
variable {ask ask' : Query → Truth} {predecessor predecessor' : Option String}

theorem kleeneEach_eq_map (cs : List AccessCondition) (caller : String) :
    kleeneEach ask predecessor cs caller = cs.map fun c => c.kleene ask predecessor caller := by
  induction cs with
  | nil => rfl
  | cons c cs ih => rw [kleeneEach, ih, List.map_cons]

theorem Rearranged.kleene {c c' : AccessCondition} (h : Rearranged c c') (caller : String) :
    c.kleene ask predecessor caller = c'.kleene ask predecessor caller := by
  induction h generalizing caller with
  | refl c => rfl
  | trans _ _ ih ih' => rw [ih, ih']
  | perm operator hperm =>
      cases operator with
      | and =>
          rw [AccessCondition.kleene, AccessCondition.kleene, kleeneEach_eq_map, kleeneEach_eq_map]
          exact Truth.all_perm (hperm.map _)
      | or =>
          rw [AccessCondition.kleene, AccessCondition.kleene, kleeneEach_eq_map, kleeneEach_eq_map]
          exact Truth.any_perm (hperm.map _)
  | branch operator before after _ ih =>
      cases operator with
      | and => simp [AccessCondition.kleene, kleeneEach_eq_map, ih caller]
      | or => simp [AccessCondition.kleene, kleeneEach_eq_map, ih caller]
  | not _ ih => rw [AccessCondition.kleene, AccessCondition.kleene, ih]
  | predecessor _ ih =>
      cases predecessor with
      | none => rfl
      | some account => exact ih account

/-! ## Completions -/

mutual

/-- A condition is monotone in what is known of its leaves and of the account that called. -/
theorem kleene_le (hask : ∀ q, ask q ≤ ask' q) (hpre : ∀ a, predecessor = some a → predecessor' = some a) :
    ∀ (c : AccessCondition) (caller : String), c.kleene ask predecessor caller ≤ c.kleene ask' predecessor' caller
  | .allowAll, _ => le_refl _
  | .whitelist _, _ => le_refl _
  | .accountPattern _, _ => hask _
  | .logic .and conditions, caller => Truth.all_le_all (kleeneEach_le hask hpre conditions caller)
  | .logic .or conditions, caller => Truth.any_le_any (kleeneEach_le hask hpre conditions caller)
  | .not condition, caller => Truth.not_le_not (kleene_le hask hpre condition caller)
  | .nearBalance _ _, _ => hask _
  | .ftBalance _ _ _, _ => hask _
  | .nftOwned _ _, _ => hask _
  | .daoMember _ _, _ => hask _
  | .validUntil _, _ => hask _
  | .wasmHash _, _ => hask _
  | .predecessor condition, _ => by
      cases hp : predecessor with
      | none => exact Truth.unknown_le _
      | some account =>
          rw [hpre account hp]
          have hinner := kleene_le hask hpre condition account
          rw [hp, hpre account hp] at hinner
          exact hinner

theorem kleeneEach_le (hask : ∀ q, ask q ≤ ask' q) (hpre : ∀ a, predecessor = some a → predecessor' = some a) :
    ∀ (cs : List AccessCondition) (caller : String),
      List.Forall₂ (· ≤ ·) (kleeneEach ask predecessor cs caller) (kleeneEach ask' predecessor' cs caller)
  | [], _ => .nil
  | c :: cs, caller => .cons (kleene_le hask hpre c caller) (kleeneEach_le hask hpre cs caller)

end

end Meaning

/-- The reads that failed may be answered; the others are as they were. -/
structure ChainReads.Completed (r r' : ChainReads) : Prop where
  nearBalance : ∀ account, Completes (r.getAccountBalance account) (r'.getAccountBalance account)
  ftBalance : ∀ contract account, Completes (r.getFtBalance contract account) (r'.getFtBalance contract account)
  nftOwned : ∀ contract account tokenId,
    Completes (r.checkNftOwnership contract account tokenId) (r'.checkNftOwnership contract account tokenId)
  daoMember : ∀ dao account role,
    Completes (r.checkDaoMembership dao account role) (r'.checkDaoMembership dao account role)

/-- `w'` is `w` with some of what it left open answered: reads that failed, or could not be made, and facts that were
    not reported. -/
structure World.Completed (w w' : World) : Prop where
  reads : ∀ r, w.nearClient = some r → ∃ r', w'.nearClient = some r' ∧ r.Completed r'
  patterns : w'.patterns = w.patterns
  build : ∀ h, w.facts.executedWasmSha256 = some h → w'.facts.executedWasmSha256 = some h
  predecessor : ∀ a, w.facts.predecessorId = some a → w'.facts.predecessorId = some a
  clock : ∀ n, w.clock = some n → w'.clock = some n

theorem toOption_of_completes {α : Type} {x y : Fallible α} (h : Completes x y) {a : α} (ha : x.toOption = some a) :
    y.toOption = some a := by
  cases x with
  | error e => cases ha
  | ok a' =>
      cases ha
      rw [h a rfl]
      rfl

/-- A completed world answers what it answered before. -/
theorem World.Completed.oracle_le {w w' : World} (h : w.Completed w') (q : Query) : w.oracle q ≤ w'.oracle q := by
  cases q with
  | accountPattern pattern account =>
      unfold World.oracle
      rw [h.patterns]
  | nearBalance account operator value =>
      refine Truth.ofOption_le fun b hb => ?_
      simp only [Option.bind_eq_bind, Option.bind_eq_some_iff] at hb ⊢
      obtain ⟨r, hr, required, hrequired, actual, hactual, hb⟩ := hb
      obtain ⟨r', hr', hreads⟩ := h.reads r hr
      exact ⟨r', hr', required, hrequired, actual, toOption_of_completes (hreads.nearBalance account) hactual, hb⟩
  | ftBalance contract account operator value =>
      refine Truth.ofOption_le fun b hb => ?_
      simp only [Option.bind_eq_bind, Option.bind_eq_some_iff] at hb ⊢
      obtain ⟨r, hr, required, hrequired, actual, hactual, hb⟩ := hb
      obtain ⟨r', hr', hreads⟩ := h.reads r hr
      exact ⟨r', hr', required, hrequired, actual, toOption_of_completes (hreads.ftBalance contract account) hactual,
        hb⟩
  | nftOwned contract account tokenId =>
      refine Truth.ofOption_le fun b hb => ?_
      simp only [Option.bind_eq_bind, Option.bind_eq_some_iff] at hb ⊢
      obtain ⟨r, hr, hb⟩ := hb
      obtain ⟨r', hr', hreads⟩ := h.reads r hr
      exact ⟨r', hr', toOption_of_completes (hreads.nftOwned contract account tokenId) hb⟩
  | daoMember dao account role =>
      refine Truth.ofOption_le fun b hb => ?_
      simp only [Option.bind_eq_bind, Option.bind_eq_some_iff] at hb ⊢
      obtain ⟨r, hr, hb⟩ := hb
      obtain ⟨r', hr', hreads⟩ := h.reads r hr
      exact ⟨r', hr', toOption_of_completes (hreads.daoMember dao account role) hb⟩
  | validUntil untilNs =>
      refine Truth.ofOption_le fun b hb => ?_
      simp only [Option.bind_eq_bind, Option.bind_eq_some_iff] at hb ⊢
      obtain ⟨now, hnow, hb⟩ := hb
      exact ⟨now, h.clock now hnow, hb⟩
  | wasmHash hash =>
      refine Truth.ofOption_le fun b hb => ?_
      rw [Option.map_eq_some_iff] at hb ⊢
      obtain ⟨executed, hexecuted, hb⟩ := hb
      exact ⟨executed, h.build executed hexecuted, hb⟩

/-! ## The chain behind the reads -/

section Chain
variable {c c' : NearClient}

theorem completes_context {α : Type} {o o' : Option α} {text : String} (h : ∀ a, o = some a → o' = some a) :
    Completes (context o text) (context o' text) := by
  cases o with
  | none => exact completes_error
  | some a =>
      rw [h a rfl]
      exact completes_refl _

theorem callFunction_completes (hcall : ∀ q a, c.call q = some a → c'.call q = some a) (contract : AccountId)
    (methodName : String) (args : Option Json.Value) (failed : String) :
    Completes (c.callFunction contract methodName args failed) (c'.callFunction contract methodName args failed) :=
  (completes_context (hcall _)).bind fun _ => completes_refl _

/-- **Queries that fail leave reads open.** A node that answers more queries completes the reads. -/
theorem NearClient.reads_completed (hcall : ∀ q a, c.call q = some a → c'.call q = some a)
    (hjson : c'.fromSlice = c.fromSlice) : c.reads.Completed c'.reads where
  nearBalance account := by
    refine (completes_refl _).bind fun _ => ?_
    exact (completes_context (hcall _)).bind fun _ => completes_refl _
  ftBalance contract account := by
    refine (completes_refl _).bind fun _ => (callFunction_completes hcall _ _ _ _).bind fun _ => ?_
    rw [hjson]
    exact completes_refl _
  nftOwned contract account tokenId := by
    refine (completes_refl _).bind fun _ => ?_
    cases tokenId with
    | none =>
        refine (callFunction_completes hcall _ _ _ _).bind fun _ => ?_
        rw [hjson]
        exact completes_refl _
    | some tokenId =>
        refine (callFunction_completes hcall _ _ _ _).bind fun _ => ?_
        rw [hjson]
        exact completes_refl _
  daoMember dao account role := by
    refine (completes_refl _).bind fun _ => (callFunction_completes hcall _ _ _ _).bind fun _ => ?_
    rw [hjson]
    exact completes_refl _

end Chain

/-! ## Verdicts -/

/-- **Three-valued logic.** The evaluator says of every condition what it means, and the order of its branches, at any
    depth, makes no difference to that. -/
theorem evaluate_kleene (w : World) (c : AccessCondition) (caller : String) :
    verdict (c.evaluate w caller) = c.kleene w.oracle w.facts.predecessorId caller ∧
      ∀ c', Rearranged c c' → verdict (c'.evaluate w caller) = verdict (c.evaluate w caller) := by
  refine ⟨verdict_evaluate w c caller, ?_⟩
  intro c' h
  rw [verdict_evaluate, verdict_evaluate, h.kleene]

/-- A node that answers no query, and one that answers every query with an empty account. -/
def silentNode : NearClient := ⟨fun _ => none, fun _ => none⟩
def emptyAccounts : NearClient := ⟨fun _ => some (.viewAccount 0), fun _ => none⟩

/-- A run of which nothing is known. -/
def unreported (node : NearClient) : World :=
  { nearClient := some node.reads, patterns := ∅, facts := {}, clock := none }

/-- Not on the list, and the build unknown: refused, whichever is written first. -/
theorem refused_in_either_order :
    verdict ((AccessCondition.logic .and [.wasmHash "00", .whitelist ["bob.near"]]).evaluate
      (unreported silentNode) "alice.near") = .no ∧
    verdict ((AccessCondition.logic .and [.whitelist ["bob.near"], .wasmHash "00"]).evaluate
      (unreported silentNode) "alice.near") = .no := by
  have hfirst : verdict ((AccessCondition.logic .and [.wasmHash "00", .whitelist ["bob.near"]]).evaluate
      (unreported silentNode) "alice.near") = .no := rfl
  have hsecond := (evaluate_kleene (unreported silentNode) (.logic .and [.wasmHash "00", .whitelist ["bob.near"]])
    "alice.near").2 _ (.perm .and (List.Perm.swap _ _ _))
  exact ⟨hfirst, hsecond.trans hfirst⟩

/-- **Unknown never decides.** A verdict stands in every completion of the world it was given in. -/
theorem verdict_stands {w w' : World} (h : w.Completed w') {c : AccessCondition} {caller : String} {b : Bool}
    (given : c.evaluate w caller = .ok b) : c.evaluate w' caller = .ok b := by
  refine verdict_le_iff.mp ?_ b given
  rw [verdict_evaluate, verdict_evaluate]
  exact kleene_le h.oracle_le h.predecessor c caller

/-- What the run of `unreported` left open, reported. -/
def reported (node : NearClient) : World :=
  { nearClient := some node.reads, patterns := ∅, facts := ⟨some "00", some "relay.near"⟩, clock := some 0 }

theorem reported_completed : (unreported silentNode).Completed (reported emptyAccounts) := by
  refine ⟨?_, rfl, nofun, nofun, nofun⟩
  intro r hr
  obtain rfl := Option.some.inj hr
  exact ⟨_, rfl, NearClient.reads_completed nofun rfl⟩

/-- Admitted by name while a balance could not be read and the caller was not reported, and after both were. -/
theorem admitted_by_name_before_and_after :
    (unreported silentNode).Completed (reported emptyAccounts) ∧
    (AccessCondition.logic .or
      [.nearBalance .gte "1", .not (.predecessor .allowAll), .whitelist ["alice.near"]]).evaluate
        (unreported silentNode) "alice.near" = .ok true ∧
    (AccessCondition.logic .or
      [.nearBalance .gte "1", .not (.predecessor .allowAll), .whitelist ["alice.near"]]).evaluate
        (reported emptyAccounts) "alice.near" = .ok true :=
  ⟨reported_completed, rfl, verdict_stands reported_completed rfl⟩

end Keystore
end Outlayer
