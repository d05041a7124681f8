import Outlayer.Keystore.NearClient
import Outlayer.Lib.Collections

/-!
# `Keystore.Access` — access conditions, and the evaluator the keystore judges them with

A condition is a tree: leaves that name the caller, ask the chain, the clock or the run, and connectives over them. The
evaluator walks it in order. A branch that cannot be judged does not end the walk: `And` stops at the first branch
that refuses, `Or` at the first that admits, and the first failure is reported only where nothing settled the matter.

Three passes over a condition stand beside the evaluator, none of which reads the chain. Two are asked of a condition
that admitted: whether it admitted the caller by name, and, on the way to that, what it says as far as it can be judged
without the chain. One is asked of a condition that refused: whether a build is what refused.
-/

namespace Outlayer
open Collections

namespace Keystore

/-- A condition as the keystore reads it from the chain: amounts, times and accounts are texts. -/
inductive AccessCondition
  | logic (operator : LogicOperator) (conditions : List AccessCondition)
  | not (condition : AccessCondition)
  | allowAll
  | whitelist (accounts : List String)
  | accountPattern (pattern : String)
  | nearBalance (operator : ComparisonOperator) (value : String)
  | ftBalance (contract : String) (operator : ComparisonOperator) (value : String)
  | nftOwned (contract : String) (tokenId : Option String)
  | daoMember (daoContract role : String)
  | validUntil (untilNs : String)
  | wasmHash (hash : String)
  | predecessor (condition : AccessCondition)

/-- What the worker reported about the run. -/
structure RunFacts where
  executedWasmSha256 : Option String := none
  predecessorId : Option String := none

/-- A compiled pattern, by what it matches. -/
structure Regex where
  isMatch : String → Bool

/-- The patterns of a condition, compiled, by their text. -/
abbrev CompiledPatterns := LookupMap String Regex

/-- What a condition is judged against: the chain, if there is a client for it, the patterns, the facts of the run, and
    the clock, in nanoseconds since the epoch unless it reads before it. One evaluation sees one world: a read asked
    twice is answered alike, and the clock does not move between two leaves. -/
structure World where
  nearClient : Option ChainReads
  patterns : CompiledPatterns
  facts : RunFacts
  clock : Option Nat

/-- The comparison a condition names, of what the chain holds with what it requires. -/
def compareValues (actual : Nat) (operator : ComparisonOperator) (required : Nat) : Bool :=
  match operator with
  | .gte => decide (actual ≥ required)
  | .lte => decide (actual ≤ required)
  | .gt  => decide (actual > required)
  | .lt  => decide (actual < required)
  | .eq  => decide (actual = required)
  | .ne  => decide (actual ≠ required)

/-- The host's clock in nanoseconds, capped at 64 bits. -/
def nowNs (w : World) : Fallible Nat := do
  let sinceEpoch ← context w.clock "the host clock reads before the epoch; no time limit can be judged"
  .ok (min sinceEpoch (2 ^ 64 - 1))

/-- Whether a limit, written in digits, lies after a time. -/
def validUntilAt (untilNs : String) (now : Nat) : Fallible Bool := do
  let limit ← orFail (Text.parseUnsigned 64 untilNs) (.invalidLimit untilNs)
  .ok (decide (now < limit))

/-- The client, for a leaf that needs one. -/
def clientFor (w : World) (leaf : String) : Fallible ChainReads :=
  context w.nearClient (leaf ++ " cannot be evaluated: this keystore has no NEAR client configured")

/-- The first failure is the one to report. -/
def firstOf (unknown : Option Failure) (e : Failure) : Option Failure :=
  match unknown with
  | some e' => some e'
  | none    => some e

mutual

/-- Whether a condition admits a caller, asking the chain for what it names. -/
def AccessCondition.evaluate (w : World) : AccessCondition → (caller : String) → Fallible Bool
  | .allowAll, _ => .ok true
  | .whitelist accounts, caller => .ok (accounts.any fun account => account == caller)
  | .accountPattern pattern, caller => do
      let re ← context (w.patterns.lookup pattern) "AccountPattern was not compiled before evaluation"
      .ok (re.isMatch caller)
  | .logic .and conditions, caller => evaluateAnd w conditions caller none
  | .logic .or conditions, caller => evaluateOr w conditions caller none
  | .not condition, caller => do
      let result ← condition.evaluate w caller
      .ok (!result)
  | .nearBalance operator value, caller => do
      let client ← clientFor w "NearBalance"
      let required ← orFail (Text.parseUnsigned 128 value) (.invalidBalance value)
      let actual ← client.getAccountBalance caller
      .ok (compareValues actual operator required)
  | .ftBalance contract operator value, caller => do
      let client ← clientFor w "FtBalance"
      let required ← orFail (Text.parseUnsigned 128 value) (.invalidBalance value)
      let actual ← client.getFtBalance contract caller
      .ok (compareValues actual operator required)
  | .nftOwned contract tokenId, caller => do
      let client ← clientFor w "NftOwned"
      client.checkNftOwnership contract caller tokenId
  | .daoMember daoContract role, caller => do
      let client ← clientFor w "DaoMember"
      client.checkDaoMembership daoContract caller role
  | .validUntil untilNs, _ => do
      let now ← nowNs w
      validUntilAt untilNs now
  | .wasmHash hash, _ =>
      match w.facts.executedWasmSha256 with
      | some executed => .ok (Text.eqIgnoreAsciiCase executed hash)
      | none => .error (.message
          "the condition admits one build, but this request reports no executing wasm hash")
  | .predecessor condition, _ =>
      -- the same facts: a `Predecessor` inside judges the same account again
      match w.facts.predecessorId with
      | some predecessor => condition.evaluate w predecessor
      | none => .error (.message
          "the condition is judged on the account that called the contract, but this request reports none")

/-- The loop over the branches of an `And`, with the first failure so far. -/
def evaluateAnd (w : World) : List AccessCondition → (caller : String) → (unknown : Option Failure) → Fallible Bool
  | [], _, some e => .error e
  | [], _, none => .ok true
  | condition :: conditions, caller, unknown =>
      match condition.evaluate w caller with
      | .ok true  => evaluateAnd w conditions caller unknown
      | .ok false => .ok false
      | .error e  => evaluateAnd w conditions caller (firstOf unknown e)

/-- The loop over the branches of an `Or`. -/
def evaluateOr (w : World) : List AccessCondition → (caller : String) → (unknown : Option Failure) → Fallible Bool
  | [], _, some e => .error e
  | [], _, none => .ok false
  | condition :: conditions, caller, unknown =>
      match condition.evaluate w caller with
      | .ok true  => .ok true
      | .ok false => evaluateOr w conditions caller unknown
      | .error e  => evaluateOr w conditions caller (firstOf unknown e)

end

/-! ## Without the chain -/

section Walks
variable (caller : String) (now : Nat) (patterns : CompiledPatterns) (facts : RunFacts)

mutual

/-- The verdict of a condition where it can be read without the chain. -/
def AccessCondition.holdsWithoutTheChain : AccessCondition → Option Bool
  | .allowAll => some true
  | .whitelist accounts => some (accounts.any fun account => account == caller)
  | .accountPattern pattern => (patterns.lookup pattern).map fun re => re.isMatch caller
  | .validUntil untilNs => (Text.parseUnsigned 64 untilNs).map fun limit => decide (now < limit)
  | .wasmHash hash => facts.executedWasmSha256.map fun executed => Text.eqIgnoreAsciiCase executed hash
  | .not condition => condition.holdsWithoutTheChain.map fun held => !held
  | .logic .and conditions =>
      let verdicts := eachWithoutTheChain conditions
      if some false ∈ verdicts then some false
      else if none ∈ verdicts then none
      else some true
  | .logic .or conditions =>
      let verdicts := eachWithoutTheChain conditions
      if some true ∈ verdicts then some true
      else if none ∈ verdicts then none
      else some false
  | .nearBalance _ _ => none
  | .ftBalance _ _ _ => none
  | .nftOwned _ _ => none
  | .daoMember _ _ => none
  | .predecessor _ => none

/-- What each condition of a list says before the chain is asked. -/
def eachWithoutTheChain : List AccessCondition → List (Option Bool)
  | [] => []
  | condition :: conditions => condition.holdsWithoutTheChain :: eachWithoutTheChain conditions

end

/-! ## Admission by name -/

mutual

/-- Whether a list that names the caller is on a path that let them in; `knownToHold` says whether the condition is
    known to have admitted. -/
def AccessCondition.namesOnAnAdmittingPath (knownToHold : Bool) : AccessCondition → Bool
  | .whitelist accounts => accounts.any fun account => account == caller
  | .logic .and conditions => namedAmong knownToHold [] conditions
  | .logic .or conditions => namedInOneOf conditions
  | _ => false

/-- Some branch of an `And` names the caller, and the others hold; `before` are the branches passed already. -/
def namedAmong (knownToHold : Bool) (before : List AccessCondition) : List AccessCondition → Bool
  | [] => false
  | named :: after =>
      (named.namesOnAnAdmittingPath knownToHold &&
        (knownToHold ||
          (before ++ after).all fun c => c.holdsWithoutTheChain caller now patterns facts == some true)) ||
      namedAmong knownToHold (before ++ [named]) after

/-- Of a single branch of an `Or` nothing is known. -/
def namedInOneOf : List AccessCondition → Bool
  | [] => false
  | condition :: conditions => condition.namesOnAnAdmittingPath false || namedInOneOf conditions

end

/-- Whether a condition that admitted `caller` admitted them by name. -/
def AccessCondition.admitsByName (c : AccessCondition) : Bool :=
  c.namesOnAnAdmittingPath caller now patterns facts true

end Walks

/-! ## A build that refuses -/

/-- Why a build refused a run. -/
inductive BuildRefusal
  | lockedTo (hash : String)
  | refuses
deriving DecidableEq

mutual

/-- Why a condition refuses the build that was executed, when it does. -/
def AccessCondition.buildRefusal (executedWasmSha256 : Option String) (c : AccessCondition) : Option BuildRefusal :=
  match executedWasmSha256, c with
  -- nothing to say about a build when the request named none
  | none, _ => none
  | some executed, .wasmHash hash => if Text.eqIgnoreAsciiCase executed hash then none else some (.lockedTo hash)
  | some executed, .not (.wasmHash hash) => if Text.eqIgnoreAsciiCase executed hash then some .refuses else none
  | some executed, .logic .and conditions => firstRefusal (some executed) conditions
  | some executed, .logic .or conditions => everyRefusal (some executed) none conditions
  | some _, _ => none

/-- The first branch of an `And` that a build refused. -/
def firstRefusal (executedWasmSha256 : Option String) : List AccessCondition → Option BuildRefusal
  | [] => none
  | condition :: conditions =>
      (condition.buildRefusal executedWasmSha256).or (firstRefusal executedWasmSha256 conditions)

/-- The loop over the branches of an `Or`: a build refused every one of them. -/
def everyRefusal (executedWasmSha256 : Option String) (first : Option BuildRefusal) :
    List AccessCondition → Option BuildRefusal
  | [] => first
  | condition :: conditions =>
      match condition.buildRefusal executedWasmSha256 with
      | none         => none
      | some refusal => everyRefusal executedWasmSha256 (first.or (some refusal)) conditions

end

end Keystore
end Outlayer
