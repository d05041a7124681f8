import Outlayer.Keystore.Serving

/-!
# `Keystore.Correctness.Serving` — which requests are served under a vault's master

A master is in the table because some load put it there, and a load follows a check of the chain. Two things come
between that check and what is done with the master. An endpoint may not ask at all: re-encrypting and raw decryption
derive under whatever master they find. And a load takes its time: a check of another request may be denied, and evict,
before the master of the first arrives.
-/

namespace Outlayer
open Text Collections Runs

namespace Keystore
namespace Serving

variable {Master : Type}

/-- One step of the keystore. -/
abbrev Step (Master : Type) := Transition (State Master) (Event Master) (Output Master)

/-- The keystore when nothing has been asked of it. -/
def init (facts : AccountId → VaultFacts) : State Master := { facts }

/-! ## What a step does -/

/-- A step after which request `id` goes on as `r'`, and the masters it leaves. -/
inductive Advance (s : State Master) (id : Nat) (r : Running Master) :
    Event Master → Running Master → Output Master → LookupMap AccountId Master → Prop
  | ask {vault : AccountId} {rest : List Action} (hstage : r.stage = .idle)
      (htodo : r.todo = .ensureCustomerLoaded vault :: rest) :
      Advance s id r (.assertServingAllowed id)
        { r with todo := rest, stage := .gate { vault, speculative := s.loaded vault } } (.asked id vault) s.masters
  | viewVerified {g : Gate} {d : Delivery} (hstage : r.stage = .gate g) :
      Advance s id r (.viewVerified id d)
        { r with stage := .gate { g with verified := some (d.reply (s.facts g.vault).isVaultVerified) } } .running
        s.masters
  | viewState {g : Gate} {d : Delivery} (hstage : r.stage = .gate g) :
      Advance s id r (.viewState id d)
        { r with stage := .gate { g with state := some (d.reply (s.facts g.vault).unlocked) } } .running s.masters
  | pass {g : Gate} (hstage : r.stage = .gate g) (hverified : g.verified = some (.answer true))
      (hstate : g.state = some (.answer false)) :
      Advance s id r (.settle id) { r with stage := .load g.vault .passed } (.passed id g.vault) s.masters
  | present {vault : AccountId} {stage : LoadStage} (hstage : r.stage = .load vault stage) :
      Advance s id r (.hasCustomer id) { r with stage := .idle } .running s.masters
  | absent {vault : AccountId} {stage stage' : LoadStage} (hstage : r.stage = .load vault stage)
      (hnext : stage.absent = some stage') (habsent : s.masters.lookup vault = none) :
      Advance s id r (.hasCustomer id) { r with stage := .load vault stage' } .running s.masters
  | lock {vault : AccountId} (hstage : r.stage = .load vault .waiting) (hfree : s.locked vault = false) :
      Advance s id r (.lock id) { r with stage := .load vault .locked } .running s.masters
  | loaded {vault : AccountId} {master : Master} (hstage : r.stage = .load vault .requested) :
      Advance s id r (.mpcCkd id (some master)) { r with stage := .idle } (.loaded id vault)
        (s.masters.insert vault master)
  | derive {vault : AccountId} {rest : List Action} {master : Master} {more : Bool} (hstage : r.stage = .idle)
      (htodo : r.todo = .derive vault :: rest) (hmaster : s.masters.lookup vault = some master) :
      Advance s id r (.derive id more)
        { r with todo := if more then r.todo else rest, used := (vault, master) :: r.used } .running s.masters

/-- A step that ends request `id`, and the masters it leaves. -/
inductive Stops (s : State Master) (id : Nat) (r : Running Master) :
    Event Master → Output Master → LookupMap AccountId Master → Prop
  | denied {g : Gate} (hstage : r.stage = .gate g) :
      Stops s id r (.settle id) (.denied id g.vault) (s.masters.erase g.vault)
  | unsettled {g : Gate} : Stops s id r (.settle id) (.unsettled id g.vault) s.masters
  | failed {vault : AccountId} : Stops s id r (.mpcCkd id none) (.failed id vault) s.masters
  | notLoaded {vault : AccountId} {more : Bool} :
      Stops s id r (.derive id more) (.vaultMasterNotLoaded id vault) s.masters
  | answered : Stops s id r (.answer id) (.answered id r.used) s.masters
  | drop : Stops s id r (.drop id) .running s.masters

/-- What a step can do. -/
inductive Moves (s : State Master) : Event Master → State Master → Output Master → Prop
  | chainMoves (vault : AccountId) (facts : VaultFacts) :
      Moves s (.chainMoves vault facts) { s with facts := Function.update s.facts vault facts } .running
  | evictCustomer (vault : AccountId) :
      Moves s (.evictCustomer vault) { s with masters := s.masters.erase vault } .running
  | begin (q : Request) :
      Moves s (.begin q) { s.put s.nextId { request := q, todo := q.actions } with nextId := s.nextId + 1 }
        (.began s.nextId q)
  | advance {id : Nat} {r r' : Running Master} {e : Event Master} {o : Output Master}
      {masters : LookupMap AccountId Master} (hr : s.requests.lookup id = some r) (h : Advance s id r e r' o masters) :
      Moves s e { s.put id r' with masters } o
  | stop {id : Nat} {r : Running Master} {e : Event Master} {o : Output Master}
      {masters : LookupMap AccountId Master} (hr : s.requests.lookup id = some r) (h : Stops s id r e o masters) :
      Moves s e { s.stop id with masters } o

section Inversion
variable {r : Running Master}

theorem ensures_some {vault : AccountId} {rest : List Action} (h : r.ensures = some (vault, rest)) :
    r.stage = .idle ∧ r.todo = .ensureCustomerLoaded vault :: rest := by
  unfold Running.ensures at h
  split at h
  · next v l hstage htodo =>
      cases h
      exact ⟨hstage, htodo⟩
  · cases h

theorem derives_some {vault : AccountId} {rest : List Action} (h : r.derives = some (vault, rest)) :
    r.stage = .idle ∧ r.todo = .derive vault :: rest := by
  unfold Running.derives at h
  split at h
  · next v l hstage htodo =>
      cases h
      exact ⟨hstage, htodo⟩
  · cases h

theorem gate_some {g : Gate} (h : r.gate = some g) : r.stage = .gate g := by
  unfold Running.gate at h
  split at h
  · next g' hstage => rw [hstage, Option.some.inj h]
  · cases h

theorem load_some {vault : AccountId} {stage : LoadStage} (h : r.load = some (vault, stage)) :
    r.stage = .load vault stage := by
  unfold Running.load at h
  split at h
  · next v l hstage =>
      cases h
      exact hstage
  · cases h

theorem reply_answer {d : Delivery} {value value' : Bool} (h : d.reply value = .answer value') : value = value' := by
  cases d with
  | answered => exact Reply.answer.inj h
  | malformed => cases h
  | failed message => cases h

/-- A check is passed only on a registry that has the vault verified and a vault that is not unlocked. -/
theorem verdict_passed {g : Gate} (h : g.verdict = some .passed) :
    g.verified = some (.answer true) ∧ g.state = some (.answer false) := by
  unfold Gate.verdict at h
  split at h
  · cases h
  · split at h
    · cases h
    · next hverified =>
        obtain ⟨reply, hreply, hpassed⟩ := Option.map_eq_some_iff.mp h
        refine ⟨hverified, ?_⟩
        rw [hreply]
        cases reply with
        | answer unlocked =>
            cases unlocked with
            | false => rfl
            | true => cases hpassed
        | malformed => cases hpassed
        | failed message =>
            unfold stateVerdict at hpassed
            dsimp only at hpassed
            split at hpassed <;> cases hpassed
    · cases h
    · cases h

end Inversion

theorem moves_of_next {s s' : State Master} {e : Event Master} {o : Output Master} (h : next s e = some (s', o)) :
    Moves s e s' o := by
  cases e with
  | chainMoves vault facts =>
      cases h
      exact .chainMoves vault facts
  | evictCustomer vault =>
      cases h
      exact .evictCustomer vault
  | begin q =>
      cases h
      exact .begin q
  | assertServingAllowed id =>
      obtain ⟨r, hr, h⟩ := Option.bind_eq_some_iff.mp h
      obtain ⟨⟨vault, rest⟩, hensures, h⟩ := Option.bind_eq_some_iff.mp h
      obtain ⟨hstage, htodo⟩ := ensures_some hensures
      cases h
      exact .advance hr (.ask hstage htodo)
  | viewVerified id d =>
      obtain ⟨r, hr, h⟩ := Option.bind_eq_some_iff.mp h
      obtain ⟨g, hg, h⟩ := Option.bind_eq_some_iff.mp h
      obtain ⟨_, -, h⟩ := Option.bind_eq_some_iff.mp h
      cases h
      exact .advance hr (.viewVerified (gate_some hg))
  | viewState id d =>
      obtain ⟨r, hr, h⟩ := Option.bind_eq_some_iff.mp h
      obtain ⟨g, hg, h⟩ := Option.bind_eq_some_iff.mp h
      obtain ⟨_, -, h⟩ := Option.bind_eq_some_iff.mp h
      obtain ⟨_, -, h⟩ := Option.bind_eq_some_iff.mp h
      cases h
      exact .advance hr (.viewState (gate_some hg))
  | settle id =>
      obtain ⟨r, hr, h⟩ := Option.bind_eq_some_iff.mp h
      obtain ⟨g, hg, h⟩ := Option.bind_eq_some_iff.mp h
      obtain ⟨verdict, hverdict, h⟩ := Option.bind_eq_some_iff.mp h
      cases verdict with
      | passed =>
          obtain ⟨hverified, hstate⟩ := verdict_passed hverdict
          cases h
          exact .advance hr (.pass (gate_some hg) hverified hstate)
      | denied =>
          cases h
          exact .stop hr (.denied (gate_some hg))
      | error =>
          cases h
          exact .stop hr .unsettled
  | hasCustomer id =>
      obtain ⟨r, hr, h⟩ := Option.bind_eq_some_iff.mp h
      obtain ⟨⟨vault, stage⟩, hload, h⟩ := Option.bind_eq_some_iff.mp h
      obtain ⟨stage', hstage', h⟩ := Option.bind_eq_some_iff.mp h
      split at h
      · cases h
        exact .advance hr (.present (load_some hload))
      · next habsent =>
          cases h
          refine .advance hr (.absent (load_some hload) hstage' ?_)
          simpa [State.loaded] using habsent
  | lock id =>
      obtain ⟨r, hr, h⟩ := Option.bind_eq_some_iff.mp h
      obtain ⟨⟨vault, stage⟩, hload, h⟩ := Option.bind_eq_some_iff.mp h
      obtain ⟨_, hguard, hstep⟩ := Option.bind_eq_some_iff.mp h
      obtain ⟨rfl, hfree⟩ : stage = .waiting ∧ s.locked vault = false := by
        by_contra hnot
        rw [guard, if_neg hnot] at hguard
        cases hguard
      cases hstep
      exact .advance hr (.lock (load_some hload) hfree)
  | mpcCkd id answer =>
      obtain ⟨r, hr, h⟩ := Option.bind_eq_some_iff.mp h
      obtain ⟨⟨vault, stage⟩, hload, h⟩ := Option.bind_eq_some_iff.mp h
      obtain ⟨_, hguard, hstep⟩ := Option.bind_eq_some_iff.mp h
      obtain rfl : stage = .requested := by
        by_contra hnot
        rw [guard, if_neg hnot] at hguard
        cases hguard
      cases answer with
      | some master =>
          cases hstep
          exact .advance hr (.loaded (load_some hload))
      | none =>
          cases hstep
          exact .stop hr .failed
  | derive id more =>
      obtain ⟨r, hr, h⟩ := Option.bind_eq_some_iff.mp h
      obtain ⟨⟨vault, rest⟩, hderives, h⟩ := Option.bind_eq_some_iff.mp h
      obtain ⟨hstage, htodo⟩ := derives_some hderives
      dsimp only at h
      split at h
      · next master hmaster =>
          cases h
          exact .advance hr (.derive hstage htodo hmaster)
      · cases h
        exact .stop hr .notLoaded
  | answer id =>
      obtain ⟨r, hr, h⟩ := Option.bind_eq_some_iff.mp h
      obtain ⟨_, -, h⟩ := Option.bind_eq_some_iff.mp h
      cases h
      exact .stop hr .answered
  | drop id =>
      obtain ⟨r, hr, h⟩ := Option.bind_eq_some_iff.mp h
      cases h
      exact .stop hr .drop

/-- The endpoints that do not ask the chain. -/
def Endpoint.skipsGate : Endpoint → Bool
  | .encrypt    => true
  | .decryptRaw => true
  | _           => false

/-- Every derivation is under a vault seen before, or asked about before it. -/
def Covered (seen : List AccountId) : List Action → Prop
  | []                                  => True
  | .ensureCustomerLoaded vault :: rest => Covered (vault :: seen) rest
  | .derive vault :: rest               => vault ∈ seen ∧ Covered seen rest

/-- Request `id` passed the check of a vault, having read that the registry has it verified and that it is not
    unlocked. -/
structure PassedGate (tr : List (Step Master)) (id : Nat) (vault : AccountId) : Prop where
  verified : ∃ t ∈ tr, ∃ d, t.event = .viewVerified id d ∧ (t.pre.facts vault).isVaultVerified = true
  servable : ∃ t ∈ tr, ∃ d, t.event = .viewState id d ∧ (t.pre.facts vault).unlocked = false
  passed : ∃ t ∈ tr, t.out = .passed id vault

theorem PassedGate.append {tr : List (Step Master)} {id : Nat} {vault : AccountId} (h : PassedGate tr id vault)
    (t : Step Master) : PassedGate (tr ++ [t]) id vault := by
  obtain ⟨⟨u, hu, hverified⟩, ⟨v, hv, hservable⟩, w, hw, hpassed⟩ := h
  exact ⟨⟨u, List.mem_append_left _ hu, hverified⟩, ⟨v, List.mem_append_left _ hv, hservable⟩, w,
    List.mem_append_left _ hw, hpassed⟩

/-- What a check under way has read, it has read of the chain. -/
structure Read (tr : List (Step Master)) (id : Nat) (g : Gate) : Prop where
  verified : g.verified = some (.answer true) →
    ∃ t ∈ tr, ∃ d, t.event = .viewVerified id d ∧ (t.pre.facts g.vault).isVaultVerified = true
  servable : g.state = some (.answer false) →
    ∃ t ∈ tr, ∃ d, t.event = .viewState id d ∧ (t.pre.facts g.vault).unlocked = false

theorem Read.append {tr : List (Step Master)} {id : Nat} {g : Gate} (h : Read tr id g) (t : Step Master) :
    Read (tr ++ [t]) id g where
  verified hg := (h.verified hg).imp fun _ hu => ⟨List.mem_append_left _ hu.1, hu.2⟩
  servable hg := (h.servable hg).imp fun _ hu => ⟨List.mem_append_left _ hu.1, hu.2⟩

/-- The vault a check under way is about. -/
def Stage.pending : Stage → List AccountId
  | .gate g => [g.vault]
  | _       => []

/-- What a request in progress has done since it began. -/
structure Follows (tr : List (Step Master)) (id : Nat) (r : Running Master) : Prop where
  covered : r.request.endpoint.skipsGate = false →
    ∃ seen, Covered (r.stage.pending ++ seen) r.todo ∧ ∀ v ∈ seen, PassedGate tr id v
  used : ∀ p ∈ r.used, PassedGate tr id p.1
  read : ∀ g, r.stage = .gate g → Read tr id g

theorem Follows.append {tr : List (Step Master)} {id : Nat} {r : Running Master} (h : Follows tr id r)
    (t : Step Master) : Follows (tr ++ [t]) id r where
  covered hgate := (h.covered hgate).imp fun _ hseen => ⟨hseen.1, fun v hv => (hseen.2 v hv).append t⟩
  used p hp := (h.used p hp).append t
  read g hg := (h.read g hg).append t

/-- The request that derives a key in a step. -/
def Event.deriver : Event Master → Option Nat
  | .derive id _ => some id
  | _            => none

/-- A request that skips the gate finds no master where it derives. -/
def FindsNone (t : Step Master) : Prop :=
  ∀ id ∈ t.event.deriver, ∀ r ∈ t.pre.requests.lookup id, r.request.endpoint.skipsGate = true →
    ∀ p ∈ r.derives, t.pre.masters.lookup p.1 = none

instance (t : Step Master) : Decidable (FindsNone t) :=
  inferInstanceAs (Decidable (∀ id ∈ t.event.deriver, ∀ r ∈ t.pre.requests.lookup id,
    r.request.endpoint.skipsGate = true → ∀ p ∈ r.derives, t.pre.masters.lookup p.1 = none))

theorem Follows.advance {tr : List (Step Master)} {t : Step Master} {id : Nat} {r r' : Running Master}
    {masters : LookupMap AccountId Master} (hC : FindsNone t) (hr : t.pre.requests.lookup id = some r)
    (hadv : Advance t.pre id r t.event r' t.out masters) (h : Follows tr id r) : Follows (tr ++ [t]) id r' := by
  obtain ⟨pre, e, o, post⟩ := t
  have hlast : ∀ {P : Step Master → Prop}, P ⟨pre, e, o, post⟩ → ∃ u ∈ tr ++ [⟨pre, e, o, post⟩], P u :=
    fun hP => ⟨_, by simp, hP⟩
  have h' := h.append ⟨pre, e, o, post⟩
  -- a request that does not move its vault or derive keeps what it has
  have hkeep : ∀ {stage : Stage}, r.stage.pending = [] → stage.pending = [] → (∀ g, stage ≠ .gate g) →
      Follows (tr ++ [⟨pre, e, o, post⟩]) id { r with stage } := by
    intro stage hold hnew hgate
    refine ⟨?_, h'.used, fun g hg => absurd hg (hgate g)⟩
    intro hskips
    obtain ⟨seen, hcovered, hpassed⟩ := h'.covered hskips
    rw [hold] at hcovered
    exact ⟨seen, by rw [hnew]; exact hcovered, hpassed⟩
  have hread : ∀ {g : Gate}, r.stage = .gate g → ∀ {g' : Gate}, g'.vault = g.vault →
      Read (tr ++ [⟨pre, e, o, post⟩]) id g' → Follows (tr ++ [⟨pre, e, o, post⟩]) id { r with stage := .gate g' } := by
    intro g hstage g' hvault hg'
    refine ⟨?_, h'.used, ?_⟩
    · intro hskips
      obtain ⟨seen, hcovered, hpassed⟩ := h'.covered hskips
      rw [hstage] at hcovered
      exact ⟨seen, by simpa only [Stage.pending, hvault] using hcovered, hpassed⟩
    · intro g'' hg''
      cases hg''
      exact hg'
  cases hadv with
  | @ask vault rest hstage htodo =>
      refine ⟨?_, h'.used, ?_⟩
      · intro hskips
        obtain ⟨seen, hcovered, hpassed⟩ := h'.covered hskips
        rw [hstage, htodo] at hcovered
        exact ⟨seen, hcovered, hpassed⟩
      · intro g hg
        cases hg
        exact ⟨fun hnone => absurd hnone (by simp), fun hnone => absurd hnone (by simp)⟩
  | @viewVerified g d hstage =>
      refine hread hstage rfl ⟨?_, (h'.read g hstage).servable⟩
      intro hverified
      exact hlast ⟨d, rfl, reply_answer (Option.some.inj hverified)⟩
  | @viewState g d hstage =>
      refine hread hstage rfl ⟨(h'.read g hstage).verified, ?_⟩
      intro hstate
      exact hlast ⟨d, rfl, reply_answer (Option.some.inj hstate)⟩
  | @pass g hstage hverified hstate =>
      refine ⟨?_, h'.used, ?_⟩
      · intro hskips
        obtain ⟨seen, hcovered, hpassed⟩ := h'.covered hskips
        rw [hstage] at hcovered
        refine ⟨g.vault :: seen, hcovered, ?_⟩
        intro v hv
        rcases List.mem_cons.mp hv with rfl | hv
        · have hg := h'.read g hstage
          exact ⟨hg.verified hverified, hg.servable hstate, hlast rfl⟩
        · exact hpassed v hv
      · intro g' hg'
        cases hg'
  | present hstage => exact hkeep (by rw [hstage]; rfl) rfl (by simp)
  | absent hstage hnext habsent => exact hkeep (by rw [hstage]; rfl) rfl (by simp)
  | lock hstage hfree => exact hkeep (by rw [hstage]; rfl) rfl (by simp)
  | loaded hstage => exact hkeep (by rw [hstage]; rfl) rfl (by simp)
  | @derive vault rest master more hstage htodo hmaster =>
      have hskips : r.request.endpoint.skipsGate = false := by
        by_contra hskips
        have hderives : r.derives = some (vault, rest) := by rw [Running.derives, hstage, htodo]
        have hnone := hC id rfl r hr (by simpa using hskips) _ hderives
        rw [hmaster] at hnone
        cases hnone
      obtain ⟨seen, hcovered, hpassed⟩ := h'.covered hskips
      have hcovered' := hcovered
      rw [hstage, htodo] at hcovered'
      obtain ⟨hseen, hrest⟩ := hcovered'
      refine ⟨?_, ?_, ?_⟩
      · intro _
        refine ⟨seen, ?_, hpassed⟩
        cases more with
        | false =>
            show Covered (r.stage.pending ++ seen) rest
            rw [hstage]
            exact hrest
        | true => exact hcovered
      · intro p hp
        rcases List.mem_cons.mp hp with rfl | hp
        · exact hpassed _ hseen
        · exact h'.used p hp
      · intro g hg
        rw [hstage] at hg
        cases hg

/-- A request and what it has done since it began, in a whole history. -/
def Tracked (tr : List (Step Master)) (id : Nat) (r : Running Master) : Prop :=
  ∃ before began since, tr = before ++ began :: since ∧ began.out = .began id r.request ∧ Follows since id r

/-- The check of a vault that request `id` began last: the steps since, of which none begins it again. -/
def Since (tr : List (Step Master)) (id : Nat) (vault : AccountId) (since : List (Step Master)) : Prop :=
  ∃ before asked, tr = before ++ asked :: since ∧ asked.out = .asked id vault ∧ ∀ t ∈ since, t.out ≠ .asked id vault

theorem Since.append {tr since : List (Step Master)} {id : Nat} {vault : AccountId} (h : Since tr id vault since)
    {t : Step Master} (ht : t.out ≠ .asked id vault) : Since (tr ++ [t]) id vault (since ++ [t]) := by
  obtain ⟨before, asked, rfl, hasked, hsince⟩ := h
  refine ⟨before, asked, by simp, hasked, ?_⟩
  intro u hu
  rcases List.mem_append.mp hu with hu | hu
  · exact hsince u hu
  · rw [List.mem_singleton.mp hu]
    exact ht

/-- A check under way, or a load, goes back to where its check began; a load's was passed since. -/
structure Checked (tr : List (Step Master)) (id : Nat) (r : Running Master) : Prop where
  gate : ∀ g, r.stage = .gate g → ∃ since, Since tr id g.vault since
  load : ∀ vault stage, r.stage = .load vault stage →
    ∃ since, Since tr id vault since ∧ ∃ t ∈ since, t.out = .passed id vault

theorem Checked.append {tr : List (Step Master)} {id : Nat} {r : Running Master} (h : Checked tr id r) {t : Step Master}
    (ht : ∀ vault, t.out ≠ .asked id vault) : Checked (tr ++ [t]) id r where
  gate g hg := by
    obtain ⟨since, hsince⟩ := h.gate g hg
    exact ⟨_, hsince.append (ht _)⟩
  load vault stage hstage := by
    obtain ⟨since, hsince, u, hu, hpassed⟩ := h.load vault stage hstage
    exact ⟨_, hsince.append (ht _), u, List.mem_append_left _ hu, hpassed⟩

/-- A vault's account. -/
def vaultAccount : AccountId := ⟨"v1.outlayer.near", by decide⟩

end Serving
end Keystore
end Outlayer
