import Outlayer.Keystore.KeyCache

/-!
# `Keystore.Correctness.KeyCache` — the cache never outlives the master

A cached key may be stale only between the two sections of a call that changes the master: `Coherent` says so of every
reachable state. The guard a derivation holds from the table to the cache carries it, for nobody changes the table in
between. Once an eviction's first section has run, its customer has no master until one is added, so nothing fills the
cache for it; the second section then empties it for good.
-/

namespace Outlayer
open Collections Runs

namespace Keystore
namespace KeyCache

section Cache
variable {Master KeyPair : Type} {derive : Master → String → KeyPair} {s s' : State Master KeyPair}
  {e : Event Master} {out : Output Master KeyPair}

/-! ## What a section does -/

/-- The sections, one constructor for each way one can go. -/
inductive Moves (derive : Master → String → KeyPair) (s : State Master KeyPair) :
    Event Master → State Master KeyPair → Output Master KeyPair → Prop
  | addCustomer (id : Nat) (customer : AccountId) (master : Master) (free : s.guarded = false)
      (fresh : s.calls.lookup id = none) :
      Moves derive s (.addCustomer id customer master)
        { s with
          masters := s.masters.insert customer master
          calls := s.calls.insert id (.addCustomer customer) } .running
  | evictCustomer (id : Nat) (customer : AccountId) (free : s.guarded = false)
      (fresh : s.calls.lookup id = none) :
      Moves derive s (.evictCustomer id customer)
        { s with
          masters := s.masters.erase customer
          calls := s.calls.insert id (.evictCustomer customer) } .running
  | purge (id : Nat) (call : Call KeyPair) (customer : AccountId) (running : s.calls.lookup id = some call)
      (purges : call.purges = some customer) :
      Moves derive s (.evictCustomerCache id)
        { s with
          keypairCache := dropCached customer s.keypairCache
          calls := s.calls.erase id } .returned
  | hit (id : Nat) (customer : Option AccountId) (seed : String) (keypair : KeyPair)
      (cached : s.keypairCache.lookup (customer, seed) = some keypair) :
      Moves derive s (.readCache id customer seed) s (.keypair customer seed keypair)
  | miss (id : Nat) (customer : Option AccountId) (seed : String) (fresh : s.calls.lookup id = none) :
      Moves derive s (.readCache id customer seed)
        { s with calls := s.calls.insert id (.missed customer seed) } .running
  | derive (id : Nat) (customer : Option AccountId) (seed : String) (master : Master)
      (running : s.calls.lookup id = some (.missed customer seed)) (loaded : s.masterFor customer = .ok master) :
      Moves derive s (.readMaster id)
        { s with calls := s.calls.insert id (.derived customer seed (derive master seed)) } .running
  | refuse (id : Nat) (customer : Option AccountId) (seed : String) (missing : AccountId)
      (running : s.calls.lookup id = some (.missed customer seed)) (gone : s.masterFor customer = .error missing) :
      Moves derive s (.readMaster id) { s with calls := s.calls.erase id } (.vaultMasterNotLoaded missing)
  | fill (id : Nat) (customer : Option AccountId) (seed : String) (keypair : KeyPair)
      (running : s.calls.lookup id = some (.derived customer seed keypair)) :
      Moves derive s (.fillCache id)
        { s with
          keypairCache := s.keypairCache.insert (customer, seed) keypair
          calls := s.calls.erase id } (.keypair customer seed keypair)
  | master (customer : Option AccountId) (master : Master) (loaded : s.masterFor customer = .ok master) :
      Moves derive s (.masterFor customer) s (.master customer master)
  | noMaster (customer : Option AccountId) (missing : AccountId) (gone : s.masterFor customer = .error missing) :
      Moves derive s (.masterFor customer) s (.vaultMasterNotLoaded missing)

theorem begin_some {id : Nat} {call : Call KeyPair} (h : s.begin id call = some s') :
    s.calls.lookup id = none ∧ s' = { s with calls := s.calls.insert id call } := by
  unfold State.begin at h
  split at h
  · cases h
  · next hfresh => exact ⟨by simpa using hfresh, (Option.some.inj h).symm⟩

theorem moves_of_next (h : next derive s e = some (s', out)) : Moves derive s e s' out := by
  cases e with
  | addCustomer id customer master =>
      obtain ⟨u, hfree, h⟩ := Option.bind_eq_some_iff.mp h
      obtain ⟨s₁, hbegin, h⟩ := Option.bind_eq_some_iff.mp h
      obtain ⟨hfresh, rfl⟩ := begin_some hbegin
      obtain ⟨rfl, rfl⟩ := Prod.mk.inj (Option.some.inj h)
      exact .addCustomer id customer master (by simpa using hfree) hfresh
  | evictCustomer id customer =>
      obtain ⟨u, hfree, h⟩ := Option.bind_eq_some_iff.mp h
      obtain ⟨s₁, hbegin, h⟩ := Option.bind_eq_some_iff.mp h
      obtain ⟨hfresh, rfl⟩ := begin_some hbegin
      obtain ⟨rfl, rfl⟩ := Prod.mk.inj (Option.some.inj h)
      exact .evictCustomer id customer (by simpa using hfree) hfresh
  | evictCustomerCache id =>
      obtain ⟨call, hcall, h⟩ := Option.bind_eq_some_iff.mp h
      obtain ⟨customer, hpurges, h⟩ := Option.bind_eq_some_iff.mp h
      obtain ⟨rfl, rfl⟩ := Prod.mk.inj (Option.some.inj h)
      exact .purge id call customer hcall hpurges
  | readCache id customer seed =>
      dsimp only [next] at h
      split at h
      · next keypair hcached =>
          obtain ⟨rfl, rfl⟩ := Prod.mk.inj (Option.some.inj h)
          exact .hit id customer seed keypair hcached
      · obtain ⟨s₁, hbegin, h⟩ := Option.bind_eq_some_iff.mp h
        obtain ⟨hfresh, rfl⟩ := begin_some hbegin
        obtain ⟨rfl, rfl⟩ := Prod.mk.inj (Option.some.inj h)
        exact .miss id customer seed hfresh
  | readMaster id =>
      dsimp only [next] at h
      split at h
      · next customer seed hcall =>
          split at h
          · next master hmaster =>
              obtain ⟨rfl, rfl⟩ := Prod.mk.inj (Option.some.inj h)
              exact .derive id customer seed master hcall hmaster
          · next missing hmissing =>
              obtain ⟨rfl, rfl⟩ := Prod.mk.inj (Option.some.inj h)
              exact .refuse id customer seed missing hcall hmissing
      · cases h
  | fillCache id =>
      dsimp only [next] at h
      split at h
      · next customer seed keypair hcall =>
          obtain ⟨rfl, rfl⟩ := Prod.mk.inj (Option.some.inj h)
          exact .fill id customer seed keypair hcall
      · cases h
  | masterFor customer =>
      dsimp only [next] at h
      split at h
      · next master hmaster =>
          obtain ⟨rfl, rfl⟩ := Prod.mk.inj (Option.some.inj h)
          exact .master customer master hmaster
      · next missing hmissing =>
          obtain ⟨rfl, rfl⟩ := Prod.mk.inj (Option.some.inj h)
          exact .noMaster customer missing hmissing

/-! ## Coherence -/

/-- The key pair is the one derived from the customer's current master. -/
def Fresh (derive : Master → String → KeyPair) (s : State Master KeyPair) (customer : Option AccountId)
    (seed : String) (keypair : KeyPair) : Prop :=
  ∃ master, s.masterFor customer = .ok master ∧ keypair = derive master seed

/-- Some call has changed the master of a customer and not yet dropped the cached keys. -/
def Purging (s : State Master KeyPair) (customer : AccountId) : Prop :=
  ∃ id call, s.calls.lookup id = some call ∧ call.purges = some customer

/-- A cached key is its customer's current one, unless a call is between its sections for that customer. A key that is
    derived and not cached yet is the current one. -/
structure Coherent (derive : Master → String → KeyPair) (s : State Master KeyPair) : Prop where
  cached : ∀ customer seed keypair, s.keypairCache.lookup (customer, seed) = some keypair →
    Fresh derive s customer seed keypair ∨ ∃ named, customer = some named ∧ Purging s named
  held : ∀ id customer seed keypair, s.calls.lookup id = some (.derived customer seed keypair) →
    Fresh derive s customer seed keypair

theorem not_holds_of_free (h : s.guarded = false) {id : Nat} {call : Call KeyPair}
    (hcall : s.calls.lookup id = some call) : call.holdsMasters = false := by
  have hall := List.any_eq_false.mp h ⟨id, call⟩ (LookupMap.mem_entries_iff.mpr hcall)
  simpa using hall

theorem masterFor_none (s : State Master KeyPair) : s.masterFor none = .ok s.defaultMaster := rfl

theorem masterFor_some (s : State Master KeyPair) (customer : AccountId) :
    s.masterFor (some customer) = match s.masters.lookup customer with
      | some master => .ok master
      | none        => .error customer := rfl

/-- Whoever is not the customer that was written keeps its master. -/
theorem masterFor_congr {customer : Option AccountId} (hdefault : s'.defaultMaster = s.defaultMaster)
    (hmasters : ∀ named, customer = some named → s'.masters.lookup named = s.masters.lookup named) :
    s'.masterFor customer = s.masterFor customer := by
  cases customer with
  | none => rw [masterFor_none, masterFor_none, hdefault]
  | some named =>
      rw [masterFor_some, masterFor_some, hmasters named rfl]

theorem Fresh.congr {customer : Option AccountId} {seed : String} {keypair : KeyPair}
    (h : Fresh derive s customer seed keypair) (hmaster : s'.masterFor customer = s.masterFor customer) :
    Fresh derive s' customer seed keypair := by
  obtain ⟨master, hloaded, hkey⟩ := h
  exact ⟨master, hmaster.trans hloaded, hkey⟩

/-- Calls that go on, go on purging. -/
theorem Purging.keep {customer : AccountId} (h : Purging s customer)
    (hcalls : ∀ id call, s.calls.lookup id = some call → call.purges = some customer → s'.calls.lookup id = some call) :
    Purging s' customer := by
  obtain ⟨id, call, hcall, hpurges⟩ := h
  exact ⟨id, call, hcalls id call hcall hpurges, hpurges⟩

/-- A section that writes one customer's master, with its call begun. -/
theorem coherent_write (h : Coherent derive s) {id : Nat} {customer : AccountId} {call : Call KeyPair}
    {masters : LookupMap AccountId Master} (hfree : s.guarded = false) (hfresh : s.calls.lookup id = none)
    (hpurges : call.purges = some customer)
    (hothers : ∀ named, named ≠ customer → masters.lookup named = s.masters.lookup named) :
    Coherent derive { s with masters := masters, calls := s.calls.insert id call } where
  cached := by
    intro who seed keypair hcached
    by_cases hwho : who = some customer
    · exact Or.inr ⟨customer, hwho, id, call, AList.lookup_insert _, hpurges⟩
    · rcases h.cached who seed keypair hcached with hcurrent | ⟨named, rfl, hpurging⟩
      · refine Or.inl (hcurrent.congr (masterFor_congr rfl ?_))
        rintro named rfl
        exact hothers named (fun hsame => hwho (congrArg some hsame))
      · refine Or.inr ⟨named, rfl, hpurging.keep ?_⟩
        intro id' call' hcall' _
        show (s.calls.insert id call).lookup id' = _
        rw [LookupMap.lookup_insert_iff, if_neg, hcall']
        rintro rfl
        rw [hfresh] at hcall'
        cases hcall'
  held := by
    intro id' who seed keypair hcall
    replace hcall : (s.calls.insert id call).lookup id' = _ := hcall
    rw [LookupMap.lookup_insert_iff] at hcall
    split at hcall
    · rw [Option.some.inj hcall] at hpurges
      cases hpurges
    · cases not_holds_of_free hfree hcall

/-- The call that a section was a part of, where it purges nothing: none, or one that read. -/
def Idle (s : State Master KeyPair) (id : Nat) : Prop := ∀ call, s.calls.lookup id = some call → call.purges = none

/-- A section of a call that purges nothing leaves the calls that do. -/
theorem keep_insert {id : Nat} (hidle : Idle s id) (call : Call KeyPair) {customer : AccountId}
    (h : Purging s customer) : Purging { s with calls := s.calls.insert id call } customer := by
  refine h.keep ?_
  intro id' call' hcall' hpurges
  show (s.calls.insert id call).lookup id' = _
  rw [LookupMap.lookup_insert_iff, if_neg, hcall']
  rintro rfl
  rw [hidle call' hcall'] at hpurges
  cases hpurges

theorem keep_erase {id : Nat} (hidle : Idle s id) {customer : AccountId} (h : Purging s customer) :
    Purging { s with calls := s.calls.erase id } customer := by
  refine h.keep ?_
  intro id' call' hcall' hpurges
  show (s.calls.erase id).lookup id' = _
  rw [LookupMap.lookup_erase_iff, if_neg, hcall']
  rintro rfl
  rw [hidle call' hcall'] at hpurges
  cases hpurges

/-- A section that only moves its call on. -/
theorem coherent_calls (h : Coherent derive s) {calls : LookupMap Nat (Call KeyPair)}
    (hpurging : ∀ customer, Purging s customer → Purging { s with calls := calls } customer)
    (hheld : ∀ id who seed keypair, calls.lookup id = some (.derived who seed keypair) →
      Fresh derive s who seed keypair) :
    Coherent derive { s with calls := calls } where
  cached := by
    intro who seed keypair hcached
    rcases h.cached who seed keypair hcached with hcurrent | ⟨named, rfl, hpurge⟩
    · exact Or.inl hcurrent
    · exact Or.inr ⟨named, rfl, hpurging named hpurge⟩
  held := hheld

theorem held_erase (h : Coherent derive s) (id : Nat) {id' : Nat} {who : Option AccountId} {seed : String}
    {keypair : KeyPair} (hcall : (s.calls.erase id).lookup id' = some (.derived who seed keypair)) :
    Fresh derive s who seed keypair :=
  h.held id' who seed keypair (LookupMap.lookup_of_erase hcall).2

/-- **Step.** Every section keeps the keystore coherent. -/
theorem coherent_move (h : Coherent derive s) (hm : Moves derive s e s' out) : Coherent derive s' := by
  cases hm with
  | addCustomer id customer master free fresh =>
      refine coherent_write h free fresh rfl ?_
      intro named hne
      rw [LookupMap.lookup_insert_iff, if_neg hne]
  | evictCustomer id customer free fresh =>
      refine coherent_write h free fresh rfl ?_
      intro named hne
      rw [LookupMap.lookup_erase_iff, if_neg hne]
  | purge id call customer running purges =>
      constructor
      · intro who seed keypair hcached
        obtain ⟨hother, hcached⟩ := LookupMap.lookup_retain.mp hcached
        rcases h.cached who seed keypair hcached with hcurrent | ⟨named, rfl, hpurge⟩
        · exact Or.inl hcurrent
        · refine Or.inr ⟨named, rfl, hpurge.keep ?_⟩
          intro id' call' hcall' hpurges
          show (s.calls.erase id).lookup id' = _
          rw [LookupMap.lookup_erase_iff, if_neg, hcall']
          -- this call purged another customer
          rintro rfl
          rw [hcall'] at running
          rw [Option.some.inj running, purges] at hpurges
          exact of_decide_eq_true hother hpurges.symm
      · intro id' who seed keypair hcall
        exact held_erase h id hcall
  | hit id customer seed keypair cached => exact h
  | miss id customer seed fresh =>
      refine coherent_calls h (fun named => keep_insert ?_ _) ?_
      · intro call hcall
        rw [fresh] at hcall
        cases hcall
      · intro id' who seed' keypair hcall
        rw [LookupMap.lookup_insert_iff] at hcall
        split at hcall
        · cases hcall
        · exact h.held id' who seed' keypair hcall
  | derive id customer seed master running loaded =>
      refine coherent_calls h (fun named => keep_insert ?_ _) ?_
      · intro call hcall
        rw [running] at hcall
        exact Option.some.inj hcall ▸ rfl
      · intro id' who seed' keypair hcall
        rw [LookupMap.lookup_insert_iff] at hcall
        split at hcall
        · obtain ⟨rfl, rfl, rfl⟩ := Call.derived.inj (Option.some.inj hcall)
          exact ⟨master, loaded, rfl⟩
        · exact h.held id' who seed' keypair hcall
  | refuse id customer seed missing running gone =>
      refine coherent_calls h (fun named => keep_erase ?_) (fun id' who seed' keypair => held_erase h id)
      intro call hcall
      rw [running] at hcall
      exact Option.some.inj hcall ▸ rfl
  | fill id customer seed keypair running =>
      have hidle : Idle s id := by
        intro call hcall
        rw [running] at hcall
        exact Option.some.inj hcall ▸ rfl
      constructor
      · intro who seed' keypair' hcached
        replace hcached : (s.keypairCache.insert (customer, seed) keypair).lookup (who, seed') = _ := hcached
        rw [LookupMap.lookup_insert_iff] at hcached
        split at hcached
        · next hkey =>
            obtain ⟨rfl, rfl⟩ := Prod.mk.inj hkey
            rw [← Option.some.inj hcached]
            exact Or.inl (h.held id who seed' keypair running)
        · rcases h.cached who seed' keypair' hcached with hcurrent | ⟨named, rfl, hpurge⟩
          · exact Or.inl hcurrent
          · exact Or.inr ⟨named, rfl, keep_erase hidle hpurge⟩
      · intro id' who seed' keypair' hcall
        exact held_erase h id hcall
  | master customer master loaded => exact h
  | noMaster customer missing gone => exact h

/-! ## Runs -/

/-- A run from a keystore that has only its default master. -/
def History (derive : Master → String → KeyPair) (master : Master)
    (tr : List (Transition (State Master KeyPair) (Event Master) (Output Master KeyPair)))
    (s : State Master KeyPair) : Prop :=
  Run (next derive) { defaultMaster := master } tr s

variable {master : Master} {tr : List (Transition (State Master KeyPair) (Event Master) (Output Master KeyPair))}

theorem coherent_start (derive : Master → String → KeyPair) (master : Master) :
    Coherent derive ({ defaultMaster := master } : State Master KeyPair) where
  cached := by
    intro who seed keypair h
    cases h
  held := by
    intro id who seed keypair h
    cases h

theorem coherent_run (h : History derive master tr s) : Coherent derive s :=
  Run.invariant (coherent_start derive master) (fun _ hf hc => coherent_move hc (moves_of_next hf)) h

/-- The keystore's own master is never replaced. -/
theorem defaultMaster_run (h : History derive master tr s) : s.defaultMaster = master := by
  have hmove : ∀ {s s' : State Master KeyPair} {e : Event Master} {out : Output Master KeyPair},
      Moves derive s e s' out → s'.defaultMaster = s.defaultMaster := by
    intro s s' e out hm
    cases hm <;> rfl
  exact Run.invariant (I := fun s => s.defaultMaster = master) rfl
    (fun _ hf hs => (hmove (moves_of_next hf)).trans hs) h

/-! ## After an eviction -/

/-- A customer without a master and without a cached key. -/
structure Gone (s : State Master KeyPair) (customer : AccountId) : Prop where
  master : s.masters.lookup customer = none
  keys : ∀ seed, s.keypairCache.lookup (some customer, seed) = none

/-- A derivation for the customer that succeeded. -/
def Output.Succeeds (customer : AccountId) : Output Master KeyPair → Prop
  | .keypair who _ _ => who = some customer
  | .master who _    => who = some customer
  | _                => False

instance (customer : AccountId) (o : Output Master KeyPair) : Decidable (o.Succeeds customer) :=
  match o with
  | .keypair who _ _        => inferInstanceAs (Decidable (who = some customer))
  | .master who _           => inferInstanceAs (Decidable (who = some customer))
  | .running                => isFalse id
  | .returned               => isFalse id
  | .vaultMasterNotLoaded _ => isFalse id

/-- The event is no `add_customer` of the customer. -/
def Event.AddsNo (customer : AccountId) : Event Master → Prop
  | .addCustomer _ who _ => who ≠ customer
  | _                    => True

theorem no_master_move {customer : AccountId} (hgone : s.masters.lookup customer = none)
    (hm : Moves derive s e s' out) (hadds : e.AddsNo customer) : s'.masters.lookup customer = none := by
  cases hm with
  | addCustomer id who given free fresh =>
      show (s.masters.insert who given).lookup customer = none
      rw [LookupMap.lookup_insert_iff, if_neg (fun hsame => hadds hsame.symm), hgone]
  | evictCustomer id who free fresh =>
      show (s.masters.erase who).lookup customer = none
      rw [LookupMap.lookup_erase_iff]
      split
      · rfl
      · exact hgone
  | _ => exact hgone

theorem not_fresh {customer : AccountId} (hgone : s.masters.lookup customer = none) {seed : String}
    {keypair : KeyPair} : ¬ Fresh derive s (some customer) seed keypair := by
  rintro ⟨loaded, hloaded, -⟩
  rw [masterFor_some, hgone] at hloaded
  cases hloaded

/-- **Step.** A customer that is gone stays gone until it is added. -/
theorem gone_move {customer : AccountId} (hc : Coherent derive s) (hgone : Gone s customer)
    (hm : Moves derive s e s' out) (hadds : e.AddsNo customer) : Gone s' customer where
  master := no_master_move hgone.master hm hadds
  keys := by
    intro seed
    cases hm with
    | purge id call who running purges =>
        cases hlookup : (dropCached who s.keypairCache).lookup (some customer, seed) with
        | none => rfl
        | some keypair =>
            have hcached := (LookupMap.lookup_retain.mp hlookup).2
            rw [hgone.keys] at hcached
            cases hcached
    | fill id who seed' keypair running =>
        show (s.keypairCache.insert (who, seed') keypair).lookup (some customer, seed) = none
        rw [LookupMap.lookup_insert_iff, if_neg, hgone.keys]
        intro hkey
        obtain ⟨rfl, rfl⟩ := Prod.mk.inj hkey
        exact not_fresh hgone.master (hc.held id _ _ keypair running)
    | _ => exact hgone.keys seed

/-- No derivation succeeds for a customer that is gone. -/
theorem no_success {customer : AccountId} (hc : Coherent derive s) (hgone : Gone s customer)
    (hm : Moves derive s e s' out) : ¬ out.Succeeds customer := by
  intro hsucceeds
  cases hm with
  | hit id who seed keypair cached =>
      obtain rfl : who = some customer := hsucceeds
      rw [hgone.keys] at cached
      cases cached
  | fill id who seed keypair running =>
      obtain rfl : who = some customer := hsucceeds
      exact not_fresh hgone.master (hc.held id _ _ keypair running)
  | master who found loaded =>
      obtain rfl : who = some customer := hsucceeds
      rw [masterFor_some, hgone.master] at loaded
      cases loaded
  | _ => exact hsucceeds

/-- A call that is still to purge goes on until its second section. -/
theorem call_stays {id : Nat} {call : Call KeyPair} {customer : AccountId} (hcall : s.calls.lookup id = some call)
    (hpurges : call.purges = some customer) (hm : Moves derive s e s' out) (hother : e ≠ .evictCustomerCache id) :
    s'.calls.lookup id = some call := by
  have hinsert : ∀ {id' : Nat} (call' : Call KeyPair), Idle s id' →
      (s.calls.insert id' call').lookup id = some call := by
    intro id' call' hidle
    rw [LookupMap.lookup_insert_iff, if_neg, hcall]
    rintro rfl
    rw [hidle call hcall] at hpurges
    cases hpurges
  have herase : ∀ {id' : Nat}, id ≠ id' → (s.calls.erase id').lookup id = some call := by
    intro id' hne
    rw [LookupMap.lookup_erase_iff, if_neg hne, hcall]
  have hreads : ∀ {id' : Nat} {call' : Call KeyPair}, s.calls.lookup id' = some call' → call'.purges = none →
      Idle s id' := by
    intro id' call' hrunning hnone call'' hcall''
    rw [hrunning] at hcall''
    exact Option.some.inj hcall'' ▸ hnone
  have hfresh : ∀ {id' : Nat}, s.calls.lookup id' = none → Idle s id' := by
    intro id' hnone call' hcall'
    rw [hnone] at hcall'
    cases hcall'
  have hne : ∀ {id' : Nat}, Idle s id' → id ≠ id' := by
    rintro id' hidle rfl
    rw [hidle call hcall] at hpurges
    cases hpurges
  cases hm with
  | addCustomer id' who given free fresh => exact hinsert _ (hfresh fresh)
  | evictCustomer id' who free fresh => exact hinsert _ (hfresh fresh)
  | purge id' call' who running purges =>
      exact herase (fun hsame => hother (congrArg Event.evictCustomerCache hsame.symm))
  | hit id' who seed keypair cached => exact hcall
  | miss id' who seed fresh => exact hinsert _ (hfresh fresh)
  | derive id' who seed given running loaded => exact hinsert _ (hreads running rfl)
  | refuse id' who seed missing running gone => exact herase (hne (hreads running rfl))
  | fill id' who seed keypair running => exact herase (hne (hreads running rfl))
  | master who found loaded => exact hcall
  | noMaster who missing gone => exact hcall

theorem evict_moves {id : Nat} {customer : AccountId} (hm : Moves derive s (.evictCustomer id customer) s' out) :
    s'.masters.lookup customer = none ∧ s'.calls.lookup id = some (.evictCustomer customer) := by
  cases hm with
  | evictCustomer _ _ free fresh => exact ⟨AList.lookup_erase _ _, AList.lookup_insert _⟩

theorem purge_moves {id : Nat} {customer : AccountId} (hmaster : s.masters.lookup customer = none)
    (hcall : s.calls.lookup id = some (.evictCustomer customer))
    (hm : Moves derive s (.evictCustomerCache id) s' out) : Gone s' customer := by
  cases hm with
  | purge _ call who running purges =>
      rw [hcall] at running
      obtain rfl := Option.some.inj running
      obtain rfl : customer = who := Option.some.inj purges
      refine ⟨hmaster, fun seed => ?_⟩
      cases hlookup : (dropCached customer s.keypairCache).lookup (some customer, seed) with
      | none => rfl
      | some keypair => exact absurd rfl (of_decide_eq_true (LookupMap.lookup_retain.mp hlookup).1)

/-- A run without an `add_customer` of a customer that is gone: it stays gone, and no derivation succeeds. -/
theorem gone_run {customer : AccountId} {s₀ : State Master KeyPair} (hc : Coherent derive s₀)
    (hgone : Gone s₀ customer) (h : Run (next derive) s₀ tr s) (hadds : ∀ t ∈ tr, t.event.AddsNo customer) :
    Gone s customer ∧ ∀ t ∈ tr, ¬ t.out.Succeeds customer := by
  have hboth : ∀ {tr' s'}, Run (next derive) s₀ tr' s' → (∀ t ∈ tr', t.event.AddsNo customer) →
      Coherent derive s' ∧ Gone s' customer := by
    intro tr' s' hrun hadds'
    refine hrun.invariant_of (I := fun s => Coherent derive s ∧ Gone s customer)
      (C := fun t => t.event.AddsNo customer) ⟨hc, hgone⟩ ?_ hadds'
    intro t hf hno hpre
    have hm := moves_of_next hf
    exact ⟨coherent_move hpre.1 hm, gone_move hpre.1 hpre.2 hm hno⟩
  refine ⟨(hboth h hadds).2, ?_⟩
  intro t ht
  obtain ⟨before, after, rfl⟩ := List.append_of_mem ht
  obtain ⟨hbefore, hf, -⟩ := h.at_split
  obtain ⟨hcoherent, hpre⟩ := hboth hbefore (fun u hu => hadds u (List.mem_append_left _ hu))
  exact no_success hcoherent hpre (moves_of_next hf)

/-- **After an eviction.** Its first section takes the master out, its second the cached keys; from then on, as long as
    no `add_customer` came in since the first, the customer is gone. -/
theorem gone_after_eviction {customer : AccountId} {id : Nat} {tr₁ tr₂ tr₃ : List (Transition _ _ _)}
    {t u : Transition (State Master KeyPair) (Event Master) (Output Master KeyPair)}
    (h : History derive master (tr₁ ++ t :: (tr₂ ++ u :: tr₃)) s) (ht : t.event = .evictCustomer id customer)
    (hwaits : ∀ v ∈ tr₂, v.event ≠ .evictCustomerCache id) (hu : u.event = .evictCustomerCache id)
    (hadds : ∀ v ∈ tr₂ ++ tr₃, v.event.AddsNo customer) :
    Gone s customer ∧ ∀ v ∈ tr₃, ¬ v.out.Succeeds customer := by
  obtain ⟨hbefore, hevict, hafter⟩ := h.at_split
  obtain ⟨hbetween, hpurge, hrest⟩ := hafter.at_split
  have hstart : Coherent derive t.post ∧ t.post.masters.lookup customer = none
      ∧ t.post.calls.lookup id = some (.evictCustomer customer) := by
    have hm := moves_of_next hevict
    exact ⟨coherent_move (coherent_run hbefore) hm, evict_moves (ht ▸ hm)⟩
  have hmiddle : Coherent derive u.pre ∧ u.pre.masters.lookup customer = none
      ∧ u.pre.calls.lookup id = some (.evictCustomer customer) := by
    refine hbetween.invariant_of (I := fun s => Coherent derive s ∧ s.masters.lookup customer = none
        ∧ s.calls.lookup id = some (.evictCustomer customer))
      (C := fun v => v.event.AddsNo customer ∧ v.event ≠ .evictCustomerCache id) hstart ?_
      (fun v hv => ⟨hadds v (List.mem_append_left _ hv), hwaits v hv⟩)
    rintro v hf ⟨hno, hother⟩ ⟨hc, hmaster, hcall⟩
    have hm := moves_of_next hf
    exact ⟨coherent_move hc hm, no_master_move hmaster hm hno, call_stays hcall rfl hm hother⟩
  obtain ⟨hc, hmaster, hcall⟩ := hmiddle
  have hm := moves_of_next hpurge
  exact gone_run (coherent_move hc hm) (purge_moves hmaster hcall (hu ▸ hm)) hrest
    (fun v hv => hadds v (List.mem_append_right _ hv))

/-! ## Whose master a key comes from -/

/-- The master came in with an `add_customer` of the customer. -/
def Given (tr : List (Transition (State Master KeyPair) (Event Master) (Output Master KeyPair)))
    (customer : AccountId) (given : Master) : Prop :=
  ∃ t ∈ tr, ∃ id, t.event = .addCustomer id customer given

/-- A key pair derived from a master that was given for the customer. -/
def Derived (derive : Master → String → KeyPair)
    (tr : List (Transition (State Master KeyPair) (Event Master) (Output Master KeyPair)))
    (customer : AccountId) (seed : String) (keypair : KeyPair) : Prop :=
  ∃ given, Given tr customer given ∧ keypair = derive given seed

/-- What is in the keystore for a customer comes from masters given for it. -/
structure Sourced (derive : Master → String → KeyPair)
    (tr : List (Transition (State Master KeyPair) (Event Master) (Output Master KeyPair)))
    (s : State Master KeyPair) : Prop where
  masters : ∀ customer given, s.masters.lookup customer = some given → Given tr customer given
  cached : ∀ customer seed keypair, s.keypairCache.lookup (some customer, seed) = some keypair →
    Derived derive tr customer seed keypair
  held : ∀ id customer seed keypair, s.calls.lookup id = some (.derived (some customer) seed keypair) →
    Derived derive tr customer seed keypair

/-- What a section answers for a customer comes from a master given for it. -/
def Output.Sourced (derive : Master → String → KeyPair)
    (tr : List (Transition (State Master KeyPair) (Event Master) (Output Master KeyPair))) :
    Output Master KeyPair → Prop
  | .keypair (some customer) seed key => Derived derive tr customer seed key
  | .master (some customer) given     => Given tr customer given
  | _                                 => True

section Steps
variable {t : Transition (State Master KeyPair) (Event Master) (Output Master KeyPair)}

theorem Given.mono {customer : AccountId} {given : Master} (h : Given tr customer given) :
    Given (tr ++ [t]) customer given := by
  obtain ⟨u, hu, hevent⟩ := h
  exact ⟨u, List.mem_append_left _ hu, hevent⟩

theorem Derived.mono {customer : AccountId} {seed : String} {keypair : KeyPair}
    (h : Derived derive tr customer seed keypair) : Derived derive (tr ++ [t]) customer seed keypair := by
  obtain ⟨given, hgiven, hkey⟩ := h
  exact ⟨given, hgiven.mono, hkey⟩

theorem Sourced.mono (h : Sourced derive tr s) : Sourced derive (tr ++ [t]) s where
  masters := fun customer given hlookup => (h.masters customer given hlookup).mono
  cached := fun customer seed keypair hlookup => (h.cached customer seed keypair hlookup).mono
  held := fun id customer seed keypair hlookup => (h.held id customer seed keypair hlookup).mono

theorem loaded_given (h : Sourced derive tr s) {customer : AccountId} {found : Master}
    (hloaded : s.masterFor (some customer) = .ok found) : Given tr customer found := by
  rw [masterFor_some] at hloaded
  cases hlookup : s.masters.lookup customer with
  | none => rw [hlookup] at hloaded; cases hloaded
  | some given =>
      rw [hlookup] at hloaded
      exact Except.ok.inj hloaded ▸ h.masters customer given hlookup

/-- **Step.** What is kept for a customer comes from masters given for it. -/
theorem sourced_move (hs : Sourced derive tr s) (hm : Moves derive s e s' out)
    (hgiven : ∀ id customer given, e = .addCustomer id customer given → Given tr customer given) :
    Sourced derive tr s' := by
  have hheld : ∀ {id : Nat} {calls : LookupMap Nat (Call KeyPair)} (call : Call KeyPair),
      (∀ customer seed keypair, call = .derived (some customer) seed keypair →
        Derived derive tr customer seed keypair) →
      calls = s.calls.insert id call → ∀ id' customer seed keypair,
        calls.lookup id' = some (.derived (some customer) seed keypair) → Derived derive tr customer seed keypair := by
    rintro id calls call hnew rfl id' customer seed keypair hcall
    rw [LookupMap.lookup_insert_iff] at hcall
    split at hcall
    · exact hnew customer seed keypair (Option.some.inj hcall)
    · exact hs.held id' customer seed keypair hcall
  have herased : ∀ (id id' : Nat) customer seed keypair,
      (s.calls.erase id).lookup id' = some (.derived (some customer) seed keypair) →
      Derived derive tr customer seed keypair :=
    fun id id' customer seed keypair hcall => hs.held id' customer seed keypair (LookupMap.lookup_of_erase hcall).2
  cases hm with
  | addCustomer id customer master free fresh =>
      refine ⟨?_, hs.cached, hheld _ (fun _ _ _ h => by cases h) rfl⟩
      intro who given hlookup
      replace hlookup : (s.masters.insert customer master).lookup who = some given := hlookup
      rw [LookupMap.lookup_insert_iff] at hlookup
      split at hlookup
      · next hsame =>
          rw [hsame, ← Option.some.inj hlookup]
          exact hgiven id customer master rfl
      · exact hs.masters who given hlookup
  | evictCustomer id customer free fresh =>
      refine ⟨?_, hs.cached, hheld _ (fun _ _ _ h => by cases h) rfl⟩
      intro who given hlookup
      exact hs.masters who given (LookupMap.lookup_of_erase hlookup).2
  | purge id call customer running purges =>
      refine ⟨hs.masters, ?_, herased id⟩
      intro who seed keypair hlookup
      exact hs.cached who seed keypair (LookupMap.lookup_retain.mp hlookup).2
  | hit id customer seed keypair cached => exact hs
  | miss id customer seed fresh => exact ⟨hs.masters, hs.cached, hheld _ (fun _ _ _ h => by cases h) rfl⟩
  | derive id customer seed master running loaded =>
      refine ⟨hs.masters, hs.cached, hheld _ ?_ rfl⟩
      intro who seed' keypair hcall
      obtain ⟨rfl, rfl, rfl⟩ := Call.derived.inj hcall
      exact ⟨master, loaded_given hs loaded, rfl⟩
  | refuse id customer seed missing running gone => exact ⟨hs.masters, hs.cached, herased id⟩
  | fill id customer seed keypair running =>
      refine ⟨hs.masters, ?_, herased id⟩
      intro who seed' keypair' hlookup
      replace hlookup : (s.keypairCache.insert (customer, seed) keypair).lookup (some who, seed') = _ := hlookup
      rw [LookupMap.lookup_insert_iff] at hlookup
      split at hlookup
      · next hkey =>
          obtain ⟨rfl, rfl⟩ := Prod.mk.inj hkey
          rw [← Option.some.inj hlookup]
          exact hs.held id who seed' keypair running
      · exact hs.cached who seed' keypair' hlookup
  | master customer master loaded => exact hs
  | noMaster customer missing gone => exact hs

/-- What is answered for a customer comes from masters given for it. -/
theorem sourced_out (hs : Sourced derive tr s) (hm : Moves derive s e s' out) : out.Sourced derive tr := by
  cases hm with
  | hit id customer seed keypair cached =>
      cases customer with
      | none => trivial
      | some who => exact hs.cached who seed keypair cached
  | fill id customer seed keypair running =>
      cases customer with
      | none => trivial
      | some who => exact hs.held id who seed keypair running
  | master customer found loaded =>
      cases customer with
      | none => trivial
      | some who => exact loaded_given hs loaded
  | _ => trivial

theorem Output.Sourced.mono {o : Output Master KeyPair} (h : o.Sourced derive tr) : o.Sourced derive (tr ++ [t]) := by
  unfold Output.Sourced at h ⊢
  split
  · exact Derived.mono h
  · exact Given.mono h
  · trivial

end Steps

/-- **Run.** What is kept and what was answered for a customer comes from masters given for it. -/
theorem sourced_run (h : History derive master tr s) : Sourced derive tr s ∧ ∀ t ∈ tr, t.out.Sourced derive tr := by
  unfold History at h
  induction h with
  | start =>
      refine ⟨⟨?_, ?_, ?_⟩, fun t ht => absurd ht List.not_mem_nil⟩
      · intro customer given hlookup
        cases hlookup
      · intro customer seed keypair hlookup
        cases hlookup
      · intro id customer seed keypair hlookup
        cases hlookup
  | @step tr t _ hf ih =>
      obtain ⟨hs, houts⟩ := ih
      have hm := moves_of_next hf
      refine ⟨sourced_move hs.mono hm ?_, ?_⟩
      · intro id customer given hevent
        exact ⟨t, List.mem_append_right _ List.mem_cons_self, id, hevent⟩
      · intro u hu
        rcases List.mem_append.mp hu with hold | hnew
        · exact (houts u hold).mono
        · rw [List.mem_singleton.mp hnew]
          exact (sourced_out hs hm).mono

/-! ## The cache and the masters -/

/-- **The key cache never outlives its master.** In every state a keystore reaches, a key cached for a customer is the
    one derived from the customer's master, unless a call is between its two sections for that customer; a key cached
    for no customer is the default master's. Once an eviction has returned, as long as no `add_customer` of the
    customer came in after the eviction's first section, there is no master and no cached key of the customer and no
    derivation for it succeeds, which it would with its last section. What is derived for a customer comes from a master
    given for that customer. -/
theorem key_cache_follows_masters (h : History derive master tr s) :
    (∀ seed keypair, s.keypairCache.lookup (none, seed) = some keypair → keypair = derive s.defaultMaster seed) ∧
    (∀ customer seed keypair, ¬ Purging s customer →
      s.keypairCache.lookup (some customer, seed) = some keypair →
      ∃ given, s.masters.lookup customer = some given ∧ keypair = derive given seed) ∧
    (∀ customer id tr₁ t tr₂ u tr₃, tr = tr₁ ++ t :: (tr₂ ++ u :: tr₃) → t.event = .evictCustomer id customer →
      (∀ v ∈ tr₂, v.event ≠ .evictCustomerCache id) → u.event = .evictCustomerCache id →
      (∀ v ∈ tr₂ ++ tr₃, v.event.AddsNo customer) →
      Gone s customer ∧ ∀ v ∈ tr₃, ¬ v.out.Succeeds customer) ∧
    ∀ t ∈ tr, t.out.Sourced derive tr := by
  have hc := coherent_run h
  refine ⟨?_, ?_, ?_, (sourced_run h).2⟩
  · intro seed keypair hcached
    rcases hc.cached none seed keypair hcached with ⟨loaded, hloaded, hkey⟩ | ⟨named, hnone, -⟩
    · rw [hkey, ← Except.ok.inj hloaded]
    · cases hnone
  · intro customer seed keypair hquiet hcached
    rcases hc.cached (some customer) seed keypair hcached with ⟨loaded, hloaded, hkey⟩ | ⟨named, hnamed, hpurging⟩
    · rw [masterFor_some] at hloaded
      cases hlookup : s.masters.lookup customer with
      | none => rw [hlookup] at hloaded; cases hloaded
      | some given =>
          rw [hlookup] at hloaded
          exact ⟨given, rfl, by rw [hkey, Except.ok.inj hloaded]⟩
    · exact absurd (Option.some.inj hnamed ▸ hpurging) hquiet
  · rintro customer id tr₁ t tr₂ u tr₃ rfl ht hwaits hu hadds
    exact gone_after_eviction h ht hwaits hu hadds

end Cache

/-! ## Runs of one vault -/

/-- A key pair is the master and the seed it comes from. -/
def pair (master : Nat) (seed : String) : Nat × String := (master, seed)

def vaultAlice : AccountId := ⟨"vault.alice.near", by decide⟩

/-- Add a master, derive and cache a key, evict, and try once more. -/
def evictedVault : List (Event Nat) :=
  [.addCustomer 0 vaultAlice 7, .evictCustomerCache 0, .readCache 1 (some vaultAlice) "k", .readMaster 1, .fillCache 1,
   .evictCustomer 2 vaultAlice, .evictCustomerCache 2, .readCache 3 (some vaultAlice) "k", .readMaster 3]

/-- A run of these sections, with a test of its steps and of the state it leads to. -/
theorem exists_of_test (es : List (Event Nat))
    (p : List (Transition (State Nat (Nat × String)) (Event Nat) (Output Nat (Nat × String))) ×
      State Nat (Nat × String) → Bool)
    (h : (replay (next pair) { defaultMaster := 0 } es).any p = true) :
    ∃ tr s, History pair 0 tr s ∧ tr.map Transition.event = es ∧ p (tr, s) = true := by
  obtain ⟨⟨tr, s⟩, hr, hp⟩ := (Option.any_eq_true p _).mp h
  exact ⟨tr, s, run_of_replay hr, replay_events hr, hp⟩

/-- After the eviction the vault is gone, and what was derived for it came from its own master. -/
theorem evicted_vault_gone : ∃ tr s, History pair 0 tr s ∧ tr.map Transition.event = evictedVault ∧
    Gone s vaultAlice ∧ ∀ t ∈ tr, t.out.Sourced pair tr := by
  obtain ⟨tr, s, h, hevents, -⟩ := exists_of_test evictedVault (fun _ => true) (by decide +kernel)
  obtain ⟨-, -, hgone, hsourced⟩ := key_cache_follows_masters h
  refine ⟨tr, s, h, hevents, ?_, hsourced⟩
  have hcut : evictedVault = evictedVault.take 5 ++ .evictCustomer 2 vaultAlice :: .evictCustomerCache 2 ::
      evictedVault.drop 7 := rfl
  obtain ⟨tr₁, rest, rfl, -, hrest⟩ := List.map_eq_append_iff.mp (hevents.trans hcut)
  obtain ⟨t, rest', rfl, ht, hrest'⟩ := List.map_eq_cons_iff.mp hrest
  obtain ⟨u, tr₃, rfl, hu, htr₃⟩ := List.map_eq_cons_iff.mp hrest'
  refine (hgone vaultAlice 2 tr₁ t [] u tr₃ rfl ht (fun v hv => absurd hv List.not_mem_nil) hu ?_).1
  intro v hv
  have hmem : v.event ∈ evictedVault.drop 7 := htr₃ ▸ List.mem_map_of_mem hv
  simp only [evictedVault, List.drop_succ_cons, List.drop_zero, List.mem_cons, List.not_mem_nil, or_false] at hmem
  rcases hmem with hevent | hevent <;> rw [hevent] <;> trivial

/-- A key is cached, and the master is replaced: the second section of the replacement is still to come. -/
def replacedMaster : List (Event Nat) :=
  [.addCustomer 0 vaultAlice 7, .evictCustomerCache 0, .readCache 1 (some vaultAlice) "k", .readMaster 1, .fillCache 1,
   .addCustomer 2 vaultAlice 8]

/-- A master is added while the vault is evicted, and a derivation begins when the eviction has returned. -/
def addedDuringEviction : List (Event Nat) :=
  [.evictCustomer 0 vaultAlice, .addCustomer 1 vaultAlice 7, .evictCustomerCache 0,
   .readCache 2 (some vaultAlice) "k", .readMaster 2, .fillCache 2]

/-- **Two exceptions.** No derivation is in flight, and a cached key is not the one of the current master; and a
    derivation that begins after an eviction has returned succeeds, with no `add_customer` after that return. -/
theorem stale_between_sections :
    (∃ tr s, History pair 0 tr s ∧ tr.map Transition.event = replacedMaster ∧
      (∀ id call, s.calls.lookup id = some call → call.purges ≠ none) ∧
      s.masters.lookup vaultAlice = some 8 ∧
      s.keypairCache.lookup (some vaultAlice, "k") = some (pair 7 "k") ∧ pair 7 "k" ≠ pair 8 "k") ∧
    ∃ tr s, History pair 0 tr s ∧ tr.map Transition.event = addedDuringEviction ∧
      ∃ t ∈ tr.drop 3, t.out.Succeeds vaultAlice := by
  constructor
  · obtain ⟨tr, s, h, hevents, hp⟩ := exists_of_test replacedMaster
      (fun x => decide ((x.2.calls.entries.all fun e => e.2.purges.isSome) = true ∧
        x.2.masters.lookup vaultAlice = some 8 ∧
        x.2.keypairCache.lookup (some vaultAlice, "k") = some (pair 7 "k")))
      (by decide +kernel)
    obtain ⟨hcalls, hmaster, hcached⟩ := of_decide_eq_true hp
    refine ⟨tr, s, h, hevents, ?_, hmaster, hcached, by decide⟩
    intro id call hcall
    exact Option.isSome_iff_ne_none.mp
      (List.all_eq_true.mp hcalls ⟨id, call⟩ (LookupMap.mem_entries_iff.mpr hcall))
  · obtain ⟨tr, s, h, hevents, hp⟩ := exists_of_test addedDuringEviction
      (fun x => (x.1.drop 3).any fun t => decide (t.out.Succeeds vaultAlice))
      (by decide +kernel)
    obtain ⟨t, ht, hout⟩ := List.any_eq_true.mp hp
    exact ⟨tr, s, h, hevents, t, ht, of_decide_eq_true hout⟩

end KeyCache
end Keystore
end Outlayer
