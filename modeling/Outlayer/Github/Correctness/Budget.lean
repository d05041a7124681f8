import Outlayer.Github.Places

/-!
# `Github.Correctness.Budget` — the daily cap, and what it counts

Every run keeps to its places (`keeps_program`), so the count of a day is the number of places taken and not given back
(`Accounts.count`); it is looked at in the same go in which a place is taken, so the places that may be written in are
never more than the cap (`Accounts.within`).

A place is kept for a write GitHub was heard to accept, and given back for every other one, also for one GitHub applied
whose answer was lost. So the cap bounds the writes of a day as far as GitHub is heard to accept what it applies.
-/

namespace Outlayer.Github
open Text Json Exchange Runs Checked

/-! ## The day's count -/

/-- Places that are taken and not given back. -/
def Place.taken : Place → Bool
  | .outside | .returned => false
  | _                    => true

/-- Places in which a write may be, or was, accepted. -/
def Place.admitted : Place → Bool
  | .held | .kept => true
  | _             => false

/-- How many runs of a count have their place in `p`. -/
def tally (p : Place → Bool) (c : Counted) (places : List (Counted × Place)) : Nat :=
  places.countP fun run => decide (run.1 = c) && p run.2

/-- One run, and the others. -/
theorem tally_cut {p : Place → Bool} {c l : Counted} {place : Place} {before after : List (Counted × Place)} :
    tally p c (before ++ (l, place) :: after)
      = tally p c (before ++ after) + if l = c ∧ p place = true then 1 else 0 := by
  simp only [tally, List.countP_append, List.countP_cons, Bool.and_eq_true, decide_eq_true_eq]
  omega

theorem tally_le_tally {p p' : Place → Bool} {c : Counted} {places : List (Counted × Place)}
    (h : ∀ place, p place = true → p' place = true) : tally p c places ≤ tally p' c places := by
  refine List.countP_mono_left fun run _ hrun => ?_
  rw [Bool.and_eq_true] at hrun ⊢
  exact ⟨hrun.1, h _ hrun.2⟩

theorem countKey_inj {day : String} {c c' : Counted} : countKey day c = countKey day c' ↔ c = c' := by
  constructor
  · intro h
    have hlen := congrArg (fun s : String => s.toList.length) h
    cases c <;> cases c' <;> simp [countKey] at hlen ⊢
  · rintro rfl
    rfl

/-- **The accounts of a day.** The count is the places taken and not given back; those in which a write may be are
    within the cap. -/
structure Accounts (day : String) (cap : Nat) (store : Day) (places : List (Counted × Place)) : Prop where
  count : ∀ c, store.count (countKey day c) = tally Place.taken c places
  within : ∀ c, tally Place.admitted c places ≤ cap

section Accounts
variable {day : String} {cap : Nat} {store store' : Day} {l : Counted} {place place' : Place} {q : Ask} {a : Reply q}
  {how : Happening} {before after : List (Counted × Place)}

/-- The accounts, one run apart from the others. -/
theorem accounts_cut : Accounts day cap store (before ++ (l, place) :: after) ↔ ∀ c,
    (store.count (countKey day c) = tally Place.taken c (before ++ after)
      + ((if l = c ∧ place.taken = true then 1 else 0 : Nat) : Int)) ∧
    tally Place.admitted c (before ++ after) + (if l = c ∧ place.admitted = true then 1 else 0) ≤ cap := by
  constructor
  · intro h c
    have hcount := h.count c
    have hwithin := h.within c
    rw [tally_cut] at hcount hwithin
    exact ⟨by push_cast at hcount ⊢; exact hcount, hwithin⟩
  · intro h
    constructor
    · intro c
      rw [tally_cut]
      exact_mod_cast (h c).1
    · intro c
      rw [tally_cut]
      exact (h c).2

/-- The place moves and the count does not. -/
theorem Accounts.moved (h : Accounts day cap store (before ++ (l, place) :: after))
    (hcount : store'.count = store.count) (htaken : place'.taken = place.taken)
    (hadmitted : place'.admitted = true → place.admitted = true) :
    Accounts day cap store' (before ++ (l, place') :: after) := by
  rw [accounts_cut] at h ⊢
  intro c
  obtain ⟨hc, hle⟩ := h c
  refine ⟨by rw [hcount, htaken, hc], le_trans ?_ hle⟩
  by_cases hl : l = c ∧ place'.admitted = true
  · rw [if_pos hl, if_pos ⟨hl.1, hadmitted hl.2⟩]
  · rw [if_neg hl]
    omega

/-- The count of the run's own counter changes. -/
theorem count_add {delta : Int} (c : Counted) :
    (store.add (countKey day l) delta).count (countKey day c)
      = store.count (countKey day c) + if l = c then delta else 0 := by
  show (if _ then _ else _) = _
  by_cases hl : l = c
  · subst hl
    simp
  · rw [if_neg (fun h => hl (countKey_inj.mp h).symm), if_neg hl, add_zero]

/-- **A place is taken**: the count the run is told is the one it is judged by. -/
theorem Accounts.took (h : Accounts day cap store (before ++ (l, .outside) :: after))
    (hplace : place' = .beyond ∨ place' = .held ∧ store.count (countKey day l) + 1 ≤ cap) :
    Accounts day cap (store.add (countKey day l) 1) (before ++ (l, place') :: after) := by
  have htaken : place'.taken = true := by rcases hplace with rfl | ⟨rfl, -⟩ <;> rfl
  rw [accounts_cut] at h ⊢
  intro c
  obtain ⟨hc, hle⟩ := h c
  rw [count_add, hc, htaken]
  by_cases hl : l = c
  · subst hl
    simp only [Place.taken, Place.admitted, Bool.false_eq_true, and_false, if_false, Nat.cast_zero, add_zero] at hc hle
    refine ⟨by simp [Place.taken], ?_⟩
    rcases hplace with rfl | ⟨rfl, hfits⟩
    · simpa [Place.admitted] using hle
    · have hmost : tally Place.admitted l (before ++ after) ≤ tally Place.taken l (before ++ after) :=
        tally_le_tally fun place => by cases place <;> decide
      simp only [Place.admitted, true_and, if_true]
      omega
  · simp only [hl, false_and, if_false] at hle ⊢
    exact ⟨by simp, hle⟩

/-- **A place is given back.** -/
theorem Accounts.gaveBack (h : Accounts day cap store (before ++ (l, place) :: after)) (htaken : place.taken = true) :
    Accounts day cap (store.add (countKey day l) (-1)) (before ++ (l, .returned) :: after) := by
  rw [accounts_cut] at h ⊢
  intro c
  obtain ⟨hc, hle⟩ := h c
  rw [count_add, hc, htaken]
  simp only [Place.taken, Place.admitted, and_true, Bool.false_eq_true, and_false, if_false]
  refine ⟨?_, by omega⟩
  by_cases hl : l = c <;> simp [hl]

theorem Accounts.counted_ok {delta : Int} (h : Accounts day cap store (before ++ (l, place) :: after))
    (hnext : place.counted cap delta (.ok (store.count (countKey day l) + delta)) = some place') :
    Accounts day cap (store.add (countKey day l) delta) (before ++ (l, place') :: after) := by
  cases place with
  | outside =>
      obtain ⟨rfl, hplace⟩ := Option.ite_none_right_eq_some.mp hnext
      split at hplace
      · next hfits =>
          cases hplace
          exact h.took (Or.inr ⟨rfl, hfits⟩)
      · cases hplace
        exact h.took (Or.inl rfl)
  | beyond | held | lost =>
      obtain ⟨rfl, hplace⟩ := Option.ite_none_right_eq_some.mp hnext
      cases hplace
      exact h.gaveBack rfl
  | _ => cases hnext

/-- A count that could not be changed. -/
theorem Accounts.counted_error {delta : Int} {why : String}
    (h : Accounts day cap store (before ++ (l, place) :: after))
    (hnext : place.counted cap delta (.error why) = some place') :
    Accounts day cap store (before ++ (l, place') :: after) := by
  cases place with
  | outside =>
      obtain ⟨-, hplace⟩ := Option.ite_none_right_eq_some.mp hnext
      cases hplace
      exact h
  | beyond | held | lost =>
      obtain ⟨-, hplace⟩ := Option.ite_none_right_eq_some.mp hnext
      cases hplace
      exact h.moved rfl rfl (by decide)
  | _ => cases hnext

/-- **Every exchange keeps the accounts.** -/
theorem accounts_step (hserve : store.serve l q how = some (a, store'))
    (hnext : Place.next (countKey day l) cap place q a = some place')
    (h : Accounts day cap store (before ++ (l, place) :: after)) :
    Accounts day cap store' (before ++ (l, place') :: after) := by
  cases q with
  | github q =>
      cases how with
      | github o =>
          cases hserve
          rw [show Place.next (countKey day l) cap place (.github q) a = _ from next_github a] at hnext
          split at hnext
          · cases hnext
            exact h.moved rfl rfl id
          · split at hnext
            · next hheld =>
                subst hheld
                cases hnext
                split <;> exact h.moved rfl rfl (by decide)
            · cases hnext
      | _ => cases hserve
  | increment key delta =>
      rw [show Place.next (countKey day l) cap place (.increment key delta) a = _ from next_increment a] at hnext
      split at hnext
      · next hkey =>
          subst hkey
          cases how with
          | stored =>
              cases hserve
              exact h.counted_ok hnext
          | notStored why =>
              cases hserve
              exact h.counted_error hnext
          | _ => cases hserve
      · cases hnext
  | openTask task =>
      cases how with
      | opened r =>
          cases hserve
          cases hnext
          exact h
      | _ => cases hserve
  | takeAnswer operation call policy =>
      cases how with
      | taken r =>
          cases hserve
          cases hnext
          exact h
      | _ => cases hserve
  | report id result =>
      cases how with
      | reported r =>
          cases hserve
          cases hnext
          exact h
      | _ => cases hserve
  | reportFailure id refusal policy =>
      cases how with
      | told notice r =>
          cases hserve
          cases hnext
          exact h
      | _ => cases hserve

/-! ## Writes, applied and heard of -/

/-- An exchange with GitHub about a write whose outcome passes `p`. -/
def written (p : Outcome → Bool) : Exchange.Event Reply → Bool
  | ⟨.github q, o⟩ => q.changes && p o
  | _              => false

/-- A count goes up by the writes of its runs. -/
theorem serve_counts (hserve : store.serve l q how = some (a, store')) (c : Counted) :
    (store'.applied c = store.applied c + if l = c ∧ written Outcome.applied ⟨q, a⟩ = true then 1 else 0) ∧
    store'.accepted c = store.accepted c + if l = c ∧ written Outcome.accepted ⟨q, a⟩ = true then 1 else 0 := by
  have hbump (b : Bool) (n : Counted → Nat) : bump b l n c = n c + if l = c ∧ b = true then 1 else 0 := by
    show (if _ then _ else _) = _
    by_cases hc : l = c ∧ b = true
    · rw [if_pos ⟨hc.1.symm, hc.2⟩, if_pos hc]
    · rw [if_neg (fun h => hc ⟨h.1.symm, h.2⟩), if_neg hc, add_zero]
  cases q with
  | github q =>
      cases how with
      | github o =>
          cases hserve
          exact ⟨hbump _ _, hbump _ _⟩
      | _ => cases hserve
  | increment key delta =>
      cases how with
      | stored => cases hserve; simp [written, Day.add]
      | notStored why => cases hserve; simp [written]
      | _ => cases hserve
  | openTask task =>
      cases how <;> cases hserve
      simp [written]
  | takeAnswer operation call policy =>
      cases how <;> cases hserve
      simp [written]
  | report id result =>
      cases how <;> cases hserve
      simp [written]
  | reportFailure id refusal policy =>
      cases how <;> cases hserve
      simp [written]

/-- No change of the count keeps a place, or takes one that is kept. -/
theorem counted_unkept {delta : Int} {r : Except String Int} (h : place.counted cap delta r = some place') :
    place ≠ .kept ∧ place' ≠ .kept := by
  cases place with
  | outside =>
      cases r with
      | ok n =>
          obtain ⟨-, h⟩ := Option.ite_none_right_eq_some.mp h
          split at h <;> cases h <;> exact ⟨by decide, by decide⟩
      | error why =>
          obtain ⟨-, h⟩ := Option.ite_none_right_eq_some.mp h
          cases h
          exact ⟨by decide, by decide⟩
  | beyond | held | lost =>
      cases r with
      | ok n =>
          obtain ⟨-, h⟩ := Option.ite_none_right_eq_some.mp h
          cases h
          exact ⟨by decide, by decide⟩
      | error why =>
          obtain ⟨-, h⟩ := Option.ite_none_right_eq_some.mp h
          cases h
          exact ⟨by decide, by decide⟩
  | _ => cases h

/-- **A place is kept for a write that was heard to be accepted**, and for nothing else. -/
theorem kept_of_next {key : String} (hnext : Place.next key cap place q a = some place') :
    (place' = .kept ↔ place = .kept ∨ written Outcome.toldAccepted ⟨q, a⟩ = true) ∧
      (written Outcome.toldAccepted ⟨q, a⟩ = true → place = .held) := by
  cases q with
  | github q =>
      rw [show Place.next key cap place (.github q) a = _ from next_github a] at hnext
      split at hnext
      · next hsilent =>
          cases hnext
          simp [written, hsilent]
      · next hchanges =>
          split at hnext
          · next hheld =>
              subst hheld
              cases hnext
              show ((if Outcome.toldAccepted a = true then Place.kept else .lost) = _ ↔
                _ ∨ (_ && Outcome.toldAccepted a) = _) ∧ _
              simp only [Bool.not_eq_false] at hchanges
              cases Outcome.toldAccepted a <;> simp [hchanges]
          · cases hnext
  | increment key' delta =>
      rw [show Place.next key cap place (.increment key' delta) a = _ from next_increment a] at hnext
      split at hnext
      · simp [written, counted_unkept hnext]
      · cases hnext
  | _ =>
      cases hnext
      simp [written]

/-- The runs that keep their place, one exchange later. -/
theorem tally_kept_step {key : String} (hnext : Place.next key cap place q a = some place') (c : Counted) :
    tally (decide <| · = Place.kept) c (before ++ (l, place') :: after)
      = tally (decide <| · = Place.kept) c (before ++ (l, place) :: after)
        + if l = c ∧ written Outcome.toldAccepted ⟨q, a⟩ = true then 1 else 0 := by
  obtain ⟨hkept, hheld⟩ := kept_of_next hnext
  rw [tally_cut, tally_cut, add_assoc]
  congr 1
  simp only [decide_eq_true_eq, hkept]
  by_cases hl : l = c
  · by_cases hheard : written Outcome.toldAccepted ⟨q, a⟩ = true
    · simp [hl, hheard, hheld hheard]
    · simp [hl, hheard]
  · simp [hl]

end Accounts

/-! ## The runs of a day -/

/-- What GitHub applied it was heard to accept. -/
def AppliedIsHeard (e : Counted × Exchange.Event Reply) : Prop :=
  written Outcome.applied e.2 = true → written Outcome.toldAccepted e.2 = true

/-- Every call is answered, and every place that is given back is taken back. -/
def Unbroken : Counted × Exchange.Event Reply → Prop
  | (_, ⟨.github _, o⟩)        => Outcome.answered o = true
  | (_, ⟨.increment _ delta, r⟩) => delta = -1 → Except.isOk (show Except String Int from r) = true
  | _                          => True

section Days
variable {codec : Codec} {loaded : Loaded} {runs : List Started} {day : String}
  {tr : List (Transition (Pool Ask Reply Counted Day) (Nat × Happening) (Counted × Exchange.Event Reply))}
  {p : Pool Ask Reply Counted Day}

/-- No run of the day has a place yet. -/
def noPlaces (runs : List Started) : List (Counted × Place) := runs.map fun run => (run.counted, .outside)

theorem tally_noPlaces {f : Place → Bool} (hf : f .outside = false) (c : Counted) : tally f c (noPlaces runs) = 0 := by
  simp [tally, noPlaces, List.countP_eq_zero, hf]

theorem follows_opening (hday : ∀ run ∈ runs, dayKey run.env.nowMs = day) :
    (opening codec loaded runs).Follows (fun c => Place.next (countKey day c) loaded.cap) Place.Settled
      (noPlaces runs) := by
  unfold Pool.Follows opening noPlaces
  rw [List.forall₂_map_left_iff, List.forall₂_map_right_iff, List.forall₂_same]
  intro run hrun
  refine ⟨rfl, ?_⟩
  have hkeeps : (run.program codec loaded).Keeps _ _ _ := keeps_program run
  rwa [hday run hrun] at hkeeps

theorem accounts_opening : Accounts day loaded.cap (opening codec loaded runs).store (noPlaces runs) where
  count c := by rw [tally_noPlaces rfl]; rfl
  within c := by rw [tally_noPlaces rfl]; exact Nat.zero_le _

/-- **The cap bounds the writes GitHub applied**, as far as it was heard to accept them. -/
theorem applied_le_cap (hday : ∀ run ∈ runs, dayKey run.env.nowMs = day)
    (hrun : Run dayStep (opening codec loaded runs) tr p) (hheard : ∀ t ∈ tr, AppliedIsHeard t.out) (c : Counted) :
    p.store.applied c ≤ loaded.cap := by
  have hstep : ∀ (store store' : Day) l place place' q a how before after, store.serve l q how = some (a, store') →
      Place.next (countKey day l) loaded.cap place q a = some place' → AppliedIsHeard (l, ⟨q, a⟩) →
      (Accounts day loaded.cap store (before ++ (l, place) :: after) ∧
        ∀ c, store.applied c ≤ tally (decide <| · = Place.kept) c (before ++ (l, place) :: after)) →
      Accounts day loaded.cap store' (before ++ (l, place') :: after) ∧
        ∀ c, store'.applied c ≤ tally (decide <| · = Place.kept) c (before ++ (l, place') :: after) := by
    rintro store store' l place place' q a how before after hserve hnext hallowed ⟨haccounts, happlied⟩
    refine ⟨accounts_step hserve hnext haccounts, fun c => ?_⟩
    rw [(serve_counts hserve c).1, tally_kept_step hnext c]
    refine Nat.add_le_add (happlied c) ?_
    by_cases hwrite : l = c ∧ written Outcome.applied ⟨q, a⟩ = true
    · rw [if_pos hwrite, if_pos ⟨hwrite.1, hallowed hwrite.2⟩]
    · rw [if_neg hwrite]
      omega
  obtain ⟨places, -, haccounts, happlied⟩ := Pool.invariant (I := fun store places =>
    Accounts day loaded.cap store places ∧ ∀ c, store.applied c ≤ tally (decide <| · = Place.kept) c places)
    (follows_opening hday) ⟨accounts_opening, fun c => Nat.zero_le _⟩ hstep hrun hheard
  calc p.store.applied c ≤ tally (decide <| · = Place.kept) c places := happlied c
    _ ≤ tally Place.admitted c places := tally_le_tally fun place => by cases place <;> decide
    _ ≤ loaded.cap := haccounts.within c

/-- An answered write was accepted exactly when it was heard to be. -/
theorem accepted_iff_heard {l : Counted} {e : Exchange.Event Reply} (hwhole : Unbroken (l, e)) :
    written Outcome.accepted e = written Outcome.toldAccepted e := by
  obtain ⟨q, a⟩ := e
  cases q with
  | github q =>
      have hanswered : Outcome.answered a = true := hwhole
      show (q.changes && Outcome.accepted a) = (q.changes && (Outcome.answered a && Outcome.accepted a))
      rw [hanswered, Bool.true_and]
  | _ => rfl

/-- No place is stranded where no release fails. -/
theorem ne_stranded_of_next {key : String} {cap : Nat} {place place' : Place} {l : Counted} {q : Ask} {a : Reply q}
    (hnext : Place.next key cap place q a = some place') (hwhole : Unbroken (l, ⟨q, a⟩)) (hplace : place ≠ .stranded) :
    place' ≠ .stranded := by
  cases q with
  | github q =>
      rw [show Place.next key cap place (.github q) a = _ from next_github a] at hnext
      split at hnext
      · cases hnext
        exact hplace
      · split at hnext
        · cases hnext
          split <;> decide
        · cases hnext
  | increment key' delta =>
      rw [show Place.next key cap place (.increment key' delta) a = _ from next_increment a] at hnext
      split at hnext
      · rintro rfl
        obtain ⟨r, rfl⟩ : ∃ r : Except String Int, r = a := ⟨a, rfl⟩
        cases r with
        | ok n =>
            cases place with
            | outside =>
                obtain ⟨-, h⟩ := Option.ite_none_right_eq_some.mp hnext
                split at h <;> cases h
            | beyond | held | lost =>
                obtain ⟨-, h⟩ := Option.ite_none_right_eq_some.mp hnext
                cases h
            | _ => cases hnext
        | error why =>
            cases place with
            | outside =>
                obtain ⟨-, h⟩ := Option.ite_none_right_eq_some.mp hnext
                cases h
            | beyond | held | lost =>
                obtain ⟨hdelta, -⟩ := Option.ite_none_right_eq_some.mp hnext
                cases hwhole hdelta
            | _ => cases hnext
      · cases hnext
  | _ =>
      cases hnext
      exact hplace

/-- **At rest the count is the writes GitHub accepted**, when every call was answered and no release failed. -/
theorem count_eq_accepted (hday : ∀ run ∈ runs, dayKey run.env.nowMs = day)
    (hrun : Run dayStep (opening codec loaded runs) tr p) (hwhole : ∀ t ∈ tr, Unbroken t.out) (hrest : p.AtRest)
    (c : Counted) : p.store.count (countKey day c) = p.store.accepted c := by
  have hstep : ∀ (store store' : Day) l place place' q a how before after, store.serve l q how = some (a, store') →
      Place.next (countKey day l) loaded.cap place q a = some place' → Unbroken (l, ⟨q, a⟩) →
      (Accounts day loaded.cap store (before ++ (l, place) :: after) ∧
        (∀ run ∈ before ++ (l, place) :: after, run.2 ≠ .stranded) ∧
        ∀ c, store.accepted c = tally (decide <| · = Place.kept) c (before ++ (l, place) :: after)) →
      Accounts day loaded.cap store' (before ++ (l, place') :: after) ∧
        (∀ run ∈ before ++ (l, place') :: after, run.2 ≠ .stranded) ∧
        ∀ c, store'.accepted c = tally (decide <| · = Place.kept) c (before ++ (l, place') :: after) := by
    rintro store store' l place place' q a how before after hserve hnext hallowed ⟨haccounts, hnone, haccepted⟩
    refine ⟨accounts_step hserve hnext haccounts, ?_, fun c => ?_⟩
    · intro run hmem
      rcases List.mem_append.mp hmem with hmem | hmem
      · exact hnone run (List.mem_append_left _ hmem)
      · rcases List.mem_cons.mp hmem with rfl | hmem
        · exact ne_stranded_of_next hnext hallowed (hnone (l, place) (by simp))
        · exact hnone run (by simp [hmem])
    · rw [(serve_counts hserve c).2, tally_kept_step hnext c, haccepted c, accepted_iff_heard hallowed]
  obtain ⟨places, hfollows, haccounts, hnone, haccepted⟩ := Pool.invariant (I := fun store places =>
    Accounts day loaded.cap store places ∧ (∀ run ∈ places, run.2 ≠ .stranded) ∧
      ∀ c, store.accepted c = tally (decide <| · = Place.kept) c places)
    (follows_opening hday)
    ⟨accounts_opening, by simp [noPlaces], fun c => (tally_noPlaces rfl c).symm⟩ hstep hrun hwhole
  rw [haccounts.count, haccepted]
  -- at rest a place that is taken, and not stranded, is kept
  congr 1
  refine List.countP_congr fun run hrun => ?_
  have hsettled := hfollows.final_of_atRest hrest run hrun
  have hplace := hnone run hrun
  revert hsettled hplace
  cases run.2 <;> simp [Place.taken, Place.Settled]

/-- **The daily cap.** In every interleaving of any runs of one caller on one day: as long as GitHub is heard to accept
    what it applies, it applies no more writes of a count than the cap; and when every call is answered and no release
    fails, the count at rest is the writes GitHub accepted. -/
theorem writes_within_cap (codec : Codec) (loaded : Loaded) (runs : List Started) (day : String)
    (hday : ∀ run ∈ runs, dayKey run.env.nowMs = day)
    (tr : List (Transition (Pool Ask Reply Counted Day) (Nat × Happening) (Counted × Exchange.Event Reply)))
    (p : Pool Ask Reply Counted Day) (hrun : Run dayStep (opening codec loaded runs) tr p) (c : Counted) :
    ((∀ t ∈ tr, AppliedIsHeard t.out) → p.store.applied c ≤ loaded.cap) ∧
    ((∀ t ∈ tr, Unbroken t.out) → p.AtRest → p.store.count (countKey day c) = p.store.accepted c) :=
  ⟨fun hheard => applied_le_cap hday hrun hheard c, fun hwhole hrest => count_eq_accepted hday hrun hwhole hrest c⟩

end Days

/-! ## An issue whose answer is lost -/

/-- A run of the connector with a token and no policy of its own. -/
def issueRun : Env where
  token := some "ghu_agent"
  storedPolicy := []
  nowMs := 1790000000000
  onChain := false
  jsonNumber := some
  decode64 _ := .error "Invalid symbol"
  sha256 _ := []

/-- An issue to be opened. -/
def issueInput : Input where
  operation := "issue_create"
  repo := some "alice/site"
  title := some "Water the oak"

/-- One write a day. -/
def onePerDay : Loaded := .some
  { actions := some ["issue_create"], repos := some ["alice/*"], maxWritesPerDay := some 1 }

/-- No task is sealed here. -/
def noCodec : Codec := ⟨fun _ => [], fun _ => none, fun _ => []⟩

theorem reset_is_no_refusal (r : Response) (h : (.error "connection reset" : Except String Response) = .ok r) :
    r.refused = true → true = false := by cases h

/-- The issue is there and the answer is not. -/
def issueLost : Outcome := ⟨.error "connection reset", true, reset_is_no_refusal⟩

/-- GitHub's answer to an issue that was opened. -/
def issueMade : Outcome := ⟨.ok ⟨201, [], .ok []⟩, true, by simp [Response.refused]⟩

instance : DecidablePred AppliedIsHeard := fun _ => inferInstanceAs (Decidable (_ → _))

instance : DecidablePred Unbroken := fun e =>
  match e with
  | (_, ⟨.github _, o⟩) => inferInstanceAs (Decidable (Outcome.answered o = true))
  | (_, ⟨.increment _ delta, r⟩) =>
      inferInstanceAs (Decidable (delta = -1 → Except.isOk (show Except String Int from r) = true))
  | (_, ⟨.openTask _, _⟩) | (_, ⟨.takeAnswer _ _ _, _⟩) | (_, ⟨.report _ _, _⟩) | (_, ⟨.reportFailure _ _ _, _⟩) =>
      inferInstanceAs (Decidable True)

/-- Two runs on a day of one write: the second asks for a place while the first holds it, is refused and gives it back,
    and then the first creates its issue. -/
theorem one_issue_of_two_runs : ∃ tr p, Run dayStep
    (opening noCodec onePerDay [.direct issueRun issueInput .issueCreate, .direct issueRun issueInput .issueCreate])
      tr p ∧
    p.AtRest ∧ p.store.applied .own = 1 ∧ p.store.applied .own ≤ onePerDay.cap ∧
    p.store.count (countKey (dayKey issueRun.nowMs) .own) = p.store.accepted .own := by
  have hplayed : (replay dayStep (opening noCodec onePerDay
      [.direct issueRun issueInput .issueCreate, .direct issueRun issueInput .issueCreate])
      [(0, .stored), (1, .stored), (1, .stored), (0, .github issueMade)]).any
        (fun r => decide (r.2.AtRest ∧ r.2.store.applied .own = 1) &&
          decide ((∀ t ∈ r.1, AppliedIsHeard t.out) ∧ ∀ t ∈ r.1, Unbroken t.out)) = true := by
    decide +kernel
  obtain ⟨tr, p, hrun, hend⟩ := exists_run hplayed
  rw [Bool.and_eq_true, decide_eq_true_eq, decide_eq_true_eq] at hend
  obtain ⟨⟨hrest, happlied⟩, hheard, hwhole⟩ := hend
  obtain ⟨hcap, hcount⟩ := writes_within_cap noCodec onePerDay _ (dayKey issueRun.nowMs) (by simp [Started.env]) tr p
    hrun .own
  exact ⟨tr, p, hrun, hrest, happlied, hcap hheard, hcount hwhole hrest⟩

/-- **Two issues on a day of one write**: the first was made and its answer lost, so its place was given back. -/
theorem two_issues_past_cap : ¬ ∀ (codec : Codec) (loaded : Loaded) (runs : List Started) (day : String),
    (∀ run ∈ runs, dayKey run.env.nowMs = day) → ∀ tr p, Run dayStep (opening codec loaded runs) tr p → ∀ c,
      p.store.applied c ≤ loaded.cap ∧
      ((∀ t ∈ tr, Unbroken t.out) → p.AtRest → p.store.count (countKey day c) = p.store.accepted c) := by
  intro hall
  have hplayed : (replay dayStep (opening noCodec onePerDay
      [.direct issueRun issueInput .issueCreate, .direct issueRun issueInput .issueCreate])
      [(0, .stored), (0, .github issueLost), (0, .stored), (1, .stored), (1, .github issueMade)]).any
        (fun r => decide (r.2.store.applied .own = 2)) = true := by
    decide +kernel
  obtain ⟨tr, p, hrun, hend⟩ := exists_run hplayed
  have hcap := (hall _ _ _ (dayKey issueRun.nowMs) (by simp [Started.env]) tr p hrun .own).1
  rw [of_decide_eq_true hend] at hcap
  exact absurd hcap (by decide)

end Outlayer.Github
