import Outlayer.Worker.Monitor.Moves

/-!
# `Worker.Correctness.Backlog` — no event twice, no block lost silently

The record of a run is read block by block: what was read of a block, which of its events were relayed, and the reports
of giving it up. A move changes one block, and changes it as a batch of `Lib.Backlog` is changed; so in every state of
the loop each block behind the head is done, in the queue or given up, and never two of these.
-/

namespace Outlayer
open Backlog

namespace Monitor

/-! ## The account of a block -/

/-- The events an act read at a height. -/
def Act.readAt (height : Nat) : Act → Option (List ContractEvent)
  | .scanned h events => if h = height then some events else none
  | _                 => none

/-- The event an act handed on from a height. -/
def Act.relayedAt (height : Nat) : Act → Option ContractEvent
  | .relayed h event => if h = height then some event else none
  | _                => none

/-- What an act reported of a height it gave up. -/
def Act.givenUpAt (height : Nat) : Act → Option (Option (List ContractEvent))
  | .gaveUp h events => if h = height then some events else none
  | _                => none

/-- What a run of acts did at one height. -/
def account (height : Nat) (acts : List Act) : Account ContractEvent where
  reads := acts.filterMap (Act.readAt height)
  done := acts.filterMap (Act.relayedAt height)
  reports := acts.filterMap (Act.givenUpAt height)

theorem account_append (height : Nat) (acts acts' : List Act) :
    account height (acts ++ acts') = (account height acts).append (account height acts') := by
  unfold account Account.append
  rw [List.filterMap_append, List.filterMap_append, List.filterMap_append]

/-- The block an act is about. -/
def Act.about : Act → Option Nat
  | .scanned height _ => some height
  | .sent _ _         => none
  | .relayed height _ => some height
  | .failed height _  => some height
  | .gaveUp height _  => some height

/-- Acts that are not about a block. -/
def OffRecord (height : Nat) (acts : List Act) : Prop := ∀ act ∈ acts, act.about ≠ some height

theorem OffRecord.account {height : Nat} {acts : List Act} (h : OffRecord height acts) :
    account height acts = .blank := by
  have hnone : ∀ act ∈ acts,
      act.readAt height = none ∧ act.relayedAt height = none ∧ act.givenUpAt height = none := by
    intro act hact
    have habout := h act hact
    cases act with
    | scanned x _ => exact ⟨if_neg fun hx => habout (congrArg some hx), rfl, rfl⟩
    | sent _ _ => exact ⟨rfl, rfl, rfl⟩
    | relayed x _ => exact ⟨rfl, if_neg fun hx => habout (congrArg some hx), rfl⟩
    | failed x _ => exact ⟨rfl, rfl, rfl⟩
    | gaveUp x _ => exact ⟨rfl, rfl, if_neg fun hx => habout (congrArg some hx)⟩
  unfold Monitor.account Account.blank
  rw [List.filterMap_eq_nil_iff.mpr fun a ha => (hnone a ha).1,
    List.filterMap_eq_nil_iff.mpr fun a ha => (hnone a ha).2.1,
    List.filterMap_eq_nil_iff.mpr fun a ha => (hnone a ha).2.2]

theorem offRecord_nil (height : Nat) : OffRecord height [] := fun _ h => absurd h List.not_mem_nil

theorem OffRecord.append {height : Nat} {acts acts' : List Act} (h : OffRecord height acts)
    (h' : OffRecord height acts') : OffRecord height (acts ++ acts') := by
  intro act hact
  rcases List.mem_append.mp hact with hact | hact
  · exact h act hact
  · exact h' act hact

theorem offRecord_sends {height : Nat} {sends : List Act}
    (h : ∀ act ∈ sends, ∃ message reply, act = .sent message reply) : OffRecord height sends := by
  intro act hact
  obtain ⟨message, reply, rfl⟩ := h act hact
  exact fun habout => by cases habout

/-- One act, about another block. -/
theorem offRecord_cons {x height : Nat} (hx : x ≠ height) {act : Act} (hact : act.about = some height)
    {acts : List Act} (h : OffRecord x acts) : OffRecord x (act :: acts) := by
  intro a ha
  rcases List.mem_cons.mp ha with rfl | ha
  · rw [hact]
    exact fun heq => hx (Option.some.inj heq).symm
  · exact h a ha

theorem account_scanned (height : Nat) (events : List ContractEvent) :
    account height [.scanned height events] = ⟨[events], [], []⟩ := by
  simp [account, Act.readAt, Act.relayedAt, Act.givenUpAt]

theorem account_relayed (height : Nat) (event : ContractEvent) :
    account height [.relayed height event] = ⟨[], [event], []⟩ := by
  simp [account, Act.readAt, Act.relayedAt, Act.givenUpAt]

theorem account_failed (height : Nat) (event : ContractEvent) : account height [.failed height event] = .blank := by
  simp [account, Act.readAt, Act.relayedAt, Act.givenUpAt, Account.blank]

theorem account_gaveUp (height : Nat) (events : Option (List ContractEvent)) :
    account height [.gaveUp height events] = ⟨[], [], [events]⟩ := by
  simp [account, Act.readAt, Act.relayedAt, Act.givenUpAt]

/-! ### Deliveries -/

section Delivering
variable {A : Answers} {S : Setup} {head height : Nat} {delivery : Delivery}

theorem Delivered.offRecord {events left : List ContractEvent} {acts : List Act}
    (h : Delivered A S head height delivery events acts left) {x : Nat} (hx : x ≠ height) : OffRecord x acts := by
  induction h with
  | nil => exact offRecord_nil x
  | done hrelays _ ih => exact (offRecord_sends hrelays.sends_only).append (offRecord_cons hx rfl ih)
  | again hrelays _ ih => exact (offRecord_sends hrelays.sends_only).append (offRecord_cons hx rfl ih)

/-- Of the events delivered, some are relayed and the others left. -/
theorem Delivered.account {events left : List ContractEvent} {acts : List Act}
    (h : Delivered A S head height delivery events acts left) :
    ∃ done, account height acts = ⟨[], done, []⟩ ∧ (done ++ left).Perm events := by
  induction h with
  | nil => exact ⟨[], rfl, .nil⟩
  | @done event _ _ _ left hrelays _ ih =>
      obtain ⟨done, hacc, hperm⟩ := ih
      refine ⟨event :: done, ?_, hperm.cons event⟩
      rw [account_append, (offRecord_sends hrelays.sends_only).account, Account.blank_append, ← List.singleton_append,
        account_append, account_relayed, hacc]
      rfl
  | @again event _ _ _ _ left hrelays _ ih =>
      obtain ⟨done, hacc, hperm⟩ := ih
      refine ⟨done, ?_, ?_⟩
      · rw [account_append, (offRecord_sends hrelays.sends_only).account, Account.blank_append,
          ← List.singleton_append, account_append, account_failed, Account.blank_append, hacc]
      · exact List.perm_middle.trans (hperm.cons event)

theorem Delivers.offRecord {events left : List ContractEvent} {acts : List Act}
    (h : Delivers A S head height delivery events acts left) {x : Nat} (hx : x ≠ height) : OffRecord x acts := by
  induction h with
  | pass held hheld hdelivered => exact hdelivered.offRecord hx
  | again _ _ ih ih' => exact ih.append ih'

theorem Delivers.account {events left : List ContractEvent} {acts : List Act}
    (h : Delivers A S head height delivery events acts left) :
    ∃ done, account height acts = ⟨[], done, []⟩ ∧ (done ++ left).Perm events := by
  induction h with
  | @pass events _ _ held hheld hdelivered =>
      obtain ⟨done, hacc, hperm⟩ := hdelivered.account
      refine ⟨done, hacc, ?_⟩
      rw [← List.append_assoc]
      refine (hperm.append_right _).trans ?_
      exact List.perm_append_comm.trans (List.filter_append_perm held events)
  | again _ _ ih ih' =>
      obtain ⟨done, hacc, hperm⟩ := ih
      obtain ⟨done', hacc', hperm'⟩ := ih'
      refine ⟨done ++ done', ?_, ?_⟩
      · rw [account_append, hacc, hacc']
        rfl
      · rw [List.append_assoc]
        exact (hperm'.append_left done).trans hperm

end Delivering

/-! ## Every block is on the books -/

/-- The blocks the front passed stand as batches do; of all others nothing is on record. -/
structure Booked (start : Nat) (g : Stage) : Prop where
  passed : ∀ x, start ≤ x → x < g.front → Standing (g.entries x) (account x g.acts)
  other : ∀ x, x < start ∨ g.front ≤ x → g.entries x = none ∧ account x g.acts = .blank
  start_le : start ≤ g.front

theorem booked_start (start : Nat) (d : DelegatedCalls) : Booked start (.start start d) :=
  ⟨fun _ hle hlt => absurd hle (Nat.not_le.mpr hlt), fun _ _ => ⟨rfl, rfl⟩, Nat.le_refl start⟩

section Booked
variable {start : Nat} {g g' : Stage}

/-- A block with something to do was passed. -/
theorem Booked.of_entry (h : Booked start g) {x : Nat} (hx : g.entries x ≠ none) : start ≤ x ∧ x < g.front := by
  constructor
  · exact Nat.not_lt.mp fun hlt => hx (h.other x (Or.inl hlt)).1
  · exact Nat.not_le.mp fun hle => hx (h.other x (Or.inr hle)).1

/-- Something happens to a block that was passed. -/
theorem Booked.touch (h : Booked start g) {height : Nat} (hheight : g.entries height ≠ none)
    {entry : Option (Option (List ContractEvent))} {acts : List Act} (hoff : ∀ x, x ≠ height → OffRecord x acts)
    (hstanding : Standing entry ((account height g.acts).append (account height acts))) (hfront : g'.front = g.front)
    (hentries : g'.entries = Function.update g.entries height entry) (hacts : g'.acts = g.acts ++ acts) :
    Booked start g' := by
  obtain ⟨hstart, hlt⟩ := h.of_entry hheight
  have hsame : ∀ x, x ≠ height → g'.entries x = g.entries x ∧ account x g'.acts = account x g.acts := by
    intro x hx
    rw [hentries, Function.update_of_ne hx, hacts, account_append, (hoff x hx).account, Account.append_blank]
    exact ⟨rfl, rfl⟩
  refine ⟨?_, ?_, hfront ▸ h.start_le⟩
  · intro x hle hx
    by_cases hxh : x = height
    · subst hxh
      rw [hentries, Function.update_self, hacts, account_append]
      exact hstanding
    · rw [(hsame x hxh).1, (hsame x hxh).2]
      exact h.passed x hle (hfront ▸ hx)
  · intro x hx
    have hxh : x ≠ height := by omega
    rw [(hsame x hxh).1, (hsame x hxh).2]
    exact h.other x (hfront ▸ hx)

/-- The front passes its block. -/
theorem Booked.pass (h : Booked start g) {entry : Option (Option (List ContractEvent))} {acts : List Act}
    (hoff : ∀ x, x ≠ g.front → OffRecord x acts) (hstanding : Standing entry (account g.front acts))
    (hfront : g'.front = g.front + 1) (hentries : g'.entries = Function.update g.entries g.front entry)
    (hacts : g'.acts = g.acts ++ acts) : Booked start g' := by
  have hstart := h.start_le
  have hsame : ∀ x, x ≠ g.front → g'.entries x = g.entries x ∧ account x g'.acts = account x g.acts := by
    intro x hx
    rw [hentries, Function.update_of_ne hx, hacts, account_append, (hoff x hx).account, Account.append_blank]
    exact ⟨rfl, rfl⟩
  refine ⟨?_, ?_, by omega⟩
  · intro x hle hx
    by_cases hxf : x = g.front
    · rw [hxf, hentries, Function.update_self, hacts, account_append, (h.other g.front (Or.inr (Nat.le_refl _))).2]
      exact hstanding
    · rw [(hsame x hxf).1, (hsame x hxf).2]
      exact h.passed x hle (by omega)
  · intro x hx
    have hxf : x ≠ g.front := by omega
    rw [(hsame x hxf).1, (hsame x hxf).2]
    exact h.other x (by omega)

/-- The acts of reading and delivering a block. -/
theorem account_read {A : Answers} {S : Setup} {head height : Nat} {delivery : Delivery}
    {events left : List ContractEvent} {acts : List Act} (h : Delivers A S head height delivery events acts left) :
    (∃ done, account height (.scanned height events :: acts) = ⟨[events], done, []⟩ ∧ (done ++ left).Perm events) ∧
      ∀ x, x ≠ height → OffRecord x (.scanned height events :: acts) := by
  obtain ⟨done, hacc, hperm⟩ := h.account
  constructor
  · refine ⟨done, ?_, hperm⟩
    rw [← List.singleton_append, account_append, account_scanned, hacc]
    rfl
  · exact fun x hx => offRecord_cons hx rfl (h.offRecord hx)

theorem Booked.move {A : Answers} {S : Setup} (h : Booked start g) (hmove : Move A S g g') : Booked start g' := by
  cases hmove with
  | @gaveUp height events hentry =>
      have hne : g.entries height ≠ none := by rw [hentry]; exact Option.some_ne_none _
      have hstanding := h.passed height (h.of_entry hne).1 (h.of_entry hne).2
      rw [hentry] at hstanding
      refine h.touch hne (?_ : ∀ x, x ≠ height → OffRecord x [.gaveUp height events]) ?_ rfl rfl rfl
      · exact fun x hx => offRecord_cons hx rfl (offRecord_nil x)
      · rw [account_gaveUp]
        exact hstanding.giveUp
  | deferred => exact h.pass (fun x _ => offRecord_nil x) .unread rfl rfl (List.append_nil _).symm
  | headed _ hdelivers =>
      obtain ⟨⟨done, hacc, hperm⟩, hoff⟩ := account_read hdelivers
      refine h.pass hoff ?_ rfl rfl rfl
      rw [hacc]
      exact standing_read hperm
  | @read height _ _ _ _ hentry _ hdelivers =>
      have hne : g.entries height ≠ none := by rw [hentry]; exact Option.some_ne_none _
      have hstanding := h.passed height (h.of_entry hne).1 (h.of_entry hne).2
      rw [hentry] at hstanding
      obtain ⟨⟨done, hacc, hperm⟩, hoff⟩ := account_read hdelivers
      refine h.touch hne hoff ?_ rfl rfl rfl
      rw [hacc]
      exact hstanding.read hperm
  | @resumed height _ _ _ hentry hdelivers =>
      have hne : g.entries height ≠ none := by rw [hentry]; exact Option.some_ne_none _
      have hstanding := h.passed height (h.of_entry hne).1 (h.of_entry hne).2
      rw [hentry] at hstanding
      obtain ⟨done, hacc, hperm⟩ := hdelivers.account
      refine h.touch hne (fun x hx => hdelivers.offRecord hx) ?_ rfl rfl rfl
      rw [hacc]
      exact hstanding.resume hperm

theorem Booked.moves {A : Answers} {S : Setup} (h : Booked start g) (hmoves : Moves A S g g') : Booked start g' := by
  induction hmoves with
  | refl => exact h
  | tail _ hmove ih => exact ih.move hmove

/-- A block that was passed and has nothing to do is left alone. -/
theorem Move.settled {A : Answers} {S : Setup} (h : Move A S g g') {x : Nat} (hx : x < g.front)
    (hnone : g.entries x = none) :
    x < g'.front ∧ g'.entries x = none ∧ account x g'.acts = account x g.acts := by
  have hother : ∀ {height entry} {acts : List Act}, x ≠ height → OffRecord x acts →
      Function.update g.entries height entry x = none ∧ account x (g.acts ++ acts) = account x g.acts := by
    intro height entry acts hne hoff
    rw [Function.update_of_ne hne, account_append, hoff.account, Account.append_blank]
    exact ⟨hnone, rfl⟩
  have hentry : ∀ {height events}, g.entries height = some events → x ≠ height := by
    rintro height events hheight rfl
    rw [hnone] at hheight
    cases hheight
  cases h with
  | gaveUp hheight =>
      exact ⟨hx, hother (hentry hheight) (offRecord_cons (hentry hheight) rfl (offRecord_nil x))⟩
  | deferred =>
      refine ⟨Nat.lt_succ_of_lt hx, ?_, rfl⟩
      exact (hother (Nat.ne_of_lt hx) (offRecord_nil x)).1
  | headed _ hdelivers =>
      exact ⟨Nat.lt_succ_of_lt hx, hother (Nat.ne_of_lt hx) ((account_read hdelivers).2 x (Nat.ne_of_lt hx))⟩
  | read hheight _ hdelivers =>
      exact ⟨hx, hother (hentry hheight) ((account_read hdelivers).2 x (hentry hheight))⟩
  | resumed hheight hdelivers =>
      exact ⟨hx, hother (hentry hheight) (hdelivers.offRecord (hentry hheight))⟩

theorem Moves.settled {A : Answers} {S : Setup} (h : Moves A S g g') {x : Nat} (hx : x < g.front)
    (hnone : g.entries x = none) : g'.entries x = none ∧ account x g'.acts = account x g.acts := by
  have hall : x < g'.front ∧ g'.entries x = none ∧ account x g'.acts = account x g.acts := by
    induction h with
    | refl => exact ⟨hx, hnone, rfl⟩
    | tail _ hmove ih =>
        obtain ⟨hx', hnone', hsame⟩ := ih
        obtain ⟨hx'', hnone'', hsame'⟩ := hmove.settled hx' hnone'
        exact ⟨hx'', hnone'', hsame'.trans hsame⟩
  exact hall.2

end Booked

/-! ## The loop -/

/-- The monitor after so many turns. -/
abbrev monitorAfter (A : Answers) (S : Setup) (start clock n : Nat) : EventMonitor :=
  (afterTurns A S start clock n).1.monitor

/-- What it did. -/
abbrev actsAfter (A : Answers) (S : Setup) (start clock n : Nat) : List Act := (afterTurns A S start clock n).2.acts

theorem booked_after (A : Answers) (S : Setup) (start clock n : Nat) : Booked start (stageAfter A S start clock n) := by
  obtain ⟨d, hmoves⟩ := @afterTurns_moves A S start clock n
  exact (booked_start start d).moves hmoves

/-- The block was read, and every event of it is done: relayed, refused or dropped for good. -/
def FullyDone (acts : List Act) (height : Nat) : Prop :=
  ∃ events, .scanned height events ∈ acts ∧ (acts.filterMap (Act.relayedAt height)).Perm events

/-- The height is deferred. -/
def Deferred.At (m : EventMonitor) (height : Nat) : Prop := m.deferred.lookup height ≠ none

/-- The block was given up, and that was reported. -/
def GivenUpAt (acts : List Act) (height : Nat) : Prop := ∃ events, .gaveUp height events ∈ acts

/-- The events still kept of a block. -/
def keptEvents (m : EventMonitor) (height : Nat) : List ContractEvent := (m.deferred.events height).getD []

theorem mem_reads {acts : List Act} {height : Nat} {events : List ContractEvent} :
    events ∈ (account height acts).reads ↔ .scanned height events ∈ acts := by
  unfold account
  dsimp only
  rw [List.mem_filterMap]
  constructor
  · rintro ⟨act, hact, hread⟩
    cases act with
    | scanned x es =>
        by_cases hx : x = height
        · rw [Act.readAt, if_pos hx] at hread
          obtain rfl := Option.some.inj hread
          exact hx ▸ hact
        · rw [Act.readAt, if_neg hx] at hread
          cases hread
    | _ => cases hread
  · exact fun h => ⟨_, h, if_pos rfl⟩

theorem finished_iff {acts : List Act} {height : Nat} : (account height acts).Finished ↔ FullyDone acts height := by
  unfold Account.Finished FullyDone
  constructor
  · rintro ⟨events, hread, hperm⟩
    exact ⟨events, mem_reads.mp hread, hperm⟩
  · rintro ⟨events, hread, hperm⟩
    exact ⟨events, mem_reads.mpr hread, hperm⟩

theorem givenUp_iff {acts : List Act} {height : Nat} : (account height acts).GivenUp ↔ GivenUpAt acts height := by
  unfold Account.GivenUp GivenUpAt account
  dsimp only
  rw [ne_eq, List.filterMap_eq_nil_iff]
  constructor
  · intro h
    obtain ⟨act, hact, hreport⟩ := not_forall₂.mp h
    cases act with
    | gaveUp x events =>
        by_cases hx : x = height
        · exact ⟨events, hx ▸ hact⟩
        · rw [Act.givenUpAt, if_neg hx] at hreport
          exact absurd rfl hreport
    | _ => exact absurd rfl hreport
  · rintro ⟨events, hmem⟩ h
    have hnone := h _ hmem
    rw [Act.givenUpAt, if_pos rfl] at hnone
    cases hnone

theorem relayed_mem_done {acts : List Act} {height : Nat} {event : ContractEvent} (h : .relayed height event ∈ acts) :
    event ∈ (account height acts).done := List.mem_filterMap.mpr ⟨_, h, if_pos rfl⟩

theorem deferredAt_iff {m : EventMonitor} {height : Nat} :
    Deferred.At m height ↔ m.deferred.entry height ≠ none := by
  unfold Deferred.At DeferredBlocks.entry
  cases m.deferred.lookup height <;> simp

/-- What the loop owes every block and every event, after so many turns. -/
structure Accounted (A : Answers) (S : Setup) (start clock n : Nat) : Prop where
  /-- nothing at or above the head is in the queue -/
  ahead : ∀ x, (monitorAfter A S start clock n).currentBlock ≤ x → ¬ Deferred.At (monitorAfter A S start clock n) x
  /-- a block behind the head is done, in the queue or given up, and only one of these -/
  one_of_three : ∀ x, start ≤ x → x < (monitorAfter A S start clock n).currentBlock →
    (FullyDone (actsAfter A S start clock n) x ∧ ¬ Deferred.At (monitorAfter A S start clock n) x ∧
      ¬ GivenUpAt (actsAfter A S start clock n) x) ∨
    (¬ FullyDone (actsAfter A S start clock n) x ∧ Deferred.At (monitorAfter A S start clock n) x ∧
      ¬ GivenUpAt (actsAfter A S start clock n) x) ∨
    (¬ FullyDone (actsAfter A S start clock n) x ∧ ¬ Deferred.At (monitorAfter A S start clock n) x ∧
      GivenUpAt (actsAfter A S start clock n) x)
  /-- an event that was relayed is one of a block that was read -/
  read_first : ∀ x event, .relayed x event ∈ actsAfter A S start clock n →
    ∃ events, .scanned x events ∈ actsAfter A S start clock n ∧ event ∈ events
  /-- a block is read once; each of its events was relayed at most once, and is not kept any more once it was -/
  at_most_once : ∀ x events, .scanned x events ∈ actsAfter A S start clock n →
    (actsAfter A S start clock n).filterMap (Act.readAt x) = [events] ∧
    ((actsAfter A S start clock n).filterMap (Act.relayedAt x)
      ++ keptEvents (monitorAfter A S start clock n) x).Subperm events
  /-- nothing of a block is relayed once it left the queue -/
  settled : ∀ x, x < (monitorAfter A S start clock n).currentBlock →
    ¬ Deferred.At (monitorAfter A S start clock n) x → ∀ k, n ≤ k →
    (actsAfter A S start clock k).filterMap (Act.relayedAt x)
      = (actsAfter A S start clock n).filterMap (Act.relayedAt x)

/-- **No event is relayed twice, and no block is lost silently.** -/
theorem every_block_accounted (A : Answers) (S : Setup) (start clock n : Nat) : Accounted A S start clock n where
  ahead x hx h := deferredAt_iff.mp h ((inOrder (A := A) (S := S) n).behind x hx)
  one_of_three x hstart hx := by
    have hthree := ((booked_after A S start clock n).passed x hstart hx).one_of_three
    rw [finished_iff, givenUp_iff] at hthree
    rw [deferredAt_iff, not_not]
    exact hthree
  read_first x event h := by
    have hbooked := booked_after A S start clock n
    have hdone := relayed_mem_done h
    have hx : ¬ (x < start ∨ (stageAfter A S start clock n).front ≤ x) := by
      intro hx
      have hblank : account x (actsAfter A S start clock n) = .blank := (hbooked.other x hx).2
      rw [hblank] at hdone
      exact List.not_mem_nil hdone
    obtain ⟨events, hread, hmem⟩ := (hbooked.passed x (by omega) (by omega)).read_of_done hdone
    exact ⟨events, mem_reads.mp hread, hmem⟩
  at_most_once x events h := by
    have hbooked := booked_after A S start clock n
    have hread := mem_reads.mpr h
    have hx : ¬ (x < start ∨ (stageAfter A S start clock n).front ≤ x) := by
      intro hx
      have hblank : account x (actsAfter A S start clock n) = .blank := (hbooked.other x hx).2
      rw [hblank] at hread
      exact List.not_mem_nil hread
    obtain ⟨hreads, hsub⟩ := (hbooked.passed x (by omega) (by omega)).subperm hread
    refine ⟨hreads, ?_⟩
    rw [keptEvents, events_eq]
    exact hsub
  settled x hx hnone k hk := by
    have hentry : (stageAfter A S start clock n).entries x = none := by
      rw [deferredAt_iff, not_not] at hnone
      exact hnone
    exact congrArg Account.done (Moves.settled (stageAfter_moves hk) hx hentry).2

/-! ## What is on record was done

The record says more than what happened to the blocks: whatever was relayed was relayed by the messages on record, and
whatever was sent was sent for an event of a block that was read. -/

section Backed
variable {A : Answers} {S : Setup}

theorem Delivered.left_subset {head height : Nat} {delivery : Delivery} {events left : List ContractEvent}
    {acts : List Act} (h : Delivered A S head height delivery events acts left) : left ⊆ events := by
  obtain ⟨done, -, hperm⟩ := h.account
  exact fun e he => hperm.subset (List.mem_append_right _ he)

theorem Delivers.left_subset {head height : Nat} {delivery : Delivery} {events left : List ContractEvent}
    {acts : List Act} (h : Delivers A S head height delivery events acts left) : left ⊆ events := by
  obtain ⟨done, -, hperm⟩ := h.account
  exact fun e he => hperm.subset (List.mem_append_right _ he)

/-- An act of delivering events: a message sent for one of them, or what came of it. -/
inductive ActFor (A : Answers) (S : Setup) (head height : Nat) (delivery : Delivery) (events : List ContractEvent)
    (acts : List Act) : Act → Prop
  | sent {event r sends message reply} : event ∈ events → Relays A S head height delivery event r sends →
      .sent message reply ∈ sends → ActFor A S head height delivery events acts (.sent message reply)
  | relayed {event sends} : event ∈ events → Relays A S head height delivery event (.ok ()) sends →
      (∀ act ∈ sends, act ∈ acts) → ActFor A S head height delivery events acts (.relayed height event)
  | failed {event} : event ∈ events → ActFor A S head height delivery events acts (.failed height event)

theorem ActFor.mono {head height : Nat} {delivery : Delivery} {events events' : List ContractEvent}
    {acts acts' : List Act} {act : Act} (h : ActFor A S head height delivery events acts act)
    (hevents : events ⊆ events') (hacts : acts ⊆ acts') : ActFor A S head height delivery events' acts' act := by
  cases h with
  | sent hmem hrelays hsent => exact .sent (hevents hmem) hrelays hsent
  | relayed hmem hrelays hsends => exact .relayed (hevents hmem) hrelays fun act hact => hacts (hsends act hact)
  | failed hmem => exact .failed (hevents hmem)

theorem Delivered.actFor {head height : Nat} {delivery : Delivery} {events left : List ContractEvent} {acts : List Act}
    (h : Delivered A S head height delivery events acts left) :
    ∀ act ∈ acts, ActFor A S head height delivery events acts act := by
  induction h with
  | nil => exact fun _ h => absurd h List.not_mem_nil
  | @done event events sends acts _ hrelays _ ih =>
      intro act hact
      rcases List.mem_append.mp hact with hact | hact
      · obtain ⟨message, reply, rfl⟩ := hrelays.sends_only act hact
        exact .sent List.mem_cons_self hrelays hact
      · rcases List.mem_cons.mp hact with rfl | hact
        · exact .relayed List.mem_cons_self hrelays fun a ha => List.mem_append_left _ ha
        · refine (ih act hact).mono (List.subset_cons_self _ _) fun a ha => ?_
          exact List.mem_append_right _ (List.mem_cons_of_mem _ ha)
  | @again event events why sends acts _ hrelays _ ih =>
      intro act hact
      rcases List.mem_append.mp hact with hact | hact
      · obtain ⟨message, reply, rfl⟩ := hrelays.sends_only act hact
        exact .sent List.mem_cons_self hrelays hact
      · rcases List.mem_cons.mp hact with rfl | hact
        · exact .failed List.mem_cons_self
        · refine (ih act hact).mono (List.subset_cons_self _ _) fun a ha => ?_
          exact List.mem_append_right _ (List.mem_cons_of_mem _ ha)

theorem Delivers.actFor {head height : Nat} {delivery : Delivery} {events left : List ContractEvent} {acts : List Act}
    (h : Delivers A S head height delivery events acts left) :
    ∀ act ∈ acts, ActFor A S head height delivery events acts act := by
  induction h with
  | pass held hheld hdelivered =>
      exact fun act hact => (hdelivered.actFor act hact).mono (List.filter_subset_self _) fun _ ha => ha
  | again hfirst _ ih ih' =>
      intro act hact
      rcases List.mem_append.mp hact with hact | hact
      · exact (ih act hact).mono (fun _ h => h) fun _ ha => List.mem_append_left _ ha
      · exact (ih' act hact).mono hfirst.left_subset fun _ ha => List.mem_append_right _ ha

/-- Every act on record is one of reading a block, of giving one up, or of delivering events of a block that was read;
    and what is kept of a block are events of it. -/
structure Backed (A : Answers) (S : Setup) (g : Stage) : Prop where
  read : ∀ x events, .scanned x events ∈ g.acts → ∃ d d', Reads A S x d events d'
  acted : ∀ act ∈ g.acts, (∃ x events, act = .scanned x events) ∨ (∃ x events, act = .gaveUp x events) ∨
    ∃ head x delivery events, .scanned x events ∈ g.acts ∧ ActFor A S head x delivery events g.acts act
  kept : ∀ x left, g.entries x = some (some left) → ∃ events, .scanned x events ∈ g.acts ∧ left ⊆ events

theorem Backed.move {g g' : Stage} (h : Backed A S g) (hmove : Move A S g g') : Backed A S g' := by
  -- what was on record stays on record
  have hold : ∀ {more : List Act}, ∀ act ∈ g.acts, (∃ x events, act = .scanned x events) ∨
      (∃ x events, act = .gaveUp x events) ∨ ∃ head x delivery events, .scanned x events ∈ g.acts ++ more ∧
        ActFor A S head x delivery events (g.acts ++ more) act := by
    intro more act hact
    rcases h.acted act hact with hs | hg | ⟨head, x, delivery, events, hread, hfor⟩
    · exact Or.inl hs
    · exact Or.inr (Or.inl hg)
    · refine Or.inr (Or.inr ⟨head, x, delivery, events, List.mem_append_left _ hread, ?_⟩)
      exact hfor.mono (fun _ h => h) fun _ ha => List.mem_append_left _ ha
  have hkept : ∀ {more : List Act} {height : Nat} {entry : Option (Option (List ContractEvent))},
      (∀ left, entry = some (some left) → ∃ events, .scanned height events ∈ g.acts ++ more ∧ left ⊆ events) →
      ∀ x left, Function.update g.entries height entry x = some (some left) →
        ∃ events, .scanned x events ∈ g.acts ++ more ∧ left ⊆ events := by
    intro more height entry hentry x left hx
    by_cases hxh : x = height
    · subst hxh
      rw [Function.update_self] at hx
      exact hentry left hx
    · rw [Function.update_of_ne hxh] at hx
      obtain ⟨events, hread, hsub⟩ := h.kept x left hx
      exact ⟨events, List.mem_append_left _ hread, hsub⟩
  have hleftover : ∀ {events left left' : List ContractEvent}, left ⊆ events → leftover left = some (some left') →
      left' ⊆ events := by
    intro events left left' hsub hleft
    unfold leftover at hleft
    split at hleft
    · cases hleft
    · obtain rfl := Option.some.inj (Option.some.inj hleft)
      exact hsub
  -- reading a block, and delivering it
  have hreading : ∀ {head height : Nat} {delivery : Delivery} {events left : List ContractEvent} {acts : List Act}
      {d d' : DelegatedCalls}, Reads A S height d events d' → Delivers A S head height delivery events acts left →
      Backed A S { g with entries := Function.update g.entries height (leftover left)
                          acts := g.acts ++ .scanned height events :: acts } := by
    intro head height delivery events left acts d d' hreads hdelivers
    have hmem : .scanned height events ∈ g.acts ++ .scanned height events :: acts :=
      List.mem_append_right _ List.mem_cons_self
    refine ⟨?_, ?_, hkept fun left' hleft => ⟨events, hmem, hleftover hdelivers.left_subset hleft⟩⟩
    · intro x es hread
      rcases List.mem_append.mp hread with hread | hread
      · exact h.read x es hread
      · rcases List.mem_cons.mp hread with heq | hread
        · cases heq
          exact ⟨d, d', hreads⟩
        · cases hdelivers.actFor _ hread
    · intro act hact
      rcases List.mem_append.mp hact with hact | hact
      · exact hold act hact
      · rcases List.mem_cons.mp hact with rfl | hact
        · exact Or.inl ⟨height, events, rfl⟩
        · refine Or.inr (Or.inr ⟨head, height, delivery, events, hmem, ?_⟩)
          refine (hdelivers.actFor act hact).mono (fun _ h => h) fun a ha => ?_
          exact List.mem_append_right _ (List.mem_cons_of_mem _ ha)
  cases hmove with
  | @gaveUp height events hentry =>
      refine ⟨?_, ?_, hkept fun _ h => by cases h⟩
      · intro x es hread
        rcases List.mem_append.mp hread with hread | hread
        · exact h.read x es hread
        · cases List.mem_singleton.mp hread
      · intro act hact
        rcases List.mem_append.mp hact with hact | hact
        · exact hold act hact
        · exact Or.inr (Or.inl ⟨height, events, List.mem_singleton.mp hact⟩)
  | deferred =>
      refine ⟨h.read, h.acted, fun x left hx => ?_⟩
      obtain ⟨events, hread, hsub⟩ := @hkept [] _ _ (fun _ h => by cases h) x left hx
      rw [List.append_nil] at hread
      exact ⟨events, hread, hsub⟩
  | headed hreads hdelivers =>
      have hb := hreading hreads hdelivers
      exact ⟨hb.read, hb.acted, hb.kept⟩
  | read _ hreads hdelivers =>
      have hb := hreading hreads hdelivers
      exact ⟨hb.read, hb.acted, hb.kept⟩
  | @resumed height events acts left hentry hdelivers =>
      obtain ⟨all, hread, hsub⟩ := h.kept height events hentry
      have hmem : .scanned height all ∈ g.acts ++ acts := List.mem_append_left _ hread
      refine ⟨?_, ?_, hkept fun left' hleft =>
        ⟨all, hmem, fun e he => hsub (hleftover hdelivers.left_subset hleft he)⟩⟩
      · intro x es hx
        rcases List.mem_append.mp hx with hx | hx
        · exact h.read x es hx
        · cases hdelivers.actFor _ hx
      · intro act hact
        rcases List.mem_append.mp hact with hact | hact
        · exact hold act hact
        · refine Or.inr (Or.inr ⟨g.front, height, .outOfOrder, all, hmem, ?_⟩)
          exact (hdelivers.actFor act hact).mono hsub fun a ha => List.mem_append_right _ ha

theorem Backed.moves {g g' : Stage} (h : Backed A S g) (hmoves : Moves A S g g') : Backed A S g' := by
  induction hmoves with
  | refl => exact h
  | tail _ hmove ih => exact ih.move hmove

theorem backed_start (start : Nat) (d : DelegatedCalls) : Backed A S (.start start d) :=
  ⟨fun _ _ h => absurd h List.not_mem_nil, fun _ h => absurd h List.not_mem_nil, fun _ _ h => by cases h⟩

theorem backed_after (start clock n : Nat) : Backed A S (stageAfter A S start clock n) := by
  obtain ⟨d, hmoves⟩ := @afterTurns_moves A S start clock n
  exact (backed_start start d).moves hmoves

end Backed

end Monitor

end Outlayer
