import Outlayer.Worker.Monitor.Relays
import Outlayer.Lib.Backlog
import Mathlib.Logic.Function.Basic
import Mathlib.Logic.Relation

/-!
# `Worker.Monitor.Moves` — the loop as moves of its blocks

The loop seen from its blocks: a block at the front is read and delivered, or deferred; a deferred one is read, or
delivered again, or given up. A `Stage` is the front, what is still to do for each block behind it, the delegates and
what was done so far; a `Move` is what happens to one block.

**Every turn is a sequence of moves** (`turn_moves`), and so is every run (`afterTurns_moves`). What holds of all
sequences of moves is all that is used of the loop from here on.
-/

namespace Outlayer
open Stateful Backlog

namespace Monitor

/-! ## What the queue holds of a block -/

/-- Nothing when the block is not in the queue. -/
def DeferredBlocks.entry (q : DeferredBlocks) (height : Nat) : Option (Option (List ContractEvent)) :=
  (q.lookup height).map Deferred.events

/-- In the order of the heights. -/
def DeferredBlocks.Sorted (q : DeferredBlocks) : Prop := OrderedMap.Sorted q.blocks

namespace DeferredBlocks
variable {q : DeferredBlocks} {height : Nat}

theorem entry_remove : (q.remove height).entry = Function.update q.entry height none := by
  funext x
  unfold entry lookup remove
  rw [OrderedMap.lookup_erase, Function.update_apply]
  split <;> rfl

/-- A change that leaves every block's events alone. -/
theorem entry_map {f : Nat × Deferred → Nat × Deferred} (hkey : ∀ e, (f e).1 = e.1)
    (hevents : ∀ e, (f e).2.events = e.2.events) : (DeferredBlocks.mk (q.blocks.map f)).entry = q.entry := by
  funext x
  unfold entry lookup
  show ((q.blocks.map f).lookup x).map Deferred.events = (q.blocks.lookup x).map Deferred.events
  induction q.blocks with
  | nil => rfl
  | cons e m ih =>
      have hfe : f e = (e.1, (f e).2) := Prod.ext (hkey e) rfl
      rw [List.map_cons, hfe, show e = (e.1, e.2) from rfl, OrderedMap.lookup_cons, OrderedMap.lookup_cons]
      split
      · exact congrArg some (hevents e)
      · exact ih

theorem entry_release {now : Nat} : (q.release height now).entry = q.entry := by
  refine entry_map ?_ ?_
  · intro e
    split <;> rfl
  · intro e
    split <;> rfl

theorem entry_retryLater {events : Option (List ContractEvent)} {now : Nat} :
    (q.retryLater height events now).entry
      = Function.update q.entry height ((q.entry height).map fun old => events.or old) := by
  funext x
  unfold entry lookup retryLater
  rw [OrderedMap.lookup_change, Function.update_apply]
  split
  · next h =>
      subst h
      cases q.blocks.lookup x <;> rfl
  · rfl

theorem entry_put {d : Deferred} :
    (DeferredBlocks.mk (OrderedMap.put height d q.blocks)).entry = Function.update q.entry height (some d.events) := by
  funext x
  unfold entry lookup
  rw [OrderedMap.lookup_put, Function.update_apply]
  split <;> rfl

/-- Without its first block. -/
theorem entry_tail {e : Nat × Deferred} {blocks : List (Nat × Deferred)} (h : OrderedMap.Sorted (e :: blocks)) :
    (DeferredBlocks.mk blocks).entry = Function.update (DeferredBlocks.mk (e :: blocks)).entry e.1 none := by
  funext x
  unfold entry lookup
  rw [Function.update_apply, show e = (e.1, e.2) from rfl, OrderedMap.lookup_cons]
  split
  · next hx =>
      subst hx
      have hnone : blocks.lookup e.1 = none := by
        rw [OrderedMap.lookup_eq_none_iff]
        intro hmem
        obtain ⟨e', he', hkey⟩ := List.mem_map.mp hmem
        exact absurd (h.head_le e' he') (by rw [hkey]; exact lt_irrefl _)
      rw [hnone]
      rfl
  · rfl

theorem mem_entry (h : q.Sorted) {e : Nat × Deferred} (he : e ∈ q.blocks) : q.entry e.1 = some e.2.events := by
  unfold entry lookup
  rw [(OrderedMap.lookup_eq_some_iff h).mpr he]
  rfl

/-! ### Order -/

theorem Sorted.remove (h : q.Sorted) : (q.remove height).Sorted := OrderedMap.Sorted.erase h

theorem Sorted.retryLater (h : q.Sorted) {events : Option (List ContractEvent)} {now : Nat} :
    (q.retryLater height events now).Sorted := by
  unfold DeferredBlocks.retryLater DeferredBlocks.Sorted
  dsimp only
  exact OrderedMap.Sorted.change h

theorem Sorted.release (h : q.Sorted) {now : Nat} : (q.release height now).Sorted := by
  refine OrderedMap.Sorted.map h _ ?_
  intro e
  split <;> rfl

theorem Sorted.due_nodup (h : q.Sorted) {now limit : Nat} : (q.due now limit).Nodup := by
  refine List.Nodup.sublist (List.take_sublist _ _) ?_
  exact (List.pairwise_map.mpr (h.filter _)).imp fun hlt => ne_of_lt hlt

theorem Sorted.mem_due (h : q.Sorted) {now limit : Nat} (hmem : height ∈ q.due now limit) :
    q.entry height ≠ none := by
  obtain ⟨e, he, rfl⟩ := List.mem_map.mp (List.mem_of_mem_take hmem)
  rw [mem_entry h (List.mem_of_mem_filter he)]
  intro hnone
  cases hnone

end DeferredBlocks

/-! ## Delivering a block -/

/-- Relaying events one after the other: what was done, and the events to be delivered again. -/
inductive Delivered (A : Answers) (S : Setup) (head height : Nat) (delivery : Delivery) :
    List ContractEvent → List Act → List ContractEvent → Prop
  | nil : Delivered A S head height delivery [] [] []
  | done {event events sends acts again} : Relays A S head height delivery event (.ok ()) sends →
      Delivered A S head height delivery events acts again →
      Delivered A S head height delivery (event :: events) (sends ++ .relayed height event :: acts) again
  | again {event events why sends acts again} : Relays A S head height delivery event (.error why) sends →
      Delivered A S head height delivery events acts again →
      Delivered A S head height delivery (event :: events) (sends ++ .failed height event :: acts) (event :: again)

/-- Delivering a block once, the events that wait held back, or several times, each time what was left. -/
inductive Delivers (A : Answers) (S : Setup) (head height : Nat) (delivery : Delivery) :
    List ContractEvent → List Act → List ContractEvent → Prop
  | pass {events acts again} (held : ContractEvent → Bool)
      (hheld : ∀ e, held e = true → mayBeUnattributedMetaTx e = true) :
      Delivered A S head height delivery (events.filter fun e => !held e) acts again →
      Delivers A S head height delivery events acts (again ++ events.filter held)
  | again {events acts left acts' left'} : Delivers A S head height delivery events acts left →
      Delivers A S head height delivery left acts' left' →
      Delivers A S head height delivery events (acts ++ acts') left'

section Delivering
variable {A : Answers} {S : Setup}

theorem sends_relayAll (m : EventMonitor) (height : Nat) (delivery : Delivery) (age : Age)
    (events : List ContractEvent) :
    Sends (relayAll A S m height delivery age events) fun out acts =>
      Delivered A S m.currentBlock height delivery events acts out.1 := by
  induction events with
  | nil => exact emits_pure .nil
  | cons event events ih =>
      refine (sends_relay m event delivery age height).bind
        (Q := fun r out acts => ∃ rest again, out.1 = again ++ rest ∧ ∃ act acts', acts = act :: acts' ∧
          Delivered A S m.currentBlock height delivery events acts' rest ∧
          ((r = .ok () ∧ act = .relayed height event ∧ again = []) ∨
            ((∃ why, r = .error why) ∧ act = .failed height event ∧ again = [event]))) ?_ ?_
      · rintro (why | ⟨⟩)
        · have hrest : Sends (relayAll A S m height delivery age events >>= fun out =>
              pure (event :: out.1, out.2.or (some why))) fun r acts => ∃ rest, r.1 = event :: rest ∧
                Delivered A S m.currentBlock height delivery events acts rest := by
            refine ih.bind (fun out => silent_pure
              (P := fun r : List ContractEvent × Option String => r.1 = event :: out.1) rfl) ?_
            rintro out acts r more hdelivered ⟨rfl, hr⟩
            rw [List.append_nil]
            exact ⟨out.1, hr, hdelivered⟩
          refine sends_note.bind (fun _ => hrest) ?_
          rintro _ _ r acts rfl ⟨rest, hr, hdelivered⟩
          exact ⟨rest, [event], hr, _, acts, rfl, hdelivered, Or.inr ⟨⟨why, rfl⟩, rfl, rfl⟩⟩
        · refine sends_note.bind (fun _ => ih) ?_
          rintro _ _ out acts rfl hdelivered
          exact ⟨out.1, [], rfl, _, acts, rfl, hdelivered, Or.inl ⟨rfl, rfl, rfl⟩⟩
      · rintro r sends out acts hrelays ⟨rest, again, hout, act, acts', rfl, hdelivered, hcase⟩
        rw [hout]
        rcases hcase with ⟨rfl, rfl, rfl⟩ | ⟨⟨why, rfl⟩, rfl, rfl⟩
        · exact .done hrelays hdelivered
        · exact .again hrelays hdelivered

/-- What is left of a block, as events. -/
def Leftover.rest : Option Leftover → List ContractEvent
  | none      => []
  | some left => left.events

theorem sends_deliver (m : EventMonitor) (height : Nat) (events : List ContractEvent) (delivery : Delivery) :
    Sends (deliver A S m height events delivery) fun left acts =>
      Delivers A S m.currentBlock height delivery events acts (Leftover.rest left) ∧
      ∀ l, left = some l → l.events ≠ [] := by
  unfold deliver
  by_cases hempty : events = []
  · rw [if_pos hempty]
    refine emits_pure ⟨?_, fun _ h => by cases h⟩
    rw [hempty]
    exact @Delivers.pass _ _ _ _ _ [] _ _ (fun _ => false) (fun _ h => by cases h) .nil
  · rw [if_neg hempty]
    let held : ContractEvent → Bool := fun e => m.deferred.unreadJustBefore height && mayBeUnattributedMetaTx e
    have hheld : ∀ e, held e = true → mayBeUnattributedMetaTx e = true := fun e h => (Bool.and_eq_true_iff.mp h).2
    have hready : Sends (relayReady A S m height delivery (events.filter fun e => !held e)) fun out acts =>
        Delivered A S m.currentBlock height delivery (events.filter fun e => !held e) acts out.1 := by
      unfold relayReady
      split
      · next hnil =>
          rw [hnil]
          exact emits_pure .nil
      · exact asks_ageOf.bind fun age _ => sends_relayAll m height delivery age _
    refine hready.bind (Q := fun out left acts => acts = [] ∧
      Leftover.rest left = out.1 ++ events.filter held ∧ ∀ l, left = some l → l.events ≠ []) ?_ ?_
    · rintro ⟨again, why⟩
      by_cases hnone : events.filter held = [] ∧ again = []
      · refine emits_pure_of_eq (if_pos hnone) ⟨rfl, ?_, fun _ h => by cases h⟩
        rw [hnone.1, hnone.2]
        rfl
      · refine emits_pure_of_eq (if_neg hnone) ⟨rfl, rfl, ?_⟩
        rintro l hl hnil
        obtain rfl := Option.some.inj hl
        exact hnone (List.append_eq_nil_iff.mp hnil).symm
    · rintro out acts left more hdelivered ⟨rfl, hleft, hne⟩
      rw [List.append_nil, hleft]
      exact ⟨.pass held hheld hdelivered, hne⟩

end Delivering

/-! ## Stages and moves -/

/-- A block's events, and the delegates once they were read. -/
def scanned (S : Setup) (d : DelegatedCalls) (height : Nat) (block : BlockData) :
    List ContractEvent × DelegatedCalls :=
  match block.shards with
  | none        => ([], d)
  | some shards => processShards S d shards height

/-- A read of the block gave these events, and these delegates after. -/
def Reads (A : Answers) (S : Setup) (height : Nat) (d : DelegatedCalls) (events : List ContractEvent)
    (d' : DelegatedCalls) : Prop :=
  ∃ t timeout block, A.read t height timeout = .block block ∧ scanned S d height block = (events, d')

/-- The loop, seen from its blocks: those behind the front that are not done are in `entries`. -/
structure Stage where
  front : Nat
  entries : Nat → Option (Option (List ContractEvent))
  delegated : DelegatedCalls
  acts : List Act

namespace Stage

/-- One entry changes. -/
def put (g : Stage) (height : Nat) (entry : Option (Option (List ContractEvent))) : Stage :=
  { g with entries := Function.update g.entries height entry }

/-- More was done. -/
def does (g : Stage) (acts : List Act) : Stage := { g with acts := g.acts ++ acts }

/-- Other calls are known as delegated. -/
def remembers (g : Stage) (d : DelegatedCalls) : Stage := { g with delegated := d }

/-- The front moves one block on. -/
def advance (g : Stage) : Stage := { g with front := g.front + 1 }

end Stage

/-- What happens to one block. -/
inductive Move (A : Answers) (S : Setup) : Stage → Stage → Prop
  | gaveUp {g : Stage} {height events} : g.entries height = some events →
      Move A S g ((g.put height none).does [.gaveUp height events])
  | deferred {g : Stage} : Move A S g (g.put g.front (some none)).advance
  /-- the front's block, in order -/
  | headed {g : Stage} {events d acts left} : Reads A S g.front g.delegated events d →
      Delivers A S g.front g.front .inOrder events acts left →
      Move A S g (((g.put g.front (leftover left)).remembers d).does (.scanned g.front events :: acts)).advance
  /-- a block left unread -/
  | read {g : Stage} {height events d acts left} : g.entries height = some none →
      Reads A S height g.delegated events d → Delivers A S g.front height .outOfOrder events acts left →
      Move A S g (((g.put height (leftover left)).remembers d).does (.scanned height events :: acts))
  /-- a block read before -/
  | resumed {g : Stage} {height events acts left} : g.entries height = some (some events) →
      Delivers A S g.front height .outOfOrder events acts left →
      Move A S g ((g.put height (leftover left)).does acts)

/-- Any number of moves. -/
abbrev Moves (A : Answers) (S : Setup) : Stage → Stage → Prop := Relation.ReflTransGen (Move A S)

/-- What a session and a queue come to. -/
def stage (front : Nat) (q : DeferredBlocks) (s : Session) : Stage := ⟨front, q.entry, s.delegated, s.acts⟩

section Refinement
variable {A : Answers} {S : Setup}

/-! ### Giving up -/

theorem does_noteGivenUp (givenUps : List GivenUp) :
    Sends (noteGivenUp givenUps) fun _ acts => acts = givenUps.map fun g => .gaveUp g.1 g.2 := by
  induction givenUps with
  | nil => exact emits_pure rfl
  | cons g gs ih =>
      refine sends_note.bind (fun _ => ih) ?_
      rintro _ _ _ _ rfl rfl
      rfl

/-- Blocks given up, in this order, take a queue to another. -/
inductive GivesUp : DeferredBlocks → List GivenUp → DeferredBlocks → Prop
  | nil {q} : GivesUp q [] q
  | cons {q q' q'' : DeferredBlocks} {height events givenUps} : q.entry height = some events →
      q'.entry = Function.update q.entry height none → GivesUp q' givenUps q'' →
      GivesUp q ((height, events) :: givenUps) q''

theorem GivesUp.moves {q q' : DeferredBlocks} {givenUps : List GivenUp} (h : GivesUp q givenUps q') {front : Nat}
    {s s' : Session} (hdelegated : s'.delegated = s.delegated)
    (hacts : s'.acts = s.acts ++ givenUps.map fun g => .gaveUp g.1 g.2) :
    Moves A S (stage front q s) (stage front q' s') := by
  induction h generalizing s with
  | nil =>
      rw [List.map_nil, List.append_nil] at hacts
      unfold stage
      rw [hdelegated, hacts]
  | @cons q q₁ q₂ height events givenUps hentry hupdate _ ih =>
      let s₁ : Session := { s with acts := s.acts ++ [.gaveUp height events] }
      have hmove : Move A S (stage front q s) (stage front q₁ s₁) := by
        have hstage : stage front q₁ s₁ = ((stage front q s).put height none).does [.gaveUp height events] := by
          unfold stage
          rw [hupdate]
          rfl
        rw [hstage]
        exact .gaveUp hentry
      refine .head hmove (ih hdelegated ?_)
      rw [hacts, List.map_cons, List.append_assoc]
      rfl

theorem giveUp_givesUp {q : DeferredBlocks} (hq : q.Sorted) (height now : Nat) :
    GivesUp q (q.giveUp height now).2 (q.giveUp height now).1 ∧ (q.giveUp height now).1.Sorted ∧
      ∀ x, x ≠ height → (q.giveUp height now).1.entry x = q.entry x := by
  unfold DeferredBlocks.giveUp
  cases hlookup : q.lookup height with
  | none => exact ⟨.nil, hq, fun _ _ => rfl⟩
  | some d =>
      have hentry : q.entry height = some d.events := by
        unfold DeferredBlocks.entry
        rw [hlookup]
        rfl
      have hremoved : ∀ x, x ≠ height → (q.remove height).entry x = q.entry x := by
        intro x hx
        rw [DeferredBlocks.entry_remove, Function.update_of_ne hx]
      cases hevents : d.events with
      | none =>
          dsimp only
          rw [hevents]
          rw [hevents] at hentry
          refine ⟨.cons hentry ?_ .nil, hq.remove.release, ?_⟩
          · rw [DeferredBlocks.entry_release, DeferredBlocks.entry_remove]
          · rw [DeferredBlocks.entry_release]
            exact hremoved
      | some events =>
          dsimp only
          rw [hevents]
          rw [hevents] at hentry
          exact ⟨.cons hentry DeferredBlocks.entry_remove .nil, hq.remove, hremoved⟩

theorem GivesUp.append {q q' q'' : DeferredBlocks} {g g' : List GivenUp} (h : GivesUp q g q')
    (h' : GivesUp q' g' q'') : GivesUp q (g ++ g') q'' := by
  induction h with
  | nil => exact h'
  | cons hentry hupdate _ ih => exact .cons hentry hupdate (ih h')

theorem giveUpAll_givesUp (now : Nat) (heights : List Nat) {q : DeferredBlocks} (hq : q.Sorted) :
    GivesUp q (DeferredBlocks.giveUpAll now heights q).2 (DeferredBlocks.giveUpAll now heights q).1 ∧
      (DeferredBlocks.giveUpAll now heights q).1.Sorted := by
  induction heights generalizing q with
  | nil => exact ⟨.nil, hq⟩
  | cons height heights ih =>
      obtain ⟨hgives, hsorted, -⟩ := giveUp_givesUp hq height now
      obtain ⟨hrest, hsorted'⟩ := ih hsorted
      exact ⟨hgives.append hrest, hsorted'⟩

/-- Adding a block, and giving one up when there are too many. -/
theorem insert_givesUp {q : DeferredBlocks} (hq : q.Sorted) (height : Nat) (events : Option (List ContractEvent))
    (now : Nat) : ∃ q₁ : DeferredBlocks, q₁.entry = Function.update q.entry height (some events) ∧
      GivesUp q₁ (q.insert height events now).2.toList (q.insert height events now).1 ∧
      (q.insert height events now).1.Sorted := by
  let d : Deferred := { tries := 0, nextTry := now + deferredPause 0, events }
  have hput : OrderedMap.Sorted (OrderedMap.put height d q.blocks) := OrderedMap.Sorted.put hq
  refine ⟨⟨OrderedMap.put height d q.blocks⟩, DeferredBlocks.entry_put, ?_⟩
  unfold DeferredBlocks.insert
  dsimp only
  split
  · next hfull =>
      cases hblocks : OrderedMap.put height d q.blocks with
      | nil =>
          rw [hblocks] at hfull
          cases hfull
      | cons e blocks =>
          rw [hblocks] at hput
          have hentry := DeferredBlocks.mem_entry (q := ⟨e :: blocks⟩) hput List.mem_cons_self
          exact ⟨.cons hentry (DeferredBlocks.entry_tail hput) .nil, hput.tail⟩
  · exact ⟨.nil, hput⟩

/-! ### The front -/

/-- Adding a block, and reporting the one given up for it. -/
theorem does_insert {m : EventMonitor} (hm : m.deferred.Sorted) (height : Nat)
    (events : Option (List ContractEvent)) (now_ front : Nat) :
    Does (m.queue (m.deferred.insert height events now_)) fun s m' s' =>
      m' = { m with deferred := m'.deferred } ∧ m'.deferred.Sorted ∧
      Moves A S ((stage front m.deferred s).put height (some events)) (stage front m'.deferred s') := by
  refine Emits.then (does_noteGivenUp _) ?_
  rintro _ acts s s' rfl hdelegated hacts
  obtain ⟨q₁, hentry, hgives, hsorted⟩ := insert_givesUp hm height events now_
  have hstage : (stage front m.deferred s).put height (some events) = stage front q₁ s := by
    unfold stage Stage.put
    rw [hentry]
  refine ⟨rfl, hsorted, ?_⟩
  rw [hstage]
  exact hgives.moves hdelegated hacts

/-- Deferring the block at the front. -/
theorem does_defer {m : EventMonitor} (hm : m.deferred.Sorted) (height : Nat) :
    Does (m.defer height) fun s m' s' => m' = { m with deferred := m'.deferred } ∧ m'.deferred.Sorted ∧
      Moves A S (stage height m.deferred s) (stage (height + 1) m'.deferred s') := by
  refine Silent.then asks_now ?_
  rintro now_ s s₁ - hdelegated hacts
  obtain ⟨heq, hsorted, hmoves⟩ := does_insert (A := A) (S := S) hm height none now_ (height + 1) s₁
  refine ⟨heq, hsorted, .head ?_ hmoves⟩
  have hstage : (stage (height + 1) m.deferred s₁).put height (some none)
      = ((stage height m.deferred s).put height (some none)).advance := by
    unfold stage Stage.put Stage.advance
    rw [hdelegated, hacts]
  rw [hstage]
  exact .deferred

/-- Deferring the blocks from the front on. -/
theorem does_deferAll (n : Nat) {m : EventMonitor} (hm : m.deferred.Sorted) (height : Nat) :
    Does (deferAll (List.range' height n) m) fun s m' s' => m' = { m with deferred := m'.deferred } ∧
      m'.deferred.Sorted ∧ Moves A S (stage height m.deferred s) (stage (height + n) m'.deferred s') := by
  induction n generalizing m height with
  | zero => exact does_pure fun s => ⟨rfl, hm, .refl⟩
  | succ n ih =>
      rw [List.range'_succ]
      refine Does.bind' (does_defer (A := A) (S := S) hm height) ?_
      rintro s m₁ s₁ ⟨heq, hsorted, hmoves⟩
      obtain ⟨heq', hsorted', hmoves'⟩ := ih hsorted (height + 1) s₁
      refine ⟨?_, hsorted', hmoves.trans ?_⟩
      · rw [heq', heq]
      · rw [show height + (n + 1) = height + 1 + n by omega]
        exact hmoves'

/-- What a scan did: a read block's events are noted and its delegates remembered. -/
def ScanDid (A : Answers) (S : Setup) (height : Nat) (s : Session) (scan : Scan) (s' : Session) : Prop :=
  match scan with
  | .events events => Reads A S height s.delegated events s'.delegated ∧ s'.acts = s.acts ++ [.scanned height events]
  | .notIndexed    => s'.delegated = s.delegated ∧ s'.acts = s.acts
  | .unreadable _  => s'.delegated = s.delegated ∧ s'.acts = s.acts

theorem ScanDid.after {height : Nat} {s₀ s s' : Session} {scan : Scan} (h : ScanDid A S height s scan s')
    (hdelegated : s.delegated = s₀.delegated) (hacts : s.acts = s₀.acts) : ScanDid A S height s₀ scan s' := by
  unfold ScanDid at h ⊢
  rw [hdelegated, hacts] at h
  exact h

/-- The scan of a block that was read. -/
theorem does_scanBlock (height : Nat) (block : BlockData) :
    Does (scanBlock S height block) fun s events s' =>
      scanned S s.delegated height block = (events, s'.delegated) ∧ s'.acts = s.acts := by
  intro s
  unfold scanBlock scanned
  cases block.shards with
  | none => exact ⟨rfl, rfl⟩
  | some shards => exact ⟨rfl, rfl⟩

theorem does_scanOnce (height timeout : Nat) : Does (scanOnce A S height timeout) (ScanDid A S height) := by
  refine Silent.then asks_ask ?_
  rintro read s s₁ ⟨t, hread⟩ hdelegated hacts
  cases read with
  | notIndexed => exact ⟨hdelegated, hacts⟩
  | failed why => exact ⟨hdelegated, hacts⟩
  | block block =>
      refine Does.bind' (R := fun s' scan s'' => s' = s₁ → ScanDid A S height s scan s'')
        (does_scanBlock (S := S) height block) ?_ s₁ rfl
      rintro s' events s₂ ⟨hscanned, hacts'⟩ rfl
      refine ⟨⟨t, timeout, block, hread.symm, ?_⟩, ?_⟩
      · rw [← hdelegated]
        exact hscanned
      · show s₂.acts ++ [Act.scanned height events] = s.acts ++ [Act.scanned height events]
        rw [hacts', hacts]

theorem does_scanUntil (height deadline further : Nat) :
    Does (scanUntil A S height deadline further) (ScanDid A S height) := by
  induction further using Nat.strongRecOn with
  | ind further ih =>
    unfold scanUntil
    refine Silent.then asks_now ?_
    rintro now_ s s₁ - hdelegated hacts
    refine Does.bind' (R := fun s' scan s'' => s' = s₁ → ScanDid A S height s scan s'')
      (does_scanOnce (A := A) (S := S) height _) ?_ s₁ rfl
    rintro s' scan s₂ hdid rfl
    have hdid := hdid.after hdelegated hacts
    cases scan with
    | events events => exact hdid
    | notIndexed => exact hdid
    | unreadable why =>
        -- not read: nothing happened so far, and nothing does until the next try
        refine Silent.then (R := fun s' scan s'' => s' = s₂ → ScanDid A S height s scan s'') asks_now ?_ s₂ rfl
        rintro now_ s' s₃ - hdelegated' hacts' rfl
        split
        · exact ⟨hdelegated'.trans hdid.1, hacts'.trans hdid.2⟩
        · refine Silent.then (R := fun s' scan s'' => s' = s₃ → ScanDid A S height s scan s'') asks_sleep ?_ s₃ rfl
          rintro _ s'' s₄ - hdelegated'' hacts'' rfl
          have hd : s₄.delegated = s.delegated := hdelegated''.trans (hdelegated'.trans hdid.1)
          have ha : s₄.acts = s.acts := hacts''.trans (hacts'.trans hdid.2)
          cases further with
          | zero => exact ⟨hd, ha⟩
          | succ further => exact (ih further (Nat.lt_succ_self further) s₄).after hd ha

theorem does_scanWithin (height budget : Nat) :
    Does (scanWithin A S height budget) (ScanDid A S height) := by
  refine Silent.then asks_now ?_
  rintro now_ s s₁ - hdelegated hacts
  exact (does_scanUntil height _ _ s₁).after hdelegated hacts

/-- Holding the front's block: what was left is kept in the end, or what further deliveries left of it. -/
theorem sends_hold (m : EventMonitor) (height n : Nat) {left : Option Leftover}
    (hleft : ∀ l, left = some l → l.events ≠ []) :
    Sends (hold A S m height n left) fun kept acts =>
      kept.map some = leftover (kept.getD []) ∧
      ((kept.getD [] = Leftover.rest left ∧ acts = []) ∨
        Delivers A S m.currentBlock height .inOrder (Leftover.rest left) acts (kept.getD [])) := by
  induction n generalizing left with
  | zero =>
      cases left with
      | none => exact emits_pure ⟨rfl, Or.inl ⟨rfl, rfl⟩⟩
      | some l => exact emits_pure ⟨(if_neg (hleft l rfl)).symm, Or.inl ⟨rfl, rfl⟩⟩
  | succ n ih =>
      cases left with
      | none => exact emits_pure ⟨rfl, Or.inl ⟨rfl, rfl⟩⟩
      | some l =>
          unfold hold
          split
          · exact emits_pure ⟨(if_neg (hleft l rfl)).symm, Or.inl ⟨rfl, rfl⟩⟩
          · refine asks_sleep.bind fun _ _ => ?_
            intro s
            obtain ⟨hfixed, acts, hacts, hdelivers, hne⟩ :=
              sends_deliver (A := A) (S := S) m height l.events .inOrder s
            obtain ⟨hfixed', acts', hacts', hkept, hrest⟩ := ih hne ((deliver A S m height l.events .inOrder).run s).2
            refine ⟨hfixed'.trans hfixed, acts ++ acts', ?_, hkept, Or.inr ?_⟩
            · rw [hacts, List.append_assoc] at hacts'
              exact hacts'
            · rcases hrest with ⟨heq, rfl⟩ | hagain
              · rw [List.append_nil]
                exact heq ▸ hdelivers
              · exact .again hdelivers hagain

theorem sends_deliverHeld (m : EventMonitor) (height : Nat) (events : List ContractEvent) :
    Sends (deliverHeld A S m height events) fun kept acts => kept.map some = leftover (kept.getD []) ∧
      Delivers A S m.currentBlock height .inOrder events acts (kept.getD []) := by
  intro s
  obtain ⟨hfixed, acts, hacts, hdelivers, hne⟩ := sends_deliver (A := A) (S := S) m height events .inOrder s
  obtain ⟨hfixed', acts', hacts', hkept, hrest⟩ := sends_hold (A := A) (S := S) m height (maxRelayRetries - 1) hne
    ((deliver A S m height events .inOrder).run s).2
  refine ⟨hfixed'.trans hfixed, acts ++ acts', ?_, hkept, ?_⟩
  · rw [hacts, List.append_assoc] at hacts'
    exact hacts'
  · rcases hrest with ⟨heq, rfl⟩ | hagain
    · rw [List.append_nil]
      exact heq ▸ hdelivers
    · exact .again hdelivers hagain

theorem does_keepLeft {m : EventMonitor} (hm : m.deferred.Sorted) {height : Nat}
    (hheight : m.deferred.entry height = none) (kept : Option (List ContractEvent)) (front : Nat) :
    Does (m.keepLeft height kept) fun s m' s' => m' = { m with deferred := m'.deferred } ∧ m'.deferred.Sorted ∧
      Moves A S ((stage front m.deferred s).put height (kept.map some)) (stage front m'.deferred s') := by
  cases kept with
  | none =>
      refine does_pure fun s => ⟨rfl, hm, ?_⟩
      have hput : (stage front m.deferred s).put height none = stage front m.deferred s := by
        unfold stage Stage.put
        exact congrArg (fun entries => Stage.mk _ entries _ _) (Function.update_eq_self_iff.mpr hheight.symm)
      rw [Option.map_none, hput]
  | some kept =>
      refine Silent.then asks_now ?_
      rintro now_ s s₁ - hdelegated hacts
      obtain ⟨heq, hsorted, hmoves⟩ := does_insert (A := A) (S := S) hm height (some kept) now_ front s₁
      refine ⟨heq, hsorted, ?_⟩
      have hstage : stage front m.deferred s₁ = stage front m.deferred s := by
        unfold stage
        rw [hdelegated, hacts]
      rw [← hstage]
      exact hmoves

/-- Delivering the front's block, from the stage that has its events in hand. -/
theorem does_deliverHead {m : EventMonitor} (hm : m.deferred.Sorted)
    (hhead : m.deferred.entry m.currentBlock = none) (events : List ContractEvent) :
    Does (deliverHead A S m events) fun s m' s' =>
      m' = { m with deferred := m'.deferred }.setHead (m.currentBlock + 1) ∧ m'.deferred.Sorted ∧
      ∃ acts left, Delivers A S m.currentBlock m.currentBlock .inOrder events acts left ∧
        Moves A S ((((stage m.currentBlock m.deferred s).put m.currentBlock (leftover left)).does acts).advance)
          (stage (m.currentBlock + 1) m'.deferred s') := by
  refine Emits.then (sends_deliverHeld (A := A) (S := S) m m.currentBlock events) ?_
  rintro kept acts s s₁ ⟨hkept, hdelivers⟩ hdelegated hacts
  obtain ⟨heq, hsorted, hmoves⟩ := does_keepLeft (A := A) (S := S) hm hhead kept (m.currentBlock + 1) s₁
  refine ⟨?_, hsorted, acts, kept.getD [], hdelivers, ?_⟩
  · exact congrArg (fun m : EventMonitor => m.setHead (m.currentBlock + 1)) heq
  · have hstage : ((((stage m.currentBlock m.deferred s).put m.currentBlock (leftover (kept.getD []))).does
        acts).advance) = (stage (m.currentBlock + 1) m.deferred s₁).put m.currentBlock (kept.map some) := by
      unfold stage Stage.put Stage.does Stage.advance
      rw [hkept, hdelegated, hacts]
    rw [hstage]
    exact hmoves

/-! ### Behind the front -/

/-- Nothing in front of the head is in the queue. -/
def Stage.Behind (g : Stage) : Prop := ∀ x, g.front ≤ x → g.entries x = none

theorem Move.behind {g g' : Stage} (h : Move A S g g') (hg : g.Behind) : g'.Behind := by
  -- a block that is moved is behind the front, or is the front's and the front moves past it
  have hput : ∀ {height entry} (x : Nat), g.entries height ≠ none → g.front ≤ x →
      Function.update g.entries height entry x = none := by
    intro height entry x hne hx
    have hxne : x ≠ height := by
      rintro rfl
      exact hne (hg x hx)
    rw [Function.update_of_ne hxne]
    exact hg x hx
  have hpast : ∀ {entry} (x : Nat), g.front + 1 ≤ x → Function.update g.entries g.front entry x = none := by
    intro entry x hx
    rw [Function.update_of_ne (by omega)]
    exact hg x (by omega)
  cases h with
  | gaveUp hentry => exact fun x hx => hput x (by rw [hentry]; exact Option.some_ne_none _) hx
  | deferred => exact fun x hx => hpast x hx
  | headed => exact fun x hx => hpast x hx
  | read hentry => exact fun x hx => hput x (by rw [hentry]; exact Option.some_ne_none _) hx
  | resumed hentry => exact fun x hx => hput x (by rw [hentry]; exact Option.some_ne_none _) hx

theorem Moves.behind {g g' : Stage} (h : Moves A S g g') (hg : g.Behind) : g'.Behind := by
  induction h with
  | refl => exact hg
  | tail _ hmove ih => exact hmove.behind ih

/-! ### The queue -/

theorem events_eq (q : DeferredBlocks) (height : Nat) : q.events height = (q.entry height).join := by
  unfold DeferredBlocks.events DeferredBlocks.entry
  cases q.lookup height <;> rfl

/-- The events a deferred block still has to deliver: those kept of it, or all when it is read now. -/
theorem does_deferredEvents {m : EventMonitor} {height : Nat} {entry : Option (List ContractEvent)}
    (hentry : m.deferred.entry height = some entry) :
    Does (deferredEvents A S m height) fun s events s' =>
      (s'.delegated = s.delegated ∧ s'.acts = s.acts ∧ (events = none → entry = none) ∧
        (∀ es, events = some es → entry = some es)) ∨
      (entry = none ∧ ∃ es, events = some es ∧ Reads A S height s.delegated es s'.delegated ∧
        s'.acts = s.acts ++ [.scanned height es]) := by
  unfold deferredEvents
  rw [events_eq, hentry]
  cases entry with
  | some es => exact does_pure fun s => Or.inl ⟨rfl, rfl, fun h => (by cases h), fun _ h => h⟩
  | none =>
      refine Does.bind' (does_scanOnce (A := A) (S := S) height _) ?_
      rintro s scan s' hdid
      cases scan with
      | events es => exact Or.inr ⟨rfl, es, rfl, hdid.1, hdid.2⟩
      | notIndexed => exact Or.inl ⟨hdid.1, hdid.2, fun _ => rfl, fun _ h => by cases h⟩
      | unreadable why => exact Or.inl ⟨hdid.1, hdid.2, fun _ => rfl, fun _ h => by cases h⟩

/-- Delivering a block of the queue. -/
theorem does_deliverDeferred {m : EventMonitor} (hm : m.deferred.Sorted) {height : Nat}
    (hentry : m.deferred.entry height ≠ none) (now_ : Nat) (events : List ContractEvent) :
    Does (deliverDeferred A S m height now_ events) fun s m' s' =>
      m' = { m with deferred := m'.deferred } ∧ m'.deferred.Sorted ∧
      ∃ acts left, Delivers A S m.currentBlock height .outOfOrder events acts left ∧
        m'.deferred.entry = Function.update m.deferred.entry height (leftover left) ∧
        s'.delegated = s.delegated ∧ s'.acts = s.acts ++ acts := by
  obtain ⟨entry, hentry⟩ := Option.ne_none_iff_exists'.mp hentry
  refine Emits.then (sends_deliver (A := A) (S := S) m height events .outOfOrder) ?_
  rintro left acts s s' ⟨hdelivers, hne⟩ hdelegated hacts
  cases left with
  | none =>
      exact ⟨rfl, hm.remove, acts, [], hdelivers, DeferredBlocks.entry_remove, hdelegated, hacts⟩
  | some left =>
      refine ⟨rfl, hm.retryLater, acts, left.events, hdelivers, ?_, hdelegated, hacts⟩
      show (m.deferred.retryLater height (some left.events) now_).entry = _
      rw [DeferredBlocks.entry_retryLater, hentry, leftover, if_neg (hne left rfl)]
      rfl

/-- Moves of the queue alone: the head stays where it is. -/
structure QueueMoves (A : Answers) (S : Setup) (m : EventMonitor) (s : Session) (m' : EventMonitor) (s' : Session) :
    Prop where
  same : m' = { m with deferred := m'.deferred }
  sorted : m'.deferred.Sorted
  moves : Moves A S (stage m.currentBlock m.deferred s) (stage m.currentBlock m'.deferred s')

theorem stage_congr {s s' : Session} (front : Nat) (q : DeferredBlocks) (hdelegated : s'.delegated = s.delegated)
    (hacts : s'.acts = s.acts) : stage front q s' = stage front q s := by
  unfold stage
  rw [hdelegated, hacts]

theorem QueueMoves.after {m m' : EventMonitor} {s₀ s s' : Session} (h : QueueMoves A S m s m' s')
    (hdelegated : s.delegated = s₀.delegated) (hacts : s.acts = s₀.acts) : QueueMoves A S m s₀ m' s' :=
  ⟨h.same, h.sorted, stage_congr m.currentBlock m.deferred hdelegated hacts ▸ h.moves⟩

theorem QueueMoves.trans {m m₁ m₂ : EventMonitor} {s s₁ s₂ : Session} (h : QueueMoves A S m s m₁ s₁)
    (h' : QueueMoves A S m₁ s₁ m₂ s₂) : QueueMoves A S m s m₂ s₂ := by
  have hblock : m₁.currentBlock = m.currentBlock := by rw [h.same]
  refine ⟨?_, h'.sorted, h.moves.trans ?_⟩
  · rw [h'.same, h.same]
  · rw [← hblock]
    exact h'.moves

/-- Trying one block of the queue. -/
theorem does_serveOne {m : EventMonitor} (hm : m.deferred.Sorted) {height : Nat}
    (hentry : m.deferred.entry height ≠ none) :
    Does (serveOne A S m height) fun s m' s' => QueueMoves A S m s m' s' ∧
      ∀ x, x ≠ height → m'.deferred.entry x = m.deferred.entry x := by
  obtain ⟨entry, hin⟩ := Option.ne_none_iff_exists'.mp hentry
  refine Does.bind' (does_deferredEvents (A := A) (S := S) hin) ?_
  rintro s events s₁ hevents
  refine Silent.then (R := fun s₁' m' s' => s₁' = s₁ → QueueMoves A S m s m' s' ∧
    ∀ x, x ≠ height → m'.deferred.entry x = m.deferred.entry x) asks_now ?_ s₁ rfl
  rintro now_ s₁' s₂ - hdelegated₂ hacts₂ rfl
  cases events with
  | none =>
      -- still unread
      rcases hevents with ⟨hdelegated, hacts, hnone, -⟩ | ⟨-, es, h, -⟩
      · obtain rfl := hnone rfl
        have hsame : (m.deferred.retryLater height none now_).entry = m.deferred.entry := by
          rw [DeferredBlocks.entry_retryLater, hin]
          exact Function.update_eq_self_iff.mpr hin.symm
        have hstage : stage m.currentBlock (m.deferred.retryLater height none now_) s₂
            = stage m.currentBlock m.deferred s := by
          unfold stage
          rw [hsame, hdelegated₂, hacts₂, hdelegated, hacts]
        refine ⟨⟨rfl, hm.retryLater, ?_⟩, fun x _ => congrFun hsame x⟩
        show Moves A S _ (stage m.currentBlock (m.deferred.retryLater height none now_) s₂)
        rw [hstage]
      · cases h
  | some es =>
      obtain ⟨heq, hsorted, acts, left, hdelivers, hupdate, hdelegated, hacts⟩ :=
        does_deliverDeferred (A := A) (S := S) hm hentry now_ es s₂
      generalize hout : (deliverDeferred A S m height now_ es).run s₂ = out at heq hsorted hupdate hdelegated hacts
      refine ⟨⟨heq, hsorted, .single ?_⟩, ?_⟩
      · rcases hevents with ⟨hd, ha, -, hsome⟩ | ⟨rfl, es', hes, hreads, ha⟩
        · have hstage : stage m.currentBlock out.1.deferred out.2
              = ((stage m.currentBlock m.deferred s).put height (leftover left)).does acts := by
            unfold stage Stage.put Stage.does
            rw [hupdate, hdelegated, hacts, hdelegated₂, hacts₂, hd, ha]
          rw [hstage]
          obtain rfl := hsome es rfl
          exact .resumed hin hdelivers
        · obtain rfl := Option.some.inj hes
          have hstage : stage m.currentBlock out.1.deferred out.2
              = (((stage m.currentBlock m.deferred s).put height (leftover left)).remembers s₁'.delegated).does
                  (.scanned height es :: acts) := by
            unfold stage Stage.put Stage.does Stage.remembers
            rw [hupdate, hdelegated, hacts, hdelegated₂, hacts₂, ha, List.append_assoc]
            rfl
          rw [hstage]
          exact .read hin hreads hdelivers
      · intro x hx
        show out.1.deferred.entry x = _
        rw [hupdate, Function.update_of_ne hx]

theorem does_serveDue (started : Nat) (heights : List Nat) {m : EventMonitor} (hm : m.deferred.Sorted)
    (hnodup : heights.Nodup) (hin : ∀ x ∈ heights, m.deferred.entry x ≠ none) :
    Does (serveDue A S started heights m) (QueueMoves A S m) := by
  induction heights generalizing m with
  | nil => exact does_pure fun s => ⟨rfl, hm, .refl⟩
  | cons height heights ih =>
      obtain ⟨hnotin, hnodup⟩ := List.nodup_cons.mp hnodup
      refine Silent.then asks_now ?_
      rintro now_ s s₁ - hdelegated hacts
      split
      · exact QueueMoves.after ⟨rfl, hm, .refl⟩ hdelegated hacts
      · refine QueueMoves.after ?_ hdelegated hacts
        refine Does.bind' (R := QueueMoves A S m)
          (does_serveOne (A := A) (S := S) hm (hin height List.mem_cons_self)) ?_ s₁
        rintro s m₁ s₂ ⟨hmoves, hother⟩
        refine hmoves.trans (ih hmoves.sorted hnodup ?_ s₂)
        intro x hx
        rw [hother x (fun h => hnotin (h ▸ hx))]
        exact hin x (List.mem_cons_of_mem _ hx)

theorem does_serveDeferred {m : EventMonitor} (hm : m.deferred.Sorted) :
    Does (serveDeferred A S m) (QueueMoves A S m) := by
  refine Silent.then asks_now ?_
  rintro started s s₁ - hdelegated hacts
  obtain ⟨hgives, hsorted⟩ := giveUpAll_givesUp started
    ((m.deferred.blocks.filter fun e => DeferredBlocks.tooOld m.currentBlock e.1 e.2).map Prod.fst) hm
  refine Emits.then (R := fun s₁' m' s' => s₁' = s₁ → QueueMoves A S m s m' s') (does_noteGivenUp _) ?_ s₁ rfl
  rintro _ acts s₁' s₂ rfl hdelegated' hacts' rfl
  have hexpired : QueueMoves A S m s { m with deferred := (m.deferred.expire m.currentBlock started).1 } s₂ := by
    refine ⟨rfl, hsorted, hgives.moves (hdelegated'.trans hdelegated) ?_⟩
    rw [hacts', hacts]
  exact hexpired.trans (does_serveDue started _ hsorted (DeferredBlocks.Sorted.due_nodup hsorted)
    (fun x hx => DeferredBlocks.Sorted.mem_due hsorted hx) s₂)

/-! ### Turns -/

/-- Any moves; the head is published as it moves. -/
structure Progress (A : Answers) (S : Setup) (m : EventMonitor) (s : Session) (m' : EventMonitor) (s' : Session) :
    Prop where
  sorted : m'.deferred.Sorted
  published : m.sharedBlockHeight = m.currentBlock → m'.sharedBlockHeight = m'.currentBlock
  moves : Moves A S (stage m.currentBlock m.deferred s) (stage m'.currentBlock m'.deferred s')

theorem QueueMoves.progress {m m' : EventMonitor} {s s' : Session} (h : QueueMoves A S m s m' s') :
    Progress A S m s m' s' := by
  have hblock : m'.currentBlock = m.currentBlock := by rw [h.same]
  have hshared : m'.sharedBlockHeight = m.sharedBlockHeight := by rw [h.same]
  refine ⟨h.sorted, fun hp => ?_, ?_⟩
  · rw [hshared, hblock]
    exact hp
  · rw [hblock]
    exact h.moves

theorem Progress.trans {m m₁ m₂ : EventMonitor} {s s₁ s₂ : Session} (h : Progress A S m s m₁ s₁)
    (h' : Progress A S m₁ s₁ m₂ s₂) : Progress A S m s m₂ s₂ :=
  ⟨h'.sorted, fun hp => h'.published (h.published hp), h.moves.trans h'.moves⟩

theorem Progress.after {m m' : EventMonitor} {s₀ s s' : Session} (h : Progress A S m s m' s')
    (hdelegated : s.delegated = s₀.delegated) (hacts : s.acts = s₀.acts) : Progress A S m s₀ m' s' :=
  ⟨h.sorted, h.published, stage_congr m.currentBlock m.deferred hdelegated hacts ▸ h.moves⟩

theorem progress_refl {m : EventMonitor} (hm : m.deferred.Sorted) (s : Session) : Progress A S m s m s :=
  ⟨hm, id, .refl⟩

theorem asks_firstReadable (heights : List Nat) :
    Asks (firstReadable A heights) fun found => ∀ height, found = some height → height ∈ heights := by
  induction heights with
  | nil => exact silent_pure fun _ h => by cases h
  | cons x heights ih =>
      refine asks_ask.bind ?_
      rintro read -
      cases read with
      | block _ => exact silent_pure fun _ h => Option.some.inj h ▸ List.mem_cons_self
      | notIndexed => exact silent_pure fun _ h => by cases h
      | failed _ => exact ih.mono fun _ h height hfound => List.mem_cons_of_mem _ (h height hfound)

theorem asks_probeAhead (head : Nat) :
    Asks (probeAhead A head) fun found => ∀ height, found = some height → head ≤ height := by
  refine (asks_firstReadable _).mono fun _ h height hfound => ?_
  have hmem := List.mem_range'_1.mp (h height hfound)
  omega

theorem asks_probeSteps (head tip : Nat) (steps : List Nat) :
    Asks (probeSteps A head tip steps) fun found => ∀ height, found = some height → head ≤ height := by
  induction steps with
  | nil => exact silent_pure fun _ h => by cases h
  | cons step steps ih =>
      unfold probeSteps
      split
      · exact silent_pure fun _ h => by cases h
      · refine asks_ask.bind ?_
        rintro read -
        cases read with
        | block _ => exact silent_pure fun _ h => Option.some.inj h ▸ Nat.le_add_right _ _
        | notIndexed => exact ih
        | failed _ => exact ih

theorem does_skipTo {m : EventMonitor} (hm : m.deferred.Sorted) {next : Nat} (hnext : m.currentBlock ≤ next) :
    Does (skipTo m next) (Progress A S m) := by
  refine Does.bind' (does_deferAll (A := A) (S := S) (next - m.currentBlock) hm m.currentBlock) ?_
  rintro s m₁ s₁ ⟨-, hsorted, hmoves⟩
  rw [Nat.add_sub_of_le hnext] at hmoves
  exact ⟨hsorted, fun _ => rfl, hmoves⟩

/-- What the loop's own state adds to the monitor's. -/
abbrev LoopProgress (A : Answers) (S : Setup) (m : EventMonitor) (s : Session) (l : Monitoring) (s' : Session) : Prop :=
  Progress A S m s l.monitor s'

theorem does_waitOut {m : EventMonitor} (hm : m.deferred.Sorted) (outage : Outage) :
    Does (waitOut m outage) (LoopProgress A S m) := by
  refine Silent.then asks_sleep ?_
  rintro _ s s₁ - hdelegated hacts
  exact (progress_refl hm s₁).after hdelegated hacts

theorem does_skip {m : EventMonitor} (hm : m.deferred.Sorted) {next : Nat} (hnext : m.currentBlock ≤ next)
    (outage : Option Outage) :
    Does (do let m ← skipTo m next; pure (Monitoring.mk m outage)) (LoopProgress A S m) :=
  Does.bind' (does_skipTo hm hnext) fun h => h

theorem does_passUnreadable {m : EventMonitor} (hm : m.deferred.Sorted) (outage : Option Outage) :
    Does (passUnreadable A m outage) (LoopProgress A S m) := by
  refine Silent.then (asks_probeAhead m.currentBlock) ?_
  rintro found s s₁ hfound hdelegated hacts
  refine Progress.after (s := s₁) ?_ hdelegated hacts
  cases found with
  | some readable => exact does_skip hm (hfound readable rfl) none s₁
  | none =>
      refine Silent.then (R := LoopProgress A S m) asks_now ?_ s₁
      rintro now_ s₁ s₂ - hdelegated hacts
      refine Progress.after (s := s₂) ?_ hdelegated hacts
      dsimp only
      split
      · refine Silent.then (R := LoopProgress A S m) asks_chainTip ?_ s₂
        rintro tip s₂ s₃ - hdelegated hacts
        refine Progress.after (s := s₃) ?_ hdelegated hacts
        cases tip.filter fun tip => decide (m.currentBlock < tip) with
        | none => exact does_waitOut hm _ s₃
        | some tip =>
            refine Silent.then (R := LoopProgress A S m) (asks_probeSteps m.currentBlock tip farProbeSteps) ?_ s₃
            rintro found s₃ s₄ hfound hdelegated hacts
            refine Progress.after (s := s₄) ?_ hdelegated hacts
            refine does_skip hm ?_ _ s₄
            cases found with
            | none => exact Nat.le_succ _
            | some next => exact hfound next rfl
      · exact does_waitOut hm _ s₂

/-- **Every turn is a sequence of moves.** -/
theorem turn_moves {l : Monitoring} (hl : l.monitor.deferred.Sorted)
    (hbehind : ∀ x, l.monitor.currentBlock ≤ x → l.monitor.deferred.entry x = none) :
    Does (turn A S l) (LoopProgress A S l.monitor) := by
  refine Does.bind' (does_serveDeferred (A := A) (S := S) hl) ?_
  rintro s m s₁ hqueue
  have hserved := hqueue.progress
  refine hserved.trans ?_
  refine Does.bind' (R := fun s₁' l' s' => s₁' = s₁ → LoopProgress A S m s₁ l' s')
    (does_scanWithin (A := A) (S := S) m.currentBlock headBlockBudget) ?_ s₁ rfl
  rintro s₁' scan s₂ hdid rfl
  cases scan with
  | notIndexed =>
      refine Silent.then (R := fun s' l' s'' => s' = s₂ → LoopProgress A S m s₁' l' s'') asks_sleep ?_ s₂ rfl
      rintro _ s₂' s₃ - hdelegated hacts rfl
      exact (progress_refl hserved.sorted s₃).after (hdelegated.trans hdid.1) (hacts.trans hdid.2)
  | unreadable why => exact Progress.after (does_passUnreadable hserved.sorted l.outage s₂) hdid.1 hdid.2
  | events events =>
      have hhead : m.deferred.entry m.currentBlock = none :=
        (Moves.behind hserved.moves hbehind) m.currentBlock (Nat.le_refl _)
      refine Does.bind' (R := fun s' l' s'' => s' = s₂ → LoopProgress A S m s₁' l' s'')
        (does_deliverHead (A := A) (S := S) hserved.sorted hhead events) ?_ s₂ rfl
      rintro s₂' m' s₃ ⟨heq, hsorted, acts, left, hdelivers, hmoves⟩ rfl
      have hblock : m'.currentBlock = m.currentBlock + 1 := by rw [heq]; rfl
      have hheaded : Progress A S m s₁' m' s₃ := by
        refine ⟨hsorted, fun _ => by rw [heq]; rfl, ?_⟩
        rw [hblock]
        refine .head ?_ hmoves
        have hstage : (((stage m.currentBlock m.deferred s₂').put m.currentBlock (leftover left)).does acts).advance
            = ((((stage m.currentBlock m.deferred s₁').put m.currentBlock (leftover left)).remembers
                s₂'.delegated).does (.scanned m.currentBlock events :: acts)).advance := by
          unfold stage Stage.put Stage.does Stage.remembers Stage.advance
          rw [hdid.2, List.append_assoc]
          rfl
        rw [hstage]
        exact .headed hdid.1 hdelivers
      refine Silent.then (R := fun s' l' s'' => s' = s₃ → LoopProgress A S m s₁' l' s'') asks_sleep ?_ s₃ rfl
      rintro _ s₃' s₄ - hdelegated hacts rfl
      refine ⟨hheaded.sorted, hheaded.published, hheaded.moves.trans ?_⟩
      show Moves A S _ (stage m'.currentBlock m'.deferred s₄)
      rw [stage_congr m'.currentBlock m'.deferred hdelegated hacts]

end Refinement

/-! ## Runs -/

/-- Where the blocks stand after so many turns. -/
def stageAfter (A : Answers) (S : Setup) (start clock n : Nat) : Stage :=
  stage (afterTurns A S start clock n).1.monitor.currentBlock (afterTurns A S start clock n).1.monitor.deferred
    (afterTurns A S start clock n).2

/-- A run that just started, with the delegates of the blocks before. -/
def Stage.start (start : Nat) (d : DelegatedCalls) : Stage := ⟨start, fun _ => none, d, []⟩

section Runs
variable {A : Answers} {S : Setup} {start clock : Nat}

theorem does_backfillBlocks (blockIds : List Nat) :
    Does (backfillBlocks A S blockIds) fun s _ s' => s'.acts = s.acts := by
  induction blockIds with
  | nil => exact does_pure fun _ => rfl
  | cons blockId blockIds ih =>
      refine Silent.then asks_ask ?_
      rintro read s s₁ - - hacts
      cases read with
      | block block => exact (ih _).trans hacts
      | notIndexed => exact (ih s₁).trans hacts
      | failed why => exact (ih s₁).trans hacts

theorem stageAfter_zero : ∃ d, stageAfter A S start clock 0 = .start start d := by
  refine ⟨(afterTurns A S start clock 0).2.delegated, ?_⟩
  have hacts : (afterTurns A S start clock 0).2.acts = [] :=
    does_backfillBlocks (A := A) (S := S) (List.range' (start - delegatedBackfillBlocks)
      (start - (start - delegatedBackfillBlocks))) (.new clock)
  unfold stageAfter stage Stage.start
  rw [hacts]
  rfl

/-- The state of the loop is in order after every turn, and every turn was made of moves. -/
structure InOrder (A : Answers) (S : Setup) (start clock n : Nat) : Prop where
  sorted : (afterTurns A S start clock n).1.monitor.deferred.Sorted
  published : (afterTurns A S start clock n).1.monitor.sharedBlockHeight
    = (afterTurns A S start clock n).1.monitor.currentBlock
  behind : (stageAfter A S start clock n).Behind

theorem step_inOrder {n : Nat} (h : InOrder A S start clock n) :
    InOrder A S start clock (n + 1) ∧
      Moves A S (stageAfter A S start clock n) (stageAfter A S start clock (n + 1)) := by
  have hturn := turn_moves (A := A) (S := S) h.sorted h.behind (afterTurns A S start clock n).2
  have hmoves : Moves A S (stageAfter A S start clock n) (stageAfter A S start clock (n + 1)) := hturn.moves
  exact ⟨⟨hturn.sorted, hturn.published h.published, Moves.behind hmoves h.behind⟩, hmoves⟩

theorem inOrder (n : Nat) : InOrder A S start clock n := by
  induction n with
  | zero =>
      obtain ⟨d, hd⟩ := @stageAfter_zero A S start clock
      refine ⟨List.Pairwise.nil, rfl, ?_⟩
      rw [hd]
      exact fun _ _ => rfl
  | succ n ih => exact (step_inOrder ih).1

/-- **What lies between two points of a run is moves.** -/
theorem stageAfter_moves {n k : Nat} (h : n ≤ k) :
    Moves A S (stageAfter A S start clock n) (stageAfter A S start clock k) := by
  induction h with
  | refl => exact .refl
  | step _ ih => exact ih.trans (step_inOrder (inOrder _)).2

/-- Every run is a sequence of moves. -/
theorem afterTurns_moves (n : Nat) : ∃ d, Moves A S (.start start d) (stageAfter A S start clock n) := by
  obtain ⟨d, hd⟩ := @stageAfter_zero A S start clock
  exact ⟨d, hd ▸ stageAfter_moves (Nat.zero_le n)⟩

end Runs

end Monitor

end Outlayer
