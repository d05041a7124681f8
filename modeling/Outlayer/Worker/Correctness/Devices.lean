import Mathlib.Data.List.ReduceOption
import Outlayer.Worker.Correctness.Sentences

/-!
# `Worker.Correctness.Devices` — a task is shown to the owner's own devices

The loop over statements passes over rows, remembers what the chain has said, and stops where it says nothing. First the
verdict on one row, asked of the chain by itself; then the loop is these verdicts one after the other, since what is
remembered is what the chain says. So rows do not act on one another, and order and repetition of the rows are order and
repetition of the devices.
-/

namespace Outlayer
open Text Json

namespace Worker
namespace Tasks

variable {Key Secret Point Shared : Type}

/-! ## What the owner's device is -/

/-- The deadline lies after now and no further than a session lasts, with the slack. -/
def Current (now validUntil : Int) : Prop :=
  now < validUntil ∧ validUntil ≤ now + (maxSessionSecs + deadlineSlackSecs)

/-- The signature signs the sentence of the statement's own three facts. -/
def SignsItself (S : SignatureCrates) (recipient : String) (s : DeviceStatement) : Prop :=
  ∃ message, sentence s.accountId s.devicePubkey s.validUntil = some message ∧
    verifyNep413 S message s.signerPubkey s.signature s.nonce recipient = .ok ()

/-- What can be checked of a statement without the chain. -/
structure Sound (C : StatementCrates Key Secret Point Shared) (owner : String) (now : Int) (recipient : String)
    (s : DeviceStatement) (key : Point) : Prop where
  account : s.accountId = owner
  current : Current now s.validUntil
  read : C.crypto.readPubkey s.devicePubkey = .ok key
  signed : SignsItself C.signatures recipient s

/-- A node says that a key is a full-access key of the account; or that it is not, where the account is the key's
    implicit one and does not exist. -/
def SpeaksFor (S : SignatureCrates) (query : Query) (account publicKey : String) : Prop :=
  ∃ answer, query (viewAccessKey account publicKey) = .ok answer ∧
    (readAccessKeyAnswer answer = .ok .itsKey ∨
      readAccessKeyAnswer answer = .ok .notItsKey ∧ isImplicitOf S account publicKey = true ∧
        ∃ answer, query (viewAccount account) = .ok answer ∧ readAccountAnswer answer = .ok false)

/-! ## The chain over a node -/

theorem rpcChain_itsKey_iff (S : SignatureCrates) (query : Query) (account publicKey : String) :
    rpcChain S query account publicKey = .ok .itsKey ↔ SpeaksFor S query account publicKey := by
  unfold rpcChain accessKeyBy SpeaksFor
  cases hquery : query (viewAccessKey account publicKey) with
  | error down => simp [bind, Except.bind]
  | ok answer =>
      cases hsaid : readAccessKeyAnswer answer with
      | error down => simp [bind, Except.bind, hsaid]
      | ok said =>
          by_cases himplicit : said = .notItsKey ∧ isImplicitOf S account publicKey = true
          · obtain ⟨rfl, hof⟩ := himplicit
            cases haccount : query (viewAccount account) with
            | error down => simp [bind, Except.bind, hsaid, hof]
            | ok answer' =>
                cases hexists : readAccountAnswer answer' with
                | error down => simp [bind, Except.bind, hsaid, hof, hexists]
                | ok there   => cases there <;> simp [bind, Except.bind, hsaid, hof, hexists]
          · cases said with
            | itsKey    => simp [bind, Except.bind, hsaid]
            | notItsKey => simp_all [bind, Except.bind]

/-! ## One row -/

section
variable (C : StatementCrates Key Secret Point Shared) (owner : String) (now : Int) (recipient : String) (chain : Chain)

/-- The largest number of seconds takes nothing from the bound: no deadline is past it. -/
theorem current_iff (s : DeviceStatement) :
    Current now s.validUntil ↔
      ¬ s.validUntil ≤ now ∧ ¬ s.validUntil > saturatingAdd now (maxSessionSecs + deadlineSlackSecs) := by
  have hmax := s.validUntil_le
  unfold Current saturatingAdd
  omega

theorem signedByItsSigner_eq_ok {s : DeviceStatement} {key : Point} :
    signedByItsSigner C s owner now recipient = .ok key ↔ Sound C owner now recipient s key := by
  constructor
  · intro h
    unfold signedByItsSigner at h
    split at h
    · cases h
    · next haccount =>
        split at h
        · cases h
        · next halive =>
            split at h
            · cases h
            · next hbound =>
                cases hread : C.crypto.readPubkey s.devicePubkey with
                | error why =>
                    rw [hread] at h
                    cases h
                | ok device =>
                    rw [hread] at h
                    cases hmessage : sentence s.accountId s.devicePubkey s.validUntil with
                    | none => simp [hmessage, bind, Except.bind] at h
                    | some message =>
                        cases hverify : verifyNep413 C.signatures message s.signerPubkey s.signature s.nonce
                            recipient with
                        | error why => simp [hmessage, hverify, bind, Except.bind] at h
                        | ok _ =>
                            simp only [hmessage, hverify, bind, Except.bind, Except.ok.injEq] at h
                            subst h
                            exact ⟨not_not.mp haccount, (current_iff now s).mpr ⟨halive, hbound⟩, hread, message,
                              hmessage, hverify⟩
  · rintro ⟨haccount, hcurrent, hread, message, hmessage, hverify⟩
    obtain ⟨halive, hbound⟩ := (current_iff now s).mp hcurrent
    unfold signedByItsSigner
    rw [if_neg (not_not.mpr haccount), if_neg halive, if_neg hbound, hread]
    simp [hmessage, hverify, bind, Except.bind]

/-- The verdict on a row, with the chain asked for it. -/
def verdict (s : DeviceStatement) : Except ChainUnavailable (Option (Device Point)) :=
  match signedByItsSigner C s owner now recipient with
  | .error _ => .ok none
  | .ok key => do
      let onChain ← chain owner s.signerPubkey
      .ok (match onChain with
        | .itsKey    => some ⟨s.id, key⟩
        | .notItsKey => none)

/-- The devices, with the chain asked for every row. -/
def devicesAskingEach : List DeviceStatement → Except ChainUnavailable (List (Device Point))
  | [] => .ok []
  | s :: rest => do
      let device ← verdict C owner now recipient chain s
      let devices ← devicesAskingEach rest
      .ok (device.toList ++ devices)

/-- The device a row names, if it names one. -/
def deviceOf (s : DeviceStatement) : Option (Device Point) :=
  match verdict C owner now recipient chain s with
  | .ok device => device
  | .error _   => none

/-- The chain says something of the key of a row, or needs not. -/
def Answered (s : DeviceStatement) : Prop :=
  ∀ key, Sound C owner now recipient s key → ∃ said, chain owner s.signerPubkey = .ok said

variable {C owner now recipient chain}

theorem verdict_eq_error {s : DeviceStatement} {down : ChainUnavailable} :
    verdict C owner now recipient chain s = .error down ↔
      (∃ key, Sound C owner now recipient s key) ∧ chain owner s.signerPubkey = .error down := by
  unfold verdict
  cases hlocal : signedByItsSigner C s owner now recipient with
  | error why =>
      constructor
      · intro h
        cases h
      · rintro ⟨⟨key, hsound⟩, -⟩
        rw [(signedByItsSigner_eq_ok C owner now recipient).mpr hsound] at hlocal
        cases hlocal
  | ok key =>
      have hsound := (signedByItsSigner_eq_ok C owner now recipient).mp hlocal
      cases hchain : chain owner s.signerPubkey with
      | error down' => simp [bind, Except.bind, show ∃ key, Sound C owner now recipient s key from ⟨key, hsound⟩]
      | ok said     => simp [bind, Except.bind]

theorem answered_iff {s : DeviceStatement} :
    Answered C owner now recipient chain s ↔ ∃ device, verdict C owner now recipient chain s = .ok device := by
  constructor
  · intro h
    cases hverdict : verdict C owner now recipient chain s with
    | ok device  => exact ⟨device, rfl⟩
    | error down =>
        obtain ⟨⟨key, hsound⟩, hdown⟩ := verdict_eq_error.mp hverdict
        obtain ⟨said, hsaid⟩ := h key hsound
        rw [hdown] at hsaid
        cases hsaid
  · rintro ⟨device, hverdict⟩ key hsound
    cases hchain : chain owner s.signerPubkey with
    | ok said    => exact ⟨said, rfl⟩
    | error down =>
        rw [verdict_eq_error.mpr ⟨⟨key, hsound⟩, hchain⟩] at hverdict
        cases hverdict

/-- A row names a device when its statement holds, on the chain as well. -/
theorem deviceOf_eq_some {s : DeviceStatement} {d : Device Point} :
    deviceOf C owner now recipient chain s = some d ↔
      d.id = s.id ∧ Sound C owner now recipient s d.key ∧ chain owner s.signerPubkey = .ok .itsKey := by
  unfold deviceOf verdict
  cases hlocal : signedByItsSigner C s owner now recipient with
  | error why =>
      constructor
      · intro h
        cases h
      · rintro ⟨-, hsound, -⟩
        rw [(signedByItsSigner_eq_ok C owner now recipient).mpr hsound] at hlocal
        cases hlocal
  | ok key =>
      have hkey : Sound C owner now recipient s d.key ↔ key = d.key := by
        rw [← signedByItsSigner_eq_ok, hlocal, Except.ok.injEq]
      rw [hkey]
      cases hchain : chain owner s.signerPubkey with
      | error down => simp [bind, Except.bind]
      | ok said =>
          cases said with
          | notItsKey => simp [bind, Except.bind]
          | itsKey =>
              obtain ⟨id, dkey⟩ := d
              simp [bind, Except.bind, eq_comm]

/-! ## The loop -/

/-- One row of the loop: its verdict, and a list that still recalls the chain. -/
theorem lookAt_spec {found : Found Point} (hrecalls : Recalls (chain owner) found.asked) (s : DeviceStatement) :
    (∃ down, verdict C owner now recipient chain s = .error down ∧
      lookAt C owner now recipient chain found s = .error down) ∨
    ∃ device asked, verdict C owner now recipient chain s = .ok device ∧ Recalls (chain owner) asked ∧
      lookAt C owner now recipient chain found s = .ok ⟨found.devices ++ device.toList, asked⟩ := by
  unfold verdict lookAt
  cases signedByItsSigner C s owner now recipient with
  | error why => exact .inr ⟨none, found.asked, rfl, hrecalls, by simp⟩
  | ok key =>
      cases hchain : chain owner s.signerPubkey with
      | error down =>
          refine .inl ⟨down, rfl, ?_⟩
          simp [askOnce_error hrecalls hchain, bind, Except.bind]
      | ok said =>
          obtain ⟨asked, hasked, hrecalls'⟩ := askOnce_ok hrecalls hchain
          cases said with
          | itsKey    => exact .inr ⟨some ⟨s.id, key⟩, asked, rfl, hrecalls', by simp [hasked, bind, Except.bind]⟩
          | notItsKey => exact .inr ⟨none, asked, rfl, hrecalls', by simp [hasked, bind, Except.bind]⟩

/-- The loop gives what asking for each row gives, from any list that recalls the chain. -/
theorem foldlM_lookAt (rows : List DeviceStatement) : ∀ {found : Found Point}, Recalls (chain owner) found.asked →
    (rows.foldlM (lookAt C owner now recipient chain) found).map Found.devices =
      (devicesAskingEach C owner now recipient chain rows).map (found.devices ++ ·) := by
  induction rows with
  | nil =>
      intro found _
      simp [devicesAskingEach, pure, Except.pure, Except.map]
  | cons s rest ih =>
      intro found hrecalls
      rw [List.foldlM_cons]
      have hrow : _ ∨ ∃ device asked, verdict C owner now recipient chain s = .ok device ∧ _ := lookAt_spec hrecalls s
      rcases hrow with ⟨down, hverdict, hlook⟩ | ⟨device, asked, hverdict, hrecalls', hlook⟩
      · simp [devicesAskingEach, hverdict, hlook, bind, Except.bind, Except.map]
      · have hrest := @ih ⟨found.devices ++ device.toList, asked⟩ hrecalls'
        rw [hlook]
        simp only [devicesAskingEach, hverdict, bind, Except.bind]
        rw [hrest]
        cases devicesAskingEach C owner now recipient chain rest with
        | error down => rfl
        | ok devices => simp [Except.map]

theorem devicesInForce_eq (rows : List DeviceStatement) :
    devicesInForce C rows owner now recipient chain = devicesAskingEach C owner now recipient chain rows := by
  have h : (rows.foldlM (lookAt C owner now recipient chain) {}).map Found.devices = _ :=
    foldlM_lookAt rows Recalls.nil
  unfold devicesInForce
  cases hfold : rows.foldlM (lookAt C owner now recipient chain) {} with
  | error down =>
      rw [hfold] at h
      cases hall : devicesAskingEach C owner now recipient chain rows with
      | error down' =>
          rw [hall] at h
          cases h
          rfl
      | ok devices =>
          rw [hall] at h
          cases h
  | ok found =>
      rw [hfold] at h
      cases hall : devicesAskingEach C owner now recipient chain rows with
      | error down =>
          rw [hall] at h
          cases h
      | ok devices =>
          rw [hall] at h
          exact congrArg Except.ok (Except.ok.inj h)

/-! ## All rows -/

theorem devicesAskingEach_eq_ok {rows : List DeviceStatement} : ∀ {devices : List (Device Point)},
    devicesAskingEach C owner now recipient chain rows = .ok devices ↔
      (∀ s ∈ rows, Answered C owner now recipient chain s) ∧
        devices = rows.filterMap (deviceOf C owner now recipient chain) := by
  induction rows with
  | nil =>
      intro devices
      simp [devicesAskingEach, eq_comm]
  | cons s rest ih =>
      intro devices
      rw [List.forall_mem_cons, answered_iff]
      cases hverdict : verdict C owner now recipient chain s with
      | error down => simp [devicesAskingEach, hverdict, bind, Except.bind]
      | ok device =>
          have hdevice : deviceOf C owner now recipient chain s = device := by
            unfold deviceOf
            rw [hverdict]
          have hcons : (s :: rest).filterMap (deviceOf C owner now recipient chain) =
              device.toList ++ rest.filterMap (deviceOf C owner now recipient chain) := by
            cases device <;> simp [hdevice]
          rw [hcons]
          cases hrest : devicesAskingEach C owner now recipient chain rest with
          | error down =>
              constructor
              · intro h
                simp [devicesAskingEach, hverdict, hrest, bind, Except.bind] at h
              · rintro ⟨⟨-, hall⟩, -⟩
                have hok := ih.mpr ⟨hall, rfl⟩
                rw [hrest] at hok
                cases hok
          | ok found =>
              obtain ⟨hall, hfound⟩ := ih.mp hrest
              rw [← hfound]
              simp only [devicesAskingEach, hverdict, hrest, bind, Except.bind, Except.ok.injEq]
              exact ⟨fun h => ⟨⟨⟨device, rfl⟩, hall⟩, h.symm⟩, fun h => h.2.symm⟩

theorem devicesInForce_eq_ok {rows : List DeviceStatement} {devices : List (Device Point)} :
    devicesInForce C rows owner now recipient chain = .ok devices ↔
      (∀ s ∈ rows, Answered C owner now recipient chain s) ∧
        devices = rows.filterMap (deviceOf C owner now recipient chain) := by
  rw [devicesInForce_eq, devicesAskingEach_eq_ok]

/-- The loop fails at a row that holds by itself and whose key the chain says nothing of. -/
theorem devicesInForce_fails_iff {rows : List DeviceStatement} :
    (∃ down, devicesInForce C rows owner now recipient chain = .error down) ↔
      ∃ s ∈ rows, (∃ key, Sound C owner now recipient s key) ∧ ∃ down, chain owner s.signerPubkey = .error down := by
  constructor
  · rintro ⟨down, hdown⟩
    by_contra hnone
    have hall : ∀ s ∈ rows, Answered C owner now recipient chain s := by
      intro s hs key hsound
      cases hchain : chain owner s.signerPubkey with
      | ok said     => exact ⟨said, rfl⟩
      | error down' => exact absurd ⟨s, hs, ⟨key, hsound⟩, down', hchain⟩ hnone
    rw [devicesInForce_eq_ok.mpr ⟨hall, rfl⟩] at hdown
    cases hdown
  · rintro ⟨s, hs, ⟨key, hsound⟩, down, hdown⟩
    cases hloop : devicesInForce C rows owner now recipient chain with
    | error down' => exact ⟨down', rfl⟩
    | ok devices =>
        obtain ⟨said, hsaid⟩ := (devicesInForce_eq_ok.mp hloop).1 s hs key hsound
        rw [hdown] at hsaid
        cases hsaid

end

/-- Two results that fail together, and are related where neither fails. -/
def Alike {α : Type} (R : α → α → Prop) : Except ChainUnavailable α → Except ChainUnavailable α → Prop
  | .ok a, .ok b       => R a b
  | .error _, .error _ => True
  | _, _               => False

section
variable {C : StatementCrates Key Secret Point Shared} {owner : String} {now : Int} {recipient : String} {chain : Chain}

/-- Lists of the same rows fail together. -/
theorem alike_of_same_rows {R : List (Device Point) → List (Device Point) → Prop} {rows rows' : List DeviceStatement}
    (hsame : ∀ s, s ∈ rows ↔ s ∈ rows')
    (hR : R (rows.filterMap (deviceOf C owner now recipient chain))
      (rows'.filterMap (deviceOf C owner now recipient chain))) :
    Alike R (devicesInForce C rows owner now recipient chain) (devicesInForce C rows' owner now recipient chain) := by
  cases hrows : devicesInForce C rows owner now recipient chain with
  | ok devices =>
      obtain ⟨hall, rfl⟩ := devicesInForce_eq_ok.mp hrows
      rw [devicesInForce_eq_ok.mpr ⟨fun s hs => hall s ((hsame s).mpr hs), rfl⟩]
      exact hR
  | error down =>
      obtain ⟨s, hs, hfails⟩ := devicesInForce_fails_iff.mp ⟨down, hrows⟩
      obtain ⟨down', hrows'⟩ := devicesInForce_fails_iff.mpr ⟨s, (hsame s).mp hs, hfails⟩
      rw [hrows']
      trivial

theorem filterMap_copies {α β : Type} (f : α → Option β) (counted : List (α × Nat)) :
    (counted.flatMap fun row => List.replicate row.2 row.1).filterMap f =
      (counted.flatMap fun row => List.replicate row.2 (f row.1)).reduceOption := by
  induction counted with
  | nil => rfl
  | cons row rest ih =>
      rw [List.flatMap_cons, List.flatMap_cons, List.filterMap_append, List.reduceOption_append, ih]
      congr 1
      rw [← List.map_replicate (f := f), List.reduceOption, List.filterMap_map]
      rfl

theorem mem_copies {counted : List (DeviceStatement × Nat)} (hpos : ∀ row ∈ counted, 0 < row.2) (s : DeviceStatement) :
    s ∈ counted.map Prod.fst ↔ s ∈ counted.flatMap fun row => List.replicate row.2 row.1 := by
  rw [List.mem_map, List.mem_flatMap]
  constructor
  · rintro ⟨row, hrow, rfl⟩
    exact ⟨row, hrow, List.mem_replicate.mpr ⟨(hpos row hrow).ne', rfl⟩⟩
  · rintro ⟨row, hrow, hs⟩
    exact ⟨row, hrow, (List.mem_replicate.mp hs).2.symm⟩

end

/-- The devices in force are exactly those of the rows whose statement holds, in order; asking the chain once for a key
    is asking it for every row; the loop fails exactly where the chain says nothing of the key of a row that holds by
    itself; and order and repetition of the rows are order and repetition of the devices. -/
theorem devices_are_the_owners (C : StatementCrates Key Secret Point Shared) (owner : String) (now : Int)
    (recipient : String) (chain : Chain) :
    (∀ s d, deviceOf C owner now recipient chain s = some d ↔
      d.id = s.id ∧ Sound C owner now recipient s d.key ∧ chain owner s.signerPubkey = .ok .itsKey) ∧
    (∀ query publicKey, rpcChain C.signatures query owner publicKey = .ok .itsKey ↔
      SpeaksFor C.signatures query owner publicKey) ∧
    (∀ rows devices, devicesInForce C rows owner now recipient chain = .ok devices ↔
      (∀ s ∈ rows, Answered C owner now recipient chain s) ∧
        devices = rows.filterMap (deviceOf C owner now recipient chain)) ∧
    (∀ rows, devicesInForce C rows owner now recipient chain = devicesAskingEach C owner now recipient chain rows) ∧
    (∀ rows, (∃ down, devicesInForce C rows owner now recipient chain = .error down) ↔
      ∃ s ∈ rows, (∃ key, Sound C owner now recipient s key) ∧ ∃ down, chain owner s.signerPubkey = .error down) ∧
    (∀ rows rows', rows.Perm rows' → Alike List.Perm (devicesInForce C rows owner now recipient chain)
      (devicesInForce C rows' owner now recipient chain)) ∧
    (∀ counted : List (DeviceStatement × Nat), (∀ row ∈ counted, 0 < row.2) →
      Alike (fun devices copies =>
          devices = (counted.map fun row => deviceOf C owner now recipient chain row.1).reduceOption ∧
          copies = (counted.flatMap fun row =>
            List.replicate row.2 (deviceOf C owner now recipient chain row.1)).reduceOption)
        (devicesInForce C (counted.map Prod.fst) owner now recipient chain)
        (devicesInForce C (counted.flatMap fun row => List.replicate row.2 row.1) owner now recipient chain)) := by
  refine ⟨fun _ _ => deviceOf_eq_some, fun _ _ => rpcChain_itsKey_iff _ _ _ _, fun _ _ => devicesInForce_eq_ok,
    devicesInForce_eq, fun _ => devicesInForce_fails_iff, ?_, ?_⟩
  · intro rows rows' hperm
    exact alike_of_same_rows (fun _ => hperm.mem_iff) (hperm.filterMap _)
  · intro counted hpos
    refine alike_of_same_rows (mem_copies hpos) ⟨?_, filterMap_copies _ _⟩
    rw [List.filterMap_map, List.reduceOption, List.filterMap_map]
    rfl

/-- Libraries that take every signature for one that verifies. -/
def anySignature : StatementCrates Unit Unit Unit Unit where
  crypto := onePoint
  signatures :=
    { sha256 := fun _ => []
      base58Decode := fun _ => some (List.replicate 32 0)
      base64Decode := fun s => some (List.replicate s.length 0)
      isVerifyingKey := fun _ => true
      verify := fun _ _ _ => true }

/-- A device that was signed in until the start of a year. -/
def signedIn : DeviceStatement where
  id := "d1"
  accountId := "alice.near"
  devicePubkey := onePoint.writePubkey ()
  signerPubkey := "ed25519:alice"
  signature := String.ofList (List.replicate 64 'A')
  nonce := String.ofList (List.replicate 32 'A')
  validUntil := 1798761600
  validUntil_le := by decide

/-- A chain on which every account has one key. -/
def oneKeyChain : Chain := fun _ publicKey => if publicKey = "ed25519:alice" then .ok .itsKey else .ok .notItsKey

theorem stored_twice_shown_twice :
    devicesInForce anySignature [signedIn, signedIn] "alice.near" 1798761000 "outlayer" oneKeyChain =
      .ok [⟨"d1", ()⟩, ⟨"d1", ()⟩] := by
  have hdevice : deviceOf anySignature "alice.near" 1798761000 "outlayer" oneKeyChain signedIn = some ⟨"d1", ()⟩ := by
    decide +kernel
  refine ((devices_are_the_owners anySignature "alice.near" 1798761000 "outlayer" oneKeyChain).2.2.1 _ _).mpr ⟨?_, ?_⟩
  · intro s hs key _
    unfold oneKeyChain
    split
    · exact ⟨.itsKey, rfl⟩
    · exact ⟨.notItsKey, rfl⟩
  · simp [hdevice]

end Tasks
end Worker
end Outlayer
