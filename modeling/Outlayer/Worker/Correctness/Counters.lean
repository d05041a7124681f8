import Outlayer.Lib.Base64
import Outlayer.Worker.Counters
import Outlayer.Worker.Correctness.Listings

/-!
# `Worker.Correctness.Counters` — counters lose no update

A call of `increment` keeps to a protocol (`increment_keeps`): until it has written it only reads, and it asks to write
a number only in the place of the ciphertext that it opened, or where there is nothing; after a request to write whose
answer is no answer it only fails. The ciphertexts are told apart by what is sealed in them, so a write that is carried
out is by what the call asked for (`setIfEquals_cases`), whatever the others wrote in between.

`Counted` is the invariant of the services and of what all calls know. `Counted.ask` has one case for each kind of
request.
-/

namespace Outlayer.Worker.Storage
open Text Exchange

/-! ## Numbers -/

theorem fromLeBytes_toLeBytes (n : Int64) : fromLeBytes (toLeBytes n) = n := by
  have hlt : n.toBitVec.toNat < 256 ^ 8 := n.toBitVec.isLt
  rw [fromLeBytes, toLeBytes, List.reverse_reverse, BigEndian.value_bytes, Nat.mod_eq_of_lt hlt, BitVec.ofNat_toNat,
    BitVec.setWidth_eq, Int64.ofBitVec_toBitVec]

/-- A checked sum is the sum of the numbers. -/
theorem checkedAdd_eq_some {a b n : Int64} (h : checkedAdd a b = some n) : n.toInt = a.toInt + b.toInt := by
  unfold checkedAdd at h
  split at h
  · next hrange =>
      rw [← Option.some.inj h, Int64.toInt_add]
      have hlow := hrange.1
      have hhigh := hrange.2
      rw [Int.bmod_eq_of_le]
      · omega
      · omega
  · cases h

/-- A delta that is taken away, added. -/
def CounterCall.amount : CounterCall → Int64
  | .increment delta => delta
  | .decrement delta => -delta

theorem amount_toInt {call : CounterCall} (h : call ≠ .decrement Int64.minValue) :
    call.amount.toInt = call.signed := by
  cases call with
  | increment delta => rfl
  | decrement delta =>
      have hne : delta.toInt ≠ -2 ^ 63 := fun heq =>
        h (by rw [Int64.toInt_inj.mp (heq.trans Int64.toInt_minValue.symm)])
      have hlow := Int64.le_toInt delta
      have hhigh := Int64.toInt_lt delta
      show (-delta).toInt = -delta.toInt
      rw [Int64.toInt_neg, Int.bmod_eq_of_le]
      · omega
      · omega

/-! ## What a call asks -/

/-- A request of a call that may write: it wrote nothing so far, it may have, or it did. -/
inductive Phase
  | free
  | unknown
  | wrote (n : Int64)
deriving DecidableEq

/-- What a call was told: the last value that was opened, with the text of its ciphertext, and the last that was sealed,
    as its text, with the hash of the name and its ciphertext. -/
structure Knows where
  phase : Phase
  opened : Option (String × Bytes)
  sealed : Option (String × Bytes × String)

/-- What arrives of an answer. -/
def arrived {α : Type} (a : Reply α) : Option α := a.bind fun r => if r.isSuccess then r.parsed else none

/-- After an answer to the request to open a value. -/
def Knows.afterOpening (env : Env) (s : Knows) (b : DecryptRequest) (a : Reply DecryptResponse) : Knows :=
  match (arrived a).bind fun resp => env.base64Decode resp.valueBase64 with
  | some value => { s with opened := some (b.encryptedValueBase64, value) }
  | none       => s

/-- After an answer to the request to seal a value. -/
def Knows.afterSealing (env : Env) (s : Knows) (b : EncryptRequest) (a : Reply EncryptResponse) : Knows :=
  match (arrived a).bind fun resp => (env.base64Decode resp.encryptedValueBase64).map fun v => (resp.keyHash, v) with
  | some (keyHash, encryptedValue) => { s with sealed := some (keyHash, encryptedValue, b.valueBase64) }
  | none                           => s

/-- After an answer to the request to write `n`: none that is one, or whether it was written. -/
def Knows.afterWriting (s : Knows) (n : Int64) : Option Bool → Knows
  | some true  => { s with phase := .wrote n }
  | some false => s
  | none       => { s with phase := .unknown }

/-- What a call may ask while it wrote nothing, and what it knows then. -/
def Knows.next (env : Env) (key : String) (amount : Int64) (s : Knows) : (q : Ask) → Answer q → Option Knows
  | .get _, _     => if s.phase = .free then some s else none
  | .decrypt b, a => if s.phase = .free then some (s.afterOpening env b a) else none
  | .encrypt b, a => if s.phase = .free ∧ b.key = key then some (s.afterSealing env b a) else none
  | .setIfAbsent b, a =>
      if s.phase = .free ∧ s.sealed = some (b.keyHash, b.encryptedValue, base64Encode (toLeBytes amount)) then
        some (s.afterWriting amount (arrived a))
      else none
  | .setIfEquals b, a =>
      match s.opened with
      | none => none
      | some (text, value) =>
          match checkedAdd (fromLeBytes value) amount with
          | none => none
          | some n =>
              if s.phase = .free ∧ b.keyHash = hashKey env key ∧ base64Encode b.expectedEncryptedValue = text ∧
                  s.sealed.map Prod.snd = some (b.newEncryptedValue, base64Encode (toLeBytes n)) then
                some (s.afterWriting n ((arrived a).map SetIfEqualsResponse.updated))
              else none
  | _, _ => none

/-- What a call may return. -/
def Knows.mayReturn (r : Except String Int64) (s : Knows) : Bool :=
  match s.phase, r with
  | .free, .error _    => true
  | .unknown, .error e => decide (e ≠ overflow)
  | .wrote n, .ok m    => decide (n = m)
  | _, _               => false

/-! ## What each part of a call keeps to -/

section Keeps
variable {env : Env} {key : String} {amount : Int64} {s : Knows}

theorem arrived_eq_some {α : Type} {a : Reply α} {x : α} : arrived a = some x ↔ Arrives a x := by
  unfold arrived Arrives
  cases a with
  | none => simp
  | some r => simp

theorem receive_eq_ok_iff {α : Type} {unsent : String} {refused : Response α → String} {garbled : String}
    {a : Reply α} {x : α} : receive unsent refused garbled a = .ok x ↔ arrived a = some x :=
  receive_eq_ok.trans arrived_eq_some.symm

theorem base64Decode_eq_ok {text : String} {bytes : Bytes} :
    base64Decode env text = .ok bytes ↔ env.base64Decode text = some bytes := by
  unfold base64Decode
  cases env.base64Decode text with
  | none => simp
  | some b => simp

theorem keeps_asking {α : Type} {q : Ask} {f : Answer q → Client α} {post : Except String α → Knows → Prop} :
    (asking q >>= f).Keeps (Knows.next env key amount) post s ↔
      ∀ a, ∃ s', s.next env key amount q a = some s' ∧ (f a).Keeps (Knows.next env key amount) post s' := Iff.rfl

theorem keeps_lift_bind {α β : Type} {y : Except String α} {f : α → Client β}
    {post : Except String β → Knows → Prop} :
    ((lift y : Client α) >>= f).Keeps (Knows.next env key amount) post s ↔
      (∀ e, y = .error e → post (.error e) s) ∧
        ∀ a, y = .ok a → (f a).Keeps (Knows.next env key amount) post s := by
  cases y with
  | ok a => exact ⟨fun h => ⟨nofun, fun _ ha => Except.ok.inj ha ▸ h⟩, fun h => h.2 a rfl⟩
  | error e => exact ⟨fun h => ⟨fun _ he => Except.error.inj he ▸ h, nofun⟩, fun h => h.1 e rfl⟩

@[simp] theorem afterOpening_phase (b : DecryptRequest) (a : Reply DecryptResponse) :
    (s.afterOpening env b a).phase = s.phase := by
  unfold Knows.afterOpening
  split <;> rfl

@[simp] theorem afterSealing_phase (b : EncryptRequest) (a : Reply EncryptResponse) :
    (s.afterSealing env b a).phase = s.phase := by
  unfold Knows.afterSealing
  split <;> rfl

@[simp] theorem afterSealing_opened (b : EncryptRequest) (a : Reply EncryptResponse) :
    (s.afterSealing env b a).opened = s.opened := by
  unfold Knows.afterSealing
  split <;> rfl

theorem encrypt_keeps (hs : s.phase = .free) (value : Bytes) :
    (encryptViaKeystore env key value).Keeps (Knows.next env key amount) (fun r s' =>
      s'.phase = .free ∧ s'.opened = s.opened ∧
        ∀ d, r = .ok d → s'.sealed = some (d.keyHash, d.encryptedValue, base64Encode value)) s := by
  refine keeps_asking.mpr fun a => ⟨_, if_pos ⟨hs, rfl⟩, ?_⟩
  refine keeps_lift_bind.mpr ⟨fun e _ => ⟨by simpa using hs, by simp, nofun⟩, fun resp hresp => ?_⟩
  refine keeps_lift_bind.mpr ⟨fun e _ => ⟨by simpa using hs, by simp, nofun⟩, fun k _ => ?_⟩
  refine keeps_lift_bind.mpr ⟨fun e _ => ⟨by simpa using hs, by simp, nofun⟩, fun v hv => ?_⟩
  refine ⟨by simpa using hs, by simp, fun d hd => ?_⟩
  obtain rfl := Except.ok.inj hd
  rw [receive_eq_ok_iff] at hresp
  rw [base64Decode_eq_ok] at hv
  rw [Knows.afterSealing, hresp, Option.bind_some, hv]
  rfl

theorem decrypt_keeps (hs : s.phase = .free) (encryptedKey encryptedValue : Bytes) :
    (decryptViaKeystore env encryptedKey encryptedValue).Keeps (Knows.next env key amount) (fun r s' =>
      s'.phase = .free ∧ ∀ d, r = .ok d → s'.opened = some (base64Encode encryptedValue, d.value)) s := by
  refine keeps_asking.mpr fun a => ⟨_, if_pos hs, ?_⟩
  refine keeps_lift_bind.mpr ⟨fun e _ => ⟨by simpa using hs, nofun⟩, fun resp hresp => ?_⟩
  refine keeps_lift_bind.mpr ⟨fun e _ => ⟨by simpa using hs, nofun⟩, fun v hv => ?_⟩
  refine ⟨by simpa using hs, fun d hd => ?_⟩
  obtain rfl := Except.ok.inj hd
  rw [receive_eq_ok_iff] at hresp
  rw [base64Decode_eq_ok] at hv
  rw [Knows.afterOpening, hresp, Option.bind_some, hv]

theorem get_keeps (hs : s.phase = .free) :
    (get env key).Keeps (Knows.next env key amount) (fun _ s' => s'.phase = .free) s := by
  refine keeps_asking.mpr fun a => ⟨_, if_pos hs, ?_⟩
  refine keeps_lift_bind.mpr ⟨fun e _ => hs, fun resp hresp => ?_⟩
  split
  · exact hs
  · split
    · exact hs
    · split
      · exact Keeps.bind (decrypt_keeps hs _ _) (fun d s' h => h.1) (fun e s' h => h.1)
      · exact hs

/-- What a write of `n` leaves: the number, if it was written; nothing, if not; and an error else. -/
def Written (n : Int64) (r : Except String Bool) (s : Knows) : Prop :=
  match r with
  | .ok true  => s.phase = .wrote n
  | .ok false => s.phase = .free
  | .error e  => s.phase = .free ∨ (s.phase = .unknown ∧ e ≠ overflow)

/-- The message of a failed write begins otherwise. -/
theorem ne_overflow {pre rest : String} {c : Char} (h : pre.toList.head? = some c) (hi : c ≠ 'i') :
    pre ++ rest ≠ overflow := by
  intro heq
  have hhead := congrArg (fun s : String => s.toList.head?) heq
  rw [String.toList_append, List.head?_append, h] at hhead
  exact hi (Option.some.inj hhead)

theorem wrongMode_ne_overflow (stored : Mode) (advice : String) : wrongMode stored advice ≠ overflow := by
  unfold wrongMode
  rw [String.append_assoc, String.append_assoc]
  exact ne_overflow (c := 't') (by decide +kernel) (by decide)

/-- An answer to a write that is none makes an error, of another message. -/
theorem written_of_receive {α : Type} {unsent garbled : String} {refused : Response α → String} {a : Reply α}
    {e : String} (hunsent : unsent ≠ overflow) (hgarbled : garbled ≠ overflow) (hrefused : ∀ r, refused r ≠ overflow)
    (h : receive unsent refused garbled a = .error e) : arrived a = none ∧ e ≠ overflow := by
  unfold receive at h
  unfold arrived
  cases a with
  | none =>
      rw [← Except.error.inj h]
      exact ⟨rfl, hunsent⟩
  | some r =>
      dsimp only at h
      rw [Option.bind_some]
      split at h
      · next hfailed =>
          rw [← Except.error.inj h, if_neg (by rw [hfailed]; decide)]
          exact ⟨rfl, hrefused r⟩
      · next hsuccess =>
          rw [Bool.not_eq_false] at hsuccess
          rw [if_pos hsuccess]
          split at h
          · next hnone =>
              rw [← Except.error.inj h]
              exact ⟨hnone, hgarbled⟩
          · cases h

theorem set_if_absent_keeps (hs : s.phase = .free) :
    (setIfAbsent env key (toLeBytes amount)).Keeps (Knows.next env key amount) (Written amount) s := by
  refine Keeps.bind (encrypt_keeps hs _) (fun d s' h => ?_) (fun e s' h => Or.inl h.1)
  obtain ⟨hfree, -, hsealed⟩ := h
  refine keeps_asking.mpr fun a => ⟨_, if_pos ⟨hfree, hsealed d rfl⟩, ?_⟩
  refine keeps_lift.mpr ?_
  cases hreceived : receive _ _ _ a with
  | error e =>
      have hrefused : ∀ r : Response Bool, "Storage set-if-absent failed: " ++ env.statusText r.status ++ " - " ++
          r.text ≠ overflow := by
        intro r
        rw [String.append_assoc, String.append_assoc]
        exact ne_overflow (c := 'S') (by decide +kernel) (by decide)
      obtain ⟨hnone, hne⟩ := written_of_receive (by decide) (by decide) hrefused hreceived
      rw [hnone]
      exact Or.inr ⟨rfl, hne⟩
  | ok inserted =>
      rw [receive_eq_ok_iff.mp hreceived]
      cases inserted with
      | true => rfl
      | false => exact hfree

/-- How a refusal of the compare and set is worded, it is no overflow. -/
theorem setIfEquals_refused (env : Env) (r : Response SetIfEqualsResponse) :
    (match refusedMode env r.status r.text with
      | some stored => wrongMode stored "compare it with set-if-equals-raw"
      | none => "Storage set-if-equals failed: " ++ env.statusText r.status ++ " - " ++ r.text) ≠ overflow := by
  cases refusedMode env r.status r.text with
  | some stored => exact wrongMode_ne_overflow stored _
  | none =>
      dsimp only
      rw [String.append_assoc, String.append_assoc]
      exact ne_overflow (c := 'S') (by decide +kernel) (by decide)

theorem set_if_equals_keeps (hs : s.phase = .free) {expected : Bytes} {n : Int64}
    (hn : checkedAdd (fromLeBytes expected) amount = some n) :
    (setIfEquals env key expected (toLeBytes n)).Keeps (Knows.next env key amount)
      (fun r s' => Written n (r.map Prod.fst) s') s := by
  refine keeps_asking.mpr fun a => ⟨_, if_pos hs, ?_⟩
  refine keeps_lift_bind.mpr ⟨fun e _ => Or.inl hs, fun resp _ => ?_⟩
  split
  · exact hs
  split
  · exact Or.inl hs
  split
  swap
  · exact hs
  · next encKey encValue _ _ =>
      refine Keeps.bind (decrypt_keeps hs encKey encValue) (fun d s₁ h => ?_) (fun e s₁ h => Or.inl h.1)
      obtain ⟨hfree₁, hopened₁⟩ := h
      split
      · exact hfree₁
      · next hsame =>
          rw [not_not] at hsame
          refine Keeps.bind (encrypt_keeps hfree₁ _) (fun d' s₂ h => ?_) (fun e s₂ h => Or.inl h.1)
          obtain ⟨hfree₂, hopened₂, hsealed₂⟩ := h
          have hvalue : s₂.opened = some (base64Encode encValue, expected) := by
            rw [hopened₂, hopened₁ d rfl, hsame]
          refine keeps_asking.mpr fun b => ⟨s₂.afterWriting n ((arrived b).map SetIfEqualsResponse.updated), ?_, ?_⟩
          · unfold Knows.next
            dsimp only
            rw [hvalue]
            dsimp only
            rw [hn]
            dsimp only
            rw [if_pos ⟨hfree₂, rfl, rfl, by rw [hsealed₂ d' rfl]; rfl⟩]
          · refine keeps_lift_bind.mpr ⟨fun e he => ?_, fun updateResp hupdate => ?_⟩
            · obtain ⟨hnone, hne⟩ := written_of_receive (by decide) (by decide) (setIfEquals_refused env) he
              rw [hnone]
              exact Or.inr ⟨rfl, hne⟩
            · rw [receive_eq_ok_iff.mp hupdate, Option.map_some]
              cases hupdated : updateResp.updated with
              | true => rfl
              | false =>
                  rw [if_neg (by decide)]
                  split
                  · exact Keeps.bind (decrypt_keeps hfree₂ _ _) (fun _ _ h => h.1) (fun _ _ h => Or.inl h.1)
                  · exact hfree₂

theorem mayReturn_of_free (hs : s.phase = .free) (e : String) : s.mayReturn (.error e) = true := by
  unfold Knows.mayReturn
  rw [hs]

theorem mayReturn_of_wrote {n : Int64} (hs : s.phase = .wrote n) : s.mayReturn (.ok n) = true := by
  unfold Knows.mayReturn
  rw [hs]
  exact decide_eq_true rfl

theorem mayReturn_of_failed {n : Int64} {e : String} (h : Written n (.error e) s) : s.mayReturn (.error e) = true := by
  rcases h with hs | ⟨hs, hne⟩
  · exact mayReturn_of_free hs e
  · unfold Knows.mayReturn
    rw [hs]
    exact decide_eq_true hne

/-- **A call keeps to its protocol.** By induction on the attempts: a round that writes nothing leaves the call free to
    try again, any other is the last. -/
theorem increment_keeps {attempts : Nat} : ∀ {s : Knows}, s.phase = .free →
    (incrementLoop env key amount attempts).Keeps (Knows.next env key amount)
      (fun r s' => s'.mayReturn r = true) s := by
  induction attempts with
  | zero => exact fun hs => mayReturn_of_free hs _
  | succ attempts ih =>
      intro s hs
      refine Keeps.bind (get_keeps hs) (fun current s₁ hs₁ => ?_) (fun e s₁ hs₁ => mayReturn_of_free hs₁ e)
      cases current with
      | none =>
          refine Keeps.bind (set_if_absent_keeps hs₁) (fun inserted s₂ h => ?_) (fun e s₂ h => mayReturn_of_failed h)
          cases inserted with
          | true => exact mayReturn_of_wrote h
          | false => exact ih h
      | some bytes =>
          dsimp only
          split
          · exact mayReturn_of_free hs₁ _
          · cases hn : checkedAdd (fromLeBytes bytes) amount with
            | none => exact mayReturn_of_free hs₁ _
            | some n =>
                refine Keeps.bind (set_if_equals_keeps hs₁ hn) (fun result s₂ h => ?_)
                  (fun e s₂ h => mayReturn_of_failed h)
                obtain ⟨success, current⟩ := result
                cases success with
                | true => exact mayReturn_of_wrote h
                | false => exact ih h

/-- A call that begins knows nothing. -/
def Knows.nothing : Knows := ⟨.free, none, none⟩

theorem program_keeps (call : CounterCall) :
    (call.program env key).Keeps (Knows.next env key call.amount) (fun r s => s.mayReturn r = true) .nothing := by
  cases call with
  | increment delta => exact increment_keeps rfl
  | decrement delta => exact increment_keeps rfl

end Keeps

/-! ## The services -/

/-- The changes that a call made. -/
def Services.changesOf (w : Services) (caller : Caller) : List Change := w.changes.filter fun c => c.caller = caller

/-- The keystore never sealed two values to one ciphertext, and sealed the record that is held under a hash. -/
structure Services.SealedOnce (w : Services) (keyHash : String) : Prop where
  fresh : (w.sealed.map Sealed.encryptedValue).Nodup
  held : ∀ held, w.held keyHash = some held → ∃ s ∈ w.sealed, s.encryptedValue = held.encryptedValue

section Services
variable {w : Services} {keyHash : String}

theorem find_sealed (h : (w.sealed.map Sealed.encryptedValue).Nodup) {s : Sealed} (hs : s ∈ w.sealed) :
    (w.sealed.find? fun x => x.encryptedValue = s.encryptedValue) = some s := by
  cases hfind : w.sealed.find? fun x => x.encryptedValue = s.encryptedValue with
  | none => exact absurd (decide_eq_true rfl) (List.find?_eq_none.mp hfind s hs)
  | some x =>
      have hx := List.find?_some hfind
      rw [List.inj_on_of_nodup_map h (List.mem_of_find?_eq_some hfind) hs (of_decide_eq_true hx)]

/-- The number is that of the value that was sealed. -/
theorem number_of_held (h : (w.sealed.map Sealed.encryptedValue).Nodup) {held : Held} {s : Sealed}
    (hheld : w.held keyHash = some held) (hs : s ∈ w.sealed) (hvalue : s.encryptedValue = held.encryptedValue) :
    w.number keyHash = (fromLeBytes s.value).toInt := by
  unfold Services.number
  rw [hheld]
  dsimp only
  rw [← hvalue, find_sealed h hs]

theorem number_of_none (h : w.held keyHash = none) : w.number keyHash = 0 := by
  unfold Services.number
  rw [h]

/-- A write is one change, to the number that was sealed. -/
theorem write_number (h : w.SealedOnce keyHash) (caller : Caller) {held : Held} {s : Sealed} (hs : s ∈ w.sealed)
    (hvalue : s.encryptedValue = held.encryptedValue) :
    (w.write caller keyHash held).number keyHash = (fromLeBytes s.value).toInt ∧
      (w.write caller keyHash held).changes =
        w.changes ++ [⟨caller, w.number keyHash, (fromLeBytes s.value).toInt⟩] ∧
      (w.write caller keyHash held).SealedOnce keyHash := by
  have hheld : (w.write caller keyHash held).held keyHash = some held := if_pos rfl
  have hnumber : (w.write caller keyHash held).number keyHash = (fromLeBytes s.value).toInt :=
    number_of_held (w := w.write caller keyHash held) h.fresh hheld hs hvalue
  refine ⟨hnumber, ?_, h.fresh, fun held' hheld' => ?_⟩
  · rw [← hnumber]
    rfl
  · rw [hheld] at hheld'
    exact ⟨s, hs, hvalue.trans (congrArg Held.encryptedValue (Option.some.inj hheld'))⟩

/-- Another sealed value changes no number. -/
theorem seal_number (h : w.SealedOnce keyHash) {s : Sealed} (hs : ∀ x ∈ w.sealed, x.encryptedValue ≠ s.encryptedValue) :
    ({ w with sealed := w.sealed ++ [s] } : Services).number keyHash = w.number keyHash ∧
      ({ w with sealed := w.sealed ++ [s] } : Services).SealedOnce keyHash := by
  have hfresh : ((w.sealed ++ [s]).map Sealed.encryptedValue).Nodup := by
    rw [List.map_append, List.nodup_append]
    refine ⟨h.fresh, List.nodup_singleton _, ?_⟩
    intro a ha b hb hab
    obtain ⟨x, hx, rfl⟩ := List.mem_map.mp ha
    rw [List.map_singleton, List.mem_singleton] at hb
    exact hs x hx (hab.trans hb)
  have hheld' : ∀ held, w.held keyHash = some held → ∃ x ∈ w.sealed ++ [s], x.encryptedValue = held.encryptedValue := by
    intro held hheld
    obtain ⟨x, hx, hvalue⟩ := h.held held hheld
    exact ⟨x, List.mem_append_left _ hx, hvalue⟩
  refine ⟨?_, hfresh, hheld'⟩
  cases hheld : w.held keyHash with
  | none => rw [number_of_none hheld, number_of_none (w := { w with sealed := w.sealed ++ [s] }) hheld]
  | some held =>
      obtain ⟨x, hx, hvalue⟩ := h.held held hheld
      rw [number_of_held h.fresh hheld hx hvalue,
        number_of_held (w := { w with sealed := w.sealed ++ [s] }) hfresh hheld (List.mem_append_left _ hx) hvalue]

end Services

/-! ## What holds throughout -/

/-- **No update is lost**: the number is the first one and what the calls asked for that changed it; a change is by what
    its call asked for, within 64 bits; a call that returns a number made one change, to that number; one that returns
    an error made at most one, and none where it says that the sum is too large. -/
structure NoUpdateLost (keyHash : String) (start : Int) (w : Services) : Prop where
  total : w.number keyHash = start + (w.changes.map fun c => c.caller.2.signed).sum
  changed : ∀ c ∈ w.changes, c.after = c.before + c.caller.2.signed ∧ -2 ^ 63 ≤ c.after ∧ c.after < 2 ^ 63
  returned : ∀ caller n, (caller, .ok n) ∈ w.returned → ∃ c, w.changesOf caller = [c] ∧ c.after = n.toInt
  failed : ∀ caller e, (caller, .error e) ∈ w.returned → (w.changesOf caller).length ≤ 1
  overflowed : ∀ caller, (caller, .error overflow) ∈ w.returned → w.changesOf caller = []

/-- How many changes a call made, by what it was told. -/
def Phase.Counts (w : Services) (caller : Caller) : Phase → Prop
  | .free    => w.changesOf caller = []
  | .unknown => (w.changesOf caller).length ≤ 1
  | .wrote n => ∃ c, w.changesOf caller = [c] ∧ c.after = n.toInt

/-- How many changes a call made, by what it returned. -/
def Ended (w : Services) (caller : Caller) : Except String Int64 → Prop
  | .ok n    => ∃ c, w.changesOf caller = [c] ∧ c.after = n.toInt
  | .error e => (w.changesOf caller).length ≤ 1 ∧ (e = overflow → w.changesOf caller = [])

/-- What a call knows is so. -/
structure Knows.Sound (env : Env) (key : String) (w : Services) (caller : Caller) (s : Knows) : Prop where
  counts : s.phase.Counts w caller
  opened : ∀ text value, s.opened = some (text, value) →
    ∃ x ∈ w.sealed, base64Encode x.encryptedValue = text ∧ x.value = value
  sealed : ∀ keyHash encryptedValue text, s.sealed = some (keyHash, encryptedValue, text) →
    keyHash = hashKey env key ∧ ∃ x ∈ w.sealed, x.encryptedValue = encryptedValue ∧ base64Encode x.value = text

/-- What is so of a call, under way or at its end. -/
def Accounted (env : Env) (key : String) (w : Services) (caller : Caller) : Knows ⊕ Except String Int64 → Prop
  | .inl s => s.Sound env key w caller
  | .inr r => Ended w caller r

/-- The invariant of the services and of what the calls know. -/
structure Counted (env : Env) (key : String) (start : Int) (w : Services)
    (states : List (Caller × (Knows ⊕ Except String Int64))) : Prop where
  once : w.SealedOnce (hashKey env key)
  total : w.number (hashKey env key) = start + (w.changes.map fun c => c.caller.2.signed).sum
  changed : ∀ c ∈ w.changes, c.after = c.before + c.caller.2.signed ∧ -2 ^ 63 ≤ c.after ∧ c.after < 2 ^ 63
  callers : (states.map Prod.fst).Nodup
  amounts : ∀ state ∈ states, state.1.2.amount.toInt = state.1.2.signed
  accounted : ∀ state ∈ states, Accounted env key w state.1 state.2
  returned : ∀ caller r, (caller, r) ∈ w.returned → (caller, .inr r) ∈ states

section Invariant
variable {env : Env} {key : String} {start : Int} {w w' : Services} {caller : Caller} {k k' : Knows}
  {before after : List (Caller × (Knows ⊕ Except String Int64))}

theorem Counted.noUpdateLost {states : List (Caller × (Knows ⊕ Except String Int64))}
    (h : Counted env key start w states) : NoUpdateLost (hashKey env key) start w where
  total := h.total
  changed := h.changed
  returned caller _ hn := h.accounted _ (h.returned caller _ hn)
  failed caller _ he := (h.accounted _ (h.returned caller _ he)).1
  overflowed caller he := (h.accounted _ (h.returned caller _ he)).2 rfl

/-- The account of a call depends on its own changes and on what is sealed. -/
theorem Accounted.mono {state : Knows ⊕ Except String Int64} (h : Accounted env key w caller state)
    (hchanges : w'.changesOf caller = w.changesOf caller) (hsealed : w.sealed ⊆ w'.sealed) :
    Accounted env key w' caller state := by
  cases state with
  | inl s =>
      refine ⟨?_, fun text value hs => ?_, fun keyHash encryptedValue text hs => ?_⟩
      · have hcounts := h.counts
        cases hphase : s.phase with
        | free =>
            rw [hphase] at hcounts
            exact hchanges.trans hcounts
        | unknown =>
            rw [hphase] at hcounts
            show (w'.changesOf caller).length ≤ 1
            rw [hchanges]
            exact hcounts
        | wrote n =>
            rw [hphase] at hcounts
            show ∃ c, w'.changesOf caller = [c] ∧ _
            rw [hchanges]
            exact hcounts
      · obtain ⟨x, hx, hsame⟩ := h.opened text value hs
        exact ⟨x, hsealed hx, hsame⟩
      · obtain ⟨hkey, x, hx, hsame⟩ := h.sealed keyHash encryptedValue text hs
        exact ⟨hkey, x, hsealed hx, hsame⟩
  | inr r =>
      cases r with
      | ok n =>
          show ∃ c, w'.changesOf caller = [c] ∧ _
          rw [hchanges]
          exact h
      | error e =>
          show (w'.changesOf caller).length ≤ 1 ∧ (_ → w'.changesOf caller = [])
          rw [hchanges]
          exact h

/-- One call goes on; the others are as they were. -/
theorem Counted.advance {state state' : Knows ⊕ Except String Int64}
    (h : Counted env key start w (before ++ (caller, state) :: after)) (hstate : state.isLeft = true)
    (honce : w'.SealedOnce (hashKey env key))
    (htotal : w'.number (hashKey env key) = start + (w'.changes.map fun c => c.caller.2.signed).sum)
    (hchanged : ∀ c ∈ w'.changes, c.after = c.before + c.caller.2.signed ∧ -2 ^ 63 ≤ c.after ∧ c.after < 2 ^ 63)
    (hothers : ∀ other, other ≠ caller → w'.changesOf other = w.changesOf other) (hsealed : w.sealed ⊆ w'.sealed)
    (haccount : Accounted env key w' caller state')
    (hreturned : ∀ c r, (c, r) ∈ w'.returned → (c, r) ∈ w.returned ∨ (c = caller ∧ state' = .inr r)) :
    Counted env key start w' (before ++ (caller, state') :: after) := by
  have hcallers := h.callers
  rw [List.map_append, List.map_cons] at hcallers
  have hnotin : caller ∉ before.map Prod.fst ∧ caller ∉ after.map Prod.fst := by
    have hsplit := List.nodup_middle.mp hcallers
    have hnot := (List.nodup_cons.mp hsplit).1
    rw [List.mem_append, not_or] at hnot
    exact hnot
  have hkept : ∀ s ∈ before ++ after, s ∈ before ++ (caller, state) :: after ∧ s.1 ≠ caller := by
    intro s hs
    rcases List.mem_append.mp hs with hs | hs
    · exact ⟨List.mem_append_left _ hs, fun heq => hnotin.1 (heq ▸ List.mem_map_of_mem hs)⟩
    · exact ⟨List.mem_append_right _ (List.mem_cons_of_mem _ hs), fun heq => hnotin.2 (heq ▸ List.mem_map_of_mem hs)⟩
  have hmem : ∀ s, s ∈ before ++ (caller, state') :: after ↔ s = (caller, state') ∨ s ∈ before ++ after := by
    intro s
    rw [List.mem_append, List.mem_cons, List.mem_append]
    tauto
  refine ⟨honce, htotal, hchanged, ?_, ?_, ?_, ?_⟩
  · rw [List.map_append, List.map_cons]
    exact hcallers
  · intro s hs
    rcases (hmem s).mp hs with rfl | hs
    · exact h.amounts (caller, state) (List.mem_append_right _ List.mem_cons_self)
    · exact h.amounts s (hkept s hs).1
  · intro s hs
    rcases (hmem s).mp hs with rfl | hs
    · exact haccount
    · exact (h.accounted s (hkept s hs).1).mono (hothers _ (hkept s hs).2) hsealed
  · intro c r hr
    rcases hreturned c r hr with hr | ⟨rfl, hstate'⟩
    · have hold := h.returned c r hr
      refine (hmem _).mpr (Or.inr ?_)
      rcases List.mem_append.mp hold with hold | hold
      · exact List.mem_append_left _ hold
      · rcases List.mem_cons.mp hold with heq | hold
        · rw [← (Prod.mk.inj heq).2] at hstate
          cases hstate
        · exact List.mem_append_right _ hold
    · exact (hmem _).mpr (Or.inl (by rw [hstate']))

/-- The call was told something; the services are as they were. -/
theorem Counted.told (h : Counted env key start w (before ++ (caller, .inl k) :: after))
    (hsound : k'.Sound env key w caller) : Counted env key start w (before ++ (caller, .inl k') :: after) :=
  h.advance rfl h.once h.total h.changed (fun _ _ => rfl) (List.Subset.refl _) hsound fun _ _ => Or.inl

theorem Counted.sound (h : Counted env key start w (before ++ (caller, .inl k) :: after)) :
    k.Sound env key w caller := h.accounted (caller, .inl k) (List.mem_append_right _ List.mem_cons_self)

theorem Counted.amount (h : Counted env key start w (before ++ (caller, .inl k) :: after)) :
    caller.2.amount.toInt = caller.2.signed := h.amounts (caller, .inl k) (List.mem_append_right _ List.mem_cons_self)

/-- A record of the number `n` was written for the call. -/
def WroteFor (env : Env) (key : String) (w : Services) (caller : Caller) (n : Int64) (w' : Services) : Prop :=
  ∃ held, w' = w.write caller (hashKey env key) held ∧
    (∃ x ∈ w.sealed, x.encryptedValue = held.encryptedValue ∧ base64Encode x.value = base64Encode (toLeBytes n)) ∧
    n.toInt = w.number (hashKey env key) + caller.2.signed

/-- One change, by what the call asks for. -/
theorem Counted.written (h : Counted env key start w (before ++ (caller, .inl k) :: after)) (hk : k.phase = .free)
    {n : Int64} (hw : WroteFor env key w caller n w') (hphase : k'.phase = .wrote n ∨ k'.phase = .unknown)
    (hopened : k'.opened = k.opened) (hsealed : k'.sealed = k.sealed) :
    Counted env key start w' (before ++ (caller, .inl k') :: after) := by
  obtain ⟨held, rfl, ⟨x, hx, hvalue, htext⟩, hn⟩ := hw
  have hxn : fromLeBytes x.value = n := by rw [base64Encode_inj htext, fromLeBytes_toLeBytes]
  obtain ⟨hnumber, hchanges, honce⟩ := write_number h.once caller hx hvalue
  rw [hxn] at hnumber hchanges
  have hchange : ∀ other, (w.write caller (hashKey env key) held).changesOf other =
      w.changesOf other ++ if caller = other then [⟨caller, w.number (hashKey env key), n.toInt⟩] else [] := by
    intro other
    unfold Services.changesOf
    rw [hchanges, List.filter_append, List.filter_singleton]
    by_cases hsame : caller = other <;> simp [hsame]
  have hnone : w.changesOf caller = [] := by
    have hcounts := h.sound.counts
    rw [hk] at hcounts
    exact hcounts
  have hone : (w.write caller (hashKey env key) held).changesOf caller =
      [⟨caller, w.number (hashKey env key), n.toInt⟩] := by
    rw [hchange, if_pos rfl, hnone, List.nil_append]
  refine h.advance rfl honce ?_ ?_ ?_ (List.Subset.refl _) ⟨?_, ?_, ?_⟩ fun _ _ => Or.inl
  · rw [hnumber, hchanges, List.map_append, List.sum_append, hn, h.total]
    simp only [List.map_cons, List.map_nil, List.sum_cons, List.sum_nil]
    omega
  · intro c hc
    rw [hchanges] at hc
    rcases List.mem_append.mp hc with hc | hc
    · exact h.changed c hc
    · obtain rfl := List.mem_singleton.mp hc
      exact ⟨hn, Int64.le_toInt n, Int64.toInt_lt n⟩
  · intro other hne
    rw [hchange, if_neg (Ne.symm hne), List.append_nil]
  · rcases hphase with hphase | hphase
    · rw [hphase]
      exact ⟨_, hone, rfl⟩
    · rw [hphase]
      show ((w.write caller (hashKey env key) held).changesOf caller).length ≤ 1
      rw [hone]
      exact Nat.le_refl 1
  · rw [hopened]
    exact h.sound.opened
  · rw [hsealed]
    exact h.sound.sealed

/-- What a write and its answer come to. -/
theorem Counted.wrote (h : Counted env key start w (before ++ (caller, .inl k) :: after)) (hk : k.phase = .free)
    {n : Int64} {answer : Option Bool}
    (hw : match answer with
      | some true  => WroteFor env key w caller n w'
      | some false => w' = w
      | none       => w' = w ∨ WroteFor env key w caller n w') :
    Counted env key start w' (before ++ (caller, .inl (k.afterWriting n answer)) :: after) := by
  have hcounts := h.sound.counts
  rw [hk] at hcounts
  cases answer with
  | none =>
      rcases hw with rfl | hw
      · refine h.told ⟨?_, h.sound.opened, h.sound.sealed⟩
        have hnone : w'.changesOf caller = [] := hcounts
        show (w'.changesOf caller).length ≤ 1
        rw [hnone]
        exact Nat.zero_le 1
      · exact h.written hk hw (Or.inr rfl) rfl rfl
  | some written =>
      cases written with
      | true => exact h.written hk hw (Or.inl rfl) rfl rfl
      | false =>
          obtain rfl : w' = w := hw
          exact h

theorem arrived_delivered {α : Type} (a : α) : arrived (delivered a) = some a := rfl

theorem arrived_failing {α : Type} (failure : Option (Nat × String)) : arrived (failing failure : Reply α) = none := by
  unfold arrived failing
  cases failure with
  | none => rfl
  | some f =>
      rw [Option.map_some, Option.bind_some]
      split <;> rfl

/-- A request to write where there is none: carried out or not, it does what its answer says. -/
theorem setIfAbsent_cases {b : SetIfAbsentRequest}
    (hkey : b.keyHash = hashKey env key) {n : Int64} (hn : n.toInt = caller.2.signed)
    (hsealed : ∃ x ∈ w.sealed, x.encryptedValue = b.encryptedValue ∧
      base64Encode x.value = base64Encode (toLeBytes n)) :
    ((w.setIfAbsent caller b).1 = true ∧ WroteFor env key w caller n (w.setIfAbsent caller b).2) ∨
      ((w.setIfAbsent caller b).1 = false ∧ (w.setIfAbsent caller b).2 = w) := by
  unfold Services.setIfAbsent
  rw [hkey]
  cases hheld : w.held (hashKey env key) with
  | none => exact Or.inl ⟨rfl, _, rfl, hsealed, by rw [number_of_none hheld, hn, Int.zero_add]⟩
  | some held => exact Or.inr ⟨rfl, rfl⟩

/-- A request to write where a ciphertext is: the number is the one that was opened from it. -/
theorem setIfEquals_cases (h : w.SealedOnce (hashKey env key)) {b : SetIfEqualsRequest}
    (hkey : b.keyHash = hashKey env key) {n : Int64} {value : Bytes}
    (hn : n.toInt = (fromLeBytes value).toInt + caller.2.signed)
    (hopened : ∃ x ∈ w.sealed, base64Encode x.encryptedValue = base64Encode b.expectedEncryptedValue ∧ x.value = value)
    (hsealed : ∃ x ∈ w.sealed, x.encryptedValue = b.newEncryptedValue ∧
      base64Encode x.value = base64Encode (toLeBytes n)) :
    ((w.setIfEquals caller b).1.updated = true ∧ WroteFor env key w caller n (w.setIfEquals caller b).2) ∨
      ((w.setIfEquals caller b).1.updated = false ∧ (w.setIfEquals caller b).2 = w) := by
  obtain ⟨x, hx, htext, rfl⟩ := hopened
  have hcipher : x.encryptedValue = b.expectedEncryptedValue := base64Encode_inj htext
  unfold Services.setIfEquals
  rw [hkey]
  cases hheld : w.held (hashKey env key) with
  | none => exact Or.inr ⟨rfl, rfl⟩
  | some held =>
      dsimp only
      by_cases hsame : held.encryptedValue = b.expectedEncryptedValue
      · rw [if_pos hsame]
        refine Or.inl ⟨rfl, _, rfl, hsealed, ?_⟩
        rw [number_of_held h.fresh hheld hx (hcipher.trans hsame.symm), hn]
      · rw [if_neg hsame]
        exact Or.inr ⟨rfl, rfl⟩

/-- When a call may ask to write where a ciphertext is. -/
theorem next_setIfEquals {amount : Int64} {b : SetIfEqualsRequest} {a : Answer (.setIfEquals b)}
    (h : k.next env key amount (.setIfEquals b) a = some k') :
    ∃ text value n keyHash, k.opened = some (text, value) ∧ checkedAdd (fromLeBytes value) amount = some n ∧
      k.phase = .free ∧ b.keyHash = hashKey env key ∧ base64Encode b.expectedEncryptedValue = text ∧
      k.sealed = some (keyHash, b.newEncryptedValue, base64Encode (toLeBytes n)) ∧
      k' = k.afterWriting n ((arrived a).map SetIfEqualsResponse.updated) := by
  unfold Knows.next at h
  dsimp only at h
  split at h
  · cases h
  · next text value hopened =>
      split at h
      · cases h
      · next n hn =>
          obtain ⟨⟨hfree, hkey, htext, hsealed⟩, hk'⟩ := Option.ite_none_right_eq_some.mp h
          obtain ⟨⟨keyHash, rest⟩, hk, hrest⟩ := Option.map_eq_some_iff.mp hsealed
          obtain rfl : rest = _ := hrest
          exact ⟨text, value, n, keyHash, hopened, hn, hfree, hkey, htext, hk, (Option.some.inj hk').symm⟩

/-- **A request keeps the invariant**, one case for each kind of request. -/
theorem Counted.ask (h : Counted env key start w (before ++ (caller, .inl k) :: after)) {q : Ask} {how : Happening}
    {a : Answer q} (hask : w.ask env caller q how = some (a, w'))
    (hnext : k.next env key caller.2.amount q a = some k') :
    Counted env key start w' (before ++ (caller, .inl k') :: after) := by
  have hsound := h.sound
  cases q with
  | get b =>
      obtain ⟨-, rfl⟩ := Option.ite_none_right_eq_some.mp hnext |>.imp_right Option.some.inj
      cases how with
      | answered =>
          obtain ⟨-, rfl⟩ := Prod.mk.inj (Option.some.inj hask)
          exact h
      | lost carriedOut failure =>
          obtain ⟨-, rfl⟩ := Prod.mk.inj (Option.some.inj hask)
          exact h
      | seals => cases hask
      | opens => cases hask
  | decrypt b =>
      obtain ⟨hfree, rfl⟩ := Option.ite_none_right_eq_some.mp hnext |>.imp_right Option.some.inj
      cases how with
      | opens s valueText =>
          obtain ⟨⟨hs, htext, hvalue⟩, hrest⟩ := Option.ite_none_right_eq_some.mp hask
          obtain ⟨rfl, rfl⟩ := Prod.mk.inj (Option.some.inj hrest)
          refine h.told ⟨by rw [afterOpening_phase]; exact hsound.counts, ?_, ?_⟩
          · intro text value hopened
            rw [Knows.afterOpening, arrived_delivered, Option.bind_some, hvalue] at hopened
            obtain ⟨rfl, rfl⟩ := Prod.mk.inj (Option.some.inj hopened)
            exact ⟨s, hs, htext.symm, rfl⟩
          · rw [Knows.afterOpening, arrived_delivered, Option.bind_some, hvalue]
            exact hsound.sealed
      | lost carriedOut failure =>
          obtain ⟨rfl, rfl⟩ := Prod.mk.inj (Option.some.inj hask)
          rw [Knows.afterOpening, arrived_failing]
          exact h
      | answered => cases hask
      | seals => cases hask
  | encrypt b =>
      obtain ⟨⟨hfree, hkey⟩, rfl⟩ := Option.ite_none_right_eq_some.mp hnext |>.imp_right Option.some.inj
      cases how with
      | seals value encryptedKey encryptedValue keyText valueText =>
          obtain ⟨⟨hvalue, -, htext, hfresh⟩, hrest⟩ := Option.ite_none_right_eq_some.mp hask
          obtain ⟨rfl, rfl⟩ := Prod.mk.inj (Option.some.inj hrest)
          obtain ⟨hnumber, honce⟩ := seal_number h.once (s := ⟨b.key, value, encryptedKey, encryptedValue⟩) hfresh
          refine h.advance rfl honce (hnumber.trans h.total) h.changed (fun _ _ => rfl)
            (List.subset_append_left _ _) ⟨?_, ?_, ?_⟩ fun _ _ => Or.inl
          · rw [afterSealing_phase, hfree]
            have hcounts := hsound.counts
            rw [hfree] at hcounts
            exact hcounts
          · rw [afterSealing_opened]
            intro text v hopened
            obtain ⟨x, hx, hsame⟩ := hsound.opened text v hopened
            exact ⟨x, List.mem_append_left _ hx, hsame⟩
          · intro keyHash cipher text hsealed
            rw [Knows.afterSealing, arrived_delivered, Option.bind_some, htext] at hsealed
            obtain ⟨rfl, hrest⟩ := Prod.mk.inj (Option.some.inj hsealed)
            obtain ⟨rfl, rfl⟩ := Prod.mk.inj hrest
            exact ⟨by rw [hkey], _, List.mem_append_right _ List.mem_cons_self, rfl, hvalue.symm⟩
      | lost carriedOut failure =>
          obtain ⟨rfl, rfl⟩ := Prod.mk.inj (Option.some.inj hask)
          rw [Knows.afterSealing, arrived_failing]
          exact h
      | answered => cases hask
      | opens => cases hask
  | setIfAbsent b =>
      obtain ⟨⟨hfree, hsealed⟩, rfl⟩ := Option.ite_none_right_eq_some.mp hnext |>.imp_right Option.some.inj
      obtain ⟨hkey, hx⟩ := hsound.sealed _ _ _ hsealed
      have hcases := setIfAbsent_cases hkey h.amount hx
      cases how with
      | answered =>
          have hpair : delivered (w.setIfAbsent caller b).1 = a ∧ (w.setIfAbsent caller b).2 = w' :=
            Prod.mk.inj (Option.some.inj hask)
          obtain ⟨rfl, rfl⟩ := hpair
          refine h.wrote hfree ?_
          rcases hcases with ⟨hanswer, hw⟩ | ⟨hanswer, hw⟩
          · rw [arrived_delivered, hanswer]
            exact hw
          · rw [arrived_delivered, hanswer]
            exact hw
      | lost carriedOut failure =>
          obtain ⟨rfl, rfl⟩ := Prod.mk.inj (Option.some.inj hask)
          refine h.wrote hfree ?_
          rw [arrived_failing]
          cases carriedOut with
          | false => exact Or.inl rfl
          | true => exact hcases.elim (fun hw => Or.inr hw.2) (fun hw => Or.inl hw.2)
      | seals => cases hask
      | opens => cases hask
  | setIfEquals b =>
      obtain ⟨text, value, n, keyHash, hopened, hn, hfree, hkey, htext, hsealed, rfl⟩ := next_setIfEquals hnext
      obtain ⟨x, hx, hcipher, hvalue⟩ := hsound.opened text value hopened
      have hsum : n.toInt = (fromLeBytes value).toInt + caller.2.signed := by rw [checkedAdd_eq_some hn, h.amount]
      have hcases := setIfEquals_cases h.once hkey hsum ⟨x, hx, hcipher.trans htext.symm, hvalue⟩
        (hsound.sealed _ _ _ hsealed).2
      cases how with
      | answered =>
          have hpair : delivered (w.setIfEquals caller b).1 = a ∧ (w.setIfEquals caller b).2 = w' :=
            Prod.mk.inj (Option.some.inj hask)
          obtain ⟨rfl, rfl⟩ := hpair
          refine h.wrote hfree ?_
          rcases hcases with ⟨hanswer, hw⟩ | ⟨hanswer, hw⟩
          · rw [arrived_delivered, Option.map_some, hanswer]
            exact hw
          · rw [arrived_delivered, Option.map_some, hanswer]
            exact hw
      | lost carriedOut failure =>
          obtain ⟨rfl, rfl⟩ := Prod.mk.inj (Option.some.inj hask)
          refine h.wrote hfree ?_
          rw [arrived_failing, Option.map_none]
          cases carriedOut with
          | false => exact Or.inl rfl
          | true => exact hcases.elim (fun hw => Or.inr hw.2) (fun hw => Or.inl hw.2)
      | seals => cases hask
      | opens => cases hask
  | list account project => cases how <;> cases hask
  | listTimedOut => cases how <;> cases hask

theorem ended_of_mayReturn {r : Except String Int64} (hcounts : k.phase.Counts w caller)
    (hmay : k.mayReturn r = true) : Ended w caller r := by
  unfold Knows.mayReturn at hmay
  split at hmay
  · next hphase =>
      rw [hphase] at hcounts
      have hnone : w.changesOf caller = [] := hcounts
      refine ⟨?_, fun _ => hnone⟩
      rw [hnone]
      exact Nat.zero_le 1
  · next hphase =>
      rw [hphase] at hcounts
      exact ⟨hcounts, fun heq => absurd heq (of_decide_eq_true hmay)⟩
  · next n m hphase =>
      rw [hphase] at hcounts
      obtain rfl : n = m := of_decide_eq_true hmay
      exact hcounts
  · cases hmay

/-- A request, or the end of a call. -/
theorem Counted.serve {state state' : Knows ⊕ Except String Int64}
    (h : Counted env key start w (before ++ (caller, state) :: after)) {q : Ask ⊕ Except String Int64}
    {how : Happening} {a : Sum.elim Answer (fun _ => Unit) q} (hserve : w.serve env caller q how = some (a, w'))
    (hnext : announcing (Knows.next env key caller.2.amount) (fun r s => s.mayReturn r) state q a = some state') :
    Counted env key start w' (before ++ (caller, state') :: after) := by
  cases state with
  | inr r => cases hnext
  | inl k =>
      cases q with
      | inl q =>
          obtain ⟨k', hk', rfl⟩ := Option.map_eq_some_iff.mp hnext
          exact h.ask hserve hk'
      | inr r =>
          obtain ⟨hmay, hstate'⟩ := Option.ite_none_right_eq_some.mp hnext
          obtain rfl := Option.some.inj hstate'
          obtain ⟨-, rfl⟩ := Prod.mk.inj (Option.some.inj hserve)
          refine h.advance rfl ⟨h.once.fresh, h.once.held⟩ h.total h.changed (fun _ _ => rfl) (List.Subset.refl _) ?_ ?_
          · exact ended_of_mayReturn h.sound.counts hmay
          · intro c r' hr'
            rcases List.mem_append.mp hr' with hr' | hr'
            · exact Or.inl hr'
            · obtain ⟨rfl, rfl⟩ := Prod.mk.inj (List.mem_singleton.mp hr')
              exact Or.inr ⟨rfl, rfl⟩

end Invariant

/-- Before the calls: nothing was changed and nothing returned. -/
structure Services.Starts (env : Env) (key : String) (w : Services) : Prop where
  once : w.SealedOnce (hashKey env key)
  changes : w.changes = []
  returned : w.returned = []

section Calls
variable {env : Env} {key : String} {calls : List CounterCall} {w : Services}

/-- The calls, knowing nothing. -/
def beginning (calls : List CounterCall) : List (Caller × (Knows ⊕ Except String Int64)) :=
  calls.zipIdx.map fun c => ((c.2, c.1), .inl .nothing)

theorem counting_follows : (counting env key calls w).Follows
    (fun caller => announcing (Knows.next env key caller.2.amount) fun r s => s.mayReturn r)
    (fun s => s.isRight = true) (beginning calls) := by
  unfold Pool.Follows counting beginning
  rw [List.forall₂_map_left_iff, List.forall₂_map_right_iff, List.forall₂_same]
  exact fun c _ => ⟨rfl, (program_keeps c.1).announce⟩

theorem beginning_counted (hstart : w.Starts env key) (hcalls : .decrement Int64.minValue ∉ calls) :
    Counted env key (w.number (hashKey env key)) w (beginning calls) := by
  refine ⟨hstart.once, ?_, ?_, ?_, ?_, ?_, ?_⟩
  · rw [hstart.changes]
    exact (Int.add_zero _).symm
  · rw [hstart.changes]
    nofun
  · have hplaces : ((beginning calls).map Prod.fst).map Prod.fst = List.range' 0 calls.length := by
      unfold beginning
      rw [List.map_map, List.map_map, ← List.zipIdx_map_snd 0 calls]
      rfl
    exact List.Nodup.of_map Prod.fst (hplaces ▸ List.nodup_range')
  · intro state hstate
    obtain ⟨c, hc, rfl⟩ := List.mem_map.mp hstate
    exact amount_toInt fun heq => hcalls (heq ▸ (List.mem_zipIdx' hc).2 ▸ List.getElem_mem _)
  · intro state hstate
    obtain ⟨c, hc, rfl⟩ := List.mem_map.mp hstate
    refine ⟨?_, nofun, nofun⟩
    show w.changes.filter _ = []
    rw [hstart.changes]
    rfl
  · rw [hstart.returned]
    nofun

end Calls

open Runs in
/-- **Counters lose no update**, in every interleaving of any calls on one key, as long as none takes away the smallest
    number. -/
theorem counters_lose_no_update (env : Env) (key : String) {calls : List CounterCall} {w : Services}
    (hstart : w.Starts env key) (hcalls : .decrement Int64.minValue ∉ calls)
    {tr : List (Transition Counting (Nat × Happening) (Caller × Exchange.Event (Sum.elim Answer fun _ => Unit)))}
    {p : Counting} (hrun : Run (countingStep env) (counting env key calls w) tr p) :
    NoUpdateLost (hashKey env key) (w.number (hashKey env key)) p.store := by
  obtain ⟨states, -, hcounted⟩ := Pool.invariant (C := fun _ => True) counting_follows
    (beginning_counted hstart hcalls)
    (fun w w' caller s s' q a how before after hserve hnext _ h => h.serve hserve hnext) hrun fun _ _ => trivial
  exact hcounted.noUpdateLost

/-! ## Two calls, and one -/

/-- Nothing is stored. -/
def noServices : Services := ⟨fun _ => none, [], [], []⟩

theorem noServices_starts {env : Env} {key : String} : noServices.Starts env key := ⟨⟨List.nodup_nil, nofun⟩, rfl, rfl⟩

/-- Ciphertexts are read from base64. -/
def countingEnv : Env := { sampleEnv with base64Decode := Text.base64Decode }

/-- The keystore seals a number to a ciphertext of one byte. -/
def sealsNumber (n : Int64) (ciphertext : UInt8) : Happening :=
  .seals (toLeBytes n) [] [ciphertext] "" (base64Encode [ciphertext])

/-- The keystore opens the number it sealed. -/
def opensNumber (n : Int64) (ciphertext : UInt8) : Happening :=
  .opens ⟨"visits", toLeBytes n, [], [ciphertext]⟩ (base64Encode (toLeBytes n))

/-- Two calls find no record and seal their first number; one of them writes it and ends. The other's record is not
    taken: it opens the one that is there, seals the sum, and puts it in its place. -/
def racedCounts : List (Nat × Happening) :=
  [(0, .answered), (1, .answered), (0, sealsNumber 5 1), (1, sealsNumber 7 2), (0, .answered), (1, .answered),
   (0, .answered), (1, .answered), (1, opensNumber 5 1), (1, .answered), (1, opensNumber 5 1), (1, sealsNumber 12 3),
   (1, .answered), (1, .answered)]

open Runs in
theorem raced_counts_kept : ∃ tr p, Run (countingStep countingEnv)
    (counting countingEnv "visits" [.increment 5, .increment 7] noServices) tr p ∧
      p.store.changes = [⟨(0, .increment 5), 0, 5⟩, ⟨(1, .increment 7), 5, 12⟩] ∧
      p.store.returned = [((0, .increment 5), .ok 5), ((1, .increment 7), .ok 12)] ∧
      NoUpdateLost (hashKey countingEnv "visits") 0 p.store := by
  have hplayed : (replay (countingStep countingEnv)
      (counting countingEnv "visits" [.increment 5, .increment 7] noServices) racedCounts).any
      (fun r => decide (r.2.store.changes = [⟨(0, .increment 5), 0, 5⟩, ⟨(1, .increment 7), 5, 12⟩]) &&
        decide (r.2.store.returned = [((0, .increment 5), .ok 5), ((1, .increment 7), .ok 12)])) = true := by
    decide +kernel
  obtain ⟨tr, p, hrun, hend⟩ := exists_run hplayed
  rw [Bool.and_eq_true, decide_eq_true_eq, decide_eq_true_eq] at hend
  exact ⟨tr, p, hrun, hend.1, hend.2,
    counters_lose_no_update countingEnv "visits" noServices_starts (by decide) hrun⟩

/-- The first count: no record is there, the value is sealed, and the record is written. -/
def firstCount (n : Int64) : List (Nat × Happening) :=
  [(0, .answered), (0, .seals (toLeBytes n) [] [] "" ""), (0, .answered), (0, .answered)]

open Runs in
/-- Taking away the smallest number adds it. -/
theorem smallest_taken_away : ∃ tr p, Run (countingStep sampleEnv)
    (counting sampleEnv "visits" [.decrement Int64.minValue] noServices) tr p ∧
      noServices.Starts sampleEnv "visits" ∧
      p.store.returned = [((0, .decrement Int64.minValue), .ok Int64.minValue)] ∧
      ¬ NoUpdateLost (hashKey sampleEnv "visits") 0 p.store := by
  have hplayed : (replay (countingStep sampleEnv)
      (counting sampleEnv "visits" [.decrement Int64.minValue] noServices) (firstCount Int64.minValue)).any
      (fun r => decide (r.2.store.returned = [((0, .decrement Int64.minValue), .ok Int64.minValue)]) &&
        decide (r.2.store.changes = [⟨(0, .decrement Int64.minValue), 0, -2 ^ 63⟩])) = true := by
    decide +kernel
  obtain ⟨tr, p, hrun, hend⟩ := exists_run hplayed
  rw [Bool.and_eq_true, decide_eq_true_eq, decide_eq_true_eq] at hend
  refine ⟨tr, p, hrun, noServices_starts, hend.1, fun h => ?_⟩
  have hchange := (h.changed _ (by rw [hend.2]; exact List.mem_cons_self)).1
  exact absurd hchange (by decide)

end Outlayer.Worker.Storage
