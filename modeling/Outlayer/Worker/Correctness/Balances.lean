import Outlayer.Lib.JsonReread
import Outlayer.Worker.Correctness.Credits

/-!
# `Worker.Correctness.Balances` — the balance inside the stored key

A top-up reads the ciphertext of its key when its event is emitted and writes it when its callback runs. In between,
another top-up of the same key may do both, and then the later callback writes over the earlier one: its tokens are
kept, and the amount is not in the key.

`topUps_add_up` is what holds: when every top-up that is resumed with success finds, as its callback runs, the
ciphertext its event carried, the stored balance grows by exactly the amounts whose tokens were kept. The invariant
is `BalanceInv`: what a top-up in flight is to store is its own event's balance with its amount added.
`topUp_lost` are two top-ups of which one is lost.
-/

namespace Outlayer
open Text Checked Collections Runs

namespace Worker

/-! ## The balance of a key -/

/-- What a keystore decrypts a ciphertext to. -/
abbrev Decrypt := (seed encryptedBase64 : String) → (vaultId : Option String) → Option (List UInt8)

/-- The seed a payment key is encrypted under. -/
def keySeed (owner : AccountId) (nonce : Nat) : String :=
  "system:payment_key:" ++ owner.name ++ ":" ++ toString nonce

/-- The `initial_balance` in a decrypted key. -/
def plainBalance (H : Host) (text : String) : Option Nat := do
  let data ← Json.parse H.jsonNumber text
  let balance ← (data.get "initial_balance").bind Json.Value.asStr
  parseUnsigned 128 balance

/-- The balance inside a ciphertext of the key. -/
def keyBalance (H : Host) (D : Decrypt) (owner : AccountId) (nonce : Nat) (vaultId : Option String)
    (encrypted : String) : Option Nat := do
  let bytes ← D (keySeed owner nonce) encrypted vaultId
  let text ← String.fromUTF8? ⟨bytes.toArray⟩
  plainBalance H text

section Chain
variable (ch : Chain) (owner : AccountId) (nonce : Nat)

/-- The ciphertext stored for the key. -/
def Chain.storedKey : Option String :=
  (ch.world.contract.secretsStorage.lookup (paymentKey owner nonce)).map SecretProfile.encryptedSecrets

/-- The vault the key is bound to. -/
def Chain.vaultOfKey : Option String :=
  (ch.world.contract.secretVaultBindings.lookup (paymentKey owner nonce)).map AccountId.name

/-- The balance inside the stored key. -/
def Chain.storedBalance (H : Host) (D : Decrypt) : Option Nat :=
  (ch.storedKey owner nonce).bind (keyBalance H D owner nonce (ch.vaultOfKey owner nonce))

/-- No top-up of the key is in flight. -/
def Chain.Quiet : Prop :=
  ∀ d y amount, ch.world.yields.lookup d = some y → y.callback ≠ .onTopUpResponse owner nonce amount

end Chain

/-! ## Conditions on a step -/

/-- Services that answer as the chain and the keystore do: the vault is the one on chain, and what was encrypted
    decrypts to what it was. -/
structure Services.Honest (D : Decrypt) (ch : Chain) (owner : AccountId) (nonce : Nat) (S : Services) : Prop where
  vault : ∀ vaultId, S.fetchPaymentKeyVault owner.name nonce = some vaultId → vaultId = ch.vaultOfKey owner nonce
  decrypts : ∀ seed encrypted vaultId bytes, S.decryptRaw seed encrypted vaultId = some bytes →
    D seed encrypted vaultId = some bytes
  inverts : ∀ seed plain vaultId encrypted, S.encrypt seed plain vaultId = some encrypted →
    D seed encrypted vaultId = some plain.toByteArray.data.toList

/-- The top-up of the key that an event delivers. -/
def Chain.deliversTopUp (ch : Chain) (owner : AccountId) (nonce : Nat) : Event → Option Nat
  | .yielded _ d _ =>
      match (ch.world.yields.lookup d).map Yield.callback with
      | some (.onTopUpResponse owner' nonce' amount) =>
          if owner' = owner ∧ nonce' = nonce then some amount else none
      | _ => none
  | _ => none

/-- The amount whose tokens a step keeps for the key. -/
def Move.kept (owner : AccountId) (nonce : Nat) (t : Move) : Nat :=
  match t.event with
  | .chain e =>
      match t.pre.chain.deliversTopUp owner nonce e with
      | some amount => if outcomeOf t.out = .kept then amount else 0
      | none        => 0
  | _ => 0

/-- Nothing but the callbacks of its top-ups changes the key, or its vault. -/
def Move.OnlyTopUps (owner : AccountId) (nonce : Nat) (t : Move) : Prop :=
  (∃ e amount, t.event = .chain e ∧ t.pre.chain.deliversTopUp owner nonce e = some amount) ∨
    t.post.chain.storedKey owner nonce = t.pre.chain.storedKey owner nonce ∧
      t.post.chain.vaultOfKey owner nonce = t.pre.chain.vaultOfKey owner nonce

/-- Only workers resume top-ups with success, and the services they ask are honest. -/
def Move.ByWorkers (D : Decrypt) (owner : AccountId) (nonce : Nat) (t : Move) : Prop :=
  match t.event with
  | .chain (.call _ (.resumeTopup _ (.success _))) => False
  | .take _ _ (some S)                             => S.Honest D t.pre.chain owner nonce
  | _                                              => True

/-- **In order**: a top-up resumed with success finds the ciphertext its event carried when its callback runs, and
    its amount fits. -/
def Move.InOrder (H : Host) (D : Decrypt) (owner : AccountId) (nonce : Nat) (t : Move) : Prop :=
  match t.event with
  | .chain (.yielded _ d .resumed) =>
      ∀ amount data, t.pre.chain.world.yields.lookup d
          = some ⟨.onTopUpResponse owner nonce amount, some (.topUpResult (.success data))⟩ →
        (∀ task ∈ t.pre.chain.tasks, task.dataId = hexEncode d.toList → task.amount ≠ "0" →
          t.pre.chain.storedKey owner nonce = some task.encryptedData) ∧
        ∀ balance, t.pre.chain.storedBalance owner nonce H D = some balance → balance + amount < 2 ^ 128
  | _ => True

/-! ## What a worker writes -/

/-- The new ciphertext has the balance of the old one with the amount added, as the worker adds. -/
def Adds (H : Host) (D : Decrypt) (owner : AccountId) (nonce : Nat) (vaultId : Option String) (old : String)
    (amount : Nat) (new : String) : Prop :=
  ∃ balance, keyBalance H D owner nonce vaultId old = some balance ∧
    keyBalance H D owner nonce vaultId new = some ((balance + amount) % 2 ^ 128)

theorem fromUTF8_toByteArray (s : String) : String.fromUTF8? ⟨s.toByteArray.data.toList.toArray⟩ = some s := by
  have h : (⟨s.toByteArray.data.toList.toArray⟩ : ByteArray) = s.toByteArray := by simp
  rw [h, String.fromUTF8?, dif_pos s.isValidUTF8]
  rfl

/-- The balance written into a key is read back. -/
theorem plainBalance_set {H : Host} (numbers : Json.KeepsNumbers H.jsonNumber) {text : String} {data : Json.Value}
    (hparse : Json.parse H.jsonNumber text = some data) (hfield : ∃ w, data.get "initial_balance" = some w) {n : Nat}
    (hn : n < 2 ^ 128) : plainBalance H (data.set "initial_balance" (.str (toString n))).compact = some n := by
  have hmember : (Json.Value.str (toString n)).Good H.jsonNumber (Json.recursionLimit - 1) := trivial
  obtain ⟨hread, hsorted⟩ := Json.good_of_parse numbers hparse
  have hgood := hread.set hmember "initial_balance"
  have hdistinct := (hsorted.set "initial_balance" (.str (toString n))).distinct
  simp only [plainBalance, Json.parse_compact hgood, Option.bind_eq_bind, Option.bind_some,
    Json.get_reread hdistinct, Json.get_set_self _ _ _ hfield, Option.map_some]
  exact parseUnsigned_toString hn

/-- **What a worker writes**, with honest services. -/
theorem processTopupTask_adds {H : Host} {D : Decrypt} {ch : Chain} {S : Services} {task : TopUpTaskData}
    {owner : AccountId} {nonce amount : Nat} {data : String} {result : ProcessedTopUp}
    (numbers : Json.KeepsNumbers H.jsonNumber) (honest : S.Honest D ch owner nonce) (howner : task.owner = owner.name)
    (hnonce : task.nonce = nonce) (hamount : task.amount = toString amount)
    (h : processTopupTask H S task = .ok (.ready data result)) :
    Adds H D owner nonce (ch.vaultOfKey owner nonce) task.encryptedData amount data := by
  simp only [processTopupTask, bind_eq_ok, expect_eq_ok] at h
  obtain ⟨vaultId, hvault, bytes, hbytes, text, htext, blob, hblob, _, -, field, hfield, balance, hbalance,
    n, hn, h⟩ := h
  rw [howner, hnonce] at hvault hbytes h
  obtain rfl := honest.vault vaultId hvault
  have hold : keyBalance H D owner nonce (ch.vaultOfKey owner nonce) task.encryptedData = some balance := by
    have hD : D (keySeed owner nonce) task.encryptedData (ch.vaultOfKey owner nonce) = some bytes :=
      honest.decrypts _ _ _ _ hbytes
    simp only [keyBalance, hD, Option.bind_eq_bind, Option.bind_some, htext, plainBalance, hblob, hfield, hbalance]
  refine ⟨balance, hold, ?_⟩
  rw [hamount] at hn
  obtain rfl := eq_of_parseUnsigned_toString hn
  split at h
  · simp only [bind_eq_ok, pure_eq_ok] at h
    obtain ⟨_, -, h⟩ := h
    cases h
  · simp only [bind_eq_ok, expect_eq_ok, pure_eq_ok] at h
    obtain ⟨encrypted, hencrypted, h⟩ := h
    cases h
    have hD := honest.inverts _ _ _ _ hencrypted
    have hwritten : ∃ w, blob.get "initial_balance" = some w := by
      obtain ⟨w, hw, -⟩ := Option.bind_eq_some_iff.mp hfield
      exact ⟨w, hw⟩
    have hpos : (balance + n) % 2 ^ 128 < 2 ^ 128 := Nat.mod_lt _ (Nat.two_pow_pos 128)
    show (D (keySeed owner nonce) data (ch.vaultOfKey owner nonce)).bind _ = _
    rw [show D (keySeed owner nonce) data (ch.vaultOfKey owner nonce) = _ from hD]
    simp only [Option.bind_some, fromUTF8_toByteArray, Option.bind_eq_bind]
    exact plainBalance_set numbers hblob hwritten hpos

/-! ## Where a step of the chain comes from -/

/-- The chain steps by itself, a worker resumes what it holds, or a worker reports a failure. -/
inductive ChainOrigin (t : Move) (e : Event) : Prop
  | chain (event : t.event = .chain e)
  | resume (job : Nat) (task : TopUpTaskData) (data : String) (result : ProcessedTopUp) (env : Env)
      (held : t.pre.jobs.lookup job = some ⟨task, .resuming data result⟩) (call : e = .call env (successCall task data))
  | error (env : Env) (text message : String) (call : e = .call env (.resumeTopup text (.error message)))

section Moves
variable {H : Host} {t : Move}

/-- A step of the chain alone. -/
theorem chain_alone {e : Event} (h : Fires (System.next H) t) (event : t.event = .chain e) :
    Fires (Chain.next H) ⟨t.pre.chain, e, t.out, t.post.chain⟩ := by
  unfold Fires at h
  rw [event] at h
  obtain ⟨⟨ch, es⟩, hnext, heq⟩ := Option.map_eq_some_iff.mp h
  obtain ⟨hpost, rfl⟩ := Prod.mk.inj heq
  rw [← hpost]
  exact hnext

/-- What a worker resumes without seeing the outcome is what it holds. -/
theorem unseen_resumes {job : Nat} {env : Env} (h : Fires (System.next H) t)
    (event : t.event = .resume job (.unseen env)) :
    ∃ task data result, t.pre.jobs.lookup job = some ⟨task, .resuming data result⟩ ∧
      (t.post.chain = t.pre.chain ∨ Fires (Chain.next H)
        ⟨t.pre.chain, .call (withoutDeposit env) (successCall task data), t.out, t.post.chain⟩) := by
  unfold Fires at h
  rw [event] at h
  simp only [System.next] at h
  split at h
  · next task data result held =>
      simp only [System.resume, Option.bind_eq_bind, Option.bind_eq_some_iff] at h
      obtain ⟨⟨chain, effects, refusal⟩, hsend, hpost⟩ := h
      obtain ⟨hpost, rfl⟩ := Prod.mk.inj (Option.some.inj hpost)
      have hchain : t.post.chain = chain := by
        rw [← hpost]
        rfl
      refine ⟨task, data, result, held, ?_⟩
      rw [hchain]
      rcases send_cases hsend with ⟨-, hfires⟩ | ⟨-, rfl⟩
      · exact Or.inr hfires
      · exact Or.inl rfl
  · cases h

/-- What a step of the system does to the chain, and on whose behalf. -/
theorem move_origin (h : Fires (System.next H) t) :
    t.post.chain = t.pre.chain ∨
      ∃ e, Fires (Chain.next H) ⟨t.pre.chain, e, t.out, t.post.chain⟩ ∧ ChainOrigin t e := by
  cases move_cases h with
  | chain e event fires _ _ => exact Or.inr ⟨e, fires, .chain event⟩
  | took _ _ _ _ _ _ chain _ _ => exact Or.inl chain
  | resumed job env task data result _ held fires _ _ =>
      exact Or.inr ⟨_, fires, .resume job task data result _ held rfl⟩
  | failed chain _ _ _ =>
      rcases chain with hsame | ⟨env, text, result, fires, ⟨message, rfl⟩ | ⟨job, env', event⟩⟩
      · exact Or.inl hsame
      · exact Or.inr ⟨_, fires, .error env text message rfl⟩
      · obtain ⟨task, data, result, held, hsame | hfires⟩ := unseen_resumes h event
        · exact Or.inl hsame
        · exact Or.inr ⟨_, hfires, .resume job task data result _ held rfl⟩
  | credited _ _ _ _ _ _ chain _ _ => exact Or.inl chain
  | stopped _ _ chain _ _ => exact Or.inl chain

end Moves

/-! ## Tasks and the yields they are for -/

/-- The task is of a top-up that waits, or is settled. -/
def Chain.IsTaskOf (ch : Chain) (task : TopUpTaskData) (d : CryptoHash) : Prop :=
  task.dataId = hexEncode d.toList ∧
    ∃ (owner : AccountId) (amount : Nat), task.owner = owner.name ∧ task.amount = toString amount ∧
      (d ∈ ch.settled ∨ ∃ payload, ch.world.yields.lookup d = some ⟨.onTopUpResponse owner task.nonce amount, payload⟩)

/-- Every task is the creation of a key, or names the yield it is for. -/
def TasksNamed (ch : Chain) : Prop := ∀ task ∈ ch.tasks, task.amount ≠ "0" → ∃ d, ch.IsTaskOf task d

section TasksNamed
variable {H : Host} {u : ChainStep} {d : CryptoHash}

theorem isTaskOf_stays (h : Fires (Chain.next H) u) {task : TopUpTaskData} (ht : u.pre.IsTaskOf task d) :
    u.post.IsTaskOf task d := by
  obtain ⟨hid, owner, amount, howner, hamount, hd⟩ := ht
  refine ⟨hid, owner, amount, howner, hamount, ?_⟩
  rcases hd with hd | ⟨payload, hy⟩
  · exact Or.inl (settled_stays h hd)
  · by_cases hdel : delivered u.event = some d
    · left
      rw [LookupMap.mem_iff_lookup, settled_lookup h, if_pos ⟨hdel, by simp [hy, isTopUp]⟩]
      exact ⟨_, rfl⟩
    · obtain ⟨⟨callback, payload'⟩, hy', hlater⟩ := topUp_stays h hdel hy
      obtain rfl := hlater.callback
      exact Or.inr ⟨payload', hy'⟩

theorem tasksNamed_step (h : Fires (Chain.next H) u) (inv : TasksNamed u.pre) : TasksNamed u.post := by
  intro task htask hpos
  rw [(chain_step h).2.2.1] at htask
  rcases List.mem_append.mp htask with hold | hnew
  · obtain ⟨d, hd⟩ := inv task hold hpos
    exact ⟨d, isTaskOf_stays h hd⟩
  · obtain ⟨e, he, heq⟩ := List.mem_filterMap.mp hnew
    unfold topUpTaskOf at heq
    split at heq
    · next standard version dataId owner nonce amount data =>
        obtain rfl := Option.some.inj heq
        have hne : amount ≠ 0 := by
          rintro rfl
          exact hpos rfl
        have hwaits := step_announced (t := u.toStep) (chain_step h).1 he hne
        exact ⟨dataId, if_neg hpos, owner, amount, rfl, rfl, Or.inr ⟨none, hwaits⟩⟩
    · cases heq

/-- A yield in flight after a step, under an id that was in flight or settled before it, was in flight with the same
    callback. -/
theorem waited_before (h : Fires (Chain.next H) u) (inv : ChainInv u.pre) {y : Yield}
    (known : d ∈ u.pre.settled ∨ ∃ y₀, u.pre.world.yields.lookup d = some y₀)
    (hy : u.post.world.yields.lookup d = some y) :
    ∃ y₀, u.pre.world.yields.lookup d = some y₀ ∧ y₀.callback = y.callback := by
  have hw := (chain_step h).1
  rcases known with hd | ⟨y₀, h₀⟩
  · have hpost := (chainInv_step h inv).spent d (settled_stays h hd)
    rw [hpost] at hy
    cases hy
  · refine ⟨y₀, h₀, ?_⟩
    by_cases hdel : delivered u.event = some d
    · obtain ⟨env, delivery, event⟩ := delivered_eq hdel
      have hgone : u.post.world.yields.lookup d = none := delivered_gone (t := u.toStep) hw event
      rw [hgone] at hy
      cases hy
    · obtain ⟨y', hy', hlater⟩ := topUp_stays h hdel h₀
      obtain rfl : y' = y := Option.some.inj (hy'.symm.trans hy)
      exact hlater.callback.symm

end TasksNamed

/-! ## The balance along a run -/

/-- What holds while nothing but top-ups changes the key: what is in flight, and what a worker is about to resume with,
    has the balance its event carried with the amount added. -/
structure BalanceInv (H : Host) (D : Decrypt) (owner : AccountId) (nonce : Nat) (vaultId : Option String)
    (balance : Nat) (s : System) : Prop where
  system : SystemInv s
  tasks : TasksNamed s.chain
  vault : s.chain.vaultOfKey owner nonce = vaultId
  stored : s.chain.storedBalance owner nonce H D = some balance
  jobs : ∀ job task data result d amount payload, s.jobs.lookup job = some ⟨task, .resuming data result⟩ →
    task.dataId = hexEncode d.toList →
    s.chain.world.yields.lookup d = some ⟨.onTopUpResponse owner nonce amount, payload⟩ →
    Adds H D owner nonce vaultId task.encryptedData amount data
  promised : ∀ d amount data, s.chain.world.yields.lookup d
      = some ⟨.onTopUpResponse owner nonce amount, some (.topUpResult (.success data))⟩ →
    ∃ task ∈ s.chain.tasks, task.dataId = hexEncode d.toList ∧ task.amount ≠ "0" ∧
      Adds H D owner nonce vaultId task.encryptedData amount data

section Balance
variable {H : Host} {D : Decrypt} {owner : AccountId} {nonce balance : Nat} {vaultId : Option String} {t : Move}

theorem deliversTopUp_eq_some {ch : Chain} {e : Event} {amount : Nat}
    (h : ch.deliversTopUp owner nonce e = some amount) :
    ∃ env d delivery y, e = .yielded env d delivery ∧ ch.world.yields.lookup d = some y ∧
      y.callback = .onTopUpResponse owner nonce amount := by
  unfold Chain.deliversTopUp at h
  split at h
  · next env d delivery =>
      split at h
      · next hy =>
          obtain ⟨y, hy, hcb⟩ := Option.map_eq_some_iff.mp hy
          split at h
          · next hsame =>
              obtain ⟨rfl, rfl⟩ := hsame
              obtain rfl := Option.some.inj h
              exact ⟨env, d, delivery, y, rfl, hy, hcb⟩
          · cases h
      · cases h
  · cases h

theorem hexEncode_hash_inj {d d' : CryptoHash} (h : hexEncode d.toList = hexEncode d'.toList) : d = d' := by
  have hd := decodeDataId_hexEncode d
  rw [h, decodeDataId_hexEncode] at hd
  exact (Except.ok.inj hd).symm

/-- A task whose id is in flight names the key and the amount of what is in flight. -/
theorem IsTaskOf.waiting {ch : Chain} {task : TopUpTaskData} {d d' : CryptoHash} (inv : ChainInv ch)
    (named : ch.IsTaskOf task d') (hid : task.dataId = hexEncode d.toList) {amount : Nat}
    {payload : Option YieldPayload}
    (hy : ch.world.yields.lookup d = some ⟨.onTopUpResponse owner nonce amount, payload⟩) :
    task.owner = owner.name ∧ task.nonce = nonce ∧ task.amount = toString amount := by
  obtain ⟨hid', owner', amount', howner, hamount, hknown⟩ := named
  obtain rfl : d = d' := hexEncode_hash_inj (hid.symm.trans hid')
  rcases hknown with hsettled | ⟨payload', hy'⟩
  · rw [inv.spent d hsettled] at hy
    cases hy
  · cases hy.symm.trans hy'
    exact ⟨howner, rfl, hamount⟩

/-- A job that was to resume and still is: what it resumes with is as it was. -/
theorem jobs_keep (h : Fires (System.next H) t) (inv : BalanceInv H D owner nonce vaultId balance t.pre)
    {job : Nat} {task : TopUpTaskData} {data : String} {result : ProcessedTopUp} {d : CryptoHash} {amount : Nat}
    {payload : Option YieldPayload} (held : t.pre.jobs.lookup job = some ⟨task, .resuming data result⟩)
    (hid : task.dataId = hexEncode d.toList)
    (hy : t.post.chain.world.yields.lookup d = some ⟨.onTopUpResponse owner nonce amount, payload⟩) :
    Adds H D owner nonce vaultId task.encryptedData amount data := by
  rcases move_chain h with hsame | ⟨e, fires, -⟩
  · rw [hsame] at hy
    exact inv.jobs job task data result d amount payload held hid hy
  · -- the task is known, so what waits under its id waited before
    obtain ⟨htask, hpos⟩ := inv.system.jobs job task data result held
    obtain ⟨d', hid', owner', amount', howner, hamount, hknown⟩ := inv.tasks task htask hpos
    obtain rfl : d = d' := hexEncode_hash_inj (hid.symm.trans hid')
    obtain ⟨⟨callback, payload₀⟩, h₀, hcb⟩ := waited_before fires inv.system.chain
      (hknown.imp_right fun ⟨_, hy⟩ => ⟨_, hy⟩) hy
    obtain rfl : callback = .onTopUpResponse owner nonce amount := hcb
    exact inv.jobs job task data result d amount payload₀ held hid h₀

theorem start_ready {keystore : Option Services} {task : TopUpTaskData} {data : String} {result : ProcessedTopUp}
    (h : (Job.start H keystore task).stage = .resuming data result) :
    ∃ S, keystore = some S ∧ processTopupTask H S task = .ok (.ready data result) := by
  simp only [Job.start] at h
  split at h
  · cases h
  · next S =>
      split at h
      · cases h
      · next hrun =>
          cases h
          exact ⟨S, rfl, hrun⟩
      · cases h

theorem jobs_step (numbers : Json.KeepsNumbers H.jsonNumber) (h : Fires (System.next H) t)
    (workers : Move.ByWorkers D owner nonce t) (inv : BalanceInv H D owner nonce vaultId balance t.pre)
    {job : Nat} {task : TopUpTaskData} {data : String} {result : ProcessedTopUp} {d : CryptoHash} {amount : Nat}
    {payload : Option YieldPayload} (hj : t.post.jobs.lookup job = some ⟨task, .resuming data result⟩)
    (hid : task.dataId = hexEncode d.toList)
    (hy : t.post.chain.world.yields.lookup d = some ⟨.onTopUpResponse owner nonce amount, payload⟩) :
    Adds H D owner nonce vaultId task.encryptedData amount data := by
  cases move_cases h with
  | chain _ _ _ jobs _ => exact jobs_keep h inv (jobs ▸ hj) hid hy
  | took job' task' keystore event announced _ chain jobs _ =>
      rw [jobs, LookupMap.lookup_insert_iff] at hj
      split at hj
      · -- just taken: the worker has asked honest services
        have hstart := Option.some.inj hj
        obtain rfl : task' = task := congrArg Job.task hstart
        obtain ⟨S, rfl, hrun⟩ := start_ready (congrArg Job.stage hstart)
        have hpos : task'.amount ≠ "0" := start_resuming (congrArg Job.stage hstart)
        obtain ⟨d', hnamed⟩ := inv.tasks task' announced hpos
        rw [chain] at hy
        obtain ⟨howner, hnonce, hamount⟩ := IsTaskOf.waiting inv.system.chain hnamed hid hy
        unfold Move.ByWorkers at workers
        rw [event] at workers
        rw [← inv.vault]
        exact processTopupTask_adds numbers workers howner hnonce hamount hrun
      · exact jobs_keep h inv hj hid hy
  | resumed _ _ _ _ _ _ _ _ jobs _ =>
      rw [jobs, LookupMap.lookup_insert_iff] at hj
      split at hj
      · cases hj
      · exact jobs_keep h inv hj hid hy
  | failed _ _ others _ => exact jobs_keep h inv (others job task data result hj) hid hy
  | credited _ _ _ _ _ _ _ jobs _ =>
      rw [jobs] at hj
      obtain ⟨-, hj⟩ := LookupMap.lookup_of_erase hj
      exact jobs_keep h inv hj hid hy
  | stopped _ _ _ jobs _ =>
      rw [jobs] at hj
      obtain ⟨-, hj⟩ := LookupMap.lookup_of_erase hj
      exact jobs_keep h inv hj hid hy

/-- What a top-up in flight is to store was to be stored before, or is what a worker has just resumed it with. -/
theorem promised_step (h : Fires (System.next H) t) (workers : Move.ByWorkers D owner nonce t)
    (inv : BalanceInv H D owner nonce vaultId balance t.pre) {d : CryptoHash} {amount : Nat} {data : String}
    (hy : t.post.chain.world.yields.lookup d
      = some ⟨.onTopUpResponse owner nonce amount, some (.topUpResult (.success data))⟩) :
    ∃ task ∈ t.post.chain.tasks, task.dataId = hexEncode d.toList ∧ task.amount ≠ "0" ∧
      Adds H D owner nonce vaultId task.encryptedData amount data := by
  rcases move_origin h with hsame | ⟨e, fires, origin⟩
  · rw [hsame] at hy ⊢
    exact inv.promised d amount data hy
  · obtain ⟨hw, -, htasks, -⟩ := chain_step fires
    have hgrow : ∀ task ∈ t.pre.chain.tasks, task ∈ t.post.chain.tasks := by
      intro task htask
      have htasks' : t.post.chain.tasks = t.pre.chain.tasks ++ t.out.filterMap (topUpTaskOf H) := htasks
      rw [htasks']
      exact List.mem_append_left _ htask
    rcases step_topUp_resumed hw hy rfl with ⟨⟨callback, payload⟩, h₀, hp₀⟩ | ⟨env, text, event, hdecoded⟩
    · obtain rfl : payload = some (.topUpResult (.success data)) := hp₀
      obtain ⟨y', hy', hcb⟩ := waited_before fires inv.system.chain (Or.inr ⟨_, h₀⟩) hy
      obtain rfl : y' = ⟨callback, some (.topUpResult (.success data))⟩ := Option.some.inj (hy'.symm.trans h₀)
      obtain rfl : callback = .onTopUpResponse owner nonce amount := hcb
      obtain ⟨task, htask, hrest⟩ := inv.promised d amount data h₀
      exact ⟨task, hgrow task htask, hrest⟩
    · obtain rfl : e = .call env (.resumeTopup text (.success data)) := event
      cases origin with
      | chain event =>
          unfold Move.ByWorkers at workers
          rw [event] at workers
          exact workers.elim
      | resume job task data' result env' held call =>
          cases call
          obtain ⟨htask, hpos⟩ := inv.system.jobs job task data result held
          obtain ⟨d', hid, -⟩ := inv.tasks task htask hpos
          rw [hid, decodeDataId_hexEncode] at hdecoded
          obtain rfl := Except.ok.inj hdecoded
          exact ⟨task, hgrow task htask, hid, hpos, jobs_keep h inv held hid hy⟩
      | error _ _ _ call => cases call

/-- A step that leaves the key and its vault alone leaves the balance alone. -/
theorem stored_same (inv : BalanceInv H D owner nonce vaultId balance t.pre)
    (hkey : t.post.chain.storedKey owner nonce = t.pre.chain.storedKey owner nonce)
    (hvault : t.post.chain.vaultOfKey owner nonce = t.pre.chain.vaultOfKey owner nonce) :
    t.post.chain.vaultOfKey owner nonce = vaultId ∧ t.post.chain.storedBalance owner nonce H D = some balance := by
  refine ⟨hvault.trans inv.vault, ?_⟩
  rw [Chain.storedBalance, hkey, hvault]
  exact inv.stored

/-- **One step**: the stored balance grows by what the step keeps. -/
theorem stored_step (h : Fires (System.next H) t) (only : Move.OnlyTopUps owner nonce t)
    (inOrder : Move.InOrder H D owner nonce t) (inv : BalanceInv H D owner nonce vaultId balance t.pre) :
    t.post.chain.vaultOfKey owner nonce = vaultId ∧
      t.post.chain.storedBalance owner nonce H D = some (balance + t.kept owner nonce) := by
  by_cases hdelivers : ∃ e amount, t.event = .chain e ∧ t.pre.chain.deliversTopUp owner nonce e = some amount
  · obtain ⟨e, amount, event, hdelivers⟩ := hdelivers
    have hkept : t.kept owner nonce = if outcomeOf t.out = .kept then amount else 0 := by
      simp only [Move.kept, event, hdelivers]
    obtain ⟨env, d, delivery, ⟨callback, payload⟩, rfl, hy, hcb⟩ := deliversTopUp_eq_some hdelivers
    obtain rfl : callback = .onTopUpResponse owner nonce amount := hcb
    have fires := chain_alone h event
    have hpos : 0 < amount := inv.system.chain.positive d _ owner nonce amount hy rfl
    obtain ⟨encrypted, hencrypted, hbalance⟩ := Option.bind_eq_some_iff.mp inv.stored
    obtain ⟨row, held, rfl⟩ := Option.map_eq_some_iff.mp hencrypted
    rcases delivered_stores (chain_step fires).1 rfl hy rfl hpos held with
      ⟨data, time, rfl, hpayload, hstore, hout⟩ | ⟨hstore, hout⟩
    · obtain rfl : payload = some (.topUpResult (.success data)) := hpayload
      change t.post.chain.world.contract.toSecretStore = _ at hstore
      have hout : Effect.storage (.valueReturn (u128Json 0)) ∈ t.out := hout
      unfold Move.InOrder at inOrder
      rw [event] at inOrder
      obtain ⟨hsame, hfits⟩ := inOrder amount data hy
      -- what is stored is the ciphertext of the event, so its balance is the one that was added to
      obtain ⟨task, htask, hid, hamount, balance', hold, hnew⟩ := inv.promised d amount data hy
      have hcarried : row.encryptedSecrets = task.encryptedData :=
        Option.some.inj (hencrypted.symm.trans (hsame task htask hid hamount))
      rw [inv.vault, hcarried] at hbalance
      obtain rfl : balance' = balance := Option.some.inj (hold.symm.trans hbalance)
      rw [Nat.mod_eq_of_lt (hfits balance' inv.stored)] at hnew
      have hvault : t.post.chain.vaultOfKey owner nonce = vaultId := by
        rw [← inv.vault, Chain.vaultOfKey, hstore]
        rfl
      have hstored : t.post.chain.storedKey owner nonce = some data := by
        rw [Chain.storedKey, hstore, AList.lookup_insert]
        rfl
      refine ⟨hvault, ?_⟩
      rw [hkept, outcomeOf, if_pos hout, if_pos rfl, Chain.storedBalance, hstored, hvault]
      exact hnew
    · change t.post.chain.world.contract.toSecretStore = t.pre.chain.world.contract.toSecretStore at hstore
      have hout : Effect.storage (.valueReturn (u128Json 0)) ∉ t.out := hout
      rw [hkept, outcomeOf, if_neg hout, if_neg (by decide), Nat.add_zero]
      refine stored_same inv ?_ ?_
      · rw [Chain.storedKey, hstore]
        rfl
      · rw [Chain.vaultOfKey, hstore]
        rfl
  · have hkept : t.kept owner nonce = 0 := by
      unfold Move.kept
      split
      · next e event =>
          split
          · next amount hamount => exact absurd ⟨e, amount, event, hamount⟩ hdelivers
          · rfl
      · rfl
    rcases only with hmine | ⟨hkey, hvault⟩
    · exact absurd hmine hdelivers
    · rw [hkept, Nat.add_zero]
      exact stored_same inv hkey hvault

/-- **The invariant along a step**, with the balance it leads to. -/
theorem balanceInv_step (numbers : Json.KeepsNumbers H.jsonNumber) (h : Fires (System.next H) t)
    (workers : Move.ByWorkers D owner nonce t) (only : Move.OnlyTopUps owner nonce t)
    (inOrder : Move.InOrder H D owner nonce t) (inv : BalanceInv H D owner nonce vaultId balance t.pre) :
    BalanceInv H D owner nonce vaultId (balance + t.kept owner nonce) t.post := by
  obtain ⟨hvault, hstored⟩ := stored_step h only inOrder inv
  refine ⟨systemInv_step h inv.system, ?_, hvault, hstored, ?_, ?_⟩
  · rcases move_chain h with hsame | ⟨e, fires, -⟩
    · exact hsame ▸ inv.tasks
    · exact tasksNamed_step fires inv.tasks
  · intro job task data result d amount payload hj hid hy
    exact jobs_step numbers h workers inv hj hid hy
  · intro d amount data hy
    exact promised_step h workers inv hy

end Balance

/-! ## Adding up -/

theorem tasksNamed_history {H : Host} {operatorOwner : AccountId} {operator : Option AccountId}
    {standard version : Option String} {tr : List Move} {s : System}
    (h : System.History H operatorOwner operator standard version tr s) : SystemInv s ∧ TasksNamed s.chain := by
  refine Run.invariant (I := fun s => SystemInv s ∧ TasksNamed s.chain)
    ⟨systemInv_deploy _, fun _ h => absurd h List.not_mem_nil⟩ ?_ h
  rintro t hf ⟨hsystem, htasks⟩
  refine ⟨systemInv_step hf hsystem, ?_⟩
  rcases move_chain hf with hsame | ⟨e, fires, -⟩
  · exact hsame ▸ htasks
  · exact tasksNamed_step fires htasks

/-- **Top-ups add up**, in every run from a reachable state in which none of the key is in flight: when each of them
    that is resumed with success finds the ciphertext of its event as its callback runs, the stored balance is the
    balance before and every amount whose tokens were kept. -/
theorem topUps_add_up {H : Host} {D : Decrypt} (numbers : Json.KeepsNumbers H.jsonNumber)
    {contractOwner : AccountId} {operator : Option AccountId} {standard version : Option String} {tr₀ : List Move}
    {s₀ : System} (reached : System.History H contractOwner operator standard version tr₀ s₀) {owner : AccountId}
    {nonce balance : Nat} (quiet : s₀.chain.Quiet owner nonce)
    (before : s₀.chain.storedBalance owner nonce H D = some balance) {tr : List Move} {s : System}
    (run : Run (System.next H) s₀ tr s) (workers : ∀ t ∈ tr, Move.ByWorkers D owner nonce t)
    (only : ∀ t ∈ tr, Move.OnlyTopUps owner nonce t) (inOrder : ∀ t ∈ tr, Move.InOrder H D owner nonce t) :
    s.chain.storedBalance owner nonce H D = some (balance + (tr.map (Move.kept owner nonce)).sum) := by
  suffices hinv : BalanceInv H D owner nonce (s₀.chain.vaultOfKey owner nonce)
      (balance + (tr.map (Move.kept owner nonce)).sum) s from hinv.stored
  induction run with
  | start =>
      obtain ⟨hsystem, htasks⟩ := tasksNamed_history reached
      -- nothing of the key is in flight
      refine ⟨hsystem, htasks, rfl, before, ?_, ?_⟩
      · intro job task data result d amount payload _ _ hy
        exact absurd rfl (quiet d _ amount hy)
      · intro d amount data hy
        exact absurd rfl (quiet d _ amount hy)
  | @step tr t _ hf ih =>
      have hlast : t ∈ tr ++ [t] := by simp
      have hpre := ih (fun u hu => workers u (List.mem_append_left _ hu))
        (fun u hu => only u (List.mem_append_left _ hu)) (fun u hu => inOrder u (List.mem_append_left _ hu))
      have hpost := balanceInv_step numbers hf (workers t hlast) (only t hlast) (inOrder t hlast) hpre
      rw [List.map_append, List.sum_append, List.map_singleton, List.sum_singleton, ← Nat.add_assoc]
      exact hpost

/-! ## Two top-ups, in turn and at once

`aliceAccount` has stored payment key 1 with a balance of nothing, and tops it up twice with 10000 units: the second
time when the first is settled, or before. -/

/-- The host of the top-up, whose reader keeps numbers as they are written. -/
def balanceHost : Host := { topUpHost with jsonNumber := Json.verbatim }

/-- The text of the key with 20000. -/
def twiceToppedUpKey : String := "\x7b\"initial_balance\":\"20000\",\"key\":\"Zmlyc3Qga2V5\"\x7d"

/-- The ciphertext after both top-ups. -/
def twiceResealedKey : String := "Acv3NQ9b1L+0p7mJ1mYc8QKbT2W5xJrF0uHh6dZs4eVg"

/-- The key before, between and after, with its ciphertexts. -/
def textsOfKey : List (String × String) :=
  [(plainKey, sealedKey), (toppedUpKey, resealedKey), (twiceToppedUpKey, twiceResealedKey)]

/-- A keystore that opens these three ciphertexts. -/
def decryptOfKey : Decrypt := fun seed encrypted vaultId =>
  if seed = "system:payment_key:alice.near:1" ∧ vaultId = none then
    (textsOfKey.find? fun t => t.2 = encrypted).map fun t => t.1.toByteArray.data.toList
  else none

/-- A keystore that knows this one key, and all its texts. -/
def honestKeystore : Services :=
  { keystoreOfKey with
    decryptRaw := decryptOfKey
    encrypt := fun seed plaintext vaultId =>
      if seed = "system:payment_key:alice.near:1" ∧ vaultId = none then
        (textsOfKey.find? fun t => t.1 = plaintext).map Prod.snd
      else none }

theorem decryptOfKey_inverts {seed plain encrypted : String} {vaultId : Option String}
    (h : honestKeystore.encrypt seed plain vaultId = some encrypted) :
    decryptOfKey seed encrypted vaultId = some plain.toByteArray.data.toList := by
  have hunique : ∀ t ∈ textsOfKey, (textsOfKey.find? fun u => u.2 = t.2) = some t := by decide +kernel
  obtain ⟨hseed, hfound⟩ := Option.ite_none_right_eq_some.mp h
  obtain ⟨t, ht, rfl⟩ := Option.map_eq_some_iff.mp hfound
  obtain rfl : t.1 = plain := by simpa using List.find?_some ht
  rw [decryptOfKey, if_pos hseed, hunique t (List.mem_of_find?_eq_some ht)]
  rfl

theorem honest_honestKeystore {ch : Chain} {owner : AccountId} {nonce : Nat}
    (unbound : ch.vaultOfKey owner nonce = none) : honestKeystore.Honest decryptOfKey ch owner nonce where
  vault _ h := by
    cases h
    exact unbound.symm
  decrypts _ _ _ _ h := h
  inverts _ _ _ _ h := decryptOfKey_inverts h

/-- The test of `Chain.Quiet` that nothing at all is in flight. -/
def Chain.isQuiet (ch : Chain) : Bool := decide (ch.world.yields.keys = [])

theorem Chain.quiet_of_isQuiet {ch : Chain} (h : ch.isQuiet = true) (owner : AccountId) (nonce : Nat) :
    ch.Quiet owner nonce := by
  intro d y amount hy
  have hmem : d ∈ ch.world.yields.keys := LookupMap.mem_iff_lookup.mpr ⟨y, hy⟩
  rw [of_decide_eq_true h] at hmem
  cases hmem

/-- The test of `Move.OnlyTopUps`. -/
def Move.isOnlyTopUps (owner : AccountId) (nonce : Nat) (t : Move) : Bool :=
  (match t.event with
    | .chain e => (t.pre.chain.deliversTopUp owner nonce e).isSome
    | _        => false)
  || decide (t.post.chain.storedKey owner nonce = t.pre.chain.storedKey owner nonce
      ∧ t.post.chain.vaultOfKey owner nonce = t.pre.chain.vaultOfKey owner nonce)

theorem Move.onlyTopUps_of_isOnlyTopUps {owner : AccountId} {nonce : Nat} {t : Move}
    (h : t.isOnlyTopUps owner nonce = true) : t.OnlyTopUps owner nonce := by
  rcases (Bool.or_eq_true _ _).mp h with h | h
  · split at h
    · next e event =>
        obtain ⟨amount, hamount⟩ := Option.isSome_iff_exists.mp h
        exact Or.inl ⟨e, amount, event, hamount⟩
    · cases h
  · exact Or.inr (of_decide_eq_true h)

/-- The action asks no keystore but this one. -/
def Action.AsksHonest (a : Action) : Prop := ∀ job task S, a = .take job task (some S) → S = honestKeystore

/-- The test of `Move.ByWorkers`, when all workers ask `honestKeystore` and the key is not bound. -/
def Move.isByWorkers (owner : AccountId) (nonce : Nat) (t : Move) : Bool :=
  match t.event with
  | .chain (.call _ (.resumeTopup _ (.success _))) => false
  | _                                              => (t.pre.chain.vaultOfKey owner nonce).isNone

theorem Move.byWorkers_of_isByWorkers {owner : AccountId} {nonce : Nat} {t : Move}
    (h : t.isByWorkers owner nonce = true)
    (asked : t.event.AsksHonest) : t.ByWorkers decryptOfKey owner nonce := by
  unfold Move.isByWorkers at h
  unfold Move.ByWorkers
  split
  · next event =>
      rw [event] at h
      cases h
  · next job task S event =>
      rw [event] at h
      rw [asked job task S event]
      exact honest_honestKeystore (Option.isNone_iff_eq_none.mp h)
  · trivial

/-- The test of `Move.InOrder`. -/
def Move.isInOrder (H : Host) (D : Decrypt) (owner : AccountId) (nonce : Nat) (t : Move) : Bool :=
  match t.event with
  | .chain (.yielded _ d .resumed) =>
      match t.pre.chain.world.yields.lookup d with
      | some ⟨.onTopUpResponse _ _ amount, _⟩ =>
          (t.pre.chain.tasks.all fun task => decide (task.dataId = hexEncode d.toList → task.amount ≠ "0" →
            t.pre.chain.storedKey owner nonce = some task.encryptedData))
          && (t.pre.chain.storedBalance owner nonce H D).all fun balance => decide (balance + amount < 2 ^ 128)
      | _ => true
  | _ => true

theorem Move.inOrder_of_isInOrder {H : Host} {D : Decrypt} {owner : AccountId} {nonce : Nat} {t : Move}
    (h : t.isInOrder H D owner nonce = true) : t.InOrder H D owner nonce := by
  unfold Move.isInOrder at h
  unfold Move.InOrder
  split
  · next env d event =>
      intro amount data hy
      rw [event] at h
      simp only [hy, Bool.and_eq_true, List.all_eq_true, decide_eq_true_eq] at h
      refine ⟨h.1, ?_⟩
      intro balance hbalance
      rw [hbalance] at h
      exact of_decide_eq_true h.2
  · trivial

/-- The key is stored. -/
def keyStored : List Action :=
  [.chain (callBy aliceAccount (.storeSecrets (.system .paymentKey) "1" sealedKey .allowAll none) (10 ^ 24)),
   .chain (callBy ownerAccount (.setPaymentTokenContract (some tokenAccount)))]

/-- The top-up with the id made of `id`, announced. -/
def announced (id : UInt8) : Action :=
  .chain (callBy tokenAccount (.ftOnTransfer aliceAccount 10000 (some (.topUpPaymentKey 1 none))) 0 0 id)

/-- Its task, with the ciphertext the event carried, is taken up by a worker, which resumes the yield. -/
def resumedBy (job : Nat) (id : UInt8) (encryptedData : String) : List Action :=
  [.take job { topUpTask with dataId := hexEncode (List.replicate 32 id), encryptedData } (some honestKeystore),
   .resume job (.seen (envOf ownerAccount 0 0 0))]

/-- Its callback runs. -/
def calledBack (id : UInt8) : Action :=
  .chain (.yielded (envOf ownerAccount 0 0 0) (Vector.replicate 32 id) .resumed)

theorem asks_announced (id : UInt8) : (announced id).AsksHonest := by
  intro job task S h
  cases h

theorem asks_calledBack (id : UInt8) : (calledBack id).AsksHonest := by
  intro job task S h
  cases h

theorem asks_resumedBy {job : Nat} {id : UInt8} {encryptedData : String} :
    ∀ a ∈ resumedBy job id encryptedData, a.AsksHonest := by
  intro a ha job task S h
  rcases List.mem_pair.mp ha with rfl | rfl
  · cases h
    rfl
  · cases h

/-- The second is announced when the first is settled. -/
def topUpsInTurn : List Action :=
  announced 1 :: resumedBy 0 1 sealedKey ++ calledBack 1 :: announced 2 :: resumedBy 1 2 resealedKey ++ [calledBack 2]

/-- Both are announced before either is settled. -/
def topUpsAtOnce : List Action :=
  announced 1 :: announced 2 :: resumedBy 0 1 sealedKey ++ resumedBy 1 2 sealedKey ++ [calledBack 1, calledBack 2]

/-- A run of top-ups, with what is asked of it besides. -/
theorem exists_topUps (as : List Action) (p : List Move × System → Bool)
    (asked : ∀ a ∈ as, a.AsksHonest)
    (h : (Runs.replay (System.next balanceHost) (System.deploy (Contract.new ownerAccount none none none))
        keyStored).any (fun x => x.2.chain.isQuiet
        && decide (x.2.chain.storedBalance aliceAccount 1 balanceHost decryptOfKey = some 0)
        && (Runs.replay (System.next balanceHost) x.2 as).any fun y =>
          y.1.all (Move.isOnlyTopUps aliceAccount 1) && y.1.all (Move.isByWorkers aliceAccount 1) && p y) = true) :
    ∃ tr₀ s₀ tr s, System.History balanceHost ownerAccount none none none tr₀ s₀ ∧ s₀.chain.Quiet aliceAccount 1 ∧
      s₀.chain.storedBalance aliceAccount 1 balanceHost decryptOfKey = some 0 ∧
      Run (System.next balanceHost) s₀ tr s ∧ (∀ t ∈ tr, Move.ByWorkers decryptOfKey aliceAccount 1 t) ∧
      (∀ t ∈ tr, Move.OnlyTopUps aliceAccount 1 t) ∧ p (tr, s) = true := by
  obtain ⟨tr₀, s₀, reached, hp⟩ := exists_run h
  simp only [Bool.and_eq_true, decide_eq_true_eq] at hp
  obtain ⟨⟨hquiet, hbefore⟩, hrun⟩ := hp
  obtain ⟨⟨tr, s⟩, hreplay, hp⟩ := (Option.any_eq_true _ _).mp hrun
  simp only [Bool.and_eq_true, List.all_eq_true] at hp
  obtain ⟨⟨honly, hworkers⟩, hp⟩ := hp
  refine ⟨tr₀, s₀, tr, s, reached, Chain.quiet_of_isQuiet hquiet _ _, hbefore, run_of_replay hreplay, ?_, ?_, hp⟩
  · intro t ht
    have hmem : t.event ∈ as := replay_events hreplay ▸ List.mem_map_of_mem ht
    exact Move.byWorkers_of_isByWorkers (hworkers t ht) (asked t.event hmem)
  · exact fun t ht => Move.onlyTopUps_of_isOnlyTopUps (honly t ht)

/-- Two top-ups, one after the other, are both added to the key. -/
theorem topUps_in_turn_added : ∃ tr₀ s₀ tr s, System.History balanceHost ownerAccount none none none tr₀ s₀ ∧
    Run (System.next balanceHost) s₀ tr s ∧ (tr.map (Move.kept aliceAccount 1)).sum = 20000 ∧
    s.chain.storedBalance aliceAccount 1 balanceHost decryptOfKey = some 20000 := by
  obtain ⟨tr₀, s₀, tr, s, reached, quiet, before, run, workers, only, hp⟩ := exists_topUps
    topUpsInTurn
    (fun x => x.1.all (Move.isInOrder balanceHost decryptOfKey aliceAccount 1)
      && decide ((x.1.map (Move.kept aliceAccount 1)).sum = 20000))
    (by
      simp only [topUpsInTurn, List.forall_mem_append, List.forall_mem_cons]
      exact ⟨⟨⟨asks_announced 1, asks_resumedBy⟩, asks_calledBack 1, asks_announced 2, asks_resumedBy⟩,
        asks_calledBack 2, List.forall_mem_nil _⟩)
    (by decide +kernel)
  simp only [Bool.and_eq_true, List.all_eq_true, decide_eq_true_eq] at hp
  obtain ⟨horder, hkept⟩ := hp
  have hsum := topUps_add_up Json.keepsNumbers_verbatim reached quiet before run workers only
    (fun t ht => Move.inOrder_of_isInOrder (horder t ht))
  rw [hkept] at hsum
  exact ⟨tr₀, s₀, tr, s, reached, run, hkept, hsum⟩

/-- **A top-up is lost.** Of two top-ups in flight at once the tokens of both are kept, and the key holds one of
    them. -/
theorem topUp_lost : ∃ tr₀ s₀ tr s, System.History balanceHost ownerAccount none none none tr₀ s₀ ∧
    s₀.chain.Quiet aliceAccount 1 ∧ s₀.chain.storedBalance aliceAccount 1 balanceHost decryptOfKey = some 0 ∧
    Run (System.next balanceHost) s₀ tr s ∧ (∀ t ∈ tr, Move.ByWorkers decryptOfKey aliceAccount 1 t) ∧
    (∀ t ∈ tr, Move.OnlyTopUps aliceAccount 1 t) ∧ s.chain.Quiet aliceAccount 1 ∧
    (tr.map (Move.kept aliceAccount 1)).sum = 20000 ∧
    s.chain.storedBalance aliceAccount 1 balanceHost decryptOfKey = some 10000 := by
  obtain ⟨tr₀, s₀, tr, s, reached, quiet, before, run, workers, only, hp⟩ := exists_topUps
    topUpsAtOnce
    (fun x => x.2.chain.isQuiet
      && decide ((x.1.map (Move.kept aliceAccount 1)).sum = 20000
        ∧ x.2.chain.storedBalance aliceAccount 1 balanceHost decryptOfKey = some 10000))
    (by
      simp only [topUpsAtOnce, List.forall_mem_append, List.forall_mem_cons]
      exact ⟨⟨⟨asks_announced 1, asks_announced 2, asks_resumedBy⟩, asks_resumedBy⟩, asks_calledBack 1,
        asks_calledBack 2, List.forall_mem_nil _⟩)
    (by decide +kernel)
  simp only [Bool.and_eq_true, decide_eq_true_eq] at hp
  obtain ⟨hsettled, hkept, hbalance⟩ := hp
  exact ⟨tr₀, s₀, tr, s, reached, quiet, before, run, workers, only, Chain.quiet_of_isQuiet hsettled _ _, hkept,
    hbalance⟩

end Worker

end Outlayer
