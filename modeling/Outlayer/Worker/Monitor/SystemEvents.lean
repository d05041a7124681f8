import Outlayer.Worker.Monitor.Events

/-!
# `Worker.Monitor.SystemEvents` — the contract's system events, as the worker reads them

A system event is one object of one member, named by the event's kind. What the contract writes of a purchase or of a
wallet's policy is read back field by field; fields the worker has no use for are passed over.
-/

namespace Outlayer
open Text Json

namespace Monitor

section Reading
variable {H : Host} {f : EventFilter} {standard version : String}

/-- A system event's line is read as far as its data. -/
theorem processLog_systemEvent (hf : f.Matches standard version) {data : Value}
    (hdata : data.Good H.jsonNumber (recursionLimit - 2)) (blockHeight : Nat) :
    processLog H f (logEvent standard version "system_event" data) blockHeight
      = systemEvent blockHeight (data.reread H.jsonNumber) := by
  have hkeys : (Value.obj [("standard", .str standard), ("version", .str version), ("event", .str "system_event"),
      ("data", .arr [data])]).Distinct :=
    distinct_of_keys ["standard", "version", "event", "data"] rfl (by decide)
  have hgood : (Value.obj [("standard", .str standard), ("version", .str version), ("event", .str "system_event"),
      ("data", .arr [data])]).Good H.jsonNumber recursionLimit :=
    ⟨by decide, trivial, trivial, trivial, ⟨by decide, hdata, trivial⟩, trivial⟩
  have hversion := hf.version
  have hname : "system_event" ≠ "execution_requested" := by decide
  unfold processLog logEvent
  rw [eventJsonPayload_append (compact_printed _ hgood)]
  simp only [Option.bind_eq_bind, Option.bind_some, parse_compact hgood]
  rw [field_reread hkeys rfl, field_reread hkeys rfl, field_reread hkeys rfl, field_reread hkeys rfl]
  simp only [Value.reread, Value.asStr, Value.asArray, rereadElements, Option.bind_some, List.head?_cons, hversion,
    ← hf.standard, ne_eq, not_true_eq_false, if_false, if_true, Bool.true_eq_false, hname]

/-- The one member of a system event. -/
theorem get_systemEvent (number : String → Option String) (name key : String) (fields : List (String × Value)) :
    ((Value.obj [(name, .obj fields)]).reread number).get key
      = if key = name then some ((Value.obj fields).reread number) else none := by
  rw [get_reread (distinct_of_keys [name] rfl (List.nodup_singleton name))]
  show (List.lookup key [(name, Value.obj fields)]).map (Value.reread number) = _
  by_cases h : key = name
  · subst h
    simp
  · have hne : (key == name) = false := by simpa using h
    rw [List.lookup_cons, hne, if_neg h]
    rfl

/-- No kind is looked for twice. -/
theorem systemEventKinds_nodup (blockHeight : Nat) : ((systemEventKinds blockHeight).map Prod.fst).Nodup := by
  show ["TopUpPaymentKey", "DeletePaymentKey", "ProjectStorageCleanup", "ProjectTransferred", "SubscriptionPurchased",
    "WalletPolicyUpdated", "WalletPolicyDeleted", "WalletFrozenChanged"].Nodup
  decide

/-- The kind whose name a system event has decides. -/
theorem systemEvent_kind {blockHeight : Nat} {name : String} {read : Value → Option ContractEvent}
    {before after : List (String × (Value → Option ContractEvent))}
    (hkinds : systemEventKinds blockHeight = before ++ (name, read) :: after) (number : String → Option String)
    (fields : List (String × Value)) :
    systemEvent blockHeight ((Value.obj [(name, .obj fields)]).reread number)
      = read ((Value.obj fields).reread number) := by
  have hbefore : ∀ kind ∈ before, kind.1 ≠ name := by
    intro kind hkind hname
    have hnodup := systemEventKinds_nodup blockHeight
    rw [hkinds, List.map_append, List.map_cons] at hnodup
    refine (List.nodup_append.mp hnodup).2.2 kind.1 (List.mem_map_of_mem hkind) name List.mem_cons_self hname
  unfold systemEvent
  rw [hkinds, List.findSome?_append]
  have hnone : before.findSome? (fun kind =>
      (((Value.obj [(name, .obj fields)]).reread number).get kind.1).map kind.2) = none := by
    refine List.findSome?_eq_none_iff.mpr fun kind hkind => ?_
    rw [get_systemEvent, if_neg (hbefore kind hkind)]
    rfl
  rw [hnone, Option.none_or, List.findSome?_cons, get_systemEvent, if_pos rfl]
  rfl

variable (hf : f.Matches standard version)
include hf

/-- A system event whose fields are read. -/
theorem processLog_kind {blockHeight : Nat} {e : SystemEvent} {read : Value → Option ContractEvent}
    (hgood : e.toJson.Good H.jsonNumber (recursionLimit - 2))
    (before after : List (String × (Value → Option ContractEvent)))
    (hkinds : systemEventKinds blockHeight = before ++ (e.members.1, read) :: after) {event : ContractEvent}
    (hread : read ((Value.obj e.members.2).reread H.jsonNumber) = some event) :
    processLog H f (logEvent standard version "system_event" e.toJson) blockHeight = some event := by
  rw [processLog_systemEvent hf hgood, SystemEvent.toJson, systemEvent_kind hkinds]
  exact hread

/-- A purchase; the receipt is not in its line. -/
theorem processLog_subscriptionPurchased (whole : WholeNumbers H.jsonNumber) (owner : AccountId) {nonce plan : Nat}
    (hnonce : nonce < 2 ^ 32) (hplan : plan < 2 ^ 8) (paidUsd : Nat) (payer : AccountId) (blockHeight : Nat) :
    processLog H f (logEvent standard version "system_event"
        (SystemEvent.subscriptionPurchased owner nonce plan paidUsd payer).toJson) blockHeight
      = some (.subscriptionPurchased ⟨owner.name, nonce, plan, toString paidUsd, payer.name, none⟩) := by
  have hkeys : (Value.obj (SystemEvent.subscriptionPurchased owner nonce plan paidUsd payer).members.2).Distinct :=
    distinct_of_keys ["owner", "nonce", "plan", "paid_usd", "payer"] rfl (by decide)
  have hreceipt : ((Value.obj (SystemEvent.subscriptionPurchased owner nonce plan paidUsd payer).members.2).reread
      H.jsonNumber).get "receipt_id" = none := by
    rw [get_reread hkeys]
    rfl
  refine processLog_kind hf ?_ ((systemEventKinds blockHeight).take 4) ((systemEventKinds blockHeight).drop 5) rfl ?_
  · exact ⟨by decide, ⟨by decide, trivial, whole.good (by omega) _, whole.good (by omega) _, trivial, trivial, trivial⟩,
      trivial⟩
  · show (SubscriptionPurchasedEvent.ofJson _).map _ = _
    rw [SubscriptionPurchasedEvent.ofJson, field_reread hkeys rfl, field_reread hkeys rfl, field_reread hkeys rfl,
      field_reread hkeys rfl, field_reread hkeys rfl, Value.optional, hreceipt, whole.asUnsigned (by decide) hnonce,
      whole.asUnsigned (by decide) hplan]
    rfl

end Reading

end Monitor

end Outlayer
