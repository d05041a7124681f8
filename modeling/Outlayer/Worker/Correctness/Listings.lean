import Mathlib.Data.List.Nodup
import Outlayer.Lib.JsonReread
import Outlayer.Worker.StorageClient

/-!
# `Worker.Correctness.Listings` — what a listing holds

A listing asks for the records once and for each name that is sealed. What is told of each record is what the keystore
answered for it; a record that it did not open is left out, and the listing goes on.
-/

namespace Outlayer.Worker.Storage
open Text Json Exchange Runs

/-! ## The records -/

/-- A record of the project and the account. -/
structure StoredRecord where
  name : String
  mode : Mode
  encryptedKey : Bytes
  encryptedValue : Bytes
  /-- the name of a raw record is kept as it is -/
  raw_key : mode = .raw → encryptedKey = utf8 name

/-- What is listed of it. -/
def StoredRecord.info (env : Env) (record : StoredRecord) : KeyInfo :=
  ⟨hashKey env record.name, record.encryptedKey, record.encryptedValue, decide (record.mode = .encrypted)⟩

/-- What the keystore is asked to open it. -/
def openRequest (env : Env) (encryptedKey encryptedValue : Bytes) : DecryptRequest :=
  ⟨env.config.projectUuid, env.config.wasmHash, env.config.accountId, base64Encode encryptedKey,
    base64Encode encryptedValue⟩

/-- Records, one under each hash. -/
structure Records (env : Env) where
  list : List StoredRecord
  hashes_nodup : (list.map fun record => hashKey env record.name).Nodup

/-- The question was asked and answered so. -/
def Exchanged (t : List StorageEvent) (q : Ask) (a : Answer q) : Prop := (⟨q, a⟩ : StorageEvent) ∈ t

/-- An answer arrives. -/
def Arrives {α : Type} (a : Reply α) (x : α) : Prop := ∃ r, a = some r ∧ r.isSuccess = true ∧ r.parsed = some x

/-- The keystore opens a record. -/
def Opens (env : Env) (a : Reply DecryptResponse) : Prop :=
  ∃ resp, Arrives a resp ∧ (env.base64Decode resp.valueBase64).isSome = true

/-- What arrives is right: the coordinator lists every record once, in any order, and the keystore opens what it
    sealed. -/
structure Truthful (env : Env) (records : Records env) (t : List StorageEvent) : Prop where
  listed : ∀ account project a keys, Exchanged t (.list account project) a → Arrives a keys →
    keys.Perm (records.list.map (StoredRecord.info env))
  opened : ∀ record ∈ records.list, record.mode = .encrypted → ∀ a resp,
    Exchanged t (.decrypt (openRequest env record.encryptedKey record.encryptedValue)) a → Arrives a resp →
      resp.key = record.name

/-- The listing did not arrive, or the time was over before some record. -/
def ListingFails (t : List StorageEvent) : Prop :=
  (∃ account project a, Exchanged t (.list account project) a ∧ ∀ keys, ¬ Arrives a keys) ∨
    Exchanged t .listTimedOut true

/-- An error, or the names that begin with `pre`, each once. -/
def CompleteOrError (env : Env) (records : Records env) (pre : String) (r : Except String String) : Prop :=
  match r with
  | .error _ => True
  | .ok text => ∃ names : List String, parse verbatim text = some (.arr (names.map .str)) ∧ names.Nodup ∧
      ∀ n, n ∈ names ↔ ∃ record ∈ records.list, record.name = n ∧ startsWith n pre = true

section Listing
variable {env : Env} {pre : String} {t : List StorageEvent}

/-- Records of one name are the same. -/
theorem Records.eq_of_name {records : Records env} {a b : StoredRecord} (ha : a ∈ records.list)
    (hb : b ∈ records.list) (h : a.name = b.name) : a = b :=
  List.inj_on_of_nodup_map records.hashes_nodup ha hb (congrArg (hashKey env) h)

theorem Records.infos_nodup (records : Records env) : (records.list.map (StoredRecord.info env)).Nodup := by
  have hhashes := records.hashes_nodup
  have hcompose : (records.list.map fun record => hashKey env record.name) =
      (records.list.map (StoredRecord.info env)).map KeyInfo.keyHash := by
    rw [List.map_map]
    rfl
  rw [hcompose] at hhashes
  exact List.Nodup.of_map _ hhashes

/-! ## One request -/

theorem receive_eq_ok {α : Type} {unsent : String} {refused : Response α → String} {garbled : String} {a : Reply α}
    {x : α} : receive unsent refused garbled a = .ok x ↔ Arrives a x := by
  unfold receive Arrives
  cases a with
  | none => simp
  | some r =>
      cases hsuccess : r.isSuccess with
      | false => simp [hsuccess]
      | true =>
          cases hparsed : r.parsed with
          | none => simp [hsuccess, hparsed]
          | some y => simp [hsuccess, hparsed]

theorem Arrives.inj {α : Type} {a : Reply α} {x y : α} (hx : Arrives a x) (hy : Arrives a y) : x = y := by
  obtain ⟨r, rfl, -, hr⟩ := hx
  obtain ⟨r', hr', -, hy⟩ := hy
  obtain rfl := Option.some.inj hr'
  exact Option.some.inj (hr.symm.trans hy)

theorem runs_asking {α : Type} {q : Ask} {f : Answer q → Client α} {r : Except String α} :
    Runs (asking q >>= f) t r ↔ ∃ a t', t = (⟨q, a⟩ : StorageEvent) :: t' ∧ Runs (f a) t' r := runs_ask

theorem runs_lift_bind {α β : Type} {y : Except String α} {f : α → Client β} {r : Except String β} :
    Runs ((lift y : Client α) >>= f) t r ↔
      (∃ e, y = .error e ∧ t = [] ∧ r = .error e) ∨ ∃ a, y = .ok a ∧ Runs (f a) t r := by
  cases y with
  | ok a => simp
  | error e => simp

/-- What one answer of the keystore comes to: the record, or an error. -/
theorem runs_decrypt {k v : Bytes} {r : Except String DecryptedData} (h : Runs (decryptViaKeystore env k v) t r) :
    ∃ a, t = [(⟨.decrypt (openRequest env k v), a⟩ : StorageEvent)] ∧
      ((∃ resp, Arrives a resp ∧ Opens env a ∧ ∃ d, r = .ok d ∧ d.key = resp.key) ∨
        (¬ Opens env a ∧ ∃ e, r = .error e)) := by
  obtain ⟨a, t', rfl, hanswered⟩ := runs_asking.mp h
  refine ⟨a, ?_⟩
  rcases runs_lift_bind.mp hanswered with ⟨e, herror, rfl, rfl⟩ | ⟨resp, hresp, hdecode⟩
  · refine ⟨rfl, Or.inr ⟨?_, e, rfl⟩⟩
    rintro ⟨resp, harrives, -⟩
    rw [receive_eq_ok.mpr harrives] at herror
    cases herror
  have harrives := receive_eq_ok.mp hresp
  have hbase64 : ∀ text, (∃ value, base64Decode env text = .ok value) ↔ (env.base64Decode text).isSome = true := by
    intro text
    unfold base64Decode
    cases env.base64Decode text with
    | none => simp
    | some bytes => simp
  rcases runs_lift_bind.mp hdecode with ⟨e, herror, rfl, rfl⟩ | ⟨value, hvalue, hdone⟩
  · refine ⟨rfl, Or.inr ⟨?_, e, rfl⟩⟩
    rintro ⟨resp', harrives', hsome⟩
    obtain ⟨value, hvalue⟩ := (hbase64 _).mpr hsome
    rw [← harrives.inj harrives', herror] at hvalue
    cases hvalue
  · obtain ⟨rfl, rfl⟩ := runs_done.mp hdone
    exact ⟨rfl, Or.inl ⟨resp, harrives, ⟨resp, harrives, (hbase64 _).mp ⟨value, hvalue⟩⟩, _, rfl, rfl⟩⟩

/-! ## One record -/

/-- What a record's part of the listing told: the name, or nothing. -/
structure Told (env : Env) (t : List StorageEvent) (info : KeyInfo) (told : Option String) : Prop where
  raw : info.isEncrypted = false → told = fromUtf8 info.encryptedKey
  sealed : info.isEncrypted = true → ∃ a,
    Exchanged t (.decrypt (openRequest env info.encryptedKey info.encryptedValue)) a ∧
      ((∃ resp, Arrives a resp ∧ Opens env a ∧ told = some resp.key) ∨ (¬ Opens env a ∧ told = none))

theorem Told.mono {t' : List StorageEvent} {info : KeyInfo} {told : Option String} (h : Told env t info told)
    (ht : t ⊆ t') : Told env t' info told := by
  refine ⟨h.raw, fun hsealed => ?_⟩
  obtain ⟨a, ha, htold⟩ := h.sealed hsealed
  exact ⟨a, ht ha, htold⟩

theorem runs_listedName {info : KeyInfo} {r : Except String (Option String)} (h : Runs (listedName env info) t r) :
    ∃ told, r = .ok told ∧ Told env t info told ∧ ∀ e ∈ t, info.isEncrypted = true ∧
      ∃ a : Reply DecryptResponse, e = ⟨.decrypt (openRequest env info.encryptedKey info.encryptedValue), a⟩ ∧
        (¬ Opens env a → told = none) := by
  unfold listedName at h
  split at h
  · next hsealed =>
      have hnotraw : info.isEncrypted ≠ false := fun hraw => by
        rw [hraw] at hsealed
        cases hsealed
      rcases runs_bind.mp h with ⟨e, hattempt, -⟩ | ⟨opened, t₁, t₂, rfl, hattempt, htold⟩
      · obtain ⟨r', -, hbad⟩ := runs_attempt.mp hattempt
        cases hbad
      obtain ⟨r', hdecrypt, hr'⟩ := runs_attempt.mp hattempt
      obtain rfl := Except.ok.inj hr'
      obtain ⟨a, rfl, houtcome⟩ := runs_decrypt hdecrypt
      rcases houtcome with ⟨resp, harrives, hopens, d, rfl, hd⟩ | ⟨hshut, e, rfl⟩
      · obtain ⟨rfl, rfl⟩ := runs_done.mp htold
        refine ⟨_, rfl, ⟨fun hraw => absurd hraw hnotraw, fun _ => ?_⟩, ?_⟩
        · exact ⟨a, List.mem_cons_self, Or.inl ⟨resp, harrives, hopens, by rw [hd]⟩⟩
        · intro e he
          exact ⟨hsealed, a, List.mem_singleton.mp he, fun hshut => absurd hopens hshut⟩
      · obtain ⟨rfl, rfl⟩ := runs_done.mp htold
        refine ⟨_, rfl, ⟨fun hraw => absurd hraw hnotraw, fun _ => ?_⟩, ?_⟩
        · exact ⟨a, List.mem_cons_self, Or.inr ⟨hshut, rfl⟩⟩
        · intro e he
          exact ⟨hsealed, a, List.mem_singleton.mp he, fun _ => rfl⟩
  · next hraw =>
      obtain ⟨rfl, rfl⟩ := runs_done.mp h
      exact ⟨_, rfl, ⟨fun _ => rfl, fun hsealed => absurd hsealed hraw⟩, fun e he => by cases he⟩

/-! ## All records -/

/-- **A run of the loop.** Either the time was over, or each record told its part, and nothing else was asked. -/
theorem runs_listLoop {total : Nat} : ∀ {keys : List KeyInfo} {acc : List String} {t : List StorageEvent}
    {r : Except String (List String)}, Runs (listLoop env pre total keys acc) t r →
    (Exchanged t .listTimedOut true ∧ ∃ e, r = .error e) ∨
      ∃ told : List (KeyInfo × Option String), told.map Prod.fst = keys ∧ (∀ p ∈ told, Told env t p.1 p.2) ∧
        r = .ok (acc ++ (told.filterMap Prod.snd).filter fun key => startsWith key pre) ∧
        ∀ e ∈ t, e = ⟨.listTimedOut, false⟩ ∨ ∃ p ∈ told, p.1.isEncrypted = true ∧ ∃ a : Reply DecryptResponse,
          e = ⟨.decrypt (openRequest env p.1.encryptedKey p.1.encryptedValue), a⟩ ∧ (¬ Opens env a → p.2 = none) := by
  intro keys
  induction keys with
  | nil =>
      intro acc t r h
      obtain ⟨rfl, rfl⟩ := runs_done.mp h
      refine Or.inr ⟨[], rfl, nofun, ?_, nofun⟩
      rw [List.filterMap_nil, List.filter_nil, List.append_nil]
  | cons info keys ih =>
      intro acc t r h
      obtain ⟨late, t', rfl, hchecked⟩ := runs_asking.mp h
      split at hchecked
      · next hlate =>
          obtain ⟨rfl, rfl⟩ := runs_fail.mp hchecked
          exact Or.inl ⟨by rw [← hlate]; exact List.mem_cons_self, _, rfl⟩
      · next hintime =>
          rcases runs_bind.mp hchecked with ⟨e, hname, -⟩ | ⟨told, t₁, t₂, rfl, hname, hrest⟩
          · obtain ⟨told, hbad, -⟩ := runs_listedName hname
            cases hbad
          obtain ⟨told', htold', hinfo, honly⟩ := runs_listedName hname
          obtain rfl := Except.ok.inj htold'
          -- the loop goes on with the name, if it was told and has the prefix
          obtain ⟨acc', hacc', hloop⟩ : ∃ acc', acc' = acc ++ (told.toList.filter fun key => startsWith key pre) ∧
              Runs (listLoop env pre total keys acc') t₂ r := by
            cases told with
            | none => exact ⟨acc, (List.append_nil acc).symm, hrest⟩
            | some key =>
                refine ⟨_, ?_, hrest⟩
                have hempty : pre = "" → startsWith key pre = true := by
                  rintro rfl
                  exact decide_eq_true List.nil_prefix
                cases hstarts : startsWith key pre with
                | true => simp [hstarts]
                | false =>
                    have hne : pre ≠ "" := fun hpre => by
                      rw [hempty hpre] at hstarts
                      cases hstarts
                    simp [hstarts, hne]
          rcases ih hloop with ⟨htimeout, hfail⟩ | ⟨tolds, hfst, htolds, hr, hfrom⟩
          · exact Or.inl ⟨List.mem_cons_of_mem _ (List.mem_append_right _ htimeout), hfail⟩
          · refine Or.inr ⟨(info, told) :: tolds, by rw [List.map_cons, hfst], ?_, ?_, ?_⟩
            · intro p hp
              rcases List.mem_cons.mp hp with rfl | hp
              · exact hinfo.mono fun e he => List.mem_cons_of_mem _ (List.mem_append_left _ he)
              · exact (htolds p hp).mono fun e he => List.mem_cons_of_mem _ (List.mem_append_right _ he)
            · rw [hr, hacc']
              cases told with
              | none => simp
              | some key => cases hstarts : startsWith key pre <;> simp [hstarts]
            · intro e he
              rcases List.mem_cons.mp he with rfl | he
              · have hfalse : late = false := Bool.eq_false_iff.mpr hintime
                exact Or.inl (by rw [hfalse])
              · rcases List.mem_append.mp he with he | he
                · exact Or.inr ⟨_, List.mem_cons_self, honly e he⟩
                · rcases hfrom e he with h | ⟨p, hp, hevent⟩
                  · exact Or.inl h
                  · exact Or.inr ⟨p, List.mem_cons_of_mem _ hp, hevent⟩

/-! ## The listing -/

/-- Strings are read back as they were written. -/
theorem parse_strings (names : List String) :
    parse verbatim (Value.arr (names.map .str)).compact = some (.arr (names.map .str)) := by
  have hgood : (Value.arr (names.map .str)).Good verbatim recursionLimit := by
    refine ⟨by decide, goodElements_iff.mpr fun v hv => ?_⟩
    obtain ⟨s, -, rfl⟩ := List.mem_map.mp hv
    trivial
  have hreread : rereadElements verbatim (names.map .str) = names.map .str := by
    induction names with
    | nil => rfl
    | cons s names ih =>
        have htail : (Value.arr (names.map .str)).Good verbatim recursionLimit := ⟨by decide, hgood.2.2⟩
        rw [List.map_cons, rereadElements, ih htail]
        rfl
  rw [parse_compact hgood, Value.reread, hreread]

/-- A record's name is told unless the keystore did not open it, and nothing else is. -/
theorem Told.of_record {records : Records env} (htruth : Truthful env records t) {record : StoredRecord}
    (hrecord : record ∈ records.list) {told : Option String} (h : Told env t (record.info env) told) :
    told = some record.name ∨ (record.mode = .encrypted ∧ told = none ∧ ∃ a : Reply DecryptResponse,
      Exchanged t (.decrypt (openRequest env record.encryptedKey record.encryptedValue)) a ∧ ¬ Opens env a) := by
  cases hmode : record.mode with
  | raw =>
      have hraw : (record.info env).isEncrypted = false := by rw [StoredRecord.info, hmode]; rfl
      have htold : told = fromUtf8 record.encryptedKey := h.raw hraw
      rw [record.raw_key hmode, fromUtf8_utf8] at htold
      exact Or.inl htold
  | encrypted =>
      have hsealed : (record.info env).isEncrypted = true := by rw [StoredRecord.info, hmode]; rfl
      obtain ⟨a, ha, ⟨resp, harrives, -, htold⟩ | ⟨hshut, htold⟩⟩ := h.sealed hsealed
      · rw [htold, htruth.opened record hrecord hmode a resp ha harrives]
        exact Or.inl rfl
      · exact Or.inr ⟨rfl, htold, a, ha, hshut⟩

/-- The parts that the records told. -/
structure Parts (env : Env) (records : Records env) (t : List StorageEvent)
    (told : List (KeyInfo × Option String)) : Prop where
  nodup : (told.map Prod.fst).Nodup
  tells : ∀ p ∈ told, Told env t p.1 p.2
  whose : ∀ p ∈ told, ∃ record ∈ records.list, p.1 = record.info env
  part : ∀ record ∈ records.list, ∃ p ∈ told, p.1 = record.info env

section Parts
variable {records : Records env} {told : List (KeyInfo × Option String)} (parts : Parts env records t told)
  (htruth : Truthful env records t)
include parts htruth

/-- A name that was told is the name of the record whose part it is. -/
theorem Parts.name_of_told {p : KeyInfo × Option String} (hp : p ∈ told) {n : String} (hn : p.2 = some n) :
    ∃ record ∈ records.list, p.1 = record.info env ∧ n = record.name := by
  obtain ⟨record, hrecord, hinfo⟩ := parts.whose p hp
  have htold := parts.tells p hp
  rw [hinfo] at htold
  rcases htold.of_record htruth hrecord with h | ⟨-, hnone, -⟩
  · exact ⟨record, hrecord, hinfo, Option.some.inj (hn.symm.trans h)⟩
  · rw [hn] at hnone
    cases hnone

/-- No name is told twice. -/
theorem Parts.names_nodup : (told.filterMap Prod.snd).Nodup := by
  have hpairs : told.Pairwise fun p p' => p.1 ≠ p'.1 := List.pairwise_map.mp parts.nodup
  refine List.pairwise_filterMap.mpr (hpairs.imp_of_mem fun {p p'} hp hp' hne n hn n' hn' => ?_)
  obtain ⟨record, hrecord, hinfo, rfl⟩ := parts.name_of_told htruth hp hn
  obtain ⟨record', hrecord', hinfo', rfl⟩ := parts.name_of_told htruth hp' hn'
  intro hsame
  obtain rfl := Records.eq_of_name hrecord hrecord' hsame
  exact hne (hinfo.trans hinfo'.symm)

end Parts
end Listing

/-- **A listing is complete or an error** exactly where it fails, or the keystore opened every encrypted record whose
    name begins with the prefix. -/
theorem list_keys_complete_iff (env : Env) (records : Records env) (pre : String) {t : List StorageEvent}
    {r : Except String String} (hrun : Runs (listKeys env pre) t r) (htruth : Truthful env records t) :
    CompleteOrError env records pre r ↔
      ListingFails t ∨ ∀ record ∈ records.list, record.mode = .encrypted → startsWith record.name pre = true →
        ∀ a, Exchanged t (.decrypt (openRequest env record.encryptedKey record.encryptedValue)) a → Opens env a := by
  obtain ⟨a, t', rfl, hanswered⟩ := runs_asking.mp hrun
  rcases runs_lift_bind.mp hanswered with ⟨e, herror, rfl, rfl⟩ | ⟨keys, hkeys, hlisted⟩
  · refine iff_of_true trivial (Or.inl (Or.inl ⟨_, _, a, List.mem_cons_self, fun keys harrives => ?_⟩))
    rw [receive_eq_ok.mpr harrives] at herror
    cases herror
  have harrives := receive_eq_ok.mp hkeys
  have hperm := htruth.listed _ _ a keys List.mem_cons_self harrives
  rcases runs_bind.mp hlisted with ⟨e, hloop, rfl⟩ | ⟨names, t₁, t₂, rfl, hloop, hdone⟩
  · rcases runs_listLoop hloop with ⟨htimeout, -⟩ | ⟨told, -, -, hbad, -⟩
    · exact iff_of_true trivial (Or.inl (Or.inr (List.mem_cons_of_mem _ htimeout)))
    · cases hbad
  obtain ⟨rfl, rfl⟩ := runs_done.mp hdone
  rcases runs_listLoop hloop with ⟨-, e, hbad⟩ | ⟨told, hfst, htold, hnames, honly⟩
  · cases hbad
  rw [List.append_nil] at htruth ⊢
  rw [List.nil_append] at hnames
  obtain rfl := Except.ok.inj hnames
  generalize hall : ((⟨.list env.config.accountId env.config.projectUuid, a⟩ : StorageEvent) :: t₁) = t at *
  have hmono : t₁ ⊆ t := hall ▸ List.subset_cons_self _ _
  have parts : Parts env records t told := by
    refine ⟨?_, fun p hp => (htold p hp).mono hmono, fun p hp => ?_, fun record hrecord => ?_⟩
    · rw [hfst]
      exact hperm.nodup_iff.mpr records.infos_nodup
    · have hmem : p.1 ∈ keys := hfst ▸ List.mem_map_of_mem hp
      obtain ⟨record, hrecord, hinfo⟩ := List.mem_map.mp (hperm.mem_iff.mp hmem)
      exact ⟨record, hrecord, hinfo.symm⟩
    · have hmem : record.info env ∈ told.map Prod.fst := by
        rw [hfst]
        exact hperm.mem_iff.mpr (List.mem_map_of_mem hrecord)
      obtain ⟨p, hp, heq⟩ := List.mem_map.mp hmem
      exact ⟨p, hp, heq⟩
  have hfails : ¬ ListingFails t := by
    rw [← hall]
    rintro (⟨account, project, b, hb, hnever⟩ | htimeout)
    · rcases List.mem_cons.mp hb with heq | hb
      · cases heq
        exact hnever keys harrives
      · rcases honly _ hb with h | ⟨p, -, -, b', h, -⟩ <;> cases congrArg Sigma.fst h
    · rcases List.mem_cons.mp htimeout with heq | htimeout
      · cases congrArg Sigma.fst heq
      · rcases honly _ htimeout with h | ⟨p, -, -, b', h, -⟩
        · cases h
        · cases congrArg Sigma.fst h
  have hnames : ∀ n, n ∈ (told.filterMap Prod.snd).filter (fun key => startsWith key pre) ↔
      (∃ p ∈ told, p.2 = some n) ∧ startsWith n pre = true := by
    intro n
    rw [List.mem_filter, List.mem_filterMap]
  constructor
  · rintro ⟨names, hread, -, hcomplete⟩
    rw [parse_strings] at hread
    have hlist := List.map_injective_iff.mpr (fun _ _ h => Value.str.inj h) (Value.arr.inj (Option.some.inj hread))
    rw [← hlist] at hcomplete
    refine Or.inr fun record hrecord hmode hstarts b hb => ?_
    by_contra hshut
    -- the name was told, by the record's own part
    obtain ⟨⟨p, hp, hname⟩, -⟩ := (hnames _).mp ((hcomplete _).mpr ⟨record, hrecord, rfl, hstarts⟩)
    obtain ⟨record', hrecord', hinfo, hsame⟩ := parts.name_of_told htruth hp hname
    obtain rfl := Records.eq_of_name hrecord hrecord' hsame
    have hown := parts.tells p hp
    rw [hinfo] at hown
    have hsealed : (record.info env).isEncrypted = true := by rw [StoredRecord.info, hmode]; rfl
    obtain ⟨c, hc, ⟨resp, hresp, -, -⟩ | ⟨-, hnone⟩⟩ := hown.sealed hsealed
    swap
    · rw [hname] at hnone
      cases hnone
    have hkey := htruth.opened record hrecord hmode c resp hc hresp
    -- and the part that was not opened is another's, of the same bytes
    rw [← hall] at hb
    rcases List.mem_cons.mp hb with heq | hb
    · cases congrArg Sigma.fst heq
    rcases honly _ hb with heq | ⟨p', hp', hsealed', c', heq, hnone⟩
    · cases congrArg Sigma.fst heq
    obtain ⟨hrequest, hanswer⟩ := Sigma.mk.inj heq
    obtain ⟨other, hother, hinfo'⟩ := parts.whose p' hp'
    have hrequest : openRequest env record.encryptedKey record.encryptedValue =
        openRequest env other.encryptedKey other.encryptedValue := by
      rw [hinfo'] at hrequest
      exact Ask.decrypt.inj hrequest
    have hmode' : other.mode = .encrypted := by
      rw [hinfo'] at hsealed'
      exact of_decide_eq_true hsealed'
    have hc' : Exchanged t (.decrypt (openRequest env record.encryptedKey record.encryptedValue)) c := hc
    rw [hrequest] at hc'
    have hkey' := htruth.opened other hother hmode' c resp hc' hresp
    obtain rfl := Records.eq_of_name hrecord hother (hkey.symm.trans hkey')
    have hpart : p = p' := List.inj_on_of_nodup_map parts.nodup hp hp' (hinfo.trans hinfo'.symm)
    have hb' : b = c' := eq_of_heq hanswer
    rw [← hpart, hname] at hnone
    cases hnone (hb' ▸ hshut)
  · rintro (hfail | hopened)
    · exact absurd hfail hfails
    · refine ⟨_, parse_strings _, (parts.names_nodup htruth).filter _, fun n => ?_⟩
      rw [hnames]
      constructor
      · rintro ⟨⟨p, hp, hname⟩, hstarts⟩
        obtain ⟨record, hrecord, -, rfl⟩ := parts.name_of_told htruth hp hname
        exact ⟨record, hrecord, rfl, hstarts⟩
      · rintro ⟨record, hrecord, rfl, hstarts⟩
        refine ⟨?_, hstarts⟩
        obtain ⟨p, hp, hinfo⟩ := parts.part record hrecord
        have hown := parts.tells p hp
        rw [hinfo] at hown
        rcases hown.of_record htruth hrecord with hname | ⟨hmode, -, b, hb, hshut⟩
        · exact ⟨p, hp, hname⟩
        · exact absurd (hopened record hrecord hmode hstarts b hb) hshut

/-! ## One sealed record -/

/-- A client whose keystore answers no value but the empty one. -/
def sampleEnv : Env := ⟨⟨"p1", "w1", "agent.near"⟩, id, fun _ => some [], toString, fun _ => none⟩

/-- One encrypted record. -/
def sampleRecord : StoredRecord := ⟨"k", .encrypted, [1], [2], nofun⟩

/-- A store of that record alone. -/
def sampleRecords : Records sampleEnv := ⟨[sampleRecord], List.nodup_singleton _⟩

/-- The record is listed in time, and the keystore answers `a`. -/
def sampleEvents (a : Reply DecryptResponse) : List StorageEvent :=
  [⟨.list "agent.near" "p1", some ⟨200, "", some [sampleRecord.info sampleEnv]⟩⟩, ⟨.listTimedOut, false⟩,
    ⟨.decrypt (openRequest sampleEnv [1] [2]), a⟩]

theorem sampleEvents_truthful {a : Reply DecryptResponse} (h : ∀ resp, Arrives a resp → resp.key = "k") :
    Truthful sampleEnv sampleRecords (sampleEvents a) := by
  constructor
  · intro account project b keys hb harrives
    rcases List.mem_cons.mp hb with heq | hb
    · cases heq
      obtain ⟨r, hr, -, hparsed⟩ := harrives
      obtain rfl := Option.some.inj hr
      rw [← Option.some.inj hparsed]
      exact List.Perm.refl _
    · rcases List.mem_cons.mp hb with heq | hb
      · cases congrArg Sigma.fst heq
      · cases congrArg Sigma.fst (List.mem_singleton.mp hb)
  · intro record hrecord _ b resp hb harrives
    obtain rfl := List.mem_singleton.mp hrecord
    rcases List.mem_cons.mp hb with heq | hb
    · cases congrArg Sigma.fst heq
    · rcases List.mem_cons.mp hb with heq | hb
      · cases congrArg Sigma.fst heq
      · obtain ⟨-, hsame⟩ := Sigma.mk.inj (List.mem_singleton.mp hb)
        have hba : b = a := eq_of_heq hsame
        exact h resp (hba ▸ harrives)

theorem sealed_record_listed : CompleteOrError sampleEnv sampleRecords "" (.ok "[\"k\"]") := by
  have hrun : Runs (listKeys sampleEnv "") (sampleEvents (some ⟨200, "", some ⟨"k", ""⟩⟩)) (.ok "[\"k\"]") :=
    .ask _ (.ask _ (.ask _ (.done _)))
  refine (list_keys_complete_iff sampleEnv sampleRecords "" hrun (sampleEvents_truthful fun resp harrives => ?_)).mpr
    (Or.inr fun record hrecord _ _ a ha => ?_)
  · obtain ⟨r, hr, -, hparsed⟩ := harrives
    obtain rfl := Option.some.inj hr
    rw [← Option.some.inj hparsed]
  · obtain rfl := List.mem_singleton.mp hrecord
    rcases List.mem_cons.mp ha with heq | ha
    · cases congrArg Sigma.fst heq
    · rcases List.mem_cons.mp ha with heq | ha
      · cases congrArg Sigma.fst heq
      · obtain ⟨-, hsame⟩ := Sigma.mk.inj (List.mem_singleton.mp ha)
        have hanswer : a = some ⟨200, "", some ⟨"k", ""⟩⟩ := eq_of_heq hsame
        exact hanswer ▸ ⟨⟨"k", ""⟩, ⟨_, rfl, rfl, rfl⟩, rfl⟩

/-- A record that the keystore did not open is missing from a list that is no error. -/
theorem unopened_record_missing : ∃ t r, Runs (listKeys sampleEnv "") t r ∧ Truthful sampleEnv sampleRecords t ∧
    ¬ CompleteOrError sampleEnv sampleRecords "" r := by
  refine ⟨sampleEvents (some ⟨500, "boom", none⟩), .ok "[]", .ask _ (.ask _ (.ask _ (.done _))),
    sampleEvents_truthful ?_, ?_⟩
  · rintro resp ⟨r, hr, -, hparsed⟩
    obtain rfl := Option.some.inj hr
    cases hparsed
  · rintro ⟨names, hread, -, hcomplete⟩
    have hnone : parse verbatim "[]" = some (.arr []) := parse_strings []
    rw [hnone] at hread
    have hempty : names = [] := List.map_eq_nil_iff.mp (Value.arr.inj (Option.some.inj hread)).symm
    have hk := (hcomplete "k").mpr ⟨sampleRecord, List.mem_singleton.mpr rfl, rfl, by decide⟩
    rw [hempty] at hk
    cases hk

end Outlayer.Worker.Storage
