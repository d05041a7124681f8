import Outlayer.Keystore.SecretUpdates

/-!
# `Keystore.Correctness.SecretUpdates` — what an update changes

An update goes over the map three times: a reset takes out what is not protected, the given secrets are written, and
the generated ones are made one by one against the map as it then is. Each pass has its lemma on what a name stands
for afterwards; together they say the whole update (`Exact`), and along a run of updates that a protected entry stands
(`Updates.keeps_protected`).
-/

namespace Outlayer
open Text Json

namespace Keystore

variable {m m' : Secrets} {key : String} {mode : UpdateMode} {given : List (String × Value)}

/-! ## The passes -/

theorem lookup_removeAll (keys : List String) (m : Secrets) :
    (removeAll keys m).lookup key = if key ∈ keys then none else m.lookup key := by
  induction keys generalizing m with
  | nil => exact (if_neg List.not_mem_nil).symm
  | cons k keys ih =>
      rw [show removeAll (k :: keys) m = removeAll keys (OrderedMap.erase k m) from rfl, ih, OrderedMap.lookup_erase]
      by_cases hk : key = k
      · rw [if_pos hk, ite_self, if_pos (List.mem_cons.mpr (Or.inl hk))]
      · rw [if_neg hk]
        simp only [List.mem_cons, hk, false_or]

theorem mem_keysToRemove {k : String} :
    k ∈ keysToRemove mode m ↔ mode = .reset ∧ k ∈ secretKeys m ∧ isProtected k = false := by
  cases mode with
  | append => simp [keysToRemove]
  | reset => simp [keysToRemove]

/-- What a reset keeps is what is protected; the other mode keeps everything. -/
theorem lookup_kept : (removeAll (keysToRemove mode m) m).lookup key =
    if mode = .append ∨ isProtected key = true then m.lookup key else none := by
  rw [lookup_removeAll]
  by_cases hmem : key ∈ keysToRemove mode m
  · obtain ⟨rfl, -, hplain⟩ := mem_keysToRemove.mp hmem
    rw [if_pos hmem, if_neg (by simp [hplain])]
  · rw [if_neg hmem]
    split
    · rfl
    · next hgone =>
        rw [not_or] at hgone
        have hreset : mode = .reset := by cases mode <;> simp_all
        have habsent : key ∉ secretKeys m := fun hin =>
          hmem (mem_keysToRemove.mpr ⟨hreset, hin, Bool.eq_false_iff.mpr hgone.2⟩)
        exact OrderedMap.lookup_eq_none_iff.mpr habsent

theorem secretKeys_erase (k : String) (m : Secrets) :
    secretKeys (OrderedMap.erase k m) = (secretKeys m).filter fun x => decide (x ≠ k) := by
  unfold secretKeys OrderedMap.erase
  rw [List.filter_map]
  rfl

/-- Taking out names that a test fails keeps the names that pass it, in their order. -/
theorem filter_removeAll {p : String → Bool} {keys : List String} (h : ∀ k ∈ keys, p k = false) (m : Secrets) :
    (secretKeys (removeAll keys m)).filter p = (secretKeys m).filter p := by
  induction keys generalizing m with
  | nil => rfl
  | cons k keys ih =>
      rw [show removeAll (k :: keys) m = removeAll keys (OrderedMap.erase k m) from rfl,
        ih (fun x hx => h x (List.mem_cons_of_mem k hx)), secretKeys_erase, List.filter_filter]
      refine List.filter_congr fun x _ => ?_
      by_cases hx : x = k
      · rw [hx, h k List.mem_cons_self, Bool.false_and]
      · simp only [ne_eq, hx, not_false_eq_true, decide_true, Bool.and_true]

theorem lookup_insertAll (hnodup : (secretKeys given).Nodup) (m : Secrets) :
    (insertAll given m).lookup key = (given.lookup key).or (m.lookup key) := by
  induction given generalizing m with
  | nil => rfl
  | cons e given ih =>
      obtain ⟨k, v⟩ := e
      obtain ⟨hk, hrest⟩ := List.nodup_cons.mp hnodup
      rw [show insertAll ((k, v) :: given) m = insertAll given (OrderedMap.put k v m) from rfl, ih hrest,
        OrderedMap.lookup_put, OrderedMap.lookup_cons]
      by_cases hkey : key = k
      · rw [if_pos hkey, if_pos hkey, hkey, OrderedMap.lookup_eq_none_iff.mpr hk]
        rfl
      · rw [if_neg hkey, if_neg hkey]

/-- A new name makes one more entry. -/
theorem length_put {k : String} (v : Value) (h : m.lookup k = none) : (OrderedMap.put k v m).length = m.length + 1 := by
  induction m with
  | nil => rfl
  | cons e m ih =>
      obtain ⟨a, b⟩ := e
      rw [OrderedMap.lookup_cons] at h
      split at h
      · cases h
      · next hne =>
          unfold OrderedMap.put
          rw [if_neg hne]
          split
          · rfl
          · rw [List.length_cons, ih h, List.length_cons]

/-- What generation makes: for each name, new and protected, one entry with what was drawn for it. -/
theorem generateAll_eq_ok {draws : Nat → Draw} {specs : List GeneratedSecretSpec} {k : Nat}
    (h : generateAll draws k specs m = .ok m') :
    ∃ values : List String,
      List.Forall₂ (fun spec value => ∃ i, generateSecret (draws i) (generationPrefix ++ spec.generationType) =
        .ok value) specs values ∧
      (specs.map GeneratedSecretSpec.name).Nodup ∧
      (∀ spec ∈ specs, isProtected spec.name = true ∧ m.lookup spec.name = none) ∧
      (∀ key, m'.lookup key =
        (((specs.map GeneratedSecretSpec.name).zip (values.map Value.str)).lookup key).or (m.lookup key)) ∧
      m'.length = m.length + specs.length := by
  induction specs generalizing k m with
  | nil =>
      obtain rfl := Except.ok.inj h
      exact ⟨[], .nil, List.nodup_nil, fun spec hmem => absurd hmem List.not_mem_nil, fun _ => rfl, rfl⟩
  | cons spec specs ih =>
      unfold generateAll at h
      split at h
      · cases h
      next hprotected =>
      split at h
      · cases h
      next habsent =>
      split at h
      · cases h
      next value hvalue =>
      have hnone : m.lookup spec.name = none := Option.not_isSome_iff_eq_none.mp habsent
      obtain ⟨values, hvalues, hnodup, hnew, hlookup, hlength⟩ := ih h
      have hother : ∀ spec' ∈ specs, spec'.name ≠ spec.name ∧ m.lookup spec'.name = none := by
        intro spec' hmem
        have hput := (hnew spec' hmem).2
        rw [OrderedMap.lookup_put] at hput
        split at hput
        · cases hput
        · next hne => exact ⟨hne, hput⟩
      refine ⟨value :: values, .cons ⟨k, hvalue⟩ hvalues, ?_, ?_, ?_, ?_⟩
      · refine List.nodup_cons.mpr ⟨fun hmem => ?_, hnodup⟩
        obtain ⟨spec', hmem', hname⟩ := List.mem_map.mp hmem
        exact (hother spec' hmem').1 hname
      · intro spec' hmem
        rcases List.mem_cons.mp hmem with rfl | hmem
        · exact ⟨Bool.not_eq_false _ ▸ hprotected, hnone⟩
        · exact ⟨(hnew spec' hmem).1, (hother spec' hmem).2⟩
      · intro key
        rw [hlookup, OrderedMap.lookup_put, List.map_cons, List.map_cons, List.zip_cons_cons, OrderedMap.lookup_cons]
        by_cases hkey : key = spec.name
        · have habs : ((specs.map GeneratedSecretSpec.name).zip (values.map Value.str)).lookup key = none := by
            refine OrderedMap.lookup_eq_none_iff.mpr fun hmem => ?_
            obtain ⟨e, he, rfl⟩ := List.mem_map.mp hmem
            obtain ⟨spec', hmem', hname⟩ := List.mem_map.mp (List.of_mem_zip he).1
            exact (hother spec' hmem').1 (hname.trans hkey)
          rw [if_pos hkey, if_pos hkey, habs]
          rfl
        · rw [if_neg hkey, if_neg hkey]
      · rw [hlength, length_put _ hnone, List.length_cons]
        omega

theorem sorted_removeAll {keys : List String} (h : OrderedMap.Sorted m) : OrderedMap.Sorted (removeAll keys m) := by
  induction keys generalizing m with
  | nil => exact h
  | cons k keys ih => exact ih h.erase

theorem sorted_insertAll (h : OrderedMap.Sorted m) : OrderedMap.Sorted (insertAll given m) := by
  induction given generalizing m with
  | nil => exact h
  | cons e given ih => exact ih h.put

theorem sorted_generateAll {draws : Nat → Draw} {specs : List GeneratedSecretSpec} {k : Nat}
    (hm : OrderedMap.Sorted m) (h : generateAll draws k specs m = .ok m') : OrderedMap.Sorted m' := by
  induction specs generalizing k m with
  | nil => exact Except.ok.inj h ▸ hm
  | cons spec specs ih =>
      unfold generateAll at h
      split at h
      · cases h
      split at h
      · cases h
      split at h
      · cases h
      · exact ih hm.put h

/-! ## One update -/

/-- An update changed the map as the request says, and its summary says what it changed. -/
structure Exact (req : UpdateUserSecretsRequest) (m m' : Secrets) (summary : UpdateSummary) : Prop where
  /-- each generated name stands for what was drawn for its type -/
  generated : ∃ values : List String,
    List.Forall₂ (fun spec value => ∃ d, generateSecret d (generationPrefix ++ spec.generationType) = .ok value)
      (req.generateProtected.getD []) values ∧
    ∀ e ∈ req.generatedNames.zip values, m'.lookup e.1 = some (.str e.2)
  generated_once : req.generatedNames.Nodup
  generated_new : ∀ k ∈ req.generatedNames, isProtected k = true ∧ m.lookup k = none
  given : ∀ k v, (k, v) ∈ req.secrets → m'.lookup k = some v
  /-- an entry the request does not name stays, unless it is plain and the update is a reset -/
  rest : ∀ k, k ∉ secretKeys req.secrets → k ∉ req.generatedNames →
    m'.lookup k = if req.mode = .append ∨ isProtected k = true then m.lookup k else none
  sorted : OrderedMap.Sorted m → OrderedMap.Sorted m'
  preserved : summary.protectedKeysPreserved = (secretKeys m).filter isProtected
  updated : summary.updatedKeys = secretKeys req.secrets ++ req.generatedNames
  updated_once : summary.updatedKeys.Nodup
  /-- what a reset took out, whether or not the request gives the name again -/
  removed : summary.removedKeys = if req.mode = .reset then (secretKeys m).filter fun k => isProtected k = false else []
  /-- so that the names that are gone are those removed and not written -/
  gone : ∀ k, k ∈ secretKeys m ∧ k ∉ secretKeys m' ↔ k ∈ summary.removedKeys ∧ k ∉ summary.updatedKeys
  total : summary.totalKeys = m'.length

theorem checkUserSecrets_ok (h : checkUserSecrets given = .ok ()) : ∀ k ∈ secretKeys given, isProtected k = false := by
  intro k hk
  have hnone := demand_ok h
  exact Bool.eq_false_iff.mpr fun hp => List.filter_eq_nil_iff.mp hnone k hk hp

theorem lookup_zip_of_mem {names : List String} {values : List Value} (hnodup : names.Nodup) {e : String × Value}
    (h : e ∈ names.zip values) : (names.zip values).lookup e.1 = some e.2 := by
  induction names generalizing values with
  | nil => cases h
  | cons n names ih =>
      cases values with
      | nil => cases h
      | cons v values =>
          obtain ⟨hn, hrest⟩ := List.nodup_cons.mp hnodup
          rw [List.zip_cons_cons, OrderedMap.lookup_cons]
          rcases List.mem_cons.mp h with rfl | hmem
          · exact if_pos rfl
          · have hne : e.1 ≠ n := fun heq => hn (heq ▸ (List.of_mem_zip hmem).1)
            rw [if_neg hne, ih hrest hmem]

theorem lookup_zip_eq_none {names : List String} {values : List Value} (h : key ∉ names) :
    (names.zip values).lookup key = none := by
  refine OrderedMap.lookup_eq_none_iff.mpr fun hmem => ?_
  obtain ⟨e, he, rfl⟩ := List.mem_map.mp hmem
  exact h (List.of_mem_zip he).1

theorem lookup_given {k : String} {v : Value} (hnodup : (secretKeys given).Nodup) (h : (k, v) ∈ given) :
    given.lookup k = some v := by
  induction given with
  | nil => cases h
  | cons e given ih =>
      obtain ⟨a, b⟩ := e
      obtain ⟨ha, hrest⟩ := List.nodup_cons.mp hnodup
      rw [OrderedMap.lookup_cons]
      rcases List.mem_cons.mp h with heq | hmem
      · obtain ⟨rfl, rfl⟩ := Prod.mk.inj heq
        exact if_pos rfl
      · have hin : k ∈ secretKeys given := List.mem_map.mpr ⟨_, hmem, rfl⟩
        have hne : k ≠ a := fun heq => ha (heq ▸ hin)
        rw [if_neg hne, ih hrest hmem]

theorem mem_secretKeys_iff : key ∈ secretKeys m ↔ (m.lookup key).isSome := by
  rw [Option.isSome_iff_exists]
  exact OrderedMap.mem_keys_iff

/-- A name is gone exactly if a reset took it out and nothing wrote it. -/
theorem gone_iff {req : UpdateUserSecretsRequest} (hgiven : ∀ k v, (k, v) ∈ req.secrets → m'.lookup k = some v)
    (hnew : ∀ k ∈ req.generatedNames, m.lookup k = none)
    (hrest : ∀ k, k ∉ secretKeys req.secrets → k ∉ req.generatedNames →
      m'.lookup k = if req.mode = .append ∨ isProtected k = true then m.lookup k else none) (k : String) :
    k ∈ secretKeys m ∧ k ∉ secretKeys m' ↔ (req.mode = .reset ∧ k ∈ secretKeys m ∧ isProtected k = false) ∧
      k ∉ secretKeys req.secrets ∧ k ∉ req.generatedNames := by
  constructor
  · rintro ⟨hk, hk'⟩
    have hin := mem_secretKeys_iff.mp hk
    have hungiven : k ∉ secretKeys req.secrets := by
      intro hmem
      obtain ⟨e, he, rfl⟩ := List.mem_map.mp hmem
      exact hk' (mem_secretKeys_iff.mpr (by rw [hgiven e.1 e.2 he]; rfl))
    have hungenerated : k ∉ req.generatedNames := by
      intro hmem
      rw [hnew k hmem] at hin
      cases hin
    have hlost : ¬ (req.mode = .append ∨ isProtected k = true) := by
      intro hkeeps
      refine hk' (mem_secretKeys_iff.mpr ?_)
      rw [hrest k hungiven hungenerated, if_pos hkeeps]
      exact hin
    rw [not_or] at hlost
    have hreset : req.mode = .reset := by
      cases hmode : req.mode with
      | append => exact absurd hmode hlost.1
      | reset => rfl
    exact ⟨⟨hreset, hk, Bool.eq_false_iff.mpr hlost.2⟩, hungiven, hungenerated⟩
  · rintro ⟨⟨hreset, hk, hunprotected⟩, hungiven, hungenerated⟩
    refine ⟨hk, fun hk' => ?_⟩
    have hin := mem_secretKeys_iff.mp hk'
    rw [hrest k hungiven hungenerated, if_neg (by simp [hreset, hunprotected])] at hin
    cases hin

/-- **Step.** An update that succeeds is exact. -/
theorem applyUpdate_exact {draws : Nat → Draw} {req : UpdateUserSecretsRequest} {summary : UpdateSummary}
    (h : applyUpdate draws req m = .ok (m', summary)) : Exact req m m' summary := by
  obtain ⟨updated, hgen, hresult⟩ := bind_ok h
  obtain ⟨rfl, rfl⟩ := Prod.mk.inj (Except.ok.inj hresult)
  obtain ⟨values, hvalues, hnodup, hnew, hlookup, -⟩ := generateAll_eq_ok hgen
  replace hlookup : ∀ key, updated.lookup key = ((req.generatedNames.zip (values.map Value.str)).lookup key).or
      ((insertAll req.secrets (removeAll (keysToRemove req.mode m) m)).lookup key) := hlookup
  -- what a name stands for before the generated ones are made
  have hbefore : ∀ k, (insertAll req.secrets (removeAll (keysToRemove req.mode m) m)).lookup k =
      (req.secrets.lookup k).or (if req.mode = .append ∨ isProtected k = true then m.lookup k else none) := by
    intro k
    rw [lookup_insertAll req.secrets_nodup, lookup_kept]
  have hfresh : ∀ k ∈ req.generatedNames, isProtected k = true ∧ m.lookup k = none ∧ k ∉ secretKeys req.secrets := by
    intro k hk
    obtain ⟨spec, hspec, rfl⟩ := List.mem_map.mp hk
    obtain ⟨hprotected, habsent⟩ := hnew spec hspec
    rw [hbefore, if_pos (Or.inr hprotected), Option.or_eq_none_iff] at habsent
    exact ⟨hprotected, habsent.2, OrderedMap.lookup_eq_none_iff.mp habsent.1⟩
  have hgiven : ∀ k v, (k, v) ∈ req.secrets → updated.lookup k = some v := by
    intro k v hkv
    have hk : k ∈ secretKeys req.secrets := List.mem_map.mpr ⟨_, hkv, rfl⟩
    rw [hlookup, hbefore, lookup_zip_eq_none (fun hmem => (hfresh k hmem).2.2 hk), lookup_given req.secrets_nodup hkv]
    rfl
  have hrest : ∀ k, k ∉ secretKeys req.secrets → k ∉ req.generatedNames →
      updated.lookup k = if req.mode = .append ∨ isProtected k = true then m.lookup k else none := by
    intro k hk hk'
    rw [hlookup, hbefore, lookup_zip_eq_none hk', OrderedMap.lookup_eq_none_iff.mpr hk]
    rfl
  have hwritten : ∀ e ∈ req.generatedNames.zip values, updated.lookup e.1 = some (.str e.2) := by
    intro e he
    have hzip : (e.1, Value.str e.2) ∈ req.generatedNames.zip (values.map Value.str) := by
      rw [List.zip_map_right]
      exact List.mem_map.mpr ⟨e, he, rfl⟩
    have hone : (req.generatedNames.zip (values.map Value.str)).lookup e.1 = some (.str e.2) :=
      lookup_zip_of_mem hnodup hzip
    rw [hlookup, hone]
    rfl
  refine
    { generated := ⟨values, hvalues.imp fun _ _ ⟨i, hi⟩ => ⟨draws i, hi⟩, hwritten⟩
      generated_once := hnodup
      generated_new := fun k hk => ⟨(hfresh k hk).1, (hfresh k hk).2.1⟩
      given := hgiven
      rest := hrest
      sorted := fun hm => sorted_generateAll (sorted_insertAll (sorted_removeAll hm)) hgen
      preserved := filter_removeAll (fun k hk => (mem_keysToRemove.mp hk).2.2) m
      updated := rfl
      updated_once := ?_
      removed := ?_
      gone := ?_
      total := rfl }
  · refine List.nodup_append'.mpr ⟨req.secrets_nodup, hnodup, fun k hk hk' => ?_⟩
    exact (hfresh k hk').2.2 hk
  · cases hmode : req.mode with
    | append => rfl
    | reset => rfl
  · intro k
    have hupdated : k ∉ secretKeys req.secrets ++ req.generatedNames ↔
        k ∉ secretKeys req.secrets ∧ k ∉ req.generatedNames := by rw [List.mem_append, not_or]
    exact (gone_iff hgiven (fun k hk => (hfresh k hk).2.1) hrest k).trans (and_congr mem_keysToRemove hupdated).symm

/-! ## Runs of updates -/

/-- A request, and what is drawn for it. -/
structure Update where
  draws : Nat → Draw
  req : UpdateUserSecretsRequest

/-- The request passes its checks on what is given, and changes the map so. -/
def Update.Makes (u : Update) (m m' : Secrets) (summary : UpdateSummary) : Prop :=
  checkUserSecrets u.req.secrets = .ok () ∧ applyUpdate u.draws u.req m = .ok (m', summary)

/-- Updates that succeed one after the other, each on the map the one before made. -/
inductive Updates : Secrets → List (Update × UpdateSummary) → Secrets → Prop
  | nil (m : Secrets) : Updates m [] m
  | cons {u : Update} {summary : UpdateSummary} {m₁ m₂ m₃ : Secrets} {us : List (Update × UpdateSummary)}
      (head : u.Makes m₁ m₂ summary) (tail : Updates m₂ us m₃) : Updates m₁ ((u, summary) :: us) m₃

theorem Update.Makes.exact {u : Update} {summary : UpdateSummary} (h : u.Makes m m' summary) :
    Exact u.req m m' summary := applyUpdate_exact h.2

/-- A protected entry stays through one update: no request may give its name, and none may generate it again. -/
theorem Update.Makes.keeps_protected {u : Update} {summary : UpdateSummary} (h : u.Makes m m' summary) {v : Value}
    (hprotected : isProtected key = true) (hv : m.lookup key = some v) : m'.lookup key = some v := by
  have hexact := h.exact
  have hungiven : key ∉ secretKeys u.req.secrets := fun hmem => by
    rw [checkUserSecrets_ok h.1 key hmem] at hprotected
    cases hprotected
  have hungenerated : key ∉ u.req.generatedNames := fun hmem => by
    rw [(hexact.generated_new key hmem).2] at hv
    cases hv
  rw [hexact.rest key hungiven hungenerated, if_pos (Or.inr hprotected), hv]

/-- **Run.** A protected entry stays through any run of updates. -/
theorem Updates.keeps_protected {us : List (Update × UpdateSummary)} (h : Updates m us m') {v : Value}
    (hprotected : isProtected key = true) (hv : m.lookup key = some v) : m'.lookup key = some v := by
  induction h with
  | nil m => exact hv
  | cons head tail ih => exact ih (head.keeps_protected hprotected hv)

/-- Any update of a run is exact, and the rest of the run goes on from the map it made. -/
theorem Updates.split {us us₁ us₂ : List (Update × UpdateSummary)} {u : Update} {summary : UpdateSummary}
    (h : Updates m us m') (hus : us = us₁ ++ (u, summary) :: us₂) :
    ∃ m₁ m₂, Updates m us₁ m₁ ∧ u.Makes m₁ m₂ summary ∧ Updates m₂ us₂ m' := by
  induction h generalizing us₁ with
  | nil m => exact absurd hus (List.append_ne_nil_of_right_ne_nil us₁ (List.cons_ne_nil _ us₂)).symm
  | @cons v sm n₁ n₂ n₃ vs head tail ih =>
      cases us₁ with
      | nil =>
          obtain ⟨hpair, rfl⟩ := List.cons.inj hus
          obtain ⟨rfl, rfl⟩ := Prod.mk.inj hpair
          exact ⟨n₁, n₂, .nil n₁, head, tail⟩
      | cons w us₁ =>
          obtain ⟨rfl, hrest⟩ := List.cons.inj hus
          obtain ⟨m₁, m₂, hbefore, hmakes, hafter⟩ := ih hrest
          exact ⟨m₁, m₂, .cons head hbefore, hmakes, hafter⟩

/-! ## The handler -/

/-- The response to a request is the ciphertext of the map that an update of the row's secrets made, and the summary
    of that update. -/
def ResponseSays (E : UpdateHost) (req : UpdateUserSecretsRequest) (response : UpdateUserSecretsResponse) : Prop :=
  ∃ client current updated customer seed encrypted,
    checkSigned E req = .ok client ∧ currentSecrets E req client = .ok current ∧
    (Update.mk E.draws req).Makes current updated response.summary ∧
    req.encryptionSeed = .ok seed ∧ E.encrypt customer seed (utf8 (Value.obj updated).compact) = .ok encrypted ∧
    response.encryptedSecretsBase64 = base64Encode encrypted

/-- A ciphertext is only ever of a whole update: where a pass fails, nothing is answered. -/
theorem updateUserSecrets_ok {E : UpdateHost} {req : UpdateUserSecretsRequest} {response : UpdateUserSecretsResponse}
    (h : updateUserSecrets E req = .ok response) : ResponseSays E req response := by
  unfold updateUserSecrets at h
  obtain ⟨-, -, h⟩ := bind_ok h
  obtain ⟨-, -, h⟩ := bind_ok h
  obtain ⟨customer, -, h⟩ := bind_ok h
  obtain ⟨-, -, h⟩ := bind_ok h
  obtain ⟨client, hclient, h⟩ := bind_ok h
  obtain ⟨_, hplain, h⟩ := bind_ok h
  obtain ⟨current, hcurrent, h⟩ := bind_ok h
  obtain ⟨⟨updated, summary⟩, hupdate, h⟩ := bind_ok h
  obtain ⟨seed, hseed, h⟩ := bind_ok h
  obtain ⟨encrypted, hencrypted, h⟩ := bind_ok h
  obtain rfl := Except.ok.inj h
  exact ⟨client, current, updated, customer, seed, encrypted, hclient, hcurrent, ⟨hplain, hupdate⟩, hseed,
    orInternal_ok hencrypted, rfl⟩

/-- Along any run of updates a protected entry keeps the value it has, and every update of the run changes the map
    exactly as its request and its summary say; what the handler answers is of such an update. -/
theorem updates_exact :
    (∀ m us m', Updates m us m' →
      (∀ k v, isProtected k = true → m.lookup k = some v → m'.lookup k = some v) ∧
      ∀ us₁ u summary us₂, us = us₁ ++ (u, summary) :: us₂ →
        ∃ m₁ m₂, Updates m us₁ m₁ ∧ Exact u.req m₁ m₂ summary ∧ Updates m₂ us₂ m') ∧
    ∀ E req response, updateUserSecrets E req = .ok response → ResponseSays E req response := by
  refine ⟨fun m us m' h => ⟨fun k v hprotected hv => h.keeps_protected hprotected hv, ?_⟩,
    fun E req response h => updateUserSecrets_ok h⟩
  intro us₁ u summary us₂ hus
  obtain ⟨m₁, m₂, hbefore, hmakes, hafter⟩ := h.split hus
  exact ⟨m₁, m₂, hbefore, hmakes.exact, hafter⟩

/-- A request that gives one secret and generates another. -/
def sampleUpdate (mode : UpdateMode) (given generated : String) : Update where
  draws := fun k =>
    { bytes := fun n => List.replicate n (UInt8.ofNat k), ed25519Secret := [], place := fun _ => 0 }
  req :=
    { accessor := .project "alice.near/app", profile := "default", owner := "alice.near", mode := mode
      secrets := [(given, .null)], secrets_nodup := List.nodup_singleton given
      generateProtected := some [{ name := generated, generationType := "hex16" }]
      signedMessage := "", signature := "", publicKey := "", nonce := "", recipient := "" }

/-- What the draws above make of `hex16`. -/
def zeroKey : Value := .str "00000000000000000000000000000000"

/-- A key that the first of two updates makes stands after the second. -/
theorem made_key_stays : ∃ (us : List (Update × UpdateSummary)) (final : Secrets),
    us.map Prod.fst = [sampleUpdate .append "A" "PROTECTED_K", sampleUpdate .reset "B" "PROTECTED_L"] ∧
      Updates [] us final ∧ final.lookup "PROTECTED_K" = some zeroKey ∧ final.lookup "A" = none := by
  have hfirst : (sampleUpdate .append "A" "PROTECTED_K").Makes [] [("A", .null), ("PROTECTED_K", zeroKey)]
      ⟨[], ["A", "PROTECTED_K"], [], 2⟩ := ⟨by decide, by rfl⟩
  have hsecond : (sampleUpdate .reset "B" "PROTECTED_L").Makes [("A", .null), ("PROTECTED_K", zeroKey)]
      [("B", .null), ("PROTECTED_K", zeroKey), ("PROTECTED_L", zeroKey)]
      ⟨["PROTECTED_K"], ["B", "PROTECTED_L"], ["A"], 3⟩ := ⟨by decide, by rfl⟩
  have hrest := Updates.cons hsecond (.nil _)
  exact ⟨_, _, rfl, .cons hfirst hrest, (updates_exact.1 _ _ _ hrest).1 "PROTECTED_K" zeroKey (by decide) rfl, rfl⟩

end Keystore
end Outlayer
