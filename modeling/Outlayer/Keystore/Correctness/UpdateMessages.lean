import Outlayer.Keystore.SecretUpdates
import Outlayer.Lib.Fields

/-!
# `Keystore.Correctness.UpdateMessages` — what the owner signs for an update

The message names an owner, a profile, and the names that are written and generated, with no escape for the characters
between them. Where the owner holds no colon, the profile no line break and no name a comma or a line break, the cuts
are found again and the message says one thing. Nothing makes a request keep to that: a profile may hold a whole line
of names, so a message with any name in it is also the message of a request that names nothing.
-/

namespace Outlayer
open Text Fields Json

namespace Keystore

/-! ## Lists of names -/

theorem sortTexts_perm (texts : List String) : (sortTexts texts).Perm texts := List.mergeSort_perm texts _

theorem sortTexts_eq_nil_iff {texts : List String} : sortTexts texts = [] ↔ texts = [] := by
  rw [← List.length_eq_zero_iff, (sortTexts_perm texts).length_eq, List.length_eq_zero_iff]

/-- The characters of joined names. -/
def joined (names : List String) : List Char := [','].intercalate (names.map String.toList)

theorem toList_joinTexts (names : List String) : (joinTexts "," names).toList = joined names :=
  String.toList_intercalate

theorem mem_joined {c : Char} {names : List String} (hc : c ≠ ',') (h : ∀ n ∈ names, c ∉ n.toList) :
    c ∉ joined names := by
  induction names with
  | nil => exact List.not_mem_nil
  | cons n names ih =>
      have hn := h n List.mem_cons_self
      have hrest := ih fun k hk => h k (List.mem_cons_of_mem n hk)
      cases names with
      | nil => simpa [joined, List.intercalate] using hn
      | cons k ks =>
          intro hmem
          have hcut : joined (n :: k :: ks) = n.toList ++ ',' :: joined (k :: ks) := by
            simp [joined, List.intercalate_cons_cons]
          rw [hcut, List.mem_append, List.mem_cons] at hmem
          rcases hmem with hin | heq | hin
          · exact hn hin
          · exact hc heq
          · exact hrest hin

/-- Names without commas are found again. -/
theorem joined_inj {names names' : List String} (hne : names ≠ []) (hne' : names' ≠ [])
    (h : ∀ n ∈ names, ',' ∉ n.toList) (h' : ∀ n ∈ names', ',' ∉ n.toList) (heq : joined names = joined names') :
    names = names' := by
  have hsplit : ∀ {ns : List String}, ns ≠ [] → (∀ n ∈ ns, ',' ∉ n.toList) →
      (joined ns).splitOn ',' = ns.map String.toList := by
    intro ns hns hfree
    refine List.splitOn_intercalate ',' ?_ (fun hnil => hns (List.map_eq_nil_iff.mp hnil))
    intro l hl
    obtain ⟨n, hn, rfl⟩ := List.mem_map.mp hl
    exact hfree n hn
  have hlists := (hsplit hne h).symm.trans ((congrArg _ heq).trans (hsplit hne' h'))
  exact List.map_injective_iff.mpr (fun _ _ => String.toList_inj.mp) hlists

/-! ## Lines of a message -/

/-- The characters of a labelled line. -/
def line (label : String) (names : List String) : List Char :=
  if names = [] then [] else '\n' :: (label.toList ++ ':' :: joined names)

theorem toList_messageLine (label : String) (names : List String) :
    (messageLine label names).toList = line label names := by
  unfold messageLine line
  split
  · rfl
  · simp only [String.toList_append, toList_joinTexts, List.append_assoc]
    rfl

theorem line_eq_nil_iff {label : String} {names : List String} : line label names = [] ↔ names = [] := by
  unfold line
  split
  · next h => exact iff_of_true rfl h
  · next h => exact iff_of_false (List.cons_ne_nil _ _) h

theorem colon_mem_line {label : String} {names : List String} (h : names ≠ []) : ':' ∈ line label names := by
  rw [line, if_neg h]
  exact List.mem_cons_of_mem _ (List.mem_append_right _ List.mem_cons_self)

theorem tail_line (label : String) (names : List String) {rest : List Char} (h : Tail '\n' rest) :
    Tail '\n' (line label names ++ rest) := by
  unfold line
  split
  · exact h
  · exact Or.inr ⟨_, rfl⟩

/-- What stands before a tail is found again, where it holds no separator. -/
theorem cut_tail {sep : Char} {a b t t' : List Char} (ha : sep ∉ a) (hb : sep ∉ b) (ht : Tail sep t) (ht' : Tail sep t')
    (h : a ++ t = b ++ t') : a = b ∧ t = t' := by
  rcases ht with rfl | ⟨x, rfl⟩ <;> rcases ht' with rfl | ⟨y, rfl⟩
  · rw [List.append_nil, List.append_nil] at h
    exact ⟨h, rfl⟩
  · rw [List.append_nil] at h
    exact absurd (h ▸ List.mem_append_right b List.mem_cons_self) ha
  · rw [List.append_nil] at h
    exact absurd (h ▸ List.mem_append_right a List.mem_cons_self) hb
  · obtain ⟨rfl, rfl⟩ := cut_first ha hb h
    exact ⟨rfl, rfl⟩

/-- Names that hold no separator of the message. -/
def PlainNames (names : List String) : Prop := ∀ n ∈ names, ',' ∉ n.toList ∧ '\n' ∉ n.toList

/-- A line of names is found again before a tail. -/
theorem line_inj {label : String} {names names' : List String} {t t' : List Char} (hn : PlainNames names)
    (hn' : PlainNames names') (hne : names ≠ []) (hne' : names' ≠ []) (ht : Tail '\n' t) (ht' : Tail '\n' t')
    (h : line label names ++ t = line label names' ++ t') : names = names' ∧ t = t' := by
  have hfree : ∀ {ns : List String}, PlainNames ns → '\n' ∉ joined ns := fun hp =>
    mem_joined (by decide) fun n hmem => (hp n hmem).2
  rw [line, line, if_neg hne, if_neg hne', List.cons_append, List.cons_append, List.append_assoc, List.append_assoc]
    at h
  obtain ⟨hjoined, hrest⟩ := cut_tail (hfree hn) (hfree hn') ht ht'
    (List.cons.inj (List.append_cancel_left (List.cons.inj h).2)).2
  exact ⟨joined_inj hne hne' (fun n hmem => (hn n hmem).1) (fun n hmem => (hn' n hmem).1) hjoined, hrest⟩

/-- A line of generated names is no line of written ones. -/
theorem line_protected_ne {made keys : List String} (hne : keys ≠ []) (t : List Char) :
    line "protected" made ≠ line "keys" keys ++ t := by
  rw [line, line, if_neg hne]
  split
  · exact (List.cons_ne_nil _ _).symm
  · intro h
    have hsecond := (List.cons.inj h).2
    simp at hsecond

theorem tail_protected (made : List String) : Tail '\n' (line "protected" made) := by
  rw [← List.append_nil (line "protected" made)]
  exact tail_line "protected" made (Or.inl rfl)

/-- Two lines of names, one label after the other: each is found again. -/
theorem lines_inj {keys keys' made made' : List String} (hk : PlainNames keys) (hk' : PlainNames keys')
    (hm : PlainNames made) (hm' : PlainNames made')
    (h : line "keys" keys ++ line "protected" made = line "keys" keys' ++ line "protected" made') :
    keys = keys' ∧ made = made' := by
  have hmade : line "protected" made = line "protected" made' → made = made' := by
    intro heq
    by_cases hne : made = []
    · rw [line_eq_nil_iff.mpr hne] at heq
      rw [hne, line_eq_nil_iff.mp heq.symm]
    · have hne' : made' ≠ [] := fun hnil => hne (line_eq_nil_iff.mp (heq.trans (line_eq_nil_iff.mpr hnil)))
      have hends : line "protected" made ++ [] = line "protected" made' ++ [] := by rw [heq]
      exact (line_inj hm hm' hne hne' (Or.inl rfl) (Or.inl rfl) hends).1
  by_cases hne : keys = [] <;> by_cases hne' : keys' = []
  · rw [line_eq_nil_iff.mpr hne, line_eq_nil_iff.mpr hne'] at h
    exact ⟨hne.trans hne'.symm, hmade h⟩
  · rw [line_eq_nil_iff.mpr hne] at h
    exact absurd h (line_protected_ne hne' _)
  · rw [line_eq_nil_iff.mpr hne'] at h
    exact absurd h.symm (line_protected_ne hne _)
  · obtain ⟨rfl, hrest⟩ := line_inj hk hk' hne hne' (tail_protected made) (tail_protected made') h
    exact ⟨rfl, hmade hrest⟩

/-! ## The message -/

variable {r r' : UpdateUserSecretsRequest}

/-- What the owner's word is about is the same. -/
structure Alike (r r' : UpdateUserSecretsRequest) : Prop where
  owner : r.owner = r'.owner
  profile : r.profile = r'.profile
  secrets : ∀ k, k ∈ secretKeys r.secrets ↔ k ∈ secretKeys r'.secrets
  generated : r.generatedNames.Perm r'.generatedNames

theorem toList_expectedMessage (r : UpdateUserSecretsRequest) : r.expectedMessage.toList =
    "Update Outlayer secrets for ".toList ++ (r.owner.toList ++ ':' :: (r.profile.toList ++
      (line "keys" (sortTexts (secretKeys r.secrets)) ++ line "protected" (sortTexts r.generatedNames)))) := by
  have hcolon : ":".toList = [':'] := rfl
  unfold UpdateUserSecretsRequest.expectedMessage
  generalize "Update Outlayer secrets for " = head
  simp only [String.toList_append, toList_messageLine, List.append_assoc, hcolon, List.cons_append, List.nil_append]

/-- Two messages are the same when what follows their common head is. -/
theorem expectedMessage_eq_iff : r.expectedMessage = r'.expectedMessage ↔
    r.owner.toList ++ ':' :: (r.profile.toList ++
      (line "keys" (sortTexts (secretKeys r.secrets)) ++ line "protected" (sortTexts r.generatedNames))) =
    r'.owner.toList ++ ':' :: (r'.profile.toList ++
      (line "keys" (sortTexts (secretKeys r'.secrets)) ++ line "protected" (sortTexts r'.generatedNames))) := by
  rw [← String.toList_inj, toList_expectedMessage, toList_expectedMessage, List.append_cancel_left_eq]

/-- A request whose texts hold no character that the message cuts at. -/
structure Plain (r : UpdateUserSecretsRequest) : Prop where
  owner : ':' ∉ r.owner.toList
  profile : '\n' ∉ r.profile.toList
  secrets : PlainNames (secretKeys r.secrets)
  generated : PlainNames r.generatedNames

theorem PlainNames.sort {names : List String} (h : PlainNames names) : PlainNames (sortTexts names) :=
  fun n hn => h n ((sortTexts_perm names).mem_iff.mp hn)

theorem perm_of_sortTexts_eq {names names' : List String} (h : sortTexts names = sortTexts names') :
    names.Perm names' := (sortTexts_perm names).symm.trans (h ▸ sortTexts_perm names')

theorem alike_of_plain (h : Plain r) (h' : Plain r') (heq : r.expectedMessage = r'.expectedMessage) : Alike r r' := by
  obtain ⟨howner, hrest⟩ := cut_first h.owner h'.owner (expectedMessage_eq_iff.mp heq)
  obtain ⟨hprofile, hlines⟩ := cut_tail h.profile h'.profile (tail_line _ _ (tail_protected _))
    (tail_line _ _ (tail_protected _)) hrest
  obtain ⟨hkeys, hmade⟩ := lines_inj h.secrets.sort h'.secrets.sort h.generated.sort h'.generated.sort hlines
  exact
    { owner := String.toList_inj.mp howner
      profile := String.toList_inj.mp hprofile
      secrets := fun k => (perm_of_sortTexts_eq hkeys).mem_iff
      generated := perm_of_sortTexts_eq hmade }

/-- Nothing follows the profile, and the one colon is the cut. -/
structure Bare (r : UpdateUserSecretsRequest) : Prop where
  owner : ':' ∉ r.owner.toList
  profile : ':' ∉ r.profile.toList
  secrets : r.secrets = []
  generated : r.generatedNames = []

/-- A message with one colon is of no other request. -/
theorem alike_of_bare (h : Bare r) (heq : r.expectedMessage = r'.expectedMessage) : Alike r r' := by
  have hchars := expectedMessage_eq_iff.mp heq
  have hnil : line "keys" (sortTexts (secretKeys r.secrets)) ++ line "protected" (sortTexts r.generatedNames) = [] := by
    rw [line_eq_nil_iff.mpr (sortTexts_eq_nil_iff.mpr (by rw [h.secrets]; rfl)),
      line_eq_nil_iff.mpr (sortTexts_eq_nil_iff.mpr h.generated), List.append_nil]
  rw [hnil, List.append_nil] at hchars
  -- the colons on both sides, counted
  have hcount := congrArg (List.count ':') hchars
  simp only [List.count_append, List.count_cons_self, List.count_eq_zero_of_not_mem h.owner,
    List.count_eq_zero_of_not_mem h.profile] at hcount
  have hnot : ∀ {l : List Char}, l.count ':' = 0 → ':' ∉ l := fun hl => List.count_eq_zero.mp hl
  have hkeys : sortTexts (secretKeys r'.secrets) = [] := by
    by_contra hne
    have hcolon : ':' ∈ line "keys" (sortTexts (secretKeys r'.secrets)) := colon_mem_line hne
    exact hnot (by omega) hcolon
  have hmade : sortTexts r'.generatedNames = [] := by
    by_contra hne
    have hcolon : ':' ∈ line "protected" (sortTexts r'.generatedNames) := colon_mem_line hne
    exact hnot (by omega) hcolon
  have howner' : ':' ∉ r'.owner.toList := hnot (by omega)
  obtain ⟨howner, hprofile⟩ := cut_first h.owner howner' hchars
  rw [line_eq_nil_iff.mpr hkeys, line_eq_nil_iff.mpr hmade, List.append_nil, List.append_nil] at hprofile
  have hnone : secretKeys r'.secrets = [] := sortTexts_eq_nil_iff.mp hkeys
  exact
    { owner := String.toList_inj.mp howner
      profile := String.toList_inj.mp hprofile
      secrets := fun k => by rw [h.secrets, hnone]; rfl
      generated := by rw [h.generated, sortTexts_eq_nil_iff.mp hmade] }

/-! ## Other requests with the same message -/

/-- A request signed as its message demands. -/
def Passes (r : UpdateUserSecretsRequest) : Prop := r.signedMessage = r.expectedMessage

/-- The same signed message, with other texts and nothing to generate or write. -/
def UpdateUserSecretsRequest.bare (r : UpdateUserSecretsRequest) (profile : String) : UpdateUserSecretsRequest :=
  { r with profile := profile, secrets := [], secrets_nodup := List.nodup_nil, generateProtected := none }

/-- The same request for another owner and profile. -/
def UpdateUserSecretsRequest.moved (r : UpdateUserSecretsRequest) (owner profile : String) :
    UpdateUserSecretsRequest :=
  { r with owner := owner, profile := profile }

/-- The lines of names, as text. -/
def UpdateUserSecretsRequest.lines (r : UpdateUserSecretsRequest) : String :=
  messageLine "keys" (sortTexts (secretKeys r.secrets)) ++ messageLine "protected" (sortTexts r.generatedNames)

/-- A profile may hold the lines of names. -/
theorem expectedMessage_bare (r : UpdateUserSecretsRequest) :
    (r.bare (r.profile ++ r.lines)).expectedMessage = r.expectedMessage := by
  apply expectedMessage_eq_iff.mpr
  have hnil : sortTexts [] = [] := sortTexts_eq_nil_iff.mpr rfl
  show r.owner.toList ++ ':' :: ((r.profile ++ r.lines).toList ++
    (line "keys" (sortTexts []) ++ line "protected" (sortTexts []))) = _
  rw [hnil, line_eq_nil_iff.mpr rfl, line_eq_nil_iff.mpr rfl, UpdateUserSecretsRequest.lines, String.toList_append,
    String.toList_append, toList_messageLine, toList_messageLine, List.append_nil, List.append_nil]

/-- The cut between owner and profile may be at any colon. -/
theorem expectedMessage_moved {owner profile : String}
    (h : owner.toList ++ ':' :: profile.toList = r.owner.toList ++ ':' :: r.profile.toList) :
    (r.moved owner profile).expectedMessage = r.expectedMessage := by
  apply expectedMessage_eq_iff.mpr
  show owner.toList ++ ':' :: (profile.toList ++ _) = _
  rw [← List.cons_append, ← List.append_assoc, h, List.append_assoc, List.cons_append]
  rfl

theorem no_lines_of_alike (h : Alike r (r.bare (r.profile ++ r.lines))) :
    r.secrets = [] ∧ r.generatedNames = [] := by
  have hchars := congrArg String.toList (show r.profile = r.profile ++ r.lines from h.profile)
  rw [String.toList_append] at hchars
  have hlines : r.lines.toList = [] := List.append_cancel_left (hchars.symm.trans (List.append_nil _).symm)
  rw [UpdateUserSecretsRequest.lines, String.toList_append, toList_messageLine, toList_messageLine,
    List.append_eq_nil_iff] at hlines
  have hkeys := sortTexts_eq_nil_iff.mp (line_eq_nil_iff.mp hlines.1)
  exact ⟨List.map_eq_nil_iff.mp hkeys, sortTexts_eq_nil_iff.mp (line_eq_nil_iff.mp hlines.2)⟩

/-- A request that no other request shares its message with is bare. -/
theorem bare_of_alone (hpass : Passes r)
    (h : ∀ r', Passes r' → r'.signedMessage = r.signedMessage → Alike r r') : Bare r := by
  obtain ⟨hsecrets, hgenerated⟩ := no_lines_of_alike (h _ (hpass.trans (expectedMessage_bare r).symm) rfl)
  have hmoved : ∀ {owner profile : String},
      owner.toList ++ ':' :: profile.toList = r.owner.toList ++ ':' :: r.profile.toList → r.owner = owner := by
    intro owner profile heq
    exact (h (r.moved owner profile) (hpass.trans (expectedMessage_moved heq).symm) rfl).owner
  refine ⟨?_, ?_, hsecrets, hgenerated⟩
  · -- an earlier cut
    intro hmem
    obtain ⟨a, b, hab⟩ := List.append_of_mem hmem
    have howner : r.owner = String.ofList a := by
      apply @hmoved (String.ofList a) (String.ofList (b ++ ':' :: r.profile.toList))
      rw [String.toList_ofList, String.toList_ofList, hab, List.append_assoc, List.cons_append]
    have hlen := congrArg (List.length ∘ String.toList) howner
    simp only [Function.comp_apply, hab, String.toList_ofList, List.length_append, List.length_cons] at hlen
    omega
  · -- a later one
    intro hmem
    obtain ⟨a, b, hab⟩ := List.append_of_mem hmem
    have howner : r.owner = String.ofList (r.owner.toList ++ ':' :: a) := by
      apply @hmoved (String.ofList (r.owner.toList ++ ':' :: a)) (String.ofList b)
      rw [String.toList_ofList, String.toList_ofList, hab, List.append_assoc, List.cons_append]
    have hlen := congrArg (List.length ∘ String.toList) howner
    simp only [Function.comp_apply, String.toList_ofList, List.length_append, List.length_cons] at hlen
    omega

/-- The signed message says what a request is about exactly where the request is bare; and two requests whose texts
    hold no character the message cuts at never share one unless they are alike. -/
theorem message_has_one_meaning_iff (r : UpdateUserSecretsRequest) (hpass : Passes r) :
    ((∀ r', Passes r' → r'.signedMessage = r.signedMessage → Alike r r') ↔ Bare r) ∧
    (Plain r → ∀ r', Plain r' → Passes r' → r'.signedMessage = r.signedMessage → Alike r r') := by
  have hsame : ∀ {r'}, Passes r' → r'.signedMessage = r.signedMessage → r.expectedMessage = r'.expectedMessage :=
    fun hpass' heq => hpass.symm.trans (heq.symm.trans hpass')
  refine ⟨⟨bare_of_alone hpass, fun hbare r' hpass' heq => alike_of_bare hbare (hsame hpass' heq)⟩, ?_⟩
  intro hplain r' hplain' hpass' heq
  exact alike_of_plain hplain hplain' (hsame hpass' heq)

/-! ## One message, two lists of names -/

/-- A request that writes these names, signed by one text. -/
def sampleNames (names : List String) (h : names.Nodup) : UpdateUserSecretsRequest where
  accessor := .project "alice.near/app"
  profile := "default"
  owner := "alice.near"
  mode := .append
  secrets := names.map fun n => (n, .str "x")
  secrets_nodup := by rw [List.map_map]; exact (List.map_id names).symm ▸ h
  signedMessage := "Update Outlayer secrets for alice.near:default\nkeys:A,B"
  signature := "c2ln"
  publicKey := "ed25519:key"
  nonce := "bm9uY2U="
  recipient := "outlayer.near"

theorem expectedMessage_sampleNames {names : List String} (h : names.Nodup) (hsort : sortTexts names = names)
    (hjoin : joined names = "A,B".toList) (hne : names ≠ []) : Passes (sampleNames names h) := by
  have hkeys : secretKeys (sampleNames names h).secrets = names := by
    show (names.map fun n => (n, Value.str "x")).map Prod.fst = names
    rw [List.map_map]
    exact List.map_id names
  have hmade : sortTexts (sampleNames names h).generatedNames = [] := sortTexts_eq_nil_iff.mpr rfl
  refine String.toList_inj.mp ?_
  rw [toList_expectedMessage, hkeys, hsort, hmade, line_eq_nil_iff.mpr rfl, line, if_neg hne, hjoin]
  show "Update Outlayer secrets for alice.near:default\nkeys:A,B".toList = "Update Outlayer secrets for ".toList ++
    ("alice.near".toList ++ ':' :: ("default".toList ++ ('\n' :: ("keys".toList ++ ':' :: "A,B".toList) ++ [])))
  decide

/-- A name with a comma in it is signed by the words for two names. -/
theorem names_joined_by_comma :
    Passes (sampleNames ["A", "B"] (by decide)) ∧ Passes (sampleNames ["A,B"] (by decide)) ∧
    (sampleNames ["A", "B"] (by decide)).signedMessage = (sampleNames ["A,B"] (by decide)).signedMessage ∧
    ¬ Alike (sampleNames ["A", "B"] (by decide)) (sampleNames ["A,B"] (by decide)) := by
  refine ⟨expectedMessage_sampleNames _ ?_ (by decide) (by decide),
    expectedMessage_sampleNames _ ?_ (by decide) (by decide), rfl, ?_⟩
  · exact List.mergeSort_of_pairwise (by decide)
  · exact List.mergeSort_of_pairwise (by decide)
  · intro h
    exact absurd ((h.secrets "A").mp (by decide)) (by decide)

/-- A request that names nothing, with its message signed. -/
def sampleReset : UpdateUserSecretsRequest where
  accessor := .project "alice.near/app"
  profile := "default"
  owner := "alice.near"
  mode := .reset
  secrets := []
  secrets_nodup := List.nodup_nil
  signedMessage := "Update Outlayer secrets for alice.near:default"
  signature := "c2ln"
  publicKey := "ed25519:key"
  nonce := "bm9uY2U="
  recipient := "outlayer.near"

theorem expectedMessage_sampleReset : Passes sampleReset := by
  have hkeys : sortTexts (secretKeys sampleReset.secrets) = [] := sortTexts_eq_nil_iff.mpr rfl
  have hmade : sortTexts sampleReset.generatedNames = [] := sortTexts_eq_nil_iff.mpr rfl
  refine String.toList_inj.mp ?_
  rw [toList_expectedMessage, hkeys, hmade, line_eq_nil_iff.mpr rfl, line_eq_nil_iff.mpr rfl]
  decide

/-- A message that names nothing is of one owner and one profile. -/
theorem reset_has_one_meaning :
    Passes sampleReset ∧
    (∀ r', Passes r' → r'.signedMessage = sampleReset.signedMessage → Alike sampleReset r') :=
  ⟨expectedMessage_sampleReset, (message_has_one_meaning_iff sampleReset expectedMessage_sampleReset).1.mpr
    { owner := by decide
      profile := by decide
      secrets := rfl
      generated := rfl }⟩

end Keystore
end Outlayer
