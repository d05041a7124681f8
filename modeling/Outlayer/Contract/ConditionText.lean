import Outlayer.Contract.Secrets
import Outlayer.Lib.JsonText

/-!
# `Contract.ConditionText` — the text of an access condition

The text a condition is signed and priced by is a JSON document: `AccessCondition.toDoc` is that document,
`writes_toJson` says that `AccessCondition.toJson` writes it, and with the facts about the writer the text
determines the condition and can be told from what stands around it.
-/

namespace Outlayer
open Json (Doc write writeItems writeMembers writeString quote)

/-- An enum variant with fields, as a document. -/
def docVariant (name : String) (members : List (String × Doc)) : Doc := .obj [(name, .obj members)]

mutual

/-- The document of a condition. -/
def AccessCondition.toDoc : AccessCondition → Doc
  | .logic operator conditions =>
      docVariant "Logic"
        [("operator", .str operator.name), ("conditions", .arr (AccessCondition.listToDocs conditions))]
  | .not condition          => docVariant "Not" [("condition", condition.toDoc)]
  | .allowAll               => .str "AllowAll"
  | .whitelist accounts     => docVariant "Whitelist" [("accounts", .arr (accounts.map fun a => .str a.name))]
  | .accountPattern pattern => docVariant "AccountPattern" [("pattern", .str pattern)]
  | .nearBalance operator value =>
      docVariant "NearBalance" [("operator", .str operator.name), ("value", .str (toString value))]
  | .ftBalance contract operator value =>
      docVariant "FtBalance"
        [("contract", .str contract.name), ("operator", .str operator.name), ("value", .str (toString value))]
  | .nftOwned contract tokenId =>
      docVariant "NftOwned" [("contract", .str contract.name), ("token_id", (tokenId.map Doc.str).getD .null)]
  | .daoMember daoContract role =>
      docVariant "DaoMember" [("dao_contract", .str daoContract.name), ("role", .str role)]
  | .validUntil untilNs     => docVariant "ValidUntil" [("until_ns", .str (toString untilNs))]
  | .wasmHash hash          => docVariant "WasmHash" [("hash", .str hash)]
  | .predecessor condition  => docVariant "Predecessor" [("condition", condition.toDoc)]

/-- The conditions of a list, each as its JSON document. -/
def AccessCondition.listToDocs : List AccessCondition → List Doc
  | []      => []
  | a :: as => a.toDoc :: AccessCondition.listToDocs as

end

/-! ## The text is the document, written -/

/-- `text` is what the writer writes for `d`. -/
def Writes (text : String) (d : Doc) : Prop := ∀ rest, text.toList ++ rest = write d rest

/-- `text` is one member of an object. -/
def WritesMember (text : String) (m : String × Doc) : Prop :=
  ∀ rest, text.toList ++ rest = writeString m.1 (':' :: write m.2 rest)

theorem writes_quote (s : String) : Writes (quote s) (.str s) := Json.quote_toList_append s

theorem writes_field {name text : String} {d : Doc} (h : Writes text d) :
    WritesMember (jsonField name text) (name, d) := by
  intro rest
  rw [← h rest, ← Json.quote_toList_append]
  simp only [jsonField, String.toList_append, List.append_assoc]
  rfl

/-- Texts joined with commas, given what the writer does with one and with two or more of them. -/
theorem writes_joined {α : Type} {W : String → α → Prop} (writeAll : List α → List Char → List Char)
    (one : ∀ {text a}, W text a → ∀ rest, text.toList ++ rest = writeAll [a] rest)
    (more : ∀ {text a b as}, W text a → ∀ rest,
      text.toList ++ ',' :: writeAll (b :: as) rest = writeAll (a :: b :: as) rest)
    {texts : List String} {as : List α} (h : List.Forall₂ W texts as) (none : ∀ rest, writeAll [] rest = rest)
    (rest : List Char) : (commaJoin texts).toList ++ rest = writeAll as rest := by
  induction h with
  | nil => exact (none rest).symm
  | @cons text a texts as hfirst htail ih =>
      cases htail with
      | nil => exact one hfirst rest
      | @cons text' b texts' bs hsecond hmore =>
          rw [← more hfirst, ← ih]
          simp only [commaJoin, String.toList_append, List.append_assoc]
          rfl

theorem writes_items {texts : List String} {ds : List Doc} (h : List.Forall₂ Writes texts ds)
    (rest : List Char) : (commaJoin texts).toList ++ rest = writeItems ds rest :=
  writes_joined writeItems (fun hw => hw) (fun hw _ => hw _) h (fun _ => rfl) rest

theorem writes_members {texts : List String} {ms : List (String × Doc)} (h : List.Forall₂ WritesMember texts ms)
    (rest : List Char) : (commaJoin texts).toList ++ rest = writeMembers ms rest :=
  writes_joined writeMembers (fun hw => hw) (fun hw _ => hw _) h (fun _ => rfl) rest

theorem writes_list {texts : List String} {ds : List Doc} (h : List.Forall₂ Writes texts ds) :
    Writes ("[" ++ commaJoin texts ++ "]") (.arr ds) := by
  intro rest
  show _ = '[' :: writeItems ds (']' :: rest)
  rw [← writes_items h]
  simp only [String.toList_append, List.append_assoc]
  rfl

theorem writes_object {texts : List String} {ms : List (String × Doc)} (h : List.Forall₂ WritesMember texts ms) :
    Writes (jsonObject texts) (.obj ms) := by
  intro rest
  show _ = '{' :: writeMembers ms ('}' :: rest)
  rw [← writes_members h]
  simp only [jsonObject, String.toList_append, List.append_assoc]
  rfl

theorem writes_variant (name : String) {texts : List String} {ms : List (String × Doc)}
    (h : List.Forall₂ WritesMember texts ms) : Writes (jsonVariant name texts) (docVariant name ms) :=
  writes_object (.cons (writes_field (writes_object h)) .nil)

theorem writes_accounts (accounts : List AccountId) :
    List.Forall₂ Writes (accounts.map fun a => quote a.name) (accounts.map fun a => Doc.str a.name) := by
  induction accounts with
  | nil => exact .nil
  | cons a as ih => exact .cons (writes_quote a.name) ih

theorem writes_tokenId (tokenId : Option String) :
    Writes ((tokenId.map quote).getD "null") ((tokenId.map Doc.str).getD .null) := by
  cases tokenId with
  | none => exact fun _ => rfl
  | some token => exact writes_quote token

mutual

/-- **The text of a condition is its document, written.** -/
theorem writes_toJson : ∀ a : AccessCondition, Writes a.toJson a.toDoc
  | .logic _ conditions =>
      writes_variant _ (.cons (writes_field (writes_quote _))
        (.cons (writes_field (writes_list (writes_listToJson conditions))) .nil))
  | .not condition => writes_variant _ (.cons (writes_field (writes_toJson condition)) .nil)
  | .allowAll => writes_quote _
  | .whitelist accounts => writes_variant _ (.cons (writes_field (writes_list (writes_accounts accounts))) .nil)
  | .accountPattern _ => writes_variant _ (.cons (writes_field (writes_quote _)) .nil)
  | .nearBalance _ _ =>
      writes_variant _ (.cons (writes_field (writes_quote _)) (.cons (writes_field (writes_quote _)) .nil))
  | .ftBalance _ _ _ =>
      writes_variant _ (.cons (writes_field (writes_quote _)) (.cons (writes_field (writes_quote _))
        (.cons (writes_field (writes_quote _)) .nil)))
  | .nftOwned _ tokenId =>
      writes_variant _ (.cons (writes_field (writes_quote _)) (.cons (writes_field (writes_tokenId tokenId)) .nil))
  | .daoMember _ _ =>
      writes_variant _ (.cons (writes_field (writes_quote _)) (.cons (writes_field (writes_quote _)) .nil))
  | .validUntil _ => writes_variant _ (.cons (writes_field (writes_quote _)) .nil)
  | .wasmHash _ => writes_variant _ (.cons (writes_field (writes_quote _)) .nil)
  | .predecessor condition => writes_variant _ (.cons (writes_field (writes_toJson condition)) .nil)

theorem writes_listToJson : ∀ as : List AccessCondition,
    List.Forall₂ Writes (AccessCondition.listToJson as) (AccessCondition.listToDocs as)
  | []      => .nil
  | a :: as => .cons (writes_toJson a) (writes_listToJson as)

end

/-! ## The text determines the condition -/

theorem docVariant_inj {name name' : String} {ms ms' : List (String × Doc)}
    (h : docVariant name ms = docVariant name' ms') : name = name' ∧ ms = ms' := by
  simpa [docVariant] using h

theorem LogicOperator.name_inj {a b : LogicOperator} (h : a.name = b.name) : a = b := by
  cases a <;> cases b <;> first | rfl | exact absurd h (by decide)

theorem ComparisonOperator.name_inj {a b : ComparisonOperator} (h : a.name = b.name) : a = b := by
  cases a <;> cases b <;> first | rfl | exact absurd h (by decide)

theorem AccountId.eq_of_name {a b : AccountId} (h : a.name = b.name) : a = b := by
  obtain ⟨_, _⟩ := a
  obtain ⟨_, _⟩ := b
  obtain rfl := h
  rfl

theorem tokenDoc_inj {a b : Option String} (h : (a.map Doc.str).getD .null = (b.map Doc.str).getD .null) : a = b := by
  cases a <;> cases b <;> first | rfl | cases h
  rfl

theorem accountDocs_inj {as bs : List AccountId}
    (h : (as.map fun a => Doc.str a.name) = bs.map fun a => Doc.str a.name) : as = bs := by
  refine List.map_injective_iff.mpr ?_ h
  intro a b hab
  exact AccountId.eq_of_name (Doc.str.inj hab)

mutual

/-- **The document of a condition determines it.** -/
theorem toDoc_inj : ∀ {a b : AccessCondition}, a.toDoc = b.toDoc → a = b
  | .logic op cs, b, h => by
      cases b with
      | logic op' cs' =>
          obtain ⟨-, hms⟩ := docVariant_inj h
          simp only [List.cons.injEq, Prod.mk.injEq, Doc.str.injEq, Doc.arr.injEq, true_and, and_true] at hms
          rw [LogicOperator.name_inj hms.1, listToDocs_inj hms.2]
      | allowAll => cases h
      | _ => exact absurd (docVariant_inj h).1 (by decide)
  | .not a, b, h => by
      cases b with
      | not a' =>
          obtain ⟨-, hms⟩ := docVariant_inj h
          simp only [List.cons.injEq, Prod.mk.injEq, true_and, and_true] at hms
          rw [toDoc_inj hms]
      | allowAll => cases h
      | _ => exact absurd (docVariant_inj h).1 (by decide)
  | .allowAll, b, h => by
      cases b with
      | allowAll => rfl
      | _ => cases h
  | .whitelist as, b, h => by
      cases b with
      | whitelist as' =>
          obtain ⟨-, hms⟩ := docVariant_inj h
          simp only [List.cons.injEq, Prod.mk.injEq, Doc.arr.injEq, true_and, and_true] at hms
          rw [accountDocs_inj hms]
      | allowAll => cases h
      | _ => exact absurd (docVariant_inj h).1 (by decide)
  | .accountPattern p, b, h => by
      cases b with
      | accountPattern p' =>
          obtain ⟨-, hms⟩ := docVariant_inj h
          simp only [List.cons.injEq, Prod.mk.injEq, Doc.str.injEq, true_and, and_true] at hms
          rw [hms]
      | allowAll => cases h
      | _ => exact absurd (docVariant_inj h).1 (by decide)
  | .nearBalance op n, b, h => by
      cases b with
      | nearBalance op' n' =>
          obtain ⟨-, hms⟩ := docVariant_inj h
          simp only [List.cons.injEq, Prod.mk.injEq, Doc.str.injEq, true_and, and_true] at hms
          rw [ComparisonOperator.name_inj hms.1, Text.toString_nat_inj hms.2]
      | allowAll => cases h
      | _ => exact absurd (docVariant_inj h).1 (by decide)
  | .ftBalance c op n, b, h => by
      cases b with
      | ftBalance c' op' n' =>
          obtain ⟨-, hms⟩ := docVariant_inj h
          simp only [List.cons.injEq, Prod.mk.injEq, Doc.str.injEq, true_and, and_true] at hms
          rw [AccountId.eq_of_name hms.1, ComparisonOperator.name_inj hms.2.1, Text.toString_nat_inj hms.2.2]
      | allowAll => cases h
      | _ => exact absurd (docVariant_inj h).1 (by decide)
  | .nftOwned c token, b, h => by
      cases b with
      | nftOwned c' token' =>
          obtain ⟨-, hms⟩ := docVariant_inj h
          simp only [List.cons.injEq, Prod.mk.injEq, Doc.str.injEq, true_and, and_true] at hms
          rw [AccountId.eq_of_name hms.1, tokenDoc_inj hms.2]
      | allowAll => cases h
      | _ => exact absurd (docVariant_inj h).1 (by decide)
  | .daoMember c role, b, h => by
      cases b with
      | daoMember c' role' =>
          obtain ⟨-, hms⟩ := docVariant_inj h
          simp only [List.cons.injEq, Prod.mk.injEq, Doc.str.injEq, true_and, and_true] at hms
          rw [AccountId.eq_of_name hms.1, hms.2]
      | allowAll => cases h
      | _ => exact absurd (docVariant_inj h).1 (by decide)
  | .validUntil n, b, h => by
      cases b with
      | validUntil n' =>
          obtain ⟨-, hms⟩ := docVariant_inj h
          simp only [List.cons.injEq, Prod.mk.injEq, Doc.str.injEq, true_and, and_true] at hms
          rw [Text.toString_nat_inj hms]
      | allowAll => cases h
      | _ => exact absurd (docVariant_inj h).1 (by decide)
  | .wasmHash s, b, h => by
      cases b with
      | wasmHash s' =>
          obtain ⟨-, hms⟩ := docVariant_inj h
          simp only [List.cons.injEq, Prod.mk.injEq, Doc.str.injEq, true_and, and_true] at hms
          rw [hms]
      | allowAll => cases h
      | _ => exact absurd (docVariant_inj h).1 (by decide)
  | .predecessor a, b, h => by
      cases b with
      | predecessor a' =>
          obtain ⟨-, hms⟩ := docVariant_inj h
          simp only [List.cons.injEq, Prod.mk.injEq, true_and, and_true] at hms
          rw [toDoc_inj hms]
      | allowAll => cases h
      | _ => exact absurd (docVariant_inj h).1 (by decide)

theorem listToDocs_inj : ∀ {as bs : List AccessCondition},
    AccessCondition.listToDocs as = AccessCondition.listToDocs bs → as = bs
  | [], [], _ => rfl
  | [], _ :: _, h => nomatch h
  | _ :: _, [], h => nomatch h
  | a :: as, b :: bs, h => by
      obtain ⟨ha, has⟩ := List.cons.inj h
      rw [toDoc_inj ha, listToDocs_inj has]

end

/-- **The text of a condition determines it.** -/
theorem toJson_inj {a b : AccessCondition} (h : a.toJson = b.toJson) : a = b := by
  have hwritten : write a.toDoc [] = write b.toDoc [] := by
    rw [← writes_toJson a, ← writes_toJson b, h]
  exact toDoc_inj (Json.write_inj hwritten).1

/-! ## The text among other texts -/

/-- The text of a condition opens like a named value. -/
theorem opensNamed_toJson (a : AccessCondition) : Json.OpensNamed a.toJson.toList := by
  have hwritten := writes_toJson a []
  rw [List.append_nil] at hwritten
  rw [hwritten]
  cases a <;> rfl

theorem colonsOk_toJson (a : AccessCondition) (prev : Char) : Json.ColonsOk prev a.toJson.toList := by
  have hwritten := writes_toJson a []
  rw [List.append_nil] at hwritten
  rw [hwritten]
  exact Json.colonsOk_write a.toDoc Json.calm_nil prev

end Outlayer
