import Outlayer.Worker.Tasks.Envelope

/-!
# `Worker.Correctness.Envelopes` — a task's envelope is one document

What is written is read back, record by record from the inside out: a record finds its own members under their names,
and knows each of them. So a document is of one envelope. What is read need not have been written here, and then it has
all the members of an envelope of its kind, each once, and no others.
-/

namespace Outlayer
open Text Json

namespace Worker
namespace Tasks

/-! ## Reading what was written -/

section RoundTrip
variable {number : String → Option String}

theorem Kind.ofJson_name (k : Kind) : Kind.ofJson (.str k.name) = some k := by cases k <;> rfl

theorem FieldKind.ofJson_name (k : FieldKind) : FieldKind.ofJson (.str k.name) = some k := by cases k <;> rfl

theorem WrittenBy.ofJson_name (w : WrittenBy) : WrittenBy.ofJson (.str w.name) = some w := by cases w <;> rfl

theorem Supplies.ofJson_name (s : Supplies) : Supplies.ofJson (.str s.name) = some s := by cases s <;> rfl

theorem Field.ofJson_toJson (f : Field) : Field.ofJson (f.toJson.renumber number) = some f := by
  have hkeys : f.toJson.Distinct := distinct_of_keys fieldFields rfl (by decide)
  have hknows : (f.toJson.renumber number).knows fieldFields = true := knows_renumber
  have hvalues : ((Value.arr (f.values.map Value.str)).renumber number).asList Value.asStr = some f.values :=
    asList_renumber f.values fun _ _ => rfl
  unfold Field.ofJson strictly
  rw [if_pos hknows]
  beta_reduce
  rw [required_renumber hkeys rfl (w := .str f.kind.name) rfl,
    required_renumber hkeys rfl (w := .str f.label) rfl,
    required_renumber hkeys rfl (w := .arr (f.values.map Value.str)) rfl,
    required_renumber hkeys rfl (w := .str f.writtenBy.name) rfl, hvalues]
  simp only [Value.renumber, FieldKind.ofJson_name, WrittenBy.ofJson_name, Value.asStr]
  rfl

theorem Display.ofJson_toJson (d : Display) : Display.ofJson (d.toJson.renumber number) = some d := by
  have hkeys : d.toJson.Distinct := distinct_of_keys displayFields rfl (by decide)
  have hknows : (d.toJson.renumber number).knows displayFields = true := knows_renumber
  have hfields : ((Value.arr (d.fields.map Field.toJson)).renumber number).asList Field.ofJson = some d.fields :=
    asList_renumber d.fields fun f _ => f.ofJson_toJson
  unfold Display.ofJson strictly
  rw [if_pos hknows]
  beta_reduce
  rw [required_renumber hkeys rfl (w := .arr (d.fields.map Field.toJson)) rfl,
    required_renumber hkeys rfl (w := .str d.title) rfl, hfields]
  rfl

theorem AnswerBy.ofJson_toJson (a : AnswerBy) : AnswerBy.ofJson (a.toJson.renumber number) = some a := by
  have hkeys : a.toJson.Distinct := distinct_of_keys answerFields rfl (by decide)
  have hknows : (a.toJson.renumber number).knows answerFields = true := knows_renumber
  unfold AnswerBy.ofJson strictly
  rw [if_pos hknows]
  beta_reduce
  rw [required_renumber hkeys rfl (w := .str a.operation) rfl,
    required_renumber hkeys rfl (w := .str a.supplies.name) rfl]
  simp only [Value.renumber, Supplies.ofJson_name, Value.asStr]
  rfl

/-- A whole number of 64 bits, or fewer, is read as it is. -/
theorem asUnsigned_ofNat (whole : WholeNumbers number) {w n : Nat} (hw : w ≤ 64) (hn : n < 2 ^ w) :
    ((Value.ofNat n).renumber number).asUnsigned w = some n := by
  have h := whole.asUnsigned hw hn
  rwa [← collapse_renumber, asUnsigned_collapse] at h

theorem FileNote.ofJson_toJson (whole : WholeNumbers number) (f : FileNote) :
    FileNote.ofJson (f.toJson.renumber number) = some f := by
  have hkeys : f.toJson.Distinct := distinct_of_keys fileFields rfl (by decide)
  have hknows : (f.toJson.renumber number).knows fileFields = true := knows_renumber
  have hsize := asUnsigned_ofNat whole (Nat.le_refl 64) f.size.toNat_lt
  unfold FileNote.ofJson strictly
  rw [if_pos hknows]
  beta_reduce
  rw [required_renumber hkeys rfl (w := .str f.contentType) rfl,
    required_renumber hkeys rfl (w := .str f.name) rfl, required_renumber hkeys rfl (w := .str f.sha256) rfl,
    required_renumber hkeys rfl (w := .ofNat f.size.toNat) rfl, hsize]
  simp only [Value.renumber, Value.asStr, Option.bind_eq_bind, Option.bind_some, UInt64.ofNat_toNat]
  rfl

/-- The members an envelope is written with. -/
def writtenFields (answers replies : Bool) : List String :=
  (if answers then ["answer_by"] else []) ++
    ["build", "created_at", "display", "expires_at", "files", "id", "kind", "owner", "policy_hash", "preparer",
     "profile", "project", "project_uuid"] ++
    (if replies then ["reply_pubkey"] else []) ++ ["state_hash", "thread", "v"]

theorem nodup_writtenFields : ∀ answers replies, (writtenFields answers replies).Nodup := by decide

theorem writtenFields_known : ∀ answers replies, ∀ name ∈ writtenFields answers replies, name ∈ envelopeFields := by
  decide

theorem keys_envelope (e : Envelope) : ∃ ms, e.toJson = .obj ms ∧
    ms.map Prod.fst = writtenFields e.answerBy.isSome e.replyPubkey.isSome := by
  refine ⟨_, rfl, ?_⟩
  cases e.answerBy <;> cases e.replyPubkey <;> rfl

theorem distinct_envelope (e : Envelope) : e.toJson.Distinct := by
  obtain ⟨ms, hms, hkeys⟩ := keys_envelope e
  rw [hms]
  exact distinct_of_keys _ hkeys (nodup_writtenFields _ _)

theorem knows_envelope (e : Envelope) : (e.toJson.renumber number).knows envelopeFields = true := by
  obtain ⟨ms, hms, hkeys⟩ := keys_envelope e
  rw [knows_renumber, hms]
  refine List.all_eq_true.mpr fun m hm => decide_eq_true ?_
  exact writtenFields_known e.answerBy.isSome e.replyPubkey.isSome m.1 (hkeys ▸ List.mem_map_of_mem hm)

theorem nullable_answerBy (e : Envelope) :
    (e.toJson.renumber number).nullable envelopeFields "answer_by" AnswerBy.ofJson = some e.answerBy := by
  cases hanswer : e.answerBy with
  | none =>
      refine nullable_renumber_absent ?_
      rw [hanswer]
      cases e.replyPubkey <;> rfl
  | some a =>
      have hnull : a.toJson.renumber number ≠ .null := by simp [AnswerBy.toJson, Value.renumber]
      refine nullable_renumber_some (distinct_envelope e) rfl ?_ a.ofJson_toJson hnull
      unfold Envelope.toJson
      rw [hanswer]
      rfl

theorem nullable_replyPubkey (e : Envelope) :
    (e.toJson.renumber number).nullable envelopeFields "reply_pubkey" Value.asStr = some e.replyPubkey := by
  cases hreply : e.replyPubkey with
  | none =>
      refine nullable_renumber_absent ?_
      rw [hreply]
      cases e.answerBy <;> rfl
  | some key =>
      refine nullable_renumber_some (w := .str key) (distinct_envelope e) rfl ?_ rfl (by simp [Value.renumber])
      unfold Envelope.toJson
      rw [hreply]
      cases e.answerBy <;> rfl

/-- The members that are always written, before the reply key. -/
def membersBefore (e : Envelope) : List (String × Value) :=
  [("build", .str e.build), ("created_at", .ofNat e.createdAt.toNat), ("display", e.display.toJson),
   ("expires_at", .ofNat e.expiresAt.toNat), ("files", .arr (e.files.map FileNote.toJson)), ("id", .str e.id),
   ("kind", .str e.kind.name), ("owner", .str e.owner), ("policy_hash", .str e.policyHash),
   ("preparer", .str e.preparer), ("profile", .str e.profile), ("project", .str e.project),
   ("project_uuid", .str e.projectUuid)]

/-- And after it. -/
def membersAfter (e : Envelope) : List (String × Value) :=
  [("state_hash", .str e.stateHash), ("thread", .str e.thread), ("v", .ofNat e.v.toNat)]

theorem lookup_writtenIfSome {α : Type} {write : α → Value} {o : Option α} {name key : String} (h : key ≠ name) :
    (writtenIfSome name write o).lookup key = none := by
  cases o with
  | none   => rfl
  | some a =>
      have hne : (key == name) = false := by simpa using h
      simp [writtenIfSome, List.lookup_cons, hne]

theorem get_envelope {e : Envelope} {key : String} {w : Value}
    (h : (membersBefore e ++ membersAfter e).lookup key = some w) : e.toJson.get key = some w := by
  have hanswer : key ≠ "answer_by" := by
    rintro rfl
    cases h
  have hreply : key ≠ "reply_pubkey" := by
    rintro rfl
    cases h
  have hmembers : e.toJson = .obj (writtenIfSome "answer_by" AnswerBy.toJson e.answerBy ++ membersBefore e ++
      writtenIfSome "reply_pubkey" .str e.replyPubkey ++ membersAfter e) := rfl
  rw [List.lookup_append] at h
  rw [hmembers]
  show List.lookup key _ = _
  rw [List.lookup_append, List.lookup_append, List.lookup_append, lookup_writtenIfSome hanswer,
    lookup_writtenIfSome hreply, Option.none_or, Option.or_none, h]

/-- A member that is always written. -/
theorem required_envelope {α : Type} {read : Value → Option α} {key : String} {w : Value} (e : Envelope)
    (h : (membersBefore e ++ membersAfter e).lookup key = some w) :
    (e.toJson.renumber number).required envelopeFields key read = read (w.renumber number) :=
  required_renumber (distinct_envelope e) rfl (get_envelope h)

theorem Envelope.ofJson_toJson (whole : WholeNumbers number) (e : Envelope) :
    Envelope.ofJson (e.toJson.renumber number) = some e := by
  have hfiles : ((Value.arr (e.files.map FileNote.toJson)).renumber number).asList FileNote.ofJson = some e.files :=
    asList_renumber e.files fun f _ => f.ofJson_toJson whole
  have hcreated := asUnsigned_ofNat whole (Nat.le_refl 64) e.createdAt.toNat_lt
  have hexpires := asUnsigned_ofNat whole (Nat.le_refl 64) e.expiresAt.toNat_lt
  have hv := asUnsigned_ofNat whole (by decide : 32 ≤ 64) e.v.toNat_lt
  unfold Envelope.ofJson strictly
  rw [if_pos (knows_envelope e)]
  beta_reduce
  rw [nullable_answerBy, nullable_replyPubkey, required_envelope (w := .str e.build) e rfl,
    required_envelope (w := .ofNat e.createdAt.toNat) e rfl, required_envelope (w := e.display.toJson) e rfl,
    required_envelope (w := .ofNat e.expiresAt.toNat) e rfl,
    required_envelope (w := .arr (e.files.map FileNote.toJson)) e rfl, required_envelope (w := .str e.id) e rfl,
    required_envelope (w := .str e.kind.name) e rfl, required_envelope (w := .str e.owner) e rfl,
    required_envelope (w := .str e.policyHash) e rfl, required_envelope (w := .str e.preparer) e rfl,
    required_envelope (w := .str e.profile) e rfl, required_envelope (w := .str e.project) e rfl,
    required_envelope (w := .str e.projectUuid) e rfl, required_envelope (w := .str e.stateHash) e rfl,
    required_envelope (w := .str e.thread) e rfl, required_envelope (w := .ofNat e.v.toNat) e rfl, hfiles, hcreated,
    hexpires, hv, e.display.ofJson_toJson]
  simp only [Value.renumber, Value.asStr, Kind.ofJson_name, Option.bind_eq_bind, Option.bind_some, UInt64.ofNat_toNat,
    UInt32.ofNat_toNat]
  rfl

/-! ## Depth -/

theorem Field.good (f : Field) {depth : Nat} (h : 2 < depth) : f.toJson.Good number depth := by
  refine ⟨by omega, trivial, trivial, ⟨by omega, goodElements_iff.mpr fun v hv => ?_⟩, trivial, trivial⟩
  obtain ⟨s, -, rfl⟩ := List.mem_map.mp hv
  trivial

theorem Display.good (d : Display) {depth : Nat} (h : 4 < depth) : d.toJson.Good number depth := by
  refine ⟨by omega, ⟨by omega, goodElements_iff.mpr fun v hv => ?_⟩, trivial, trivial⟩
  obtain ⟨f, -, rfl⟩ := List.mem_map.mp hv
  exact f.good (by omega)

theorem FileNote.good (whole : WholeNumbers number) (f : FileNote) {depth : Nat} (h : 1 < depth) :
    f.toJson.Good number depth :=
  ⟨h, trivial, trivial, trivial, whole.good (f.size.toNat_lt.trans (by decide)) _, trivial⟩

theorem good_writtenIfSome {α : Type} {name : String} {write : α → Value} {o : Option α} {depth : Nat}
    (h : ∀ a, (write a).Good number depth) : ∀ kv ∈ writtenIfSome name write o, kv.2.Good number depth := by
  cases o with
  | none   => exact fun kv hkv => absurd hkv List.not_mem_nil
  | some a =>
      intro kv hkv
      rw [List.mem_singleton.mp hkv]
      exact h a

theorem Envelope.good (whole : WholeNumbers number) (e : Envelope) : e.toJson.Good number recursionLimit := by
  have hbefore : GoodMembers number (recursionLimit - 1) (membersBefore e) := by
    refine ⟨trivial, whole.good (e.createdAt.toNat_lt.trans (by decide)) _, e.display.good (by decide),
      whole.good (e.expiresAt.toNat_lt.trans (by decide)) _, ⟨by decide, goodElements_iff.mpr fun v hv => ?_⟩, trivial,
      trivial, trivial, trivial, trivial, trivial, trivial, trivial, trivial⟩
    obtain ⟨f, -, rfl⟩ := List.mem_map.mp hv
    exact f.good whole (by decide)
  have hafter : GoodMembers number (recursionLimit - 1) (membersAfter e) :=
    ⟨trivial, trivial, whole.good (e.v.toNat_lt.trans (by decide)) _, trivial⟩
  have hanswer : ∀ kv ∈ writtenIfSome "answer_by" AnswerBy.toJson e.answerBy, kv.2.Good number (recursionLimit - 1) :=
    good_writtenIfSome fun a => ⟨by decide, trivial, trivial, trivial⟩
  have hreply : ∀ kv ∈ writtenIfSome "reply_pubkey" .str e.replyPubkey, kv.2.Good number (recursionLimit - 1) :=
    good_writtenIfSome fun _ => trivial
  refine ⟨by decide, goodMembers_iff.mpr fun kv hkv => ?_⟩
  rcases List.mem_append.mp hkv with hkv | hkv
  · rcases List.mem_append.mp hkv with hkv | hkv
    · rcases List.mem_append.mp hkv with hkv | hkv
      · exact hanswer kv hkv
      · exact goodMembers_iff.mp hbefore kv hkv
    · exact hreply kv hkv
  · exact goodMembers_iff.mp hafter kv hkv

/-! ## The document -/

/-- Kind, operation and reply key agree: all of an answer, or nothing of one. -/
def Envelope.Agrees (e : Envelope) : Prop :=
  e.answerBy.isSome = e.kind.takesAnAnswer ∧ e.replyPubkey.isSome = e.kind.takesAnAnswer

theorem checkKind_eq_ok {e : Envelope} : e.checkKind = .ok () ↔ e.Agrees := by
  unfold Envelope.checkKind Envelope.Agrees
  cases e.kind.takesAnAnswer <;> cases e.answerBy.isSome <;> cases e.replyPubkey.isSome <;> simp

theorem documentTree_toBytes (whole : WholeNumbers number) (e : Envelope) :
    documentTree number (utf8 e.toJson.compact) = some (e.toJson.renumber number) := by
  rw [documentTree, fromUtf8_utf8, Option.bind_some, parseTree_compact (e.good whole)]

/-- What is written is read back. -/
theorem fromBytes_toBytes (whole : WholeNumbers number) {e : Envelope} (h : e.Agrees) :
    e.toBytes.bind (Envelope.fromBytes number) = .ok e := by
  show Envelope.fromBytes number (utf8 e.toJson.compact) = .ok e
  rw [Envelope.fromBytes, documentTree_toBytes whole, Option.bind_some, e.ofJson_toJson whole]
  simp only [checkKind_eq_ok.mpr h, bind, Except.bind]

theorem fromBytes_eq_ok {bytes : List UInt8} {e : Envelope} :
    Envelope.fromBytes number bytes = .ok e ↔
      (∃ tree, documentTree number bytes = some tree ∧ Envelope.ofJson tree = some e) ∧ e.Agrees := by
  unfold Envelope.fromBytes
  rw [← checkKind_eq_ok, ← Option.bind_eq_some_iff]
  cases hread : (documentTree number bytes).bind Envelope.ofJson with
  | none => simp
  | some e' =>
      cases hkind : e'.checkKind with
      | error why =>
          constructor
          · intro h
            simp [hkind, bind, Except.bind] at h
          · rintro ⟨hsame, hok⟩
            rw [← Option.some.inj hsame, hkind] at hok
            cases hok
      | ok _ =>
          simp only [hkind, bind, Except.bind, Except.ok.injEq, Option.some.injEq]
          constructor
          · rintro rfl
            exact ⟨rfl, hkind⟩
          · exact fun h => h.1

/-- One document is of one envelope. -/
theorem toBytes_inj (whole : WholeNumbers number) {e e' : Envelope} (h : e.Agrees) (h' : e'.Agrees)
    (hsame : e.toBytes = e'.toBytes) : e = e' := by
  have hread := fromBytes_toBytes whole h
  rw [hsame, fromBytes_toBytes whole h'] at hread
  exact (Except.ok.inj hread).symm

end RoundTrip

/-! ## What is read -/

/-- The JSON of a field has each member of its record, and no other. -/
def Field.Complete (v : Value) : Prop := v.IsRecord fieldFields fieldFields

/-- The JSON of an answer's operation has each member of its record, and no other. -/
def AnswerBy.Complete (v : Value) : Prop := v.IsRecord answerFields answerFields

/-- The JSON of a file's note has each member of its record, and no other. -/
def FileNote.Complete (v : Value) : Prop := v.IsRecord fileFields fileFields

/-- The JSON of a display has each member of its record and no other, and so have its fields. -/
structure Display.Complete (v : Value) : Prop where
  record : v.IsRecord displayFields displayFields
  fields : ∀ w, v.member displayFields "fields" = some (some w) → ∃ vs, w = .arr vs ∧ ∀ u ∈ vs, Field.Complete u

/-- A tree with all the members of an envelope of a kind, each once, and no others, at every level. -/
structure Envelope.Complete (kind : Kind) (v : Value) : Prop where
  record : v.IsRecord envelopeFields (writtenFields kind.takesAnAnswer kind.takesAnAnswer)
  answerBy : ∀ w, v.member envelopeFields "answer_by" = some (some w) → w = .null ∨ AnswerBy.Complete w
  display : ∀ w, v.member envelopeFields "display" = some (some w) → Display.Complete w
  files : ∀ w, v.member envelopeFields "files" = some (some w) → ∃ vs, w = .arr vs ∧ ∀ u ∈ vs, FileNote.Complete u

section Read
variable {v : Value}

/-- A field is there. -/
def FieldThere (fields : List String) (name : String) (v : Value) : Prop := ∃ w, v.member fields name = some (some w)

theorem found_of_required {α : Type} {fields : List String} {name : String} {read : Value → Option α} {a : α}
    (h : v.required fields name read = some a) : FieldThere fields name v := by
  obtain ⟨w, hw, -⟩ := required_eq_some.mp h
  exact ⟨w, hw⟩

theorem isRecord_of_found {fields : List String} (hknows : v.knows fields = true) (hne : fields ≠ [])
    (h : ∀ name ∈ fields, FieldThere fields name v) : v.IsRecord fields fields := by
  refine isRecord_of_members hknows (fun name hname => ?_) hne h
  obtain ⟨w, hw⟩ := h name hname
  rw [hw]
  rfl

theorem strictly_eq_some {α : Type} {fields : List String} {read : Value → Option α} {a : α} :
    strictly fields read v = some a ↔ v.knows fields = true ∧ read v = some a := by
  unfold strictly
  split <;> simp_all

theorem complete_of_field {f : Field} (h : Field.ofJson v = some f) : Field.Complete v := by
  obtain ⟨hknows, h⟩ := strictly_eq_some.mp h
  simp only [Option.bind_eq_bind, Option.bind_eq_some_iff] at h
  obtain ⟨_, hkind, _, hlabel, _, hvalues, _, hwritten, -⟩ := h
  refine isRecord_of_found hknows (by decide) ?_
  simp only [fieldFields, List.forall_mem_cons]
  exact ⟨found_of_required hkind, found_of_required hlabel, found_of_required hvalues, found_of_required hwritten,
    fun _ hnil => absurd hnil List.not_mem_nil⟩

theorem complete_of_answerBy {a : AnswerBy} (h : AnswerBy.ofJson v = some a) : AnswerBy.Complete v := by
  obtain ⟨hknows, h⟩ := strictly_eq_some.mp h
  simp only [Option.bind_eq_bind, Option.bind_eq_some_iff] at h
  obtain ⟨_, hoperation, _, hsupplies, -⟩ := h
  refine isRecord_of_found hknows (by decide) ?_
  simp only [answerFields, List.forall_mem_cons]
  exact ⟨found_of_required hoperation, found_of_required hsupplies, fun _ hnil => absurd hnil List.not_mem_nil⟩

theorem complete_of_fileNote {f : FileNote} (h : FileNote.ofJson v = some f) : FileNote.Complete v := by
  obtain ⟨hknows, h⟩ := strictly_eq_some.mp h
  simp only [Option.bind_eq_bind, Option.bind_eq_some_iff] at h
  obtain ⟨_, htype, _, hname, _, hsha, _, hsize, -⟩ := h
  refine isRecord_of_found hknows (by decide) ?_
  simp only [fileFields, List.forall_mem_cons]
  exact ⟨found_of_required htype, found_of_required hname, found_of_required hsha, found_of_required hsize,
    fun _ hnil => absurd hnil List.not_mem_nil⟩

/-- An array whose elements are read is an array of what is read. -/
theorem elements_of_required {α : Type} {fields : List String} {name : String} {read : Value → Option α} {as : List α}
    {P : Value → Prop} (h : v.required fields name (Value.asList read) = some as) (hP : ∀ u a, read u = some a → P u) :
    ∀ w, v.member fields name = some (some w) → ∃ vs, w = .arr vs ∧ ∀ u ∈ vs, P u := by
  intro w hw
  obtain ⟨w', hw', hread⟩ := required_eq_some.mp h
  rw [hw] at hw'
  obtain rfl := Option.some.inj (Option.some.inj hw')
  obtain ⟨vs, rfl, hall⟩ := asList_eq_some hread
  refine ⟨vs, rfl, fun u hu => ?_⟩
  obtain ⟨a, ha⟩ := hall u hu
  exact hP u a ha

theorem complete_of_display {d : Display} (h : Display.ofJson v = some d) : Display.Complete v := by
  obtain ⟨hknows, h⟩ := strictly_eq_some.mp h
  simp only [Option.bind_eq_bind, Option.bind_eq_some_iff] at h
  obtain ⟨_, hfields, _, htitle, -⟩ := h
  refine ⟨isRecord_of_found hknows (by decide) ?_, elements_of_required hfields fun u f => complete_of_field⟩
  simp only [displayFields, List.forall_mem_cons]
  exact ⟨found_of_required hfields, found_of_required htitle, fun _ hnil => absurd hnil List.not_mem_nil⟩

/-- An optional field was looked for, and is there where it was read. -/
theorem found_of_nullable {α : Type} {fields : List String} {name : String} {read : Value → Option α} {o : Option α}
    (h : v.nullable fields name read = some o) :
    (v.member fields name).isSome = true ∧ (o.isSome = true → FieldThere fields name v) := by
  obtain ⟨found, hfound, hcase⟩ := nullable_eq_some h
  rw [hfound]
  refine ⟨rfl, fun hsome => ?_⟩
  rcases hcase with ⟨rfl, -⟩ | ⟨w, a, rfl, -, rfl⟩
  · cases hsome
  · exact ⟨w, hfound⟩

/-- What is read as an envelope whose kind agrees has every member of that kind. -/
theorem complete_of_envelope {e : Envelope} (h : Envelope.ofJson v = some e) (hagrees : e.Agrees) :
    Envelope.Complete e.kind v := by
  obtain ⟨hknows, h⟩ := strictly_eq_some.mp h
  obtain ⟨answerBy, hanswer, h⟩ := Option.bind_eq_some_iff.mp h
  obtain ⟨_, hbuild, h⟩ := Option.bind_eq_some_iff.mp h
  obtain ⟨_, hcreated, h⟩ := Option.bind_eq_some_iff.mp h
  obtain ⟨_, hdisplay, h⟩ := Option.bind_eq_some_iff.mp h
  obtain ⟨_, hexpires, h⟩ := Option.bind_eq_some_iff.mp h
  obtain ⟨_, hfiles, h⟩ := Option.bind_eq_some_iff.mp h
  obtain ⟨_, hid, h⟩ := Option.bind_eq_some_iff.mp h
  obtain ⟨_, hkind, h⟩ := Option.bind_eq_some_iff.mp h
  obtain ⟨_, howner, h⟩ := Option.bind_eq_some_iff.mp h
  obtain ⟨_, hpolicy, h⟩ := Option.bind_eq_some_iff.mp h
  obtain ⟨_, hpreparer, h⟩ := Option.bind_eq_some_iff.mp h
  obtain ⟨_, hprofile, h⟩ := Option.bind_eq_some_iff.mp h
  obtain ⟨_, hproject, h⟩ := Option.bind_eq_some_iff.mp h
  obtain ⟨_, huuid, h⟩ := Option.bind_eq_some_iff.mp h
  obtain ⟨replyPubkey, hreply, h⟩ := Option.bind_eq_some_iff.mp h
  obtain ⟨_, hstate, h⟩ := Option.bind_eq_some_iff.mp h
  obtain ⟨_, hthread, h⟩ := Option.bind_eq_some_iff.mp h
  obtain ⟨_, hv, h⟩ := Option.bind_eq_some_iff.mp h
  obtain rfl := Option.some.inj h
  obtain ⟨hanswerAgrees, hreplyAgrees⟩ := hagrees
  obtain ⟨hanswerThere, hanswerFound⟩ := found_of_nullable hanswer
  obtain ⟨hreplyThere, hreplyFound⟩ := found_of_nullable hreply
  have there : ∀ {name : String}, FieldThere envelopeFields name v → (v.member envelopeFields name).isSome = true := by
    rintro name ⟨w, hw⟩
    rw [hw]
    rfl
  have hbefore : ∀ name ∈ ["build", "created_at", "display", "expires_at", "files", "id", "kind", "owner",
      "policy_hash", "preparer", "profile", "project", "project_uuid"], FieldThere envelopeFields name v := by
    simp only [List.forall_mem_cons]
    exact ⟨found_of_required hbuild, found_of_required hcreated, found_of_required hdisplay,
      found_of_required hexpires, found_of_required hfiles, found_of_required hid, found_of_required hkind,
      found_of_required howner, found_of_required hpolicy, found_of_required hpreparer, found_of_required hprofile,
      found_of_required hproject, found_of_required huuid, fun _ hnil => absurd hnil List.not_mem_nil⟩
  have hafter : ∀ name ∈ ["state_hash", "thread", "v"], FieldThere envelopeFields name v := by
    simp only [List.forall_mem_cons]
    exact ⟨found_of_required hstate, found_of_required hthread, found_of_required hv,
      fun _ hnil => absurd hnil List.not_mem_nil⟩
  refine ⟨isRecord_of_members hknows ?_ (by decide) ?_, ?_, ?_, elements_of_required hfiles fun u f =>
    complete_of_fileNote⟩
  · intro name hname
    have hsplit : name = "answer_by" ∨ name = "reply_pubkey" ∨ name ∈ writtenFields false false :=
      (by decide : ∀ name ∈ envelopeFields, name = "answer_by" ∨ name = "reply_pubkey" ∨
        name ∈ writtenFields false false) name hname
    rcases hsplit with rfl | rfl | hwritten
    · exact hanswerThere
    · exact hreplyThere
    · rcases List.mem_append.mp hwritten with hwritten | hwritten
      · exact there (hbefore name (by simpa [writtenFields] using hwritten))
      · exact there (hafter name hwritten)
  · intro name hname
    rcases List.mem_append.mp hname with hname | hname
    · rcases List.mem_append.mp hname with hname | hname
      · rcases List.mem_append.mp hname with hname | hname
        · split at hname
          · next htakes =>
              rw [List.mem_singleton.mp hname]
              exact hanswerFound (hanswerAgrees.trans htakes)
          · exact absurd hname List.not_mem_nil
        · exact hbefore name hname
      · split at hname
        · next htakes =>
            rw [List.mem_singleton.mp hname]
            exact hreplyFound (hreplyAgrees.trans htakes)
        · exact absurd hname List.not_mem_nil
    · exact hafter name hname
  · intro w hw
    obtain ⟨found, hfound, hcase⟩ := nullable_eq_some hanswer
    rw [hw] at hfound
    obtain rfl := Option.some.inj hfound
    rcases hcase with ⟨-, hnone | hnull⟩ | ⟨w', a, hsome, hread, -⟩
    · cases hnone
    · exact .inl (Option.some.inj hnull)
    · obtain rfl := Option.some.inj hsome
      exact .inr (complete_of_answerBy hread)
  · intro w hw
    obtain ⟨w', hw', hread⟩ := required_eq_some.mp hdisplay
    rw [hw] at hw'
    obtain rfl := Option.some.inj (Option.some.inj hw')
    exact complete_of_display hread

end Read

end Tasks
end Worker
end Outlayer
