import Outlayer.Lib.Fields
import Outlayer.Worker.Correctness.Envelopes
import Outlayer.Worker.Tasks.Crypto
import Outlayer.Worker.Tasks.Client

/-!
# `Worker.Correctness.Sealing` — what is sealed for a task opens as that, and as nothing else

What a blob is for stands in the associated data, or in the derivation of the key. These texts are put together of a
label and the name of a task, and a name holds no colon, so each is of one task and one thing. With ideal ciphers a blob
that opens was sealed with the text it opens with.
-/

namespace Outlayer
open Text Json Fields

namespace Worker
namespace Tasks

variable {Key Secret Point Shared : Type} {C : Crates Key Secret Point Shared}

/-! ## The names of tasks -/

/-- A text that can name a task. -/
structure IsTaskName (task : String) : Prop where
  ne_empty : task ≠ ""
  chars : ∀ c ∈ task.toList, isIdChar c = true

theorem isTaskName_of_isId {task : String} (h : isId task = true) : IsTaskName task :=
  ⟨id_ne_empty h, fun _ hc => isIdChar_of_mem h hc⟩

theorem isIdChar_toString (n : Nat) : ∀ c ∈ (toString n).toList, isIdChar c = true := by
  intro c hc
  by_cases hdigit : c.isDigit = true
  · have hrange : inRange '0' '9' c = true := by
      simpa [inRange, Char.isDigit, UInt32.le_iff_toNat_le] using hdigit
    simp [isIdChar, hrange]
  · exact absurd hc (not_mem_toString (by simpa using hdigit) n)

/-- Whatever a run is named by, the tasks it opens have names. -/
theorem isTaskName_taskId (callId : Option String) (requestId opened : Nat) :
    IsTaskName (taskId (runId callId requestId) opened) := by
  have hrun : ∀ c ∈ (runId callId requestId).toList, isIdChar c = true := by
    have hrequest : ∀ c ∈ ("req-" ++ toString requestId).toList, isIdChar c = true := by
      intro c hc
      rw [String.toList_append, List.mem_append] at hc
      rcases hc with hc | hc
      · exact List.all_eq_true.mp (by decide : "req-".toList.all isIdChar = true) c hc
      · exact isIdChar_toString requestId c hc
    unfold runId
    split
    · split
      · next call hcall => exact fun c hc => isIdChar_of_mem hcall hc
      · exact hrequest
    · exact hrequest
  constructor
  · intro hempty
    have hlist := congrArg String.toList hempty
    simp [taskId] at hlist
  · intro c hc
    simp only [taskId, String.toList_append, List.mem_append] at hc
    rcases hc with (hc | hc) | hc
    · exact hrun c hc
    · exact List.all_eq_true.mp (by decide : "-".toList.all isIdChar = true) c hc
    · exact isIdChar_toString opened c hc

theorem IsTaskName.no_colon {task : String} (h : IsTaskName task) : ':' ∉ task.toList := fun hmem =>
  absurd (h.chars ':' hmem) (by decide)

/-! ## The texts that blobs are bound to -/

/-- A label without a colon, a colon and a name. -/
theorem labelled_inj {head label label' task task' : String} (hlabel : ':' ∉ label.toList)
    (hlabel' : ':' ∉ label'.toList) (h : head ++ label ++ ":" ++ task = head ++ label' ++ ":" ++ task') :
    label = label' ∧ task = task' := by
  have hchars := congrArg String.toList h
  simp only [String.toList_append, List.append_assoc, List.append_cancel_left_eq] at hchars
  obtain ⟨hlabels, htasks⟩ := cut_first hlabel hlabel' hchars
  exact ⟨String.toList_inj.mp hlabels, String.toList_inj.mp htasks⟩

theorem Sealed.label_inj {what what' : Sealed} (h : what.label = what'.label) : what = what' := by
  cases what <;> cases what' <;> first | rfl | exact absurd h (by decide)

theorem Purpose.label_inj {purpose purpose' : Purpose} (h : purpose.label = purpose'.label) : purpose = purpose' := by
  cases purpose <;> cases purpose' <;> first | rfl | exact absurd h (by decide)

theorem sealedAad_inj {what what' : Sealed} {task task' : String} (h : sealedAad what task = sealedAad what' task') :
    what = what' ∧ task = task' := by
  have hlabels : ∀ what : Sealed, ':' ∉ what.label.toList := by
    intro what
    cases what <;> decide
  obtain ⟨hwhat, htask⟩ := labelled_inj (hlabels what) (hlabels what') (utf8_inj h)
  exact ⟨Sealed.label_inj hwhat, htask⟩

theorem Purpose.info_inj {purpose purpose' : Purpose} {task task' : String}
    (h : purpose.info task = purpose'.info task') : purpose = purpose' ∧ task = task' := by
  have hlabels : ∀ purpose : Purpose, ':' ∉ purpose.label.toList := by
    intro purpose
    cases purpose <;> decide
  obtain ⟨hpurpose, htask⟩ := labelled_inj (hlabels purpose) (hlabels purpose') (utf8_inj h)
  exact ⟨Purpose.label_inj hpurpose, htask⟩

theorem fileAad_chars (task : String) (place : Nat) :
    (task ++ ":file:" ++ toString place).toList =
      task.toList ++ ':' :: ("file:".toList ++ (toString place).toList) := by
  simp only [String.toList_append, List.append_assoc]
  rfl

/-- The place of a file is found after the name of the task. -/
theorem fileAad_inj {task task' : String} {place place' : Nat} (hname : IsTaskName task) (hname' : IsTaskName task')
    (h : fileAad task place = fileAad task' place') : place = place' ∧ task = task' := by
  have hchars := congrArg String.toList (utf8_inj h)
  rw [fileAad_chars, fileAad_chars] at hchars
  obtain ⟨htask, hplace⟩ := cut_first hname.no_colon hname'.no_colon hchars
  rw [List.append_cancel_left_eq] at hplace
  exact ⟨toString_nat_inj (String.toList_inj.mp hplace), String.toList_inj.mp htask⟩

/-- A name holds no colon, and the data of a file does. -/
theorem fileAad_ne_name {task task' : String} {place : Nat} (hname : IsTaskName task) :
    utf8 task ≠ fileAad task' place := by
  intro h
  apply hname.no_colon
  rw [utf8_inj h, fileAad_chars]
  simp

theorem utf8_ne_nil {s : String} (h : s ≠ "") : utf8 s ≠ [] := fun hnil => h (utf8_inj (t := "") (hnil.trans rfl))

theorem fileAad_ne_nil (task : String) (place : Nat) : fileAad task place ≠ [] := by
  refine utf8_ne_nil fun hempty => ?_
  have hchars := congrArg String.toList hempty
  rw [fileAad_chars] at hchars
  simp at hchars

/-! ## What was sealed opens -/

/-- What the libraries document. -/
structure Crates.Lawful (C : Crates Key Secret Point Shared) : Prop where
  xchacha : C.xchacha.Lawful tagLen
  aesGcm : C.aesGcm.Lawful tagLen
  encodePoint_length : ∀ p, (C.encodePoint p).length = pointLen
  fromSec1Bytes_encodePoint : ∀ p, C.fromSec1Bytes (C.encodePoint p) = some p
  agree : ∀ a b, C.diffieHellman a (C.publicKey b) = C.diffieHellman b (C.publicKey a)

section Reopening
variable {keys : TaskKeys Key Secret} {key : Key} {secret ephemeral : Secret} {recipient : Point} {what : Sealed}
  {purpose : Purpose} {task : String} {place : Nat} {nonce : Option (List UInt8)}
  {associated plaintext blob : List UInt8}

theorem Crates.sealBlob_eq_ok (h : C.sealBlob keys what task nonce plaintext = .ok blob) :
    ∃ n ct, nonce = some n ∧ C.xchacha.encrypt keys.sealKey n (sealedAad what task) plaintext = some ct ∧
      blob = formatByte :: (n ++ ct) := by
  unfold Crates.sealBlob at h
  split at h
  · cases h
  · next n =>
      split at h
      · cases h
      · next ct hct => exact ⟨n, ct, rfl, hct, (Except.ok.inj h).symm⟩

theorem Crates.openBlob_eq_ok : C.openBlob keys what task blob = .ok plaintext ↔
    ¬(blob.length < 1 + xnonceLen + tagLen ∨ blob.head? ≠ some formatByte) ∧
      C.xchacha.decrypt keys.sealKey ((blob.drop 1).take xnonceLen) (sealedAad what task)
        (blob.drop (1 + xnonceLen)) = some plaintext := by
  unfold Crates.openBlob
  by_cases hshape : blob.length < 1 + xnonceLen + tagLen ∨ blob.head? ≠ some formatByte
  · simp [hshape]
  · rw [if_neg hshape]
    cases C.xchacha.decrypt keys.sealKey ((blob.drop 1).take xnonceLen) (sealedAad what task)
      (blob.drop (1 + xnonceLen)) <;> simp [hshape]

theorem Crates.encryptUnder_eq_ok (h : C.encryptUnder key associated nonce plaintext = .ok blob) :
    ∃ n ct, nonce = some n ∧ C.aesGcm.encrypt key n associated plaintext = some ct ∧
      blob = formatByte :: (n ++ ct) := by
  unfold Crates.encryptUnder at h
  split at h
  · cases h
  · next n =>
      split at h
      · cases h
      · next ct hct => exact ⟨n, ct, rfl, hct, (Except.ok.inj h).symm⟩

theorem Crates.decryptUnder_eq_ok : C.decryptUnder key associated blob = .ok plaintext ↔
    ¬(blob.length < 1 + gcmNonceLen + tagLen ∨ blob.head? ≠ some formatByte) ∧
      C.aesGcm.decrypt key ((blob.drop 1).take gcmNonceLen) associated (blob.drop (1 + gcmNonceLen)) =
        some plaintext := by
  unfold Crates.decryptUnder
  by_cases hshape : blob.length < 1 + gcmNonceLen + tagLen ∨ blob.head? ≠ some formatByte
  · simp [hshape]
  · rw [if_neg hshape]
    cases C.aesGcm.decrypt key ((blob.drop 1).take gcmNonceLen) associated (blob.drop (1 + gcmNonceLen)) <;>
      simp [hshape]

/-- The key of what `ephemeral` seals to `recipient`. -/
def Crates.sealingKey (C : Crates Key Secret Point Shared) (recipient : Point) (purpose : Purpose) (task : String)
    (ephemeral : Secret) : Key :=
  C.eciesKey (C.diffieHellman ephemeral recipient) (C.encodePoint (C.publicKey ephemeral)) (C.encodePoint recipient)
    purpose task

theorem Crates.sealTo_eq_ok (h : C.sealTo recipient purpose task ephemeral nonce plaintext = .ok blob) :
    ∃ n ct, nonce = some n ∧ C.aesGcm.encrypt (C.sealingKey recipient purpose task ephemeral) n [] plaintext = some ct ∧
      blob = formatByte :: (C.encodePoint (C.publicKey ephemeral) ++ (n ++ ct)) := by
  simp only [Crates.sealTo] at h
  split at h
  · cases h
  · next n =>
      split at h
      · cases h
      · next ct hct => exact ⟨n, ct, rfl, hct, (Except.ok.inj h).symm⟩

/-- The key of a blob with `point` in front, as the holder of `secret` derives it; `from_` is the point. -/
def Crates.openingKey (C : Crates Key Secret Point Shared) (secret : Secret) (purpose : Purpose) (task : String)
    (point : List UInt8) (from_ : Point) : Key :=
  C.eciesKey (C.diffieHellman secret from_) point (C.encodePoint (C.publicKey secret)) purpose task

theorem Crates.openFrom_eq_ok : C.openFrom secret purpose task blob = .ok plaintext ↔
    ¬(blob.length < 1 + pointLen + gcmNonceLen + tagLen ∨ blob.head? ≠ some formatByte) ∧
      ∃ from_, C.fromSec1Bytes ((blob.drop 1).take pointLen) = some from_ ∧
        C.aesGcm.decrypt (C.openingKey secret purpose task ((blob.drop 1).take pointLen) from_)
          ((blob.drop (1 + pointLen)).take gcmNonceLen) [] (blob.drop (1 + pointLen + gcmNonceLen)) =
            some plaintext := by
  simp only [Crates.openFrom]
  by_cases hshape : blob.length < 1 + pointLen + gcmNonceLen + tagLen ∨ blob.head? ≠ some formatByte
  · simp [hshape]
  · rw [if_neg hshape]
    cases hpoint : C.fromSec1Bytes ((blob.drop 1).take pointLen) with
    | none => simp
    | some from_ =>
        simp only [Crates.openingKey, Option.some.injEq, exists_eq_left', hshape, not_false_eq_true, true_and]
        cases C.aesGcm.decrypt (C.eciesKey (C.diffieHellman secret from_) ((blob.drop 1).take pointLen)
          (C.encodePoint (C.publicKey secret)) purpose task)
          ((blob.drop (1 + pointLen)).take gcmNonceLen) [] (blob.drop (1 + pointLen + gcmNonceLen)) <;> simp

/-- Header, ciphertext and tag are all there. -/
theorem header_shape {header rest : List UInt8} {n : Nat} (h : header.length = n) {p : List UInt8}
    (hrest : rest.length = p.length + tagLen) :
    ¬((formatByte :: (header ++ rest)).length < 1 + n + tagLen ∨
      (formatByte :: (header ++ rest)).head? ≠ some formatByte) := by
  rintro (hlen | hhead)
  · simp only [List.length_cons, List.length_append] at hlen
    omega
  · exact hhead rfl

namespace Crates.Lawful

theorem openBlob_sealBlob (hlaw : C.Lawful) {n : List UInt8} (hn : n.length = xnonceLen)
    (h : C.sealBlob keys what task (some n) plaintext = .ok blob) : C.openBlob keys what task blob = .ok plaintext := by
  obtain ⟨_, ct, hsome, hct, rfl⟩ := sealBlob_eq_ok h
  obtain rfl := Option.some.inj hsome
  obtain ⟨hnonce, hsealed⟩ := header_parts ct hn
  refine openBlob_eq_ok.mpr ⟨header_shape hn (hlaw.xchacha.length_encrypt hct), ?_⟩
  rw [hnonce, hsealed]
  exact hlaw.xchacha.decrypt_encrypt hct

theorem decryptUnder_encryptUnder (hlaw : C.Lawful) {n : List UInt8} (hn : n.length = gcmNonceLen)
    (h : C.encryptUnder key associated (some n) plaintext = .ok blob) :
    C.decryptUnder key associated blob = .ok plaintext := by
  obtain ⟨_, ct, hsome, hct, rfl⟩ := encryptUnder_eq_ok h
  obtain rfl := Option.some.inj hsome
  obtain ⟨hnonce, hsealed⟩ := header_parts ct hn
  refine decryptUnder_eq_ok.mpr ⟨header_shape hn (hlaw.aesGcm.length_encrypt hct), ?_⟩
  rw [hnonce, hsealed]
  exact hlaw.aesGcm.decrypt_encrypt hct

/-- The holder of the secret derives the key that was sealed with. -/
theorem openingKey_eq (hlaw : C.Lawful) : C.openingKey secret purpose task (C.encodePoint (C.publicKey ephemeral))
    (C.publicKey ephemeral) = C.sealingKey (C.publicKey secret) purpose task ephemeral := by
  rw [openingKey, sealingKey, hlaw.agree]

theorem openFrom_sealTo (hlaw : C.Lawful) {n : List UInt8} (hn : n.length = gcmNonceLen)
    (h : C.sealTo (C.publicKey secret) purpose task ephemeral (some n) plaintext = .ok blob) :
    C.openFrom secret purpose task blob = .ok plaintext := by
  obtain ⟨_, ct, hsome, hct, rfl⟩ := sealTo_eq_ok h
  obtain rfl := Option.some.inj hsome
  have hlen := hlaw.encodePoint_length (C.publicKey ephemeral)
  obtain ⟨hpoint, hrest⟩ := header_parts (n ++ ct) hlen
  have hsealed : (formatByte :: (C.encodePoint (C.publicKey ephemeral) ++ (n ++ ct))).drop
      (1 + pointLen + gcmNonceLen) = ct := by rw [← List.drop_drop, hrest, ← hn, List.drop_left]
  have hheader : (C.encodePoint (C.publicKey ephemeral) ++ n).length = pointLen + gcmNonceLen := by
    rw [List.length_append, hlen, hn]
  have hshape := header_shape hheader (hlaw.aesGcm.length_encrypt hct)
  rw [List.append_assoc, ← Nat.add_assoc] at hshape
  refine openFrom_eq_ok.mpr ⟨hshape, C.publicKey ephemeral, ?_, ?_⟩
  · rw [hpoint, hlaw.fromSec1Bytes_encodePoint]
  · rw [hpoint, hlaw.openingKey_eq, hsealed, hrest, ← hn, List.take_left]
    exact hlaw.aesGcm.decrypt_encrypt hct

end Crates.Lawful
end Reopening

/-! ## And opens as nothing else -/

/-- The two ciphers. -/
inductive Cipher
  | xchacha
  | aesGcm
deriving DecidableEq

/-- The function a cipher's crate has. -/
def Crates.cipher (C : Crates Key Secret Point Shared) : Cipher → Aead Key
  | .xchacha => C.xchacha
  | .aesGcm  => C.aesGcm

/-- One use of one of the ciphers. -/
structure Use (Key : Type) where
  cipher : Cipher
  sealing : Sealing Key

/-- What one use of a cipher makes. -/
def Use.ciphertext (C : Crates Key Secret Point Shared) (u : Use Key) : Option (List UInt8) :=
  (C.cipher u.cipher).encrypt u.sealing.key u.sealing.nonce u.sealing.associated u.sealing.plaintext

/-- The libraries as ideal ones. `made` is every use that has been made of the ciphers, by anyone. -/
structure Crates.Ideal (C : Crates Key Secret Point Shared) (made : Use Key → Prop) : Prop where
  authentic : ∀ cipher, (C.cipher cipher).Authentic fun sealing => made ⟨cipher, sealing⟩
  /-- a ciphertext is as if drawn for its use: no other use has one that it ends -/
  fresh : ∀ {u u' c c'}, made u → made u' → u.ciphertext C = some c → u'.ciphertext C = some c' → c <:+ c' → u = u'
  /-- a key in use was derived for one purpose -/
  derived : ∀ {u shared salt info shared' salt' info'}, made u → u.sealing.key = C.hkdf shared salt info →
    u.sealing.key = C.hkdf shared' salt' info' → info = info'

/-- What is sealed for a task: the two blobs of the enclave, the content, its files, and what is encrypted to a key. -/
inductive Thing
  | sealed (what : Sealed)
  | content
  | file (place : Nat)
  | encrypted (purpose : Purpose)
deriving DecidableEq

/-- A use of a cipher for one thing of one task. -/
def Use.IsFor (C : Crates Key Secret Point Shared) (u : Use Key) : Thing → (task : String) → Prop
  | .sealed what, task => u.cipher = .xchacha ∧ u.sealing.associated = sealedAad what task
  | .content, task => u.cipher = .aesGcm ∧ u.sealing.associated = utf8 task
  | .file place, task => u.cipher = .aesGcm ∧ u.sealing.associated = fileAad task place
  | .encrypted purpose, task => u.cipher = .aesGcm ∧ u.sealing.associated = [] ∧
      ∃ shared salt, u.sealing.key = C.hkdf shared salt (purpose.info task)

/-- `blob` was sealed as `thing` of `task`, by the use `u` of a cipher. -/
inductive Seals (C : Crates Key Secret Point Shared) : Thing → (task : String) → (u : Use Key) → List UInt8 → Prop
  | sealed {keys what task n plaintext blob} (h : C.sealBlob keys what task (some n) plaintext = .ok blob) :
      Seals C (.sealed what) task ⟨.xchacha, keys.sealKey, n, sealedAad what task, plaintext⟩ blob
  | content {key task n plaintext blob} (h : C.encryptContent key task (some n) plaintext = .ok blob) :
      Seals C .content task ⟨.aesGcm, key, n, utf8 task, plaintext⟩ blob
  | file {key task place n plaintext blob} (h : C.encryptFile key task place (some n) plaintext = .ok blob) :
      Seals C (.file place) task ⟨.aesGcm, key, n, fileAad task place, plaintext⟩ blob
  | encrypted {recipient purpose task ephemeral n plaintext blob}
      (h : C.sealTo recipient purpose task ephemeral (some n) plaintext = .ok blob) :
      Seals C (.encrypted purpose) task
        ⟨.aesGcm, C.sealingKey recipient purpose task ephemeral, n, [], plaintext⟩ blob

/-- `blob` opens as `thing` of `task` with somebody's key, to `plaintext`. -/
inductive Opens (C : Crates Key Secret Point Shared) : Thing → (task : String) → (blob plaintext : List UInt8) → Prop
  | sealed {keys what task blob plaintext} (h : C.openBlob keys what task blob = .ok plaintext) :
      Opens C (.sealed what) task blob plaintext
  | content {key task blob plaintext} (h : C.decryptContent key task blob = .ok plaintext) :
      Opens C .content task blob plaintext
  | file {key task place blob plaintext} (h : C.decryptFile key task place blob = .ok plaintext) :
      Opens C (.file place) task blob plaintext
  | encrypted {secret purpose task blob plaintext} (h : C.openFrom secret purpose task blob = .ok plaintext) :
      Opens C (.encrypted purpose) task blob plaintext

section Separation
variable {made : Use Key → Prop} {u : Use Key} {thing thing' : Thing} {task task' : String}
  {blob plaintext : List UInt8}

/-- A use is for one thing of one task. -/
theorem Crates.Ideal.isFor_unique (hideal : C.Ideal made) (hmade : made u) (hname : IsTaskName task)
    (hname' : IsTaskName task') (h : u.IsFor C thing task) (h' : u.IsFor C thing' task') :
    thing = thing' ∧ task = task' := by
  cases thing with
  | sealed what =>
      cases thing' with
      | sealed what' =>
          obtain ⟨rfl, htask⟩ := sealedAad_inj (h.2.symm.trans h'.2)
          exact ⟨rfl, htask⟩
      | content | file _ | encrypted _ => cases h.1.symm.trans h'.1
  | content =>
      cases thing' with
      | sealed _ => cases h.1.symm.trans h'.1
      | content => exact ⟨rfl, utf8_inj (h.2.symm.trans h'.2)⟩
      | file place => exact absurd (h.2.symm.trans h'.2) (fileAad_ne_name hname)
      | encrypted _ => exact absurd (h.2.symm.trans h'.2.1) (utf8_ne_nil hname.ne_empty)
  | file place =>
      cases thing' with
      | sealed _ => cases h.1.symm.trans h'.1
      | content => exact absurd (h'.2.symm.trans h.2) (fileAad_ne_name hname')
      | file place' =>
          obtain ⟨rfl, htask⟩ := fileAad_inj hname hname' (h.2.symm.trans h'.2)
          exact ⟨rfl, htask⟩
      | encrypted _ => exact absurd (h.2.symm.trans h'.2.1) (fileAad_ne_nil task place)
  | encrypted purpose =>
      obtain ⟨hcipher, hnone, shared, salt, hkey⟩ := h
      cases thing' with
      | sealed _ => cases hcipher.symm.trans h'.1
      | content => exact absurd (h'.2.symm.trans hnone) (utf8_ne_nil hname'.ne_empty)
      | file place => exact absurd (h'.2.symm.trans hnone) (fileAad_ne_nil task' place)
      | encrypted purpose' =>
          obtain ⟨-, -, shared', salt', hkey'⟩ := h'
          obtain ⟨rfl, htask⟩ := Purpose.info_inj (hideal.derived hmade hkey hkey')
          exact ⟨rfl, htask⟩

/-- The use that sealed a blob: it is for that thing of that task, and its ciphertext stands at the end. -/
theorem Seals.isFor (h : Seals C thing task u blob) :
    u.IsFor C thing task ∧ ∃ ct, u.ciphertext C = some ct ∧ ct <:+ blob := by
  cases h with
  | sealed h =>
      obtain ⟨_, ct, hsome, hct, rfl⟩ := Crates.sealBlob_eq_ok h
      obtain rfl := Option.some.inj hsome
      exact ⟨⟨rfl, rfl⟩, ct, hct, formatByte :: _, rfl⟩
  | content h =>
      obtain ⟨_, ct, hsome, hct, rfl⟩ := Crates.encryptUnder_eq_ok h
      obtain rfl := Option.some.inj hsome
      exact ⟨⟨rfl, rfl⟩, ct, hct, formatByte :: _, rfl⟩
  | file h =>
      obtain ⟨_, ct, hsome, hct, rfl⟩ := Crates.encryptUnder_eq_ok h
      obtain rfl := Option.some.inj hsome
      exact ⟨⟨rfl, rfl⟩, ct, hct, formatByte :: _, rfl⟩
  | encrypted h =>
      obtain ⟨n, ct, hsome, hct, rfl⟩ := Crates.sealTo_eq_ok h
      obtain rfl := Option.some.inj hsome
      refine ⟨⟨rfl, rfl, _, _, rfl⟩, ct, hct, ?_⟩
      rw [← List.append_assoc, ← List.cons_append]
      exact List.suffix_append _ ct

/-- Whatever opens was sealed by somebody, as what it opens as. -/
theorem Crates.Ideal.exists_use (hideal : C.Ideal made) (h : Opens C thing task blob plaintext) :
    ∃ u, made u ∧ u.IsFor C thing task ∧ u.sealing.plaintext = plaintext ∧
      ∃ ct, u.ciphertext C = some ct ∧ ct <:+ blob := by
  cases h with
  | sealed h =>
      obtain ⟨-, hopen⟩ := openBlob_eq_ok.mp h
      obtain ⟨hmade, hct⟩ := hideal.authentic .xchacha hopen
      exact ⟨_, hmade, ⟨rfl, rfl⟩, rfl, _, hct, List.drop_suffix _ _⟩
  | content h =>
      obtain ⟨-, hopen⟩ := decryptUnder_eq_ok.mp h
      obtain ⟨hmade, hct⟩ := hideal.authentic .aesGcm hopen
      exact ⟨_, hmade, ⟨rfl, rfl⟩, rfl, _, hct, List.drop_suffix _ _⟩
  | file h =>
      obtain ⟨-, hopen⟩ := decryptUnder_eq_ok.mp h
      obtain ⟨hmade, hct⟩ := hideal.authentic .aesGcm hopen
      exact ⟨_, hmade, ⟨rfl, rfl⟩, rfl, _, hct, List.drop_suffix _ _⟩
  | encrypted h =>
      obtain ⟨-, from_, -, hopen⟩ := openFrom_eq_ok.mp h
      obtain ⟨hmade, hct⟩ := hideal.authentic .aesGcm hopen
      exact ⟨_, hmade, ⟨rfl, rfl, _, _, rfl⟩, rfl, _, hct, List.drop_suffix _ _⟩

/-- A blob opens as the thing it was sealed as, of the task it was sealed for, to what was sealed. -/
theorem Crates.Ideal.opens_as_sealed (hideal : C.Ideal made) (hname : IsTaskName task) (hname' : IsTaskName task')
    (hseal : Seals C thing task u blob) (hmade : made u) (hopen : Opens C thing' task' blob plaintext) :
    (thing = thing' ∧ task = task') ∧ plaintext = u.sealing.plaintext := by
  obtain ⟨hfor, ct, hct, hend⟩ := hseal.isFor
  obtain ⟨u', hmade', hfor', hplaintext, ct', hct', hend'⟩ := hideal.exists_use hopen
  have hsame : u = u' := by
    -- both ciphertexts stand at the end of the blob
    rcases List.suffix_or_suffix_of_suffix hend hend' with hshort | hshort
    · exact hideal.fresh hmade hmade' hct hct' hshort
    · exact (hideal.fresh hmade' hmade hct' hct hshort).symm
  subst hsame
  exact ⟨hideal.isFor_unique hmade hname hname' hfor hfor', hplaintext.symm⟩

end Separation

/-! ## The task's document and its blobs -/

/-- Everything that is sealed for a task opens, under the same keys. -/
structure Crates.Reopens (C : Crates Key Secret Point Shared) : Prop where
  blob : ∀ {keys what task n plaintext blob}, n.length = xnonceLen →
    C.sealBlob keys what task (some n) plaintext = .ok blob → C.openBlob keys what task blob = .ok plaintext
  content : ∀ {key task n plaintext blob}, n.length = gcmNonceLen →
    C.encryptContent key task (some n) plaintext = .ok blob → C.decryptContent key task blob = .ok plaintext
  file : ∀ {key task place n plaintext blob}, n.length = gcmNonceLen →
    C.encryptFile key task place (some n) plaintext = .ok blob → C.decryptFile key task place blob = .ok plaintext
  encrypted : ∀ {secret purpose task ephemeral n plaintext blob}, n.length = gcmNonceLen →
    C.sealTo (C.publicKey secret) purpose task ephemeral (some n) plaintext = .ok blob →
      C.openFrom secret purpose task blob = .ok plaintext

theorem Crates.Lawful.reopens (hlaw : C.Lawful) : C.Reopens :=
  ⟨hlaw.openBlob_sealBlob, hlaw.decryptUnder_encryptUnder, hlaw.decryptUnder_encryptUnder, hlaw.openFrom_sealTo⟩

/-- An envelope whose kind agrees is read back from its document, so two envelopes have two documents, and two hashes
    where the two do not collide. What is read agrees, was complete, and is written and read again as it is. What is
    sealed for a task opens; with ideal ciphers and names of tasks, such as runs give, only as what it was sealed as. -/
theorem envelope_is_canonical {number : String → Option String} (sha256 : List UInt8 → List UInt8)
    (whole : WholeNumbers number) (hlaw : C.Lawful) :
    (∀ e : Envelope, e.Agrees → e.toBytes.bind (Envelope.fromBytes number) = .ok e) ∧
    (∀ (e e' : Envelope) (document document' : List UInt8), e.Agrees → e'.Agrees → e ≠ e' →
      e.toBytes = .ok document → e'.toBytes = .ok document' → document ≠ document' ∧
        ((sha256 document = sha256 document' → document = document') →
          documentHash sha256 document ≠ documentHash sha256 document')) ∧
    (∀ (document : List UInt8) (e : Envelope), Envelope.fromBytes number document = .ok e →
      e.Agrees ∧ (∃ tree, documentTree number document = some tree ∧ Envelope.Complete e.kind tree) ∧
        e.toBytes.bind (Envelope.fromBytes number) = .ok e) ∧
    C.Reopens ∧
    (∀ callId requestId opened, IsTaskName (taskId (runId callId requestId) opened)) ∧
    (∀ made : Use Key → Prop, C.Ideal made →
      ∀ (thing thing' : Thing) (task task' : String) (u : Use Key) (blob plaintext : List UInt8),
        IsTaskName task → IsTaskName task' → Seals C thing task u blob → made u →
          Opens C thing' task' blob plaintext → (thing = thing' ∧ task = task') ∧ plaintext = u.sealing.plaintext) := by
  refine ⟨fun e => fromBytes_toBytes whole, ?_, ?_, hlaw.reopens, isTaskName_taskId, ?_⟩
  · intro e e' document document' hagrees hagrees' hne hbytes hbytes'
    have hdocuments : document ≠ document' := fun hsame =>
      hne (toBytes_inj whole hagrees hagrees' (hbytes.trans (hsame ▸ hbytes'.symm)))
    exact ⟨hdocuments, fun hfree hhash => hdocuments (hfree (hexEncode_inj hhash))⟩
  · intro document e hread
    obtain ⟨⟨tree, htree, hjson⟩, hagrees⟩ := fromBytes_eq_ok.mp hread
    exact ⟨hagrees, ⟨tree, htree, complete_of_envelope hjson hagrees⟩, fromBytes_toBytes whole hagrees⟩
  · intro made hideal thing thing' task task' u blob plaintext hname hname' hseal hmade hopen
    exact hideal.opens_as_sealed hname hname' hseal hmade hopen

/-- Libraries with which one seal has been made, with the second cipher. -/
def oneSeal (s : Sealing (List UInt8)) : Crates (List UInt8) Unit Unit Unit where
  hmac := fun _ input => input
  secretOf := fun _ => some ()
  publicKey := fun _ => ()
  encodePoint := fun _ => List.replicate pointLen 4
  fromSec1Bytes := fun _ => some ()
  diffieHellman := fun _ _ => ()
  hkdf := fun _ _ info => info
  xchacha := { encrypt := fun _ _ _ _ => none, decrypt := fun _ _ _ _ => none }
  aesGcm :=
    { encrypt := fun k n a p =>
        if (k, n, a, p) = (s.key, s.nonce, s.associated, s.plaintext) then some (s.plaintext ++ List.replicate tagLen 0)
        else none
      decrypt := fun k n a c =>
        if (k, n, a, c) = (s.key, s.nonce, s.associated, s.plaintext ++ List.replicate tagLen 0) then some s.plaintext
        else none }

theorem oneSeal_encrypt {s : Sealing (List UInt8)} {k n a p c : List UInt8}
    (h : (oneSeal s).aesGcm.encrypt k n a p = some c) :
    (k, n, a, p) = (s.key, s.nonce, s.associated, s.plaintext) ∧ c = s.plaintext ++ List.replicate tagLen 0 := by
  simp only [oneSeal, Option.ite_none_right_eq_some] at h
  exact ⟨h.1, (Option.some.inj h.2).symm⟩

theorem oneSeal_lawful (s : Sealing (List UInt8)) : (oneSeal s).Lawful where
  xchacha := ⟨fun h => (nomatch h), fun h => (nomatch h)⟩
  aesGcm := by
    constructor
    · intro k n a p c h
      obtain ⟨hsame, rfl⟩ := oneSeal_encrypt h
      cases hsame
      exact if_pos rfl
    · intro k n a p c h
      obtain ⟨hsame, rfl⟩ := oneSeal_encrypt h
      cases hsame
      rw [List.length_append, List.length_replicate]
  encodePoint_length := fun _ => List.length_replicate
  fromSec1Bytes_encodePoint := fun _ => rfl
  agree := fun _ _ => rfl

theorem oneSeal_ideal (s : Sealing (List UInt8)) : (oneSeal s).Ideal fun u => u = ⟨.aesGcm, s⟩ where
  authentic := by
    intro cipher k n a c p h
    cases cipher with
    | xchacha => cases h
    | aesGcm =>
        simp only [Crates.cipher, oneSeal, Option.ite_none_right_eq_some] at h
        obtain ⟨hsame, hp⟩ := h
        cases hsame
        obtain rfl := Option.some.inj hp
        exact ⟨rfl, if_pos rfl⟩
  fresh := fun h h' _ _ _ => h.trans h'.symm
  derived := fun _ h h' => h.symm.trans h'

/-- One content, sealed for one task. -/
def oneContent : Sealing (List UInt8) := ⟨[7], List.replicate gcmNonceLen 0, utf8 "req-7-0", utf8 "pay"⟩

/-- The content of a task is none of its files. -/
theorem content_is_no_file :
    ¬∃ plaintext, Opens (oneSeal oneContent) (.file 0) "req-7-0"
      (formatByte :: (oneContent.nonce ++ (oneContent.plaintext ++ List.replicate tagLen 0))) plaintext := by
  rintro ⟨plaintext, hopen⟩
  have hname : IsTaskName "req-7-0" := isTaskName_of_isId (by decide)
  have hseal : Seals (oneSeal oneContent) .content "req-7-0" ⟨.aesGcm, oneContent⟩
      (formatByte :: (oneContent.nonce ++ (oneContent.plaintext ++ List.replicate tagLen 0))) := by
    refine .content ?_
    simp only [Crates.encryptContent, Crates.encryptUnder, oneSeal, oneContent, if_true]
  have hthing := ((envelope_is_canonical id wholeNumbers_some (oneSeal_lawful oneContent)).2.2.2.2.2 _
    (oneSeal_ideal oneContent) _ _ _ _ _ _ _ hname hname hseal rfl hopen).1.1
  cases hthing

end Tasks
end Worker
end Outlayer
