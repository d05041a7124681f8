import Outlayer.Contract.Messages
import Outlayer.Worker.Tasks.Client
import Outlayer.Worker.Tasks.Statement

/-!
# `Worker.Correctness.Sentences` — what the owner signs for tasks has one meaning

The sentences are put together of words with spaces between them, and no fact in them holds a space: not an account,
not a key as it is written, not an id, a hash or a time. So the first space after a fact ends it, and the facts are
found again one after the other. In the document that a supply digest is of, a comma ends the first member.
-/

namespace Outlayer
open Text Fields Calendar

namespace Worker
namespace Tasks

/-! ## Times -/

/-- The characters of a time. -/
def timeChars (secs : Nat) : List Char :=
  let (year, month, day) := civil (secs / 86400 + 719468)
  let (h, m, s) := clock (secs % 86400)
  padded 4 year ++ '-' :: (padded 2 month ++ '-' :: (padded 2 day ++
    'T' :: (padded 2 h ++ ':' :: (padded 2 m ++ ':' :: (padded 2 s ++ ['Z'])))))

theorem iso8601Utc_eq_some {secs : Int} {text : String} (h : iso8601Utc secs = some text) :
    0 ≤ secs ∧ text.toList = timeChars secs.toNat := by
  unfold iso8601Utc at h
  split at h
  · next hrange => exact ⟨hrange.1, Option.some.inj h ▸ String.toList_ofList⟩
  · cases h

theorem timeChars_inj {a b : Nat} (h : timeChars a = timeChars b) : a = b := by
  have hcut : ∀ {w m n : Nat} {sep : Char} {x y : List Char}, sep.isDigit = false →
      padded w m ++ sep :: x = padded w n ++ sep :: y → m = n ∧ x = y := by
    intro w m n sep x y hsep heq
    obtain ⟨hnum, hrest⟩ := cut_first (not_mem_padded hsep) (not_mem_padded hsep) heq
    exact ⟨padded_inj hnum, hrest⟩
  unfold timeChars at h
  obtain ⟨hyear, h⟩ := hcut (by decide) h
  obtain ⟨hmonth, h⟩ := hcut (by decide) h
  obtain ⟨hday, h⟩ := hcut (by decide) h
  obtain ⟨hhour, h⟩ := hcut (by decide) h
  obtain ⟨hminute, h⟩ := hcut (by decide) h
  obtain ⟨hsecond, -⟩ := hcut (by decide) h
  have hdays := civil_inj (Prod.ext hyear (Prod.ext hmonth hday))
  have hclock := clock_inj (Prod.ext hhour (Prod.ext hminute hsecond))
  omega

theorem iso8601Utc_inj {t t' : Int} {text : String} (h : iso8601Utc t = some text) (h' : iso8601Utc t' = some text) :
    t = t' := by
  obtain ⟨hpos, hchars⟩ := iso8601Utc_eq_some h
  obtain ⟨hpos', hchars'⟩ := iso8601Utc_eq_some h'
  have hnat := timeChars_inj (hchars.symm.trans hchars')
  omega

/-! ## Facts without spaces -/

/-- A fact that ends at a space. -/
def Solid (fact : List Char) : Prop := ' ' ∉ fact

instance (fact : List Char) : Decidable (Solid fact) := inferInstanceAs (Decidable (' ' ∉ fact))

theorem Solid.append {a b : List Char} (ha : Solid a) (hb : Solid b) : Solid (a ++ b) := fun h =>
  (List.mem_append.mp h).elim ha hb

theorem solid_account (a : AccountId) : Solid a.name.toList := by
  intro hmem
  have hvalid := a.valid
  simp only [isValidAccountId, Bool.and_eq_true] at hvalid
  exact absurd (mem_accountChars hvalid.2 hmem) (by decide)

theorem solid_id {id : String} (h : isId id = true) : Solid id.toList := not_mem_id h (by decide)

/-- A hash as it is written: 64 hexadecimal digits. -/
def isHex64 (s : String) : Bool := decide (s.toList.length = 64) && s.toList.all isAsciiHexdigit

theorem solid_hex {s : String} (h : isHex64 s = true) : Solid s.toList := by
  intro hmem
  simp only [isHex64, Bool.and_eq_true] at h
  exact absurd (List.all_eq_true.mp h.2 ' ' hmem) (by decide)

/-- Two texts that begin with a fact each, and go on after a space. -/
theorem cut_space {fact fact' x y : List Char} (h : Solid fact) (h' : Solid fact')
    (heq : fact ++ ' ' :: x = fact' ++ ' ' :: y) : fact = fact' ∧ x = y := cut_first h h' heq

/-! ## Device keys -/

theorem toList_of_stripPrefix {s pre rest : String} (h : Text.stripPrefix s pre = some rest) :
    s.toList = pre.toList ++ rest.toList := by
  unfold Text.stripPrefix at h
  split at h
  · next hpre =>
      obtain ⟨tail, htail⟩ := hpre
      cases h
      rw [← htail, List.drop_left, String.toList_ofList]
  · cases h

variable {Key Secret Point Shared : Type}

/-- A device key that is read is written without spaces. -/
theorem solid_pubkey {C : Crates Key Secret Point Shared} {written : String} {key : Point}
    (h : C.readPubkey written = .ok key) : Solid written.toList := by
  unfold Crates.readPubkey at h
  split at h
  · cases h
  · next point hpoint =>
      split at h
      · cases h
      · next bytes hbytes =>
          rw [toList_of_stripPrefix hpoint]
          refine Solid.append (by decide) fun hmem => ?_
          exact absurd (mem_of_base64UrlDecode hbytes hmem) (by decide)

/-! ## The two sentences -/

/-- The facts of a sign-in: an account, a device key that is read, a deadline. -/
@[ext] structure SignIn (C : Crates Key Secret Point Shared) where
  account : AccountId
  devicePubkey : String
  read : ∃ key, C.readPubkey devicePubkey = .ok key
  validUntil : Int

/-- What is signed; nothing where the deadline is not a time. -/
def SignIn.text {C : Crates Key Secret Point Shared} (facts : SignIn C) : Option String :=
  sentence facts.account.name facts.devicePubkey facts.validUntil

/-- The facts of an approval: an account, a task's id and its hash, the digest of what was supplied, and a time. -/
@[ext] structure Approved where
  owner : AccountId
  id : String
  id_is : isId id = true
  hash : String
  hash_hex : isHex64 hash = true
  supplyDigest : String
  digest_hex : isHex64 supplyDigest = true
  at_ : Int

/-- The sentence the owner signs. -/
def Approved.text (facts : Approved) : Option String :=
  approvalSentence facts.owner.name facts.id facts.hash facts.supplyDigest facts.at_

theorem sentence_toList {account dk : String} {t : Int} {text : String} (h : sentence account dk t = some text) :
    ∃ time, iso8601Utc t = some time ∧ text.toList = "Sign in to OutLayer as ".toList ++
      ((account.toList ++ ['.']) ++ ' ' :: ("Device key: ".toList ++
        ((dk.toList ++ ['.']) ++ ' ' :: ("Valid until ".toList ++ (time.toList ++ ['.']))))) := by
  obtain ⟨time, htime, rfl⟩ := Option.map_eq_some_iff.mp h
  refine ⟨time, htime, ?_⟩
  have hkey : ". Device key: ".toList = '.' :: ' ' :: "Device key: ".toList := rfl
  have hvalid : ". Valid until ".toList = '.' :: ' ' :: "Valid until ".toList := rfl
  have hdot : ".".toList = ['.'] := rfl
  generalize "Device key: ".toList = keyHead at hkey ⊢
  generalize "Valid until ".toList = validHead at hvalid ⊢
  simp only [String.toList_append, hkey, hvalid, hdot, List.append_assoc, List.cons_append, List.nil_append]

/-- A text before a full stop, where both end in one. -/
theorem cut_dot {a b : List Char} (h : a ++ ['.'] = b ++ ['.']) : a = b := List.append_cancel_right h

theorem time_of_stop {t t' : Int} {time time' : String} (h : iso8601Utc t = some time) (h' : iso8601Utc t' = some time')
    (heq : time.toList ++ ['.'] = time'.toList ++ ['.']) : t = t' := by
  have hsame : time = time' := String.toList_injective (cut_dot heq)
  exact iso8601Utc_inj h (hsame ▸ h')

theorem Solid.stop {fact : List Char} (h : Solid fact) : Solid (fact ++ ['.']) := h.append (by decide)

/-- The sign-in determines its facts: each of the first two ends at the space after its full stop. -/
theorem SignIn.text_inj {C : Crates Key Secret Point Shared} {f g : SignIn C} {text : String}
    (hf : f.text = some text) (hg : g.text = some text) : f = g := by
  obtain ⟨time, htime, hchars⟩ := sentence_toList hf
  obtain ⟨time', htime', hchars'⟩ := sentence_toList hg
  obtain ⟨_, hread⟩ := f.read
  obtain ⟨_, hread'⟩ := g.read
  have h := List.append_cancel_left (hchars.symm.trans hchars')
  obtain ⟨haccount, h⟩ := cut_space (solid_account f.account).stop (solid_account g.account).stop h
  have h := List.append_cancel_left h
  obtain ⟨hkey, h⟩ := cut_space (solid_pubkey hread).stop (solid_pubkey hread').stop h
  have h := List.append_cancel_left h
  exact SignIn.ext (AccountId.eq_of_toList (cut_dot haccount)) (String.toList_injective (cut_dot hkey))
    (time_of_stop htime htime' h)

theorem approvalSentence_toList {owner id hash digest : String} {t : Int} {text : String}
    (h : approvalSentence owner id hash digest t = some text) :
    ∃ time, iso8601Utc t = some time ∧ text.toList = "Approve in OutLayer as ".toList ++
      ((owner.toList ++ [':']) ++ ' ' :: ("task ".toList ++ (id.toList ++ ' ' :: ("with hash ".toList ++
        (hash.toList ++ ' ' :: ("and supply ".toList ++ ((digest.toList ++ ['.']) ++ ' ' :: ("At ".toList ++
          (time.toList ++ ['.']))))))))) := by
  obtain ⟨time, htime, rfl⟩ := Option.map_eq_some_iff.mp h
  refine ⟨time, htime, ?_⟩
  have htask : ": task ".toList = ':' :: ' ' :: "task ".toList := rfl
  have hhash : " with hash ".toList = ' ' :: "with hash ".toList := rfl
  have hsupply : " and supply ".toList = ' ' :: "and supply ".toList := rfl
  have hat : ". At ".toList = '.' :: ' ' :: "At ".toList := rfl
  have hdot : ".".toList = ['.'] := rfl
  generalize "task ".toList = taskHead at htask ⊢
  generalize "with hash ".toList = hashHead at hhash ⊢
  generalize "and supply ".toList = supplyHead at hsupply ⊢
  generalize "At ".toList = atHead at hat ⊢
  simp only [String.toList_append, htask, hhash, hsupply, hat, hdot, List.append_assoc, List.cons_append,
    List.nil_append]

theorem Approved.text_inj {f g : Approved} {text : String} (hf : f.text = some text) (hg : g.text = some text) :
    f = g := by
  obtain ⟨time, htime, hchars⟩ := approvalSentence_toList hf
  obtain ⟨time', htime', hchars'⟩ := approvalSentence_toList hg
  have hcolon : Solid [':'] := by decide
  have h := List.append_cancel_left (hchars.symm.trans hchars')
  obtain ⟨howner, h⟩ := cut_space ((solid_account f.owner).append hcolon) ((solid_account g.owner).append hcolon) h
  have h := List.append_cancel_left h
  obtain ⟨hid, h⟩ := cut_space (solid_id f.id_is) (solid_id g.id_is) h
  have h := List.append_cancel_left h
  obtain ⟨hhash, h⟩ := cut_space (solid_hex f.hash_hex) (solid_hex g.hash_hex) h
  have h := List.append_cancel_left h
  obtain ⟨hdigest, h⟩ := cut_space (solid_hex f.digest_hex).stop (solid_hex g.digest_hex).stop h
  have h := List.append_cancel_left h
  exact Approved.ext (AccountId.eq_of_toList (List.append_cancel_right howner)) (String.toList_injective hid)
    (String.toList_injective hhash) (String.toList_injective (cut_dot hdigest)) (time_of_stop htime htime' h)

/-- The one begins with an `S`, the other with an `A`. -/
theorem signIn_ne_approval {C : Crates Key Secret Point Shared} (f : SignIn C) (g : Approved) {text : String}
    (hf : f.text = some text) : g.text ≠ some text := by
  intro hg
  obtain ⟨_, _, hchars⟩ := sentence_toList hf
  obtain ⟨_, _, hchars'⟩ := approvalSentence_toList hg
  have hsign : "Sign in to OutLayer as ".toList = 'S' :: "ign in to OutLayer as ".toList := rfl
  have happrove : "Approve in OutLayer as ".toList = 'A' :: "pprove in OutLayer as ".toList := rfl
  rw [hsign] at hchars
  rw [happrove] at hchars'
  exact absurd (List.cons.inj (hchars.symm.trans hchars')).1 (by decide)

/-! ## The document of a supply -/

theorem comma_not_mem_member (bytes : Option (List UInt8)) : ',' ∉ (supplyMember bytes).toList := by
  cases bytes with
  | none => decide
  | some bs =>
      intro hmem
      simp only [supplyMember, String.toList_append, List.mem_append] at hmem
      rcases hmem with (hquote | hbytes) | hquote
      · exact absurd hquote (by decide)
      · rw [base64Encode, String.toList_ofList] at hbytes
        exact absurd (mem_base64EncodeList hbytes) (by decide)
      · exact absurd hquote (by decide)

/-- A member determines its bytes, and an empty text is not an absent one. -/
theorem supplyMember_inj {a b : Option (List UInt8)} (h : supplyMember a = supplyMember b) : a = b := by
  have hnull : ∀ bs : List UInt8, supplyMember (some bs) ≠ supplyMember none := by
    intro bs heq
    have hquote : "\"".toList = ['"'] := rfl
    have hword : "null".toList = 'n' :: "ull".toList := rfl
    have hchars := congrArg String.toList heq
    simp only [supplyMember, String.toList_append, List.append_assoc, hquote, hword, List.cons_append] at hchars
    exact absurd (List.cons.inj hchars).1 (by decide)
  cases a with
  | none =>
      cases b with
      | none   => rfl
      | some y => exact absurd h.symm (hnull y)
  | some x =>
      cases b with
      | none   => exact absurd h (hnull x)
      | some y =>
          have hchars := congrArg String.toList h
          simp only [supplyMember, String.toList_append] at hchars
          have hbytes := List.append_cancel_left (List.append_cancel_right hchars)
          exact congrArg some (base64Encode_inj (String.toList_injective hbytes))

/-- The document determines the two, and which is which: the first member ends at the comma. -/
theorem supplyDocument_inj {supplied supplied' note note' : Option (List UInt8)}
    (h : supplyDocument supplied note = supplyDocument supplied' note') : supplied = supplied' ∧ note = note' := by
  have hcomma : ",\"supplied\":".toList = ',' :: "\"supplied\":".toList := rfl
  have hchars := congrArg String.toList h
  generalize "\"supplied\":".toList = head at hcomma
  simp only [supplyDocument, String.toList_append, hcomma] at hchars
  have hchars := List.append_cancel_right hchars
  simp only [List.append_assoc] at hchars
  have hchars := List.append_cancel_left hchars
  obtain ⟨hnote, hrest⟩ := cut_first (comma_not_mem_member note) (comma_not_mem_member note') hchars
  exact ⟨supplyMember_inj (String.toList_injective (List.append_cancel_left hrest)),
    supplyMember_inj (String.toList_injective hnote)⟩

/-- What the owner signs for tasks has one meaning: either sentence determines its facts, neither is the other, and
    the document of a supply determines what was supplied and what was written. -/
theorem signed_texts_have_one_meaning (C : Crates Key Secret Point Shared) :
    (∀ (f g : SignIn C) text, f.text = some text → g.text = some text → f = g) ∧
    (∀ (f g : Approved) text, f.text = some text → g.text = some text → f = g) ∧
    (∀ (f : SignIn C) (g : Approved) text, f.text = some text → g.text ≠ some text) ∧
    (∀ supplied note supplied' note', supplyDocument supplied note = supplyDocument supplied' note' →
      supplied = supplied' ∧ note = note') :=
  ⟨fun _ _ _ hf hg => SignIn.text_inj hf hg, fun _ _ _ hf hg => Approved.text_inj hf hg,
    fun f g _ hf => signIn_ne_approval f g hf, fun _ _ _ _ h => supplyDocument_inj h⟩

/-- Libraries that know one point. -/
def onePoint : Crates Unit Unit Unit Unit where
  hmac _ _ := ()
  secretOf _ := some ()
  publicKey _ := ()
  encodePoint _ := 4 :: List.replicate 64 0
  fromSec1Bytes _ := some ()
  diffieHellman _ _ := ()
  hkdf _ _ _ := ()
  xchacha := ⟨fun _ _ _ _ => none, fun _ _ _ _ => none⟩
  aesGcm := ⟨fun _ _ _ _ => none, fun _ _ _ _ => none⟩

theorem alice_is_account : isValidAccountId "alice.near" = true := by decide

/-- One device of one account, signed in until some time. -/
def signInUntil (validUntil : Int) : SignIn onePoint where
  account := ⟨"alice.near", alice_is_account⟩
  devicePubkey := onePoint.writePubkey ()
  read := ⟨(), by decide⟩
  validUntil

theorem later_deadline_reads_otherwise : (signInUntil 1798761600).text ≠ (signInUntil 1798765200).text := by
  intro h
  obtain ⟨text, htext⟩ := Option.isSome_iff_exists.mp (show (signInUntil 1798761600).text.isSome = true by decide)
  have hsame := (signed_texts_have_one_meaning onePoint).1 _ _ text htext (h ▸ htext)
  exact absurd (congrArg SignIn.validUntil hsame) (by decide)

end Tasks
end Worker
end Outlayer
