import Outlayer.Github.Asked
import Outlayer.Github.Confirm
import Outlayer.Lib.Traverse

/-!
# `Github.Correctness.Rules` — what a write that passed the rules has passed

The check of a write is taken apart into the rules it passed. A held write has its contents back.
-/

namespace Outlayer.Github
open Text Json Exchange Checked Traverse

section Check
variable {rules : Policy} {a : Action}

/-- **The check, rule by rule.** -/
theorem check_eq_ok_iff : a.check rules = .ok () ↔ rules.checkAction a.confirmable.name = .ok () ∧
    a.checkRepo rules = .ok () ∧ a.checkOwn rules = .ok () ∧ ∃ cap, rules.writeCap = .ok cap := by
  simp [Action.check]

theorem writable_eq_ok_iff {branch : String} {m : BranchMatch} :
    writable rules branch = .ok m ↔ cleanBranch branch = .ok () ∧ rules.checkBranch branch = .ok m := by
  simp [writable]

theorem ne_empty_of_cleanBranch {branch : String} (h : cleanBranch branch = .ok ()) : branch ≠ "" := by
  unfold cleanBranch at h
  split at h
  · next hok => exact hok.1
  · cases h

/-- The branch of a checked write may be written. -/
theorem writable_of_checkOwn {branch : String} (h : a.checkOwn rules = .ok ()) (hb : a.writtenBranch = some branch) :
    ∃ m, writable rules branch = .ok m := by
  cases a with
  | branchCreate a =>
      obtain rfl : a.branch = branch := Option.some.inj hb
      simp only [Action.checkOwn, bind_eq_ok] at h
      exact ⟨h.choose, h.choose_spec.1⟩
  | filePut a =>
      obtain rfl : a.branch = branch := Option.some.inj hb
      simp only [Action.checkOwn, bind_eq_ok] at h
      obtain ⟨-, -, m, hm, -⟩ := h
      exact ⟨m, hm⟩
  | commit a =>
      obtain rfl : a.branch = branch := Option.some.inj hb
      simp only [Action.checkOwn, bind_eq_ok] at h
      obtain ⟨-, -, -, -, -, -, m, hm, -⟩ := h
      exact ⟨m, hm⟩
  | prCreate a =>
      obtain rfl : a.head = branch := Option.some.inj hb
      simp only [Action.checkOwn, bind_eq_ok] at h
      exact ⟨h.choose, h.choose_spec.1⟩
  | _ => cases hb

end Check

/-! ## Contents -/

/-- A content the write puts somewhere. -/
def Action.Holds (c : Content) : Action → Prop
  | .filePut a    => c = a.content
  | .commit a     => ∃ path, .write path c ∈ a.changes
  | .gistCreate a => ∃ name, .write name c ∈ a.files
  | .gistUpdate a => ∃ name, .write name c ∈ a.files
  | _             => False

theorem toBytes_fromBytes (bs : List UInt8) : (Content.fromBytes bs).toBytes = .ok bs := by
  unfold Content.fromBytes
  split
  · next t ht => rw [Content.toBytes, utf8_of_fromUtf8 ht]
  · rfl

section Held
variable {env : Env} {files : List TaskFile} {a a' : Action}

/-- A content taken back has its bytes. -/
theorem toBytes_of_takeBack {c c' : Content} (h : takeBack env files c = .ok c') : ∃ bs, c'.toBytes = .ok bs := by
  cases c with
  | text t =>
      cases h
      exact ⟨_, rfl⟩
  | bytes bs =>
      cases h
      exact ⟨_, rfl⟩
  | file name n hash =>
      simp only [takeBack, bind_eq_ok, pure_eq_ok] at h
      obtain ⟨file, -, -, -, rfl⟩ := h
      exact ⟨_, toBytes_fromBytes _⟩

theorem toBytes_of_takeBackParts {parts parts' : List Part} (h : parts.mapM (takeBackPart env files) = .ok parts')
    {path : String} {c : Content} (hc : (path, some c) ∈ parts') : ∃ bs, c.toBytes = .ok bs := by
  obtain ⟨⟨name, content⟩, -, hpart⟩ := exists_of_mem_mapM h hc
  cases content with
  | none => cases hpart
  | some content =>
      simp only [takeBackPart, bind_eq_ok, pure_eq_ok, Prod.mk.injEq, Option.some.injEq] at hpart
      obtain ⟨c', hback, -, rfl⟩ := hpart
      exact toBytes_of_takeBack hback

theorem mem_part_of_change {parts : List Part} {path : String} {c : Content}
    (h : Change.write path c ∈ parts.map Change.ofPart) : (path, some c) ∈ parts := by
  obtain ⟨⟨name, content⟩, hmem, heq⟩ := List.mem_map.mp h
  cases content with
  | none => cases heq
  | some content =>
      cases heq
      exact hmem

theorem mem_part_of_file {parts : List Part} {name : String} {c : Content}
    (h : GistFile.write name c ∈ parts.map GistFile.ofPart) : (name, some c) ∈ parts := by
  obtain ⟨⟨name', content⟩, hmem, heq⟩ := List.mem_map.mp h
  cases content with
  | none => cases heq
  | some content =>
      cases heq
      exact hmem

/-- **Every content of a held write has its bytes.** -/
theorem toBytes_of_takeBackAll (h : a.takeBack env files = .ok a') {c : Content} (hc : a'.Holds c) :
    ∃ bs, c.toBytes = .ok bs := by
  cases a with
  | filePut a =>
      simp only [Action.takeBack, bind_eq_ok, pure_eq_ok] at h
      obtain ⟨content, hback, rfl⟩ := h
      obtain rfl : c = content := hc
      exact toBytes_of_takeBack hback
  | commit a =>
      simp only [Action.takeBack, bind_eq_ok, pure_eq_ok] at h
      obtain ⟨parts, hparts, rfl⟩ := h
      obtain ⟨path, hmem⟩ := hc
      exact toBytes_of_takeBackParts hparts (mem_part_of_change hmem)
  | gistCreate a =>
      simp only [Action.takeBack, bind_eq_ok, pure_eq_ok] at h
      obtain ⟨parts, hparts, rfl⟩ := h
      obtain ⟨name, hmem⟩ := hc
      exact toBytes_of_takeBackParts hparts (mem_part_of_file hmem)
  | gistUpdate a =>
      simp only [Action.takeBack, bind_eq_ok, pure_eq_ok] at h
      obtain ⟨parts, hparts, rfl⟩ := h
      obtain ⟨name, hmem⟩ := hc
      exact toBytes_of_takeBackParts hparts (mem_part_of_file hmem)
  | _ =>
      cases h
      exact hc.elim

end Held

section Judged
variable {env : Env} {codec : Codec} {rules : Policy} {answer : TaskAnswer} {a : Action}

/-- A judged write was held, and passed the check. -/
theorem judged_eq_ok_iff : judged env codec rules answer = .ok a ↔
    held env codec answer.state answer.files = .ok a ∧ a.check rules = .ok () := by
  simp only [judged, bind_eq_ok, pure_eq_ok]
  constructor
  · rintro ⟨a', hheld, ⟨⟩, hcheck, rfl⟩
    exact ⟨hheld, hcheck⟩
  · rintro ⟨hheld, hcheck⟩
    exact ⟨a, hheld, (), hcheck, rfl⟩

theorem toBytes_of_held {state : List UInt8} {files : List TaskFile} (h : held env codec state files = .ok a)
    {c : Content} (hc : a.Holds c) : ∃ bs, c.toBytes = .ok bs := by
  simp only [held, bind_eq_ok] at h
  obtain ⟨sealed, -, hback⟩ := h
  exact toBytes_of_takeBackAll hback hc

end Judged
end Outlayer.Github
