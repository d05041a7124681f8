import Outlayer.Lib.Cryptography
import Outlayer.Worker.WasmCache

/-!
# `Worker.Correctness.WasmCache` — the wasm cache serves no bytes nobody vouches for

Whatever happens to the files, an entry keeps in memory what its bytes hashed to. That is its own key, or the hash of
the bytes of the last put under the key that stored something; and what is read from disk is given out only where it
has this hash. Every branch that takes an entry away takes its size off the total.
-/

namespace Outlayer
open Text Collections Runs Hashing

namespace Worker
namespace WasmCache

/-! ## What counts as the last put -/

/-- The bytes last put under each key, after one step more. A restart forgets them. -/
def recalled (counts : Step → Bool) (last : String → Option (List UInt8)) (t : Step) : String → Option (List UInt8) :=
  match t.event with
  | .new _ _                => fun _ => none
  | .put checksum bytes _ _ => if counts t then fun key => if key = checksum then some bytes else last key else last
  | _                       => last

/-- The bytes of the last put under each key since the last restart, of those that count. -/
def lastPut (counts : Step → Bool) (tr : List Step) : String → Option (List UInt8) :=
  tr.foldl (recalled counts) fun _ => none

/-- A put that returned `Ok`. -/
def Step.succeeds (t : Step) : Bool :=
  match t.out with
  | .stored ok => ok
  | _          => false

/-- A put that returned `Ok` for bytes that are not larger than the whole cache. -/
def Step.stores (t : Step) : Bool :=
  t.succeeds &&
    match t.event, t.pre.cache with
    | .put _ bytes _ _, some c => decide (bytes.length ≤ c.maxSizeBytes)
    | _, _                     => false

/-! ## The invariant -/

/-- The sizes of the entries, summed. -/
def Cache.sizes (c : Cache) : Nat := LookupMap.total (fun _ e => e.size) c.entries

/-- The total is the sum of the sizes. -/
def Cache.Counted (c : Cache) : Prop := c.totalSize = c.sizes

/-- The recorded hash is the key, or that of the bytes last put under the key. -/
def Cache.Vouched (H : Host) (last : String → Option (List UInt8)) (c : Cache) : Prop :=
  ∀ key entry, c.entries.lookup key = some entry →
    entry.contentSha256 = key ∨ ∃ bytes, last key = some bytes ∧ entry.contentSha256 = computeHash H bytes

section Operations
variable {H : Host} {last : String → Option (List UInt8)} {c : Cache} {disk : Disk} {key : String}
  {entry : CacheEntry}

theorem counted_drop (hc : c.Counted) (hentry : c.entries.lookup key = some entry) :
    (dropEntry c disk key entry).1.Counted := by
  have herase := LookupMap.total_erase_old (f := fun _ e => e.size) hentry
  unfold Cache.Counted Cache.sizes at *
  show c.totalSize - entry.size = LookupMap.total (fun _ e => e.size) (c.entries.erase key)
  omega

theorem vouched_drop (hv : c.Vouched H last) : (dropEntry c disk key entry).1.Vouched H last := by
  intro key' entry' hlookup
  exact hv key' entry' (LookupMap.lookup_of_erase hlookup).2

/-- An entry that is written anew keeps what it vouches for, and its size. -/
theorem counted_touch (hc : c.Counted) (hentry : c.entries.lookup key = some entry) (now : Nat) :
    ({ c with entries := c.entries.insert key { entry with lastUsed := now } } : Cache).Counted := by
  have hinsert := LookupMap.total_insert_old (f := fun _ e => e.size) hentry { entry with lastUsed := now }
  unfold Cache.Counted Cache.sizes at *
  show c.totalSize = LookupMap.total (fun _ e => e.size) (c.entries.insert key { entry with lastUsed := now })
  dsimp only at hinsert
  omega

theorem vouched_touch (hv : c.Vouched H last) (hentry : c.entries.lookup key = some entry) (now : Nat) :
    ({ c with entries := c.entries.insert key { entry with lastUsed := now } } : Cache).Vouched H last := by
  intro key' entry' hlookup
  rw [LookupMap.lookup_insert_iff] at hlookup
  split at hlookup
  · next hkey =>
      obtain rfl := Option.some.inj hlookup
      exact hkey ▸ hv key entry hentry
  · exact hv key' entry' hlookup

/-! ## Eviction -/

/-- Eviction takes an entry out, or there is none. -/
theorem evictOldest_cases (H : Host) (c : Cache) (disk : Disk) :
    (∃ key entry, c.entries.lookup key = some entry ∧ evictOldest H c disk = dropEntry c disk key entry) ∨
    (c.entries.keys = [] ∧ evictOldest H c disk = (c, disk)) := by
  unfold evictOldest
  cases holdest : (H.order.walk c.entries).argmin fun e => e.2.lastUsed with
  | none =>
      right
      have hnil := List.argmin_eq_none.mp holdest
      have hperm := H.order.perm c.entries
      rw [hnil] at hperm
      have hentries : c.entries.entries = [] := List.map_eq_nil_iff.mp hperm.nil_eq.symm
      exact ⟨by simp [AList.keys, hentries, List.keys], rfl⟩
  | some found =>
      left
      obtain ⟨key, entry⟩ := found
      have hmem := List.argmin_mem holdest
      rw [(H.order.perm c.entries).mem_iff, List.mem_map] at hmem
      obtain ⟨⟨key', entry'⟩, hin, heq⟩ := hmem
      obtain ⟨rfl, rfl⟩ := Prod.mk.inj heq
      have hlookup := LookupMap.mem_entries_iff.mp hin
      exact ⟨key', entry', hlookup, by simp only [hlookup]⟩

/-- What a loop of evictions keeps. -/
structure Evicted (H : Host) (c c' : Cache) : Prop where
  limit : c'.maxSizeBytes = c.maxSizeBytes
  less : c'.totalSize ≤ c.totalSize
  counted : c.Counted → c'.Counted
  vouched : ∀ last, c.Vouched H last → c'.Vouched H last

theorem Evicted.refl (H : Host) (c : Cache) : Evicted H c c where
  limit := rfl
  less := Nat.le_refl _
  counted := id
  vouched _ := id

theorem Evicted.trans {a b c : Cache} (hab : Evicted H a b) (hbc : Evicted H b c) : Evicted H a c where
  limit := hbc.limit.trans hab.limit
  less := Nat.le_trans hbc.less hab.less
  counted h := hbc.counted (hab.counted h)
  vouched last h := hbc.vouched last (hab.vouched last h)

theorem evicted_drop (hentry : c.entries.lookup key = some entry) :
    Evicted H c (dropEntry c disk key entry).1 where
  limit := rfl
  less := Nat.sub_le _ _
  counted h := counted_drop h hentry
  vouched _ := vouched_drop

/-- Eviction goes on until the bytes fit or nothing is left. -/
theorem evictLoop_spec (H : Host) (needed : Nat) : ∀ (turns : Nat) (c : Cache) (disk : Disk),
    Evicted H c (evictLoop H needed turns c disk).1 ∧
      (c.entries.keys.length ≤ turns →
        (evictLoop H needed turns c disk).1.totalSize + needed ≤ c.maxSizeBytes ∨
          (evictLoop H needed turns c disk).1.entries.keys = []) := by
  intro turns
  induction turns with
  | zero =>
      intro c disk
      exact ⟨.refl H c, fun hlen => Or.inr (List.eq_nil_of_length_eq_zero (Nat.le_zero.mp hlen))⟩
  | succ turns ih =>
      intro c disk
      rw [evictLoop]
      split
      · next hfull =>
          rcases evictOldest_cases H c disk with ⟨key, entry, hentry, hdrop⟩ | ⟨hnil, -⟩
          · rw [hdrop]
            obtain ⟨hkeeps, hends⟩ := ih (dropEntry c disk key entry).1 (dropEntry c disk key entry).2
            refine ⟨(evicted_drop hentry).trans hkeeps, fun hlen => hends ?_⟩
            have hmem : key ∈ c.entries.keys := AList.lookup_isSome.mp (Option.isSome_of_mem hentry)
            show (c.entries.erase key).keys.length ≤ turns
            rw [AList.keys_erase, List.length_erase_of_mem hmem]
            omega
          · exact absurd hnil hfull.2
      · next hstop =>
          refine ⟨.refl H c, fun _ => ?_⟩
          by_cases hnil : c.entries.keys = []
          · exact Or.inr hnil
          · exact Or.inl (Nat.le_of_not_lt fun hlt => hstop ⟨hlt, hnil⟩)

theorem sizes_of_empty {c : Cache} (h : c.entries.keys = []) : c.sizes = 0 := by
  have hentries : c.entries.entries = [] := List.map_eq_nil_iff.mp h
  simp [Cache.sizes, LookupMap.total, hentries]

theorem evictUntilFits_spec (H : Host) (needed : Nat) (c : Cache) (disk : Disk) :
    Evicted H c (evictUntilFits H needed c disk).1 ∧
      (c.Counted → needed ≤ c.maxSizeBytes →
        (evictUntilFits H needed c disk).1.totalSize + needed ≤ c.maxSizeBytes) := by
  obtain ⟨hkeeps, hends⟩ := evictLoop_spec H needed c.entries.keys.length c disk
  refine ⟨hkeeps, fun hc hneeded => ?_⟩
  rcases hends (Nat.le_refl _) with hfits | hnil
  · exact hfits
  · have hzero : (evictUntilFits H needed c disk).1.totalSize = 0 :=
      (hkeeps.counted hc).trans (sizes_of_empty hnil)
    omega

/-! ## Restart -/

theorem stripSuffix_eq_some {s suf rest : String} (h : stripSuffix s suf = some rest) : s = rest ++ suf := by
  unfold stripSuffix at h
  split at h
  · next hsuf =>
      obtain ⟨front, hfront⟩ := hsuf
      obtain rfl := Option.some.inj h
      apply String.toList_inj.mp
      rw [String.toList_append, String.toList_ofList, ← hfront, List.length_append, Nat.add_sub_cancel,
        List.take_left']
      rfl
  · cases h

theorem fileChecksum_eq_some {name checksum : String} (h : fileChecksum name = some checksum) :
    name = fileName checksum := by
  unfold fileChecksum at h
  split at h
  · next found hstrip =>
      split at h
      · cases h
      · obtain rfl := Option.some.inj h
        exact stripSuffix_eq_some hstrip
  · cases h

/-- What loading keeps: the total, hashes that are the keys, and no entry but of a file that was met. -/
structure Loaded (limit : Nat) (met : List String) (c : Cache) : Prop where
  limit_eq : c.maxSizeBytes = limit
  counted : c.Counted
  named : ∀ key entry, c.entries.lookup key = some entry → entry.contentSha256 = key ∧ fileName key ∈ met

theorem loadFile_loaded {limit : Nat} {met : List String} {times : String → Nat} {name : String}
    (h : Loaded limit met c) (hnew : name ∉ met) :
    Loaded limit (met ++ [name]) (loadFile H times (c, disk) name).1 := by
  have hold : Loaded limit (met ++ [name]) c := by
    refine { h with named := fun key entry hkey => ?_ }
    obtain ⟨hhash, hmet⟩ := h.named key entry hkey
    exact ⟨hhash, List.mem_append_left _ hmet⟩
  unfold loadFile
  dsimp only
  split
  · exact hold
  · next checksum hname =>
      split
      · exact hold
      · next size hsize =>
          split
          · exact hold
          · next bytes hread =>
              split
              · exact hold
              · -- the file is met for the first time, so nothing is under its name yet
                have hfile := fileChecksum_eq_some hname
                have hnone : c.entries.lookup checksum = none := by
                  cases hlookup : c.entries.lookup checksum with
                  | none => rfl
                  | some entry => exact absurd (hfile ▸ (h.named checksum entry hlookup).2) hnew
                constructor
                case limit_eq => exact h.limit_eq
                case counted =>
                  have hcounted := h.counted
                  unfold Cache.Counted Cache.sizes at hcounted ⊢
                  dsimp only
                  rw [LookupMap.total_insert_new hnone, hcounted]
                case named =>
                  intro key entry hkey
                  rw [LookupMap.lookup_insert_iff] at hkey
                  split at hkey
                  · next heq =>
                      obtain rfl := Option.some.inj hkey
                      exact ⟨heq.symm, by simp [heq, hfile]⟩
                  · exact hold.named key entry hkey

theorem load_loaded {limit : Nat} {times : String → Nat} (names : List String) :
    ∀ (met : List String) (c : Cache) (disk : Disk), Loaded limit met c → (met ++ names).Nodup →
      Loaded limit (met ++ names) (names.foldl (loadFile H times) (c, disk)).1 := by
  induction names with
  | nil =>
      intro met c disk h _
      rw [List.append_nil]
      exact h
  | cons name names ih =>
      intro met c disk h hnodup
      have hnew : name ∉ met := fun hmem =>
        (List.disjoint_of_nodup_append hnodup) hmem List.mem_cons_self
      rw [← List.singleton_append, ← List.append_assoc] at hnodup ⊢
      exact ih (met ++ [name]) _ _ (loadFile_loaded h hnew) hnodup

/-! ## The operations -/

/-- What holds of a cache in every state. -/
structure Sound (H : Host) (last : String → Option (List UInt8)) (c : Cache) : Prop where
  counted : c.Counted
  fits : c.totalSize ≤ c.maxSizeBytes
  vouched : c.Vouched H last

theorem Evicted.sound {c c' : Cache} (h : Evicted H c c') (hc : Sound H last c) : Sound H last c' where
  counted := h.counted hc.counted
  fits := h.limit.symm ▸ Nat.le_trans h.less hc.fits
  vouched := h.vouched last hc.vouched

theorem new_sound {maxSizeMb : Nat} {opened : Opened} (h : (new H maxSizeMb disk opened).1 = some c) :
    Sound H (fun _ => none) c := by
  cases opened with
  | missing => cases h
  | unlisted =>
      obtain rfl := Option.some.inj h
      exact ⟨rfl, Nat.zero_le _, nofun⟩
  | listed times =>
      have hstart : Loaded (maxSizeMb * 1024 * 1024 % 2 ^ 64) []
          ({ maxSizeBytes := maxSizeMb * 1024 * 1024 % 2 ^ 64 } : Cache) := ⟨rfl, rfl, nofun⟩
      have hload : Loaded (maxSizeMb * 1024 * 1024 % 2 ^ 64) ([] ++ disk.keys)
          (disk.keys.foldl (loadFile H times) ({ maxSizeBytes := maxSizeMb * 1024 * 1024 % 2 ^ 64 }, disk)).1 :=
        load_loaded disk.keys [] _ disk hstart (AList.keys_nodup disk)
      obtain ⟨hkeeps, hfits⟩ := evictUntilFits_spec H 0
        (disk.keys.foldl (loadFile H times) ({ maxSizeBytes := maxSizeMb * 1024 * 1024 % 2 ^ 64 }, disk)).1
        (disk.keys.foldl (loadFile H times) ({ maxSizeBytes := maxSizeMb * 1024 * 1024 % 2 ^ 64 }, disk)).2
      obtain rfl := Option.some.inj h
      have hvouched := hkeeps.vouched (fun _ => none)
        (fun key entry hkey => Or.inl (hload.named key entry hkey).1)
      exact ⟨hkeeps.counted hload.counted, hkeeps.limit ▸ hfits hload.counted (Nat.zero_le _), hvouched⟩

/-- What a read does: an entry goes, or it stays and its bytes are the ones whose hash it records. -/
theorem get_cases (H : Host) (c : Cache) (disk : Disk) (checksum : String) (current : Option String) (now : Nat) :
    (c.entries.lookup checksum = none ∧ get H c disk checksum current now = (none, c, disk)) ∨
    ∃ entry, c.entries.lookup checksum = some entry ∧
      let touched := { c with entries := c.entries.insert checksum { entry with lastUsed := now } }
      (get H c disk checksum current now = (none, dropEntry touched disk checksum entry) ∨
        ∃ bytes, get H c disk checksum current now = (some bytes, touched, disk) ∧
          computeHash H bytes = entry.contentSha256 ∧
          (entry.contentSha256 = checksum ∨ current = some entry.contentSha256)) := by
  unfold get
  cases hlookup : c.entries.lookup checksum with
  | none => exact Or.inl ⟨rfl, rfl⟩
  | some entry =>
      refine Or.inr ⟨entry, rfl, ?_⟩
      dsimp only
      split
      · exact Or.inl rfl
      · next hfresh =>
          split
          · exact Or.inl rfl
          · next bytes hread =>
              split
              · exact Or.inl rfl
              · next hhash =>
                  refine Or.inr ⟨bytes, rfl, not_not.mp hhash, ?_⟩
                  by_contra hstale
                  rw [not_or] at hstale
                  exact hfresh hstale

theorem get_sound (hc : Sound H last c) (checksum : String) (current : Option String) (now : Nat) :
    Sound H last (get H c disk checksum current now).2.1 := by
  rcases get_cases H c disk checksum current now with ⟨-, hget⟩ | ⟨entry, hentry, hget | ⟨bytes, hget, -⟩⟩
  · rw [hget]
    exact hc
  · rw [hget]
    have htouched : Sound H last
        { c with entries := c.entries.insert checksum { entry with lastUsed := now } } :=
      ⟨counted_touch hc.counted hentry now, hc.fits, vouched_touch hc.vouched hentry now⟩
    -- the entry that goes has the size of the one that was there
    refine ⟨?_, Nat.le_trans (Nat.sub_le _ _) hc.fits, vouched_drop htouched.vouched⟩
    have hcounted := hc.counted
    have herase := LookupMap.total_erase_old (f := fun _ e => e.size) hentry
    have htwice : (c.entries.insert checksum { entry with lastUsed := now }).erase checksum =
        c.entries.erase checksum := LookupMap.erase_insert _ _ _
    unfold Cache.Counted Cache.sizes at *
    show c.totalSize - entry.size =
      LookupMap.total (fun _ e => e.size) ((c.entries.insert checksum { entry with lastUsed := now }).erase checksum)
    rw [htwice]
    omega
  · rw [hget]
    exact ⟨counted_touch hc.counted hentry now, hc.fits, vouched_touch hc.vouched hentry now⟩

/-- What a put does: nothing, where the bytes are too many; evictions alone, where the file is not written; and else
    the entry is stored after them. -/
theorem put_cases (H : Host) (c : Cache) (disk : Disk) (checksum : String) (bytes : List UInt8) (now : Nat)
    (write : Write) :
    (c.maxSizeBytes < bytes.length ∧ put H c disk checksum bytes now write = (true, c, disk)) ∨
    (bytes.length ≤ c.maxSizeBytes ∧ ∃ c' disk', Evicted H c c' ∧
      (c.Counted → c'.totalSize + bytes.length ≤ c'.maxSizeBytes) ∧
      (put H c disk checksum bytes now write = (false, c', disk') ∨
        put H c disk checksum bytes now write = (true, storeEntry H c' checksum bytes now, disk'))) := by
  unfold put
  split
  · next hlarge => exact Or.inl ⟨hlarge, rfl⟩
  · next hsmall =>
      have hsmall := Nat.le_of_not_lt hsmall
      obtain ⟨hkeeps, hfits⟩ := evictUntilFits_spec H bytes.length c disk
      refine Or.inr ⟨hsmall, (evictUntilFits H bytes.length c disk).1,
        (evictUntilFits H bytes.length c disk).2.write (fileName checksum) bytes write, hkeeps,
        fun hc => hkeeps.limit.symm ▸ hfits hc hsmall, ?_⟩
      cases write with
      | failed left => exact Or.inl rfl
      | done => exact Or.inr rfl

theorem storeEntry_sound {bytes : List UInt8} (hc : c.Counted) (hfits : c.totalSize + bytes.length ≤ c.maxSizeBytes)
    (hv : c.Vouched H last) (checksum : String) (now : Nat) :
    Sound H (fun key => if key = checksum then some bytes else last key) (storeEntry H c checksum bytes now) := by
  have hvouched : ∀ {entries : Entries} {entry : CacheEntry}, entry.contentSha256 = computeHash H bytes →
      (∀ key e, entries.lookup key = some e → key ≠ checksum → c.entries.lookup key = some e) →
      ∀ key e, (entries.insert checksum entry).lookup key = some e → e.contentSha256 = key ∨
        ∃ b, (if key = checksum then some bytes else last key) = some b ∧ e.contentSha256 = computeHash H b := by
    intro entries entry hhash hkept key e hkey
    rw [LookupMap.lookup_insert_iff] at hkey
    split at hkey
    · next heq =>
        obtain rfl := Option.some.inj hkey
        exact Or.inr ⟨bytes, if_pos heq, hhash⟩
    · next hne =>
        rw [if_neg hne]
        exact hv key e (hkept key e hkey hne)
  unfold storeEntry
  cases hold : c.entries.lookup checksum with
  | none =>
      constructor
      case counted =>
        unfold Cache.Counted Cache.sizes at *
        dsimp only
        rw [LookupMap.total_insert_new hold, hc]
      case fits => exact hfits
      case vouched => exact hvouched rfl fun key e hkey _ => hkey
  | some old =>
      have herase := LookupMap.total_erase_old (f := fun _ e => e.size) hold
      constructor
      case counted =>
        unfold Cache.Counted Cache.sizes at *
        dsimp only
        rw [LookupMap.total_insert_new (AList.lookup_erase checksum c.entries)]
        dsimp only
        omega
      case fits =>
        show c.totalSize - old.size + bytes.length ≤ c.maxSizeBytes
        omega
      case vouched => exact hvouched rfl fun key e hkey _ => (LookupMap.lookup_of_erase hkey).2

end Operations

/-! ## Runs -/

section Runs
variable {H : Host} {tr : List Step} {s : State}

theorem lastPut_append (counts : Step → Bool) (tr : List Step) (t : Step) :
    lastPut counts (tr ++ [t]) = recalled counts (lastPut counts tr) t := by
  rw [lastPut, List.foldl_append]
  rfl

/-- A step keeps every cache sound. -/
theorem sound_step {t : Step} {last : String → Option (List UInt8)} (h : Fires (next H) t)
    (hpre : ∀ c, t.pre.cache = some c → Sound H last c) :
    ∀ c, t.post.cache = some c → Sound H (recalled Step.stores last t) c := by
  obtain ⟨pre, event, out, post⟩ := t
  intro c hc
  cases event with
  | changed disk =>
      obtain ⟨rfl, rfl⟩ : { pre with disk } = post ∧ Output.none = out := by
        simpa [Fires, next] using h
      exact hpre c hc
  | new maxSizeMb opened =>
      obtain ⟨rfl, rfl⟩ : State.mk (new H maxSizeMb pre.disk opened).1 (new H maxSizeMb pre.disk opened).2 = post ∧
          Output.created (new H maxSizeMb pre.disk opened).1.isSome = out := by
        simpa [Fires, next] using h
      exact new_sound hc
  | get checksum current now =>
      cases hcache : pre.cache with
      | none => simp [Fires, next, hcache] at h
      | some c₀ =>
          simp only [Fires, next, hcache, Option.bind_eq_bind, Option.bind_some, Option.pure_def,
            Option.some.injEq, Prod.mk.injEq] at h
          obtain ⟨rfl, -⟩ := h
          obtain rfl := Option.some.inj hc
          exact get_sound (hpre c₀ hcache) checksum current now
  | put checksum bytes now write =>
      cases hcache : pre.cache with
      | none => simp [Fires, next, hcache] at h
      | some c₀ =>
          simp only [Fires, next, hcache, Option.bind_eq_bind, Option.bind_some, Option.pure_def,
            Option.some.injEq, Prod.mk.injEq] at h
          obtain ⟨rfl, rfl⟩ := h
          obtain rfl := Option.some.inj hc
          have hsound := hpre c₀ hcache
          rcases put_cases H c₀ pre.disk checksum bytes now write with
            ⟨hlarge, hput⟩ | ⟨hsmall, c', disk', hkeeps, hfits, hput | hput⟩
          · rw [hput]
            simpa [recalled, Step.stores, Step.succeeds, hcache, Nat.not_le.mpr hlarge] using hsound
          · rw [hput]
            simpa [recalled, Step.stores, Step.succeeds, hcache] using hkeeps.sound hsound
          · rw [hput]
            have hstored := storeEntry_sound (hkeeps.counted hsound.counted) (hfits hsound.counted)
              (hkeeps.vouched last hsound.vouched) checksum now
            simpa [recalled, Step.stores, Step.succeeds, hcache, hsmall] using hstored

/-- Every cache of a run is sound. -/
theorem sound_run (h : Run (next H) {} tr s) : ∀ c, s.cache = some c → Sound H (lastPut Step.stores tr) c := by
  induction h with
  | start => nofun
  | step _ hf ih =>
      rw [lastPut_append]
      exact sound_step hf ih

/-- What a read gives out is vouched for. -/
theorem served_vouched {c : Cache} {disk : Disk} {checksum : String} {current : Option String} {now : Nat}
    {last : String → Option (List UInt8)} (hv : c.Vouched H last) {bytes : List UInt8}
    (hget : (get H c disk checksum current now).1 = some bytes)
    (hfree : ∀ stored ∈ last checksum, CollisionFree H.sha256 [stored] [bytes]) :
    computeHash H bytes = checksum ∨ current = some (computeHash H bytes) ∧ last checksum = some bytes := by
  rcases get_cases H c disk checksum current now with ⟨-, hmiss⟩ | ⟨entry, hentry, hmiss | ⟨served, hhit, hhash, hkey⟩⟩
  · rw [hmiss] at hget
    cases hget
  · rw [hmiss] at hget
    cases hget
  · rw [hhit] at hget
    obtain rfl := Option.some.inj hget
    rw [hhash]
    rcases hkey with hkey | hcurrent
    · exact Or.inl hkey
    · rcases hv checksum entry hentry with hkey | ⟨stored, hlast, hstored⟩
      · exact Or.inl hkey
      · -- the bytes have the hash of the ones that were put, so they are these
        have hsame : stored = served := (hfree stored hlast).head (hexEncode_inj (hstored.symm.trans hhash.symm))
        exact Or.inr ⟨hcurrent, hsame ▸ hlast⟩

end Runs

/-- **No bytes nobody vouches for.** Over every run of a worker and of whoever else writes to the directory: bytes that
    a read gives out have the key for their hash, or they have the hash the coordinator reports now and are the bytes
    of the last put under the key, since the last restart, that stored any, unless the two collide; and the total is
    always the sum of the sizes and within the limit. -/
theorem cache_serves_vouched {H : Host} {tr : List Step} {s : State} (h : Run (next H) {} tr s) :
    (∀ tr₁ t tr₂ checksum current now bytes, tr = tr₁ ++ t :: tr₂ → t.event = .get checksum current now →
      t.out = .got (some bytes) →
      (∀ stored ∈ lastPut Step.stores tr₁ checksum, CollisionFree H.sha256 [stored] [bytes]) →
        computeHash H bytes = checksum ∨
          current = some (computeHash H bytes) ∧ lastPut Step.stores tr₁ checksum = some bytes) ∧
    (∀ c, s.cache = some c → c.totalSize = c.sizes ∧ c.totalSize ≤ c.maxSizeBytes) := by
  constructor
  · rintro tr₁ ⟨pre, event, out, post⟩ tr₂ checksum current now bytes rfl rfl rfl hfree
    obtain ⟨hrun, hf, -⟩ := h.at_split
    cases hcache : pre.cache with
    | none => simp [Fires, next, hcache] at hf
    | some c =>
        simp only [Fires, next, hcache, Option.bind_eq_bind, Option.bind_some, Option.pure_def,
          Option.some.injEq, Prod.mk.injEq, Output.got.injEq] at hf
        exact served_vouched (sound_run hrun c hcache).vouched hf.2 hfree
  · intro c hc
    have hsound := sound_run h c hc
    exact ⟨hsound.counted, hsound.fits⟩

/-! ## A build under its coordinates -/

/-- A host whose hashes are short, and whose map is walked in the order of its entries. -/
def plainHost : Host where
  sha256 := id
  order := { walk := fun entries => entries.entries.map fun e => (e.1, e.2), perm := fun _ => .refl _ }

/-- A worker with a cache of one megabyte downloads a build. -/
def downloaded : List Event := [.new 1 (.listed fun _ => 0), .put "build" [1] 1 .done]

/-- The build is served while the coordinator holds it. -/
theorem build_served : ∃ tr s, Run (next plainHost) {} tr s ∧
    (∃ tr₁ t tr₂, tr = tr₁ ++ t :: tr₂ ∧ t.event = .get "build" (some "01") 2 ∧ t.out = .got (some [1]) ∧
      lastPut Step.stores tr₁ "build" = some [1]) ∧
    ∀ c, s.cache = some c → c.totalSize = c.sizes ∧ c.totalSize ≤ c.maxSizeBytes := by
  have hreplay : (replay (next plainHost) {} (downloaded ++ [.get "build" (some "01") 2])).any
      (fun x => ofThree (fun _ _ t => decide (t.out = .got (some [1]))) x.1) = true := by decide +kernel
  obtain ⟨⟨tr, s⟩, hr, hp⟩ := (Option.any_eq_true _ _).mp hreplay
  obtain ⟨t₁, t₂, t, rfl, hout⟩ := exists_of_ofThree hp
  have hevents := replay_events hr
  have hget : t.event = .get "build" (some "01") 2 := (List.cons.inj (List.cons.inj (List.cons.inj hevents).2).2).1
  have hrun := run_of_replay hr
  obtain ⟨hserved, hsizes⟩ := cache_serves_vouched hrun
  refine ⟨_, s, hrun, ⟨[t₁, t₂], t, [], rfl, hget, of_decide_eq_true hout, ?_⟩, hsizes⟩
  have hvouched := hserved [t₁, t₂] t [] "build" (some "01") 2 [1] rfl hget (of_decide_eq_true hout)
    fun _ _ => Function.injective_id.injOn
  exact (hvouched.resolve_left (by decide +kernel)).2

/-- A rebuild that is larger than the whole cache is put with success and not stored: the older build is served. -/
theorem older_build_served : ∃ tr₁ t s, Run (next plainHost) {} (tr₁ ++ [t]) s ∧
    t.event = .get "build" (some (computeHash plainHost [1])) 3 ∧ t.out = .got (some [1]) ∧
    computeHash plainHost [1] ≠ "build" ∧
    lastPut Step.succeeds tr₁ "build" = some (List.replicate 1048577 0) := by
  obtain ⟨rebuild, hrebuild⟩ : ∃ rebuild, rebuild = List.replicate 1048577 (0 : UInt8) := ⟨_, rfl⟩
  have hreplay : (replay (next plainHost) {} downloaded).any (fun x => x.2.cache.any fun (c : Cache) =>
      decide (c.maxSizeBytes = 1048576 ∧
        (get plainHost c x.2.disk "build" (some (computeHash plainHost [1])) 3).1 = some [1])) = true := by
    decide +kernel
  obtain ⟨tr, s, hrun, hp⟩ := exists_run hreplay
  obtain ⟨c, hcache, hc⟩ := (Option.any_eq_true _ _).mp hp
  have hcache : s.cache = some c := hcache
  obtain ⟨hlimit, hget⟩ := of_decide_eq_true hc
  have hlarge : c.maxSizeBytes < rebuild.length := by
    rw [hlimit, hrebuild, List.length_replicate]
    decide
  rw [← hrebuild]
  have hput : put plainHost c s.disk "build" rebuild 2 .done = (true, c, s.disk) := if_pos hlarge
  have hstep : Fires (next plainHost)
      ⟨s, .put "build" rebuild 2 .done, .stored true, { cache := some c, disk := s.disk }⟩ := by
    simp only [Fires, next, hcache, Option.bind_eq_bind, Option.bind_some, hput]
    rfl
  have hread : Fires (next plainHost)
      ⟨{ cache := some c, disk := s.disk }, .get "build" (some (computeHash plainHost [1])) 3, .got (some [1]),
        { cache := some (get plainHost c s.disk "build" (some (computeHash plainHost [1])) 3).2.1
          disk := (get plainHost c s.disk "build" (some (computeHash plainHost [1])) 3).2.2 }⟩ := by
    rw [← hget]
    rfl
  refine ⟨_, _, _, .step (.step hrun hstep) hread, rfl, rfl, by decide +kernel, ?_⟩
  rw [lastPut_append]
  rfl

end WasmCache
end Worker
end Outlayer
