import Outlayer.Lib.Collections
import Outlayer.Lib.Run
import Outlayer.Lib.Text
import Mathlib.Data.List.MinMax

/-!
# `Worker.WasmCache` — raw wasm bytes on disk, vouched for in memory

An entry records in memory where its file is, how large it is and what its bytes hash to; the bytes are in the file,
which somebody else can write to. The key of an entry is the hash of its bytes, or that of the coordinates of a build.
A restart loses the records, and takes back only files that are named by the hash of what they hold.

What a call to the file system answers is part of an event where the call can fail. Sizes are numbers: the files there
are do not come near 2^64 bytes together.
-/

namespace Outlayer
open Text Collections Runs

namespace Worker
namespace WasmCache

/-! ## The directory -/

/-- What a name in the cache directory stands for. -/
inductive Node
  | file (bytes : List UInt8)
  /-- it has a size, and cannot be read -/
  | unreadable (size : Nat)
  /-- a link to nothing -/
  | dangling

/-- The cache directory, by the names in it. -/
abbrev Disk := LookupMap String Node

/-- `fs::metadata(..).len()` -/
def Node.size? : Node → Option Nat
  | .file bytes      => some bytes.length
  | .unreadable size => some size
  | .dangling        => none

/-- `fs::read` -/
def Node.read? : Node → Option (List UInt8)
  | .file bytes => some bytes
  | _           => none

/-- The bytes of the file at a path. -/
def Disk.read (disk : Disk) (path : String) : Option (List UInt8) := (disk.lookup path).bind Node.read?

/-- How `fs::write` ends; a write that fails leaves at the path whatever it leaves. -/
inductive Write
  | done
  | failed (left : Option Node)

/-- The directory after a write, which may fail and may leave something behind. -/
def Disk.write (disk : Disk) (path : String) (bytes : List UInt8) : Write → Disk
  | .done               => disk.insert path (.file bytes)
  | .failed none        => disk.erase path
  | .failed (some node) => disk.insert path node

/-- The name of the file of a key. -/
def fileName (checksum : String) : String := checksum ++ ".wasm"

/-- The key of a file, where the name has one: what is before the extension `wasm`. -/
def fileChecksum (name : String) : Option String :=
  match stripSuffix name ".wasm" with
  | some checksum => if checksum = "" then none else some checksum
  | none          => none

/-! ## The cache -/

/-- What the cache keeps of a file it stored. -/
structure CacheEntry where
  path : String
  size : Nat
  /-- the hash of the bytes that were stored -/
  contentSha256 : String
  lastUsed : Nat

/-- The cache's entries, by checksum. -/
abbrev Entries := LookupMap String CacheEntry

/-- The cache in memory, with its bound. -/
structure Cache where
  maxSizeBytes : Nat
  entries : Entries := ∅
  totalSize : Nat := 0

/-- The order in which the entries are walked, which is not said of a hash map. -/
structure EntryOrder where
  walk : Entries → List (String × CacheEntry)
  perm : ∀ entries, (walk entries).Perm (entries.entries.map fun e => (e.1, e.2))

/-- What the cache has from outside: the hash of bytes, and the order of its map. -/
structure Host where
  sha256 : List UInt8 → List UInt8
  order : EntryOrder

/-- `compute_hash` -/
def computeHash (H : Host) (bytes : List UInt8) : String := hexEncode (H.sha256 bytes)

/-- An entry goes, and its file with it. -/
def dropEntry (c : Cache) (disk : Disk) (checksum : String) (entry : CacheEntry) : Cache × Disk :=
  ({ c with entries := c.entries.erase checksum, totalSize := c.totalSize - entry.size }, disk.erase entry.path)

/-- `evict_oldest` -/
def evictOldest (H : Host) (c : Cache) (disk : Disk) : Cache × Disk :=
  match (H.order.walk c.entries).argmin fun e => e.2.lastUsed with
  | some (checksum, _) =>
      match c.entries.lookup checksum with
      | some entry => dropEntry c disk checksum entry
      | none       => (c, disk)
  | none => (c, disk)

/-- The loop around it, until `needed` more bytes fit or no entry is left. Each turn takes an entry, so there are no
    more turns than entries. -/
def evictLoop (H : Host) (needed : Nat) : (turns : Nat) → Cache → Disk → Cache × Disk
  | 0, c, disk => (c, disk)
  | turns + 1, c, disk =>
      if c.maxSizeBytes < c.totalSize + needed ∧ c.entries.keys ≠ [] then
        let (c, disk) := evictOldest H c disk
        evictLoop H needed turns c disk
      else (c, disk)

/-- Evicts until the bytes needed fit, or nothing is left. -/
def evictUntilFits (H : Host) (needed : Nat) (c : Cache) (disk : Disk) : Cache × Disk :=
  evictLoop H needed c.entries.keys.length c disk

/-- `evict_if_needed` -/
def evictIfNeeded (H : Host) (c : Cache) (disk : Disk) : Cache × Disk := evictUntilFits H 0 c disk

/-! ## Restart -/

/-- One file of the directory, at the time it is met: taken back under its name, removed, or passed over. -/
def loadFile (H : Host) (times : String → Nat) (at_ : Cache × Disk) (name : String) : Cache × Disk :=
  let (c, disk) := at_
  match fileChecksum name with
  | none => (c, disk)
  | some checksum =>
      match (disk.lookup name).bind Node.size? with
      | none => (c, disk)
      | some size =>
          match disk.read name with
          | none => (c, disk.erase name)
          | some bytes =>
              if computeHash H bytes ≠ checksum then (c, disk.erase name)
              else
                ({ c with
                    entries := c.entries.insert checksum
                      { path := name, size, contentSha256 := checksum, lastUsed := times name }
                    totalSize := c.totalSize + size }, disk)

/-- How the directory is found when the worker starts. -/
inductive Opened
  /-- it is not there and cannot be made -/
  | missing
  /-- it cannot be listed -/
  | unlisted
  /-- it is listed, and its files are met at these times -/
  | listed (times : String → Nat)

/-- `new`, with `load_existing_entries` in it. -/
def new (H : Host) (maxSizeMb : Nat) (disk : Disk) : Opened → Option Cache × Disk
  | .missing  => (none, disk)
  | .unlisted => (some { maxSizeBytes := maxSizeMb * 1024 * 1024 % 2 ^ 64 }, disk)
  | .listed times =>
      let (c, disk) := disk.keys.foldl (loadFile H times) ({ maxSizeBytes := maxSizeMb * 1024 * 1024 % 2 ^ 64 }, disk)
      let (c, disk) := evictIfNeeded H c disk
      (some c, disk)

/-! ## Reads and writes -/

/-- `get`: the bytes of an entry, when they are the ones that were stored and, under a key that is not their hash, the
    ones the coordinator holds now. -/
def get (H : Host) (c : Cache) (disk : Disk) (checksum : String) (currentContentHash : Option String) (now : Nat) :
    Option (List UInt8) × Cache × Disk :=
  match c.entries.lookup checksum with
  | none => (none, c, disk)
  | some entry =>
      let c := { c with entries := c.entries.insert checksum { entry with lastUsed := now } }
      if entry.contentSha256 ≠ checksum ∧ currentContentHash ≠ some entry.contentSha256 then
        (none, dropEntry c disk checksum entry)
      else
        match disk.read entry.path with
        | none => (none, dropEntry c disk checksum entry)
        | some bytes =>
            if computeHash H bytes ≠ entry.contentSha256 then (none, dropEntry c disk checksum entry)
            else (some bytes, c, disk)

/-- The entry of a file that was written, in place of the one the key had. -/
def storeEntry (H : Host) (c : Cache) (checksum : String) (bytes : List UInt8) (now : Nat) : Cache :=
  let c := match c.entries.lookup checksum with
    | some oldEntry => { c with entries := c.entries.erase checksum, totalSize := c.totalSize - oldEntry.size }
    | none          => c
  { c with
    entries := c.entries.insert checksum
      { path := fileName checksum, size := bytes.length, contentSha256 := computeHash H bytes, lastUsed := now }
    totalSize := c.totalSize + bytes.length }

/-- `put`: whether it returns `Ok`. A file larger than the whole cache is not stored, and that is no error. -/
def put (H : Host) (c : Cache) (disk : Disk) (checksum : String) (bytes : List UInt8) (now : Nat) (write : Write) :
    Bool × Cache × Disk :=
  if c.maxSizeBytes < bytes.length then (true, c, disk)
  else
    let (c, disk) := evictUntilFits H bytes.length c disk
    let disk := disk.write (fileName checksum) bytes write
    match write with
    | .failed _ => (false, c, disk)
    | .done     => (true, storeEntry H c checksum bytes now, disk)

/-! ## Runs -/

/-- A worker's cache, where it has one, and the directory. -/
structure State where
  cache : Option Cache := none
  disk : Disk := ∅

/-- What may happen to the cache and its directory. -/
inductive Event
  /-- somebody else leaves the directory like this -/
  | changed (disk : Disk)
  /-- the worker starts, or starts again -/
  | new (maxSizeMb : Nat) (opened : Opened)
  | get (checksum : String) (currentContentHash : Option String) (now : Nat)
  | put (checksum : String) (bytes : List UInt8) (now : Nat) (write : Write)

/-- What a call returns. -/
inductive Output
  | none
  | created (ok : Bool)
  | got (bytes : Option (List UInt8))
  | stored (ok : Bool)
  deriving DecidableEq

/-- What the cache does at an event, and what it answers. -/
def next (H : Host) (s : State) : Event → Option (State × Output)
  | .changed disk => some ({ s with disk }, .none)
  | .new maxSizeMb opened =>
      let (cache, disk) := new H maxSizeMb s.disk opened
      some ({ cache, disk }, .created cache.isSome)
  | .get checksum currentContentHash now => do
      let c ← s.cache
      let (bytes, c, disk) := get H c s.disk checksum currentContentHash now
      pure ({ cache := some c, disk }, .got bytes)
  | .put checksum bytes now write => do
      let c ← s.cache
      let (ok, c, disk) := put H c s.disk checksum bytes now write
      pure ({ cache := some c, disk }, .stored ok)

/-- One event. -/
abbrev Step := Transition State Event Output

end WasmCache
end Worker
end Outlayer
