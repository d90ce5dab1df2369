import DmaReadout.Channel.Emulated
import DmaReadout.Files

/-! # Exclusive use of a channel

* `Files.Refusal`, `Files.openAt?`: a file is opened, unless its place is refused.
* `Lock`: the lock file of one channel of a card, held by somebody.
* `LockTable`: the locks that are held; nobody holds a lock that somebody else holds.
* `LockTable.openChannel`: opens an emulated channel together with its lock. -/

namespace DmaReadout

namespace Files

/-- The places that are refused to whoever opens a file there, for want of permission for instance. It may
depend on what is there. -/
abbrev Refusal := Files → Place → Bool

/-- No place is refused. -/
abbrev Refusal.never : Refusal := fun _ _ => false

/-- The place of the file that a path names, opened for reading and writing, and the tree with it. A file
that is not there is made. None if it cannot be opened. -/
def openAt? (fs : Files) (refuses : Refusal) (path : String) : Option (Place × Files) :=
  match fs.filePlace path, fs.openOrCreate path with
  | .ok place, .ok (_, files) => if refuses fs place then none else some (place, files)
  | _, _ => none

end Files

/-- A lock that somebody holds. -/
structure Lock where
  /-- The path that the lock file was opened at. -/
  path : String
  /-- Where the lock file stands. -/
  place : Place
  deriving Repr, DecidableEq

/-- The locks that are held. -/
structure LockTable where
  /-- The files among which the lock files are. -/
  files : Files
  /-- Where the lock files stand whose locks are held. -/
  held : List Place

namespace LockTable

/-- The lock of a channel of a card in a folder, if its lock file can be opened and nobody holds it. -/
def acquire (t : LockTable) (folder : String) (card : CardId) (channel : UInt32)
    (refuses : Files.Refusal := .never) : Except Error Lock × LockTable :=
  let path := Files.join folder (card.lockName channel)
  match t.files.openAt? refuses path with
  | none => (.error (.buffer (.openingLock path)), t)
  | some (place, files) =>
    if place ∈ t.held then (.error (.capability (.inUse channel card)), { t with files })
    else (.ok ⟨path, place⟩, ⟨files, place :: t.held⟩)

/-- The table after a lock was given up. -/
def release (t : LockTable) (lock : Lock) : LockTable :=
  { t with held := t.held.erase lock.place }

/-- A channel of an emulated card, with its lock. There is no driver for other cards. -/
def openChannel (t : LockTable) (folder : String) (card : CardId) (channel : UInt32)
    (bufferSize pageSize : Nat) (pattern : Pattern) (refuses : Files.Refusal := .never) :
    Except Error (Emulated × Lock) × LockTable :=
  match card.family? with
  | none => (.error (.capability (.noDriver card)), t)
  | some family =>
    match t.acquire folder card channel refuses with
    | (.error e, t) => (.error e, t)
    | (.ok lock, t) =>
      match Emulated.create family bufferSize pageSize pattern with
      | .error e => (.error e, t.release lock)
      | .ok c => (.ok (c, lock), t)

end LockTable

end DmaReadout
