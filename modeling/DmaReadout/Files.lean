import DmaReadout.Cells
import DmaReadout.Fault

/-! # Folders and files

* `Content`: the bytes of a file.
* `Files`: a tree of folders with numbered files; a file that is removed keeps its number, so that
  whoever holds it still has its bytes.
* `Files.locate`: where a path leads, and which fault it meets first on the way.
* `Files.openOrCreate`, `Files.write`, `Files.read?`, `Files.length?`, `Files.remove`,
  `Files.makeFolders`. -/

namespace DmaReadout

/-- The bytes of a file, and what is kept behind its end. -/
structure Content where
  /-- The length of the file. -/
  size : Nat
  /-- The bytes, as words; those behind the end of the file can be seen in its mappings only. -/
  cells : Cells

namespace Content

/-- A file without bytes. -/
def empty : Content := ⟨0, .zero⟩

/-- The word that begins `4 * i` bytes behind the start; bytes that are not there count as zero. -/
def wordOfBytesAt (bytes : ByteArray) (i : Nat) : Word :=
  let byte k := if h : 4 * i + k < bytes.size then bytes[4 * i + k] else 0
  Word.ofBytes (byte 0) (byte 1) (byte 2) (byte 3)

/-- A file with the given bytes. -/
def ofBytes (bytes : ByteArray) : Content :=
  ⟨bytes.size, Nat.fold ((bytes.size + 3) / 4) (fun i _ c => c.set i (wordOfBytesAt bytes i)) .zero⟩

/-- The number of bytes in a block of words. -/
def blockBytes : Nat := 4 * Cells.blockWords

/-- A block of zeros. -/
def zeroBlock : ByteArray := ⟨Array.replicate blockBytes 0⟩

/-- The first `n` bytes of block `b`. What the block does not hold is zero. -/
def bytesOfBlock (c : Cells) (b n : Nat) : ByteArray :=
  let held := ((c.blocks.getD b #[]).foldl pushWord .empty).extract 0 n
  held ++ zeroBlock.extract 0 (n - held.size)

/-- All bytes of a file, block after block. -/
def toBytes (c : Content) : ByteArray :=
  Nat.fold ((c.size + blockBytes - 1) / blockBytes)
    (fun b _ out => out ++ bytesOfBlock c.cells b (min blockBytes (c.size - b * blockBytes)))
    (.emptyWithCapacity c.size)

/-- The first `n` bytes of a word, the others zero. -/
def keepBytes (n : Nat) (w : Word) : Word :=
  (w.toNat % 1 <<< (8 * n)).toUInt32

/-- The words up to `n` bytes behind the start, all further bytes zero. -/
def cutCells (c : Cells) (n : Nat) : Cells :=
  let last := keepBytes (n % 4) (c.get (n / 4))
  if last = 0 then c.cut (n / 4) else (c.cut (n / 4)).set (n / 4) last

/-- The file cut or filled up with zeros to `size` bytes. What was behind its end is lost. -/
def resize (c : Content) (size : Nat) : Content :=
  ⟨size, cutCells c.cells (min size c.size)⟩

end Content

/-- The names on the way from the root of the tree. -/
abbrev Place := List String

/-- What stands at a place. -/
inductive Entry where
  /-- A folder. -/
  | folder
  /-- The file with the given number. -/
  | file (number : Nat)
  deriving Repr, DecidableEq

/-- A tree of folders with numbered files. -/
structure Files where
  /-- What stands where, apart from the root. -/
  entries : List (Place × Entry)
  /-- The contents of the files, by number. -/
  contents : Array Content

/-- Where a path leads. -/
inductive Target where
  /-- To a folder that is there. -/
  | folder (place : Place)
  /-- To a name in a folder that is there; `closed` if the path ends in a slash. -/
  | name (place : Place) (closed : Bool)
  deriving Repr, DecidableEq

namespace Files

/-- The folder in which paths without a leading slash begin. -/
def home : Place := ["home"]

/-- The folder for files of short life. -/
def scratch : String := "/tmp"

/-- A tree with two empty folders. -/
def start : Files := ⟨[(home, .folder), (["tmp"], .folder)], #[]⟩

/-- What stands at a place. -/
def entry? (fs : Files) : Place → Option Entry
  | [] => some .folder
  | p => (fs.entries.find? fun e => e.1 == p).map (·.2)

/-- The names of a path. -/
def names (path : String) : List String :=
  ((path.splitOn "/").filter (· ≠ ""))

/-- Whether a name is longer than the 255 bytes that are allowed. -/
def isLong (name : String) : Bool :=
  255 < name.utf8ByteSize

/-- The folder that a name leads to from another. -/
def enter (fs : Files) (place : Place) (name : String) : Except FileFault Place :=
  if name = "." then .ok place
  else if name = ".." then .ok place.dropLast
  else if isLong name then .error .nameTooLong
  else
    match fs.entry? (place ++ [name]) with
    | none => .error .notFound
    | some (.file _) => .error .notDirectory
    | some .folder => .ok (place ++ [name])

/-- The folder in which a path begins. -/
def origin (path : String) : Place :=
  if path.startsWith "/" then [] else home

/-- Where a path leads. Its folders must be there, the last name need not. -/
def locate (fs : Files) (path : String) : Except FileFault Target :=
  if path.any (· == '\x00') then .error .nulInName
  else if path = "" then .error .notFound
  else if 4096 ≤ path.utf8ByteSize then .error .nameTooLong
  else
    match (names path).getLast? with
    | none => .ok (.folder (origin path))
    | some last => do
      let parent ← (names path).dropLast.foldlM fs.enter (origin path)
      if last = "." then return .folder parent
      else if last = ".." then return .folder parent.dropLast
      else return .name (parent ++ [last]) (path.endsWith "/")

/-- The place of the file that a path names, for writing. -/
def filePlace (fs : Files) (path : String) : Except FileFault Place :=
  match fs.locate path with
  | .error e => .error e
  | .ok (.folder _) => .error .isDirectory
  | .ok (.name p closed) =>
    if closed then .error .isDirectory
    else if isLong (p.getLastD "") then .error .nameTooLong
    else if fs.entry? p = some .folder then .error .isDirectory
    else .ok p

/-- The number of the file that a path names. A file that is not there is made. -/
def openOrCreate (fs : Files) (path : String) : Except FileFault (Nat × Files) :=
  match fs.filePlace path with
  | .error e => .error e
  | .ok p =>
    match fs.entry? p with
    | some (.file n) => .ok (n, fs)
    | _ =>
      .ok (fs.contents.size, ⟨(p, .file fs.contents.size) :: fs.entries,
        fs.contents.push .empty⟩)

/-- The content of file `n`. -/
def content (fs : Files) (n : Nat) : Content :=
  fs.contents.getD n .empty

/-- The tree with another content of file `n`. -/
def setContent (fs : Files) (n : Nat) (c : Content) : Files :=
  match fs with
  | ⟨entries, contents⟩ => ⟨entries, contents.setIfInBounds n c⟩

/-- The tree in which the file that a path names holds exactly the given bytes. -/
def write (fs : Files) (path : String) (bytes : ByteArray) : Except FileFault Files :=
  (fs.openOrCreate path).map fun (n, fs) => fs.setContent n (.ofBytes bytes)

/-- The number of the file at a path. -/
def number? (fs : Files) (path : String) : Option Nat :=
  match fs.locate path with
  | .ok (.name p false) =>
    match fs.entry? p with
    | some (.file n) => some n
    | _ => none
  | _ => none

/-- The content of the file at a path. -/
def read? (fs : Files) (path : String) : Option Content :=
  (fs.number? path).map fs.content

/-- The length that is told of a folder. -/
def folderSize : Nat := 4096

/-- The length of what stands at a path. -/
def length? (fs : Files) (path : String) : Option Nat :=
  match fs.locate path with
  | .error _ => none
  | .ok (.folder _) => some folderSize
  | .ok (.name p closed) =>
    match fs.entry? p with
    | none => none
    | some .folder => some folderSize
    | some (.file n) => if closed then none else some (fs.content n).size

/-- The tree without the file at a path. -/
def remove (fs : Files) (path : String) : Files :=
  match fs.locate path with
  | .ok (.name p false) =>
    ⟨fs.entries.filter fun e => e.1 != p || e.2 == .folder, fs.contents⟩
  | _ => fs

/-- The tree with a folder at a place. -/
def addFolder (fs : Files) (p : Place) : Files :=
  match fs.entry? p with
  | none => ⟨(p, .folder) :: fs.entries, fs.contents⟩
  | some _ => fs

/-- The tree with the folder that a path names. The folders on the way must be there. -/
def makeFolder (fs : Files) (path : String) : Except FileFault Files :=
  match fs.locate path with
  | .error e => .error e
  | .ok (.folder _) => .ok fs
  | .ok (.name p _) =>
    if isLong (p.getLastD "") then .error .nameTooLong
    else
      match fs.entry? p with
      | some (.file _) => .error .notDirectory
      | _ => .ok (fs.addFolder p)

/-- The path with the given names. -/
def ofNames (absolute : Bool) (names : List String) : String :=
  (if absolute then "/" else "") ++ "/".intercalate names

/-- The names of a path that tell its parents apart: a single point says nothing behind another
name. -/
def steps (path : String) : List String :=
  match path.startsWith "/", names path with
  | false, "." :: rest => "." :: rest.filter (· ≠ ".")
  | _, all => all.filter (· ≠ ".")

/-- A path and its parents, the longest first. -/
def chain (path : String) : List String :=
  if path = "" then []
  else
    let steps := steps path
    path :: (List.range (steps.length - 1)).map fun k =>
      ofNames (path.startsWith "/") (steps.take (steps.length - 1 - k))

/-- The tree with the folder that the first path of a chain names. Where it has no place yet, its
parent is made first. The first fault counts; what was made before stays. -/
def makeChain (fs : Files) : List String → Except FileFault Unit × Files
  | [] => (.ok (), fs)
  | path :: parents =>
    match fs.makeFolder path with
    | .ok fs => (.ok (), fs)
    | .error .notFound =>
      match fs.makeChain parents with
      | (.error e, fs) => (.error e, fs)
      | (.ok _, fs) =>
        match fs.makeFolder path with
        | .ok fs => (.ok (), fs)
        | .error e => (.error e, fs)
    | .error e => (.error e, fs)

/-- The tree with the folder that a path names, and with those on the way to it. -/
def makeFolders (fs : Files) (path : String) : Except FileFault Unit × Files :=
  fs.makeChain (chain path)

/-- The path of a name in a folder. -/
def join (folder name : String) : String :=
  if folder = "" || folder.endsWith "/" then folder ++ name else folder ++ "/" ++ name

end Files

end DmaReadout
