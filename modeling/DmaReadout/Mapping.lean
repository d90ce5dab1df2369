import DmaReadout.BufferSize
import DmaReadout.Files
import DmaReadout.Memory

/-! # Mapped memory

* `Mapping`: the memory of a buffer, with the file behind it if there is one.
* `Mapping.anonymous`, `Mapping.ofFile`: memory of its own, and the memory of a file.
* `Mapping.save`, `Mapping.reload`: the file and the memory hold the same words. -/

namespace DmaReadout

/-- The memory of a buffer, and what is behind it. -/
structure Mapping where
  /-- The memory. -/
  memory : Memory
  /-- The number of the file behind it. -/
  file? : Option Nat
  /-- The path that the file was opened at. -/
  path? : Option String
  /-- Whether the file is removed together with the mapping. -/
  removeOnDrop : Bool

namespace Mapping

/-- The first size that is more memory than there is. -/
def memoryLimit : Nat := 1 <<< 35

/-- The greatest length of a file. -/
def fileLimit : Nat := 1 <<< 44 - 4096

/-- Memory without a file behind it, all zero. -/
def anonymous (size : Nat) : Except Error Mapping :=
  if size = 0 then .error (.config .emptyBuffer)
  else if memoryLimit ≤ size then .error (.buffer .anonymous)
  else .ok ⟨{ size }, none, none, false⟩

/-- The memory of the file at a path, which is made if it is not there and brought to `size`
bytes. The folders and files are changed also if a later stage fails. -/
def ofFile (fs : Files) (path : String) (size : Nat) (removeOnDrop : Bool) :
    Except Error Mapping × Files :=
  if size = 0 then (.error (.config .emptyBuffer), fs)
  else
    match fs.openOrCreate path with
    | .error _ => (.error (.buffer (.opening path)), fs)
    | .ok (n, fs) =>
      if fileLimit < size then (.error (.buffer (.sizing path)), fs)
      else
        let content := (fs.content n).resize size
        (.ok ⟨⟨size, content.cells⟩, some n, some path, removeOnDrop⟩,
          fs.setContent n content)

/-- The files, with what the memory holds in the file behind it. The file keeps its length. -/
def save (m : Mapping) (fs : Files) : Files :=
  match m.file? with
  | none => fs
  | some n => fs.setContent n ⟨(fs.content n).size, m.memory.cells⟩

/-- The mapping, with what the file behind it holds. -/
def reload (m : Mapping) (fs : Files) : Mapping :=
  match m.file? with
  | none => m
  | some n => { m with memory := ⟨m.memory.size, (fs.content n).cells⟩ }

@[simp] theorem size_reload (m : Mapping) (fs : Files) :
    (m.reload fs).memory.size = m.memory.size := by
  unfold reload
  split <;> rfl

/-- The files after the mapping was given up. -/
def drop (m : Mapping) (fs : Files) : Files :=
  match m.path? with
  | some path => if m.removeOnDrop then fs.remove path else fs
  | none => fs

end Mapping

end DmaReadout
