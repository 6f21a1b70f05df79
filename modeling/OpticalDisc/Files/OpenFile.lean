import OpticalDisc.Files.Tree
import OpticalDisc.Storage.Memory

/-!
# Open files

A file of a tree that has been opened for reading. It is known by its names from the root, so that
whatever is written to the same file later shows in the reads that follow.
-/

namespace OpticalDisc

/-- The bytes of a file behind a position. -/
structure OpenFile where
  /-- The names that lead to the file from the root of its tree. -/
  names : List String
  bytes : MemoryStore

namespace OpenFile

variable (file : OpenFile)

/-- The file after the one with these names has got a new content. -/
def afterWrite (names : List String) (content : ByteArray) : OpenFile :=
  if file.names = names then { file with bytes.content := content } else file

/-- Runs an action on the bytes of a file. -/
def onBytes {α : Type} (action : EStateM IoError MemoryStore α) : EStateM IoError OpenFile α :=
  fun file =>
    match action file.bytes with
    | .ok a bytes => .ok a { file with bytes }
    | .error e bytes => .error e { file with bytes }

theorem onBytes_ok {α : Type} {action : EStateM IoError MemoryStore α} {file file' : OpenFile}
    {a : α} (h : onBytes action file = .ok a file') : action file.bytes = .ok a file'.bytes := by
  unfold onBytes at h
  split at h
  · rename_i hb
    simp only [EStateM.Result.ok.injEq] at h
    rw [hb, h.1, ← h.2]
  · simp at h

theorem onBytes_error {α : Type} {action : EStateM IoError MemoryStore α} {file file' : OpenFile}
    {e : IoError} (h : onBytes action file = .error e file') :
    action file.bytes = .error e file'.bytes := by
  unfold onBytes at h
  split at h
  · simp at h
  · rename_i hb
    simp only [EStateM.Result.error.injEq] at h
    rw [hb, h.1, ← h.2]

instance : ByteStore OpenFile where
  read n := onBytes (SeekableBytes.read n)
  seek target := onBytes (SeekableBytes.seek target)
  patience file := ByteStore.patience file.bytes
  read_interrupted h hk := ByteStore.read_interrupted (onBytes_error h) hk
  seek_interrupted h hk := ByteStore.seek_interrupted (onBytes_error h) hk
  seek_patience h := ByteStore.seek_patience (onBytes_ok h)

end OpenFile

/-- Opens the file at a path. -/
def FileTree.openFile (tree : FileTree) (path : Path) : Except OsError OpenFile := do
  return { names := ← tree.names path, bytes := { content := ← tree.content path } }

end OpticalDisc
