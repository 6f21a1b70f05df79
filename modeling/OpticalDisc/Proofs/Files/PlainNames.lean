import OpticalDisc.Files.Tree
import OpticalDisc.Proofs.Files.PathPieces

/-!
# Plain names

A relative path without slashes is the name of an entry of the working directory: it is one piece, and
its content is that of the entry.
-/

namespace OpticalDisc

namespace Path

/-- A text that stands for an entry of a directory. -/
structure Plain (path : Path) : Prop where
  notMem : '/' ∉ path.text.toList
  ne_empty : path.text ≠ ""
  ne_here : path.text ≠ "."
  ne_up : path.text ≠ ".."
  size_le : path.text.utf8ByteSize ≤ FileTree.maxNameSize

instance (path : Path) : Decidable path.Plain :=
  decidable_of_iff ('/' ∉ path.text.toList ∧ path.text ≠ "" ∧ path.text ≠ "." ∧ path.text ≠ ".." ∧
      path.text.utf8ByteSize ≤ FileTree.maxNameSize)
    ⟨fun ⟨hslash, hempty, hhere, hup, hsize⟩ => ⟨hslash, hempty, hhere, hup, hsize⟩,
      fun ⟨hslash, hempty, hhere, hup, hsize⟩ => ⟨hslash, hempty, hhere, hup, hsize⟩⟩

theorem Plain.pieces_eq {path : Path} (h : path.Plain) : path.pieces = [path.text] := by
  rw [Path.pieces_eq, List.splitOn_eq_singleton h.notMem, List.map_singleton, String.ofList_toList]

end Path

namespace FileTree

variable {tree : FileTree} {entries : List (String × FileNode)} {path : Path}

theorem names_of_plain (hroot : tree.root = .directory entries) (hworking : tree.working = [])
    (h : path.Plain) {node : FileNode} (hentry : entries.lookup path.text = some node) :
    tree.names path = .ok [path.text] := by
  have hsize := h.size_le
  have hpath : ¬ maxPathSize < path.text.utf8ByteSize := by
    simp only [maxNameSize, maxPathSize] at hsize ⊢
    omega
  have hfollow : tree.follow [] path.text = .ok [path.text] := by
    have hhere : ¬ (path.text = "" ∨ path.text = ".") := by
      simp [h.ne_empty, h.ne_here]
    simp only [follow, hroot, FileNode.at?, if_neg hhere, if_neg h.ne_up,
      if_neg (Nat.not_lt.2 hsize), hentry, Option.isSome_some, if_true, List.nil_append]
  simp only [names, followAll, if_neg h.ne_empty, if_neg hpath, h.pieces_eq, hworking, ite_self,
    List.foldlM_cons, List.foldlM_nil, hfollow]
  rfl

theorem content_of_plain (hroot : tree.root = .directory entries) (hworking : tree.working = [])
    (h : path.Plain) {content : ByteArray}
    (hentry : entries.lookup path.text = some (.file content)) :
    tree.content path = .ok content := by
  have hnames := names_of_plain hroot hworking h hentry
  simp only [FileTree.content, node, hnames, bind, Except.bind, hroot, FileNode.at?,
    FileNode.entries, hentry]

end FileTree

end OpticalDisc
