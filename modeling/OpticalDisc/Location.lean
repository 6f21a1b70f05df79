import OpticalDisc.Files.Tree

/-!
# Disc locations

A location names a disc, with its kind as an optional `dvd:` or `bluray:` mark. Without a mark
the path decides: a Blu-ray disc is one that has a `BDMV` directory in its path or below it.
-/

namespace OpticalDisc

inductive DiscKind
  | dvd
  | bluray
  deriving DecidableEq, Repr

def DiscKind.name : DiscKind → String
  | .dvd => "DVD-Video"
  | .bluray => "Blu-ray"

/-- Whether two texts agree but for the case of ASCII letters. -/
def sameIgnoringCase (a b : String) : Bool :=
  a.toList.map Char.toLower == b.toList.map Char.toLower

/-- The characters after `mark`, matched without regard to ASCII case. -/
def afterMark? (mark text : List Char) : Option (List Char) :=
  if (text.take mark.length).map Char.toLower = mark then some (text.drop mark.length) else none

structure Location where
  kind : DiscKind
  path : Path
  deriving DecidableEq, Repr

namespace Location

def dvdMark : List Char := "dvd:".toList

def blurayMark : List Char := "bluray:".toList

/-- Whether a part of the path is named `BDMV`, or a directory of that name lies below it. -/
def leadsToBluray (tree : FileTree) (path : Path) : Bool :=
  path.components.any (fun
    | .name text => sameIgnoringCase text "BDMV"
    | _ => false) ||
  tree.isDirectory (path.join "BDMV")

/-- The location that a text names among the files of `tree`. -/
def ofText (tree : FileTree) (text : String) : Location :=
  match afterMark? dvdMark text.toList with
  | some rest => ⟨.dvd, ⟨String.ofList rest⟩⟩
  | none =>
    match afterMark? blurayMark text.toList with
    | some rest => ⟨.bluray, ⟨String.ofList rest⟩⟩
    | none => ⟨if leadsToBluray tree ⟨text⟩ then .bluray else .dvd, ⟨text⟩⟩

end Location

/-- Whether `part` occurs in `text`. -/
def occursIn (part text : List Char) : Bool :=
  match text with
  | [] => part.isEmpty
  | _ :: rest => part.isPrefixOf text || occursIn part rest

/-- The score of a name that its extension tells to be a Blu-ray image or index. -/
def extensionScore : Nat := 50

def blurayImageExtensions : List String := ["bdmv", "iso"]

/-- How likely a name is to be a Blu-ray input that is read directly. Names with a `bluray:` mark
anywhere score nothing, because another layer handles them. -/
def directScore (name : String) : Nat :=
  if occursIn Location.blurayMark (name.toList.map Char.toLower) then 0
  else
    match (Path.mk name).extension? with
    | some extension =>
      if blurayImageExtensions.contains (String.ofList (extension.toList.map Char.toLower)) then
        extensionScore
      else 0
    | none => 0

end OpticalDisc
