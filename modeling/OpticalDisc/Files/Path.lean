/-!
# Path texts

A path is the text that the user gave. Its parts are the names between slashes; empty parts and
later `.` parts do not count.
-/

namespace OpticalDisc

structure Path where
  text : String
  deriving DecidableEq, Repr

namespace Path

inductive Component
  | root
  | here
  | up
  | name (text : String)
  deriving DecidableEq, Repr

variable (p : Path)

def isAbsolute : Bool :=
  p.text.toList.head? == some '/'

/-- The texts between slashes. -/
def pieces : List String :=
  p.text.splitOn "/"

/-- The part that a piece stands for after the first one. -/
def componentOf? (piece : String) : Option Component :=
  if piece = "" ∨ piece = "." then none
  else if piece = ".." then some .up
  else some (.name piece)

def components : List Component :=
  let rest := p.pieces.filterMap componentOf?
  if p.isAbsolute then .root :: rest
  else if p.pieces.head? = some "." then .here :: rest
  else rest

/-- The last part, if it is a name. -/
def fileName? : Option String :=
  match p.components.getLast? with
  | some (.name text) => some text
  | _ => none

def Component.text : Component → String
  | root => ""
  | here => "."
  | up => ".."
  | name text => text

/-- The path with these parts. -/
def ofComponents : List Component → Path
  | [.root] => ⟨"/"⟩
  | parts => ⟨String.intercalate "/" (parts.map Component.text)⟩

/-- The path without its last part; the root and the empty path have no parent. -/
def parent? : Option Path :=
  match p.components.getLast? with
  | none | some .root => none
  | some _ => some (ofComponents p.components.dropLast)

/-- The part of the file name after its last dot, unless that dot comes first. -/
def extension? : Option String := do
  let name ← p.fileName?
  let reversed := name.toList.reverse
  let after := reversed.takeWhile (· ≠ '.')
  match reversed.drop after.length with
  | [] | ['.'] => none
  | _ => some (String.ofList after.reverse)

/-- The path of `name` inside the directory. -/
def join (name : String) : Path :=
  if name.toList.head? = some '/' then ⟨name⟩
  else if p.text = "" ∨ p.text.toList.getLast? = some '/' then ⟨p.text ++ name⟩
  else ⟨p.text ++ "/" ++ name⟩

end Path

end OpticalDisc
