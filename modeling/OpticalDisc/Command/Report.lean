import OpticalDisc.Error

/-!
# Reports of failures

What a failed command tells the user: a message, and below it the failures that caused it. A single
cause stands alone, several are numbered. The lines of a cause are indented.
-/

namespace OpticalDisc.Command

structure Report where
  message : String
  causes : List String := []
  deriving DecidableEq, Repr

namespace Report

/-- The lines of `text`, the first one after `first` and the others after `others`. -/
def indented (first others text : String) : List String :=
  match text.splitOn "\n" with
  | [] => [first]
  | line :: rest => (first ++ line) :: rest.map (others ++ ·)

def causeLines (causes : List String) : List String :=
  match causes with
  | [cause] => indented "    " "    " cause
  | _ => (causes.zipIdx.map fun (cause, i) => indented s!"    {i}: " "       " cause).flatten

def lines (report : Report) : List String :=
  let head := s!"Error: {report.message}"
  if report.causes.isEmpty then [head] else [head, "", "Caused by:"] ++ causeLines report.causes

def text (report : Report) : String :=
  String.join (report.lines.map (· ++ "\n"))

/-- The failures that an error consists of, the outermost first. -/
def causesOf (e : Error) : List String :=
  match e with
  | .io cause => [e.message, cause.message]
  | _ => [e.message]

/-- A failed operation on a disc, with what was being done. -/
def ofError (doing : String) (e : Error) : Report :=
  ⟨doing, causesOf e⟩

end Report

end OpticalDisc.Command
