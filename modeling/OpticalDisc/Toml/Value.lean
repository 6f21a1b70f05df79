/-!
# TOML values and tables

A document is a table of values by key. Tables remember what brought them about, because that
decides which of them later lines may still add to: a table with a header of its own and an inline
table are complete where they stand, one that only a longer header implied may get a header, and
one that dotted keys made may get further dotted keys.
-/

namespace OpticalDisc.Toml

/-- What brought a table about. -/
inductive Origin
  /-- A header of its own, or the document. -/
  | header
  /-- A header that leads through it. -/
  | implied
  /-- A dotted key. -/
  | dotted
  /-- Braces. -/
  | inline
  deriving DecidableEq, Repr

inductive Value
  | text (content : String)
  | integer (n : Int)
  /-- A decimal fraction, whose value is not kept. -/
  | fraction
  | boolean (b : Bool)
  /-- A date, a time or both, whose value is not kept. -/
  | dateTime
  | list (elements : List Value)
  | table (origin : Origin) (entries : List (String × Value))
  /-- The tables under repeated headers in double brackets, the newest first. -/
  | sections (latest : List (String × Value)) (earlier : List (List (String × Value)))

/-- The entries of a table. New ones come in front. -/
abbrev Entries := List (String × Value)

namespace Entries

/-- The entries with a new one, unless its key is taken. -/
def insert? (entries : Entries) (key : String) (value : Value) : Option Entries :=
  if (entries.lookup key).isSome then none else some ((key, value) :: entries)

/-- The entries with this value for a key, whatever it was. -/
def put (entries : Entries) (key : String) (value : Value) : Entries :=
  if (entries.lookup key).isSome then
    entries.map fun entry => if entry.1 = key then (key, value) else entry
  else (key, value) :: entries

/-- Inserts below a path of dotted keys, in a table of this origin. The tables on the way must not
have a header or braces of their own, and the last one has to come from dotted keys. -/
def insertBelow? (key : String) (value : Value) : List String → Origin → Entries → Option Entries
  | [], origin, entries => if origin = .dotted then entries.insert? key value else none
  | name :: path, _, entries => do
    match entries.lookup name with
    | none => return entries.put name (.table .dotted (← insertBelow? key value path .dotted []))
    | some (.table .dotted inner) =>
      return entries.put name (.table .dotted (← insertBelow? key value path .dotted inner))
    | some (.table .implied inner) =>
      return entries.put name (.table .implied (← insertBelow? key value path .implied inner))
    | some (.sections latest earlier) =>
      return entries.put name (.sections (← insertBelow? key value path .header latest) earlier)
    | some _ => none

end Entries

/-- A line or inline pair that gives a key a value, under a path of dotted keys. -/
structure Assignment where
  path : List String
  key : String
  value : Value

namespace Entries

def assign? (entries : Entries) (a : Assignment) : Option Entries :=
  if a.path.isEmpty then entries.insert? a.key a.value
  else insertBelow? a.key a.value a.path .header entries

def assignAll? (entries : Entries) (assignments : List Assignment) : Option Entries :=
  assignments.foldlM assign? entries

/-- Changes the entry that a header names. Headers may lead through any table that is not inline,
and through the latest of repeated sections. -/
def updateAt? (change : Option Value → Option Value) : List String → Entries → Option Entries
  | [], _ => none
  | [name], entries => do return entries.put name (← change (entries.lookup name))
  | name :: path, entries => do
    match entries.lookup name with
    | none => return entries.put name (.table .implied (← updateAt? change path []))
    | some (.table .inline _) => none
    | some (.table origin inner) =>
      return entries.put name (.table origin (← updateAt? change path inner))
    | some (.sections latest earlier) =>
      return entries.put name (.sections (← updateAt? change path latest) earlier)
    | some _ => none

end Entries

/-- A header and the lines below it. -/
structure Section where
  path : List String
  /-- Whether the header is in double brackets. -/
  isRepeated : Bool
  body : List Assignment

/-- The value that a section makes of the one that its header names. -/
def Section.extend? (s : Section) (value? : Option Value) : Option Value :=
  if s.isRepeated then
    match value? with
    | none => (Entries.assignAll? [] s.body).map (.sections · [])
    | some (.sections latest earlier) =>
      (Entries.assignAll? [] s.body).map (.sections · (latest :: earlier))
    | some _ => none
  else
    match value? with
    | none => (Entries.assignAll? [] s.body).map (.table .header ·)
    | some (.table .implied entries) => (Entries.assignAll? entries s.body).map (.table .header ·)
    | some _ => none

/-- The lines of a document: those before any header, and the sections. -/
structure Document where
  body : List Assignment
  sections : List Section

/-- The table that a document describes, unless its lines contradict each other. -/
def Document.entries? (document : Document) : Option Entries := do
  let top ← Entries.assignAll? [] document.body
  document.sections.foldlM (fun entries s => entries.updateAt? s.extend? s.path) top

end OpticalDisc.Toml
