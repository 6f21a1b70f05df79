import OpticalDisc.Toml.DateTime
import OpticalDisc.Toml.Text

/-!
# TOML documents

A document is read line by line: blank lines and comments, assignments, and headers. Lists and
inline tables nest up to a limit, and so do dotted keys.
-/

namespace OpticalDisc.Toml

open OpticalDisc.Text (Scan)

/-- How deeply lists and inline tables nest at most, and how many parts a dotted key has at most. -/
def maxDepth : Nat := 79

def comment : Scan Unit := do
  Scan.literal "#"
  let _ ← Scan.run isPlain

/-- Blanks and a comment. -/
def trailer : Scan Unit := do
  blanks
  let _ ← Scan.maybe comment

/-- The rest of a line that has nothing more to say. -/
def lineEnd : Scan Unit := do
  trailer
  newline <|> Scan.atEnd

/-- Lines without content, and the blanks at the start of the next line. -/
def emptyLines : Scan Unit := do
  let _ ← Scan.many (do trailer; newline)
  blanks

/-- Blanks, line breaks and whole comments. -/
def gaps : Scan Unit := do
  let _ ← Scan.many (newline <|> (do let _ ← Scan.run1 isBlank) <|> (do comment; newline))

def isBare (c : Char) : Bool :=
  c.isAlphanum || c = '-' || c = '_'

def keyPart : Scan String := do
  blanks
  let part ← basicText <|> literalText <|> (String.ofList <$> Scan.run1 isBare)
  blanks
  return part

/-- The parts of a key between dots. -/
def dottedKey : Scan (List String) := do
  let first ← keyPart
  let rest ← Scan.many (do Scan.literal "."; keyPart)
  Scan.require (rest.length < maxDepth)
  return first :: rest

def boolean : Scan Value :=
  Scan.word "true" (.boolean true) <|> Scan.word "false" (.boolean false)

/-- A value that holds no others. -/
def scalar : Scan Value :=
  text <|> boolean <|> dateTime <|> fraction <|> integer

/-- A list, whose last element may be followed by a comma. -/
def list (element : Scan Value) : Scan Value := do
  Scan.literal "["
  let item := do
    gaps
    let value ← element
    gaps
    return value
  let elements ← (do
    let first ← item
    let rest ← Scan.many (do Scan.literal ","; item)
    let _ ← Scan.maybe (Scan.literal ",")
    return first :: rest) <|> pure []
  gaps
  Scan.literal "]"
  return .list elements

def assignment (value : Scan Value) : Scan Assignment := do
  let parts ← dottedKey
  Scan.literal "="
  blanks
  return { path := parts.dropLast, key := parts.getLast?.getD "", value := ← value }

/-- A table in braces on one line. -/
def inlineTable (value : Scan Value) : Scan Value := do
  Scan.literal "\x7b"
  let pair := do
    let pair ← assignment value
    blanks
    return pair
  let pairs ← (do
    let first ← pair
    let rest ← Scan.many (do Scan.literal ","; pair)
    return first :: rest) <|> pure []
  blanks
  Scan.literal "\x7d"
  return .table .inline (← Scan.ofOption (Entries.assignAll? [] pairs))

/-- A value in which lists and inline tables nest at most this deeply. -/
def valueWithin : (depth : Nat) → Scan Value
  | 0 => scalar
  | depth + 1 => scalar <|> list (valueWithin depth) <|> inlineTable (valueWithin depth)

def value : Scan Value :=
  valueWithin maxDepth

/-- The assignments up to the next header. -/
def body : Scan (List Assignment) :=
  Scan.many do
    emptyLines
    let line ← assignment value
    lineEnd
    return line

/-- A header's path, and whether it stands in double brackets. -/
def header : Scan (List String × Bool) :=
  (do
    Scan.literal "[["
    let path ← dottedKey
    Scan.literal "]]"
    return (path, true)) <|>
  (do
    Scan.literal "["
    let path ← dottedKey
    Scan.literal "]"
    return (path, false))

/-- A header and the lines below it. -/
def headed : Scan Section := do
  emptyLines
  let (path, isRepeated) ← header
  lineEnd
  return { path, isRepeated, body := ← body }

/-- A whole document, behind an optional byte order mark. -/
def document : Scan Document := do
  let _ ← Scan.maybe (Scan.literal "\ufeff")
  let body ← body
  let sections ← Scan.many headed
  emptyLines
  trailer
  Scan.atEnd
  return { body, sections }

/-- The table that a text describes, if it is a document. -/
def ofText? (text : String) : Option Entries := do
  (← document.whole? text).entries?

end OpticalDisc.Toml
