import OpticalDisc.Toml.Number

/-!
# TOML texts

Basic texts stand in double quotes and have escapes, literal texts stand in single quotes and have
none. In triple quotes either may run over several lines and hold one or two quotes in a row, also
next to the closing ones.
-/

namespace OpticalDisc.Toml

open OpticalDisc.Text (Scan)

/-- The characters that need no escape: all but controls, of which only the tab is one. -/
def isPlain (c : Char) : Bool :=
  c = '\t' || (' ' ≤ c && c ≤ '~') || 0x80 ≤ c.toNat

def isBlank (c : Char) : Bool :=
  c = ' ' || c = '\t'

def blanks : Scan Unit := do
  let _ ← Scan.run isBlank

def newline : Scan Unit :=
  Scan.literal "\n" <|> Scan.literal "\r\n"

/-- The character with `width` hexadecimal digits, if there is one. -/
def codePoint (width : Nat) : Scan Char := fun cs =>
  let code := cs.take width
  let n := ofDigits 16 code
  if code.length = width ∧ code.all (isDigitIn 16) ∧ n.isValidChar then
    some (Char.ofNat n, cs.drop width)
  else none

def escape : Scan Char := do
  Scan.literal "\\"
  match ← Scan.char fun _ => true with
  | 'b' => return '\x08'
  | 't' => return '\t'
  | 'n' => return '\n'
  | 'f' => return '\x0c'
  | 'r' => return '\r'
  | '\x22' => return '\x22'
  | '\x5c' => return '\x5c'
  | 'u' => codePoint 4
  | 'U' => codePoint 8
  | _ => failure

def isBasic (c : Char) : Bool :=
  isPlain c && c ≠ '\x22' && c ≠ '\x5c'

def isLiteral (c : Char) : Bool :=
  isPlain c && c ≠ '\x27'

def basicText : Scan String := do
  Scan.literal "\x22"
  let parts ← Scan.many (Scan.run1 isBasic <|> (do return [← escape]))
  Scan.literal "\x22"
  return String.ofList parts.flatten

def literalText : Scan String := do
  Scan.literal "\x27"
  let content ← Scan.run isLiteral
  Scan.literal "\x27"
  return String.ofList content

/-- One or two quotes in a row, which do not close a text in triple quotes. -/
def innerQuotes (quote : Char) : Scan (List Char) := do
  let quotes ← Scan.run (· = quote)
  Scan.require (1 ≤ quotes.length && quotes.length ≤ 2)
  return quotes

/-- Three closing quotes, and the quotes before them that belong to the text. -/
def closingQuotes (quote : Char) : Scan (List Char) := do
  let quotes ← Scan.run (· = quote)
  Scan.require (3 ≤ quotes.length && quotes.length ≤ 5)
  return quotes.drop 3

/-- A backslash at the end of a line, with all blanks and line breaks up to the next text. -/
def continuation : Scan (List Char) := do
  Scan.literal "\\"
  blanks
  newline
  let _ ← Scan.many (newline <|> (do let _ ← Scan.run1 isBlank))
  return []

/-- A text in triple quotes that consists of these parts. A line break right after the opening
quotes does not belong to it. -/
def longText (quote : Char) (part : Scan (List Char)) : Scan String := do
  Scan.literal (String.ofList [quote, quote, quote])
  let _ ← Scan.maybe newline
  let lineBreak := do newline; return ['\n']
  let parts ← Scan.many (part <|> lineBreak <|> innerQuotes quote)
  return String.ofList (parts.flatten ++ (← closingQuotes quote))

def longBasicText : Scan String :=
  longText '\x22'
    (Scan.run1 isBasic <|> continuation <|> (do return [← escape]))

def longLiteralText : Scan String :=
  longText '\x27' (Scan.run1 isLiteral)

def text : Scan Value :=
  .text <$> (longBasicText <|> basicText <|> longLiteralText <|> literalText)

end OpticalDisc.Toml
