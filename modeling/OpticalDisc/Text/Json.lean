import OpticalDisc.Text.Number

/-!
# JSON texts

A value of the data that reports consist of, and its text with two spaces of indentation for each
level. Every element and every field has a line of its own; what is empty stays on one line.
-/

namespace OpticalDisc.Text

inductive JsonValue
  | null
  | number (n : Nat)
  | text (text : String)
  | list (elements : List JsonValue)
  | record (fields : List (String × JsonValue))

namespace JsonValue

def ofOption {α : Type} (encode : α → JsonValue) (a? : Option α) : JsonValue :=
  a?.elim null encode

/-- A character inside a JSON string: quotes, backslashes and controls are escaped. -/
def escapedChar (c : Char) : String :=
  match c with
  | '\x22' => "\\\x22"
  | '\x5c' => "\\\\"
  | '\x08' => "\\b"
  | '\x0c' => "\\f"
  | '\n' => "\\n"
  | '\r' => "\\r"
  | '\t' => "\\t"
  | c => if c.toNat < 32 then "\\u" ++ padded '0' 4 (lowerHex c.toNat) else c.toString

def textLiteral (text : String) : String :=
  "\x22" ++ String.join (text.toList.map escapedChar) ++ "\x22"

/-- A line break and the indentation of a level. -/
def lineBreak (level : Nat) : String :=
  "\n".pushn ' ' (2 * level)

/-- Items between brackets, each on its own line one level further in. -/
def bracketed (opening closing : String) (level : Nat) (items : List String) : String :=
  if items.isEmpty then opening ++ closing
  else
    let inner := items.map (lineBreak (level + 1) ++ ·)
    opening ++ String.intercalate "," inner ++ lineBreak level ++ closing

mutual

/-- The text of a value at a level of indentation. -/
def prettyAt (level : Nat) : JsonValue → String
  | null => "null"
  | number n => toString n
  | text t => textLiteral t
  | list elements => bracketed "[" "]" level (elementTexts (level + 1) elements)
  | record fields => bracketed "\x7b" "\x7d" level (fieldTexts (level + 1) fields)

def elementTexts (level : Nat) : List JsonValue → List String
  | [] => []
  | element :: rest => prettyAt level element :: elementTexts level rest

def fieldTexts (level : Nat) : List (String × JsonValue) → List String
  | [] => []
  | (key, value) :: rest =>
    (textLiteral key ++ ": " ++ prettyAt level value) :: fieldTexts level rest

end

def pretty (value : JsonValue) : String :=
  value.prettyAt 0

end JsonValue

end OpticalDisc.Text
