import OpticalDisc.Text.Number
import OpticalDisc.Text.Printable

/-!
# Quoted texts

The form in which messages show paths: between double quotes, with escapes for double quotes,
backslashes and every character that is not printable.
-/

namespace OpticalDisc.Text

/-- A code point as an escape with its hexadecimal digits in braces. -/
def codePointEscape (c : Char) : String :=
  "\\u\x7b" ++ lowerHex c.toNat ++ "\x7d"

def escapedChar (c : Char) : String :=
  match c with
  | '\x00' => "\\0"
  | '\t' => "\\t"
  | '\n' => "\\n"
  | '\r' => "\\r"
  | '\x22' => "\\\x22"
  | '\\' => "\\\\"
  | c => if isPrintable c then c.toString else codePointEscape c

/-- The text between quotes. -/
def quoted (text : String) : String :=
  "\x22" ++ String.join (text.toList.map escapedChar) ++ "\x22"

end OpticalDisc.Text
