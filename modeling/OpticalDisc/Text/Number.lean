/-!
# Number texts

Padded decimal and hexadecimal texts of natural numbers.
-/

namespace OpticalDisc.Text

/-- `text`, preceded by as many `fill` characters as make it `width` long. -/
def padded (fill : Char) (width : Nat) (text : String) : String :=
  "".pushn fill (width - text.length) ++ text

def zeroPadded (width n : Nat) : String :=
  padded '0' width (toString n)

def spacePadded (width n : Nat) : String :=
  padded ' ' width (toString n)

def lowerHex (n : Nat) : String :=
  String.ofList (Nat.toDigits 16 n)

/-- A hexadecimal number with its `0x` mark. -/
def markedHex (n : Nat) : String :=
  "0x" ++ lowerHex n

end OpticalDisc.Text
