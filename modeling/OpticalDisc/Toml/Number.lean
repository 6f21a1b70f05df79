import OpticalDisc.Text.Scan
import OpticalDisc.Toml.Value
import OpticalDisc.Word

/-!
# TOML numbers

Integers are signed 64-bit words, in decimal with a sign or in hexadecimal, octal or binary without
one. A fraction has a point or an exponent, and must not be so large that no double-precision number
is near it. Single underscores may stand between digits.
-/

namespace OpticalDisc.Toml

open OpticalDisc.Text (Scan)

def digitValue (c : Char) : Nat :=
  if c.isDigit then c.toNat - '0'.toNat else c.toLower.toNat - 'a'.toNat + 10

/-- Whether a character is a digit in a base of at most 16. -/
def isDigitIn (base : Nat) (c : Char) : Bool :=
  (c.isDigit || ('a' ≤ c.toLower && c.toLower ≤ 'f')) && digitValue c < base

/-- A number that is above all numbers that a document can give. -/
def numberLimit : Nat := UInt64.size

/-- The number that digits give, held to the limit. -/
def ofDigits (base : Nat) (digits : List Char) : Nat :=
  digits.foldl (fun n c => min (n * base + digitValue c) numberLimit) 0

/-- Digits of a base, of which there is at least one. -/
def digits (base : Nat) : Scan (List Char) := do
  let digit := Scan.char (isDigitIn base)
  let first ← digit
  return first :: (← Scan.many (digit <|> (Scan.literal "_" *> digit)))

/-- A sign, and whether it is a minus. -/
def sign : Scan Bool :=
  Scan.word "-" true <|> Scan.word "+" false <|> pure false

/-- Decimal digits that do not start with a zero, unless that is all. -/
def plainDigits : Scan (List Char) :=
  Scan.word "0" ['0'] <|> digits 10

def based : Scan Int := do
  let base ← Scan.word "0x" 16 <|> Scan.word "0o" 8 <|> Scan.word "0b" 2
  return ofDigits base (← digits base)

def decimal : Scan Int := do
  let negative ← sign
  let magnitude : Int := ofDigits 10 (← plainDigits)
  return if negative then -magnitude else magnitude

def integer : Scan Value := do
  let n ← based <|> decimal
  Scan.require (minWord ≤ n && n ≤ maxWord)
  return .integer n

/-- The decimal digits of the smallest number that is nearer to `2 ^ 1024` than to the largest
double-precision number. -/
def doubleBound : List Nat :=
  (Nat.toDigits 10 (Nat.pow 2 1024 - Nat.pow 2 970)).map digitValue

/-- Whether the first of two decimal fractions is at most the second one. Both are given by their
digits after the point. -/
def atMost : List Nat → List Nat → Bool
  | [], _ => true
  | b :: bound, [] => b = 0 && atMost bound []
  | b :: bound, d :: digits => b < d || (b = d && atMost bound digits)

/-- Whether the digits of a whole number times `10 ^ e` reach `doubleBound`. -/
def exceedsDoubles (digits : List Nat) (e : Int) : Bool :=
  let significant := digits.dropWhile (· = 0)
  let size := significant.length + e
  if significant.isEmpty || size < doubleBound.length then false
  else if doubleBound.length < size then true
  else atMost doubleBound significant

/-- The exponent that digits give. The digits after a value of `2 ^ 16` or more do not count: such
an exponent decides alone whether the fraction is too large, unless the fraction has tens of
thousands of digits itself. -/
def ofExponentDigits (digits : List Char) : Nat :=
  digits.foldl (fun e c => if e < UInt16.size then e * 10 + digitValue c else e) 0

def exponent : Scan Int := do
  let _ ← Scan.char (·.toLower = 'e')
  let negative ← sign
  let magnitude : Int := ofExponentDigits (← digits 10)
  return if negative then -magnitude else magnitude

/-- The digits after the point and the exponent, of which one may be missing. -/
def fractionTail : Scan (List Char × Int) :=
  (do return ([], ← exponent)) <|>
  (do
    Scan.literal "."
    let places ← digits 10
    return (places, (← Scan.maybe exponent).getD 0))

def finiteFraction : Scan Unit := do
  let negative ← sign
  let whole ← plainDigits
  let (places, e) ← fractionTail
  let tooLarge := exceedsDoubles ((whole ++ places).map digitValue) (e - places.length)
  Scan.require (negative || !tooLarge)

def specialFraction : Scan Unit := do
  let _ ← sign
  Scan.literal "inf" <|> Scan.literal "nan"

/-- A fraction. Only positive ones are refused for their size. -/
def fraction : Scan Value := do
  finiteFraction <|> specialFraction
  return .fraction

end OpticalDisc.Toml
