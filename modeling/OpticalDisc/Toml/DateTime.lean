import OpticalDisc.Toml.Number

/-!
# TOML dates and times

A date, a time, or a date and a time with or without an offset. The fields have fixed widths and
are checked against the calendar and the clock; a leap second is second 60.
-/

namespace OpticalDisc.Toml

open OpticalDisc.Text (Scan)

/-- A number of exactly `width` digits. -/
def field : (width : Nat) → Scan Nat
  | 0 => pure 0
  | width + 1 => do
    let high ← field width
    return high * 10 + digitValue (← Scan.char (·.isDigit))

/-- A number of two digits between these bounds. -/
def bounded (low high : Nat) : Scan Nat := do
  let n ← field 2
  Scan.require (low ≤ n && n ≤ high)
  return n

def isLeapYear (year : Nat) : Bool :=
  year % 4 = 0 && (year % 100 ≠ 0 || year % 400 = 0)

def daysIn (year month : Nat) : Nat :=
  match month with
  | 2 => if isLeapYear year then 29 else 28
  | 4 | 6 | 9 | 11 => 30
  | _ => 31

def date : Scan Unit := do
  let year ← field 4
  Scan.literal "-"
  let month ← bounded 1 12
  Scan.literal "-"
  let _ ← bounded 1 (daysIn year month)

def time : Scan Unit := do
  let _ ← bounded 0 23
  Scan.literal ":"
  let _ ← bounded 0 59
  Scan.literal ":"
  let _ ← bounded 0 60
  let _ ← Scan.maybe do
    Scan.literal "."
    let _ ← Scan.run1 (·.isDigit)

def offset : Scan Unit :=
  (do let _ ← Scan.char (·.toLower = 'z')) <|>
  (do
    let _ ← Scan.char fun c => c = '+' || c = '-'
    let _ ← bounded 0 23
    Scan.literal ":"
    let _ ← bounded 0 59)

/-- A time after a date, with its offset. -/
def timeOfDay : Scan Unit := do
  let _ ← Scan.char fun c => c = 'T' || c = 't' || c = ' '
  time
  let _ ← Scan.maybe offset

def dateTime : Scan Value := do
  (do date; let _ ← Scan.maybe timeOfDay) <|> time
  return .dateTime

end OpticalDisc.Toml
