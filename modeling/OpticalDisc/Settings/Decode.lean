import OpticalDisc.Settings
import OpticalDisc.Toml.Document

/-!
# Settings from a document

The settings come in groups, one for each table of the document. A group may also be given as a
list, whose elements are its settings in order. What is not given keeps its default, and what no
setting is named after is ignored.
-/

namespace OpticalDisc

open Toml (Value Entries)

/-- Looks up a setting of a group by its name and its position. -/
abbrev SettingLookup := String → Nat → Option Value

/-- The settings in the value of a group. -/
def SettingLookup.ofValue? : Value → Option SettingLookup
  | .table _ entries => some fun name _ => entries.lookup name
  | .list elements => some fun _ position => elements[position]?
  | .sections latest earlier =>
    let elements := (latest :: earlier).reverse.map (Value.table .header)
    some fun _ position => elements[position]?
  | .dateTime => some fun _ _ => none
  | _ => none

/-- The natural number that a value gives, if it is below the bound. -/
def natBelow? (bound : Nat) : Value → Option Nat
  | .integer n => if 0 ≤ n ∧ n < bound then some n.toNat else none
  | _ => none

/-- A setting with its default; one that is given has to be a natural number below the bound. -/
def settingOr (bound : Nat) (value? : Option Value) (default : Nat) : Option Nat :=
  value?.elim (some default) (natBelow? bound)

/-- A setting that may be missing. -/
def optionalSetting (bound : Nat) (value? : Option Value) : Option (Option Nat) :=
  value?.elim (some none) fun value => (natBelow? bound value).map some

def DvdSettings.decode? (lookup : SettingLookup) : Option DvdSettings := do
  return {
    title := ← optionalSetting UInt32.size (lookup "title" 0)
    angle := ← settingOr UInt32.size (lookup "angle" 1) 0 }

def BluraySettings.decode? (lookup : SettingLookup) : Option BluraySettings := do
  let standard : BluraySettings := {}
  return {
    title := ← optionalSetting UInt32.size (lookup "title" 0)
    minTitleLength :=
      ← settingOr UInt32.size (lookup "min_title_length" 1) standard.minTitleLength }

def OutputSettings.decode? (lookup : SettingLookup) : Option OutputSettings := do
  let standard : OutputSettings := {}
  return {
    timeBaseDen := ← settingOr UInt32.size (lookup "time_base_den" 0) standard.timeBaseDen
    bufferSectors := ← settingOr UInt64.size (lookup "buffer_sectors" 1) standard.bufferSectors }

namespace Settings

/-- A group of settings, or the defaults when it is missing. -/
def group? {α : Type} (decode? : SettingLookup → Option α) (entries : Entries) (name : String)
    (default : α) : Option α :=
  match entries.lookup name with
  | none => some default
  | some value => do decode? (← SettingLookup.ofValue? value)

def decode? (entries : Entries) : Option Settings := do
  return {
    dvd := ← group? DvdSettings.decode? entries "dvd" {}
    bluray := ← group? BluraySettings.decode? entries "bluray" {}
    output := ← group? OutputSettings.decode? entries "output" {} }

/-- The settings that a document gives. -/
def ofText? (text : String) : Option Settings := do
  decode? (← Toml.ofText? text)

end Settings

end OpticalDisc
