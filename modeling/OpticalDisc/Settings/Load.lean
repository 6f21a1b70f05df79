import OpticalDisc.Files.Tree
import OpticalDisc.Settings.Decode
import OpticalDisc.Text.Quoted

/-!
# Loading settings

Settings come from the file that is named, or else from the first of the standard files that is
there, or else they are the defaults. They are checked before they are used.
-/

namespace OpticalDisc

/-- Why settings cannot be used. -/
inductive SettingsError
  | unreadable (path : Path) (cause : IoError)
  | malformed (path : Path)
  | invalid (fault : SettingFault)
  deriving DecidableEq, Repr

/-- The path as messages show it. -/
def Path.quoted (path : Path) : String :=
  Text.quoted path.text

def SettingsError.message : SettingsError → String
  | unreadable path _ => "Failed to read config file: " ++ path.quoted
  | malformed path => "Failed to parse config file: " ++ path.quoted
  | invalid fault => fault.message

/-- The text of a file, which has to be valid UTF-8. -/
def FileTree.text (tree : FileTree) (path : Path) : Except IoError String :=
  match tree.content path with
  | .error cause => .error (.system cause)
  | .ok content =>
    match String.fromUTF8? content with
    | some text => .ok text
    | none => .error (.reported .invalidData "stream did not contain valid UTF-8")

namespace Settings

/-- Refuses settings outside their ranges. -/
def check (settings : Settings) : Except SettingsError Settings :=
  match settings.fault? with
  | some fault => .error (.invalid fault)
  | none => .ok settings

/-- The settings in a file. -/
def ofFile (tree : FileTree) (path : Path) : Except SettingsError Settings :=
  match tree.text path with
  | .error cause => .error (.unreadable path cause)
  | .ok text =>
    match ofText? text with
    | none => .error (.malformed path)
    | some settings => settings.check

/-- Where settings are looked for, given the user's home directory. -/
def standardPaths (home : Option String) : List Path :=
  let below := "/.config/discforged/config.toml"
  [⟨"./discforged.toml"⟩, ⟨home.getD "~" ++ below⟩]

/-- The settings in the named file or in the first standard one that is there. -/
def load (tree : FileTree) (home : Option String) (path? : Option Path) :
    Except SettingsError Settings :=
  match path?.or ((standardPaths home).find? tree.isPresent) with
  | some path => ofFile tree path
  | none => .ok {}

end Settings

end OpticalDisc
