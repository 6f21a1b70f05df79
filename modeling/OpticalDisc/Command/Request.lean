import OpticalDisc.Command.Arguments
import OpticalDisc.Files.Path

/-!
# Requests

What the arguments of the program ask for. The file of settings and the flag for more messages may
be given before or after the command's name; after it they take precedence.
-/

namespace OpticalDisc.Command

inductive Request
  /-- List the titles of a disc, as text or as JSON. -/
  | titles (disc : String) (json : Bool)
  /-- List the chapters of a title. -/
  | chapters (disc : String) (title angle : Option Nat)
  /-- Copy the stream of a title to a file, or to the standard output. -/
  | dump (disc : String) (title angle : Option Nat) (output : Option Path)
  /-- Tell the format of a location. -/
  | probe (location : String)
  /-- Check the settings. -/
  | validate
  | version
  deriving DecidableEq, Repr

/-- A request and the file of settings that goes with it. -/
structure Invocation where
  request : Request
  settingsFile : Option Path := none
  deriving DecidableEq, Repr

def settingsOption : OptionRule := ⟨"config", some 'c', .valued .path⟩

def verboseOption : OptionRule := ⟨"verbose", some 'v', .flag⟩

def helpOption : OptionRule := ⟨"help", some 'h', .stopping .help⟩

def versionOption : OptionRule := ⟨"version", some 'V', .stopping .version⟩

def titleOption : OptionRule := ⟨"title", some 't', .valued .number⟩

def angleOption : OptionRule := ⟨"angle", some 'a', .valued .number⟩

def outputOption : OptionRule := ⟨"output", some 'o', .valued .path⟩

def jsonOption : OptionRule := ⟨"json", none, .flag⟩

/-- The arguments before the command's name. -/
def topLevel : Level where
  options := [settingsOption, verboseOption, helpOption, versionOption]
  hasCommands := true

/-- The arguments of a command that takes one disc or location. -/
def locationLevel (options : List OptionRule) : Level where
  options := [settingsOption, verboseOption, helpOption] ++ options
  positionals := [.text]
  required := 1

namespace Collected

variable (c : Collected)

def isGiven (rule : OptionRule) : Bool :=
  (c.options.lookup rule.long).isSome

def number? (rule : OptionRule) : Option Nat := do
  word? (← c.options.lookup rule.long)

def path? (rule : OptionRule) : Option Path :=
  (c.options.lookup rule.long).map Path.mk

def location : String :=
  c.positionals.head?.getD ""

end Collected

/-- A command: its arguments and what they ask for. -/
structure Rule where
  name : String
  level : Level
  request : Collected → Request
  /-- The file of settings that the command's own arguments name. -/
  settingsFile? : Collected → Option Path := fun c => c.path? settingsOption

def rules : List Rule := [
  { name := "titles"
    level := locationLevel [jsonOption]
    request := fun c => .titles c.location (c.isGiven jsonOption) },
  { name := "chapters"
    level := locationLevel [titleOption, angleOption]
    request := fun c => .chapters c.location (c.number? titleOption) (c.number? angleOption) },
  { name := "dump"
    level := locationLevel [titleOption, angleOption, outputOption]
    request := fun c =>
      .dump c.location (c.number? titleOption) (c.number? angleOption) (c.path? outputOption) },
  { name := "probe"
    level := locationLevel []
    request := fun c => .probe c.location },
  { name := "validate"
    level := { options := [verboseOption, helpOption], positionals := [.path] }
    request := fun _ => .validate
    settingsFile? := fun c => c.positionals.head?.map Path.mk },
  { name := "version"
    level := { options := [settingsOption, verboseOption, helpOption] }
    request := fun _ => .version }]

/-- The command that explains the others. -/
def helpName : String := "help"

/-- The answer to the arguments after `helpName`: at most the name of one command. -/
def readHelp : List String → Stop
  | [] => .help
  | [name] => if name = helpName ∨ rules.any (·.name = name) then .help else .misuse
  | _ => .misuse

/-- Reads a command's name and its arguments. -/
def readCommand : List String → Except Stop Invocation
  | [] => .error .misuse
  | name :: arguments =>
    if name = helpName then .error (readHelp arguments)
    else
      match rules.find? (·.name = name) with
      | none => .error .misuse
      | some rule => do
        let c ← rule.level.readAll arguments
        return { request := rule.request c, settingsFile := rule.settingsFile? c }

/-- What all arguments of the program ask for. -/
def Invocation.ofArguments (arguments : List String) : Except Stop Invocation := do
  let (c, rest) ← topLevel.read {} arguments
  let invocation ← readCommand rest
  let c ← c.settle
  return { invocation with settingsFile := invocation.settingsFile.or (c.path? settingsOption) }

end OpticalDisc.Command
