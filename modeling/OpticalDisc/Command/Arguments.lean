/-!
# Command-line arguments

Arguments are read from left to right against the rules of a level: its options, with a long and
perhaps a short name, and then either the name of a command or positional values. An option may be
given once. A value may be attached to its option or be the next argument, unless that looks like an
option itself. After `--` everything is positional.

A value is checked when the next option comes, or at the end.
-/

namespace OpticalDisc.Command

/-- Why the arguments ask for no command. -/
inductive Stop
  | help
  | version
  | misuse
  deriving DecidableEq, Repr

/-- What an argument stands for. -/
inductive ValueKind
  | text
  /-- A path, which is not empty. -/
  | path
  /-- A number of 32 bits. -/
  | number
  deriving DecidableEq, Repr

inductive OptionKind
  | flag
  | valued (kind : ValueKind)
  /-- An option that ends the reading. -/
  | stopping (stop : Stop)
  deriving DecidableEq, Repr

structure OptionRule where
  long : String
  short : Option Char
  kind : OptionKind
  deriving DecidableEq, Repr

/-- The rules of one level. -/
structure Level where
  options : List OptionRule
  /-- Whether the first argument that is no option names a command. -/
  hasCommands : Bool := false
  /-- The positional values of a level without commands. -/
  positionals : List ValueKind := []
  /-- How many of these have to be given. -/
  required : Nat := 0

/-- What has been read of one level. -/
structure Collected where
  /-- The options that were given, by long name; a flag has an empty value. -/
  options : List (String × String) := []
  /-- An option whose value is not checked yet. -/
  pending : Option (OptionRule × String) := none
  positionals : List String := []
  deriving DecidableEq, Repr

/-- The magnitude that decimal digits give, of which there is at least one. -/
def magnitude? (digits : List Char) : Option Nat :=
  if digits.isEmpty || !digits.all (·.isDigit) then none
  else some (digits.foldl (fun n c => n * 10 + (c.toNat - '0'.toNat)) 0)

/-- The number of 32 bits that a text gives; it may have a sign. -/
def word? (text : String) : Option Nat :=
  match text.toList with
  | '-' :: digits => (magnitude? digits).filter (· = 0)
  | '+' :: digits => (magnitude? digits).filter (· < UInt32.size)
  | digits => (magnitude? digits).filter (· < UInt32.size)

def ValueKind.accepts : ValueKind → String → Bool
  | text, _ => true
  | path, value => value ≠ ""
  | number, value => (word? value).isSome

namespace Collected

variable (c : Collected)

/-- Adds an option that is complete, unless it was given before or its value is not accepted. -/
def add (rule : OptionRule) (value : String) : Except Stop Collected :=
  let accepted :=
    match rule.kind with
    | .valued kind => kind.accepts value
    | _ => true
  if (c.options.lookup rule.long).isSome || !accepted then .error .misuse
  else .ok { c with options := c.options ++ [(rule.long, value)] }

/-- Checks the value that is pending. -/
def settle : Except Stop Collected :=
  match c.pending with
  | none => .ok c
  | some (rule, value) => { c with pending := none }.add rule value

def addPositional (level : Level) (value : String) : Except Stop Collected := do
  let c ← c.settle
  match level.positionals[c.positionals.length]? with
  | some kind =>
    if kind.accepts value then .ok { c with positionals := c.positionals ++ [value] }
    else .error .misuse
  | none => .error .misuse

/-- Adds an option without a value of its own. Returns its rule if it waits for one. -/
def addBare (rule : OptionRule) : Except Stop (Collected × Option OptionRule) := do
  let c ← c.settle
  match rule.kind with
  | .flag => return (← c.add rule "", none)
  | .valued _ => return (c, some rule)
  | .stopping stop => throw stop

/-- Adds an option with an attached value. -/
def addAttached (rule : OptionRule) (value : String) :
    Except Stop (Collected × Option OptionRule) :=
  match rule.kind with
  | .valued _ => do return (← (← c.settle).add rule value, none)
  | _ => .error .misuse

end Collected

namespace Level

variable (level : Level)

/-- Reads a long option after its dashes. -/
def readLong (c : Collected) (text : List Char) : Except Stop (Collected × Option OptionRule) :=
  let name := String.ofList (text.takeWhile (· ≠ '='))
  match level.options.find? (·.long = name) with
  | none => .error .misuse
  | some rule =>
    match text.dropWhile (· ≠ '=') with
    | [] => c.addBare rule
    | _ :: value => c.addAttached rule (String.ofList value)

/-- The value attached to a short option, with or without an equals sign. -/
def attachedValue : List Char → String
  | '=' :: value => String.ofList value
  | value => String.ofList value

/-- Reads short options in a row after their dash. -/
def readShort (c : Collected) : List Char → Except Stop (Collected × Option OptionRule)
  | [] => .ok (c, none)
  | short :: rest =>
    match level.options.find? (·.short = some short) with
    | none => .error .misuse
    | some rule =>
      match rule.kind, rest with
      | .valued _, _ :: _ => c.addAttached rule (attachedValue rest)
      | .valued _, [] => c.addBare rule
      | _, _ => do
        let (c, _) ← c.addBare rule
        readShort c rest

/-- Whether an argument is read as an option. A single dash is a value. -/
def isOption (argument : String) : Bool :=
  argument.startsWith "-" && argument ≠ "-"

/-- Reads an argument that looks like an option. Returns the rule that waits for a value. -/
def readOption (c : Collected) (argument : String) :
    Except Stop (Collected × Option OptionRule) :=
  match argument.toList with
  | '-' :: '-' :: text => level.readLong c text
  | _ :: text => level.readShort c text
  | [] => .error .misuse

/-- Reads arguments up to the name of a command, or all of them. Returns what is left, from that
name on. -/
def read (c : Collected) : List String → Except Stop (Collected × List String)
  | [] => .ok (c, [])
  | argument :: rest =>
    if argument = "--" then do
      if level.hasCommands then throw .misuse
      return (← rest.foldlM (fun c value => c.addPositional level value) c, [])
    else if isOption argument then do
      match ← level.readOption c argument with
      | (c, none) => read c rest
      | (c, some rule) =>
        match rest with
        | value :: rest =>
          if isOption value then throw .misuse
          else read { c with pending := some (rule, value) } rest
        | [] => throw .misuse
    else if level.hasCommands then .ok (c, argument :: rest)
    else do read (← c.addPositional level argument) rest

/-- Reads all arguments of a level without commands. -/
def readAll (arguments : List String) : Except Stop Collected := do
  let (c, _) ← level.read {} arguments
  let c ← c.settle
  if c.positionals.length < level.required then throw .misuse
  return c

end Level

end OpticalDisc.Command
