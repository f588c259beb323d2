import PullPlan.Text.Digit

/-!
# Options

Reading the arguments of a command line. An option is written `--name value`, `--name=value`,
`-nvalue`, `-n=value` or `-n value`; several letters may follow one dash, and only the last of them
may have a value. An argument that is no option is an operand, and `--` makes operands of all that
follow it. A value that is an argument of its own does not open with a dash, except for the dash
alone.

Arguments are read in order, and the first one that is out of place ends the reading: a question
for the version that comes before a mistake is answered.
-/

namespace PullPlan
namespace CommandLine

/-- What ends the reading of arguments early. -/
inductive Stop where
  /-- An argument is out of place, or one is missing. -/
  | misuse
  /-- Help is asked for. -/
  | help
  /-- The version is asked for, of a subcommand or of the whole. -/
  | version (subcommand : Option Text)
  /-- There is nothing to do. -/
  | nothing
  deriving DecidableEq

/-- What the value of an option has to be. -/
inductive ValueKind where
  /-- Any text. -/
  | text
  /-- The name of a file, which is not empty. -/
  | file
  /-- A number of 64 bits. -/
  | number
  deriving DecidableEq

/-- Whether a text is a value of a kind. -/
def ValueKind.accepts : ValueKind → Text → Bool
  | .text, _ => true
  | .file, t => !t.isEmpty
  | .number, t => (Text.word64? t).isSome

/-- What an option does. -/
inductive OptionRole where
  /-- It is given or not. -/
  | flag
  /-- It has a value. -/
  | value (kind : ValueKind)
  /-- It asks for help. -/
  | help
  /-- It asks for the version. -/
  | version
  deriving DecidableEq

/-- The form of an option. -/
structure OptionForm where
  /-- The name after two dashes. -/
  name : Text
  /-- The letter after one dash. -/
  letter : Option Char
  /-- What it does. -/
  role : OptionRole
  /-- Whether it may be given more than once. -/
  repeats : Bool
  deriving DecidableEq

/-- Which operands may be given. -/
inductive OperandForm where
  /-- None. -/
  | none
  /-- At most one, which has to satisfy a condition. -/
  | single (accepts : Text → Bool)
  /-- One that ends the reading, as the name of a subcommand does. -/
  | final

/-- What the arguments read so far say. -/
structure Found where
  /-- The options in order, by name and value; a flag has an empty value. -/
  options : List (Text × Text)
  /-- The operand. -/
  operand : Option Text
  deriving DecidableEq

namespace Found

/-- Nothing. -/
def empty : Found := ⟨[], none⟩

/-- The values of an option. -/
def values (found : Found) (name : Text) : List Text :=
  (found.options.filter fun entry => entry.1 = name).map (·.2)

/-- The value of an option. -/
def value? (found : Found) (name : Text) : Option Text := (found.values name).head?

/-- Whether an option is given. -/
def has (found : Found) (name : Text) : Bool := !(found.values name).isEmpty

/-- Adds an option. -/
def record (found : Found) (form : OptionForm) (value : Text) : Except Stop Found :=
  let added : Found := { found with options := found.options ++ [(form.name, value)] }
  if !form.repeats && found.has form.name then .error .misuse
  else
    match form.role with
    | .flag => .ok added
    | .value kind => if kind.accepts value then .ok added else .error .misuse
    | .help => .error .help
    | .version => .error (.version none)

/-- Adds an operand. -/
def recordOperand (found : Found) (form : OperandForm) (operand : Text) : Except Stop Found :=
  match form, found.operand with
  | .single accepts, none =>
    if accepts operand then .ok { found with operand := some operand } else .error .misuse
  | _, _ => .error .misuse

end Found

/-- Whether an argument is written like an option. -/
def isOption (argument : Text) : Bool := argument.head? = some '-' && argument ≠ ['-']

/-- The argument after which all are operands. -/
def operandsMark : Text := "--".toList

/-- Whether an option has a value. -/
def OptionForm.hasValue (form : OptionForm) : Bool :=
  match form.role with
  | .value _ => true
  | _ => false

/-- Reads letters after a dash. The form in the answer is that of an option whose value is the next
argument. -/
def letters (forms : List OptionForm) (found : Found) :
    Text → Except Stop (Found × Option OptionForm)
  | [] => .ok (found, none)
  | letter :: rest =>
    match forms.find? fun form => form.letter = some letter with
    | none => .error .misuse
    | some form =>
      if !form.hasValue then do
        let found ← found.record form []
        letters forms found rest
      else
        match rest with
        | [] => .ok (found, some form)
        | '=' :: value => (found.record form value).map fun found => (found, none)
        | value => (found.record form value).map fun found => (found, none)

/-- Reads a name after two dashes, with a value if there is an equals sign. -/
def name (forms : List OptionForm) (found : Found) (t : Text) :
    Except Stop (Found × Option OptionForm) :=
  let (name, value) := match Text.cutAt? '=' t with
    | some (name, value) => (name, some value)
    | none => (t, none)
  match forms.find? fun form => form.name = name with
  | none => .error .misuse
  | some form =>
    match value with
    | some value =>
      if form.hasValue then (found.record form value).map fun found => (found, none)
      else .error .misuse
    | none =>
      if form.hasValue then .ok (found, some form)
      else (found.record form []).map fun found => (found, none)

/-- Reads an argument that is written like an option. -/
def option (forms : List OptionForm) (found : Found) :
    Text → Except Stop (Found × Option OptionForm)
  | '-' :: '-' :: t => name forms found t
  | '-' :: t => letters forms found t
  | _ => .error .misuse

/-- Reads arguments to their end or up to a final operand; the answer holds those that are left. -/
def read (forms : List OptionForm) (operand : OperandForm) (found : Found) :
    List Text → Except Stop (Found × List Text)
  | [] => .ok (found, [])
  | argument :: rest =>
    if argument = operandsMark then do
      let found ← rest.foldlM (fun found operand' => found.recordOperand operand operand') found
      return (found, [])
    else if isOption argument then do
      let (found, awaiting) ← option forms found argument
      match awaiting with
      | none => read forms operand found rest
      | some form =>
        match rest with
        | [] => .error .misuse
        | value :: rest =>
          if isOption value then .error .misuse
          else do
            let found ← found.record form value
            read forms operand found rest
    else
      match operand with
      | .final => .ok (found, argument :: rest)
      | _ => do
        let found ← found.recordOperand operand argument
        read forms operand found rest

end CommandLine
end PullPlan
