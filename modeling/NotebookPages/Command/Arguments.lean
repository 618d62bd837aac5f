import NotebookPages.Text.Basic

/-!
The grammar of command lines. An option has a long name and may have a letter; its value, if it takes
one, stands in the same argument or is the next one. Letters can share an argument, and after two
dashes every argument is an input.
-/

namespace NotebookPages.Command

inductive UsageError where
  | unknownOption (argument : Text)
  | unknownCommand (argument : Text)
  | missingCommand
  | missingValue (option : Text)
  | uselessValue (option : Text)
  | badValue (option value : Text)
  | repeated (option : Text)
  | conflict (first second : Text)
  | missing (what : Text)
  | tooManyInputs (argument : Text)
  deriving DecidableEq, Repr

def UsageError.message : UsageError → Text
  | unknownOption argument => "unknown option '" ++ argument ++ "'"
  | unknownCommand argument => "unknown command '" ++ argument ++ "'"
  | missingCommand => "a command is required"
  | missingValue option => "--" ++ option ++ " needs a value"
  | uselessValue option => "--" ++ option ++ " takes no value"
  | badValue option value => "invalid value '" ++ value ++ "' for " ++ option
  | repeated option => "--" ++ option ++ " is given more than once"
  | conflict first second => "--" ++ first ++ " cannot be used with --" ++ second
  | missing what => what ++ " is required"
  | tooManyInputs argument => "unexpected argument '" ++ argument ++ "'"

inductive Halt where
  | usage (e : UsageError)
  | version
  deriving DecidableEq, Repr

inductive OptionKind where
  | flag
  | valued
  | version
  deriving DecidableEq, Repr

structure OptionForm where
  name : Text
  letter : Option Char := none
  kind : OptionKind := .flag
  deriving DecidableEq, Repr

inductive InputForm where
  | single
  | many
  | command
  deriving DecidableEq, Repr

structure Form where
  options : List OptionForm
  inputs : InputForm

namespace Form

def withName? (f : Form) (name : Text) : Option OptionForm := f.options.find? (·.name = name)
def withLetter? (f : Form) (letter : Char) : Option OptionForm :=
  f.options.find? (·.letter = some letter)

end Form

structure Arguments where
  flags : List Text := []
  values : List (Text × Text) := []
  inputs : List Text := []
  deriving DecidableEq, Repr

namespace Arguments

def addFlag (a : Arguments) (name : Text) : Except Halt Arguments :=
  if name ∈ a.flags then .error (.usage (.repeated name))
  else .ok { a with flags := a.flags ++ [name] }

def addValue (a : Arguments) (name value : Text) : Except Halt Arguments :=
  if (a.values.lookup name).isSome then .error (.usage (.repeated name))
  else .ok { a with values := a.values ++ [(name, value)] }

def addInput (form : Form) (a : Arguments) (input : Text) : Except Halt Arguments :=
  if form.inputs = .single ∧ a.inputs ≠ [] then .error (.usage (.tooManyInputs input))
  else .ok { a with inputs := a.inputs ++ [input] }

/-- An option by its long name, with the text after an equals sign. The option is the result if its
value is still to come. -/
def addLong (form : Form) (a : Arguments) (text : Text) :
    Except Halt (Arguments × Option OptionForm) :=
  let (name, value) := match Text.cut "=" text with
    | some (name, value) => (name, some value)
    | none => (text, none)
  match form.withName? name with
  | none => .error (.usage (.unknownOption ("--" ++ text)))
  | some o =>
    match o.kind, value with
    | .valued, none => .ok (a, some o)
    | .valued, some value => (a.addValue o.name value).map (·, none)
    | _, some _ => .error (.usage (.uselessValue o.name))
    | .flag, none => (a.addFlag o.name).map (·, none)
    | .version, none => .error .version

/-- Options by their letters. What follows the letter of an option with a value is that value. -/
def addLetters (form : Form) (a : Arguments) : Text → Except Halt (Arguments × Option OptionForm)
  | [] => .ok (a, none)
  | c :: rest =>
    match form.withLetter? c with
    | none => .error (.usage (.unknownOption ['-', c]))
    | some o =>
      match o.kind with
      | .flag => do addLetters form (← a.addFlag o.name) rest
      | .version => .error .version
      | .valued =>
        match rest with
        | [] => .ok (a, some o)
        | '=' :: value => (a.addValue o.name value).map (·, none)
        | value => (a.addValue o.name value).map (·, none)

/-- An argument that begins like an option cannot be the value of the option before it. -/
def isValue (argument : Text) : Bool := argument == ['-'] || argument.head? != some '-'

/-- Read a command line; `pending` is an option whose value comes next. The result is what was given,
and from a command on the rest of the line. -/
def readFrom (form : Form) (a : Arguments) (pending : Option OptionForm) :
    List Text → Except Halt (Arguments × List Text)
  | [] =>
    match pending with
    | none => .ok (a, [])
    | some o => .error (.usage (.missingValue o.name))
  | argument :: rest =>
    match pending with
    | some o =>
      if isValue argument then do readFrom form (← a.addValue o.name argument) none rest
      else .error (.usage (.missingValue o.name))
    | none =>
      if isValue argument then
        if form.inputs = .command then .ok (a, argument :: rest)
        else do readFrom form (← a.addInput form argument) none rest
      else match argument with
        | ['-', '-'] =>
          if form.inputs = .command then .error (.usage .missingCommand)
          else (rest.foldlM (addInput form) a).map (·, [])
        | '-' :: '-' :: text => do
          let (a, pending) ← a.addLong form text
          readFrom form a pending rest
        | text => do
          let (a, pending) ← a.addLetters form (text.drop 1)
          readFrom form a pending rest

def read (form : Form) (line : List Text) : Except Halt (Arguments × List Text) :=
  readFrom form {} none line

def flag (a : Arguments) (name : Text) : Bool := a.flags.contains name
def value? (a : Arguments) (name : Text) : Option Text := a.values.lookup name

end Arguments
end NotebookPages.Command
