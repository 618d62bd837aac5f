import NotebookPages.Command.Arguments
import NotebookPages.Markup.Dialect
import NotebookPages.Path.Basic

/-!
What a command line asks for: the commands with their options, and how much a run tells.
-/

namespace NotebookPages.Command

inductive Verbosity where
  | quiet
  | normal
  | verbose
  deriving DecidableEq, Repr

namespace Verbosity

def showsStatus (v : Verbosity) : Bool := v != quiet
def isVerbose (v : Verbosity) : Bool := v == verbose

end Verbosity

def standardInput : Text := "-"

structure ConvertRequest where
  input : Text
  output : Option Path := none
  outputDir : Option Path := none
  dialect : Option Dialect := none
  language : Option Text := none
  force : Bool := false
  noClobber : Bool := false
  backup : Bool := false
  dryRun : Bool := false
  deriving DecidableEq, Repr

structure BatchRequest where
  inputs : List Path
  listed : Bool := false
  outputDir : Option Path := none
  dialect : Option Dialect := none
  failFast : Bool := false
  parallel : Option Nat := none
  force : Bool := false
  backup : Bool := false
  deriving DecidableEq, Repr

structure FixRequest where
  inputs : List Path
  backup : Bool := true
  dryRun : Bool := false
  dialect : Option Dialect := none
  deriving DecidableEq, Repr

structure HeaderRequest where
  inputs : List Path
  dryRun : Bool := false
  deriving DecidableEq, Repr

structure CheckRequest where
  inputs : List Path
  json : Bool := false
  dialect : Option Dialect := none
  deriving DecidableEq, Repr

structure InfoRequest where
  input : Path
  json : Bool := false
  deriving DecidableEq, Repr

structure ReferenceRequest where
  manifest : Path
  outputDir : Path
  force : Bool := false
  deriving DecidableEq, Repr

inductive SettingsRequest where
  | create (user force : Bool)
  | display (json : Bool)
  | locate (all : Bool)
  deriving DecidableEq, Repr

inductive Request where
  | convert (r : ConvertRequest)
  | batch (r : BatchRequest)
  | fix (r : FixRequest)
  | frontmatter (r : HeaderRequest)
  | check (r : CheckRequest)
  | info (r : InfoRequest)
  | apidoc (r : ReferenceRequest)
  | config (r : SettingsRequest)
  deriving DecidableEq, Repr

namespace Request

def paths : Request → List Path
  | convert r => r.input :: (r.output.toList ++ r.outputDir.toList)
  | batch r => r.inputs ++ r.outputDir.toList
  | fix r => r.inputs
  | frontmatter r => r.inputs
  | check r => r.inputs
  | info r => [r.input]
  | apidoc r => [r.manifest, r.outputDir]
  | config _ => []

def readsInput : Request → Bool
  | convert r => r.input == standardInput
  | batch r => r.listed
  | _ => false

end Request

structure Invocation where
  verbosity : Verbosity
  request : Request
  deriving DecidableEq, Repr

def quietOption : OptionForm := { name := "quiet", letter := some 'q' }
def verboseOption : OptionForm := { name := "verbose", letter := some 'v' }
def outputOption : OptionForm := { name := "output", letter := some 'o', kind := .valued }
def formatOption : OptionForm := { name := "format", letter := some 'f', kind := .valued }

def plainFlag (name : Text) : OptionForm := { name }

def form (options : List OptionForm) (inputs : InputForm) : Form :=
  ⟨quietOption :: verboseOption :: options, inputs⟩

def topForm : Form :=
  form [{ name := "version", letter := some 'V', kind := .version }] .command

namespace Arguments

def verbosity? (a : Arguments) : Except Halt (Option Verbosity) :=
  if a.flag "quiet" then
    if a.flag "verbose" then .error (.usage (.conflict "verbose" "quiet")) else .ok (some .quiet)
  else .ok (if a.flag "verbose" then some .verbose else none)

def checkPath (what value : Text) : Except Halt Path :=
  if value.isEmpty then .error (.usage (.badValue what value)) else .ok value

def path? (a : Arguments) (name : Text) : Except Halt (Option Path) :=
  (a.value? name).mapM (checkPath name)

def needPath (a : Arguments) (name : Text) : Except Halt Path := do
  match ← a.path? name with
  | some p => .ok p
  | none => .error (.usage (.missing ("--" ++ name)))

def paths (a : Arguments) : Except Halt (List Path) := a.inputs.mapM (checkPath "an input")

def needPaths (a : Arguments) : Except Halt (List Path) :=
  if a.inputs.isEmpty then .error (.usage (.missing "an input")) else a.paths

def needInput (a : Arguments) : Except Halt Text :=
  match a.inputs with
  | input :: _ => .ok input
  | [] => .error (.usage (.missing "an input"))

def dialect? (a : Arguments) : Except Halt (Option Dialect) :=
  (a.value? "format").mapM fun name =>
    match [Dialect.mdx, .markdown].find? (·.name = name) with
    | some d => .ok d
    | none => .error (.usage (.badValue "format" name))

/-- The digits of a number below 2^64, which may follow a plus sign. -/
def natural? (text : Text) : Option Nat :=
  let digits := (Text.after? "+" text).getD text
  if digits.isEmpty ∨ !digits.all Text.isDigit then none
  else
    let n := digits.foldl (fun n c => 10 * n + (c.toNat - 48)) 0
    if n < Nat.pow 2 64 then some n else none

def count? (a : Arguments) (name : Text) : Except Halt (Option Nat) :=
  (a.value? name).mapM fun text =>
    match natural? text with
    | some n => .ok n
    | none => .error (.usage (.badValue name text))

def exclusive (a : Arguments) (first second : Text) : Except Halt Unit :=
  let given (name : Text) := a.flag name || (a.value? name).isSome
  if given first && given second then .error (.usage (.conflict first second)) else .ok ()

end Arguments

structure Grammar where
  form : Form
  request : Arguments → Except Halt Request

def convertGrammar : Grammar where
  form := form [outputOption, { name := "output-dir", kind := .valued }, formatOption,
    { name := "language", kind := .valued }, plainFlag "force", plainFlag "no-clobber",
    plainFlag "backup", plainFlag "dry-run"] .single
  request a := do
    a.exclusive "force" "no-clobber"
    a.exclusive "output" "output-dir"
    return .convert {
      input := ← a.needInput
      output := ← a.path? "output"
      outputDir := ← a.path? "output-dir"
      dialect := ← a.dialect?
      language := a.value? "language"
      force := a.flag "force"
      noClobber := a.flag "no-clobber"
      backup := a.flag "backup"
      dryRun := a.flag "dry-run" }

def batchGrammar : Grammar where
  form := form [plainFlag "stdin", outputOption, formatOption, plainFlag "fail-fast",
    { name := "parallel", letter := some 'j', kind := .valued }, plainFlag "force",
    plainFlag "backup"] .many
  request a := do
    let listed := a.flag "stdin"
    return .batch {
      inputs := ← if listed then a.paths else a.needPaths
      listed
      outputDir := ← a.path? "output"
      dialect := ← a.dialect?
      failFast := a.flag "fail-fast"
      parallel := ← a.count? "parallel"
      force := a.flag "force"
      backup := a.flag "backup" }

def fixGrammar : Grammar where
  form := form [plainFlag "no-backup", plainFlag "dry-run", formatOption] .many
  request a := do
    return .fix {
      inputs := ← a.needPaths
      backup := !a.flag "no-backup"
      dryRun := a.flag "dry-run"
      dialect := ← a.dialect? }

def frontmatterGrammar : Grammar where
  form := form [plainFlag "dry-run"] .many
  request a := do return .frontmatter { inputs := ← a.needPaths, dryRun := a.flag "dry-run" }

def checkGrammar : Grammar where
  form := form [plainFlag "json", formatOption] .many
  request a := do
    return .check { inputs := ← a.needPaths, json := a.flag "json", dialect := ← a.dialect? }

def infoGrammar : Grammar where
  form := form [plainFlag "json"] .single
  request a := do
    return .info {
      input := ← Arguments.checkPath "an input" (← a.needInput)
      json := a.flag "json" }

def apidocGrammar : Grammar where
  form := form [{ name := "manifest", kind := .valued }, outputOption, plainFlag "force"] .single
  request a := do
    match a.inputs with
    | input :: _ => .error (.usage (.tooManyInputs input))
    | [] =>
      return .apidoc {
        manifest := ← a.needPath "manifest"
        outputDir := ← a.needPath "output"
        force := a.flag "force" }

def settingsGrammar (flags : List Text) (request : Arguments → SettingsRequest) : Grammar where
  form := form (flags.map plainFlag) .single
  request a :=
    match a.inputs with
    | input :: _ => .error (.usage (.tooManyInputs input))
    | [] => .ok (.config (request a))

def settingsCommands : List (Text × Grammar) := [
  ("init", settingsGrammar ["global", "force"] fun a => .create (a.flag "global") (a.flag "force")),
  ("show", settingsGrammar ["json"] fun a => .display (a.flag "json")),
  ("path", settingsGrammar ["all"] fun a => .locate (a.flag "all"))]

def commands : List (Text × Grammar) := [
  ("convert", convertGrammar),
  ("batch", batchGrammar),
  ("fix", fixGrammar),
  ("frontmatter", frontmatterGrammar),
  ("check", checkGrammar),
  ("info", infoGrammar),
  ("apidoc", apidocGrammar)]

namespace Invocation

def readCommand (g : Grammar) (told : List Verbosity) (line : List Text) : Except Halt Invocation := do
  let (a, _) ← Arguments.read g.form line
  let told := told ++ (← a.verbosity?).toList
  let request ← g.request a
  let verbosity :=
    if .quiet ∈ told then Verbosity.quiet else if .verbose ∈ told then .verbose else .normal
  return ⟨verbosity, request⟩

/-- Read a command's name by a grammar of options before it, and look the name up. -/
def readName (f : Form) (names : List (Text × α)) (line : List Text) :
    Except Halt (List Verbosity × α × List Text) := do
  let (a, rest) ← Arguments.read f line
  match rest with
  | [] => .error (.usage .missingCommand)
  | name :: rest =>
    match names.lookup name with
    | none => .error (.usage (.unknownCommand name))
    | some found => return ((← a.verbosity?).toList, found, rest)

def read (line : List Text) : Except Halt Invocation := do
  let top := commands.map (fun (name, g) => (name, some g)) ++ [(("config" : Text), none)]
  let (told, found, rest) ← readName topForm top line
  match found with
  | some g => readCommand g told rest
  | none =>
    let (more, g, rest) ← readName (form [] .command) settingsCommands rest
    readCommand g (told ++ more) rest

end Invocation
end NotebookPages.Command
