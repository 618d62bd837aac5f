import NotebookPages.Command.Repair

/-!
The command that reports what a strict compiler would reject in pages. It changes nothing.
-/

namespace NotebookPages.Command

structure FileReport where
  path : Path
  findings : List Finding := []
  failure : Option Failure := none
  deriving DecidableEq, Repr

namespace FileReport

def findingJson (f : Finding) : Json := .object [
  ("line", .integer f.line),
  ("kind", .string f.problem.key),
  ("excerpt", .string f.excerpt)]

def toJson (r : FileReport) : Json :=
  let failure : List (Text × Json) :=
    match r.failure with
    | some f => [("error", .string f.inline)]
    | none => []
  .object (("path", .string r.path) :: ("diagnostics", .array (r.findings.map findingJson))
    :: failure)

end FileReport

namespace CheckRequest

def checkFile (r : CheckRequest) (s : Settings) (t : FileTree) (p : Path) : FileReport :=
  match t.readText p with
  | .error e => { path := p, failure := some (unreadable p e) }
  | .ok text =>
    let rules := (s.pageOptions (pageDialect r.dialect p) none).rules
    { path := p, findings := Document.diagnose rules text }

def closing (reports : List FileReport) : Text :=
  let problems := (reports.flatMap (·.findings)).length
  let affected := reports.countP (!·.findings.isEmpty)
  let failed := reports.countP (·.failure.isSome)
  let files := " of " ++ Text.ofNat reports.length ++ " files"
  if problems = 0 ∧ failed = 0 then
    Text.line ("✓ No problems found in " ++ Text.ofNat reports.length ++ " files")
  else
    onlyIf (problems > 0)
      (Text.line ("✗ " ++ Text.ofNat problems ++ " problems in " ++ Text.ofNat affected ++ files) ++
        Text.line "Help: Run 'nbdoc fix' to repair them") ++
    onlyIf (failed > 0) (Text.line ("✗ " ++ Text.ofNat failed ++ files ++ " could not be read"))

def allClean (reports : List FileReport) : Bool :=
  reports.all fun r => r.findings.isEmpty && r.failure.isNone

def outcome (r : CheckRequest) (v : Verbosity) (t : FileTree) (reports : List FileReport) : Outcome :=
  let ending : Ending := if allClean reports then .success else .rejected
  if r.json then
    { files := t
      output := Text.line (Json.pretty (.array (reports.map FileReport.toJson)))
      ending }
  else
    { files := t
      output := reports.flatMap fun report =>
        report.findings.flatMap fun f => Text.line (report.path ++ ": " ++ f.message)
      status := (reports.flatMap fun report =>
          (report.failure.map (failureLine report.path)).getD []) ++
        onlyIf v.showsStatus (closing reports)
      ending }

def run (r : CheckRequest) (v : Verbosity) (s : Settings) (t : FileTree) : Outcome :=
  match pages t r.inputs with
  | .error e => e.outcome t
  | .ok files => r.outcome v t (files.map (r.checkFile s t))

end CheckRequest
end NotebookPages.Command
