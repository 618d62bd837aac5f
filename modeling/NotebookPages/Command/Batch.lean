import NotebookPages.Command.Convert

/-!
The command that makes many pages. Where each page goes is planned before the first is written, and the
items of the plan are treated one after another, each in the files that the ones before it left.
-/

namespace NotebookPages.Command

/-- A source, where its page goes, and whether an earlier source has claimed that place. -/
structure Item where
  source : Path
  destination : Path
  duplicate : Bool
  deriving DecidableEq, Repr

inductive Result where
  | converted (backup : Option Path)
  | skipped (r : Refusal)
  | failed (f : Failure)
  deriving DecidableEq, Repr

structure Batch where
  options : PageOptions
  outputDir : Option Path
  failFast : Bool
  force : Bool
  backup : Bool
  workers : Nat

namespace Batch

/-- The items of the sources after those whose pages go to the places in `claimed`. -/
def planFrom (b : Batch) (claimed : List Path) : List Path → List Item
  | [] => []
  | source :: rest =>
    let destination := Page.outputPath b.options.dialect b.outputDir source
    ⟨source, destination, claimed.any (Path.same destination)⟩
      :: planFrom b (destination :: claimed) rest

def plan (b : Batch) (sources : List Path) : List Item := b.planFrom [] sources

def convert (b : Batch) (t : FileTree) (i : Item) : FileTree × Result :=
  if i.duplicate then (t, .skipped .duplicate)
  else match t.refusal? b.force i.source i.destination with
    | some r => (t, .skipped r)
    | none =>
      match Page.ofFile b.options t i.destination i.source with
      | .error e => (t, .failed e.failure)
      | .ok p =>
        match t.publish b.backup i.destination p.content with
        | (t, .ok backup) => (t, .converted backup)
        | (t, .error e) => (t, .failed e.failure)

def stopsAt (b : Batch) : Result → Bool
  | .failed _ => b.failFast
  | _ => false

/-- Treat the items in order. Once the batch has ended they are only skipped. -/
def run (b : Batch) (t : FileTree) (ended : Bool) : List Item → FileTree × List (Item × Result)
  | [] => (t, [])
  | i :: rest =>
    let (t, result) := if ended then (t, .skipped .earlierFailure) else b.convert t i
    let (t, more) := run b t (ended || b.stopsAt result) rest
    (t, (i, result) :: more)

end Batch

namespace BatchRequest

def resolve (r : BatchRequest) (s : Settings) (cores : Nat) : Except UnknownName Batch := do
  let d ← s.resolveDialect r.dialect
  let failFast := s.resolveFailFast r.failFast
  return {
    options := s.pageOptions d none
    outputDir := s.resolveOutputDir r.outputDir
    failFast
    force := r.force
    backup := s.resolveBackup r.backup
    workers := match s.resolveParallel r.parallel with
      | 0 => if failFast && r.parallel.isNone then 1 else cores
      | n => n }

/-- The lines of standard input up to the first that is no text, trimmed and without blank ones. -/
def inputLines (input : Bytes) : List Path :=
  let lines := (Text.split (· == 10) input).map Text.decode?
  (((lines.takeWhile Option.isSome).filterMap id).map Text.trim).filter (!·.isEmpty)

end BatchRequest

def summaryLine (label : Text) (n : Nat) : Text :=
  Text.line (Text.padEnd 16 label ++ " " ++ Text.ofNat n)

namespace Batch

def startLine (b : Batch) (items : Nat) : Text :=
  let manner : Text :=
    if b.workers > 1 then " with " ++ Text.ofNat b.workers ++ " workers" else " (sequential)"
  Text.line ("Info: Processing " ++ Text.ofNat items ++ " files" ++ manner ++ "...")

def itemText (v : Verbosity) : Item × Result → Text
  | (i, .converted backup) =>
    let copied : Text := match backup with
      | some b => Text.line ("  Backup: " ++ b)
      | none => []
    onlyIf v.isVerbose (writtenLine i.source i.destination ++ copied)
  | (i, .skipped r) =>
    onlyIf v.showsStatus
      (Text.line ("Skip: Skipped " ++ shortName i.source ++ " (" ++ r.message ++ ")"))
  | (_, .failed _) => []

def failures (results : List (Item × Result)) : List (Item × Failure) :=
  results.filterMap fun
    | (i, .failed f) => some (i, f)
    | _ => none

def summary (b : Batch) (results : List (Item × Result)) : Text :=
  let converted := results.countP fun (_, r) => match r with
    | .converted _ => true
    | _ => false
  let failed := (failures results).length
  Text.line "" ++ Text.line "=== Batch Conversion Summary ===" ++
    summaryLine "Total files:" results.length ++ summaryLine "Succeeded:" converted ++
    summaryLine "Failed:" failed ++
    summaryLine "Skipped:" (results.length - converted - failed) ++
    onlyIf (b.workers > 1) (summaryLine "Workers:" b.workers)

def failureText (failed : List (Item × Failure)) : Text :=
  Text.line "" ++ Text.line "Failures:" ++
    failed.flatMap fun (i, f) => Text.line ("  ✗ " ++ shortName i.source ++ " - " ++ f.inline)

def outcome (b : Batch) (v : Verbosity) (t : FileTree) (results : List (Item × Result)) : Outcome :=
  let told := onlyIf v.showsStatus (b.startLine results.length) ++
    results.flatMap (itemText v) ++ onlyIf v.showsStatus (b.summary results)
  let failed := failures results
  if failed.isEmpty then { files := t, status := told }
  else
    { files := t
      status := told ++ failureText failed
      ending := .failed ⟨"Batch conversion failed: " ++ Text.ofNat failed.length ++ " of " ++
        Text.ofNat results.length ++ " files failed", []⟩ }

def blockedDirectory? (b : Batch) (t : FileTree) : Option Path :=
  b.outputDir.filter fun p => t.contains p && !t.isDirectory p

end Batch

def BatchRequest.run (r : BatchRequest) (v : Verbosity) (s : Settings) (around : Surroundings)
    (t : FileTree) : Outcome :=
  match r.resolve s around.cores with
  | .error e => { files := t, ending := .failed ⟨Settings.dialectMessage e, []⟩ }
  | .ok b =>
    match b.blockedDirectory? t with
    | some p => .announced t ("Output path is not a directory: " ++ p) []
    | none =>
      let inputs := if r.listed then inputLines around.input else r.inputs
      match sources t inputs with
      | .error e => e.outcome t
      | .ok files =>
        let (t, results) := b.run t false (b.plan files)
        b.outcome v t results

end NotebookPages.Command
