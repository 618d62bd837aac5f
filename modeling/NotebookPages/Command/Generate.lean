import NotebookPages.Command.Outcome
import NotebookPages.Reference.Page
import NotebookPages.Storage.Publish

/-!
The command that writes the reference pages of a manifest. Pages that exist are kept unless the request
says otherwise.
-/

namespace NotebookPages.Command

def readManifest (t : FileTree) (p : Path) : Except Failure Reference.Manifest :=
  let context : Text := "Failed to load manifest " ++ p
  match t.readText p with
  | .error e => .error ⟨context, ["IO error: " ++ e.message, e.message]⟩
  | .ok text => (Reference.Manifest.read text).mapError fun e => ⟨context, [e.message]⟩

namespace ReferenceRequest

/-- Write the pages in order; the result tells for each whether it was written. The pages after one
that cannot be written are left out. -/
def writePages (r : ReferenceRequest) (t : FileTree) :
    List Reference.GeneratedPage → FileTree × List (Path × Bool) × Option PublishError
  | [] => (t, [], none)
  | page :: rest =>
    let p := Path.join r.outputDir page.path
    if t.contains p && !r.force then
      let (t, done, e) := writePages r t rest
      (t, (p, false) :: done, e)
    else match t.publish false p page.content with
      | (t, .error e) => (t, [], some e)
      | (t, .ok _) =>
        let (t, done, e) := writePages r t rest
        (t, (p, true) :: done, e)

def pageText (v : Verbosity) : Path × Bool → Text
  | (p, true) => onlyIf v.isVerbose (Text.line ("✓ " ++ p))
  | (p, false) =>
    onlyIf v.showsStatus (Text.line ("Skip: " ++ p ++ " (" ++ Refusal.destinationExists.message ++ ")"))

def run (r : ReferenceRequest) (v : Verbosity) (t : FileTree) : Outcome :=
  match readManifest t r.manifest with
  | .error f => { files := t, ending := .failed f }
  | .ok m =>
    let (t, done, e) := r.writePages t (Reference.generate .mdx m)
    let told := done.flatMap (pageText v)
    match e with
    | some e => { files := t, status := told, ending := .failed e.failure }
    | none =>
      { files := t
        status := told ++ onlyIf v.showsStatus (Text.line (
          "✓ Generated " ++ Text.ofNat (done.countP (·.2)) ++ " pages in " ++ r.outputDir ++ " (" ++
            Text.ofNat (done.countP (!·.2)) ++ " skipped)")) }

end ReferenceRequest
end NotebookPages.Command
