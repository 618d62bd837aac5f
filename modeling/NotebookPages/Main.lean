import NotebookPages.Command.Run

/-!
The program. It reads the files that a request can reach, runs on them, and writes back what has changed.
-/

namespace NotebookPages.Main

open Command

def absolutePath (l : Location) : String := String.ofList ('/' :: Text.joinWith "/" l)

def locationOf (start : Location) (p : Path) : Location :=
  (Text.split (· == '/') p).foldl
    (fun l part =>
      if Path.isIdle part then l else if part = ".." then l.dropLast else l ++ [part])
    (if Path.isAbsolute p then [] else start)

/-- A directory entry and, with `deep`, all below it. What cannot be read is left out. -/
partial def readEntry (deep : Bool) (above : Location) (e : IO.FS.DirEntry) :
    IO (List (Location × Entry)) := do
  let l := above ++ [e.fileName.toList]
  try
    if ← e.path.isDir then
      let inside ← if deep then (← e.path.readDir).toList.mapM (readEntry deep l) else pure []
      return (l, .directory) :: inside.flatten
    else
      return [(l, .file (← IO.FS.readBinFile e.path).toList)]
  catch _ => return []

partial def nearestDirectory (l : Location) : IO Location := do
  let there ← try (← IO.FS.realPath (absolutePath l)).isDir catch _ => pure false
  if there || l.isEmpty then return l else nearestDirectory l.dropLast

def putAll (t : FileTree) (entries : List (Location × Entry)) : FileTree :=
  entries.foldl (fun t (l, e) => t.put l e) t

def directoriesTo (l : Location) : List (Location × Entry) :=
  (List.range l.length).map fun n => (l.take (n + 1), .directory)

/-- Read what a path leads to: all of a directory or of the place where a pattern begins, else the
directory that the path lies in. -/
def readAround (t : FileTree) (p : Path) : IO FileTree := do
  let l := locationOf t.current p
  let d ← nearestDirectory l
  let deep := d == l || Path.Pattern.isPattern p
  let inside ← try (← IO.FS.realPath (absolutePath d)).readDir catch _ => pure #[]
  let entries ← inside.toList.mapM (readEntry deep d)
  return putAll t (directoriesTo d ++ entries.flatten)

def readSingle (t : FileTree) (p : Path) : IO FileTree := do
  let l := locationOf t.current p
  let d ← nearestDirectory l
  let content ←
    try pure [(l, Entry.file (← IO.FS.readBinFile (absolutePath l)).toList)] catch _ => pure []
  return putAll t (directoriesTo d ++ content)

def writeChanges (before after : FileTree) : IO Unit := do
  let changed := after.entries.filter fun (l, e) => before.get? l ≠ some e
  for (l, e) in changed.mergeSort fun a b => a.1.length ≤ b.1.length do
    match e with
    | .directory => IO.FS.createDirAll (absolutePath l)
    | .file content => IO.FS.writeBinFile (absolutePath l) ⟨content.toArray⟩

def countCores : IO Nat := do
  try
    let lines ← IO.FS.lines "/proc/cpuinfo"
    return max 1 (lines.toList.countP fun line => Text.startsWith line.toList "processor")
  catch _ => return 1

def prepare (line : List Text) (around : Surroundings) (t : FileTree) :
    IO (Surroundings × FileTree) := do
  match Invocation.read line with
  | .error _ => return (around, t)
  | .ok i =>
    let single := projectSettingsPath :: (userSettingsPath around).toList
    let t ← single.foldlM readSingle t
    let settings := (loadSettings around t).1
    let input ← if i.request.readsInput then (← IO.getStdin).readBinToEnd else pure ⟨#[]⟩
    let around := { around with input := input.toList }
    let listed := if i.request.readsInput then BatchRequest.inputLines around.input else []
    let named := i.request.paths ++ (settings.resolveOutputDir none).toList ++ listed
    return (around, ← named.foldlM readAround t)

def execute (line : List Text) : IO UInt32 := do
  let current := locationOf [] (← IO.FS.realPath ".").toString.toList
  let start := putAll { current } (directoriesTo current)
  let home := (← IO.getEnv "HOME").map String.toList
  let (around, t) ← prepare line { home, cores := ← countCores } start
  let r := Command.run around t line
  writeChanges t r.files
  (← IO.getStdout).putStr (String.ofList r.output)
  (← IO.getStderr).putStr (String.ofList r.errors)
  return UInt32.ofNat r.code

end NotebookPages.Main

def main (line : List String) : IO UInt32 :=
  NotebookPages.Main.execute (line.map String.toList)
