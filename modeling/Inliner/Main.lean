import Inliner.CommandLine.Scope

/-!
The program. It takes a picture of the files that a command can look at, runs the command on it,
and writes what has changed. Links to directories are left out of the picture.
-/

namespace Inliner.CommandLine

def contentBytes : Content → ByteArray
  | .text text => (String.ofList text).toUTF8
  | .bytes bytes => ⟨bytes.toArray⟩

def addEntry (tree : FileTree) (location : Location) : IO FileTree := do
  let path := (← IO.currentDir) / location.toString
  try
    match (← path.symlinkMetadata).type with
    | .dir => return tree.addDirectory location
    | .file => return tree.put location (.ofBytes (← IO.FS.readBinFile path).toList)
    | .symlink =>
        if (← path.metadata).type == .file then
          let target := Path.ofString (← IO.FS.realPath path).toString
          let content := Content.ofBytes (← IO.FS.readBinFile path).toList
          return (tree.put (locationAt .root target) content).putLink location target
        else
          return tree
    | .other => return tree
  catch _ => return tree

/-- Adds everything below a location to a picture. -/
partial def addBelow (tree : FileTree) (location : Location) : IO FileTree := do
  let picture ← addEntry tree location
  if picture.hasDirectory location then
    let path := (← IO.currentDir) / location.toString
    let entries ← try path.readDir catch _ => pure #[]
    entries.foldlM (fun tree entry => addBelow tree (location.child entry.fileName.toList)) picture
  else
    return picture

/-- The picture of the files that a command line can look at. -/
def takePicture (invocation : Invocation) (current : Location) : IO FileTree := do
  let start := FileTree.empty current
  let configFile := locationAt current (invocation.configFile current.path)
  let configured ← (chain configFile).foldlM addEntry start
  match FileConfig.load configured invocation.config current.path with
  | .error _ => return configured
  | .ok config =>
      let sources := invocation.sourceDirectories current.path config
      let target := (invocation.targetFile? current.path config).toList
      let directories := outermost (sources.map (locationAt current))
      let read ← directories.foldlM addBelow configured
      (target.flatMap (chain ∘ locationAt current)).foldlM addEntry read

/-- Makes the directories and writes the files that a picture does not have. -/
def writeChanges (before after : FileTree) : IO Unit := do
  let current ← IO.currentDir
  for location in newDirectories before after do
    IO.FS.createDirAll (current / location.toString)
  for (location, content) in changedFiles before after do
    IO.FS.writeBinFile (current / location.toString) (contentBytes content)

def runOnFiles (arguments : List String) : IO UInt32 := do
  let current := locationAt .root (.ofString (← IO.currentDir).toString)
  let before ←
    match Invocation.ofArguments arguments with
    | .ok invocation => takePicture invocation current
    | .error _ => pure (FileTree.empty current)
  let exit := run arguments before
  writeChanges before exit.tree
  for line in exit.log do
    IO.eprintln line.toString
  if let some failure := exit.failure then
    IO.eprint failure.toString
  if exit.code = 2 then
    IO.eprintln "error: the arguments are not understood"
  IO.print (String.ofList exit.printed)
  return UInt32.ofNat exit.code

end Inliner.CommandLine

def main (arguments : List String) : IO UInt32 :=
  Inliner.CommandLine.runOnFiles arguments
