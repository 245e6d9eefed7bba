import Inliner.CommandLine.Run

/-!
What a command line can look at. A merge reads files below the workspace root and below the
directory of the file that it starts from; nothing else has to be known of the file tree.
-/

namespace Inliner.CommandLine

namespace Invocation

/-- The configuration file that is read if it exists. -/
def configFile (invocation : Invocation) (directory : Path) : Path :=
  match invocation.config with
  | some name => name.anchoredAt directory
  | none => directory.join (.ofString FileConfig.fileName)

def startFile (invocation : Invocation) (directory : Path) (config : FileConfig) : Path :=
  match invocation.command with
  | .merge file _ | .imports file => file.anchoredAt directory
  | .bundle contest problem => config.problemSource contest problem

def targetFile? (invocation : Invocation) (directory : Path) (config : FileConfig) :
    Option Path :=
  match invocation.command with
  | .merge _ output => output.map (·.anchoredAt directory)
  | .bundle _ problem => some (config.bundleOutput problem)
  | .imports _ => none

def sourceDirectories (invocation : Invocation) (directory : Path) (config : FileConfig) :
    List Path :=
  let merge := invocation.override directory config.merge
  let start := invocation.startFile directory config
  [merge.workspaceRoot, merge.libraryDirectory, start.parent?.getD directory]

end Invocation

def locationAt (directory : Location) (path : Path) : Location :=
  Location.resolve .root (path.anchoredAt directory.path)

def chain (location : Location) : List Location :=
  location.ancestors ++ [location]

/-- The locations of a list that no other one of them lies above. -/
def outermost (locations : List Location) : List Location :=
  locations.eraseDups.filter fun location =>
    !locations.any fun other =>
      other ≠ location && other.names.isPrefixOf location.names

def newDirectories (before after : FileTree) : List Location :=
  after.directories.filter (!before.hasDirectory ·)

def changedFiles (before after : FileTree) : List (Location × Content) :=
  after.files.filter fun (location, content) => before.content? location ≠ some content

end Inliner.CommandLine
