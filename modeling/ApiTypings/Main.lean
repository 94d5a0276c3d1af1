import ApiTypings.CommandLine.Run

/-! The program. It looks at the working directory, runs the command on what it saw, and writes
what has changed. It has no way to the network, so that descriptions come from files. -/

namespace ApiTypings

/-- What is at an entry of a directory, and below it. What cannot be read is left out. -/
partial def entryNodes (above : Location) (entry : IO.FS.DirEntry) :
    IO (List (Location × Node)) := do
  let here := above ++ [entry.fileName]
  try
    if ← entry.path.isDir then
      let below ← (← entry.path.readDir).toList.mapM (entryNodes here)
      return (here, Node.directory) :: below.flatten
    else
      return [(here, Node.file (← IO.FS.readBinFile entry.path).toList)]
  catch _ => return []

/-- The working directory and all that is in it. -/
def lookAround : IO Workspace := do
  let directory ← IO.currentDir
  let location := (Path.ofString directory.toString).parts
  let above := (List.range location.length).map fun i => (location.take (i + 1), Node.directory)
  let below ← (← directory.readDir).toList.mapM (entryNodes location)
  return ⟨⟨above ++ below.flatten⟩, location⟩

/-- The variables that fields of the settings have. -/
def settingVariables : IO Environment := do
  let found ← Settings.fieldNames.mapM fun field => do
    let name := (Environment.mark ++ field).toUpper
    return (← IO.getEnv name).map fun value => (name, value)
  return found.filterMap id

def writeNode (location : Location) : Node → IO Unit
  | .directory => IO.FS.createDirAll (Path.mk "/" location).text
  | .file content => do
    IO.FS.createDirAll (Path.mk "/" location.dropLast).text
    IO.FS.writeBinFile (Path.mk "/" location).text ⟨content.toArray⟩

/-- Write what is new or different. -/
def writeChanges (before after : FileTree) : IO Unit :=
  after.nodes.forM fun (location, node) =>
    if before.node? location == some node then pure () else writeNode location node

/-- The network of a program that has none. -/
def noNetwork : Web := fun _ => .unreachable "the network is not available"

end ApiTypings

open ApiTypings in
def main (arguments : List String) : IO UInt32 := do
  let workspace ← lookAround
  let (result, verbose) :=
    Command.runArguments workspace (← settingVariables) noNetwork arguments
  writeChanges workspace.tree result.workspace.tree
  (result.shownLog verbose).forM fun record => IO.eprintln record.text
  result.printed.forM fun line => IO.println line
  return result.status.toUInt32
