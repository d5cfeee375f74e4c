import SyntaxStream.Cli.Run
import SyntaxStream.Locations

namespace SyntaxStream.Cli

-- What stands at a path.
def readEntry (path : String) : IO (Option FileEntry) := do
  try
    match String.fromUTF8? (← IO.FS.readBinFile path) with
    | some content => return some (.text content)
    | none => return some (.unreadable "stream did not contain valid UTF-8")
  catch
    | .noFileOrDirectory _ _ _ => return none
    | reason => return some (.unreadable (toString reason))

-- The files of a directory with their names, none if it cannot be read. A name under which nothing
-- is found is that of a link.
def readFolder (path : String) : IO (List (String × FileEntry)) := do
  try
    let folder ← IO.FS.realPath path
    let names := (← folder.readDir).toList.map (·.fileName)
    names.mapM fun name => do
      return (name, (← readEntry (Path.join path name)).getD .brokenLink)
  catch _ => return []

-- The whole standard input, none if it is no text.
def readInput : IO (Option String) := do
  let input ← IO.getStdin
  let mut bytes := ByteArray.empty
  repeat
    let chunk ← input.read 65536
    if chunk.isEmpty then break
    bytes := bytes ++ chunk
  return String.fromUTF8? bytes

def readWorld (places : Option Locations) (line : CommandLine) : IO World := do
  let themes ← (places.map Locations.themes).elim (pure []) readFolder
  let settings ← (places.map Locations.file).elim (pure none) readEntry
  let paths := line.config.toList ++ line.command.path?.toList
  let files ← paths.filterMapM fun path => do
    return (← readEntry path).map fun entry => (path, entry)
  let input ← if line.command.readsInput then readInput else pure none
  return { library := ⟨themes⟩, settings, files, input }

end SyntaxStream.Cli

open SyntaxStream

-- Runs a command. There are no grammars here and no connections, so that code is shown in the
-- color of plain text.
def main (args : List String) : IO UInt32 := do
  let places := Locations.ofEnvironment (← IO.getEnv "XDG_CONFIG_HOME") (← IO.getEnv "HOME")
  let world ← match Cli.CommandLine.parse args with
    | .error _ => pure default
    | .ok line => Cli.readWorld places line
  let _ := Diagnostics.ofPath ((places.map Locations.themes).getD "")
  let (outcome, _, _) :=
    Cli.run SyntaxParser.absent (fun _ => Remote.unreachable) world args () ()
  if outcome.logs then
    if let some places := places then
      try IO.FS.createDirAll places.logs catch _ => pure ()
  IO.print outcome.output
  IO.eprint outcome.complaint
  return outcome.code.toUInt32
