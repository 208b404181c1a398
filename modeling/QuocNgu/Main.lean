import QuocNgu.CommandLine
import QuocNgu.Fault
import QuocNgu.Installed

/-!
# Main — the program on the real file system

The files that a run can look at are read into a session, the run is computed, and what it changed
is written back. The session is on a device that never gives up; a disk that does so when the
configuration is written back ends the program, after its answer was computed.
-/

namespace QuocNgu
namespace Main

/-- Records what is on disk at each place along a path. -/
def recordAlong (fs : FileSystem) (path : String) : IO FileSystem := do
  let working ← IO.currentDir
  let mut known := fs
  let mut reached := if FileSystem.isAbsolute path then "/" else ""
  let mut place := fs.start path
  for name in FileSystem.names path do
    reached := joinPath reached name
    place := FileSystem.step place name
    let onDisk := working / reached
    if ← onDisk.isDir then
      -- the root is a directory without being recorded as one
      if !place.isEmpty then known := known.set place .directory
    else if ← onDisk.pathExists then
      known := known.set place (.file (← IO.FS.readBinFile onDisk))
  return known

/-- The data files that came with the program, unless there are files of that name on disk. -/
def addInstalled (fs : FileSystem) (directory : String) : FileSystem :=
  Installed.files.foldl
    (fun fs (name, text) =>
      let path := joinPath directory name
      if fs.exists? path then fs else (fs.put path text.toUTF8).1)
    fs

def environment : IO Environment := do
  return {
    dataOverride? := ← IO.getEnv "VN_IME_CORE_DATADIR"
    configHome? := ← IO.getEnv "XDG_CONFIG_HOME"
    home? := ← IO.getEnv "HOME"
    installedData := joinPath (← IO.appDir).toString "data"
    accountHome := "/" }

/-- Everything that a run with these arguments reads, dictionary files included. -/
def session (args : List String) : IO Session := do
  let env ← environment
  let working := FileSystem.names (← IO.currentDir).toString
  let paths := [env.userConfigPath, env.defaultConfigPath,
    joinPath env.userDirectory Definitions.fileName,
    joinPath env.dataDirectory Definitions.fileName]
  let fs ← paths.foldlM recordAlong (FileSystem.empty working)
  let s : Session := ⟨addInstalled fs env.installedData, env, [], []⟩
  -- the dictionaries are known only once the configuration has been read
  let fs ← (CommandLine.dictionaryFiles args s).foldlM recordAlong s.files
  return { s with files := fs }

/-- Writes the user's configuration to disk if the run changed it. -/
def writeBack (before : Session) (after : FileSystem) : IO Unit := do
  let path := before.environment.userConfigPath
  match before.files.read path, after.read path with
  | old, .ok new =>
      if old.toOption != some new then
        IO.FS.createDirAll before.environment.userDirectory
        IO.FS.writeBinFile path new
  | _, .error _ => return

end Main
end QuocNgu

open QuocNgu in
def main (args : List String) : IO UInt32 := do
  let s ← Main.session args
  let outcome := CommandLine.run args s
  Main.writeBack s outcome.files
  IO.print outcome.output
  IO.eprint (outcome.usage ++ outcome.errors)
  match outcome.status with
  | .ok code => return UInt32.ofNat code
  | .error fault => do
      IO.eprintln fault.message
      return 1
