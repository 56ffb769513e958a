import RConsole.Program.Launch

/-!
The program as a process: what a run looks at is read before it, and what the run wrote is written
after it. No library of R can be opened from here, so a run ends where R would be loaded.
-/
namespace RConsole.Main

def names : List String := ["HOME", "XDG_CONFIG_HOME", "R_HOME", "RUST_LOG"]

def environment : IO Environment :=
  names.filterMapM fun name => return (← IO.getEnv name).map fun value => (name, value)

def look (files : Files) (path : Path) : IO Files := do
  try
    let bytes ← IO.FS.readBinFile path
    return (files.appendDeep path bytes.toList).toOption.getD files
  catch
    | .inappropriateType .. => return (files.makeDirectory path).toOption.getD files
    | _ => return files

def lookAll (files : Files) (paths : List Path) : IO Files :=
  paths.eraseDups.foldlM (fun files path =>
    if files.contains path then return files else look files path) files

def store (before after : Files) : IO Unit :=
  after.nodes.forM fun (place, node) => do
    let path := String.ofList ('/' :: Path.joinSegments place)
    if before.node? place ≠ some node then
      match node with
      | .directory _ => IO.FS.createDirAll path
      | .file _ content => IO.FS.writeBinFile path (ByteArray.mk content.toArray)
      | .sink _ => pure ()

end RConsole.Main

open RConsole in
def main (args : List String) : IO UInt32 := do
  let e ← Main.environment
  let here := (← IO.currentDir).toString
  let bare := (Files.workIn {} here).toOption.getD {}
  let files ← Main.lookAll bare (Launch.paths args e bare)
  let files ← Main.lookAll files (Launch.paths args e files)
  let host : Host := { files := files, load := Library.openAt [] files }
  let ran := Launch.main args 80 [] { host := host, shared := { environment := e } }
  Main.store files ran.files
  (← IO.getStdout).putStr ran.out
  (← IO.getStderr).putStr ran.err
  return UInt32.ofNat ran.exitCode
