import RConsole.Config.Schema
import RConsole.Console.Embedding
import RConsole.Logging.Setup
import RConsole.Program.CommandLine
import RConsole.Screen.Drawing

namespace RConsole

structure Fatal where
  doing : String
  causes : List String
  deriving DecidableEq, Repr

namespace Fatal

def indent (margin text : String) : String :=
  ("\n" ++ margin).intercalate ((splitLines text.toList).map String.ofList)

def number (n : Nat) : String :=
  let digits := toString n
  String.ofList (List.replicate (5 - digits.length) ' ') ++ digits ++ ": "

def text (f : Fatal) : String :=
  "Error: " ++ f.doing ++ (match f.causes with
    | [] => ""
    | [cause] => "\n\nCaused by:\n    " ++ indent "    " cause
    | causes => "\n\nCaused by:" ++ String.join
        (causes.mapIdx fun i cause => "\n" ++ number i ++ indent "       " cause)) ++ "\n"

end Fatal

def Config.LoadError.causes : Config.LoadError → List String
  | .read path cause => ["failed to read " ++ path ++ ": " ++ cause.message, cause.message]
  | .parse path source cause =>
    ["failed to parse " ++ path ++ ": " ++ cause.text source, cause.text source]

def RuntimeError.causes (e : RuntimeError) : List String := e.message :: e.cause?.toList

def Logging.LogError.causes (e : Logging.LogError) : List String := e.message :: e.cause?.toList

structure Ran where
  exitCode : Nat
  out : String := ""
  err : String := ""
  files : Files
  notes : List Note := []

namespace Launch

open CommandLine (Options)

def overlay (os : Options) (config : Config) : Config where
  console := { config.console with
    pollMilliseconds := os.pollMilliseconds.getD config.console.pollMilliseconds }
  runtime := { config.runtime with root := os.root.or config.runtime.root }
  log := { config.log with level := os.logLevel.getD config.log.level }

def statusLine (files : Files) (e : Environment) : String :=
  Path.abbreviate (String.ofList ('/' :: Path.joinSegments files.here)) (Config.home? e)

def console (config : Config) (e : Environment) (files : Files) (c : Console) : Console :=
  { c with
    files := files
    history := History.loadOrForget files (config.historyPath? e)
    loadSettings := Engine.settings config.console.settings
    loadBanner := some Engine.version
    blankLine := config.console.blankLine
    status := some (statusLine files e) }

def prepare (os : Options) (e : Environment) (files : Files) :
    Except (Fatal × Files) (Config × Files) :=
  match Config.load files e os.config with
  | .error error => .error (⟨"failed to load config", error.causes⟩, files)
  | .ok config =>
    let config := overlay os config
    match Logging.Log.setUp config.log e files {} with
    | (.error error, files, _) => .error (⟨"failed to initialize logging", error.causes⟩, files)
    | (.ok (), files, _) => .ok (config, files)

def exitCode (status : Int) : Nat := (status % 256).toNat

def stopped (f : Fatal) (files : Files) (notes : List Note) : Ran :=
  { exitCode := 1, err := f.text, files := files, notes := notes }

def afterRun (width : Nat) (c : Console) : Ran :=
  let exit := c.exit.getD (c.exitWith (c.exitStatus.getD 0))
  let sent := (Display.sendAll ⟨width, 0⟩ (c.terminal.acts.toList.take exit.acts)).1
  { exitCode := exitCode exit.status
    out := Display.textOn .out sent
    err := Display.textOn .err sent
    files := exit.files
    notes := c.engine.notes.toList.take exit.notes }

def runConsole (os : Options) (width : Nat) (actions : List Action) (p : Embedding) : Ran :=
  let e := p.shared.environment
  match prepare os e p.host.files with
  | .error (fatal, files) => stopped fatal files []
  | .ok (config, files) =>
    let p := { p with host := { p.host with files := files } }
    match p.start ⟨config.runtime.root, config.runtime.programName⟩ with
    | (.error error, p) =>
      stopped ⟨"failed to start R", error.causes⟩ files p.console.engine.notes.toList
    | (.ok (), p) =>
      match p.run (console config e files) actions with
      | (.error error, p) =>
        stopped ⟨"R session failed", error.causes⟩ files p.console.engine.notes.toList
      | (.ok (), p) => afterRun width p.console

def paths (args : List String) (e : Environment) (files : Files) : List Path :=
  match CommandLine.parse args with
  | .console os =>
    let asked := (os.config.or (Config.defaultPath? e)).toList
    match prepare os e files with
    | .error _ => asked
    | .ok (config, _) =>
      let root := (config.runtime.root.or (e.get? "R_HOME")).toList
      asked ++ (config.historyPath? e).toList ++ config.log.file.toList ++ root ++
        root.map fun r => Installation.libraryPath r .linux
  | _ => []

def main (args : List String) (width : Nat) (actions : List Action) (p : Embedding) : Ran :=
  match CommandLine.parse args with
  | .console os => runConsole os width actions p
  | .completions _ => { exitCode := 0, files := p.host.files }
  | .info text => { exitCode := 0, out := text, files := p.host.files }
  | .misuse text => { exitCode := 2, err := text, files := p.host.files }

end Launch

end RConsole
