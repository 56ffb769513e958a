import RConsole.Engine.Error
import RConsole.Text.Pieces

namespace RConsole

open Utf8 (Bytes)

abbrev Environment := List (String × String)

namespace Environment

def get? (e : Environment) (name : String) : Option String :=
  (e.find? fun v => v.1 = name).map Prod.snd

def set (e : Environment) (name value : String) : Environment :=
  (name, value) :: e.filter fun v => v.1 ≠ name

def setAll (e : Environment) (values : Environment) : Environment :=
  values.foldl (fun e v => e.set v.1 v.2) e

end Environment

inductive CommandRun where
  | notRun (cause : FileError)
  | exited (output : Bytes) (code : Nat)
  | killed (output : Bytes) (signal : Nat)
  deriving DecidableEq, Repr

namespace CommandRun

def signalNames : List String :=
  ["SIGHUP", "SIGINT", "SIGQUIT", "SIGILL", "SIGTRAP", "SIGABRT", "SIGBUS", "SIGFPE", "SIGKILL",
    "SIGUSR1", "SIGSEGV", "SIGUSR2", "SIGPIPE", "SIGALRM", "SIGTERM", "SIGSTKFLT", "SIGCHLD",
    "SIGCONT", "SIGSTOP", "SIGTSTP", "SIGTTIN", "SIGTTOU", "SIGURG", "SIGXCPU", "SIGXFSZ",
    "SIGVTALRM", "SIGPROF", "SIGWINCH", "SIGIO", "SIGPWR", "SIGSYS"]

def signalText (signal : Nat) : String :=
  "signal: " ++ toString signal ++
    match if signal = 0 then none else signalNames[signal - 1]? with
    | some name => " (" ++ name ++ ")"
    | none => ""

end CommandRun

structure Installation where
  root : Path
  library : Path
  deriving DecidableEq, Repr

namespace Installation

def libraryPath (root : Path) : Platform → Path
  | .macOS => (root.join "lib").join "libR.dylib"
  | .windows => ((root.join "bin").join "x64").join "R.dll"
  | .linux => (root.join "lib").join "libR.so"
  | .other => (root.join "lib").join "libR.so"

def environment (root : Path) : Environment :=
  [("R_HOME", root), ("R_DOC_DIR", root.join "doc"), ("R_INCLUDE_DIR", root.join "include"),
    ("R_SHARE_DIR", root.join "share")]

def rootOf (command : String) : CommandRun → Except DiscoveryError Path
  | .notRun cause => .error (.commandFailed command cause.message)
  | .killed _ signal => .error (.commandStatus command (CommandRun.signalText signal))
  | .exited output code =>
    if code ≠ 0 then .error (.commandStatus command ("exit status: " ++ toString code))
    else match trim (Utf8.decodeLossy output) with
      | [] => .error (.emptyRoot command)
      | root => .ok (String.ofList root)

def ofRoot (files : Files) (platform : Platform) (root : Path) :
    Except DiscoveryError Installation :=
  if !files.isDirectory root then .error (.rootNotFound root)
  else
    let library := libraryPath root platform
    if files.contains library then .ok ⟨root, library⟩ else .error (.libraryNotFound library)

def command : String := "R"

def locate (files : Files) (platform : Platform) (run : CommandRun) (explicit : Option Path)
    (environment : Environment) : Except DiscoveryError Installation := do
  let root ← match explicit, (environment.get? "R_HOME").filter (· ≠ "") with
    | some root, _ => pure root
    | none, some root => pure root
    | none, none => rootOf command run
  ofRoot files platform root

end Installation

end RConsole
