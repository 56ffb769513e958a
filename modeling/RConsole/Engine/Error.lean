import RConsole.Store.Files
import RConsole.Text.Quoted

namespace RConsole

inductive Platform where
  | linux
  | macOS
  | windows
  | other
  deriving DecidableEq, Repr

namespace Platform

def name : Platform → String
  | linux => "linux"
  | macOS => "macos"
  | windows => "windows"
  | other => "unknown"

def loadsLibraries : Platform → Bool
  | linux => true
  | macOS => true
  | windows => false
  | other => false

def setsHooks : Platform → Bool
  | linux => true
  | macOS => true
  | windows => false
  | other => false

end Platform

inductive DiscoveryError where
  | commandFailed (command cause : String)
  | commandStatus (command status : String)
  | emptyRoot (command : String)
  | rootNotFound (path : Path)
  | libraryNotFound (path : Path)
  deriving DecidableEq, Repr

inductive InitError where
  | loadFailed (path : Path) (reason : String)
  | missingSymbol (name : String)
  | initFailed (code : Int)
  | alreadyInitialized
  | invalidArgument (text : String)
  deriving DecidableEq, Repr

inductive RuntimeError where
  | discovery (error : DiscoveryError)
  | init (error : InitError)
  | unsupported (platform : Platform)
  | alreadyRunning
  | registryInstalled
  | layoutMismatch (offset : Int)
  deriving DecidableEq, Repr

def DiscoveryError.message : DiscoveryError → String
  | .commandFailed command cause =>
    "R_HOME is not set and `" ++ command ++ " RHOME` could not be run: " ++ cause
  | .commandStatus command status => "`" ++ command ++ " RHOME` exited with " ++ status
  | .emptyRoot command => "`" ++ command ++ " RHOME` printed an empty install root"
  | .rootNotFound path => "R install root " ++ path ++ " does not exist"
  | .libraryNotFound path => "cannot locate R shared library at " ++ path

def InitError.message : InitError → String
  | .loadFailed path reason => "failed to load " ++ path ++ ": " ++ reason
  | .missingSymbol name => "R library does not export `" ++ name ++ "`"
  | .initFailed code => "Rf_initialize_R returned " ++ toString code
  | .alreadyInitialized => "the R runtime has already been initialized in this process"
  | .invalidArgument text =>
    "argument " ++ String.ofList (quote text.toList) ++ " contains an interior NUL byte"

def RuntimeError.message : RuntimeError → String
  | .discovery error => error.message
  | .init error => error.message
  | .unsupported platform => "embedding R is not supported on " ++ platform.name
  | .alreadyRunning => "an R main loop is already running in this process"
  | .registryInstalled => "console callbacks are already installed on this thread"
  | .layoutMismatch offset =>
    "unexpected R object layout: integer payload offset " ++ toString offset ++
      " bytes; this R version stores scalars differently than the bridge assumes"

def RuntimeError.cause? : RuntimeError → Option String
  | .discovery (.commandFailed _ cause) => some cause
  | _ => none

def Platform.requireLoading (p : Platform) : Except RuntimeError Unit :=
  if p.loadsLibraries then .ok () else .error (.unsupported p)

def Platform.requireHooks (p : Platform) : Except RuntimeError Unit :=
  if p.setsHooks then .ok () else .error (.unsupported p)

end RConsole
