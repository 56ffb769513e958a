import RConsole.Config.Schema
import RConsole.Engine.Discovery
import RConsole.Logging.Filter
import RConsole.Store.Files

namespace RConsole.Logging

inductive LogError where
  | alreadyInitialized
  | invalidLevel (level : String)
  | splitCharacter
  | fileCreate (cause : FileError)
  deriving DecidableEq, Repr

namespace LogError

def message : LogError → String
  | alreadyInitialized => "logging already initialized"
  | invalidLevel level => "invalid log level: " ++ level
  | splitCharacter => "a part of the log filter starts or ends inside a character"
  | fileCreate cause => "failed to create log file: " ++ cause.message

def cause? : LogError → Option String
  | fileCreate cause => some cause.message
  | _ => none

end LogError

def filterOf (level : String) : Except LogError Filter :=
  match Filter.parse level.toList with
  | .ok f => .ok f
  | .error .malformed => .error (.invalidLevel level)
  | .error .splitCharacter => .error .splitCharacter

def buildFilter (level : String) (e : Environment) : Except LogError Filter :=
  match (e.get? "RUST_LOG").map fun text => Filter.parse text.toList with
  | some (.ok f) => .ok f
  | some (.error .splitCharacter) => .error .splitCharacter
  | _ => filterOf level

def privateFile : Nat := 0o600

def privateDirectory : Nat := 0o700

def makeParent (files : Files) (path : Path) : Except FileError Files :=
  match path.parent? with
  | none => .ok files
  | some parent =>
    if parent = "" then .ok files
    else do
      let made ← files.makeDirectory parent
      return if files.contains parent then made else made.setMode parent privateDirectory

def openFile (files : Files) (path : Path) : Except FileError Files := do
  let made ← files.append path []
  return if files.contains path then made else made.setMode path privateFile

def makeFile (files : Files) (path : Path) : Except FileError Unit × Files :=
  match makeParent files path with
  | .error cause => (.error cause, files)
  | .ok files =>
    match openFile files path with
    | .error cause => (.error cause, files)
    | .ok made => (.ok (), made)

def opening (level : String) : String := "logging initialized level=" ++ level ++ "\n"

def tellsOpening (f : Filter) : Bool :=
  f.passes .debug "rhost::logging".toList ["message".toList, "level".toList, "file".toList]

structure Log where
  initialized : Bool := false
  deriving DecidableEq, Repr

namespace Log

def setUp (config : LogConfig) (e : Environment) (files : Files) (log : Log) :
    Except LogError Unit × Files × Log :=
  if log.initialized then (.error .alreadyInitialized, files, log)
  else match buildFilter config.level e with
    | .error error => (.error error, files, log)
    | .ok f =>
      match config.file with
      | none => (.ok (), files, ⟨true⟩)
      | some path =>
        match makeFile files path with
        | (.error cause, files) => (.error (.fileCreate cause), files, log)
        | (.ok (), made) =>
          let told :=
            if tellsOpening f then made.append path (Utf8.encode (opening config.level).toList)
            else .ok made
          match told with
          | .ok files => (.ok (), files, ⟨true⟩)
          | .error _ => (.ok (), made, ⟨true⟩)

end Log

end RConsole.Logging
