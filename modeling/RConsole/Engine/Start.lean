import RConsole.Engine.Action
import RConsole.Engine.Discovery
import RConsole.Engine.Error

/-!
Starting R. A start is a row of steps, each of which may fail; only the last one calls R, and a
process has one such call to spend. Threads may take their steps in any order.
-/
namespace RConsole

structure StartOptions where
  root : Option Path := none
  programName : String := "rhost"
  deriving DecidableEq, Repr

def startArguments (programName : String) : List String := [programName, "--no-save", "--quiet"]

structure Library where
  path : Path
  omitted : List String := []
  initResult : Int := 0
  deriving DecidableEq, Repr

namespace Library

def exports (l : Library) (name : String) : Bool := !l.omitted.contains name

def required : List String :=
  ["ptr_R_ReadConsole", "ptr_R_WriteConsole", "ptr_R_WriteConsoleEx", "ptr_R_CleanUp",
    "ptr_R_ShowMessage", "Rf_initialize_R", "Rf_mainloop", "R_running_as_main_program",
    "R_ProcessEvents", "R_ToplevelExec", "R_tryEvalSilent", "R_GlobalEnv", "Rf_ScalarInteger",
    "INTEGER", "REAL", "Rf_protect", "Rf_unprotect", "Rf_install", "Rf_GetOption1", "TYPEOF",
    "Rf_length", "STRING_ELT", "R_CHAR", "R_NilValue"]

def resolve (l : Library) : Except InitError Unit :=
  match required.find? fun name => !l.exports name with
  | some name => .error (.missingSymbol name)
  | none => .ok ()

def openAt (known : List (Place × Library)) (files : Files) (path : Path) : Except String Library :=
  if '\x00' ∈ path.toList then .error "path contains a NUL byte"
  else match files.place path with
    | .error e => .error (path ++ ": " ++ e.message)
    | .ok place =>
      match known.find? fun l => l.1 = place with
      | some l => .ok l.2
      | none => .error (path ++ ": not a shared library")

end Library

structure Host where
  platform : Platform := .linux
  files : Files := {}
  command : CommandRun := .notRun .missing
  load : Path → Except String Library

structure Shared where
  environment : Environment := []
  claimed : Bool := false
  notes : List Note := []
  deriving DecidableEq, Repr

inductive Attempt where
  | fresh (options : StartOptions)
  | located (options : StartOptions) (found : Installation)
  | admitted (options : StartOptions) (found : Installation)
  | exported (options : StartOptions) (found : Installation)
  | opened (options : StartOptions) (library : Library)
  | resolved (options : StartOptions) (library : Library)
  | worded (arguments : List String) (library : Library)
  | claimed (arguments : List String) (library : Library)
  | done (result : Except RuntimeError Library)

namespace Attempt

def checkArguments (arguments : List String) : Except InitError Unit :=
  match arguments.find? fun a => '\x00' ∈ a.toList with
  | some a => .error (.invalidArgument a)
  | none => .ok ()

def greeting (arguments : List String) (environment : Environment) : List Note :=
  arguments.map Note.argument ++
    ["R_HOME", "R_DOC_DIR", "R_INCLUDE_DIR", "R_SHARE_DIR"].map
      (fun name => Note.exported name ((environment.get? name).getD "")) ++ [.mainProgram]

def fail (e : RuntimeError) (s : Shared) : Attempt × Shared := (.done (.error e), s)

def step (h : Host) : Attempt → Shared → Attempt × Shared
  | fresh o, s =>
    match h.platform.requireLoading with
    | .error e => fail e s
    | .ok () =>
      match Installation.locate h.files h.platform h.command o.root s.environment with
      | .error e => fail (.discovery e) s
      | .ok found => (located o found, s)
  | located o found, s =>
    if s.claimed then fail (.init .alreadyInitialized) s else (admitted o found, s)
  -- What is exported here stays, also where a later step fails.
  | admitted o found, s =>
    (exported o found,
      { s with environment := s.environment.setAll (Installation.environment found.root) })
  | exported o found, s =>
    match h.load found.library with
    | .error reason => fail (.init (.loadFailed found.library reason)) s
    | .ok library => (opened o library, s)
  | opened o library, s =>
    match library.resolve with
    | .error e => fail (.init e) s
    | .ok () => (resolved o library, s)
  | resolved o library, s =>
    match checkArguments (startArguments o.programName) with
    | .error e => fail (.init e) s
    | .ok () => (worded (startArguments o.programName) library, s)
  -- Since the first look at the flag another thread may have come before.
  | worded arguments library, s =>
    if s.claimed then fail (.init .alreadyInitialized) s
    else (.claimed arguments library, { s with claimed := true })
  | .claimed arguments library, s =>
    (done (if library.initResult = 0 then .ok library
        else .error (.init (.initFailed library.initResult))),
      { s with notes := s.notes ++ greeting arguments s.environment })
  | done result, s => (done result, s)

def left : Attempt → Nat
  | fresh _ => 8
  | located _ _ => 7
  | admitted _ _ => 6
  | exported _ _ => 5
  | opened _ _ => 4
  | resolved _ _ => 3
  | worded _ _ => 2
  | claimed _ _ => 1
  | done _ => 0

def steps (h : Host) : Nat → Attempt → Shared → Attempt × Shared
  | 0, a, s => (a, s)
  | n + 1, a, s => let (a, s) := a.step h s; steps h n a s

end Attempt

def Host.start (h : Host) (options : StartOptions) (s : Shared) :
    Except RuntimeError Library × Shared :=
  let first := Attempt.fresh options
  match Attempt.steps h first.left first s with
  | (.done result, s) => (result, s)
  | (_, s) => (.error (.init .alreadyInitialized), s)

structure Runs where
  running : Bool := false
  installed : List Nat := []
  deriving DecidableEq, Repr

namespace Runs

def install (thread : Nat) (r : Runs) : Except RuntimeError Unit × Runs :=
  if r.installed.contains thread then (.error .registryInstalled, r)
  else (.ok (), { r with installed := thread :: r.installed })

def enter (platform : Platform) (thread : Nat) (r : Runs) : Except RuntimeError Unit × Runs :=
  match platform.requireHooks with
  | .error e => (.error e, r)
  | .ok () =>
    if r.running then (.error .alreadyRunning, r)
    else { r with running := true }.install thread

end Runs

end RConsole
