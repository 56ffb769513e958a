import RConsole.Text.Path
import RConsole.Text.Utf8

/-!
Files in a tree of directories. A place is the list of names that lead to it from the root; a path
is walked from there or from the working directory, and every name on the way must be a directory.
-/
namespace RConsole

open Utf8 (Bytes)

abbrev Place := List (List Char)

inductive Node where
  | file (mode : Nat) (content : Bytes)
  | directory (mode : Nat)
  | sink (mode : Nat)
  deriving DecidableEq, Repr

namespace Node

def mode : Node → Nat
  | file mode _ => mode
  | directory mode => mode
  | sink mode => mode

def withMode (mode : Nat) : Node → Node
  | file _ content => file mode content
  | directory _ => directory mode
  | sink _ => sink mode

end Node

inductive FileError where
  | missing
  | occupied
  | notDirectory
  | isDirectory
  | notText
  | zeroInName
  | longName
  deriving DecidableEq, Repr

def FileError.message : FileError → String
  | .missing => "No such file or directory (os error 2)"
  | .occupied => "File exists (os error 17)"
  | .notDirectory => "Not a directory (os error 20)"
  | .isDirectory => "Is a directory (os error 21)"
  | .notText => "stream did not contain valid UTF-8"
  | .zeroInName => "file name contained an unexpected NUL byte"
  | .longName => "File name too long (os error 36)"

structure Files where
  here : Place := []
  nodes : List (Place × Node) := []
  deriving DecidableEq, Repr

namespace Files

def directoryMode : Nat := 0o755

def fileMode : Nat := 0o644

def nameLimit : Nat := 255

def pathLimit : Nat := 4095

def node? (f : Files) (spot : Place) : Option Node :=
  if spot = [] then some (.directory directoryMode)
  else (f.nodes.find? fun n => n.1 = spot).map Prod.snd

def put (f : Files) (spot : Place) (n : Node) : Files :=
  { f with nodes := (spot, n) :: f.nodes.filter fun m => m.1 ≠ spot }

def isDirectoryAt (f : Files) (spot : Place) : Bool :=
  match f.node? spot with
  | some (.directory _) => true
  | _ => false

def enter (f : Files) (spot : Place) : Component → Except FileError Place
  | .root => .ok []
  | .here => .ok spot
  | step =>
    match f.node? spot with
    | none => .error .missing
    | some (.directory _) =>
      match step with
      | .name n =>
        if (Utf8.encode n).length ≤ nameLimit then .ok (spot ++ [n]) else .error .longName
      | _ => .ok spot.dropLast
    | some _ => .error .notDirectory

def saysDirectory (p : Path) : Bool :=
  match (Path.segments p.toList).getLast? with
  | some s => Path.isIdle s
  | none => false

def place (f : Files) (p : Path) : Except FileError Place :=
  if '\x00' ∈ p.toList then .error .zeroInName
  else if p = "" then .error .missing
  else if pathLimit < (Utf8.encode p.toList).length then .error .longName
  else (Path.components p).foldlM f.enter f.here

def find (f : Files) (p : Path) : Except FileError (Place × Node) := do
  let spot ← f.place p
  match f.node? spot with
  | none => .error .missing
  | some (.directory mode) => .ok (spot, .directory mode)
  | some n => if saysDirectory p then .error .notDirectory else .ok (spot, n)

def contains (f : Files) (p : Path) : Bool :=
  match f.find p with
  | .ok _ => true
  | .error _ => false

def isDirectory (f : Files) (p : Path) : Bool :=
  match f.find p with
  | .ok (_, .directory _) => true
  | _ => false

def mode? (f : Files) (p : Path) : Option Nat := (f.find p).toOption.map fun n => n.2.mode

def read (f : Files) (p : Path) : Except FileError Bytes := do
  match ← f.find p with
  | (_, .file _ content) => .ok content
  | (_, .directory _) => .error .isDirectory
  | (_, .sink _) => .ok []

def readText (f : Files) (p : Path) : Except FileError String := do
  match Utf8.decode? (← f.read p) with
  | some cs => .ok (String.ofList cs)
  | none => .error .notText

def endsInDot (p : Path) : Bool :=
  (Path.segments p.toList).reverse.find? (· ≠ []) = some ['.']

def appended (bytes : Bytes) : Node → Node
  | .file mode content => .file mode (content ++ bytes)
  | n => n

def append (f : Files) (p : Path) (bytes : Bytes) : Except FileError Files := do
  let spot ← f.place p
  match f.node? spot with
  | some (.directory _) => .error .isDirectory
  | some n =>
    if endsInDot p then .error .notDirectory
    else if saysDirectory p then .error .isDirectory
    else .ok (f.put spot (appended bytes n))
  | none =>
    if endsInDot p then .error .missing
    else if saysDirectory p then .error .isDirectory
    else if f.isDirectoryAt spot.dropLast then .ok (f.put spot (.file fileMode bytes))
    else .error .missing

def setMode (f : Files) (p : Path) (mode : Nat) : Files :=
  match f.find p with
  | .ok (spot, n) => f.put spot (n.withMode mode)
  | .error _ => f

def makeDirectories (f : Files) (spot : Place) : List Component → Except FileError Files
  | [] =>
    match f.node? spot with
    | some (.directory _) => .ok f
    | some _ => .error .occupied
    | none => .error .missing
  | step :: steps => do
    let spot ← f.enter spot step
    if f.node? spot = none then (f.put spot (.directory directoryMode)).makeDirectories spot steps
    else f.makeDirectories spot steps

def makeDirectory (f : Files) (p : Path) : Except FileError Files :=
  if '\x00' ∈ p.toList then .error .zeroInName
  else if pathLimit < (Utf8.encode p.toList).length then .error .longName
  else f.makeDirectories f.here (Path.components p)

def workIn (f : Files) (p : Path) : Except FileError Files := do
  let f ← f.makeDirectory p
  return { f with here := ← f.place p }

def appendDeep (f : Files) (p : Path) (bytes : Bytes) : Except FileError Files := do
  let f ← match Path.parent? p with
    | some "" => pure f
    | some directory => f.makeDirectory directory
    | none => pure f
  f.append p bytes

def usualDirectories : List (Path × Nat) :=
  ["/bin", "/boot", "/dev", "/etc", "/home", "/lib", "/media", "/mnt", "/opt", "/run", "/sbin",
    "/srv", "/sys", "/usr", "/usr/bin", "/usr/lib", "/usr/local", "/usr/share", "/var", "/var/lib",
    "/var/log", "/var/tmp"].map (·, directoryMode) ++
  [("/proc", 0o555), ("/root", 0o700), ("/tmp", 0o777)]

def system : Files where
  nodes := (named "/dev/null", .sink 0o666) ::
    usualDirectories.map fun d => (named d.1, .directory d.2)
where
  named (p : Path) : Place := (Path.segments p.toList).drop 1

end Files

end RConsole
