import RConsole.Store.Files
import RConsole.Text.Pieces

/-!
The entries that were submitted, in memory and in a file. In the file an entry is a header line
with the time and then its own lines, each after a plus sign.
-/
namespace RConsole

namespace HistoryFile

def record (entry stamp : List Char) : List Char :=
  '\n' :: '#' :: ' ' :: stamp ++
    '\n' :: (splitLines entry).flatMap fun line => '+' :: line ++ ['\n']

def gather (held : List (List Char)) : List (List Char) → List (List Char)
  | [] => if held = [] then [] else [joinLines held]
  | ('+' :: line) :: lines => gather (held ++ [line]) lines
  | _ :: lines => if held = [] then gather [] lines else joinLines held :: gather [] lines

def entries (text : List Char) : List (List Char) := gather [] (fileLines text)

end HistoryFile

inductive HistoryError where
  | read (path : Path) (cause : FileError)
  | write (path : Path) (cause : FileError)
  deriving DecidableEq, Repr

def HistoryError.message : HistoryError → String
  | .read path cause => "failed to read history " ++ path ++ ": " ++ cause.message
  | .write path cause => "failed to write history " ++ path ++ ": " ++ cause.message

structure History where
  path : Option Path := none
  entries : List String := []
  deriving DecidableEq, Repr

/-- The times of the entries: each is marked with the one after as many entries as were there. -/
structure Clock where
  after : Nat → String

/-- A clock that stands still. -/
instance : Coe String Clock := ⟨fun stamp => ⟨fun _ => stamp⟩⟩

namespace History

def load (files : Files) (path : Path) : Except HistoryError History :=
  match files.readText path with
  | .ok text => .ok ⟨some path, (HistoryFile.entries text.toList).map String.ofList⟩
  | .error .missing => .ok ⟨some path, []⟩
  | .error cause => .error (.read path cause)

def loadOrForget (files : Files) (path : Option Path) : History :=
  match path.map (load files) with
  | some (.ok h) => h
  | _ => {}

def skips (h : History) (entry : String) : Bool :=
  trim entry.toList = [] || h.entries.getLast? = some entry

def push (h : History) (entry : String) : History := { h with entries := h.entries ++ [entry] }

/-- Adds an entry, first in memory and then to the file through `write`. -/
def appendWith {σ : Type} (write : Path → List Char → σ → Except FileError Unit × σ) (stamp : String)
    (h : History) (entry : String) (s : σ) : Except HistoryError Unit × History × σ :=
  if h.skips entry then (.ok (), h, s)
  else match h.path with
    | none => (.ok (), h.push entry, s)
    | some path =>
      match write path (HistoryFile.record entry.toList stamp.toList) s with
      | (.ok (), s) => (.ok (), h.push entry, s)
      | (.error cause, s) => (.error (.write path cause), h.push entry, s)

def writeFile (path : Path) (text : List Char) (files : Files) : Except FileError Unit × Files :=
  match files.append path (Utf8.encode text) with
  | .ok files => (.ok (), files)
  | .error cause => (.error cause, files)

def append (stamp : String) (h : History) (entry : String) (files : Files) :
    Except HistoryError Unit × History × Files :=
  h.appendWith writeFile stamp entry files

end History

end RConsole
