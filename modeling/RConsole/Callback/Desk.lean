import RConsole.Terminal.Basic
import RConsole.Text.Utf8

/-!
The callbacks that R calls. Each one runs a closure of the host, and none of them runs a closure
that is already running: a second read gets no line, and text for a printer that is printing goes
straight to the stream. A closure that panics ends its own call only.
-/
namespace RConsole

open Utf8 (Bytes)

def payload (line : List Char) (size : Nat) : Bytes :=
  Utf8.encode (Utf8.fitting (size - 1) (line ++ ['\n']))

def lineBytes (line : List Char) (size : Nat) : Bytes :=
  if size = 0 then [] else payload line size ++ [0]

def encodeLine (line : List Char) (buffer : Bytes) : Nat × Bytes :=
  let written := lineBytes line buffer.length
  (written.length - 1, written ++ buffer.drop written.length)

inductive Reply where
  | untouched
  | wrote (bytes : Bytes)
  deriving DecidableEq, Repr

namespace Reply

def ofLine? (size : Nat) : Option String → Reply
  | some line => .wrote (lineBytes line.toList size)
  | none => .untouched

def status : Reply → Nat
  | untouched => 0
  | wrote _ => 1

def buffer (r : Reply) (before : Bytes) : Bytes :=
  match r with
  | untouched => before
  | wrote bytes => bytes ++ before.drop bytes.length

def line : Reply → Bytes
  | untouched => []
  | wrote bytes => bytes.takeWhile (· != 0)

end Reply

def cString (bytes : Bytes) : String := String.ofList (Utf8.decodeLossy (bytes.takeWhile (· != 0)))

inductive Slot where
  | read
  | write
  | cleanUp
  | message
  deriving DecidableEq, Repr

def Chunk.ofBytes (bytes : Bytes) (code : Int) : Chunk :=
  ⟨String.ofList (Utf8.decodeLossy bytes), Stream.ofCode code⟩

structure Running where
  read : Bool := false
  write : Bool := false
  cleanUp : Bool := false
  message : Bool := false
  deriving DecidableEq, Repr

namespace Running

def has (r : Running) : Slot → Bool
  | .read => r.read
  | .write => r.write
  | .cleanUp => r.cleanUp
  | .message => r.message

def set (r : Running) (slot : Slot) (value : Bool) : Running :=
  match slot with
  | .read => { r with read := value }
  | .write => { r with write := value }
  | .cleanUp => { r with cleanUp := value }
  | .message => { r with message := value }

end Running

inductive SaveAction where
  | noRestore
  | restore
  | default
  | noSave
  | save
  | saveAsk
  | suicide
  | unknown (code : Int)
  deriving DecidableEq, Repr

def SaveAction.ofCode (code : Int) : SaveAction :=
  if code = 0 then .noRestore
  else if code = 1 then .restore
  else if code = 2 then .default
  else if code = 3 then .noSave
  else if code = 4 then .save
  else if code = 5 then .saveAsk
  else if code = 6 then .suicide
  else .unknown code

structure Ending where
  save : Int
  status : Int
  runLast : Int
  deriving DecidableEq, Repr

inductive Ended (α : Type) where
  | returned (value : α)
  | panicked

inductive Hook where
  | console
  | own
  deriving DecidableEq, Repr

structure Desk where
  registered : List Slot := []
  running : Running := {}
  previous : Option Hook := none
  direct : Array Chunk := #[]
  deriving Repr

class HasDesk (σ : Type) where
  desk : σ → Desk
  withDesk : Desk → σ → σ

namespace Desk

variable {σ α : Type} [HasDesk σ]

def setRunning (slot : Slot) (value : Bool) (s : σ) : σ :=
  let d := HasDesk.desk s
  HasDesk.withDesk { d with running := d.running.set slot value } s

def writeDirect (chunk : Chunk) (s : σ) : σ :=
  let d := HasDesk.desk s
  HasDesk.withDesk { d with direct := d.direct.push chunk } s

/-- Runs the closure of `slot`, or `busy` if that closure is running. -/
def serve (slot : Slot) (busy closure : σ → α × σ) (s : σ) : α × σ :=
  if (HasDesk.desk s).running.has slot then busy s
  else
    let (a, s) := closure (setRunning slot true s)
    (a, setRunning slot false s)

def isRegistered (slot : Slot) (s : σ) : Bool := (HasDesk.desk s).registered.contains slot

def read (produce : String → σ → Ended (Option String) × σ) (hint : Bytes) (size : Int) (s : σ) :
    Reply × σ :=
  if !isRegistered .read s || size ≤ 0 then (.untouched, s)
  else serve .read (fun s => (.untouched, s)) (fun s =>
    match produce (cString hint) s with
    | (.returned line, s) => (.ofLine? size.toNat line, s)
    | (.panicked, s) => (.untouched, s)) s

def write (print : Chunk → σ → Ended Unit × σ) (bytes : Bytes) (code : Int) (s : σ) : σ :=
  if !isRegistered .write s || bytes.isEmpty then s
  else
    let chunk := Chunk.ofBytes bytes code
    (serve .write (fun s => ((), writeDirect chunk s)) (fun s => ((), (print chunk s).2)) s).2

def message (tell : String → σ → Ended Unit × σ) (bytes : Bytes) (s : σ) : σ :=
  if !isRegistered .message s then s
  else
    let text := cString bytes
    (serve .message (fun s => ((), writeDirect ⟨text, .out⟩ s)) (fun s => ((), (tell text s).2)) s).2

def cleanUp (handle : Ending → σ → Ended Unit × σ) (chain : Hook → Ending → σ → σ) (e : Ending)
    (s : σ) : σ :=
  if !isRegistered .cleanUp s then s
  else
    match serve .cleanUp (fun s => (Ended.returned (), s)) (handle e) s with
    | (.returned (), s) =>
      match (HasDesk.desk s).previous with
      | some hook => chain hook e s
      | none => s
    | (.panicked, s) => s

end Desk

structure Hooks where
  read : Option Hook := none
  write : Option Hook := none
  writeEx : Option Hook := none
  cleanUp : Option Hook := none
  message : Option Hook := none
  deriving DecidableEq, Repr

def Desk.bind (d : Desk) (h : Hooks) : Desk × Hooks :=
  let has := d.registered.contains
  ({ d with previous := if has .cleanUp then h.cleanUp else d.previous },
    { read := if has .read then some .console else h.read
      write := if has .write then none else h.write
      writeEx := if has .write then some .console else h.writeEx
      cleanUp := if has .cleanUp then some .console else h.cleanUp
      message := if has .message then some .console else h.message })

end RConsole
