import RConsole.Edit.Key
import RConsole.Screen.Layout
import RConsole.Text.Utf8

namespace RConsole

inductive Stream where
  | out
  | err
  deriving DecidableEq, Repr

def Stream.ofCode (code : Int) : Stream := if code = 0 then .out else .err

structure Chunk where
  text : String
  stream : Stream
  deriving DecidableEq, Repr

def endsLine (text : String) : Bool := text.toList.getLast? = some '\n'

inductive Method where
  | enter
  | leave
  | render
  | finish
  | clear
  | suspend
  | retake
  | ready
  | readKey
  | write
  | interleave
  deriving DecidableEq, Repr

/-- What goes wrong at one call: R may write while the call is made, and the call may fail. -/
structure Fault where
  method : Method
  nth : Nat
  writes : Option (Utf8.Bytes × Int) := none
  fails : Option String := none
  deriving DecidableEq, Repr

inductive Act where
  /-- Input is about to be asked for, while `waiting` is still to be printed. -/
  | asked (waiting : List Chunk)
  | keyed (key : Option Key)
  | entered
  | left
  | rendered (frame : Frame)
  | finished (frame : Frame)
  | cleared
  | suspended
  | retaken
  | checked
  | wrote (chunk : Chunk)
  | interleaved (chunk : Chunk) (frame : Frame)
  deriving DecidableEq, Repr

namespace Act

def chunk? : Act → Option Chunk
  | wrote c => some c
  | interleaved c _ => some c
  | _ => none

def rendered? : Act → Option Frame
  | rendered f => some f
  | _ => none

def finished? : Act → Option Frame
  | finished f => some f
  | _ => none

end Act

structure Made where
  method : Method
  acts : Nat
  deriving DecidableEq, Repr

structure Terminal where
  faults : List Fault := []
  made : List Made := []
  raw : Bool := false
  acts : Array Act := #[]

namespace Terminal

def rawAfter (raw : Bool) : Act → Bool
  | .entered => true
  | .retaken => true
  | .left => false
  | .suspended => false
  | _ => raw

/-- A terminal proper, or one that replays a script and takes no notice of being suspended. -/
inductive Kind where
  | tty
  | scripted
  deriving DecidableEq, Repr

def Kind.after : Kind → Bool → Act → Bool
  | tty, raw, act => rawAfter raw act
  | scripted, _, .entered => true
  | scripted, _, .left => false
  | scripted, raw, _ => raw

def Kind.raw (k : Kind) (acts : List Act) : Bool := acts.foldl k.after false

def perform (t : Terminal) (act : Act) : Terminal :=
  { t with raw := rawAfter t.raw act, acts := t.acts.push act }

def calls (t : Terminal) : List Method := t.made.map Made.method

def due (t : Terminal) (method : Method) : List Fault :=
  t.faults.filter fun f => f.method = method && f.nth = t.calls.count method

def count (t : Terminal) (method : Method) : Terminal :=
  { t with made := ⟨method, t.acts.size⟩ :: t.made }

end Terminal

inductive TerminalError where
  | failed (message : String)
  | inputClosed
  deriving DecidableEq, Repr

def TerminalError.message : TerminalError → String
  | .failed message => "terminal I/O error: " ++ message
  | .inputClosed => "terminal input closed"

end RConsole
