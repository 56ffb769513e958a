import RConsole.Callback.Desk
import RConsole.Prompt.Mode
import RConsole.Text.Utf8

namespace RConsole

inductive Note where
  | settingsLoaded
  | bannerLoaded
  | argument (text : String)
  | exported (name value : String)
  | mainProgram
  | protectBalance (count : Int)
  | mainLoop (write output console : Bool)
  | mainLoopEnd
  | answered (reply : Reply)
  | ownCleanUp (ending : Ending)
  | event (number : Nat) (completed : Bool)
  | activityChecked
  | handlersRun
  | unbound (action : String)
  deriving DecidableEq, Repr

namespace Note

def flag (b : Bool) : String := if b then "1" else "0"

def text : Note → String
  | settingsLoaded => "settings loaded"
  | bannerLoaded => "banner loaded"
  | argument text => "argv " ++ text
  | exported name value => name ++ "=" ++ value
  | mainProgram => "main_program 1"
  | protectBalance count => "protect_balance " ++ toString count
  | mainLoop write output console =>
    "mainloop write_console_cleared=" ++ flag write ++ " outputfile_cleared=" ++ flag output ++
      " consolefile_cleared=" ++ flag console
  | mainLoopEnd => "mainloop end"
  | answered reply => "read " ++ Hex.ofBytes reply.line ++ " -> " ++ toString reply.status
  | ownCleanUp e =>
    "default_clean_up " ++ toString e.save ++ " " ++ toString e.status ++ " " ++ toString e.runLast
  | event number completed => "event " ++ toString number ++ if completed then "" else " error"
  | activityChecked => "check_activity 0 1"
  | handlersRun => "run_handlers 1 1"
  | unbound action => action ++ " unbound"

end Note

open Utf8 (Bytes)

inductive Action where
  | write (bytes : Bytes) (code : Int)
  | message (bytes : Bytes)
  | read (hint : Bytes) (size : Int)
  | cleanUp (ending : Ending)
  | request (mode : Mode)
  | enqueue (chunk : Chunk)
  | fail
  deriving DecidableEq, Repr

structure Callbacks (σ : Type) where
  hooks : σ → Hooks
  read : Bytes → Int → σ → Reply × σ
  write : Bytes → Int → σ → σ
  message : Bytes → σ → σ
  cleanUp : Ending → σ → σ
  request : Mode → σ → σ
  enqueue : Chunk → σ → σ
  note : Note → σ → σ

namespace Action

variable {σ : Type}

def through (cb : Callbacks σ) (name : String) (hook : Hooks → Option Hook) (call : σ → σ) (s : σ) :
    σ :=
  if hook (cb.hooks s) = some .console then call s else cb.note (.unbound name) s

def run (cb : Callbacks σ) : Action → σ → Bool × σ
  | .write bytes code, s => (true, through cb "write" Hooks.writeEx (cb.write bytes code) s)
  | .message bytes, s => (true, through cb "message" Hooks.message (cb.message bytes) s)
  | .read hint size, s =>
    (true, through cb "read" Hooks.read
      (fun s => let (reply, s) := cb.read hint size s; cb.note (.answered reply) s) s)
  | .cleanUp ending, s => (true, through cb "clean_up" Hooks.cleanUp (cb.cleanUp ending) s)
  | .request mode, s => (true, cb.request mode s)
  | .enqueue chunk, s => (true, cb.enqueue chunk s)
  | .fail, s => (false, s)

def runAll (cb : Callbacks σ) : List Action → σ → Bool × σ
  | [], s => (true, s)
  | a :: rest, s =>
    match a.run cb s with
    | (true, s) => runAll cb rest s
    | (false, s) => (false, s)

end Action

end RConsole
