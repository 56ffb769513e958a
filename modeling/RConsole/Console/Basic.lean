import RConsole.Edit.Keymap
import RConsole.Engine.Basic
import RConsole.History
import RConsole.Prompt.Mode
import RConsole.Terminal.Basic

namespace RConsole

open Utf8 (Bytes)

structure Exit where
  status : Int
  acts : Nat
  notes : Nat
  files : Files
  deriving DecidableEq, Repr

structure Console where
  terminal : Terminal := {}
  desk : Desk := {}
  engine : Engine := {}
  queue : List Chunk := []
  keymap : Keymap := {}
  modes : ModeMachine := {}
  history : History := {}
  files : Files := {}
  stamp : Clock := ""
  settings : Option Settings := none
  loadSettings : Engine → Settings × Engine := fun e => ({}, e)
  loadBanner : Option (Engine → Option String × Engine) := none
  blankLine : Bool := true
  status : Option String := none
  exitStatus : Option Int := none
  exit : Option Exit := none

abbrev Keyed := Console × List Input

instance : HasDesk Console where
  desk := Console.desk
  withDesk d c := { c with desk := d }

instance : HasDesk Keyed where
  desk s := s.1.desk
  withDesk d s := ({ s.1 with desk := d }, s.2)

namespace Console

abbrev Printer := Chunk → Console → Console

def enqueue : Printer := fun chunk c => { c with queue := c.queue ++ [chunk] }

def perform (act : Act) (c : Console) : Console :=
  { c with terminal := c.terminal.perform act }

def withKeymap (keymap : Keymap) (c : Console) : Console := { c with keymap := keymap }

def note (n : Note) (c : Console) : Console := { c with engine := c.engine.note n }

def writeWith (print : Printer) (bytes : Bytes) (code : Int) (c : Console) : Console :=
  Desk.write (fun chunk c => (.returned (), print chunk c)) bytes code c

def tell (print : Printer) (text : String) (c : Console) : Console :=
  let c := print ⟨text, .out⟩ c
  if endsLine text then c else print ⟨"\n", .out⟩ c

def messageWith (print : Printer) (bytes : Bytes) (c : Console) : Console :=
  Desk.message (fun text c => (.returned (), c.tell print text)) bytes c

def strike : List Fault → Console → Except String Unit × Console
  | [], c => (.ok (), c)
  | f :: faults, c =>
    let c := match f.writes with
      | some (bytes, code) => c.writeWith enqueue bytes code
      | none => c
    match f.fails with
    | some message => (.error message, c)
    | none => strike faults c

def call (method : Method) (c : Console) : Except String Unit × Console :=
  strike (c.terminal.due method) { c with terminal := c.terminal.count method }

def act (method : Method) (act : Act) (c : Console) : Except String Unit × Console :=
  match c.call method with
  | (.ok (), c) => (.ok (), c.perform act)
  | (.error message, c) => (.error message, c)

def print : Printer := fun chunk c => (c.act .write (.wrote chunk)).2

def suspend (c : Console) : Except String Unit × Console :=
  match c.act .suspend .suspended with
  | (.ok (), c) => c.act .retake .retaken
  | (.error message, c) => (.error message, c)

def request (mode : Mode) (c : Console) : Console :=
  { c with modes := c.modes.request mode }

def finishSession (ending : Ending) (c : Console) : Console :=
  { c with exitStatus := some ending.status }

def exitWith (status : Int) (c : Console) : Exit :=
  ⟨status, c.terminal.acts.size, c.engine.notes.size, c.files⟩

def chain (hook : Hook) (ending : Ending) (c : Console) : Console :=
  match hook with
  | .console => c
  | .own =>
    let c := c.note (.ownCleanUp ending)
    -- A process that has ended goes on in the model, so only its first exit counts.
    if c.engine.traits.exits then { c with exit := c.exit.or (some (c.exitWith ending.status)) }
    else c

def cleanUp (ending : Ending) (c : Console) : Console :=
  Desk.cleanUp (fun e c => (.returned (), c.finishSession e)) chain ending c

/-- The callbacks while a prompt is up: output waits, and no further line can be read. What is given
here to answer a read never comes to it, since the read that shows the prompt is still on. -/
def atPrompt : Callbacks Console where
  hooks c := c.engine.hooks
  read := Desk.read fun _ c => (.returned none, c)
  write := writeWith enqueue
  message := messageWith enqueue
  cleanUp := cleanUp
  request := request
  enqueue := enqueue
  note := note

def eventStepWith {σ : Type} (cb : Callbacks σ) (engine : σ → Engine) (setEngine : Engine → σ → σ)
    (s : σ) : Bool × σ :=
  let number := (engine s).steps
  let (actions, e) := (engine s).nextEvent
  let (completed, s) := Action.runAll cb actions (setEngine e s)
  (completed, setEngine ((engine s).noteEvent number actions completed) s)

def setEngine (e : Engine) (c : Console) : Console := { c with engine := e }

def eventStep (c : Console) : Bool × Console := eventStepWith atPrompt Console.engine setEngine c

end Console

end RConsole
