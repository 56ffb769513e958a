import RConsole.Console.Cycle

namespace RConsole.Console

open Utf8 (Bytes)

def banner (c : Console) : Console :=
  match c.loadBanner with
  | none => c
  | some load =>
    let (text, engine) := load c.engine
    let c := { c with loadBanner := none, engine := engine }
    match text with
    | some text => c.tell print text
    | none => c

def lead (c : Console) : Console :=
  let c := c.ensureSettings.2.banner
  if c.blankLine then c.print ⟨"\n", .out⟩ else c

def nextLine (hint : String) (s : Keyed) : Option String × Keyed :=
  cycles.line hint (s.1.lead, s.2)

def read (hint : Bytes) (size : Int) (s : Keyed) : Reply × Keyed :=
  Desk.read (fun hint s => let (line, s) := nextLine hint s; (.returned line, s)) hint size s

def onConsole (f : Console → Console) (s : Keyed) : Keyed := (f s.1, s.2)

def between : Callbacks Keyed where
  hooks s := s.1.engine.hooks
  read := read
  write bytes code := onConsole (writeWith print bytes code)
  message bytes := onConsole (messageWith print bytes)
  cleanUp ending := onConsole (cleanUp ending)
  request mode := onConsole (request mode)
  enqueue chunk := onConsole (enqueue chunk)
  note n := onConsole (note n)

def idleStep (s : Keyed) : Bool × Keyed :=
  eventStepWith between (fun s => s.1.engine) (fun e => onConsole (setEngine e)) s

def bind (c : Console) : Console :=
  let (desk, hooks) := c.desk.bind c.engine.hooks
  { c with desk := desk, engine := { c.engine with hooks := hooks } }

def slots : List Slot := [.read, .write, .cleanUp, .message]

def runActions : List Action → Keyed → Keyed
  | [], s => onConsole (note .mainLoopEnd) s
  | a :: rest, s =>
    let (goesOn, s) := a.run between s
    if s.1.exit.isSome then s
    else if goesOn then runActions rest s
    else onConsole (note .mainLoopEnd) s

def run (actions : List Action) (s : Keyed) : Keyed :=
  let c := s.1.bind
  let entered : Note :=
    .mainLoop (c.engine.hooks.write = none) (c.engine.exports "R_Outputfile")
      (c.engine.exports "R_Consolefile")
  runActions actions (c.note entered, s.2)

end RConsole.Console
