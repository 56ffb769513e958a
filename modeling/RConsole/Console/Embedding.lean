import RConsole.Console.Session
import RConsole.Engine.Start

namespace RConsole

structure Embedding where
  host : Host
  shared : Shared := {}
  runs : Runs := {}
  started : Bool := false
  console : Console := {}
  keys : List Input := []

namespace Embedding

def ownHooks : Hooks := { write := some .own, cleanUp := some .own }

def thread : Nat := 0

def noteAll (notes : List Note) (c : Console) : Console := notes.foldl (fun c n => c.note n) c

def start (options : StartOptions) (p : Embedding) : Except RuntimeError Unit × Embedding :=
  match p.host.start options { p.shared with notes := [] } with
  | (.ok _, shared) =>
    (.ok (), { p with shared := shared, started := true, console := noteAll shared.notes p.console })
  | (.error e, shared) =>
    (.error e, { p with shared := shared, console := noteAll shared.notes p.console })

def install (p : Embedding) : Except RuntimeError Unit × Embedding :=
  let (result, runs) := p.runs.install thread
  (result, { p with runs := runs })

def ask {α : Type} (f : Engine → α × Engine) (p : Embedding) : α × Embedding :=
  let (a, e) := f p.console.engine
  (a, { p with console := p.console.setEngine e })

def lookUp {α : Type} (f : Engine → α) (p : Embedding) : Except RuntimeError α × Embedding :=
  p.ask fun e =>
    match e.offset with
    | (.ok _, e) => (.ok (f e), e)
    | (.error error, e) => (.error error, e)

def offset (p : Embedding) : Except RuntimeError Int × Embedding := p.ask Engine.offset

def option (name : String) (p : Embedding) : Except RuntimeError (Option OptionValue) × Embedding :=
  p.lookUp fun e => e.option name

def global? (name : String) (p : Embedding) : Except RuntimeError (Option OptionValue) × Embedding :=
  p.lookUp fun e => e.global? name

def settings (base : Settings) (p : Embedding) : Except RuntimeError Settings × Embedding :=
  p.lookUp fun e => base.override e.option

def version (p : Embedding) : Option String × Embedding := p.ask Engine.version

def event (p : Embedding) : Bool × Embedding :=
  let (completed, console, keys) := Console.idleStep (p.console, p.keys)
  (completed, { p with console := console, keys := keys })

def run (prepare : Console → Console) (actions : List Action) (p : Embedding) :
    Except RuntimeError Unit × Embedding :=
  match p.runs.enter p.host.platform thread with
  | (.error e, runs) => (.error e, { p with runs := runs })
  | (.ok (), runs) =>
    let c := prepare p.console
    let c := { c with desk := { c.desk with registered := Console.slots } }
    let (console, keys) := Console.run actions (c, p.keys)
    (.ok (), { p with runs := runs, console := console, keys := keys })

end Embedding

end RConsole
