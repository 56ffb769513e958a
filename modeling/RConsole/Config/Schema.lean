import RConsole.Config.Fault
import RConsole.Engine.Discovery
import RConsole.Settings
import RConsole.Store.Files
import RConsole.Text.Path
import RConsole.Text.Quoted

/-!
The configuration: three sections of named fields. A section may also be a list of its fields in
order. Unknown names are ignored, and what is not given keeps its default.
-/
namespace RConsole

structure ConsoleConfig where
  settings : Settings := {}
  pollMilliseconds : Nat := 33
  historyFile : Option Path := none
  blankLine : Bool := true
  deriving DecidableEq, Repr

structure RuntimeConfig where
  root : Option Path := none
  programName : String := "rhost"
  deriving DecidableEq, Repr

structure LogConfig where
  level : String := "warn"
  file : Option Path := none
  deriving DecidableEq, Repr

structure Config where
  console : ConsoleConfig := {}
  runtime : RuntimeConfig := {}
  log : LogConfig := {}
  deriving DecidableEq, Repr

namespace Config

open Toml (Item Entries)

def found : Item → String
  | .text _ cs => "string " ++ String.ofList (quote cs)
  | .integer _ n => "integer `" ++ toString n ++ "`"
  | .real _ bits => "floating point `" ++ String.ofList (Real.text bits) ++ "`"
  | .boolean _ true => "boolean `true`"
  | .boolean _ false => "boolean `false`"
  | .date _ => "map"
  | .array _ _ => "sequence"
  | .table _ _ _ => "map"
  | .tables _ => "sequence"

def wrongKind {α : Type} (item : Item) (wanted : String) : Except Fault α :=
  .error ⟨.wrongKind (found item) wanted, item.span?⟩

def text (wanted : String) : Item → Except Fault String
  | .text _ cs => .ok (String.ofList cs)
  | item => wrongKind item wanted

def string : Item → Except Fault String := text "a string"

def path (item : Item) : Except Fault (Option Path) := some <$> text "path string" item

def boolean : Item → Except Fault Bool
  | .boolean _ b => .ok b
  | item => wrongKind item "a boolean"

def natural : Item → Except Fault Nat
  | .integer span n => if n < 0 then .error ⟨.negative n, span⟩ else .ok n.toNat
  | item => wrongKind item "u64"

def variant (name : String) (span : Toml.Span) : Except Fault EditingMode :=
  if name = "emacs" then .ok .emacs
  else if name = "vi" ∨ name = "vim" then .ok .vi
  else .error ⟨.unknownVariant name, span⟩

def payloadFault? : Item → Option String
  | .table _ _ [] => none
  | .table _ _ _ => some "expected empty table"
  | .array _ [] => none
  | .array _ _ => some "expected empty table"
  | .tables [] => none
  | .tables _ => some "expected empty array"
  | .text _ _ => some "expected table, found string"
  | .integer _ _ => some "expected table, found integer"
  | .real _ _ => some "expected table, found float"
  | .boolean _ _ => some "expected table, found boolean"
  | .date _ => some "expected table, found datetime"

def editingMode (item : Item) : Except Fault EditingMode :=
  blame item.span? <| match item with
  | .text span cs => variant (String.ofList cs) span
  | .table _ _ [] => .error ⟨.variantCount false, none⟩
  | .table _ _ [(key, inner)] => do
    let mode ← variant (String.ofList key.name) key.span
    match payloadFault? inner with
    | none => return mode
    | some message => .error ⟨.variantPayload message, inner.span?⟩
  | .table _ _ _ => .error ⟨.variantCount true, none⟩
  | _ => .error ⟨.notVariant, none⟩

abbrev Field (α : Type) := String × (Item → α → Except Fault α)

def setNamed {α : Type} (fields : List (Field α)) (base : α) (entries : Entries) :
    Except Fault α :=
  entries.foldlM (fun a entry =>
    match fields.find? fun f => f.1.toList = entry.1.name with
    | some f => blame entry.1.span (f.2 entry.2 a)
    | none => .ok a) base

def setInOrder {α : Type} : List (Field α) → List Item → α → Except Fault α
  | f :: fields, item :: items, a => do setInOrder fields items (← f.2 item a)
  | _, _, a => .ok a

def part {α : Type} (name : String) (fields : List (Field α)) (base : α) :
    Item → Except Fault α
  | .table _ _ entries => setNamed fields base entries
  | .date _ => .ok base
  | .array _ items => setInOrder fields items base
  | .tables rows => setInOrder fields (rows.map fun row => .table .header row.1 row.2) base
  | item => wrongKind item ("struct " ++ name)

def consoleFields : List (Field ConsoleConfig) := [
  ("color_scheme", fun i c => do
    return { c with settings := { c.settings with colorScheme := ← string i } }),
  ("editing_mode", fun i c => do
    return { c with settings := { c.settings with editingMode := ← editingMode i } }),
  ("show_statusbar", fun i c => do
    return { c with settings := { c.settings with statusBar := ← boolean i } }),
  ("poll_interval_ms", fun i c => do return { c with pollMilliseconds := ← natural i }),
  ("history_file", fun i c => do return { c with historyFile := ← path i }),
  ("blank_line_before_prompt", fun i c => do return { c with blankLine := ← boolean i })]

def runtimeFields : List (Field RuntimeConfig) := [
  ("r_home", fun i c => do return { c with root := ← path i }),
  ("program_name", fun i c => do return { c with programName := ← string i })]

def logFields : List (Field LogConfig) := [
  ("level", fun i c => do return { c with level := ← string i }),
  ("file", fun i c => do return { c with file := ← path i })]

def fields : List (Field Config) := [
  ("console", fun i c => do
    return { c with console := ← part "ConsoleConfig" consoleFields {} i }),
  ("runtime", fun i c => do
    return { c with runtime := ← part "RuntimeConfig" runtimeFields {} i }),
  ("log", fun i c => do return { c with log := ← part "LogConfig" logFields {} i })]

def parse (text : String) : Except Fault Config :=
  match Toml.read? text.toList with
  | some entries => setNamed fields {} entries
  | none => .error ⟨.malformed, none⟩

end Config

namespace Config

inductive LoadError where
  | read (path : Path) (cause : FileError)
  | parse (path : Path) (source : String) (cause : Fault)
  deriving DecidableEq, Repr

def accountHome : Option Path := some "/root"

def home? (e : Environment) : Option Path := ((e.get? "HOME").filter (· ≠ "")).or accountHome

def directory? (e : Environment) : Option Path :=
  match (e.get? "XDG_CONFIG_HOME").filter Path.isAbsolute with
  | some path => some path
  | none => (home? e).map (Path.join · ".config")

def defaultPath? (e : Environment) : Option Path :=
  (directory? e).map fun d => (Path.join d "rhost").join "config.toml"

def readFrom (files : Files) (path : Path) : Except LoadError Config :=
  match files.readText path with
  | .error cause => .error (.read path cause)
  | .ok text =>
    match parse text with
    | .error cause => .error (.parse path text cause)
    | .ok config => .ok config

def load (files : Files) (e : Environment) (asked : Option Path) : Except LoadError Config :=
  match asked, defaultPath? e with
  | some path, _ => readFrom files path
  | none, some path => if files.contains path then readFrom files path else .ok {}
  | none, none => .ok {}

def historyName : String := ".rhost_history"

def historyPath? (config : Config) (e : Environment) : Option Path :=
  match config.console.historyFile with
  | some path => some path
  | none => (home? e).map (Path.join · historyName)

def pollNanoseconds (config : Config) : Nat := config.console.pollMilliseconds * 1000000

end Config

end RConsole
