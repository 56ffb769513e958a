import RConsole.Edit.Key
import RConsole.Text.Plain

namespace RConsole

namespace Similar

def place? (c : Char) (lo hi : Nat) (b : List Char) (used : List Nat) : Option Nat :=
  (List.range hi).find? fun j => lo ≤ j && b[j]? = some c && !used.contains j

def partners (range : Nat) (b : List Char) :
    (i : Nat) → (used : List Nat) → List Char → List Char × List Nat
  | _, used, [] => ([], used)
  | i, used, c :: cs =>
    match place? c (i - range) (min b.length (i + range + 1)) b used with
    | some j =>
      let (kept, used) := partners range b (i + 1) (j :: used) cs
      (c :: kept, used)
    | none => partners range b (i + 1) used cs

def score (a b : List Char) : Float :=
  let range := max a.length b.length / 2 - 1
  let (kept, used) := partners range b 0 [] a
  let partner := (List.range b.length).filter used.contains
  let swapped := ((kept.zip (partner.filterMap fun j => b[j]?)).countP fun p => p.1 ≠ p.2) / 2
  let m := kept.length
  if m = 0 then 0
  else (m.toFloat / a.length.toFloat + m.toFloat / b.length.toFloat +
    (m - swapped).toFloat / m.toFloat) / 3

def threshold : Float := 0.7

def candidates (a : String) (words : List String) : List String :=
  let scored := (words.map fun w => (score a.toList w.toList, w)).filter fun s => threshold < s.1
  (scored.mergeSort fun s t => s.1 ≤ t.1).map Prod.snd

def best? (a : String) (words : List String) : Option String := (candidates a words).getLast?

end Similar

namespace CommandLine

inductive Opt where
  | config
  | root
  | logLevel
  | pollInterval
  deriving DecidableEq, Repr

namespace Opt

def all : List Opt := [config, root, logLevel, pollInterval]

def name : Opt → String
  | config => "config"
  | root => "r-home"
  | logLevel => "log-level"
  | pollInterval => "poll-interval-ms"

def valueName : Opt → String
  | config => "PATH"
  | root => "PATH"
  | logLevel => "LEVEL"
  | pollInterval => "MS"

def help : Opt → String
  | config => "Config file (default: <config dir>/rhost/config.toml)"
  | root => "R install root, overriding R_HOME and `R RHOME`"
  | logLevel => "Log filter (trace, debug, info, warn, error)"
  | pollInterval => "How often R's events run while the prompt waits"

def usage (o : Opt) : String := "--" ++ o.name ++ " <" ++ o.valueName ++ ">"

end Opt

structure Options where
  config : Option String := none
  root : Option String := none
  logLevel : Option String := none
  pollMilliseconds : Option Nat := none
  deriving DecidableEq, Repr

inductive Parsed where
  | console (options : Options)
  | completions (shell : String)
  | info (text : String)
  | misuse (text : String)
  deriving DecidableEq, Repr

def programName : String := "rhost"

def version : String := "0.1.0"

def shells : List String := ["bash", "elvish", "fish", "powershell", "zsh"]

def completionsHelp : String := "Generate shell completions for bash, zsh, fish, or powershell"

def helpHelp : String := "Print this message or the help of the given subcommand(s)"

inductive Scope where
  | main
  | completions
  deriving DecidableEq, Repr

def Scope.usage : Scope → String
  | main => "Usage: rhost [OPTIONS] [COMMAND]\n"
  | completions => "Usage: rhost completions <SHELL>\n"

def Scope.version : Scope → String
  | main => "rhost " ++ CommandLine.version ++ "\n"
  | completions => "rhost-completions " ++ CommandLine.version ++ "\n"

def padded (width : Nat) (s : String) : String := s ++ String.ofList (List.replicate (width - s.length) ' ')

def mainHelp : String :=
  "rhost - an R console with a modal prompt\n\n" ++ Scope.main.usage ++ "\nCommands:\n" ++
    "  completions  " ++ completionsHelp ++ "\n  help         " ++ helpHelp ++ "\n\nOptions:\n" ++
    String.join (Opt.all.map fun o => "      " ++ padded 25 o.usage ++ o.help ++ "\n") ++
    "  -h, --help                   Print help\n  -V, --version                Print version\n"

def possibleValues : String := "[possible values: " ++ ", ".intercalate shells ++ "]"

def Scope.help : Scope → String
  | main => mainHelp
  | completions =>
    completionsHelp ++ "\n\n" ++ Scope.completions.usage ++
      "\nArguments:\n  <SHELL>  Shell to generate completions for " ++ possibleValues ++
      "\n\nOptions:\n  -h, --help     Print help\n  -V, --version  Print version\n"

def helpUsage : String := "Usage: rhost help [COMMAND]...\n"

def helpForHelp : String :=
  helpHelp ++ "\n\n" ++ helpUsage ++ "\nArguments:\n" ++
    "  [COMMAND]...  Print help for the subcommand(s)\n"

def ending : String := "\nFor more information, try '--help'.\n"

def tips (lines : List String) : String :=
  if lines = [] then ""
  else "\n" ++ String.join (lines.map fun l => "  tip: " ++ l ++ "\n")

def complaint (message : String) (hints : List String) (usage : Option String) : String :=
  "error: " ++ message ++ "\n" ++ tips hints ++
    (match usage with | some u => "\n" ++ u | none => "")

def misuse (message : String) (hints : List String) (usage : Option String) : Parsed :=
  .misuse (complaint message hints usage ++ ending)

def cited (text : String) : String := "'" ++ Plain.text text ++ "'"

def missingValue (o : Opt) : Parsed :=
  misuse ("a value is required for '" ++ o.usage ++ "' but none was supplied") [] none

def repeated (o : Opt) : Parsed :=
  misuse ("the argument '" ++ o.usage ++ "' cannot be used multiple times") []
    (some Scope.main.usage)

def unknown (arg : String) (hints : List String) (usage : String) : Parsed :=
  misuse ("unexpected argument " ++ cited arg ++ " found") hints (some usage)

def unneeded (value flag usage : String) : Parsed :=
  misuse ("unexpected value " ++ cited value ++ " for '" ++ flag ++
    "' found; no more were expected") [] (some usage)

def digits (n : Nat) : List Char → Except String Nat
  | [] => .ok n
  | d :: ds =>
    if !d.isDigit then .error "invalid digit found in string"
    else
      let m := n * 10 + (d.toNat - '0'.toNat)
      if m < UInt64.size then digits m ds else .error "number too large to fit in target type"

def number (text : String) : Except String Nat :=
  match text.toList with
  | [] => .error "cannot parse integer from empty string"
  | '+' :: d :: ds => digits 0 (d :: ds)
  | ds => digits 0 ds

def assign (o : Opt) (value : String) (os : Options) : Except Parsed Options :=
  match o with
  | .config =>
    if os.config.isSome then .error (repeated o)
    else if value = "" then .error (missingValue o)
    else .ok { os with config := some value }
  | .root =>
    if os.root.isSome then .error (repeated o)
    else if value = "" then .error (missingValue o)
    else .ok { os with root := some value }
  | .logLevel =>
    if os.logLevel.isSome then .error (repeated o) else .ok { os with logLevel := some value }
  | .pollInterval =>
    if os.pollMilliseconds.isSome then .error (repeated o)
    else match number value with
      | .ok n => .ok { os with pollMilliseconds := some n }
      | .error reason => .error (misuse ("invalid value " ++ cited value ++ " for '" ++ o.usage ++
          "': " ++ reason) [] none)

def splitLong (arg : String) : String × Option String :=
  let body := arg.toList.drop 2
  match body.dropWhile (· ≠ '=') with
  | '=' :: value => (String.ofList (body.takeWhile (· ≠ '=')), some (String.ofList value))
  | _ => (String.ofList body, none)

def isLong (arg : String) : Bool := "--".toList.isPrefixOf arg.toList

def isShort (arg : String) : Bool := arg.toList.head? = some '-' && 1 < arg.length

def usedUsage (used : List String) (s : Scope) : String :=
  if used = [] then s.usage
  else match s with
    | .main => "Usage: rhost " ++ " ".intercalate used ++ "\n"
    | .completions => "Usage: rhost completions " ++ " ".intercalate (used ++ ["<SHELL>"]) ++ "\n"

def flagUsage (flag : String) (used : Bool) : String :=
  "Usage: rhost --" ++ flag ++
    (if used then " <" ++ "|".intercalate (Opt.all.map Opt.usage) ++ ">" else "") ++ "\n"

def asValue (arg : String) : String :=
  "to pass " ++ cited arg ++ " as a value, use " ++ cited ("-- " ++ arg)

def usageOf (name : String) : String :=
  match Opt.all.find? fun o => o.name = name with
  | some o => o.usage
  | none => "--" ++ name

def unknownLong (name : String) (used : List String) (s : Scope) : Parsed :=
  let names := (match s with | .main => Opt.all.map Opt.name | .completions => []) ++
    ["help", "version"]
  match Similar.best? name names with
  | some n =>
    unknown ("--" ++ name) ["a similar argument exists: '--" ++ n ++ "'"]
      (usedUsage (used ++ if used.contains (usageOf n) then [] else [usageOf n]) s)
  | none =>
    let hints := match s with
      | .main => []
      | .completions => [asValue ("--" ++ name)]
    unknown ("--" ++ name) hints (usedUsage used s)

def unknownShort (c : Char) (s : Scope) : Parsed :=
  let arg := "-" ++ c.toString
  let hints := match s with
    | .main => []
    | .completions => [asValue arg]
  unknown arg hints s.usage

def flag (name : String) (s : Scope) : Option Parsed :=
  if name = "help" then some (.info s.help)
  else if name = "version" then some (.info s.version)
  else none

def shortFlag (c : Char) (s : Scope) : Option Parsed :=
  if c = 'h' then some (.info s.help)
  else if c = 'V' then some (.info s.version)
  else none

def shell (value : String) : Parsed :=
  if shells.contains value then .completions value
  else
    let hints := match Similar.best? value shells with
      | some s => ["a similar value exists: '" ++ s ++ "'"]
      | none => []
    let message := if value = "" then "a value is required for '<SHELL>' but none was supplied"
      else "invalid value " ++ cited value ++ " for '<SHELL>'"
    misuse (message ++ "\n  " ++ possibleValues) hints none

def completions (found : Option String) (trailing : Bool) : List String → Parsed
  | [] =>
    match found with
    | some value => shell value
    | none => misuse "the following required arguments were not provided:\n  <SHELL>" []
        (some Scope.completions.usage)
  | arg :: args =>
    let settled (answer : Parsed) : Parsed :=
      match found.map shell with
      | some (.misuse text) => .misuse text
      | _ => answer
    if !trailing && arg = "--" then completions found true args
    else if !trailing && isLong arg then
      let (name, value) := splitLong arg
      match flag name .completions, value with
      | some answer, none => settled answer
      | some _, some v => unneeded v ("--" ++ name) (usedUsage ["--" ++ name] .completions)
      | none, _ => unknownLong name [] .completions
    else if !trailing && isShort arg then
      match arg.toList with
      | _ :: c :: _ =>
        match shortFlag c .completions with
        | some answer => settled answer
        | none => unknownShort c .completions
      | _ => unknown arg [] Scope.completions.usage
    else match found with
      | some _ => unknown arg [] Scope.completions.usage
      | none => completions (some arg) trailing args

def unrecognized (word : String) : String := "unrecognized subcommand " ++ cited word

def helpFor : List String → Parsed
  | [] => .info mainHelp
  | [name] =>
    if name = "completions" then .info Scope.completions.help
    else if name = "help" then .info helpForHelp
    else misuse (unrecognized name) [] (some Scope.main.usage)
  | name :: sub :: _ =>
    if name = "completions" then misuse (unrecognized sub) [] (some Scope.completions.usage)
    else if name = "help" then .misuse (complaint (unrecognized sub) [] (some helpUsage))
    else misuse (unrecognized name) [] (some Scope.main.usage)

def stray (arg : String) (trailing : Bool) : Parsed :=
  if trailing && ["completions", "help"].contains arg then
    unknown arg ["subcommand '" ++ arg ++ "' exists; to use it, remove the '--' before it"]
      Scope.main.usage
  else
    match Similar.candidates arg ["completions", "help"] with
    | [] => misuse (unrecognized arg) [] (some Scope.main.usage)
    | [name] => misuse (unrecognized arg) ["a similar subcommand exists: '" ++ name ++ "'"]
        (some Scope.main.usage)
    | names => misuse (unrecognized arg) ["some similar subcommands exist: " ++
        ", ".intercalate (names.map fun n => "'" ++ n ++ "'")] (some Scope.main.usage)

structure State where
  options : Options := {}
  used : List Opt := []
  pending : Option (Opt × Option String) := none
  deriving DecidableEq, Repr

namespace State

def waits (s : State) : Bool :=
  match s.pending with
  | some (_, none) => true
  | _ => false

def settle (s : State) : Except Parsed State :=
  match s.pending with
  | none => .ok s
  | some (o, none) => .error (missingValue o)
  | some (o, some value) =>
    (assign o value s.options).map fun options => ⟨options, s.used ++ [o], none⟩

def usages (s : State) : List String :=
  let used := match s.pending with
    | some (o, some _) => if s.used.contains o then s.used.erase o else s.used ++ [o]
    | _ => s.used
  used.map Opt.usage

end State

def main (s : State) (trailing : Bool) : List String → Parsed
  | [] =>
    match s.settle with
    | .ok s => .console s.options
    | .error answer => answer
  | arg :: args =>
    let settled (answer : Parsed) : Parsed :=
      match s.settle with
      | .ok _ => answer
      | .error fault => fault
    if trailing then stray arg true
    else if !s.waits && arg = "completions" then
      match completions none false args with
      | .completions shell => settled (.completions shell)
      | answer => answer
    else if !s.waits && arg = "help" then helpFor args
    else if arg = "--" then main s true args
    else if isLong arg then
      let (name, value) := splitLong arg
      match Opt.all.find? (fun o => o.name = name), flag name .main, value with
      | some o, _, value =>
        match s.settle with
        | .error answer => answer
        | .ok s =>
          match value with
          | none => main { s with pending := some (o, none) } false args
          | some v =>
            match { s with pending := some (o, some v) }.settle with
            | .ok s => main s false args
            | .error answer => answer
      | none, some answer, none => settled answer
      | none, some _, some v =>
        unneeded v ("--" ++ name) (flagUsage name (s.used ≠ []))
      | none, none, _ => unknownLong name s.usages .main
    else if isShort arg then
      match arg.toList with
      | _ :: c :: _ =>
        match shortFlag c .main with
        | some answer => settled answer
        | none => unknownShort c .main
      | _ => stray arg false
    else match s.pending with
      | some (o, none) => main { s with pending := some (o, some arg) } false args
      | _ => stray arg false

def parse (args : List String) : Parsed := main {} false args

end CommandLine

end RConsole
