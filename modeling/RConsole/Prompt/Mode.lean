namespace RConsole

inductive Mode where
  | normal
  | help
  | helpSearch
  | debug
  deriving DecidableEq, Repr

inductive Style where
  | normal
  | help
  | debug
  | plain
  deriving DecidableEq, Repr

inductive Color where
  | blue
  | yellow
  | red
  deriving DecidableEq, Repr

def Style.color? (style : Style) (scheme : String) : Option Color :=
  if scheme = "none" ∨ scheme = "monochrome" then none
  else match style with
    | .normal => some .blue
    | .help => some .yellow
    | .debug => some .red
    | .plain => none

structure Spec where
  mode : Mode
  text : String
  style : Style
  multiline : Bool
  completion : Bool
  history : Bool
  subPrompt : Bool
  deriving DecidableEq, Repr

def Mode.spec : Mode → Spec
  | .normal => ⟨.normal, "r$> ", .normal, true, true, true, false⟩
  | .help => ⟨.help, "help?> ", .help, false, true, true, false⟩
  | .helpSearch => ⟨.helpSearch, "help??> ", .help, false, false, true, false⟩
  | .debug => ⟨.debug, "debug%> ", .debug, true, true, true, false⟩

def Mode.subPrompt (mode : Mode) (hint : String) : Spec :=
  ⟨mode, hint, .plain, false, false, false, true⟩

inductive Hint where
  | topLevel
  | browser
  | other (text : String)
  deriving DecidableEq, Repr

def Hint.classify (hint : String) : Hint :=
  if hint = "> " then .topLevel
  else if "Browse[".toList.isPrefixOf hint.toList && "]> ".toList.isSuffixOf hint.toList then .browser
  else .other hint

inductive ModeKey where
  | question
  | erase
  deriving DecidableEq, Repr

def ModeKey.target? : Mode → ModeKey → Option Mode
  | .normal, .question => some .help
  | .debug, .question => some .help
  | .help, .question => some .helpSearch
  | .help, .erase => some .normal
  | .helpSearch, .erase => some .normal
  | _, _ => none

structure ModeMachine where
  current : Mode := .normal
  pending : Option Mode := none
  deriving DecidableEq, Repr

namespace ModeMachine

def request (m : ModeMachine) (mode : Mode) : ModeMachine := { m with pending := some mode }

def topLevel (m : ModeMachine) : Mode :=
  match m.pending with
  | some mode => mode
  -- Debugging is over once R asks at the top level again.
  | none => if m.current = .debug then .normal else m.current

def browser (m : ModeMachine) : Mode :=
  match m.pending with
  | some .help => .help
  | some .helpSearch => .helpSearch
  | _ => .debug

def beginCycle (m : ModeMachine) (hint : String) : Spec × ModeMachine :=
  match Hint.classify hint with
  | .topLevel => (m.topLevel.spec, ⟨m.topLevel, none⟩)
  | .browser => (m.browser.spec, ⟨m.browser, none⟩)
  | .other text => (m.current.subPrompt text, m)

def submitted (m : ModeMachine) : ModeMachine :=
  -- A help line is answered once.
  match m.current, m.pending with
  | .help, none => m.request .normal
  | .helpSearch, none => m.request .normal
  | _, _ => m

end ModeMachine

end RConsole
