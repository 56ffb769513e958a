import RConsole.Edit.Keymap
import RConsole.Text.Pieces

namespace RConsole

inductive OptionValue where
  | text (value : String)
  | logical (value : Bool)
  | integer (value : Int)
  | real (bits : UInt64)
  deriving DecidableEq, Repr

namespace OptionValue

def asText? : OptionValue → Option String
  | text value => some value
  | _ => none

def asBool? : OptionValue → Option Bool
  | text value =>
    if value ∈ ["TRUE", "true", "T"] then some true
    else if value ∈ ["FALSE", "false", "F"] then some false
    else none
  | logical value => some value
  | integer value => some (value ≠ 0)
  | real bits => some (bits <<< 1 ≠ 0)

end OptionValue

def EditingMode.parse? (text : String) : Option EditingMode :=
  let name := String.ofList ((trim text.toList).map Char.toLower)
  if name = "emacs" then some .emacs
  else if name = "vi" ∨ name = "vim" then some .vi
  else none

structure Settings where
  colorScheme : String := "native"
  editingMode : EditingMode := .emacs
  statusBar : Bool := true
  deriving DecidableEq, Repr

namespace Settings

def override (s : Settings) (option : String → Option OptionValue) : Settings where
  colorScheme := ((option "rhost.color_scheme").bind OptionValue.asText?).getD s.colorScheme
  editingMode :=
    (((option "rhost.editing_mode").bind OptionValue.asText?).bind EditingMode.parse?).getD
      s.editingMode
  statusBar := ((option "rhost.show_statusbar").bind OptionValue.asBool?).getD s.statusBar

end Settings

end RConsole
