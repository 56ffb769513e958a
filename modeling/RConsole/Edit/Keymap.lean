import RConsole.Edit.Key

namespace RConsole

inductive EditingMode where
  | emacs
  | vi
  deriving DecidableEq, Repr

inductive Command where
  | insert (c : Char)
  | newline
  | submit
  | backspace
  | deleteOrEnd
  | delete
  | left
  | right
  | lineStart
  | lineEnd
  | killToEnd
  | killToStart
  | killWordBack
  | up
  | down
  | complete
  | clearScreen
  | suspend
  | cancel
  | noop
  deriving DecidableEq, Repr

inductive ViState where
  | insert
  | command
  deriving DecidableEq, Repr

structure Keymap where
  mode : EditingMode := .emacs
  vi : ViState := .insert
  deriving DecidableEq, Repr

namespace Keymap

def reset (mode : EditingMode) (m : Keymap) : Keymap := { m with mode := mode, vi := .insert }

def viState? (m : Keymap) : Option ViState :=
  match m.mode with
  | .emacs => none
  | .vi => some m.vi

def common? (k : Key) : Option Command :=
  match k.code with
  | .enter => some (if k.mods.alt then .newline else .submit)
  | .char c =>
    if !k.mods.ctrl then none
    else match c with
      | 'c' => some .cancel
      | 'd' => some .deleteOrEnd
      | 'l' => some .clearScreen
      | 'z' => some .suspend
      | _ => none
  | _ => none

def control (c : Char) : Command :=
  match c with
  | 'a' => .lineStart
  | 'e' => .lineEnd
  | 'b' => .left
  | 'f' => .right
  | 'k' => .killToEnd
  | 'u' => .killToStart
  | 'w' => .killWordBack
  | 'p' => .up
  | 'n' => .down
  | 'h' => .backspace
  | _ => .noop

def emacs (k : Key) : Command :=
  match k.code with
  | .char c => if k.mods.ctrl then control c else if k.mods.alt then .noop else .insert c
  | .backspace => .backspace
  | .delete => .delete
  | .left => .left
  | .right => .right
  | .home => .lineStart
  | .endKey => .lineEnd
  | .up => .up
  | .down => .down
  | .tab => .complete
  | _ => .noop

def viCommand (code : KeyCode) : Command × ViState :=
  match code with
  | .char 'h' => (.left, .command)
  | .char 'l' => (.right, .command)
  | .char '0' => (.lineStart, .command)
  | .char '$' => (.lineEnd, .command)
  | .char 'x' => (.delete, .command)
  | .char 'k' => (.up, .command)
  | .char 'j' => (.down, .command)
  | .char 'i' => (.noop, .insert)
  | .char 'a' => (.right, .insert)
  | .char 'I' => (.lineStart, .insert)
  | .char 'A' => (.lineEnd, .insert)
  | .left => (.left, .command)
  | .right => (.right, .command)
  | .up => (.up, .command)
  | .down => (.down, .command)
  | .home => (.lineStart, .command)
  | .endKey => (.lineEnd, .command)
  | _ => (.noop, .command)

def map (m : Keymap) (k : Key) : Command × Keymap :=
  match common? k with
  | some command => (command, m)
  | none =>
    match m.mode, m.vi with
    | .emacs, _ => (emacs k, m)
    | .vi, .insert =>
      if k.code = .esc then (.left, { m with vi := .command }) else (emacs k, m)
    | .vi, .command =>
      let (command, vi) := viCommand k.code
      (command, { m with vi := vi })

end Keymap

end RConsole
