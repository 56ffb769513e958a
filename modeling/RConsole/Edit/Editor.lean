import RConsole.Edit.Buffer
import RConsole.Edit.Keymap
import RConsole.Prompt.Mode
import RConsole.Screen.Layout
import RConsole.Settings
import RConsole.Text.Pieces
import RConsole.Text.Words

namespace RConsole

structure Recall where
  entries : List String
  index : Nat
  draft : String := ""
  deriving DecidableEq, Repr

namespace Recall

def start (entries : List String) : Recall := { entries := entries, index := entries.length }

def shown (r : Recall) : String := r.entries[r.index]?.getD r.draft

def back? (r : Recall) (current : String) : Option Recall :=
  if r.index = 0 then none
  else
    -- What was typed is kept when the walk leaves it.
    let draft := if r.index = r.entries.length then current else r.draft
    some { r with index := r.index - 1, draft := draft }

def forth? (r : Recall) : Option Recall :=
  if r.entries.length ≤ r.index then none else some { r with index := r.index + 1 }

end Recall

namespace Completion

def insertWord (w : List Char) : List (List Char) → List (List Char)
  | [] => [w]
  | v :: vs =>
    if w < v then w :: v :: vs
    else if v < w then v :: insertWord w vs
    else v :: vs

def wordsOf (entry : String) : List (List Char) :=
  pieces (fun c => !isWordChar c) entry.toList

def extends? (start word : List Char) : Bool :=
  start.isPrefixOf word && start.length < word.length

def candidates (start : List Char) (entries : List String) : List (List Char) :=
  if start = [] then []
  else ((entries.flatMap wordsOf).filter (extends? start)).foldl (fun ws w => insertWord w ws) []

def commonPrefix : List Char → List Char → List Char
  | c :: cs, d :: ds => if c = d then c :: commonPrefix cs ds else []
  | _, _ => []

def complete? (start : List Char) (entries : List String) : Option (List Char) :=
  match candidates start entries with
  | [] => none
  | w :: ws =>
    let shared := ws.foldl commonPrefix w
    match shared.drop start.length with
    | [] => none
    | suffix => some suffix

end Completion

inductive Outcome where
  | submitted (text : String)
  | interrupted
  | endOfInput
  | modeKey (target : Mode)
  deriving DecidableEq, Repr

def Outcome.leavesPicture : Outcome → Bool
  | .modeKey _ => false
  | _ => true

inductive Request where
  | clear
  | suspend
  deriving DecidableEq, Repr

structure Editor where
  spec : Spec
  entries : List String
  buffer : Buffer := {}
  walk : Recall
  keymap : Keymap
  deriving DecidableEq, Repr

inductive Step where
  | goOn (editor : Editor) (request : Option Request)
  | done (outcome : Outcome)
  deriving DecidableEq, Repr

namespace Editor

def start (spec : Spec) (mode : EditingMode) (entries : List String) : Editor where
  spec := spec
  entries := entries
  walk := .start (if spec.history then entries else [])
  keymap := { mode := mode }

def startOver (spec : Spec) (mode : EditingMode) (entries : List String) (keymap : Keymap) : Editor :=
  { start spec mode entries with keymap := keymap.reset mode }

theorem startOver_eq (spec : Spec) (mode : EditingMode) (entries : List String) (keymap : Keymap) :
    startOver spec mode entries keymap = start spec mode entries := rfl

def modeKey? (k : Key) : Option ModeKey :=
  if k.mods.ctrl || k.mods.alt then none
  else match k.code with
    | .char '?' => some .question
    | .backspace => some .erase
    | _ => none

def takesModeKeys (e : Editor) : Bool :=
  e.buffer.isEmpty && !e.spec.subPrompt && e.keymap.viState? ≠ some .command

def modeTarget? (e : Editor) (k : Key) : Option Mode :=
  if e.takesModeKeys then (modeKey? k).bind (ModeKey.target? e.spec.mode) else none

def goUp (e : Editor) : Editor :=
  let (moved, buffer) := e.buffer.up
  if moved then { e with buffer := buffer }
  else match e.walk.back? e.buffer.text with
    | some walk => { e with walk := walk, buffer := .ofText walk.shown }
    | none => e

def goDown (e : Editor) : Editor :=
  let (moved, buffer) := e.buffer.down
  if moved then { e with buffer := buffer }
  else match e.walk.forth? with
    | some walk => { e with walk := walk, buffer := .ofText walk.shown }
    | none => e

def complete (e : Editor) : Editor :=
  match Completion.complete? e.buffer.wordBeforeCursor.toList e.entries with
  | some suffix => { e with buffer := e.buffer.insertText (String.ofList suffix) }
  | none => e

def edit (e : Editor) : Command → Editor
  | .insert c => { e with buffer := e.buffer.insert c }
  | .newline => if e.spec.multiline then { e with buffer := e.buffer.insert '\n' } else e
  | .backspace => { e with buffer := e.buffer.backspace.2 }
  | .deleteOrEnd => { e with buffer := e.buffer.delete.2 }
  | .delete => { e with buffer := e.buffer.delete.2 }
  | .left => { e with buffer := e.buffer.left }
  | .right => { e with buffer := e.buffer.right }
  | .lineStart => { e with buffer := e.buffer.lineStart }
  | .lineEnd => { e with buffer := e.buffer.lineEnd }
  | .killToEnd => { e with buffer := e.buffer.killToLineEnd.2 }
  | .killToStart => { e with buffer := e.buffer.killToLineStart.2 }
  | .killWordBack => { e with buffer := e.buffer.killWordBack.2 }
  | .up => e.goUp
  | .down => e.goDown
  | .complete => if e.spec.completion then e.complete else e
  | .submit => e
  | .cancel => e
  | .clearScreen => e
  | .suspend => e
  | .noop => e

def apply (e : Editor) (command : Command) : Step :=
  match command with
  | .submit => .done (.submitted e.buffer.text)
  | .cancel => .done .interrupted
  | .deleteOrEnd => if e.buffer.isEmpty then .done .endOfInput else .goOn (e.edit .deleteOrEnd) none
  | .clearScreen => .goOn e (some .clear)
  | .suspend => .goOn e (some .suspend)
  | command => .goOn (e.edit command) none

def press (e : Editor) (k : Key) : Step :=
  match e.modeTarget? k with
  | some target => .done (.modeKey target)
  | none =>
    let (command, keymap) := e.keymap.map k
    apply { e with keymap := keymap } command

end Editor

structure Dressing where
  prompt : String
  color : Option Color
  status : Option String
  deriving DecidableEq, Repr

namespace Dressing

def ofSettings (spec : Spec) (settings : Settings) (status : Option String) : Dressing where
  prompt := spec.text
  color := spec.style.color? settings.colorScheme
  status :=
    if settings.statusBar && spec.mode = .normal && !spec.subPrompt then status else none

def frame (d : Dressing) (buffer : Buffer) : Frame :=
  ⟨d.prompt, d.color, buffer.lines, buffer.position, d.status⟩

def lastFrame (d : Dressing) (buffer : Buffer) : Frame := { d.frame buffer with status := none }

end Dressing

end RConsole
