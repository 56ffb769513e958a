import RConsole.Prompt.Mode

namespace RConsole

structure Frame where
  prompt : String
  color : Option Color := none
  lines : List String
  cursor : Nat × Nat
  status : Option String := none
  deriving DecidableEq, Repr

structure Row where
  text : List Char
  promptChars : Nat := 0
  dim : Bool := false
  deriving DecidableEq, Repr

structure Layout where
  rows : List Row
  cursor : Nat × Nat
  deriving DecidableEq, Repr

def wrap (width : Nat) (cs : List Char) : List (List Char) :=
  if _h : width = 0 ∨ cs.length ≤ width then [cs]
  else cs.take width :: wrap width (cs.drop width)
termination_by cs.length
decreasing_by simp only [List.length_drop]; omega

namespace Frame

def promptWidth (f : Frame) : Nat := f.prompt.toList.length

def shownLines (f : Frame) : List (List Char) :=
  if f.lines = [] then [[]] else f.lines.map String.toList

def lineChars (f : Frame) (index : Nat) (line : List Char) : List Char :=
  (if index = 0 then f.prompt.toList else List.replicate f.promptWidth ' ') ++ line

def cursorColumn (f : Frame) : Nat := f.promptWidth + f.cursor.2

def textRows (f : Frame) (width index : Nat) (line : List Char) : List Row :=
  match wrap width (f.lineChars index line) with
  | [] => []
  | first :: rest =>
    let promptChars := if index = 0 then min f.promptWidth first.length else 0
    ⟨first, promptChars, false⟩ :: rest.map fun text => ⟨text, 0, false⟩

def group (f : Frame) (width index : Nat) (line : List Char) : List Row :=
  let rows := f.textRows width index line
  -- A cursor behind a full row stands in a row of its own.
  if index = f.cursor.1 then
    rows ++ List.replicate (f.cursorColumn / width + 1 - rows.length) ⟨[], 0, false⟩
  else rows

def groups (f : Frame) (width : Nat) : List (List Row) :=
  f.shownLines.mapIdx (f.group width)

def statusRow (f : Frame) (width : Nat) : List Row :=
  f.status.toList.map fun s => ⟨s.toList.take width, 0, true⟩

def layout (f : Frame) (columns : Nat) : Layout :=
  let width := max columns 1
  let groups := f.groups width
  let above := (groups.take f.cursor.1).flatten.length
  { rows := groups.flatten ++ f.statusRow width
    cursor := if f.cursor.1 < groups.length then
        (above + f.cursorColumn / width, f.cursorColumn % width)
      else (0, 0) }

end Frame

end RConsole
