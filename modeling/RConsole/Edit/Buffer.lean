import RConsole.Text.Pieces
import RConsole.Text.Words

namespace RConsole

structure Buffer where
  chars : List Char := []
  cursor : Nat := 0
  deriving DecidableEq, Repr

namespace Buffer

def ofText (text : String) : Buffer := ⟨text.toList, text.toList.length⟩

def text (b : Buffer) : String := String.ofList b.chars

def isEmpty (b : Buffer) : Bool := b.chars.isEmpty

def before (b : Buffer) : List Char := b.chars.take b.cursor

def after (b : Buffer) : List Char := b.chars.drop b.cursor

def insert (b : Buffer) (c : Char) : Buffer := ⟨b.before ++ c :: b.after, b.cursor + 1⟩

def insertText (b : Buffer) (text : String) : Buffer :=
  ⟨b.before ++ text.toList ++ b.after, b.cursor + text.toList.length⟩

def backspace (b : Buffer) : Bool × Buffer :=
  if b.cursor = 0 then (false, b)
  else (true, ⟨b.chars.eraseIdx (b.cursor - 1), b.cursor - 1⟩)

def delete (b : Buffer) : Bool × Buffer :=
  if b.chars.length ≤ b.cursor then (false, b)
  else (true, { b with chars := b.chars.eraseIdx b.cursor })

def left (b : Buffer) : Buffer := { b with cursor := b.cursor - 1 }

def right (b : Buffer) : Buffer := { b with cursor := min (b.cursor + 1) b.chars.length }

def lineStartOf (b : Buffer) (i : Nat) : Nat :=
  i - ((b.chars.take i).reverse.takeWhile (· != '\n')).length

def lineEndOf (b : Buffer) (i : Nat) : Nat :=
  i + ((b.chars.drop i).takeWhile (· != '\n')).length

def lineStart (b : Buffer) : Buffer := { b with cursor := b.lineStartOf b.cursor }

def lineEnd (b : Buffer) : Buffer := { b with cursor := b.lineEndOf b.cursor }

def cutBack (b : Buffer) (start : Nat) : String × Buffer :=
  (String.ofList (b.before.drop start), ⟨b.chars.take start ++ b.after, start⟩)

def killToLineEnd (b : Buffer) : String × Buffer :=
  let stop := b.lineEndOf b.cursor
  (String.ofList ((b.chars.take stop).drop b.cursor),
    { b with chars := b.before ++ b.chars.drop stop })

def killToLineStart (b : Buffer) : String × Buffer := b.cutBack (b.lineStartOf b.cursor)

def killWordBack (b : Buffer) : String × Buffer :=
  b.cutBack ((b.before.reverse.dropWhile isBlank).dropWhile fun c => !isBlank c).length

def wordBeforeCursor (b : Buffer) : String :=
  String.ofList (b.before.reverse.takeWhile isWordChar).reverse

def up (b : Buffer) : Bool × Buffer :=
  let start := b.lineStartOf b.cursor
  if start = 0 then (false, b)
  else
    let column := b.cursor - start
    (true, { b with cursor := min (b.lineStartOf (start - 1) + column) (start - 1) })

def down (b : Buffer) : Bool × Buffer :=
  let stop := b.lineEndOf b.cursor
  if stop = b.chars.length then (false, b)
  else
    let column := b.cursor - b.lineStartOf b.cursor
    (true, { b with cursor := min (stop + 1 + column) (b.lineEndOf (stop + 1)) })

def lines (b : Buffer) : List String := (splitLines b.chars).map String.ofList

def position (b : Buffer) : Nat × Nat :=
  (b.before.count '\n', b.cursor - b.lineStartOf b.cursor)

end Buffer

end RConsole
