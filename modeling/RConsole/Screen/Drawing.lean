import RConsole.Screen.Layout
import RConsole.Terminal.Basic
import RConsole.Text.Pieces

/-!
Drawing the prompt region on a screen. The only memory between two drawings is the row of the
region in which the cursor was left.
-/
namespace RConsole

structure Look where
  color : Option Color := none
  bold : Bool := false
  dim : Bool := false
  deriving DecidableEq, Repr

inductive Drawing where
  | toColumn (column : Nat)
  | up (rows : Nat)
  | clearBelow
  | clearAll
  | toCorner
  | print (text : List Char)
  | styled (look : Look) (text : List Char)
  deriving DecidableEq, Repr

def escape : String := "\x1b["

def Color.code : Color → String
  | .blue => "38;5;12m"
  | .yellow => "38;5;11m"
  | .red => "38;5;9m"

def Look.codes (look : Look) : String :=
  (match look.color with | some c => escape ++ c.code | none => "") ++
    (if look.bold then escape ++ "1m" else "") ++ (if look.dim then escape ++ "2m" else "")

def Drawing.ansi : Drawing → String
  | .toColumn c => escape ++ toString (c + 1) ++ "G"
  | .up n => escape ++ toString n ++ "A"
  | .clearBelow => escape ++ "J"
  | .clearAll => escape ++ "2J"
  | .toCorner => escape ++ "1;1H"
  | .print text => String.ofList text
  | .styled look text =>
    if look = {} then String.ofList text
    else look.codes ++ String.ofList text ++ escape ++ "0m"

def clip (n : Nat) : Nat := min n 65535

structure Display where
  width : Nat
  cursorRow : Nat := 0
  deriving DecidableEq, Repr

namespace Display

def fallbackWidth : Nat := 80

def columns (d : Display) : Nat := if d.width = 0 then fallbackWidth else d.width

def restart (d : Display) : List Drawing :=
  [.toColumn 0] ++ (if d.cursorRow = 0 then [] else [.up (clip d.cursorRow)]) ++ [.clearBelow]

def drawRow (color : Option Color) (row : Row) : List Drawing :=
  let prompt := row.text.take row.promptChars
  let rest := row.text.drop row.promptChars
  (if prompt = [] then [] else [.styled ⟨color, color.isSome, false⟩ prompt]) ++
    [if row.dim then .styled ⟨none, false, true⟩ rest else .print rest]

def newline : Drawing := .print ['\r', '\n']

def drawRows (color : Option Color) : List Row → List Drawing
  | [] => []
  | [row] => drawRow color row
  | row :: rows => drawRow color row ++ newline :: drawRows color rows

def below (l : Layout) : Nat := l.rows.length - 1 - l.cursor.1

def draw (d : Display) (f : Frame) : List Drawing × Display :=
  let l := f.layout d.columns
  (d.restart ++ drawRows f.color l.rows ++
      (if below l = 0 then [] else [.up (clip (below l))]) ++ [.toColumn (clip l.cursor.2)],
    { d with cursorRow := l.cursor.1 })

def send (d : Display) : Act → List (Stream × Drawing) × Display
  | .entered => ([], { d with cursorRow := 0 })
  | .left => ([], d)
  | .retaken => ([], { d with cursorRow := 0 })
  | .checked => ([], d)
  | .asked _ => ([], d)
  | .keyed _ => ([], d)
  | .rendered f =>
    let (drawings, d) := d.draw f
    (drawings.map (.out, ·), d)
  | .finished f =>
    let (drawings, d) := d.draw f
    let ending := List.replicate (below (f.layout d.columns) + 1) newline
    ((drawings ++ ending).map (.out, ·), { d with cursorRow := 0 })
  | .cleared => ([(.out, .clearAll), (.out, .toCorner)], { d with cursorRow := 0 })
  | .suspended => ([(.out, newline)], { d with cursorRow := 0 })
  | .wrote chunk => ([(chunk.stream, .print chunk.text.toList)], d)
  | .interleaved chunk f =>
    let cleared := d.restart.map (Stream.out, ·)
    let (drawings, d') := draw { d with cursorRow := 0 } f
    (cleared ++ (chunk.stream, .print (rawText chunk.text.toList)) :: drawings.map (.out, ·), d')

def sendAll (d : Display) : List Act → List (Stream × Drawing) × Display
  | [] => ([], d)
  | act :: acts =>
    let (sent, d) := d.send act
    let (more, d) := d.sendAll acts
    (sent ++ more, d)

def textOn (stream : Stream) (sent : List (Stream × Drawing)) : String :=
  String.join ((sent.filter fun s => s.1 = stream).map fun s => s.2.ansi)

end Display

end RConsole
