import RConsole.Text.Pieces

/-!
Paths of a file system with one root and `/` between the names. A path is the text it was given
as; empty segments and single dots in it name nothing, except a single dot that starts a relative
path.
-/
namespace RConsole

abbrev Path := String

inductive Component where
  | root
  | here
  | up
  | name (text : List Char)
  deriving DecidableEq, Repr

namespace Path

def isAbsolute (p : Path) : Bool := p.toList.head? = some '/'

def segments (cs : List Char) : List (List Char) := pieces (· == '/') cs

def isIdle (segment : List Char) : Bool := segment = [] || segment = ['.']

def Segment.component (segment : List Char) : Component :=
  if segment = ['.', '.'] then .up else .name segment

def named (segs : List (List Char)) : List Component :=
  (segs.filter fun s => !isIdle s).map Segment.component

def joinSegments (segs : List (List Char)) : List Char := ['/'].intercalate segs

def opening (cs : List Char) : Option Component × List (List Char) :=
  match segments cs with
  | [] => (none, [])
  | [] :: s :: segs => (some .root, s :: segs)
  | ['.'] :: segs => (some .here, segs)
  | segs => (none, segs)

def components (p : Path) : List Component :=
  let (start, segs) := opening p.toList
  start.toList ++ named segs

def trimEnd (segs : List (List Char)) : List (List Char) :=
  (segs.reverse.dropWhile isIdle).reverse

def dropNamed : List Component → List (List Char) → Option (List (List Char))
  | [], segs => some segs
  | _ :: _, [] => none
  | step :: steps, s :: segs =>
    if isIdle s then dropNamed (step :: steps) segs
    else if Segment.component s = step then dropNamed steps segs
    else none

def tidyEnd (p : Path) : Path :=
  match opening p.toList with
  | (some .root, segs) => String.ofList ('/' :: joinSegments (trimEnd segs))
  | (some _, segs) => String.ofList (joinSegments (['.'] :: trimEnd segs))
  | (none, segs) => String.ofList (joinSegments (trimEnd segs))

def stripPrefix? (p base : Path) : Option Path :=
  if components base = [] then some (tidyEnd p)
  else
    let (start, segs) := opening p.toList
    let (baseStart, _) := opening base.toList
    let steps := components base
    let rest := if start = baseStart then dropNamed (steps.drop start.toList.length) segs else none
    rest.map fun segs => String.ofList (joinSegments (trimEnd (segs.dropWhile isIdle)))

def join (base p : Path) : Path :=
  if p.isAbsolute || base = "" then p
  else if base.toList.getLast? = some '/' then base ++ p
  else base ++ "/" ++ p

def parent? (p : Path) : Option Path :=
  let (start, segs) := opening p.toList
  match (trimEnd segs).reverse with
  | _ :: before =>
    let kept := trimEnd before.reverse
    match start with
    | some .root => some (String.ofList ('/' :: joinSegments kept))
    | some _ => some (String.ofList (joinSegments (['.'] :: kept)))
    | none => some (String.ofList (joinSegments kept))
  | [] => if start = some .here then some "" else none

def abbreviate (p : Path) (home : Option Path) : String :=
  match home.bind (stripPrefix? p) with
  | some "" => "~"
  | some rest => "~/" ++ rest
  | none => p

end Path

end RConsole
