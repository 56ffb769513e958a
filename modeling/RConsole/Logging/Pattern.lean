import RConsole.Logging.Pattern.Class
import RConsole.Text.Words

/-!
The patterns that the value of a field may have to match: regular expressions, of which only the
form is looked at. A pattern is read from left to right with the groups that are open.
-/
namespace RConsole.Logging.Pattern

inductive Part where
  | setting
  | piece (depth : Nat)
  deriving DecidableEq, Repr

def Part.depth : Part → Nat
  | .setting => 0
  | .piece depth => depth

structure Group where
  flags : Flags := {}
  branches : List Nat := []
  parts : List Part := []
  deriving DecidableEq, Repr

def nested : List Nat → Nat
  | [] => 0
  | [d] => d
  | ds => 1 + ds.foldl max 0

namespace Group

def add (g : Group) (depth : Nat) : Group := { g with parts := .piece depth :: g.parts }

def setting (g : Group) (f : Flags) : Group := { g with flags := f, parts := .setting :: g.parts }

def branch (g : Group) : Nat := nested (g.parts.map Part.depth)

def nextBranch (g : Group) : Group := { g with branches := g.branch :: g.branches, parts := [] }

def depth (g : Group) : Nat := nested (g.branch :: g.branches)

def repeat? (g : Group) : Option Group :=
  match g.parts with
  | .piece depth :: parts => some { g with parts := .piece (1 + depth) :: parts }
  | _ => none

end Group

def depthLimit : Nat := 250

structure State where
  group : Group := {}
  outer : List Group := []
  names : List (List Char) := []
  deriving DecidableEq, Repr

namespace State

def add (s : State) (depth : Nat) : State := { s with group := s.group.add depth }

def enter (s : State) (f : Flags) : State :=
  { s with group := { flags := f }, outer := s.group :: s.outer }

def leave? (s : State) : Option State :=
  match s.outer with
  | [] => none
  | g :: outer => some { s with group := g.add (1 + s.group.depth), outer := outer }

end State

def startsName (c : Char) : Bool := c == '_' || isLetter c

def continuesName (c : Char) : Bool :=
  c == '_' || c == '.' || c == '[' || c == ']' || isAlphanumeric c

def name? (cs : List Char) : Option (List Char × List Char) :=
  let name := cs.takeWhile (· != '>')
  match name, cs.drop name.length with
  | c :: rest, '>' :: cs =>
    if startsName c && rest.all continuesName then some (name, cs) else none
  | _, _ => none

def flagLetters : List Char := "imsUuRx".toList

def Flags.set (f : Flags) (letter : Char) (value : Bool) : Flags :=
  if letter = 'i' then { f with ignoreCase := value }
  else if letter = 'u' then { f with unicode := value }
  else if letter = 'x' then { f with spaced := value }
  else f

def flags? (f : Flags) (letters : List Char) : Option Flags :=
  let known := letters.all fun c => c == '-' || flagLetters.contains c
  if known ∧ letters.Nodup ∧ letters.getLast? ≠ some '-' then
    let setting := letters.takeWhile (· != '-')
    let clearing := letters.drop (setting.length + 1)
    some (clearing.foldl (·.set · false) (setting.foldl (·.set · true) f))
  else none

def bracket? (s : State) (cs : List Char) : Option (State × List Char) :=
  match s.group.flags.pass cs with
  | '?' :: 'P' :: '<' :: cs => named cs
  | '?' :: '<' :: cs => named cs
  | '?' :: cs =>
    let letters := cs.takeWhile fun c => c != ':' && c != ')'
    (flags? s.group.flags letters).bind fun f =>
      match cs.drop letters.length with
      | ':' :: cs => some (s.enter f, cs)
      | ')' :: cs =>
        if letters = [] then none else some ({ s with group := s.group.setting f }, cs)
      | _ => none
  | cs => some (s.enter s.group.flags, cs)
where
  named (cs : List Char) : Option (State × List Char) :=
    (name? cs).bind fun (name, cs) =>
      if s.names.contains name then none
      else some ({ s with names := name :: s.names }.enter s.group.flags, cs)

def repetition? (s : State) (cs : List Char) : Option (State × List Char) :=
  s.group.repeat?.map fun g =>
    ({ s with group := g }, if cs.head? = some '?' then cs.tail else cs)

def literal? (s : State) (e : Escape) (cs : List Char) : Option (State × List Char) :=
  if s.group.flags.allowsLiteral e then some (s.add 0, cs) else none

def next (s : State) (c : Char) (cs : List Char) : Option (State × List Char) :=
  let f := s.group.flags
  match c with
  | '\\' => (escape f cs).bind fun (e, cs) => literal? s e cs
  | '(' => bracket? s cs
  | ')' => s.leave?.map (·, cs)
  | '|' => some ({ s with group := s.group.nextBranch }, cs)
  | '[' => (class? f cs).map fun (depth, cs) => (s.add depth, cs)
  | '\x7b' => none
  | '*' => repetition? s cs
  | '+' => repetition? s cs
  | '?' => repetition? s cs
  | '.' => if f.unicode then some (s.add 0, cs) else none
  | '^' => some (s.add 0, cs)
  | '$' => some (s.add 0, cs)
  | c => literal? s (.literal c) cs

def reads : (fuel : Nat) → State → List Char → Bool
  | 0, _, _ => false
  | fuel + 1, s, cs =>
    match s.group.flags.pass cs with
    | [] => s.outer.isEmpty && decide (s.group.depth ≤ depthLimit)
    | c :: cs =>
      match next s c cs with
      | some (s, cs) => reads fuel s cs
      | none => false

def isPattern (cs : List Char) : Bool := reads (cs.length + 1) {} cs

end RConsole.Logging.Pattern
