import RConsole.Text.Pieces
import RConsole.Text.Utf8

namespace RConsole.Logging.Pattern

structure Flags where
  ignoreCase : Bool := false
  unicode : Bool := true
  spaced : Bool := false
  deriving DecidableEq, Repr

def passBlanks (comment : Bool) : List Char → List Char
  | [] => []
  | c :: cs =>
    if comment then passBlanks (c != '\n') cs
    else if isBlank c then passBlanks false cs
    else if c = '#' then passBlanks true cs
    else c :: cs

def Flags.pass (f : Flags) (cs : List Char) : List Char :=
  if f.spaced then passBlanks false cs else cs

inductive Escape where
  | literal (c : Char)
  | numbered (c : Char)
  | kind ( negated : Bool)
  | edge
  | wordEdge
  deriving DecidableEq, Repr

def numbered (f : Flags) : (digits value : Nat) → List Char → Option (Char × List Char)
  | 0, value, cs => if value.isValidChar then some (Char.ofNat value, cs) else none
  | digits + 1, value, cs =>
    match f.pass cs with
    | [] => none
    | c :: cs => (Hex.value? c).bind fun d => numbered f digits (value * 16 + d) cs

def escape (f : Flags) : List Char → Option (Escape × List Char)
  | [] => none
  | c :: cs =>
    if c = 'x' then byNumber 2 cs
    else if c = 'u' then byNumber 4 cs
    else if c = 'U' then byNumber 8 cs
    else if "dsw".toList.contains c then some (.kind false, cs)
    else if "DSW".toList.contains c then some (.kind true, cs)
    else if "Az".toList.contains c then some (.edge, cs)
    else if "bB<>".toList.contains c then some (.wordEdge, cs)
    else if "aftnrv".toList.contains c || (decide (c.toNat < 0x80) && !c.isAlphanum) then
      some (.literal c, cs)
    else none
where
  byNumber (digits : Nat) (cs : List Char) : Option (Escape × List Char) :=
    (numbered f digits 0 cs).map fun r => (.numbered r.1, r.2)

def Flags.allowsLiteral (f : Flags) : Escape → Bool
  | .numbered c => if f.unicode then !f.ignoreCase else decide (c.toNat < 0x80)
  | .literal _ => !f.unicode || !f.ignoreCase
  | .kind negated => !f.unicode && !negated
  | .edge => true
  | .wordEdge => !f.unicode

def Flags.allowsMember (f : Flags) (c : Char) : Bool :=
  if f.unicode then !f.ignoreCase else decide (c.toNat < 0x80)

end RConsole.Logging.Pattern
