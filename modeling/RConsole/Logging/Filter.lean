import RConsole.Logging.Pattern
import RConsole.Text.Pieces
import RConsole.Text.Real
import RConsole.Text.Words

namespace RConsole.Logging

inductive Level where
  | off
  | error
  | warn
  | info
  | debug
  | trace
  deriving DecidableEq, Repr

namespace Level

def rank : Level → Nat
  | off => 0
  | error => 1
  | warn => 2
  | info => 3
  | debug => 4
  | trace => 5

def all : List (String × Level) :=
  [("off", off), ("error", error), ("warn", warn), ("info", info), ("debug", debug), ("trace", trace)]

def number? (cs : List Char) : Option Nat :=
  let ds := if cs.head? = some '+' then cs.tail else cs
  if ds = [] ∨ !ds.all Char.isDigit then none
  else some (ds.foldl (fun n d => n * 10 + (d.toNat - '0'.toNat)) 0)

def parse? (cs : List Char) : Option Level :=
  match number? cs with
  | some n => (all.map Prod.snd)[n]?
  | none =>
    let name := String.ofList (cs.map Char.toLower)
    (all.find? fun l => l.1 = name).map Prod.snd

end Level

inductive Flaw where
  | malformed
  | splitCharacter
  deriving DecidableEq, Repr

structure Directive where
  level : Level := .trace
  target : Option (List Char) := none
  span : Option (List Char) := none
  fields : List (List Char × Option (List Char)) := []
  deriving DecidableEq, Repr

namespace Directive

inductive Reading where
  | start
  | levelOrTarget (start : Nat)
  | span (start : Nat)
  | field (start : Nat)
  | fields
  | target
  | level (start : Nat)
  deriving DecidableEq, Repr

def dropBytes : (n : Nat) → List Char → Except Flaw (List Char)
  | 0, cs => .ok cs
  | _ + 1, [] => .ok []
  | n + 1, c :: cs =>
    if c.utf8Size ≤ n + 1 then dropBytes (n + 1 - c.utf8Size) cs else .error .splitCharacter

def takeBytes : (n : Nat) → List Char → Except Flaw (List Char)
  | 0, _ => .ok []
  | _ + 1, [] => .ok []
  | n + 1, c :: cs =>
    if c.utf8Size ≤ n + 1 then (takeBytes (n + 1 - c.utf8Size) cs).map (c :: ·)
    else .error .splitCharacter

def slice (whole : List Char) (start stop : Nat) : Except Flaw (List Char) :=
  dropBytes start whole >>= takeBytes (stop - start)

def splitField (cs : List Char) : List Char × Option (List Char) :=
  match pieces (· == '=') cs with
  | name :: value :: _ => (name, some value)
  | name :: _ => (name, none)
  | [] => ([], none)

def isField (f : List Char × Option (List Char)) : Bool :=
  match f.2 with
  | none => true
  | some value => (Real.parse? (String.ofList value)).isSome || Pattern.isPattern value

def startsTarget (c : Char) : Bool := c == '-' || c == ':' || c == '_' || isAlphanumeric c

def next (whole : List Char) (i : Nat) (c : Char) (d : Directive) :
    Reading → Except Flaw (Directive × Reading)
  | .start =>
    if c = '[' then .ok (d, .span (i + 1))
    else if startsTarget c then .ok (d, .levelOrTarget i)
    else .error .malformed
  | .levelOrTarget start =>
    if c = '=' then targeted start (.level (i + 1))
    else if c = '[' then targeted start (.span (i + 1))
    else .ok (d, .levelOrTarget start)
  | .span start =>
    if c = ']' then (slice whole start i).map fun name => ({ d with span := some name }, .target)
    else if c = '\x7b' then (slice whole start i).map fun name =>
      ({ d with span := if name = [] then none else some name }, .field (i + 1))
    else .ok (d, .span start)
  | .field start =>
    if c = '\x7d' then (slice whole start i).bind fun text =>
      if text = [] ∨ !isField (splitField text) then .error .malformed
      else .ok ({ d with fields := d.fields ++ [splitField text] }, .fields)
    else .ok (d, .field start)
  | .fields => if c = ']' then .ok (d, .target) else .error .malformed
  | .target => if c = '=' then .ok (d, .level (i + 1)) else .error .malformed
  | .level start => .ok (d, .level start)
where
  targeted (start : Nat) (r : Reading) : Except Flaw (Directive × Reading) :=
    (slice whole start i).map fun name => ({ d with target := some name }, r)

def readAll (whole : List Char) (i : Nat) (d : Directive) (r : Reading) :
    List Char → Except Flaw (Directive × Reading)
  | [] => .ok (d, r)
  | c :: cs => do
    let (d, r) ← next whole i c d r
    readAll whole (i + c.utf8Size) d r cs

def finish (whole : List Char) (d : Directive) : Reading → Except Flaw Directive
  | .levelOrTarget start =>
    (dropBytes start whole).map fun text =>
      match Level.parse? text with
      | some level => { d with level := level, target := none }
      | none => { d with target := some text }
  | .level start =>
    (dropBytes start whole).bind fun text =>
      if text = [] then .ok d
      else match Level.parse? text with
        | some level => .ok { d with level := level }
        | none => .error .malformed
  | .target => .ok d
  | _ => .error .malformed

def parse (whole : List Char) : Except Flaw Directive := do
  let (d, r) ← readAll whole 0 {} .start (trim whole)
  d.finish whole r

def isStatic (d : Directive) : Bool := d.span.isNone && d.fields.all fun f => f.2.isNone

def fieldNames (d : Directive) : List (List Char) := d.fields.map Prod.fst

def weight (d : Directive) : Nat × Nat :=
  (match d.target with
    | some t => t.length + 1
    | none => 0, d.fields.length)

def concerns (d : Directive) (target : List Char) (fields : List (List Char)) : Bool :=
  (match d.target with
    | some t => t.isPrefixOf target
    | none => true) && d.fields.all fun f => fields.contains f.1

end Directive

structure Filter where
  directives : List Directive
  deriving DecidableEq, Repr

namespace Filter

def parse (cs : List Char) : Except Flaw Filter :=
  (((pieces (· == ',') cs).filter (· ≠ [])).mapM Directive.parse).map fun ds => ⟨ds⟩

def effective (f : Filter) : List Directive :=
  if f.directives = [] then [{ level := .error }] else f.directives.filter Directive.isStatic

def better (a b : Directive) : Bool :=
  let (x, y) := a.weight
  let (u, v) := b.weight
  u < x || (u = x && (v < y || (v = y && !decide (a.fieldNames < b.fieldNames))))

def passes (f : Filter) (level : Level) (target : List Char) (fields : List (List Char)) : Bool :=
  match f.effective.filter fun d => d.concerns target fields with
  | [] => false
  | d :: ds =>
    let best := ds.foldl (fun best d => if better d best then d else best) d
    level.rank ≤ best.level.rank

end Filter

end RConsole.Logging
