import RConsole.Logging.Pattern.Basic

namespace RConsole.Logging.Pattern

structure Union where
  count : Nat := 0
  depth : Nat := 0
  deriving DecidableEq, Repr

namespace Union

def add (u : Union) (depth : Nat) : Union := ⟨u.count + 1, max u.depth depth⟩

def total (u : Union) : Nat := if u.count ≤ 1 then u.depth else u.depth + 1

end Union

structure Open where
  left : Option Nat := none
  union : Union := {}
  deriving DecidableEq, Repr

namespace Open

def add (o : Open) (depth : Nat) : Open := { o with union := o.union.add depth }

def total (o : Open) : Nat :=
  match o.left with
  | none => o.union.total
  | some left => 1 + max left o.union.total

def operator (o : Open) : Open := { left := some o.total }

end Open

def classNames : List String :=
  ["alnum", "alpha", "ascii", "blank", "cntrl", "digit", "graph", "lower", "print", "punct",
    "space", "upper", "word", "xdigit"]

def named? : List Char → Option (Bool × List Char)
  | ':' :: cs =>
    let negated := cs.head? = some '^'
    let body := if negated then cs.tail else cs
    let name := body.takeWhile (· != ':')
    match body.drop name.length with
    | ':' :: ']' :: rest =>
      if classNames.contains (String.ofList name) then some (negated, rest) else none
    | _ => none
  | _ => none

def hyphens (f : Flags) (u : Union) : (fuel : Nat) → List Char → Union × List Char
  | fuel + 1, '-' :: cs => hyphens f (u.add 0) fuel (f.pass cs)
  | _, cs => (u, cs)

def opened? (f : Flags) (cs : List Char) : Option (Open × List Char) :=
  let cs := f.pass cs
  let negated := cs.head? = some '^'
  let body := if negated then f.pass cs.tail else cs
  let (u, rest) := hyphens f {} body.length body
  let (u, rest) :=
    match u.count, rest with
    | 0, ']' :: rest => (u.add 0, f.pass rest)
    | _, _ => (u, rest)
  if rest = [] ∨ (negated ∧ !f.unicode) ∨ (0 < u.count ∧ !f.allowsMember '-') then none
  else some ({ union := u }, rest)

def item? (f : Flags) : List Char → Option (Escape × List Char)
  | [] => none
  | '\\' :: cs => escape f cs
  | c :: cs => some (.literal c, cs)

def Escape.char? : Escape → Option Char
  | .literal c => some c
  | .numbered c => some c
  | _ => none

def glance (f : Flags) (cs : List Char) : Option Char :=
  if f.spaced then
    match cs.dropWhile isBlank with
    | '#' :: rest => (rest.dropWhile isBlank).head?.or cs.head?
    | [] => cs.head?
    | rest => rest.head?
  else cs.head?

def range? (f : Flags) (cs : List Char) : Option (List Char) := do
  let (first, cs) ← item? f cs
  match f.pass cs with
  | '-' :: rest =>
    if glance f rest = some ']' ∨ glance f rest = some '-' then single first ('-' :: rest)
    else do
      let (last, rest) ← item? f (f.pass rest)
      let low ← first.char?
      let high ← last.char?
      if low ≤ high ∧ f.allowsMember low ∧ f.allowsMember high then some rest else none
  | rest => single first rest
where
  single (e : Escape) (rest : List Char) : Option (List Char) :=
    match e with
    | .kind negated => if f.unicode ∨ negated then none else some rest
    | e => e.char?.bind fun c => if f.allowsMember c then some rest else none

def classRest (f : Flags) :
    (fuel : Nat) → Open → List Open → List Char → Option (Nat × List Char)
  | 0, _, _, _ => none
  | fuel + 1, o, outer, cs =>
    match f.pass cs with
    | [] => none
    | '[' :: rest =>
      match named? rest with
      | some ( negated, rest) =>
        if f.allowsMember 'a' && (f.unicode || !negated) then classRest f fuel (o.add 0) outer rest
        else none
      | none => (opened? f rest).bind fun (inner, rest) => classRest f fuel inner (o :: outer) rest
    | ']' :: rest =>
      match outer with
      | [] => some (1 + o.total, rest)
      | p :: outer => classRest f fuel (p.add (1 + o.total)) outer rest
    | '&' :: '&' :: rest => classRest f fuel o.operator outer rest
    | '-' :: '-' :: rest => classRest f fuel o.operator outer rest
    | '~' :: '~' :: rest => classRest f fuel o.operator outer rest
    | cs => (range? f cs).bind fun rest => classRest f fuel (o.add 0) outer rest

def class? (f : Flags) (cs : List Char) : Option (Nat × List Char) :=
  (opened? f cs).bind fun (o, rest) => classRest f cs.length o [] rest

end RConsole.Logging.Pattern
