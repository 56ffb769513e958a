import RConsole.Config.Item
import RConsole.Text.Real
import RConsole.Text.Utf8

namespace RConsole.Toml

abbrev Reader := StateT (List Char) Option

namespace Reader

def peek? : Reader (Option Char) := do return (← get).head?

def take : Reader Char := fun cs =>
  match cs with
  | [] => none
  | c :: cs => some (c, cs)

def takeIf (p : Char → Bool) : Reader Char := do
  let c ← take
  if p c then return c else failure

def char (c : Char) : Reader Unit := do let _ ← takeIf (· == c)

def literal (cs : List Char) : Reader Unit := cs.forM char

def takeWhile (p : Char → Bool) : Reader (List Char) := fun cs =>
  some (cs.takeWhile p, cs.dropWhile p)

def takeWhile1 (p : Char → Bool) : Reader (List Char) := do
  let cs ← takeWhile p
  if cs.isEmpty then failure else return cs

def exactly (p : Char → Bool) : Nat → Reader (List Char)
  | 0 => return []
  | n + 1 => do
    let c ← takeIf p
    return c :: (← exactly p n)

def atEnd : Reader Unit := do if (← get).isEmpty then return () else failure

def option {α : Type} (r : Reader α) : Reader (Option α) := some <$> r <|> pure none

def spanned {α : Type} (r : Reader α) : Reader (Span × α) := do
  let start := (← get).length
  let a ← r
  return (⟨start, (← get).length⟩, a)

def sees (cs : List Char) : Reader Bool := do return cs.isPrefixOf (← get)

end Reader

open Reader

def isSpace (c : Char) : Bool := c == ' ' || c == '\t'

def isPlain (c : Char) : Bool := c == '\t' || (' ' ≤ c && c ≠ '\x7f')

def isDigit (c : Char) : Bool := '0' ≤ c && c ≤ '9'

def isBareKey (c : Char) : Bool := c.isAlphanum || c == '-' || c == '_'

def spaces : Reader Unit := do let _ ← takeWhile isSpace

def newline : Reader Unit := char '\n' <|> literal ['\r', '\n']

def comment : Reader Unit := do
  char '#'
  let _ ← takeWhile isPlain

def lineEnd : Reader Unit := newline <|> atEnd

def trailing : Reader Unit := do
  spaces
  let _ ← option comment
  lineEnd

def filling : (fuel : Nat) → Reader Unit
  | 0 => return ()
  | fuel + 1 => do
    spaces
    match ← option (do let _ ← option comment; newline) with
    | some () => filling fuel
    | none => return ()

namespace Reader

def codePoint (digits : List Char) : Option Char := do
  let n ← (digits.mapM Hex.value?).map fun ns => ns.foldl (fun n d => n * 16 + d) 0
  if n.isValidChar then some (Char.ofNat n) else none

def escaped : Reader Char := do
  match ← take with
  | 'b' => return '\x08'
  | 't' => return '\t'
  | 'n' => return '\n'
  | 'f' => return '\x0c'
  | 'r' => return '\r'
  | '"' => return '"'
  | '\\' => return '\\'
  | 'u' => do StateT.lift (codePoint (← exactly (fun c => (Hex.value? c).isSome) 4))
  | 'U' => do StateT.lift (codePoint (← exactly (fun c => (Hex.value? c).isSome) 8))
  | _ => failure

def quoted : (fuel : Nat) → Reader (List Char)
  | 0 => failure
  | fuel + 1 => do
    match ← take with
    | '"' => return []
    | '\\' => do
      let c ← escaped
      return c :: (← quoted fuel)
    | c => if isPlain c then return c :: (← quoted fuel) else failure

def raw : (fuel : Nat) → Reader (List Char)
  | 0 => failure
  | fuel + 1 => do
    match ← take with
    | '\'' => return []
    | c => if isPlain c then return c :: (← raw fuel) else failure

def quoteRun (q : Char) : Reader (List Char × Bool) := do
  let run := (← get).takeWhile (· == q)
  let length := min run.length 5
  set ((← get).drop length)
  if length < 3 then return (List.replicate length q, false)
  else return (List.replicate (length - 3) q, true)

def blankLines : (fuel : Nat) → Reader Unit
  | 0 => return ()
  | fuel + 1 => do
    spaces
    match ← option newline with
    | some () => blankLines fuel
    | none => return ()

def lineJoin (fuel : Nat) : Reader Unit := do
  spaces
  newline
  blankLines fuel

def long (q : Char) (escapes : Bool) : (fuel : Nat) → Reader (List Char)
  | 0 => failure
  | fuel + 1 => do
    match ← peek? with
    | none => failure
    | some '\n' => do newline; return '\n' :: (← long q escapes fuel)
    | some '\r' => do newline; return '\n' :: (← long q escapes fuel)
    | some c =>
      if c = q then do
        let (quotes, done) ← quoteRun q
        if done then return quotes else return quotes ++ (← long q escapes fuel)
      else if c = '\\' ∧ escapes then do
        let _ ← take
        match ← option (lineJoin fuel) with
        | some () => long q escapes fuel
        | none => do
          let c ← escaped
          return c :: (← long q escapes fuel)
      else if isPlain c then do
        let _ ← take
        return c :: (← long q escapes fuel)
      else failure

end Reader

def shortText (fuel : Nat) : Reader (List Char) :=
  (do char '"'; quoted fuel) <|> (do char '\''; raw fuel)

def text (fuel : Nat) : Reader (List Char) := do
  let longText (q : Char) (escapes : Bool) : Reader (List Char) := do
    literal [q, q, q]
    let _ ← option newline
    long q escapes fuel
  if ← sees ['"', '"', '"'] then longText '"' true
  else if ← sees ['\'', '\'', '\''] then longText '\'' false
  else shortText fuel

def grouped (p : Char → Bool) : (fuel : Nat) → Reader (List Char)
  | 0 => failure
  | fuel + 1 => do
    let ds ← takeWhile1 p
    match ← option (do char '_'; grouped p fuel) with
    | some more => return ds ++ more
    | none => return ds

def number (base : Nat) (digits : List Char) : Nat :=
  digits.foldl (fun n c => n * base + (Hex.value? c).getD 0) 0

def sign : Reader Bool := (do char '-'; return true) <|> (do let _ ← option (char '+'); return false)

def decimal (fuel : Nat) : Reader (List Char) := do
  match ← peek? with
  | some '0' => do
    let _ ← take
    return ['0']
  | _ => grouped isDigit fuel

def inRange (n : Int) : Reader Int :=
  if -9223372036854775808 ≤ n ∧ n ≤ 9223372036854775807 then return n else failure

def based (mark : Char) (base : Nat) (fuel : Nat) : Reader Int := do
  literal ['0', mark]
  let ds ← grouped (fun c => match Hex.value? c with | some v => v < base | none => false) fuel
  inRange (number base ds)

def integer (fuel : Nat) : Reader Int :=
  based 'x' 16 fuel <|> based 'o' 8 fuel <|> based 'b' 2 fuel <|> do
    let negative ← sign
    let n := number 10 (← decimal fuel)
    inRange (if negative then -n else n)

def exponent (fuel : Nat) : Reader Int := do
  let _ ← takeIf fun c => c == 'e' || c == 'E'
  let negative ← sign
  let n := number 10 (← grouped isDigit fuel)
  return if negative then -n else n

def signed (negative : Bool) (bits : UInt64) : UInt64 :=
  if negative then bits ||| Real.signBit else bits

def decimalReal (fuel : Nat) : Reader UInt64 := do
  let negative ← sign
  let whole ← decimal fuel
  let fraction ← option (do char '.'; grouped isDigit fuel)
  let power ← option (exponent fuel)
  if fraction.isNone && power.isNone then failure
  let places := (fraction.getD []).length
  let bits := Real.nearest (number 10 (whole ++ fraction.getD [])) (power.getD 0 - places)
  if bits = Real.infinity ∧ !negative then failure
  return signed negative bits

def real (fuel : Nat) : Reader UInt64 := decimalReal fuel <|> do
  let negative ← sign
  (do literal ['i', 'n', 'f']; return signed negative Real.infinity) <|>
    (do literal ['n', 'a', 'n']; return signed negative Real.notANumber)

def field (digits lo hi : Nat) : Reader Nat := do
  let n := number 10 (← exactly isDigit digits)
  if lo ≤ n ∧ n ≤ hi then return n else failure

def daysIn (year month : Nat) : Nat :=
  if month = 2 then
    if year % 4 = 0 ∧ (year % 100 ≠ 0 ∨ year % 400 = 0) then 29 else 28
  else if month = 4 ∨ month = 6 ∨ month = 9 ∨ month = 11 then 30
  else 31

def day : Reader Unit := do
  let year ← field 4 0 9999
  char '-'
  let month ← field 2 1 12
  char '-'
  let _ ← field 2 1 (daysIn year month)

def time : Reader Unit := do
  let _ ← field 2 0 23
  char ':'
  let _ ← field 2 0 59
  char ':'
  let _ ← field 2 0 60
  let _ ← option (do char '.'; takeWhile1 isDigit)

def zone : Reader Unit := do
  let c ← takeIf fun c => c == 'Z' || c == 'z' || c == '+' || c == '-'
  if c == '+' || c == '-' then do
    let _ ← field 2 0 23
    char ':'
    let _ ← field 2 0 59

def date : Reader Unit :=
  (do
    day
    let _ ← option (do
      let _ ← takeIf fun c => c == 'T' || c == 't' || c == ' '
      time
      option zone)) <|> time

def maxDepth : Nat := 79

def keyPart (fuel : Nat) : Reader Key := do
  spaces
  let (span, name) ← spanned (takeWhile1 isBareKey <|> shortText fuel)
  spaces
  return ⟨name, span⟩

def keyParts : (fuel : Nat) → Reader (List Key)
  | 0 => failure
  | fuel + 1 => do
    let k ← keyPart fuel
    match ← option (char '.') with
    | some () => return k :: (← keyParts fuel)
    | none => return [k]

def key (fuel : Nat) : Reader (List Key × Key) := do
  let parts ← keyParts fuel
  if maxDepth < parts.length then failure
  match parts.getLast? with
  | some k => return (parts.dropLast, k)
  | none => failure

mutual

def value (depth : Nat) : (fuel : Nat) → Reader Item
  | 0 => failure
  | fuel + 1 => do
    let (span, item) ← spanned (unplaced depth fuel)
    return item span

def unplaced (depth : Nat) : (fuel : Nat) → Reader (Span → Item)
  | 0 => failure
  | fuel + 1 => do
    let scalar {α : Type} (make : Span → α → Item) (r : Reader α) : Reader (Span → Item) := do
      let a ← r
      return fun span => make span a
    match ← peek? with
    | some '"' => scalar .text (text fuel)
    | some '\'' => scalar .text (text fuel)
    | some '[' => do
      let _ ← take
      if depth = 0 then failure
      scalar .array (items (depth - 1) fuel)
    | some '\x7b' => do
      let _ ← take
      if depth = 0 then failure
      let entries ← StateT.lift (Table.ofPairs (← pairs (depth - 1) fuel))
      return fun span => .table .braces (some span) entries
    | some 't' => do literal ['t', 'r', 'u', 'e']; return fun span => .boolean span true
    | some 'f' => do literal ['f', 'a', 'l', 's', 'e']; return fun span => .boolean span false
    | _ => (do date; return .date) <|> scalar .real (real fuel) <|> scalar .integer (integer fuel)

def items (depth : Nat) : (fuel : Nat) → Reader (List Item)
  | 0 => failure
  | fuel + 1 => do
    filling fuel
    (do char ']'; return []) <|> do
      let item ← value depth fuel
      filling fuel
      (do char ']'; return [item]) <|> do
        char ','
        return item :: (← items depth fuel)

def pairs (depth : Nat) : (fuel : Nat) → Reader (List ((List Key × Key) × Item))
  | 0 => failure
  | fuel + 1 => do
    spaces
    (do char '\x7d'; return []) <|> pairs1 depth fuel

def pairs1 (depth : Nat) : (fuel : Nat) → Reader (List ((List Key × Key) × Item))
  | 0 => failure
  | fuel + 1 => do
    let k ← key fuel
    char '='
    spaces
    let item ← value depth fuel
    spaces
    (do char '\x7d'; return [(k, item)]) <|> do
      char ','
      return (k, item) :: (← pairs1 depth fuel)

end

def bracketed (fuel : Nat) : Reader (Bool × List Key × Key) := do
  char '['
  if ← sees ['['] then do
    char '['
    let k ← key fuel
    literal [']', ']']
    return (true, k)
  else do
    let k ← key fuel
    char ']'
    return (false, k)

def header (fuel : Nat) (d : Document) : Reader Document := do
  let (span, inRow, path, k) ← spanned (bracketed fuel)
  trailing
  StateT.lift (if inRow then d.openRow span path k else d.openTable span path k)

def assignment (fuel : Nat) (d : Document) : Reader Document := do
  let (path, k) ← key fuel
  char '='
  spaces
  let item ← value maxDepth fuel
  trailing
  StateT.lift (d.assign path k item)

def lines : (fuel : Nat) → Document → Reader Document
  | 0, _ => failure
  | fuel + 1, d => do
    spaces
    match ← peek? with
    | none => return d
    | some '#' => do comment; lineEnd; lines fuel d
    | some '\n' => do newline; lines fuel d
    | some '\r' => do newline; lines fuel d
    | some '[' => do lines fuel (← header fuel d)
    | some _ => do lines fuel (← assignment fuel d)

def read? (cs : List Char) : Option Entries := do
  let cs := if cs.head? = some '\uFEFF' then cs.tail else cs
  let (d, _) ← (lines (3 * cs.length + 3) {}).run cs
  d.close

end RConsole.Toml
