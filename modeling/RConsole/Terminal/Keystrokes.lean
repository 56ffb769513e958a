import RConsole.Edit.Key
import RConsole.Text.Pieces
import RConsole.Text.Utf8

/-!
What a terminal delivers, read from the bytes that it sends: keys, and reports that only ask for a
redraw. Bytes are held back until they are whole; those that mean nothing are dropped.
-/
namespace RConsole.Keystrokes

open Utf8 (Bytes)

def key (code : KeyCode) (mods : Mods := {}) : List Input := [.key ⟨code, mods⟩]

def modsOf (n : Nat) : Mods :=
  let bit (i : Nat) : Bool := (n - 1).testBit i
  ⟨bit 0, bit 2, bit 1, bit 3, bit 4, bit 5⟩

def number? (limit : Nat) (field : Bytes) : Option Nat :=
  let ds := if field.head? = some 0x2B then field.tail else field
  if ds = [] ∨ !ds.all fun d => 0x30 ≤ d && d ≤ 0x39 then none
  else
    let n := ds.foldl (fun n d => n * 10 + (d.toNat - 0x30)) 0
    if n < limit then some n else none

def byteLimit : Nat := 0x100

def wordLimit : Nat := 0x10000

def fields (body : Bytes) : List Bytes := pieces (· == 0x3B) body

def parts (field : Bytes) : List Bytes := pieces (· == 0x3A) field

structure Usage where
  mods : Mods := {}
  released : Bool := false

def usage? (field : Option Bytes) : Option Usage :=
  match field.map parts with
  | some (mask :: kinds) =>
    (number? byteLimit mask).map fun n =>
      ⟨modsOf n, kinds.head?.bind (number? byteLimit) = some 3⟩
  | _ => none

def Usage.input (u : Usage) (code : KeyCode) : List Input :=
  if u.released then [.redraw] else key code u.mods

def ofLetter (b : UInt8) : Option KeyCode :=
  if b = 0x41 then some .up
  else if b = 0x42 then some .down
  else if b = 0x43 then some .right
  else if b = 0x44 then some .left
  else if b = 0x48 then some .home
  else if b = 0x46 then some .endKey
  else if 0x50 ≤ b ∧ b ≤ 0x53 then some (.function (b.toNat - 0x4F))
  else none

def ofNumber (n : Nat) : Option KeyCode :=
  if n = 1 ∨ n = 7 then some .home
  else if n = 2 then some .insert
  else if n = 3 then some .delete
  else if n = 4 ∨ n = 8 then some .endKey
  else if n = 5 then some .pageUp
  else if n = 6 then some .pageDown
  else if 11 ≤ n ∧ n ≤ 15 then some (.function (n - 10))
  else if 17 ≤ n ∧ n ≤ 21 then some (.function (n - 11))
  else if 23 ≤ n ∧ n ≤ 26 then some (.function (n - 12))
  else if 28 ≤ n ∧ n ≤ 29 then some (.function (n - 15))
  else if 31 ≤ n ∧ n ≤ 34 then some (.function (n - 17))
  else none

def pad : List KeyCode :=
  "0123456789./*-+".toList.map KeyCode.char ++
    [.enter, .char '=', .char ',', .left, .right, .up, .down, .pageUp, .pageDown, .home, .endKey,
      .insert, .delete]

def ofCodePoint (n : Nat) (shift : Bool) : Option KeyCode :=
  if 57399 ≤ n ∧ n ≤ 57426 then pad[n - 57399]?
  else if 57358 ≤ n ∧ n ≤ 57363 ∨ 57376 ≤ n ∧ n ≤ 57398 ∨ 57427 ≤ n ∧ n ≤ 57454 then some .null
  else if !n.isValidChar then none
  else match Char.ofNat n with
    | '\x1b' => some .esc
    | '\r' => some .enter
    | '\t' => some (if shift then .backTab else .tab)
    | '\x7f' => some .backspace
    | c => some (.char c)

def byCodePoint (fs : List Bytes) : List Input :=
  let u := (usage? fs[1]?).getD {}
  let codes := parts (fs.headD [])
  match (number? UInt32.size (codes.headD [])).bind (ofCodePoint · u.mods.shift) with
  | none => []
  | some code =>
    match codes[1]?.bind (number? UInt32.size), u.mods.shift with
    | some n, true =>
      if n.isValidChar then
        { u with mods := { u.mods with shift := false } }.input (.char (Char.ofNat n))
      else u.input code
    | _, _ => u.input code

def byNumber (fs : List Bytes) : List Input :=
  match (number? byteLimit (fs.headD [])).bind ofNumber with
  | some code => ((usage? fs[1]?).getD {}).input code
  | none => []

def byLetter (final : UInt8) (body : Bytes) : List Input :=
  let u := match usage? (fields body)[1]? with
    | some u => some u
    | none => (body.getLast?.bind fun d => number? byteLimit [d]).map fun n => ⟨modsOf n, false⟩
  match u, ofLetter final with
  | some u, some code => u.input code
  | _, _ => []

def isMouse (n : Nat) : Bool :=
  let button := n % 4 + n / 64 * 4
  decide (button ≤ if n.testBit 5 then 5 else 7)

def areWords (fs : List Bytes) : Bool :=
  match fs with
  | x :: y :: _ => (number? wordLimit x).isSome && (number? wordLimit y).isSome
  | _ => false

def mouse (base : Nat) (fs : List Bytes) : List Input :=
  match (fs.head?).bind (number? byteLimit) with
  | some n => if base ≤ n && isMouse (n - base) && areWords fs.tail then [.redraw] else []
  | none => []

/-- An answer of the terminal, for which nobody waits: it takes up one check. -/
def answer : List Input := [.idle 1]

def numbered (body : Bytes) (final : UInt8) : List Input :=
  let fs := fields body
  if (Utf8.decode? body).isNone then []
  else if final = 0x4D then mouse 32 fs
  else if final = 0x7E then byNumber fs
  else if final = 0x75 then byCodePoint fs
  else if final = 0x52 then if areWords fs then answer else []
  else byLetter final body

def isFinal (b : UInt8) : Bool := 64 ≤ b && b ≤ 126

def pasteStart : Bytes := Utf8.encode "200~".toList

def pasteEnd : Bytes := 0x1B :: Utf8.encode "[201~".toList

def sequence? (rest : Bytes) : Option (List Input) :=
  let last := rest.getLastD 0
  match rest with
  | [] => none
  | [0x5B] => none
  | 0x5B :: b :: _ =>
    some (if 0x41 ≤ b ∧ b ≤ 0x45 then key (.function (b.toNat - 0x40)) else [])
  | 0x5A :: _ => some (key .backTab { shift := true })
  | 0x4D :: cb :: _ :: _ :: _ =>
    some (if 32 ≤ cb && isMouse (cb.toNat - 32) then [.redraw] else [])
  | 0x4D :: _ => none
  | 0x3C :: body =>
    if last = 0x4D ∨ last = 0x6D then some (mouse 0 (fields body.dropLast)) else none
  | 0x49 :: _ => some [.redraw]
  | 0x4F :: _ => some [.redraw]
  | 0x3F :: body =>
    if (last = 0x75 ∧ 2 ≤ body.length) ∨ last = 0x63 then some answer else none
  | b :: body =>
    if 0x30 ≤ b ∧ b ≤ 0x39 then
      if body = [] ∨ !isFinal last then none
      else if pasteStart.isPrefixOf rest then
        if pasteEnd.isSuffixOf rest then some [.redraw] else none
      else some (numbered rest.dropLast last)
    else if b = 0x52 then some []
    else some ((ofLetter b).elim [] (key ·))

def announced (b : UInt8) : Nat :=
  if b < 0x80 then 1
  else if b < 0xC0 then 0
  else if b < 0xE0 then 2
  else if b < 0xF0 then 3
  else if b < 0xF8 then 4
  else 0

def single? (alt : Bool) (b : UInt8) (rest : Bytes) : Option (List Input) :=
  let held (mods : Mods) : Mods := { mods with alt := alt }
  let control (first : Char) (low : UInt8) : List Input :=
    key (.char (Char.ofNat (first.toNat + (b - low).toNat))) (held { ctrl := true })
  if b = 0x0D then some (key .enter (held {}))
  else if b = 0x09 then some (key .tab (held {}))
  else if b = 0x7F then some (key .backspace (held {}))
  else if b = 0x00 then some (control ' ' 0x00)
  else if b ≤ 0x1A then some (control 'a' 0x01)
  else if b < 0x20 then some (control '4' 0x1C)
  else match Utf8.decode? (b :: rest) with
    | some (c :: _) => some (key (.char c) (held { shift := 'A' ≤ c && c ≤ 'Z' }))
    | _ =>
      if rest.all (fun t => 0x80 ≤ t && t < 0xC0) && rest.length + 1 < announced b then none
      else some []

/-- What the bytes held so far make, if they are whole; `more` tells whether others wait behind. -/
def whole? (more : Bool) : Bytes → Option (List Input)
  | [] => none
  | [0x1B] => if more then none else some (key .esc)
  | 0x1B :: 0x5B :: rest => sequence? rest
  | [0x1B, 0x4F] => none
  | 0x1B :: 0x4F :: b :: _ => some ((ofLetter b).elim [] (key ·))
  | 0x1B :: 0x1B :: _ => some (key .esc)
  | 0x1B :: b :: rest => single? true b rest
  | b :: rest => single? false b rest

def inputsFrom (held : Bytes) : Bytes → List Input
  | [] => []
  | b :: rest =>
    match whole? (!rest.isEmpty) (held ++ [b]) with
    | some steps => steps ++ inputsFrom [] rest
    | none => inputsFrom (held ++ [b]) rest

def inputs (bytes : Bytes) : List Input := inputsFrom [] bytes

end RConsole.Keystrokes
