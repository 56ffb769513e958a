import RConsole.Settings
import RConsole.Text.Utf8

/-!
Objects of R in memory, as its functions tell of them, and how the first item of one is read: text and
reals by functions of R, integers and truth values at their offset.
-/
namespace RConsole

open Utf8 (Bytes)

inductive Element where
  | chars (bytes : Bytes)
  | missing
  | bare
  deriving DecidableEq, Repr

def Element.chars? : Element → Option Bytes
  | .chars bytes => some (bytes.takeWhile (· != 0))
  | .missing => some (Utf8.encode ['N', 'A'])
  | .bare => none

inductive Value where
  | absent
  | nil
  | text (items : List Element)
  | logical (items : List Int)
  | integer (items : List Int)
  | real (items : List UInt64)
  | other (length : Nat)
  deriving DecidableEq, Repr

namespace Value

def missingInteger : Int := -2147483648

def isNaN (bits : UInt64) : Bool := bits <<< 1 > 0xFFE0000000000000

def decode : Value → Option OptionValue
  | text (e :: _) => e.chars?.map fun bytes => .text (String.ofList (Utf8.decodeLossy bytes))
  | logical (n :: _) => if n = missingInteger then none else some (.logical (n ≠ 0))
  | integer (n :: _) => if n = missingInteger then none else some (.integer n)
  | real (bits :: _) => if isNaN bits then none else some (.real bits)
  | _ => none

end Value

structure Heap (σ : Type) where
  scalar : Int → σ → UInt64 × σ
  payload : UInt64 → σ → UInt64 × σ
  protect : UInt64 → σ → UInt64 × σ
  release : Nat → σ → σ
  word : UInt64 → σ → Int

namespace Layout

def payloadOffset (object payload : UInt64) : Int := (payload - object).toInt64.toInt

def maxHeader : Int := 256

def isValid (offset : Int) : Bool := 0 < offset && offset < maxHeader && offset % 4 = 0

def sentinel : Int := 0x5eed

def address (object : UInt64) (offset : Int) : UInt64 := object + UInt64.ofInt offset

/-- The offset that was measured and works, or the one that does not. -/
def measure {σ : Type} (h : Heap σ) (s : σ) : Except Int Int × σ :=
  let (zero, s) := h.scalar 0 s
  let (payload, s) := h.payload zero s
  let offset := payloadOffset zero payload
  if isValid offset then
    let (object, s) := h.scalar sentinel s
    -- Whatever is not protected may be collected when R is called.
    let (object, s) := h.protect object s
    let found := h.word (address object offset) s
    let s := h.release 1 s
    (if found = sentinel then .ok offset else .error offset, s)
  else (.error offset, s)

def ensure {σ : Type} (h : Heap σ) (known : Option Int) (s : σ) : Except Int Int × Option Int × σ :=
  match known with
  | some offset => (.ok offset, known, s)
  | none =>
    match measure h s with
    | (.ok offset, s) => (.ok offset, some offset, s)
    | (.error offset, s) => (.error offset, none, s)

end Layout

structure Objects where
  nil : UInt64
  kind : UInt64 → Int
  length : UInt64 → Int
  item : UInt64 → Nat → UInt64
  chars : UInt64 → Option Bytes
  real : UInt64 → UInt64
  word : UInt64 → Int
  option : String → UInt64

namespace Objects

def logicalKind : Int := 10

def integerKind : Int := 13

def realKind : Int := 14

def textKind : Int := 16

def decode (o : Objects) (offset : Int) (x : UInt64) : Option OptionValue :=
  if x = 0 ∨ x = o.nil ∨ o.length x < 1 then none
  else if o.kind x = textKind then
    -- The missing text has characters as well: those of its name.
    (o.chars (o.item x 0)).map fun bytes => .text (String.ofList (Utf8.decodeLossy bytes))
  else if o.kind x = logicalKind then
    let n := o.word (Layout.address x offset)
    if n = Value.missingInteger then none else some (.logical (n ≠ 0))
  else if o.kind x = integerKind then
    let n := o.word (Layout.address x offset)
    if n = Value.missingInteger then none else some (.integer n)
  else if o.kind x = realKind then
    if Value.isNaN (o.real x) then none else some (.real (o.real x))
  else none

def get (o : Objects) (offset : Int) (name : String) : Option OptionValue :=
  if '\x00' ∈ name.toList then none else o.decode offset (o.option name)

end Objects

end RConsole
