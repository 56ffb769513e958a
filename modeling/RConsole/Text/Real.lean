namespace RConsole.Real

def signBit : UInt64 := 0x8000000000000000

def infinity : UInt64 := 0x7FF0000000000000

def notANumber : UInt64 := 0x7FF8000000000000

def nearest (digits : Nat) (exponent : Int) : UInt64 :=
  let magnitude := exponent + (Nat.toDigits 10 digits).length
  if digits = 0 ∨ magnitude < -400 then 0
  else if magnitude > 400 then infinity
  else (Float.ofScientific digits (exponent < 0) exponent.natAbs).toBits

def digits? (cs : List Char) : Option Nat :=
  if cs = [] ∨ !cs.all Char.isDigit then none
  else some (cs.foldl (fun n d => n * 10 + (d.toNat - '0'.toNat)) 0)

def integer? : List Char → Option Int
  | '-' :: cs => (digits? cs).map fun n => -(n : Int)
  | '+' :: cs => (digits? cs).map Int.ofNat
  | cs => (digits? cs).map Int.ofNat

def mantissa? (cs : List Char) : Option (Nat × Nat) :=
  let whole := cs.takeWhile (· ≠ '.')
  let fraction := (cs.dropWhile (· ≠ '.')).drop 1
  (digits? (whole ++ fraction)).map fun n => (n, fraction.length)

def unsigned? (cs : List Char) : Option UInt64 :=
  let name := String.ofList (cs.map Char.toLower)
  if name = "inf" ∨ name = "infinity" then some infinity
  else if name = "nan" then some notANumber
  else do
    let (n, places) ← mantissa? (cs.takeWhile fun c => c ≠ 'e' ∧ c ≠ 'E')
    let power ← match cs.dropWhile fun c => c ≠ 'e' ∧ c ≠ 'E' with
      | [] => some 0
      | _ :: ds => integer? ds
    return nearest n (power - places)

def parse? (text : String) : Option UInt64 :=
  match text.toList with
  | '-' :: cs => (unsigned? cs).map (· ||| signBit)
  | '+' :: cs => unsigned? cs
  | cs => unsigned? cs

structure Spread where
  value : Nat
  low : Nat
  high : Nat
  denominator : Nat
  closed : Bool

def fractions : Nat := 1 <<< 52

def Spread.ofBits (bits : UInt64) : Spread :=
  let fraction := bits.toNat % fractions
  let biased := bits.toNat / fractions % 2048
  let mantissa := if biased = 0 then fraction else fractions + fraction
  let power : Int := Int.ofNat (if biased = 0 then 1 else biased) - 1075
  let unit := 1 <<< power.toNat
  { value := 4 * mantissa * unit
    low := 4 * mantissa * unit - if fraction = 0 ∧ 1 < biased then unit else 2 * unit
    high := (4 * mantissa + 2) * unit
    denominator := 4 <<< (-power).toNat
    closed := mantissa % 2 = 0 }

def leading (a b : Nat) : (fuel : Nat) → Int
  | 0 => 0
  | fuel + 1 => if b ≤ a then (Nat.toDigits 10 (a / b)).length - 1 else leading (a * 10) b fuel - 1

def tenTo (power : Int) : Nat := Nat.pow 10 power.toNat

def Spread.scaled (s : Spread) (digits : Nat) (power : Int) : Nat × Nat :=
  (digits * tenTo power * s.denominator, tenTo (-power))

def Spread.holds (s : Spread) (digits : Nat) (power : Int) : Bool :=
  let (n, scale) := s.scaled digits power
  if s.closed then s.low * scale ≤ n && n ≤ s.high * scale
  else s.low * scale < n && n < s.high * scale

def Spread.distance (s : Spread) (digits : Nat) (power : Int) : Nat :=
  let (n, scale) := s.scaled digits power
  (n - s.value * scale) + (s.value * scale - n)

/-- The best of the two decimals next to the value that are multiples of `10 ^ power`, and the upper
one if both are as near. -/
def Spread.decimal? (s : Spread) (power : Int) : Option Nat :=
  let below := s.value * tenTo (-power) / (s.denominator * tenTo power)
  match s.holds below power, s.holds (below + 1) power with
  | true, true =>
    some (if s.distance below power < s.distance (below + 1) power then below else below + 1)
  | true, false => some below
  | false, true => some (below + 1)
  | false, false => none

def Spread.shortest (s : Spread) (top : Int) : (fuel : Nat) → Nat × Int
  | 0 => (0, 0)
  | fuel + 1 =>
    match s.decimal? top with
    | some digits => (digits, top)
    | none => s.shortest (top - 1) fuel

def positional (digits : Nat) (power : Int) : List Char :=
  let ds := Nat.toDigits 10 (digits * tenTo power)
  let places := (-power).toNat
  if places = 0 then ds ++ ['.', '0']
  else
    let ds := List.replicate (places + 1 - ds.length) '0' ++ ds
    ds.take (ds.length - places) ++ '.' :: ds.drop (ds.length - places)

def text (bits : UInt64) : List Char :=
  let size := bits &&& ~~~signBit
  let sign := if bits &&& signBit = 0 then [] else ['-']
  if size > infinity then ['N', 'a', 'N']
  else if size = infinity then sign ++ ['i', 'n', 'f']
  else if size = 0 then sign ++ ['0', '.', '0']
  else
    let s := Spread.ofBits size
    let (digits, power) := s.shortest (leading s.value s.denominator 400 + 1) 21
    sign ++ positional digits power

end RConsole.Real
