namespace RConsole

namespace Utf8

abbrev Bytes := List UInt8

def encode (cs : List Char) : Bytes := cs.flatMap String.utf8EncodeChar

theorem encode_cons (c : Char) (cs : List Char) :
    encode (c :: cs) = String.utf8EncodeChar c ++ encode cs := rfl

theorem encode_append (cs ds : List Char) : encode (cs ++ ds) = encode cs ++ encode ds := by
  simp [encode]

def replacement : Char := '\uFFFD'

structure Lead where
  follow : Nat
  lo : UInt8
  hi : UInt8

def lead? (a : UInt8) : Option Lead :=
  if a < 0xC2 then none
  else if a ≤ 0xDF then some ⟨1, 0x80, 0xBF⟩
  else if a = 0xE0 then some ⟨2, 0xA0, 0xBF⟩
  else if a = 0xED then some ⟨2, 0x80, 0x9F⟩
  else if a ≤ 0xEF then some ⟨2, 0x80, 0xBF⟩
  else if a = 0xF0 then some ⟨3, 0x90, 0xBF⟩
  else if a ≤ 0xF3 then some ⟨3, 0x80, 0xBF⟩
  else if a = 0xF4 then some ⟨3, 0x80, 0x8F⟩
  else none

def leadBits (a : UInt8) : Nat → Nat
  | 1 => a.toNat % 32
  | 2 => a.toNat % 16
  | _ => a.toNat % 8

def follow : Nat → (lo hi : UInt8) → (value taken : Nat) → Bytes → Char × Nat
  | 0, _, _, value, taken, _ => (Char.ofNat value, taken)
  | _ + 1, _, _, _, taken, [] => (replacement, taken)
  | k + 1, lo, hi, value, taken, b :: r =>
    if lo ≤ b ∧ b ≤ hi then follow k 0x80 0xBF (value * 64 + b.toNat % 64) (taken + 1) r
    else (replacement, taken)

def first (a : UInt8) (r : Bytes) : Char × Nat :=
  if a < 0x80 then (Char.ofNat a.toNat, 0)
  else match lead? a with
    | none => (replacement, 0)
    | some l => follow l.follow l.lo l.hi (leadBits a l.follow) 0 r

def decodeLossy : Bytes → List Char
  | [] => []
  | a :: r => (first a r).1 :: decodeLossy (r.drop (first a r).2)
termination_by bs => bs.length
decreasing_by simp only [List.length_drop, List.length_cons]; omega

def decode? (bs : Bytes) : Option (List Char) :=
  let cs := decodeLossy bs
  if encode cs = bs then some cs else none

def fitting : (room : Nat) → List Char → List Char
  | _, [] => []
  | room, c :: cs =>
    let size := (String.utf8EncodeChar c).length
    if size ≤ room then c :: fitting (room - size) cs else []

end Utf8

namespace Hex

open Utf8 (Bytes)

def digit (n : Nat) : Char := if n < 10 then Char.ofNat (48 + n) else Char.ofNat (87 + n)

def ofByte (b : UInt8) : List Char := [digit (b.toNat / 16), digit (b.toNat % 16)]

def ofBytes (bs : Bytes) : String := String.ofList (bs.flatMap ofByte)

def value? (c : Char) : Option Nat :=
  if '0' ≤ c ∧ c ≤ '9' then some (c.toNat - 48)
  else if 'a' ≤ c ∧ c ≤ 'f' then some (c.toNat - 87)
  else if 'A' ≤ c ∧ c ≤ 'F' then some (c.toNat - 55)
  else none

def toBytes? : List Char → Option Bytes
  | [] => some []
  | [_] => none
  | a :: b :: cs => do
    let hi ← value? a
    let lo ← value? b
    return UInt8.ofNat (hi * 16 + lo) :: (← toBytes? cs)

def ofWord (w : UInt64) : String :=
  String.ofList ((List.range 16).reverse.map fun i => digit (w.toNat >>> (4 * i) % 16))

end Hex

end RConsole
