import RConsole.Text.Utf8

namespace RConsole.Plain

open Utf8 (Bytes)

inductive Stage where
  | ground
  | escape
  | escapeRest
  | control
  | deviceEntry
  | deviceParameters
  | deviceRest
  | command
  | string
  deriving DecidableEq, Repr

def Stage.next? (s : Stage) (b : UInt8) : Option Stage :=
  if b = 0x18 ∨ b = 0x1A then some .ground
  else if b = 0x1B then some .escape
  else match s with
    | .ground => none
    | .escape =>
      if b = 0x5B then some .control
      else if b = 0x5D then some .command
      else if b = 0x50 then some .deviceEntry
      else if b = 0x58 ∨ b = 0x5E ∨ b = 0x5F then some .string
      else if 0x20 ≤ b ∧ b ≤ 0x2F then some .escapeRest
      else if 0x30 ≤ b ∧ b ≤ 0x7E then some .ground
      else none
    | .escapeRest => if 0x30 ≤ b ∧ b ≤ 0x7E then some .ground else none
    | .control => if 0x40 ≤ b ∧ b ≤ 0x7E then some .ground else none
    | .deviceEntry =>
      if 0x20 ≤ b ∧ b ≤ 0x2F then some .deviceRest
      else if 0x30 ≤ b ∧ b ≤ 0x3F then some .deviceParameters
      else if 0x40 ≤ b ∧ b ≤ 0x7E then some .string
      else none
    | .deviceParameters =>
      if 0x20 ≤ b ∧ b ≤ 0x2F then some .deviceRest
      else if 0x3C ≤ b ∧ b ≤ 0x7E then some .string
      else none
    | .deviceRest => if 0x30 ≤ b ∧ b ≤ 0x7E then some .string else none
    | .command => if b = 0x07 then some .ground else none
    | .string => if b = 0x9C then some .ground else none

def isSpace (b : UInt8) : Bool := b = 0x20 || b = 0x09 || b = 0x0A || b = 0x0C || b = 0x0D

def Stage.shows (s : Stage) (b : UInt8) : Bool :=
  match s with
  | .ground => isSpace b || (0x20 ≤ b && b ≤ 0x7E) || (0xC2 ≤ b && b ≤ 0xF4)
  | .escape => isSpace b && b != 0x20
  | .escapeRest => isSpace b && b != 0x20
  | .control => isSpace b && b != 0x20
  | _ => false

structure State where
  stage : Stage := .ground
  showing : Bool := false
  left : Nat := 0
  deriving DecidableEq, Repr

namespace State

def take (s : State) (b : UInt8) : Bool × State :=
  if 0 < s.left then (true, { s with left := s.left - 1 })
  else
    let stage := if s.showing then .ground else s.stage
    let next := (stage.next? b).getD s.stage
    if stage.shows b then
      match Utf8.lead? b with
      | some l => (true, ⟨.ground, true, l.follow⟩)
      | none => (true, ⟨next, true, 0⟩)
    else (false, ⟨next, false, 0⟩)

def takeAll (s : State) : Bytes → Bytes
  | [] => []
  | b :: bs =>
    let (shown, s) := s.take b
    if shown then b :: s.takeAll bs else s.takeAll bs

end State

def text (s : String) : String :=
  String.ofList (Utf8.decodeLossy (State.takeAll {} (Utf8.encode s.toList)))

end RConsole.Plain
