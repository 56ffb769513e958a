import RConsole.Engine.Action
import RConsole.Engine.Error
import RConsole.Engine.Objects

namespace RConsole

structure Traits where
  omitted : List String := []
  offset : Int := 48
  secondOffset : Int := 48
  options : List (String × Value) := []
  globals : List (String × Value) := []
  exits : Bool := false
  deriving Repr

structure Scalar where
  address : UInt64
  payload : UInt64
  value : Int
  deriving DecidableEq, Repr

structure Engine where
  traits : Traits := {}
  hooks : Hooks := {}
  events : List (List Action) := []
  steps : Nat := 0
  scalars : List Scalar := []
  shielded : Int := 0
  offset? : Option Int := none
  notes : Array Note := #[]
  deriving Repr

namespace Engine

def note (n : Note) (e : Engine) : Engine := { e with notes := e.notes.push n }

def exports (e : Engine) (name : String) : Bool := !e.traits.omitted.contains name

def makeScalar (value : Int) (e : Engine) : UInt64 × Engine :=
  let number := e.scalars.length
  let address := UInt64.ofNat (0x100000 + 0x10000 * number)
  let offset := if number % 2 = 0 then e.traits.offset else e.traits.secondOffset
  (address, { e with scalars := ⟨address, Layout.address address offset, value⟩ :: e.scalars })

def heap : Heap Engine where
  scalar := makeScalar
  payload object e := (((e.scalars.find? (·.address = object)).map Scalar.payload).getD 0, e)
  protect object e := (object, { e with shielded := e.shielded + 1 })
  release n e :=
    { e with shielded := e.shielded - n }.note (.protectBalance (e.shielded - n))
  word address e := ((e.scalars.find? (·.payload = address)).map Scalar.value).getD 0

def offset (e : Engine) : Except RuntimeError Int × Engine :=
  match Layout.ensure heap e.offset? e with
  | (.ok k, known, e) => (.ok k, { e with offset? := known })
  | (.error k, known, e) => (.error (.layoutMismatch k), { e with offset? := known })

def lookUp (values : List (String × Value)) (name : String) : Option OptionValue :=
  if '\x00' ∈ name.toList then none
  else ((values.find? fun v => v.1 = name).map Prod.snd).bind Value.decode

def option (e : Engine) (name : String) : Option OptionValue := lookUp e.traits.options name

def global? (e : Engine) (name : String) : Option OptionValue := lookUp e.traits.globals name

def settings (base : Settings) (e : Engine) : Settings × Engine :=
  match e.offset with
  | (.ok _, e) => (base.override e.option, e)
  | (.error _, e) => (base, e)

def version (e : Engine) : Option String × Engine :=
  match e.offset with
  | (.ok _, e) => ((e.global? "R.version.string").bind OptionValue.asText?, e)
  | (.error _, e) => (none, e)

def hasHandlers (e : Engine) : Bool :=
  e.exports "R_checkActivity" && e.exports "R_runHandlers" && e.exports "R_InputHandlers"

def nextEvent (e : Engine) : List Action × Engine :=
  match e.events with
  | [] => ([], { e with steps := e.steps + 1 })
  | actions :: events => (actions, { e with steps := e.steps + 1, events := events })

def noteEvent (number : Nat) (actions : List Action) (completed : Bool) (e : Engine) : Engine :=
  let e := if actions.isEmpty then e else e.note (.event number completed)
  if completed && e.hasHandlers then (e.note .activityChecked).note .handlersRun else e

end Engine

end RConsole
