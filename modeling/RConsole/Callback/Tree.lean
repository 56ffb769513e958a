import RConsole.Callback.Desk

namespace RConsole

open Utf8 (Bytes)

inductive Call where
  | read (hint : Bytes) (size : Int) (during : List Call) (ends : Ended (Option String))
  | write (bytes : Bytes) (code : Int) (during : List Call) (ends : Ended Unit)
  | message (bytes : Bytes) (during : List Call) (ends : Ended Unit)
  | cleanUp (ending : Ending) (during : List Call) (ends : Ended Unit)

inductive Heard where
  | hint (text : String)
  | nested (reply : Reply)
  | write (chunk : Chunk)
  | message (text : String)
  | cleanUp (ending : Ending)
  | previous (ending : Ending)
  deriving DecidableEq, Repr

structure Visit where
  desk : Desk
  heard : Array Heard := #[]

instance : HasDesk Visit where
  desk := Visit.desk
  withDesk d v := { v with desk := d }

def Visit.hear (h : Heard) (v : Visit) : Visit := { v with heard := v.heard.push h }

def Visit.chain (hook : Hook) (e : Ending) (v : Visit) : Visit :=
  match hook with
  | .own => v.hear (.previous e)
  | .console => v

mutual

def Call.run : Call → Visit → Reply × Visit
  | .read hint size during ends, v =>
    Desk.read (fun text v => (ends, Call.runAll during (v.hear (.hint text)))) hint size v
  | .write bytes code during ends, v =>
    (.untouched,
      Desk.write (fun chunk v => (ends, Call.runAll during (v.hear (.write chunk)))) bytes code v)
  | .message bytes during ends, v =>
    (.untouched,
      Desk.message (fun text v => (ends, Call.runAll during (v.hear (.message text)))) bytes v)
  | .cleanUp ending during ends, v =>
    (.untouched,
      Desk.cleanUp (fun e v => (ends, Call.runAll during (v.hear (.cleanUp e)))) Visit.chain ending v)

def Call.runAll : List Call → Visit → Visit
  | [], v => v
  | .read hint size during ends :: calls, v =>
    let (reply, v) := Call.run (.read hint size during ends) v
    Call.runAll calls (v.hear (.nested reply))
  | call :: calls, v => Call.runAll calls (Call.run call v).2

end

end RConsole
