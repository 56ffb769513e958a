import RConsole.Callback.Tree

/-!
The moments of a tree of calls: what each call is told, prints past its closure and answers, given
the closures of the calls around it. All of it is read off the tree.
-/
namespace RConsole

open Utf8 (Bytes)

namespace Call

def slot : Call → Slot
  | read .. => .read
  | write .. => .write
  | message .. => .message
  | cleanUp .. => .cleanUp

def hasWork : Call → Bool
  | read _ size _ _ => 0 < size
  | write bytes _ _ _ => !bytes.isEmpty
  | _ => true

def isLive (registered : List Slot) (c : Call) : Bool := registered.contains c.slot && c.hasWork

def runs (registered around : List Slot) (c : Call) : Bool :=
  c.isLive registered && !around.contains c.slot

def opening : Call → Heard
  | read hint _ _ _ => .hint (cString hint)
  | write bytes code _ _ => .write (.ofBytes bytes code)
  | message bytes _ _ => .message (cString bytes)
  | cleanUp ending _ _ => .cleanUp ending

def overflow? : Call → Option Chunk
  | write bytes code _ _ => some (.ofBytes bytes code)
  | message bytes _ _ => some ⟨cString bytes, .out⟩
  | _ => none

def answer : Call → Reply
  | read _ size _ (.returned line) => .ofLine? size.toNat line
  | _ => .untouched

def reply (registered around : List Slot) (c : Call) : Reply :=
  if c.runs registered around then c.answer else .untouched

theorem reply_of_answer {c : Call} (h : c.answer = .untouched) (registered around : List Slot) :
    c.reply registered around = .untouched := by
  rw [reply, h, ite_self]

def panics : Call → Bool
  | read _ _ _ .panicked => true
  | write _ _ _ .panicked => true
  | message _ _ .panicked => true
  | cleanUp _ _ .panicked => true
  | _ => false

end Call

/-- The start or the end of a call, with the closures that run around it. -/
inductive Moment where
  | made (around : List Slot) (call : Call)
  | ended (around : List Slot) (call : Call)

namespace Moment

def heard? (registered : List Slot) (previous : Option Hook) : Moment → Option Heard
  | made around c => if c.runs registered around then some c.opening else none
  | ended around c =>
    match c with
    | .read .. => if around = [] then none else some (.nested (c.reply registered around))
    | .cleanUp ending _ _ =>
      if c.isLive registered && !(c.runs registered around && c.panics) && previous = some .own then
        some (.previous ending)
      else none
    | _ => none

def direct? (registered : List Slot) : Moment → Option Chunk
  | made around c => if c.isLive registered && around.contains c.slot then c.overflow? else none
  | ended .. => none

end Moment

namespace Call

def enclose (registered around : List Slot) (c : Call) (during : List Moment) : List Moment :=
  .made around c :: (if c.runs registered around then during else []) ++ [.ended around c]

mutual

def moments (registered around : List Slot) : Call → List Moment
  | .read hint size during ends =>
    enclose registered around (.read hint size during ends)
      (momentsAll registered (.read :: around) during)
  | .write bytes code during ends =>
    enclose registered around (.write bytes code during ends)
      (momentsAll registered (.write :: around) during)
  | .message bytes during ends =>
    enclose registered around (.message bytes during ends)
      (momentsAll registered (.message :: around) during)
  | .cleanUp ending during ends =>
    enclose registered around (.cleanUp ending during ends)
      (momentsAll registered (.cleanUp :: around) during)

def momentsAll (registered around : List Slot) : List Call → List Moment
  | [] => []
  | c :: calls => moments registered around c ++ momentsAll registered around calls

end

end Call

namespace Visit

def after (heard : List Heard) (direct : List Chunk) (v : Visit) : Visit where
  desk := { v.desk with direct := v.desk.direct ++ direct.toArray }
  heard := v.heard ++ heard.toArray

theorem after_nil (v : Visit) : v.after [] [] = v := by
  simp [after]

theorem after_after (v : Visit) (h h' : List Heard) (d d' : List Chunk) :
    (v.after h d).after h' d' = v.after (h ++ h') (d ++ d') := by
  simp [after]

theorem hear_eq (v : Visit) (x : Heard) : v.hear x = v.after [x] [] := by
  simp [after, hear]

theorem writeDirect_eq (v : Visit) (chunk : Chunk) : Desk.writeDirect chunk v = v.after [] [chunk] := by
  simp [after, Desk.writeDirect, HasDesk.desk, HasDesk.withDesk]

theorem setRunning_after (v : Visit) (h : List Heard) (d : List Chunk) (slot : Slot) (b : Bool) :
    Desk.setRunning slot b (v.after h d) = (Desk.setRunning slot b v).after h d := rfl

def through (ms : List Moment) (v : Visit) : Visit :=
  v.after (ms.filterMap (Moment.heard? v.desk.registered v.desk.previous))
    (ms.filterMap (Moment.direct? v.desk.registered))

theorem through_append (ms ms' : List Moment) (v : Visit) :
    v.through (ms ++ ms') = (v.through ms).through ms' := by
  simp only [through, List.filterMap_append]
  exact (after_after ..).symm

theorem through_singleton (m : Moment) (v : Visit) :
    v.through [m] = v.after (m.heard? v.desk.registered v.desk.previous).toList
      (m.direct? v.desk.registered).toList := by
  cases hh : m.heard? v.desk.registered v.desk.previous <;>
    cases hd : m.direct? v.desk.registered <;> simp [through, hh, hd]

end Visit

namespace Call

def close (around : List Slot) (c : Call) (r : Reply × Visit) : Visit :=
  match c with
  | .read .. => if around = [] then r.2 else r.2.hear (.nested r.1)
  | _ => r.2

theorem runAll_cons {around : List Slot} (h : around ≠ []) (c : Call) (calls : List Call) (v : Visit) :
    runAll (c :: calls) v = runAll calls (c.close around (c.run v)) := by
  cases c <;> simp [runAll, close, h]

variable {around : List Slot} {c : Call} {v : Visit}

theorem runs_eq (registered around : List Slot) (c : Call) :
    c.runs registered around = (c.isLive registered && !around.contains c.slot) := rfl

theorem through_made (h : c.runs v.desk.registered around = true) :
    v.through [.made around c] = v.hear c.opening := by
  have hs : around.contains c.slot = false := by
    rw [runs_eq, Bool.and_eq_true] at h
    simpa using h.2
  rw [Visit.through_singleton, Moment.heard?, Moment.direct?, h, hs, Bool.and_false, Visit.hear_eq]
  rfl

theorem through_made_busy (h : c.isLive v.desk.registered = true) (hs : around.contains c.slot = true) :
    v.through [.made around c] = v.after [] c.overflow?.toList := by
  rw [Visit.through_singleton, Moment.heard?, Moment.direct?, runs_eq, h, hs]
  rfl

theorem through_made_dead (h : c.isLive v.desk.registered = false) : v.through [.made around c] = v := by
  rw [Visit.through_singleton, Moment.heard?, Moment.direct?, runs_eq, h]
  exact v.after_nil

theorem through_ended (h : c.slot ≠ .cleanUp) :
    v.through [.ended around c] = c.close around (c.reply v.desk.registered around, v) := by
  rw [Visit.through_singleton]
  cases c with
  | read hint size during ends =>
    by_cases ha : around = []
    · simp only [Moment.heard?, Moment.direct?, close, if_pos ha]
      exact v.after_nil
    · simp only [Moment.heard?, Moment.direct?, close, if_neg ha, Visit.hear_eq]
      rfl
  | write bytes code during ends => exact v.after_nil
  | message bytes during ends => exact v.after_nil
  | cleanUp ending during ends => exact absurd rfl h

theorem through_cons (m : Moment) (ms : List Moment) : v.through (m :: ms) = (v.through [m]).through ms :=
  Visit.through_append [m] ms v

def opened (registered around : List Slot) (c : Call) (during : List Moment) : List Moment :=
  .made around c :: if c.runs registered around then during else []

variable {inner : List Moment}

theorem opened_dead (h : c.isLive v.desk.registered = false) :
    v.through (c.opened v.desk.registered around inner) = v := by
  rw [opened, runs_eq, h, through_cons, through_made_dead h]
  exact v.after_nil

theorem opened_busy (h : c.isLive v.desk.registered = true) (hs : around.contains c.slot = true) :
    v.through (c.opened v.desk.registered around inner) = v.after [] c.overflow?.toList := by
  rw [opened, runs_eq, h, hs, through_cons, through_made_busy h hs]
  exact Visit.after_nil _

theorem opened_runs (h : c.runs v.desk.registered around = true) :
    v.through (c.opened v.desk.registered around inner) = (v.hear c.opening).through inner := by
  rw [opened, if_pos h, through_cons, through_made h]

theorem runs_of_live (h : c.isLive v.desk.registered = true) (hs : around.contains c.slot = false) :
    c.runs v.desk.registered around = true := by
  rw [runs_eq, h, hs]
  rfl

end Call

end RConsole
