import RConsole.Console.Basic
import RConsole.Edit.Key
import RConsole.Engine.Action

namespace RConsole

inductive Answer where
  | notYet
  | key (key : Option Key)
  deriving DecidableEq, Repr

def Answer.key? : Answer → Option (Option Key)
  | notYet => none
  | key k => some k

namespace Input

def answers : List Input → List Answer
  | [] => []
  | key k :: rest => .key (some k) :: answers rest
  | redraw :: rest => .key none :: answers rest
  | idle n :: rest => List.replicate n .notYet ++ answers rest

def keys (steps : List Input) : List (Option Key) := (answers steps).filterMap Answer.key?

theorem poll_cases (steps : List Input) :
    (∃ rest, poll steps = (false, rest) ∧ answers steps = .notYet :: answers rest) ∨
      ∃ rest, poll steps = (true, rest) ∧ answers rest = answers steps ∧ poll rest = (true, rest) := by
  fun_induction poll steps with
  | case1 rest ih => simpa [answers] using ih
  | case2 n rest => exact .inl ⟨_, rfl, by simp [answers, List.replicate_succ]⟩
  | case3 steps h0 h1 =>
    refine .inr ⟨steps, rfl, rfl, ?_⟩
    unfold poll
    split
    · exact absurd rfl (h0 _)
    · exact absurd rfl (h1 _ _)
    · rfl

theorem next_of_poll {steps : List Input} (h : poll steps = (true, steps)) :
    (next? steps = none ∧ answers steps = []) ∨
      ∃ k rest, next? steps = some (k, rest) ∧ answers steps = .key k :: answers rest := by
  cases steps with
  | nil => exact .inl ⟨rfl, rfl⟩
  | cons step rest =>
    cases step with
    | key k => exact .inr ⟨some k, rest, rfl, rfl⟩
    | redraw => exact .inr ⟨none, rest, rfl, rfl⟩
    | idle n =>
      have hw : weight (poll (idle n :: rest)).2 = weight (idle n :: rest) := by rw [h]
      cases n with
      | zero =>
        have := weight_poll_le rest
        simp only [poll, weight] at hw
        omega
      | succ n => simp [poll] at h

end Input

inductive Mark where
  | output (chunk : Chunk)
  | key (key : Option Key)
  deriving DecidableEq, Repr

def told (text : String) : List Chunk :=
  if endsLine text then [⟨text, .out⟩] else [⟨text, .out⟩, ⟨"\n", .out⟩]

namespace Action

def chunks : Action → List Chunk
  | write bytes code => if bytes.isEmpty then [] else [Chunk.ofBytes bytes code]
  | message bytes => told (cString bytes)
  | enqueue chunk => [chunk]
  | _ => []

def printed (actions : List Action) : List Chunk := (actions.takeWhile (· ≠ .fail)).flatMap chunks

def isRequest : Action → Bool
  | request _ => true
  | _ => false

end Action

namespace Answer

def steps (answers : List Answer) : Nat := answers.count .notYet

/-- What is due in the course of some answers, when R does `events` in its event steps. -/
def marks : List Answer → List (List Action) → List Mark
  | [], _ => []
  | notYet :: rest, events =>
    (Action.printed (events.headD [])).map .output ++ marks rest events.tail
  | key k :: rest, events => .key k :: marks rest events

theorem steps_append (first later : List Answer) : steps (first ++ later) = steps first + steps later :=
  List.count_append

theorem marks_append (first later : List Answer) (events : List (List Action)) :
    marks (first ++ later) events = marks first events ++ marks later (events.drop (steps first)) := by
  induction first generalizing events with
  | nil => simp [marks, steps]
  | cons a first ih =>
    cases a with
    | notYet => simp [marks, steps, ih]
    | key k => simp [marks, steps, ih]

end Answer

end RConsole
