namespace RConsole

structure Mods where
  shift : Bool := false
  ctrl : Bool := false
  alt : Bool := false
  superKey : Bool := false
  hyper : Bool := false
  metaKey : Bool := false
  deriving DecidableEq, Repr

inductive KeyCode where
  | char (c : Char)
  | enter
  | backspace
  | left
  | right
  | up
  | down
  | home
  | endKey
  | tab
  | backTab
  | delete
  | insert
  | esc
  | pageUp
  | pageDown
  | capsLock
  | function (n : Nat)
  | null
  deriving DecidableEq, Repr

structure Key where
  code : KeyCode
  mods : Mods := {}
  deriving DecidableEq, Repr

def Key.ofChar (c : Char) : Key := ⟨.char c, {}⟩

/-- One step of what a terminal has to deliver: a key, something that only asks for a redraw, or
so many times nothing. -/
inductive Input where
  | key (key : Key)
  | redraw
  | idle (times : Nat)
  deriving DecidableEq, Repr

namespace Input

def weight : List Input → Nat
  | [] => 0
  | idle n :: rest => n + 1 + weight rest
  | _ :: rest => 1 + weight rest

def poll : List Input → Bool × List Input
  | idle 0 :: rest => poll rest
  | idle (n + 1) :: rest => (false, idle n :: rest)
  | steps => (true, steps)

theorem weight_poll_le (steps : List Input) : weight (poll steps).2 ≤ weight steps := by
  fun_induction poll steps with
  | case1 rest ih => simp only [weight]; omega
  | case2 n rest => simp only [weight]; omega
  | case3 steps => exact Nat.le_refl _

theorem weight_poll_lt {steps : List Input} (h : (poll steps).1 = false) :
    weight (poll steps).2 < weight steps := by
  fun_induction poll steps with
  | case1 rest ih => have := ih h; simp only [weight]; omega
  | case2 n rest => simp only [weight]; omega
  | case3 steps => simp at h

def next? : List Input → Option (Option Key × List Input)
  | [] => none
  | key k :: rest => some (some k, rest)
  | redraw :: rest => some (none, rest)
  | idle _ :: rest => next? rest

theorem weight_next_lt {steps rest : List Input} {k : Option Key}
    (h : next? steps = some (k, rest)) : weight rest < weight steps := by
  fun_induction next? steps with
  | case1 => simp at h
  | case2 k rest => obtain ⟨-, rfl⟩ := Prod.mk.inj (Option.some.inj h); simp [weight]
  | case3 rest => obtain ⟨-, rfl⟩ := Prod.mk.inj (Option.some.inj h); simp [weight]
  | case4 n rest ih => have := ih h; simp only [weight]; omega

end Input

end RConsole
