import RConsole.Proofs.Console.Twins

namespace RConsole

namespace Action

def asked : Action → List Mode
  | request mode => [mode]
  | _ => []

def requested (actions : List Action) : List Mode := (actions.takeWhile (· ≠ .fail)).flatMap asked

end Action

namespace ModeMachine

def requestAll (modes : List Mode) (m : ModeMachine) : ModeMachine := modes.foldl request m

theorem requestAll_append (first later : List Mode) (m : ModeMachine) :
    m.requestAll (first ++ later) = (m.requestAll first).requestAll later := List.foldl_append

end ModeMachine

namespace Console

variable {c c' c'' : Console} {n k : Nat}

/-- A console without its terminal, what waits to be printed and what is only recorded. -/
def aside (c : Console) : Console := { c.bare with terminal := {}, queue := [] }

def Meanwhile (n : Nat) (c c' : Console) : Prop :=
  c'.aside = { c.aside with
    modes := c.modes.requestAll ((c.engine.events.take n).flatMap Action.requested)
    engine := c.aside.engine.plan (c.engine.events.drop n) }

namespace Meanwhile

theorem of_aside (h : c'.aside = c.aside) : Meanwhile 0 c c' := h

theorem modes (h : Meanwhile n c c') :
    c'.modes = c.modes.requestAll ((c.engine.events.take n).flatMap Action.requested) :=
  congrArg Console.modes h

theorem events (h : Meanwhile n c c') : c'.engine.events = c.engine.events.drop n :=
  congrArg (fun c => c.engine.events) h

theorem desk (h : Meanwhile n c c') : c'.desk.bare = c.desk.bare := congrArg Console.desk h

theorem trans (h : Meanwhile n c c') (h' : Meanwhile k c' c'') : Meanwhile (n + k) c c'' := by
  have hm := h.modes
  have he := h.events
  unfold Meanwhile at h h' ⊢
  rw [h', hm, he, h, List.take_add, List.flatMap_append, ModeMachine.requestAll_append, List.drop_drop]
  rfl

end Meanwhile

theorem serve_aside {α : Type} {busy closure : Console → α × Console}
    (hb : ∀ c, (busy c).2.aside = c.aside) (hc : ∀ c, (closure c).2.aside = c.aside) (slot : Slot)
    (c : Console) : (Desk.serve slot busy closure c).2.aside = c.aside := by
  unfold Desk.serve
  split
  · exact hb c
  · rename_i hr
    have hidle : c.desk.running.has slot = false := Bool.not_eq_true _ ▸ hr
    have hback : (c.desk.running.set slot true).set slot false = c.desk.running := by
      rw [Running.set_set, Running.set_has hidle]
    have hset (c : Console) : (Desk.setRunning slot false c).aside =
        { c.aside with desk := { c.aside.desk with running := c.aside.desk.running.set slot false } } :=
      rfl
    dsimp only
    rw [hset, hc]
    change { c.aside with desk := { c.aside.desk with
      running := (c.desk.running.set slot true).set slot false } } = c.aside
    rw [hback]
    rfl

theorem writeWith_aside (bytes : Utf8.Bytes) (code : Int) (c : Console) :
    (c.writeWith enqueue bytes code).aside = c.aside := by
  unfold writeWith Desk.write
  split
  · rfl
  · exact serve_aside (fun _ => rfl) (fun _ => rfl) .write c

theorem messageWith_aside (bytes : Utf8.Bytes) (c : Console) :
    (c.messageWith enqueue bytes).aside = c.aside := by
  unfold messageWith Desk.message
  split
  · rfl
  · refine serve_aside (fun _ => rfl) ?_ .message c
    intro c
    unfold tell
    dsimp only
    split <;> rfl

theorem chain_aside (hook : Hook) (e : Ending) (c : Console) : (chain hook e c).aside = c.aside :=
  congrArg (fun c => { c with terminal := {}, queue := [] }) (chain_bare hook e c)

theorem cleanUp_aside (e : Ending) (c : Console) : (c.cleanUp e).aside = c.aside := by
  have hs : (Desk.serve .cleanUp (fun c => (Ended.returned (), c))
      (fun c => (.returned (), c.finishSession e)) c).2.aside = c.aside :=
    serve_aside (fun _ => rfl) (fun _ => rfl) .cleanUp c
  unfold cleanUp Desk.cleanUp
  split
  · rfl
  · generalize Desk.serve .cleanUp _ _ c = r at hs ⊢
    obtain ⟨_ | _, c'⟩ := r
    · dsimp only
      split
      · exact (chain_aside _ e c').trans hs
      · exact hs
    · exact hs

theorem read_aside (hint : Utf8.Bytes) (size : Int) (c : Console) :
    (atPrompt.read hint size c).2.aside = c.aside := by
  change (Desk.read (fun _ c => (.returned none, c)) hint size c).2.aside = c.aside
  unfold Desk.read
  split
  · rfl
  · exact serve_aside (fun _ => rfl) (fun _ => rfl) .read c

theorem strike_aside (faults : List Fault) (c : Console) : (strike faults c).2.aside = c.aside := by
  induction faults generalizing c with
  | nil => rfl
  | cons f faults ih =>
    unfold strike
    cases f.writes with
    | none =>
      cases f.fails with
      | none => exact ih c
      | some message => rfl
    | some w =>
      have hw := writeWith_aside w.1 w.2 c
      cases f.fails with
      | none => exact (ih _).trans hw
      | some message => exact hw

theorem call_aside (m : Method) (c : Console) : (c.call m).2.aside = c.aside := strike_aside _ _

theorem through_aside (name : String) (hook : Hooks → Option Hook) {call : Console → Console}
    (hc : ∀ c, (call c).aside = c.aside) (c : Console) :
    (Action.through atPrompt name hook call c).aside = c.aside := by
  unfold Action.through
  split
  · exact hc c
  · rfl

theorem action_aside (a : Action) (c : Console) :
    (a.run atPrompt c).2.aside = { c.aside with modes := c.modes.requestAll a.asked } := by
  cases a with
  | write bytes code => exact through_aside _ _ (writeWith_aside bytes code) c
  | message bytes => exact through_aside _ _ (messageWith_aside bytes) c
  | read hint size =>
    have hr (c : Console) : ((atPrompt.read hint size c).2.note
        (.answered (atPrompt.read hint size c).1)).aside = c.aside := read_aside hint size c
    exact through_aside "read" Hooks.read hr c
  | cleanUp e => exact through_aside _ _ (cleanUp_aside e) c
  | request mode => rfl
  | enqueue chunk => rfl
  | fail => rfl

theorem runAll_aside (actions : List Action) (c : Console) :
    (Action.runAll atPrompt actions c).2.aside =
      { c.aside with modes := c.modes.requestAll (Action.requested actions) } := by
  induction actions generalizing c with
  | nil => rfl
  | cons a actions ih =>
    by_cases hf : a = .fail
    · subst hf
      rfl
    · have hg : a.run atPrompt c = (true, (a.run atPrompt c).2) := by
        cases a <;> first | rfl | exact absurd rfl hf
      have hr : Action.requested (a :: actions) = a.asked ++ Action.requested actions := by
        simp [Action.requested, hf]
      have ha := action_aside a c
      have hm : (a.run atPrompt c).2.modes = c.modes.requestAll a.asked := congrArg Console.modes ha
      unfold Action.runAll
      rw [hg, hr, ModeMachine.requestAll_append]
      dsimp only
      rw [ih, hm, ha]

theorem eventStep_meanwhile (c : Console) : Meanwhile 1 c c.eventStep.2 := by
  have hn : ∀ number actions completed c,
      (setEngine (c.engine.noteEvent number actions completed) c).aside = c.aside :=
    fun _ _ _ c => congrArg (fun c => { c with terminal := {}, queue := [] }) (noteEvent_bare _ _ _ c)
  have hr := runAll_aside c.engine.nextEvent.1 (setEngine c.engine.nextEvent.2 c)
  unfold Meanwhile
  rw [eventStep_eq]
  dsimp only
  rw [hn, hr, nextEvent_eq]
  cases c.engine.events with
  | nil => rfl
  | cons actions events =>
    simp only [List.headD_cons, List.take_succ_cons, List.take_zero, List.flatMap_cons, List.flatMap_nil,
      List.append_nil]
    rfl

theorem aside_respected {P : Act → Prop} : RespectedByCalls P fun s t => t.1.aside = s.1.aside where
  refl _ := rfl
  trans h h' := Eq.trans h' h
  call _ c _ := call_aside _ c
  perform _ _ _ := rfl
  unqueue _ _ := rfl
  keymap _ _ _ := rfl

theorem meanwhile_respected {P : Act → Prop} :
    RespectedByKeys P fun s t => ∃ n, Meanwhile n s.1 t.1 where
  refl _ := ⟨0, .of_aside rfl⟩
  trans := by
    rintro s t u ⟨n, h⟩ ⟨k, h'⟩
    exact ⟨n + k, h.trans h'⟩
  call _ c _ := ⟨0, .of_aside (call_aside _ c)⟩
  perform _ _ _ := ⟨0, .of_aside rfl⟩
  unqueue _ _ := ⟨0, .of_aside rfl⟩
  ready c _ := ⟨0, .of_aside (call_aside _ c)⟩
  poll _ _ := ⟨0, .of_aside rfl⟩
  step c _ := ⟨1, eventStep_meanwhile c⟩
  typed _ _ := ⟨0, .of_aside rfl⟩
  keymap _ _ _ := ⟨0, .of_aside rfl⟩

end Console

end RConsole
