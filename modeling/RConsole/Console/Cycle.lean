import RConsole.Console.Basic
import RConsole.Edit.Editor
import RConsole.Pump

namespace RConsole

inductive CycleResult where
  | line (text : String)
  | interrupted
  | restart
  | endOfInput
  deriving DecidableEq, Repr

def CycleResult.isAgain : CycleResult → Bool
  | .interrupted => true
  | .restart => true
  | _ => false

/-- A source of cycles. A cycle that has to be run again uses up some of a budget. -/
structure Cycles (σ : Type) where
  cycle : String → σ → CycleResult × σ
  budget : σ → Nat
  budget_cycle_lt : ∀ hint s, (cycle hint s).1.isAgain → budget (cycle hint s).2 < budget s

namespace Cycles

variable {σ : Type}

def line (p : Cycles σ) (hint : String) (s : σ) : Option String × σ :=
  match _h : (p.cycle hint s).1 with
  | .line text => (some text, (p.cycle hint s).2)
  | .endOfInput => (none, (p.cycle hint s).2)
  | .interrupted => p.line hint (p.cycle hint s).2
  | .restart => p.line hint (p.cycle hint s).2
termination_by p.budget s
decreasing_by all_goals exact p.budget_cycle_lt hint s (by rw [_h]; rfl)

end Cycles

structure CycleScript where
  results : List CycleResult
  hints : List String := []
  deriving DecidableEq, Repr

namespace CycleScript

def cycle (hint : String) (s : CycleScript) : CycleResult × CycleScript :=
  match s.results with
  | [] => (.endOfInput, { s with hints := s.hints ++ [hint] })
  | r :: rest => (r, ⟨rest, s.hints ++ [hint]⟩)

def cycles : Cycles CycleScript where
  cycle := cycle
  budget s := s.results.length
  budget_cycle_lt hint s h := by
    unfold cycle at h ⊢
    split <;> simp_all [CycleResult.isAgain]

end CycleScript

namespace Console

/-- Prints queued chunks above the prompt, which shows `frame`. What follows a failure is lost. -/
def interleave (frame : Frame) : List Chunk → Console → Except String Unit × Console
  | [], c => (.ok (), c)
  | chunk :: chunks, c =>
    match c.act .interleave (.interleaved chunk frame) with
    | (.ok (), c) => interleave frame chunks c
    | (.error message, c) => (.error message, c)

def check (frame : Frame) (s : Keyed) : Readiness × Keyed :=
  match interleave frame s.1.queue { s.1 with queue := [] } with
  | (.error message, c) => (.failed message, c, s.2)
  | (.ok (), c) =>
    match (c.perform (.asked c.queue)).act .ready .checked with
    | (.error message, c) => (.failed message, c, s.2)
    | (.ok (), c) =>
      (if (Input.poll s.2).1 then .ready else .notReady, c, (Input.poll s.2).2)

theorem weight_check_le (frame : Frame) (s : Keyed) :
    Input.weight (check frame s).2.2 ≤ Input.weight s.2 := by
  unfold check
  split
  · exact Nat.le_refl _
  · split
    · exact Nat.le_refl _
    · exact Input.weight_poll_le _

theorem weight_check_lt {frame : Frame} {s : Keyed} (h : (check frame s).1 = .notReady) :
    Input.weight (check frame s).2.2 < Input.weight s.2 := by
  unfold check at h ⊢
  split at h
  · simp at h
  · split at h
    · simp at h
    · simp only [*]
      refine Input.weight_poll_lt ?_
      cases hp : (Input.poll s.2).1 with
      | false => rfl
      | true => simp [hp] at h

def pump (frame : Frame) : Pump Keyed where
  check := check frame
  step s := let (completed, c) := s.1.eventStep; (completed, c, s.2)
  budget s := Input.weight s.2
  budget_check_le s := weight_check_le frame s
  budget_step_lt _ h := weight_check_lt h

def serve : Option Request → Console → Except String Unit × Console
  | none, c => (.ok (), c)
  | some .clear, c => c.act .clear .cleared
  | some .suspend, c => c.suspend

def conclude (d : Dressing) (e : Editor) (outcome : Outcome) (c : Console) :
    Except TerminalError Outcome × Console :=
  if outcome.leavesPicture then
    match c.act .finish (.finished (d.lastFrame e.buffer)) with
    | (.ok (), c) => (.ok outcome, c)
    | (.error message, c) => (.error (.failed message), c)
  else (.ok outcome, c)

def nextKey (frame : Frame) (s : Keyed) : Except TerminalError (Option Key) × Keyed :=
  match s.1.act .render (.rendered frame) with
  | (.error message, c) => (.error (.failed message), c, s.2)
  | (.ok (), c) =>
    match (pump frame).wait (c, s.2) with
    | (.error message, s) => (.error (.failed message), s)
    | (.ok _, s) =>
      match s.1.call .readKey with
      | (.error message, c) => (.error (.failed message), c, s.2)
      | (.ok (), c) =>
        match Input.next? s.2 with
        | none => (.error .inputClosed, c, s.2)
        | some (key, keys) => (.ok key, c.perform (.keyed key), keys)

theorem weight_nextKey_lt {frame : Frame} {s : Keyed} {k : Option Key}
    (h : (nextKey frame s).1 = .ok k) :
    Input.weight (nextKey frame s).2.2 < Input.weight s.2 := by
  unfold nextKey at h ⊢
  split at h
  · simp at h
  · rename_i c _
    have hw : Input.weight ((pump frame).wait (c, s.2)).2.2 ≤ Input.weight s.2 :=
      (pump frame).budget_wait_le (c, s.2)
    split at h
    · simp at h
    · rename_i hp
      rw [hp] at hw
      split at h
      · simp at h
      · split at h
        · simp at h
        · rename_i hn
          exact Nat.lt_of_lt_of_le (Input.weight_next_lt hn) hw

def edit (d : Dressing) (e : Editor) (s : Keyed) : Except TerminalError Outcome × Keyed :=
  match _h : (nextKey (d.frame e.buffer) s).1 with
  | .error error => (.error error, (nextKey (d.frame e.buffer) s).2)
  | .ok none => edit d e (nextKey (d.frame e.buffer) s).2
  | .ok (some k) =>
    let s' := (nextKey (d.frame e.buffer) s).2
    match e.press k with
    | .done outcome => let (result, c) := s'.1.conclude d e outcome; (result, c, s'.2)
    | .goOn e request =>
      match (s'.1.withKeymap e.keymap).serve request with
      | (.error message, c) => (.error (.failed message), c, s'.2)
      | (.ok (), c) => edit d e (c, s'.2)
termination_by Input.weight s.2
decreasing_by
  · exact weight_nextKey_lt _h
  · exact weight_nextKey_lt _h

theorem weight_edit_lt {d : Dressing} {e : Editor} {s : Keyed} {outcome : Outcome}
    (h : (edit d e s).1 = .ok outcome) :
    Input.weight (edit d e s).2.2 < Input.weight s.2 := by
  fun_induction edit d e s with
  | case1 e s error he => simp at h
  | case2 e s hk ih => exact Nat.lt_trans (ih h) (weight_nextKey_lt hk)
  | case3 e s k hk s' outcome hp result c hc => exact weight_nextKey_lt hk
  | case4 e s k hk s' e' request hp message c hc => simp at h
  | case5 e s k hk s' e' request hp c hc ih => exact Nat.lt_trans (ih h) (weight_nextKey_lt hk)

def readLine (d : Dressing) (e : Editor) (s : Keyed) : Except TerminalError Outcome × Keyed :=
  match s.1.act .enter .entered with
  | (.error message, c) => (.error (.failed message), c, s.2)
  | (.ok (), c) =>
    let (result, c, keys) := edit d e (c.withKeymap e.keymap, s.2)
    -- Raw mode is left whatever became of the line.
    match result, c.act .leave .left with
    | .ok _, (.error message, c) => (.error (.failed message), c, keys)
    | result, (_, c) => (result, c, keys)

theorem weight_readLine_lt {d : Dressing} {e : Editor} {s : Keyed} {outcome : Outcome}
    (h : (readLine d e s).1 = .ok outcome) :
    Input.weight (readLine d e s).2.2 < Input.weight s.2 := by
  unfold readLine at h ⊢
  split at h
  · simp at h
  · rename_i c _
    have hw : ∀ o, (edit d e (c.withKeymap e.keymap, s.2)).1 = .ok o →
        Input.weight (edit d e (c.withKeymap e.keymap, s.2)).2.2 < Input.weight s.2 :=
      fun _ h => weight_edit_lt h
    generalize edit d e (c.withKeymap e.keymap, s.2) = r at h hw ⊢
    obtain ⟨result, c, keys⟩ := r
    cases result with
    | ok o => dsimp only at h ⊢; split <;> exact hw o rfl
    | error error => simp at h

def ensureSettings (c : Console) : Settings × Console :=
  match c.settings with
  | some settings => (settings, c)
  | none =>
    let (settings, engine) := c.loadSettings c.engine
    (settings, { c with settings := some settings, engine := engine })

def drain (c : Console) : Console := c.queue.foldl (fun c chunk => c.print chunk) { c with queue := [] }

def record (spec : Spec) (line : String) (c : Console) : Console :=
  if spec.subPrompt then c
  else
    let c :=
      if spec.history then
        let stamp := c.stamp.after c.history.entries.length
        let (_, history, files) := c.history.append stamp line c.files
        { c with history := history, files := files }
      else c
    { c with modes := c.modes.submitted }

def settle (spec : Spec) (result : Except TerminalError Outcome) (c : Console) :
    CycleResult × Console :=
  match result with
  | .ok (.submitted line) => (.line line, c.record spec line)
  | .ok .interrupted => (.interrupted, c)
  | .ok .endOfInput => (.endOfInput, c)
  | .ok (.modeKey target) => (.restart, c.request target)
  | .error _ => (.endOfInput, c)

def cycle (hint : String) (s : Keyed) : CycleResult × Keyed :=
  let (spec, modes) := s.1.modes.beginCycle hint
  let (settings, c) := ensureSettings { s.1 with modes := modes }
  let dressing := Dressing.ofSettings spec settings c.status
  let editor := Editor.startOver spec settings.editingMode c.history.entries c.keymap
  let (result, c, keys) := readLine dressing editor (c, s.2)
  let (result, c) := c.drain.settle spec result
  (result, c, keys)

theorem weight_cycle_lt {hint : String} {s : Keyed} (h : (cycle hint s).1.isAgain = true) :
    Input.weight (cycle hint s).2.2 < Input.weight s.2 := by
  unfold cycle at h ⊢
  dsimp only at h ⊢
  generalize hr : readLine _ _ _ = r at h ⊢
  obtain ⟨result, c, keys⟩ := r
  cases result with
  | error error => simp [settle, CycleResult.isAgain] at h
  | ok o =>
    have := weight_readLine_lt (congrArg Prod.fst hr)
    rw [hr] at this
    exact this

def cycles : Cycles Keyed where
  cycle := cycle
  budget s := Input.weight s.2
  budget_cycle_lt _ _ h := weight_cycle_lt h

end Console

end RConsole
