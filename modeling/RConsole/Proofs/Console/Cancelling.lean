import RConsole.Proofs.Console.FailedCycles
import RConsole.Proofs.Prompt.Trace

namespace RConsole

theorem Mode.spec_mode (mode : Mode) : mode.spec.mode = mode := by
  cases mode <;> rfl

namespace ModeMachine

theorem beginCycle_spec_mode (m : ModeMachine) {hint : String}
    (h : (Hint.classify hint).commits = true) :
    (m.beginCycle hint).1.mode.spec = (m.beginCycle hint).1 := by
  rw [beginCycle_spec]
  cases hk : Hint.classify hint with
  | topLevel => simp only [Mode.spec_mode]
  | browser => simp only [Mode.spec_mode]
  | other text =>
    rw [hk] at h
    contradiction

theorem beginCycle_again (m : ModeMachine) (hint : String) :
    ((m.beginCycle hint).2.beginCycle hint).1 = match Hint.classify hint with
      | .topLevel =>
        if (m.beginCycle hint).1.mode = .debug then Mode.normal.spec else (m.beginCycle hint).1
      | .browser => Mode.debug.spec
      | .other _ => (m.beginCycle hint).1 := by
  rw [beginCycle_spec, beginCycle_machine, beginCycle_spec]
  cases Hint.classify hint with
  | topLevel =>
    simp only [Hint.commits, if_true, Mode.spec_mode]
    generalize shown m.current m.pending .topLevel = mode
    cases mode <;> rfl
  | browser => rfl
  | other text => rfl

end ModeMachine

namespace Console

namespace Round

def steps (r : Round) : List (List Action) :=
  let events := (r.start.1.begun r.hint).engine.events
  events.take (events.length - r.finish.1.engine.events.length)

def requested (r : Round) : List Mode := r.steps.flatMap Action.requested

theorem modes_edited (r : Round) :
    r.edited.2.1.drain.modes = (r.start.1.modes.beginCycle r.hint).2.requestAll r.requested := by
  obtain ⟨n, hm⟩ := edited_meanwhile r
  obtain ⟨modes, history, files, hf⟩ := r.finish_rest
  have hmodes := hm.modes
  have he : r.finish.1.engine.events = (r.start.1.begun r.hint).engine.events.drop n := by
    rw [hf]
    exact hm.events
  have hs : r.steps = (r.start.1.begun r.hint).engine.events.take n := by
    unfold steps
    dsimp only
    rw [he, List.length_drop, List.take_eq_take_iff]
    omega
  rw [hmodes, requested, hs]
  rfl

theorem modes_interrupted {r : Round} (h : r.result = .interrupted) :
    r.finish.1.modes = (r.start.1.modes.beginCycle r.hint).2.requestAll r.requested := by
  have hr := r.result_eq
  have he : r.edited.1 = .ok .interrupted := by
    rcases he : r.edited.1 with error | (text | _ | _ | target) <;> rw [he, h] at hr <;> simp_all
  rw [r.finish_eq, he]
  exact r.modes_edited

end Round

theorem Round.next_spec {r : Round} (hi : r.result = .interrupted) (hq : r.requested = []) :
    r.next.spec = match Hint.classify r.hint with
      | .topLevel => if r.spec.mode = .debug then Mode.normal.spec else r.spec
      | .browser => Mode.debug.spec
      | .other _ => r.spec := by
  have hm : r.finish.1.modes = (r.start.1.modes.beginCycle r.hint).2 := by
    rw [modes_interrupted hi, hq]
    rfl
  change (r.finish.1.modes.beginCycle r.hint).1 = _
  rw [hm]
  exact ModeMachine.beginCycle_again _ _

/-- At the top level a cancelled line leaves debugging, which is for the browser. -/
theorem cancelled_prompt (hint : Utf8.Bytes) (size : Int) (s : Keyed) (before later : List Round)
    (r : Round) (hr : (Turn.read hint size).rounds s = before ++ r :: later)
    (hi : r.result = .interrupted) (hq : r.requested = []) :
    ∃ later', later = r.next :: later' ∧ match Hint.classify r.hint with
      | .topLevel => r.next.spec = if r.spec.mode = .debug then Mode.normal.spec else r.spec
      | .browser => r.spec.mode = .debug → r.next.spec = r.spec
      | .other _ => r.next.spec = r.spec := by
  have hspec := Round.next_spec hi hq
  simp only [Turn.rounds] at hr
  split at hr
  · have ha : r.result.isAgain = true := by rw [hi]; rfl
    obtain ⟨later', rfl⟩ := rounds_next hr ha
    refine ⟨later', rfl, ?_⟩
    cases hk : Hint.classify r.hint with
    | topLevel =>
      rw [hk] at hspec
      exact hspec
    | browser =>
      have hmode : r.spec.mode.spec = r.spec :=
        r.start.1.modes.beginCycle_spec_mode (by rw [hk]; rfl)
      rw [hk] at hspec
      intro hd
      rw [hspec, ← hmode, hd]
    | other text =>
      rw [hk] at hspec
      exact hspec
  · simp at hr

theorem cancelled_prompt_help :
    let s : Keyed := (eventfulPrompt.1, [.key ⟨.char '?', {}⟩, .idle 1, .key ⟨.char 'x', {}⟩,
      .key ⟨.char 'c', { ctrl := true }⟩, .key ⟨.enter, {}⟩])
    let first : Round := ⟨"> ", (s.1.hold true).lead, s.2⟩
    (Turn.read [0x3E, 0x20] 80).rounds s = [first] ++ first.next :: [first.next.next] ∧
      first.next.result = .interrupted ∧ first.next.steps ≠ [] ∧ first.next.requested = [] ∧
      first.next.spec = Mode.help.spec ∧ first.next.next.spec = Mode.help.spec := by
  intro s first
  have hr : (Turn.read [0x3E, 0x20] 80).rounds s = [first] ++ first.next :: [first.next.next] := by
    have ha : s.1.admits 80 = true := by decide +kernel
    have hh : cString [0x3E, 0x20] = first.hint := by decide +kernel
    rw [Turn.rounds_read ha hh rfl, rounds_again (by decide +kernel), rounds_again (by decide +kernel),
      rounds_last (by decide +kernel)]
    rfl
  have hi : first.next.result = .interrupted := by decide +kernel
  have hq : first.next.requested = [] := by decide +kernel
  have hs : first.next.spec = Mode.help.spec := by decide +kernel
  have hk : Hint.classify first.next.hint = .topLevel := by decide +kernel
  obtain ⟨later, -, hspec⟩ := cancelled_prompt _ _ _ _ _ _ hr hi hq
  rw [hk, hs] at hspec
  exact ⟨hr, hi, by decide +kernel, hq, hs, hspec⟩

/-- Debugging that was asked for at the top level, and help in the browser, are gone after a cancelled line. -/
theorem cancelled_prompt_not_kept :
    let cancel : List Input := [.key ⟨.char 'c', { ctrl := true }⟩, .key ⟨.enter, {}⟩]
    let s : Keyed := ((Turn.request .debug).run (eventfulPrompt.1, cancel)).2
    let r : Round := ⟨"> ", (s.1.hold true).lead, s.2⟩
    let t : Keyed := (eventfulPrompt.1, .key ⟨.char '?', {}⟩ :: cancel)
    let first : Round := ⟨"Browse[1]> ", (t.1.hold true).lead, t.2⟩
    ((Turn.read [0x3E, 0x20] 80).rounds s = [r, r.next] ∧ r.result = .interrupted ∧
      r.requested = [] ∧ r.spec = Mode.debug.spec ∧ r.next.spec = Mode.normal.spec) ∧
    ((Turn.read (Utf8.encode "Browse[1]> ".toList) 80).rounds t = [first, first.next, first.next.next] ∧
      first.next.result = .interrupted ∧ first.next.requested = [] ∧
      first.next.spec = Mode.help.spec ∧ first.next.next.spec = Mode.debug.spec) := by
  intro cancel s r t first
  constructor
  · refine ⟨?_, by decide +kernel, by decide +kernel, by decide +kernel, by decide +kernel⟩
    have ha : s.1.admits 80 = true := by decide +kernel
    have hh : cString [0x3E, 0x20] = r.hint := by decide +kernel
    rw [Turn.rounds_read ha hh rfl, rounds_again (by decide +kernel), rounds_last (by decide +kernel)]
  · refine ⟨?_, by decide +kernel, by decide +kernel, by decide +kernel, by decide +kernel⟩
    have ha : t.1.admits 80 = true := by decide +kernel
    have hh : cString (Utf8.encode "Browse[1]> ".toList) = first.hint := by decide +kernel
    rw [Turn.rounds_read ha hh rfl, rounds_again (by decide +kernel), rounds_again (by decide +kernel),
      rounds_last (by decide +kernel)]

end Console

end RConsole
